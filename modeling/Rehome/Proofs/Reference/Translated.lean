import Rehome.Proofs.Reference.Texts

/-! # Translating while renaming

A walk that renames each place and then translates the texts the place has itself follows the walk that only
renames (`document_follows`): it needs the same cards as far as it gets, and if it succeeds it comes to the same
document with each text translated once. If it ends at a text, that is one of the texts of the document as it was
at first. -/

namespace Rehome

open Label

variable {tr : String → Except MigrationError String} {texts : List String} {α β α' β' : Type}

/-! ## Plans that follow plans -/

/-- The second plan needs what the first one needs, as far as it gets. If it succeeds, the first one does with a
related value, and if it ends at a text, that is one of some texts. -/
structure Plan.Follows (tr : String → Except MigrationError String) (texts : List String) (E : α → β → Prop)
    (x : Plan α) (y : Plan β) : Prop where
  needs : y.needs <+: x.needs
  ok {b : β} : y.outcome = .ok b → y.needs = x.needs ∧ ∃ a, x.outcome = .ok a ∧ E a b
  label {cause : TranslateError} : y.outcome = .error (.label cause) → ∃ t ∈ texts, tr t = .error (.label cause)

namespace Plan.Follows

variable {E : α → β → Prop} {E' : α' → β' → Prop} {x : Plan α} {y : Plan β}

theorem pure {a : α} {b : β} (h : E a b) : Follows tr texts E (Pure.pure a) (Pure.pure b) where
  needs := List.prefix_rfl
  ok hb := ⟨rfl, a, rfl, Except.ok.inj hb ▸ h⟩
  label h := by cases h

theorem bind {f : α → Plan α'} {g : β → Plan β'} (h : Follows tr texts E x y)
    (hfg : ∀ a b, x.outcome = .ok a → E a b → Follows tr texts E' (f a) (g b)) :
    Follows tr texts E' (x >>= f) (y >>= g) := by
  cases hy : y.outcome with
  | error e =>
    rw [bind_of_error hy]
    refine ⟨h.needs.trans ?_, fun hb => (by cases hb),
      fun he => h.label (hy.trans (congrArg _ (Except.error.inj he)))⟩
    cases hx : x.outcome with
    | error e => rw [bind_of_error hx]
    | ok a =>
      rw [bind_of_ok hx]
      exact List.prefix_append _ _
  | ok b =>
    obtain ⟨hneeds, a, ha, hE⟩ := h.ok hy
    have hlater := hfg a b ha hE
    rw [bind_of_ok hy, bind_of_ok ha, hneeds]
    refine ⟨(List.prefix_append_right_inj _).2 hlater.needs, fun hb => ?_, hlater.label⟩
    obtain ⟨hlaterNeeds, a', ha', hE'⟩ := hlater.ok hb
    exact ⟨congrArg _ hlaterNeeds, a', ha', hE'⟩

theorem imp {E₁ : α → β → Prop} (h : Follows tr texts E x y) (hE : ∀ a b, x.outcome = .ok a → E a b → E₁ a b) :
    Follows tr texts E₁ x y where
  needs := h.needs
  ok hb := by
    obtain ⟨hneeds, a, ha, hab⟩ := h.ok hb
    exact ⟨hneeds, a, ha, hE a _ ha hab⟩
  label := h.label

end Plan.Follows

/-- The plan does not end at a text. -/
def Plan.NoLabel (α : Type) (x : Plan α) : Prop := ∀ cause, x.outcome ≠ .error (.label cause)

namespace Plan

theorem closed_noLabel : Closed NoLabel where
  pure a cause h := by cases h
  bind {α β x f} hx hf cause h := by
    cases houtcome : x.outcome with
    | error e =>
      rw [bind_of_error houtcome] at h
      exact hx cause (houtcome.trans (congrArg _ (Except.error.inj h)))
    | ok a =>
      rw [bind_of_ok houtcome] at h
      exact hf a cause h

theorem follows_self {x : Plan α} (h : NoLabel α x) : Follows tr texts Eq x x where
  needs := List.prefix_rfl
  ok {b} hb := ⟨rfl, b, hb, rfl⟩
  label he := absurd he (h _)

end Plan

/-! ## Values with translated texts -/

/-- The second value is the first one with all texts translated. -/
structure Label.Scheme.Translates (s : Scheme) (tr : String → Except MigrationError String) (j j' : Json) :
    Prop where
  eq : j' = s.reword (Scheme.rendered tr) j
  texts : ∀ t ∈ s.texts j, tr t = .ok (Scheme.rendered tr t)

namespace Label.Scheme

variable {s own : Scheme} {j : Json}

theorem translates_none (j : Json) : Translates .none tr j j := ⟨rfl, fun _ ht => by cases ht⟩

/-- Translating the texts of a value needs nothing, and either translates all or ends at one. -/
theorem follows_mapTexts {E : α → Json → Prop} (hs : s.Apart) {a : α} (htexts : s.texts j ⊆ texts)
    (hE : (∀ t ∈ s.texts j, tr t = .ok (rendered tr t)) → E a (s.reword (rendered tr) j)) :
    Plan.Follows tr texts E (pure a) (s.mapTexts (fun t => Plan.ofExcept (tr t)) j) := by
  have hlift : s.mapTexts (fun t => Plan.ofExcept (tr t)) j = Plan.ofExcept (s.mapTexts tr j) :=
    (s.mapTexts_related Plan.compatible_ofExcept (fun _ => rfl) j).symm
  rw [hlift, mapTexts_except hs]
  cases hall : (s.texts j).mapM tr with
  | error e =>
    refine ⟨List.prefix_rfl, fun hb => (by cases hb), fun he => ?_⟩
    obtain ⟨t, ht, htr⟩ := Except.exists_error_of_mapM hall
    exact ⟨t, htexts ht, htr.trans (congrArg _ (Except.error.inj he))⟩
  | ok results =>
    refine .pure (hE fun t ht => ?_)
    obtain ⟨t', ht'⟩ := Except.exists_ok_of_mapM hall ht
    rw [rendered, ht']

/-- Where only objects hold texts, other values have none. -/
theorem follows_onObj {p q : Json → Plan Json} (hs : s.OfObjects)
    (h : Plan.Follows tr texts (s.Translates tr) (p j) (q j)) :
    Plan.Follows tr texts (s.Translates tr) (j.onObj p) (j.onObj q) := by
  cases hj : j.isObj with
  | true =>
    cases j with
    | obj ms => exact h
    | _ => cases hj
  | false =>
    have hnot : ¬j.isObj := by simp [hj]
    have hself : s.Translates tr j j := by
      refine ⟨(congrArg Id.run (mapTexts_of_not_isObj (m := Id) hs hnot _)).symm, fun t ht => ?_⟩
      rw [texts_of_not_isObj hs hnot] at ht
      cases ht
    cases j with
    | obj ms => cases hj
    | _ => exact .pure hself

theorem follows_mapM {p q : Json → Plan Json} {js : List Json} (htexts : js.flatMap s.texts ⊆ texts)
    (h : ∀ v, s.texts v ⊆ texts → Plan.Follows tr texts (s.Translates tr) (p v) (q v)) :
    Plan.Follows tr texts (fun as bs => bs = as.map (s.reword (rendered tr)) ∧
      ∀ t ∈ as.flatMap s.texts, tr t = .ok (rendered tr t)) (js.mapM p) (js.mapM q) := by
  induction js with
  | nil => exact .pure ⟨rfl, fun t ht => by cases ht⟩
  | cons v js ih =>
    rw [List.flatMap_cons, List.append_subset] at htexts
    rw [List.mapM_cons, List.mapM_cons]
    refine (h v htexts.1).bind fun a b _ hab => (ih htexts.2).bind fun as bs _ hall => .pure ⟨?_, ?_⟩
    · rw [List.map_cons, hab.eq, hall.1]
    · rw [List.flatMap_cons]
      exact fun t ht => (List.mem_append.1 ht).elim (hab.texts t) (hall.2 t)

theorem follows_onItems {p q : Json → Plan Json} (htexts : (Scheme.items s).texts j ⊆ texts)
    (h : ∀ v, s.texts v ⊆ texts → Plan.Follows tr texts (s.Translates tr) (p v) (q v)) :
    Plan.Follows tr texts ((Scheme.items s).Translates tr) (j.onItems p) (j.onItems q) := by
  cases j with
  | arr js =>
    rw [texts_items_arr] at htexts
    refine (follows_mapM htexts h).bind fun as bs _ hall => .pure ⟨?_, ?_⟩
    · rw [reword_items_arr, hall.1]
    · rw [texts_items_arr]
      exact hall.2
  | _ => exact .pure ⟨rfl, fun t ht => by cases ht⟩

end Label.Scheme

/-! ## Places under way -/

/-- Some members of a value have been walked. -/
structure Underway (tr : String → Except MigrationError String) (own : Scheme) (v : Json)
    (done : List (String × Scheme)) (touched : List String) (a b : Json) : Prop where
  translated : (Scheme.within done .none).Translates tr a b
  own : own.texts a = own.texts v
  rest : ∀ key ∉ touched, a.member? key = v.member? key

namespace Underway

variable {own : Scheme} {v a b : Json} {done : List (String × Scheme)} {touched : List String}
  {p q : Json → Plan Json}

theorem start (v : Json) : Underway tr own v [] [] v v := ⟨Scheme.translates_none v, rfl, fun _ _ => rfl⟩

/-- One more member is walked. -/
theorem onMember (key : String) (s : Scheme) (h : Underway tr own v done touched a b) (hdone : done.map Prod.fst ⊆ touched)
    (hkey : key ∉ touched) (hown : own.Ignores key)
    (hpq : ∀ w, v.member? key = some w → Plan.Follows tr texts (s.Translates tr) (p w) (q w)) :
    Plan.Follows tr texts (Underway tr own v (done ++ [(key, s)]) (key :: touched))
      (a.onMember key p) (b.onMember key q) := by
  have hignores : (Scheme.within done .none).Ignores key := Scheme.ignores_within (fun h => hkey (hdone h)) trivial
  have ha : a.member? key = v.member? key := h.rest key hkey
  have hb : b.member? key = v.member? key := by rw [h.translated.eq, Scheme.member?_reword hignores, ha]
  have htouched {k : String} (hk : k ∉ key :: touched) : k ≠ key ∧ k ∉ touched := not_or.1 (mt List.mem_cons.2 hk)
  have htexts (a' : Json) (ha' : (Scheme.within done .none).texts a' = (Scheme.within done .none).texts a)
      (hs : ∀ t ∈ (a'.member? key).elim [] s.texts, tr t = .ok (Scheme.rendered tr t)) :
      ∀ t ∈ (Scheme.within (done ++ [(key, s)]) .none).texts a', tr t = .ok (Scheme.rendered tr t) := by
    rw [Scheme.within_append, Scheme.texts_within, ha', Scheme.within_cons, Scheme.texts_member]
    intro t ht
    rcases List.mem_append.1 ht with ht | ht
    · exact h.translated.texts t ht
    · exact hs t ((List.mem_append.1 ht).elim id fun ht => by cases ht)
  cases hv : v.member? key with
  | none =>
    rw [Json.onMember_of_none (ha.trans hv), Json.onMember_of_none (hb.trans hv)]
    refine .pure ⟨⟨?_, htexts a rfl ?_⟩, h.own, fun k hk => h.rest k (htouched hk).2⟩
    · rw [Scheme.within_append, Scheme.reword_within, ← h.translated.eq, Scheme.within_cons, Scheme.reword_member, hb.trans hv]
      rfl
    · rw [ha.trans hv]
      exact fun t ht => by cases ht
  | some w =>
    rw [Json.onMember_of_some (ha.trans hv), Json.onMember_of_some (hb.trans hv)]
    refine (hpq w hv).bind fun w₀ w₁ _ hw => .pure ⟨⟨?_, htexts _ (Scheme.texts_setMember hignores a w₀) ?_⟩,
      (Scheme.texts_setMember hown a w₀).trans h.own, fun k hk => ?_⟩
    · rw [Scheme.within_append, Scheme.reword_within, Scheme.reword_setMember hignores, ← h.translated.eq, Scheme.within_cons,
        Scheme.reword_member, Json.member?_setMember_self (Json.isObj_of_member? (hb.trans hv))]
      dsimp only
      rw [Json.setMember_setMember, hw.eq]
      rfl
    · rw [Json.member?_setMember_self (Json.isObj_of_member? (ha.trans hv))]
      exact hw.texts
    · rw [Json.member?_setMember_of_ne (htouched hk).1, h.rest k (htouched hk).2]

/-- One more member is walked, which holds no texts. -/
theorem onMember_same (key : String) (h : Underway tr own v done touched a b) (hdone : done.map Prod.fst ⊆ touched)
    (hkey : key ∉ touched) (hown : own.Ignores key) (hp : ∀ w, Plan.NoLabel Json (p w)) :
    Plan.Follows tr texts (Underway tr own v done (key :: touched)) (a.onMember key p) (b.onMember key p) := by
  have hself (w : Json) : Plan.Follows tr texts (Scheme.Translates .none tr) (p w) (p w) :=
    (Plan.follows_self (hp w)).imp fun x y _ hxy => hxy ▸ Scheme.translates_none x
  refine (h.onMember key .none hdone hkey hown fun w _ => hself w).imp fun a' b' _ h' => ⟨⟨?_, fun t ht => ?_⟩, h'.own, h'.rest⟩
  · rw [h'.translated.eq, Scheme.within_append, Scheme.reword_within, Scheme.within_cons, Scheme.reword_member_none]
    rfl
  · refine h'.translated.texts t ?_
    rw [Scheme.within_append, Scheme.texts_within]
    exact List.mem_append_left _ ht

/-- At last the place itself is renamed, and the texts that it has itself are translated. -/
theorem place {r : Renaming} {trail : Trail} {kind : PlaceKind} (hkind : trail.kind? = some kind)
    (h : Underway tr (ownScheme kind) v (innerScheme kind) touched a b)
    (htexts : (ownScheme kind).texts v ⊆ texts) :
    Plan.Follows tr texts ((Scheme.within (innerScheme kind) (ownScheme kind)).Translates tr)
      (r.place trail a) (r.place trail b >>= Label.mapSlots (fun t => Plan.ofExcept (tr t)) trail) := by
  let inner := Scheme.within (innerScheme kind) .none
  have hrenamed : r.place trail b >>= Label.mapSlots (fun t => Plan.ofExcept (tr t)) trail =
      r.place trail a >>= fun a' =>
        (ownScheme kind).mapTexts (fun t => Plan.ofExcept (tr t)) (inner.reword (Scheme.rendered tr) a') := by
    rw [h.translated.eq, Renaming.place_reword hkind, mapSlots_eq hkind, map_eq_pure_bind, bind_assoc]
    simp only [pure_bind]
    rfl
  have hown (j : Json) : (ownScheme kind).texts (inner.reword (Scheme.rendered tr) j) = (ownScheme kind).texts j :=
    Scheme.texts_reword_within (ignores_inner kind) j
  have hfollows : Plan.Follows tr texts ((Scheme.within (innerScheme kind) (ownScheme kind)).Translates tr)
      (r.place trail a >>= pure) (r.place trail a >>= fun a' =>
        (ownScheme kind).mapTexts (fun t => Plan.ofExcept (tr t)) (inner.reword (Scheme.rendered tr) a')) := by
    refine (Plan.follows_self Renaming.place_ne_label).bind ?_
    rintro a' _ ha' rfl
    have hinner : (Scheme.within (innerScheme kind) .none).texts a' =
        (Scheme.within (innerScheme kind) .none).texts a :=
      Scheme.texts_within_congr fun e he => Renaming.member?_place hkind (List.mem_map_of_mem he) ha'
    have happart : (ownScheme kind).Apart := apart_scheme _
    refine Scheme.follows_mapTexts happart ?_ fun htranslated => ⟨?_, fun t ht => ?_⟩
    · rw [hown]
      exact fun t ht => htexts (h.own ▸ Renaming.texts_place hkind ha' ht)
    · exact (Scheme.reword_within a').symm
    · rw [Scheme.texts_within, hinner] at ht
      rcases List.mem_append.1 ht with ht | ht
      · exact h.translated.texts t ht
      · exact htranslated t ((hown a').symm ▸ ht)
  rwa [bind_pure, ← hrenamed] at hfollows

end Underway

/-! ## Walks -/

theorem Walk.settings_eq {m : Type → Type} [Monad m] [LawfulMonad m] (act : Trail → Json → m Json) (trail : Trail)
    (s : Json) : Walk.settings act trail s =
      s.onMember "series_settings"
        (Json.onObj (act ((trail.push .visualizationSettings none).push .seriesSettings none))) >>= fun s =>
      s.onMember "table.columns"
        (Json.onArr (act ((trail.push .visualizationSettings none).push .tableColumns none))) >>= fun s =>
      s.onMember "column_settings" (fun columns =>
        columns.onMembers (Walk.columnClick act (trail.push .visualizationSettings none)) >>=
          Json.onObj (act ((trail.push .visualizationSettings none).push .columnSettings none))) >>= fun s =>
      s.onMember "click_behavior"
        (Json.onObj (act ((trail.push .visualizationSettings none).push .clickBehavior none))) >>=
          act (trail.push .visualizationSettings none) := by
  rw [Walk.settings]
  refine bind_congr fun s => bind_congr fun s => ?_
  rw [← bind_assoc, Json.onMember_onMember]

namespace Renaming

/-- Renames a place, then translates the texts that it has itself. -/
def translated (r : Renaming) (tr : String → Except MigrationError String) (trail : Trail) (j : Json) : Plan Json :=
  r.place trail j >>= mapSlots (fun t => Plan.ofExcept (tr t)) trail

variable {r : Renaming} {trail : Trail} {kind : PlaceKind} {v : Json}

theorem translated_eq (trail : Trail) (hkind : trail.kind? = some kind) (hlayout : layout kind = .none) :
    r.translated tr trail = r.place trail := by
  funext j
  rw [translated, mapSlots_none hkind hlayout, bind_pure]

/-- Renaming alone. -/
theorem translated_ok (r : Renaming) : r.translated .ok = r.place := by
  funext trail j
  have hslots : mapSlots (fun t => Plan.ofExcept (.ok t)) trail = (pure : Json → Plan Json) :=
    funext (mapSlots_pure trail)
  rw [translated, hslots, bind_pure]

/-- A place with no places with texts inside. -/
theorem place_follows (hkind : trail.kind? = some kind) (hinner : innerScheme kind = [])
    (htexts : (ownScheme kind).texts v ⊆ texts) :
    Plan.Follows tr texts ((ownScheme kind).Translates tr) (r.place trail v) (r.translated tr trail v) := by
  have hfollows := (show Underway tr (ownScheme kind) v (innerScheme kind) [] v v from
    hinner ▸ Underway.start v).place (r := r) hkind htexts
  rwa [hinner] at hfollows

theorem noLabel_onObj (trail : Trail) (j : Json) : Plan.NoLabel Json (j.onObj (r.place trail)) :=
  Plan.closed_noLabel.compatible.onObj (g := r.place trail) (fun _ => place_ne_label) j

theorem noLabel_onArr (trail : Trail) (j : Json) : Plan.NoLabel Json (j.onArr (r.place trail)) :=
  Plan.closed_noLabel.compatible.onArr (g := r.place trail) (fun _ => place_ne_label) j

theorem texts_columnClicks {columns columns' : Json}
    (h : (columns.onMembers (Walk.columnClick r.place trail)).outcome = .ok columns') :
    (ownScheme .columnSettings).texts columns' = (ownScheme .columnSettings).texts columns := by
  rw [Plan.compatible_outcome.onMembers (fun _ _ => rfl) columns] at h
  cases columns with
  | obj members =>
    obtain ⟨members', rfl, hmembers⟩ := Json.onMembers_eq_ok_iff.1 h
    rw [ownScheme, layout, Layout.scheme, Scheme.texts_members_obj, Scheme.texts_members_obj]
    have hclick {key : String} {w w' : Json} (hw : (Walk.columnClick r.place trail key w).outcome = .ok w') :
        Scheme.texts (.member "column_title" .text .none) w' = Scheme.texts (.member "column_title" .text .none) w :=
      Plan.Changes.texts (.onMember (List.mem_singleton_self "click_behavior") _)
        (fun key hkey => List.mem_singleton.1 hkey ▸ ⟨by decide, trivial⟩) hw
    clear h
    induction hmembers with
    | nil => rfl
    | cons he _ ih =>
      rw [List.flatMap_cons, List.flatMap_cons]
      exact congrArg₂ (· ++ ·) (hclick he.2) ih
  | _ => rw [← Except.ok.inj h]

/-- Columns, with their clicks. -/
theorem columns_follows {columns : Json} (htexts : (ownScheme .columnSettings).texts columns ⊆ texts) :
    Plan.Follows tr texts ((ownScheme .columnSettings).Translates tr)
      (columns.onMembers (Walk.columnClick r.place trail) >>=
        Json.onObj (r.place (trail.push .columnSettings none)))
      (columns.onMembers (Walk.columnClick (r.translated tr) trail) >>=
        Json.onObj (r.translated tr (trail.push .columnSettings none))) := by
  have hclick : Walk.columnClick (r.translated tr) trail = Walk.columnClick r.place trail := by
    funext key column
    rw [Walk.columnClick, Walk.columnClick, translated_eq _ rfl rfl]
  have hnoLabel : Plan.NoLabel Json (columns.onMembers (Walk.columnClick r.place trail)) :=
    Plan.closed_noLabel.compatible.onMembers (g := Walk.columnClick r.place trail)
      (fun key => Plan.closed_noLabel.onMember "click_behavior" (noLabel_onObj _)) columns
  rw [hclick]
  refine (Plan.follows_self hnoLabel).bind ?_
  rintro a _ ha rfl
  refine Scheme.follows_onObj (ofObjects_ownScheme (by decide)) (place_follows rfl rfl ?_)
  rwa [texts_columnClicks ha]

theorem settings_follows (htexts : settingsScheme.texts v ⊆ texts) :
    Plan.Follows tr texts (settingsScheme.Translates tr) (Walk.settings r.place trail v)
      (Walk.settings (r.translated tr) trail v) := by
  have hinner {e : String × Scheme} (he : e ∈ settingsInner) {w : Json} (hw : v.member? e.1 = some w) :
      e.2.texts w ⊆ texts := fun t ht => htexts (Scheme.texts_inner_subset he hw ht)
  have hstart : Underway tr (ownScheme .visualizationSettings) v [] [] v v := .start v
  let settings := trail.push .visualizationSettings none
  rw [Walk.settings_eq, Walk.settings_eq, translated_eq (settings.push .tableColumns none) rfl rfl,
    translated_eq (settings.push .clickBehavior none) rfl rfl]
  refine (hstart.onMember "series_settings" (ownScheme .seriesSettings) (by simp) (by decide) rfl fun w hw =>
    Scheme.follows_onObj (ofObjects_ownScheme (by decide))
      (place_follows rfl rfl (hinner List.mem_cons_self hw))).bind fun a b _ h => ?_
  refine (h.onMember_same "table.columns" (by simp) (by decide) rfl (noLabel_onArr _)).bind fun a b _ h => ?_
  refine (h.onMember "column_settings" (ownScheme .columnSettings) (by simp) (by decide) rfl fun w hw =>
    columns_follows (hinner (List.mem_cons_of_mem _ List.mem_cons_self) hw)).bind fun a b _ h => ?_
  refine (h.onMember_same "click_behavior" (by simp) (by decide) rfl (noLabel_onObj _)).bind fun a b _ h => ?_
  exact h.place rfl fun t ht => htexts (Scheme.texts_own_subset ht)

/-- Queries hold no texts. -/
theorem query_translated (trail : Trail) : Walk.query (r.translated tr) trail = Walk.query r.place trail := by
  funext q
  refine Walk.compatible_eq.query_reached trail q fun k p hp t j ht _ => ?_
  rcases hp.kind_cases (.inl rfl) with rfl | rfl
  · rw [translated_eq t ht rfl]
  · rw [translated_eq t ht rfl]

theorem noLabel_query (trail : Trail) (dataset : Json) :
    Plan.NoLabel Json (dataset.onMember "query" (Json.onObj (Walk.query r.place trail))) := by
  have hquery (q : Json) : Plan.NoLabel Json (Walk.query r.place trail q) :=
    Plan.closed_noLabel.compatible.query (f := r.place) (g := r.place) (fun _ _ => place_ne_label) trail q
  exact Plan.closed_noLabel.onMember "query"
    (fun q => Plan.closed_noLabel.compatible.onObj (g := Walk.query r.place trail) hquery q) dataset

theorem card_follows (trail : Trail) (htexts : cardScheme.texts v ⊆ texts) :
    Plan.Follows tr texts (cardScheme.Translates tr) (Walk.card r.place trail v)
      (Walk.card (r.translated tr) trail v) := by
  let card := trail.push .card (Walk.cardTitle v)
  have hsettings (w : Json) (hw : v.member? "visualization_settings" = some w) :
      Plan.Follows tr texts (settingsScheme.Translates tr) (w.onObj (Walk.settings r.place card))
        (w.onObj (Walk.settings (r.translated tr) card)) := by
    have hw' : settingsScheme.texts w ⊆ texts := fun t ht =>
      htexts (Scheme.texts_inner_subset (e := ("visualization_settings", settingsScheme)) List.mem_cons_self hw ht)
    exact Scheme.follows_onObj (Scheme.ofObjects_within (ofObjects_ownScheme (by decide))) (settings_follows hw')
  have hmappings (js : Json) : Plan.NoLabel Json
      (js.onItems (Json.onObj (r.place (card.push .parameterMapping none)))) :=
    Plan.closed_noLabel.compatible.onItems (g := Json.onObj (r.place (card.push .parameterMapping none)))
      (noLabel_onObj _) js
  have hstart : Underway tr (ownScheme .card) v [] [] v v := .start v
  rw [Walk.card, Walk.card, query_translated, translated_eq (card.push .parameterMapping none) rfl rfl]
  refine (hstart.onMember "visualization_settings" settingsScheme (by simp) (by decide) rfl hsettings).bind
    fun a b _ h => ?_
  refine (h.onMember_same "dataset_query" (by simp) (by decide) rfl (noLabel_query card)).bind fun a b _ h => ?_
  refine (h.onMember_same "parameter_mappings" (by simp) (by decide) rfl hmappings).bind fun a b _ h => ?_
  exact h.place rfl fun t ht => htexts (Scheme.texts_own_subset ht)

theorem dashboard_follows (trail : Trail) (htexts : dashboardScheme.texts v ⊆ texts) :
    Plan.Follows tr texts (dashboardScheme.Translates tr) (Walk.dashboard r.place trail v)
      (Walk.dashboard (r.translated tr) trail v) := by
  let dashboard := trail.push .dashboard (v.text? "name")
  have hinner {e : String × Scheme} (he : e ∈ dashboardInner) {w : Json} (hw : v.member? e.1 = some w) :
      e.2.texts w ⊆ texts := fun t ht => htexts (Scheme.texts_inner_subset he hw ht)
  have hcards (w : Json) (hw : v.member? "dashcards" = some w) :
      Plan.Follows tr texts ((Scheme.items cardScheme).Translates tr)
        (w.onItems (Json.onObj (Walk.card r.place dashboard)))
        (w.onItems (Json.onObj (Walk.card (r.translated tr) dashboard))) :=
    Scheme.follows_onItems (hinner List.mem_cons_self hw) fun _ htexts =>
      Scheme.follows_onObj (Scheme.ofObjects_within (ofObjects_ownScheme (by decide))) (card_follows _ htexts)
  have htabs (w : Json) (hw : v.member? "tabs" = some w) :
      Plan.Follows tr texts ((ownScheme .tabs).Translates tr) (w.onArr (r.place (dashboard.push .tabs none)))
        (w.onArr (r.translated tr (dashboard.push .tabs none))) := by
    have hw' : (ownScheme .tabs).texts w ⊆ texts := hinner (List.mem_cons_of_mem _ List.mem_cons_self) hw
    cases w with
    | arr js =>
      rw [Json.onArr, Json.onArr]
      exact place_follows rfl rfl hw'
    | _ => exact .pure ⟨rfl, fun t ht => by cases ht⟩
  have hparameters (w : Json) (hw : v.member? "parameters" = some w) :
      Plan.Follows tr texts ((Scheme.items (ownScheme .parameter)).Translates tr)
        (w.onItems (Json.onObj (Walk.parameter r.place dashboard)))
        (w.onItems (Json.onObj (Walk.parameter (r.translated tr) dashboard))) :=
    Scheme.follows_onItems (hinner (List.mem_cons_of_mem _ (List.mem_cons_of_mem _ List.mem_cons_self)) hw)
      fun w htexts => Scheme.follows_onObj (ofObjects_ownScheme (by decide)) (place_follows rfl rfl htexts)
  have hpresent (trail : Trail) (w : Json) : Plan.NoLabel Json (w.unlessNull (r.place trail)) :=
    Plan.closed_noLabel.compatible.unlessNull (g := r.place trail) (fun _ => place_ne_label) w
  have hstart : Underway tr (ownScheme .dashboard) v [] [] v v := .start v
  rw [Walk.dashboard, Walk.dashboard, translated_eq (dashboard.push .paramValues none) rfl rfl,
    translated_eq (dashboard.push .paramFields none) rfl rfl]
  refine (hstart.onMember "dashcards" (.items cardScheme) (by simp) (by decide) rfl hcards).bind fun a b _ h => ?_
  refine (h.onMember "tabs" (ownScheme .tabs) (by simp) (by decide) rfl htabs).bind fun a b _ h => ?_
  refine (h.onMember "parameters" (.items (ownScheme .parameter)) (by simp) (by decide) rfl hparameters).bind
    fun a b _ h => ?_
  refine (h.onMember_same "param_values" (by simp) (by decide) rfl (hpresent _)).bind fun a b _ h => ?_
  refine (h.onMember_same "param_fields" (by simp) (by decide) rfl (hpresent _)).bind fun a b _ h => ?_
  exact h.place rfl fun t ht => htexts (Scheme.texts_own_subset ht)

/-- A walk that renames and translates needs the cards that one needs which only renames, as far as it gets. If
it succeeds, so does the other, and the documents differ by the translation of each text. If it ends at a text,
that is one of the texts of the document. -/
theorem document_follows (kind : EntityKind) (r : Renaming) (tr : String → Except MigrationError String) (d : Json) :
    Plan.Follows tr ((documentScheme kind).texts d) ((documentScheme kind).Translates tr)
      (Walk.document kind r.place [] d) (Walk.document kind (r.translated tr) [] d) := by
  cases kind with
  | card => exact card_follows [] (List.Subset.refl _)
  | dashboard => exact dashboard_follows [] (List.Subset.refl _)

end Renaming

end Rehome
