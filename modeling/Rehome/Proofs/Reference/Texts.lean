import Rehome.Proofs.Label.Texts
import Rehome.Proofs.Reference.Blame
import Rehome.Proofs.Reference.Settled.Place

/-! # Renaming references and changing texts do not interfere

The rules of a place do not look at the members that hold places with texts, and keep them
(`place_setMember`, `member?_place`). So it makes no difference to renaming a place whether the texts inside of
it have been changed before (`place_reword`). The texts that a place has itself are ones that it had before
(`texts_place`). -/

namespace Rehome

/-! ## Changes of some members -/

namespace Plan

/-- Computations that may fail are plans that need nothing. -/
theorem compatible_ofExcept :
    Compatible fun α (x : Except MigrationError α) (p : Plan α) => (ofExcept x : Plan α) = p where
  pure _ := rfl
  bind {α β x p f g} hx hf := by
    subst hx
    cases x with
    | ok a => exact (hf a).trans (bind_of_pure a g).symm
    | error e => rfl

/-- A change of the members under some keys, one after the other. -/
inductive Changes (keys : List String) : (Json → Plan Json) → Prop
  | onMember {key : String} : key ∈ keys → (f : Json → Plan Json) → Changes keys (Json.onMember key f)
  | bind {p q : Json → Plan Json} : Changes keys p → Changes keys q → Changes keys fun j => p j >>= q

variable {keys : List String} {p : Json → Plan Json} {key : String} {j j' : Json}

/-- Members of different keys may be changed and set in any order. -/
theorem onMember_setMember {k : String} (hne : k ≠ key) (f : Json → Plan Json) (j w : Json) :
    (j.setMember key w).onMember k f = (fun j' : Json => j'.setMember key w) <$> j.onMember k f := by
  have hk : (j.setMember key w).member? k = j.member? k := Json.member?_setMember_of_ne hne j w
  cases hv : j.member? k with
  | none =>
    rw [Json.onMember_of_none (hk.trans hv), Json.onMember_of_none hv, map_pure]
  | some v =>
    have hcomm (v' : Json) : (j.setMember key w).setMember k v' = (j.setMember k v').setMember key w := by
      cases j with
      | obj members =>
        have hmem : k ∈ members.map Prod.fst := List.mem_map_of_mem (Assoc.mem_of_lookup hv)
        exact congrArg Json.obj (Assoc.put_comm hne v' w hmem)
      | _ => rfl
    rw [Json.onMember_of_some (hk.trans hv), Json.onMember_of_some hv, map_bind]
    simp only [map_pure, hcomm]

theorem Changes.setMember (h : Changes keys p) (hkey : key ∉ keys) (j w : Json) :
    p (j.setMember key w) = (fun j' : Json => j'.setMember key w) <$> p j := by
  induction h generalizing j with
  | onMember hmem f => exact onMember_setMember (ne_of_mem_of_not_mem hmem hkey) f j w
  | bind _ _ ihp ihq => simp only [ihp, map_eq_pure_bind, bind_assoc, pure_bind, ihq]

theorem outcome_bind_eq_ok_iff {α β : Type} {p : Plan α} {f : α → Plan β} {b : β} :
    (p >>= f).outcome = .ok b ↔ ∃ a, p.outcome = .ok a ∧ (f a).outcome = .ok b := by
  rw [compatible_outcome.bind rfl fun _ => rfl, Except.bind_eq_ok_iff]

theorem outcome_onMember {key : String} {f : Json → Plan Json} (h : (j.onMember key f).outcome = .ok j') :
    j' = j ∨ ∃ w, j' = j.setMember key w := by
  cases hv : j.member? key with
  | none =>
    rw [Json.onMember_of_none hv] at h
    exact .inl (Except.ok.inj h).symm
  | some v =>
    rw [Json.onMember_of_some hv] at h
    obtain ⟨w, -, hw⟩ := outcome_bind_eq_ok_iff.1 h
    exact .inr ⟨w, (Except.ok.inj hw).symm⟩

theorem Changes.member? (h : Changes keys p) (hkey : key ∉ keys) (hp : (p j).outcome = .ok j') :
    j'.member? key = j.member? key := by
  induction h generalizing j j' with
  | onMember hmem f =>
    obtain rfl | ⟨w, rfl⟩ := outcome_onMember hp
    · rfl
    · exact Json.member?_setMember_of_ne (ne_of_mem_of_not_mem hmem hkey).symm j w
  | bind _ _ ihp ihq =>
    obtain ⟨a, ha, hq⟩ := outcome_bind_eq_ok_iff.1 hp
    rw [ihq hq, ihp ha]

theorem Changes.texts {s : Label.Scheme} (h : Changes keys p) (hs : ∀ key ∈ keys, s.Ignores key)
    (hp : (p j).outcome = .ok j') : s.texts j' = s.texts j := by
  induction h generalizing j j' with
  | onMember hmem f =>
    obtain rfl | ⟨w, rfl⟩ := outcome_onMember hp
    · rfl
    · exact Label.Scheme.texts_setMember (hs _ hmem) j w
  | bind _ _ ihp ihq =>
    obtain ⟨a, ha, hq⟩ := outcome_bind_eq_ok_iff.1 hp
    rw [ihq hq, ihp ha]

theorem bind_congr_of_ok {α β : Type} {p : Plan α} {f g : α → Plan β}
    (h : ∀ a, p.outcome = .ok a → f a = g a) : p >>= f = p >>= g := by
  cases houtcome : p.outcome with
  | error e => rw [bind_of_error houtcome, bind_of_error houtcome]
  | ok a => rw [bind_of_ok houtcome, bind_of_ok houtcome, h a houtcome]

/-- What neither looks at some members nor changes them does not depend on the texts in these. -/
theorem reword_comm {inner : List (String × Label.Scheme)}
    (hset : ∀ key ∈ inner.map Prod.fst, ∀ j w, p (j.setMember key w) = (fun j' : Json => j'.setMember key w) <$> p j)
    (hkeeps : ∀ key ∈ inner.map Prod.fst, ∀ j j', (p j).outcome = .ok j' → j'.member? key = j.member? key)
    (f : String → String) (j : Json) : p ((Label.Scheme.within inner .none).reword f j) =
      (Label.Scheme.within inner .none).reword f <$> p j := by
  induction inner generalizing j with
  | nil => exact (id_map _).symm
  | cons e inner ih =>
    have hinner := ih (fun key hkey => hset key (List.mem_cons_of_mem _ hkey))
      (fun key hkey => hkeeps key (List.mem_cons_of_mem _ hkey))
    rw [Label.Scheme.within_cons, Label.Scheme.reword_member, hinner]
    cases hv : j.member? e.1 with
    | none =>
      rw [map_eq_pure_bind, map_eq_pure_bind]
      refine bind_congr_of_ok fun j' hj' => ?_
      rw [Label.Scheme.reword_member, hkeeps e.1 List.mem_cons_self j j' hj', hv]
    | some v =>
      dsimp only
      rw [hset e.1 List.mem_cons_self, map_eq_pure_bind, map_eq_pure_bind, map_eq_pure_bind, bind_assoc]
      refine bind_congr_of_ok fun j' hj' => ?_
      rw [pure_bind, Label.Scheme.reword_member, hkeeps e.1 List.mem_cons_self j j' hj', hv]

end Plan

namespace Renaming

open Label

variable {r : Renaming} {trail : Trail} {kind : PlaceKind} {key : String} {j j' : Json}

theorem changes_lift {keys : List String} {key : String} (hkey : key ∈ keys)
    (f : Json → Except MigrationError Json) :
    Plan.Changes keys fun j => Plan.ofExcept (j.onMember key f) := by
  have hlift (j : Json) : Plan.ofExcept (j.onMember key f) = j.onMember key fun v => Plan.ofExcept (f v) :=
    Plan.compatible_ofExcept.onMember key (fun _ => rfl) j
  rw [funext hlift]
  exact .onMember hkey _

/-- The members that the node of a card changes. -/
def cardKeys : List String := ["database_id", "dataset_query", "table_id", "result_metadata", "card_id", "card"]

theorem changes_cardNode : Plan.Changes cardKeys fun j => Plan.ofExcept (r.cardNode j) := by
  have hbind {p q : Json → Except MigrationError Json} (hp : Plan.Changes cardKeys fun j => Plan.ofExcept (p j))
      (hq : Plan.Changes cardKeys fun j => Plan.ofExcept (q j)) :
      Plan.Changes cardKeys fun j => Plan.ofExcept (p j >>= q) := by
    have hlift (j : Json) : Plan.ofExcept (p j >>= q) = Plan.ofExcept (p j) >>= fun j => Plan.ofExcept (q j) :=
      Plan.compatible_ofExcept.bind rfl fun _ => rfl
    rw [funext hlift]
    exact .bind hp hq
  refine hbind (changes_lift (by decide) _) (hbind (changes_lift (by decide) _) ?_)
  exact hbind (changes_lift (by decide) _) (changes_lift (by decide) _)

theorem changes_dashcardNode : Plan.Changes cardKeys r.dashcardNode :=
  .bind (.onMember (by decide) _) (.onMember (by decide) _)

/-- The node of a card or dashcard. -/
theorem changes_place (h : trail.kind? = some .card) : Plan.Changes cardKeys (r.place trail) := by
  have hplace : r.place trail = if trail.hasKind .dashboard then r.dashcardNode else
      fun j => Plan.ofExcept (r.cardNode j) := by
    funext j
    rw [place, h]
    dsimp only
    split <;> rfl
  rw [hplace]
  split
  · exact changes_dashcardNode
  · exact changes_cardNode

/-! ## Members that hold places with texts -/

theorem visualizationSettings_setMember (hkey : key ∉ nameSettings) (j w : Json) :
    r.visualizationSettings (j.setMember key w) = (r.visualizationSettings j).setMember key w := by
  cases j with
  | obj ms =>
    rw [Json.setMember, visualizationSettings, visualizationSettings, Json.setMember]
    congr 1
    induction ms with
    | nil => simp [Assoc.put, hkey]
    | cons e ms ih =>
      obtain ⟨k, v⟩ := e
      by_cases hk : k = key
      · subst hk
        simp [Assoc.put, hkey]
      · simp only [Assoc.put, hk, if_false, List.map_cons, ih]
  | _ => rfl

/-- Renaming a place does not look at the members that hold places with texts. -/
theorem place_setMember (hkind : trail.kind? = some kind) (hkey : key ∈ (innerScheme kind).map Prod.fst)
    (j w : Json) :
    r.place trail (j.setMember key w) = (fun j' : Json => j'.setMember key w) <$> r.place trail j := by
  cases kind with
  | card =>
    refine (changes_place hkind).setMember ?_ j w
    obtain rfl : key = "visualization_settings" := List.mem_singleton.1 hkey
    decide
  | visualizationSettings =>
    have hname : key ∉ nameSettings := by
      revert hkey
      simp only [innerScheme, settingsInner, List.map_cons, List.map_nil, List.mem_cons, List.not_mem_nil, or_false]
      rintro (rfl | rfl) <;> decide
    rw [place, place, hkind, visualizationSettings_setMember hname]
    rfl
  | dashboard =>
    rw [place, place, hkind]
    rfl
  | _ => cases hkey

/-- Renaming a place keeps the members that hold places with texts. -/
theorem member?_place (hkind : trail.kind? = some kind) (hkey : key ∈ (innerScheme kind).map Prod.fst)
    (h : (r.place trail j).outcome = .ok j') : j'.member? key = j.member? key := by
  cases kind with
  | card =>
    refine (changes_place hkind).member? ?_ h
    obtain rfl : key = "visualization_settings" := List.mem_singleton.1 hkey
    decide
  | visualizationSettings =>
    have hname : key ∉ nameSettings := by
      revert hkey
      simp only [innerScheme, settingsInner, List.map_cons, List.map_nil, List.mem_cons, List.not_mem_nil, or_false]
      rintro (rfl | rfl) <;> decide
    rw [place, hkind] at h
    exact keeps_visualizationSettings hname j j' h
  | dashboard =>
    rw [place, hkind] at h
    rw [Except.ok.inj h]
  | _ => cases hkey

/-- Renaming a place does not depend on the texts inside of it. -/
theorem place_reword (hkind : trail.kind? = some kind) (f : String → String) (j : Json) :
    r.place trail ((Scheme.within (innerScheme kind) .none).reword f j) =
      (Scheme.within (innerScheme kind) .none).reword f <$> r.place trail j :=
  Plan.reword_comm (fun _ hkey => place_setMember hkind hkey) (fun _ hkey _ _ => member?_place hkind hkey) f j

theorem texts_visualizationSettings (j : Json) : (ownScheme .visualizationSettings).texts (r.visualizationSettings j) =
    (ownScheme .visualizationSettings).texts j := by
  cases j with
  | obj ms =>
    rw [visualizationSettings, ownScheme, layout, Layout.scheme, Scheme.texts_members_obj, Scheme.texts_members_obj,
      List.flatMap_map]
    refine List.flatMap_congr fun e _ => ?_
    by_cases hname : e.1 ∈ nameSettings
    · have htext : isTextSetting e.1 = false := by
        revert hname
        generalize e.1 = key
        simp only [nameSettings, List.mem_cons, List.not_mem_nil, or_false]
        rintro (rfl | rfl | rfl) <;> decide +kernel
      simp [htext, Scheme.texts, Scheme.spots]
    · simp [hname]
  | _ => rfl

theorem texts_columnSettings {t : String} (h : r.columnSettings j = .ok j')
    (ht : t ∈ (ownScheme .columnSettings).texts j') : t ∈ (ownScheme .columnSettings).texts j := by
  cases j with
  | obj ms =>
    obtain ⟨entries, -, hentries⟩ := Except.bind_eq_ok_iff.1 h
    obtain rfl := Except.ok.inj hentries
    rw [ownScheme, layout, Layout.scheme, Scheme.texts_members_obj] at ht ⊢
    obtain ⟨e', he', ht⟩ := List.mem_flatMap.1 ht
    obtain ⟨ms', e, hms, he, -, hvalue⟩ := exists_of_columnSettings h he'
    obtain rfl := Json.obj.inj hms
    rw [hvalue] at ht
    exact List.mem_flatMap.2 ⟨e, he, ht⟩
  | _ =>
    obtain rfl := Except.ok.inj h
    exact ht

/-- The texts of a renamed place are ones that it had before. -/
theorem texts_place (hkind : trail.kind? = some kind) (h : (r.place trail j).outcome = .ok j') {t : String}
    (ht : t ∈ (ownScheme kind).texts j') : t ∈ (ownScheme kind).texts j := by
  have hignores {keys : List String} {p : Json → Plan Json} (hp : Plan.Changes keys p)
      (hkeys : ∀ key ∈ keys, (ownScheme kind).Ignores key) (h : (p j).outcome = .ok j') :
      t ∈ (ownScheme kind).texts j := by
    rwa [hp.texts hkeys h] at ht
  cases kind with
  | card =>
    refine hignores (changes_place hkind) (fun key hkey => ignores_of_not_accepted ?_) h
    exact (by decide : ∀ key ∈ cardKeys, (key == "name" || key == "description") = false) key hkey
  | visualizationSettings =>
    rw [place, hkind] at h
    rwa [← Except.ok.inj h, texts_visualizationSettings] at ht
  | columnSettings =>
    rw [place, hkind] at h
    exact texts_columnSettings h ht
  | parameter =>
    rw [place, hkind] at h
    refine hignores (.onMember (List.mem_singleton_self "values_source_config") _) (fun key hkey => ?_) h
    exact List.mem_singleton.1 hkey ▸ ignores_of_not_accepted (by decide)
  | dashboard | seriesSettings | tabs =>
    rw [place, hkind] at h
    rwa [← Except.ok.inj h] at ht
  | _ => cases ht

/-- Renaming a place does not end like translating may. -/
theorem place_ne_label (cause : TranslateError) : (r.place trail j).outcome ≠ .error (.label cause) := by
  intro h
  have howner := blames_place trail j _ h
  cases howner

end Renaming

end Rehome
