import Rehome.Proofs.Reference.Settled.Place
import Rehome.Proofs.Reference.Sites
import Rehome.Proofs.Reference.Substitution

/-! # What renaming the references of a document leaves alone

One lemma for each kind of place, from the columns of results up to whole documents: the result of renaming
differs at the sites of the place only. A member that is acted on more than once is acted on by the composition
of what is done to it (`Json.inTurn`), so the changes of a card are told member by member, although the walk
comes to the card itself after the places inside of it. -/

namespace Rehome.Renaming

open Json (inTurn turnOf)

variable {r : Renaming} {sites : Sites} {j j' : Json}

/-! ## Field references -/

theorem Retargeted.differsOnly (hj : j.WellFormed) (h : Retargeted r j j')
    (hsites : ∀ p, ReferenceSlot j p → sites .value p) : DiffersOnly sites j j' := by
  refine (h.substitutes.differsOnly hj).mono ?_
  rintro c p ⟨rfl, -, -, hp⟩
  exact hsites p hp

theorem fieldRef_differsOnly (hj : j.WellFormed) (h : r.fieldRef j = .ok j')
    (hsites : ∀ p, ReferenceSlot j p → sites .value p) : DiffersOnly sites j j' := by
  refine ((fieldRef_substitutes h).differsOnly hj).mono ?_
  rintro c p ⟨rfl, -, -, hp⟩
  exact hsites p hp

theorem Retargeted.isFieldRef_source (h : Retargeted r j j') : (Clause.ofJson j).isFieldRef := by
  obtain ⟨target, htarget, -⟩ := retargeted_iff.1 h
  rw [htarget]
  rfl

/-! ## Results and parameter mappings -/

theorem metadataReference_differsOnly (h : r.metadataReference j = .ok j') : DiffersOnly (ResultSite j) j j' := by
  rw [metadataReference] at h
  split at h
  · obtain rfl := Except.ok.inj h
    exact .refl _ _
  · next reference hreference =>
    split at h
    · next c hc =>
      obtain ⟨c', -, h⟩ := Except.bind_eq_ok_iff.1 h
      obtain rfl := Except.ok.inj h
      obtain ⟨operator, operands, rfl, hfield, htarget⟩ := Clause.ofJson_eq_fieldRef_iff.1 hc
      obtain ⟨item, rest, rfl, -⟩ := ofItem_eq_id htarget.symm
      have hkeys (k : String) : ¬ResultSite j .key [.member k] := ResultSite.not_key
      refine (DiffersOnly.changeMember hreference hkeys ?_).setEntry hkeys (.id hreference hc) _
      exact .setItem (v := item) rfl (.value (.reference hreference hc))
    · obtain rfl := Except.ok.inj h
      exact .refl _ _

theorem metadataColumn_differsOnly (h : r.metadataColumn j = .ok j') : DiffersOnly (ResultSite j) j j' := by
  obtain ⟨j₁, hreference, h⟩ := Except.bind_eq_ok_iff.1 h
  exact (metadataReference_differsOnly hreference).thenMember (fun _ => ResultSite.not_key) .table h

theorem parameterMapping_differsOnly (hj : j.WellFormed) (h : r.parameterMapping j = .ok j') :
    DiffersOnly (ParameterMappingSite j) j j' := by
  refine .onMember_onMember (by decide) hj h (fun v v' hv hv' => .value .card)
    fun target v' htarget hv' => ?_
  rw [dimensionTarget] at hv'
  split at hv'
  · next hdimension =>
    obtain ⟨f, f', hf, hf', rfl⟩ | ⟨-, rfl⟩ := Json.onItem_eq_ok_iff.1 hv'
    · have htarget' := hj.member? htarget
      exact .setItem hf (fieldRef_differsOnly (htarget'.item? hf) hf' fun p hp =>
        .dimension htarget hdimension hf hp)
    · exact .refl _ _
  · obtain rfl := Except.ok.inj hv'
    exact .refl _ _

/-! ## Settings -/

mutual

/-- Names are replaced, and lists keep their lengths. -/
theorem columnNames_differsOnly : (j : Json) → ∀ {sites : Sites}, (∀ p, NameSlot j p → sites .value p) →
    DiffersOnly sites j (r.columnNames j)
  | .str name, sites, hsites => .value (hsites [] (.name name))
  | .arr items, sites, hsites => by
    rw [columnNames]
    obtain ⟨hlength, hitems⟩ := columnNamesItems_differsOnly items
    refine .arr hlength fun n i i' hi hi' => hitems n i i' hi hi' fun p hp => ?_
    exact hsites _ (.item hi hp)
  | .null, _, _ | .bool _, _, _ | .int _, _, _ | .double _, _, _ | .obj _, _, _ => by
    simpa only [columnNames] using DiffersOnly.refl _ _

theorem columnNamesItems_differsOnly : (items : List Json) → items.length = (r.columnNamesItems items).length ∧
    ∀ (n : Nat) (i i' : Json), items[n]? = some i → (r.columnNamesItems items)[n]? = some i' →
      ∀ {sites : Sites}, (∀ p, NameSlot i p → sites .value p) → DiffersOnly sites i i'
  | [] => ⟨rfl, fun n i i' hi => by cases hi⟩
  | j :: items => by
    obtain ⟨hlength, hitems⟩ := columnNamesItems_differsOnly items
    refine ⟨congrArg (· + 1) hlength, fun n i i' hi hi' => ?_⟩
    cases n with
    | zero =>
      obtain rfl := Option.some.inj hi
      obtain rfl := Option.some.inj hi'
      exact columnNames_differsOnly j
    | succ n => exact hitems n i i' hi hi'

end

/-- A text is another one only if it holds a field reference. -/
theorem refKey_holds {key key' : String} (h : r.refKey key = .ok key') :
    key' = key ∨ ∃ f, KeyHolds key f ∧ (Clause.ofJson f).isFieldRef := by
  obtain ⟨j, j', hj, hj', rfl⟩ | ⟨-, rfl⟩ := refKey_eq_ok_iff.1 h
  · obtain ⟨hmark, f, f', hf, hretargeted, rfl⟩ := refValue?_eq_some_iff.1 hj'
    exact .inr ⟨f, ⟨j, hj, hmark, hf⟩, hretargeted.isFieldRef_source⟩
  · exact .inl rfl

theorem tableColumn_differsOnly (hj : j.WellFormed) (h : r.tableColumn j = .ok j') :
    DiffersOnly (TableColumnSite j) j j' := by
  refine .onMember_onMember (by decide) hj h (fun f f' hf hf' => ?_) fun v v' hv hv' => ?_
  · exact fieldRef_differsOnly (hj.member? hf) hf' fun p hp => .reference hf hp
  · cases v with
    | str key =>
      obtain ⟨key', hkey', heq⟩ := Except.bind_eq_ok_iff.1 hv'
      obtain rfl := Except.ok.inj heq
      obtain rfl | ⟨f, hholds, hf⟩ := refKey_holds hkey'
      · exact .refl _ _
      · exact .value (.key hv hholds hf)
    | _ =>
      obtain rfl := Except.ok.inj hv'
      exact .refl _ _

/-! ## Clicks -/

/-- A mapping either is left alone with its key, or leads to a field reference that is renamed. -/
theorem clickMapping_cases {e e' : String × Json} (h : r.clickMapping e = .ok e') :
    e' = e ∨ ∃ target dimension f f', e.2.member? "target" = some target ∧
      target.member? "dimension" = some dimension ∧ dimension.item? 1 = some f ∧ Retargeted r f f' ∧
      MapsTo e.2 f ∧ e'.2 = withDimension e.2 (dimension.setItem 1 f') := by
  rw [clickMapping] at h
  split at h
  · exact .inl (Except.ok.inj h).symm
  · next dimension hdimension =>
    obtain ⟨o, ho, h⟩ := Except.bind_eq_ok_iff.1 h
    cases o with
    | none => exact .inl (Except.ok.inj h).symm
    | some dimension' =>
      obtain rfl := Except.ok.inj h
      obtain ⟨target, htarget, -, hmember⟩ := mappedDimension?_eq_some_iff.1 hdimension
      rw [dimension?] at ho
      split at ho
      · cases ho
      · next f hf =>
        obtain ⟨f', hf', rfl⟩ := second_eq_some_iff.1 ho
        exact .inr ⟨target, dimension, f, f', htarget, hmember, hf, hf',
          ⟨dimension, hdimension, hf, hf'.isFieldRef_source⟩, rfl⟩

theorem withDimension_differsOnly {target dimension f f' : Json} (hj : j.WellFormed)
    (htarget : j.member? "target" = some target) (hdimension : target.member? "dimension" = some dimension)
    (hf : dimension.item? 1 = some f) (hf' : Retargeted r f f') (hmaps : MapsTo j f) :
    DiffersOnly (ClickMappingSite j) j (withDimension j (dimension.setItem 1 f')) := by
  rw [withDimension, htarget, Option.getD_some]
  have hkeys (k : String) : ¬ClickMappingSite j .key [.member k] := ClickMappingSite.not_key
  have hbelow (k : String) : ¬(ClickMappingSite j).below (.member "target") .key [.member k] :=
    ClickMappingSite.not_key
  refine (DiffersOnly.changeMember htarget hkeys ?_).setEntry hkeys (.id hmaps) _
  refine (DiffersOnly.changeMember hdimension hbelow ?_).setEntry hbelow (.targetId hmaps) _
  have hreference := ((hj.member? htarget).member? hdimension).item? hf
  exact .setItem hf (hf'.differsOnly hreference fun p hp => .dimension hmaps hp)

theorem clickBehavior_differsOnly (hj : j.WellFormed) (hapart : r.KeepsApart fun k p => k = .clickBehavior ∧ p = j)
    (h : r.clickBehavior j = .ok j') : DiffersOnly (ClickSite j) j j' := by
  refine .onMember_onMember (by decide) hj h (fun v v' hv hv' => .value .target)
    fun mappings mappings' hmappings hv' => ?_
  cases mappings with
  | obj members =>
    obtain ⟨entries, hentries, heq⟩ := Except.bind_eq_ok_iff.1 hv'
    obtain rfl := Except.ok.inj heq
    rw [Assoc.ofList_eq_self (hapart.mappings ⟨rfl, rfl⟩ hmappings hentries)]
    have hforall := Except.mapM_eq_ok_iff.1 hentries
    refine .of_members (Json.forall₂_iff_getElem?.2 ⟨hforall.length_eq, fun n e e' he he' => ?_⟩)
    have hmem := List.mem_of_getElem? he
    obtain rfl | ⟨target, dimension, f, f', htarget, hdimension, hf, hf', hmaps, hvalue⟩ :=
      clickMapping_cases (Json.getElem?_forall₂ hforall he he')
    · exact ⟨.inl rfl, .refl _ _⟩
    · have hmapping := Json.wellFormedMembers_iff.1 (hj.member? hmappings).2 e hmem
      refine ⟨.inr (.key hmappings hmem hmaps), hvalue ▸ ?_⟩
      exact (withDimension_differsOnly hmapping htarget hdimension hf hf' hmaps).mono fun c p => .mapping hmappings hmem
  | _ =>
    obtain rfl := Except.ok.inj hv'
    exact .refl _ _

/-! ## All settings -/

/-- The settings of columns are keyed anew after the clicks of the columns have been renamed. -/
theorem columnSettings_differsOnly {settings : Json} {members : List (String × Json)} (hsettings : settings.WellFormed)
    (hapart : r.KeepsApart (Walk.SettingsPlace settings))
    (hcolumns : settings.member? "column_settings" = some (.obj members))
    (h : ((Json.obj members).onMembers fun _ => Json.onMember "click_behavior" (Json.onObj r.clickBehavior)) >>=
      Json.onObj r.columnSettings = .ok j') :
    DiffersOnly ((SettingsSite settings).below (.member "column_settings")) (.obj members) j' := by
  obtain ⟨j₁, hclicks, h⟩ := Except.bind_eq_ok_iff.1 h
  obtain ⟨clicked, rfl, hclicked⟩ := Json.onMembers_eq_ok_iff.1 hclicks
  obtain ⟨entries, hentries, heq⟩ := Except.bind_eq_ok_iff.1 h
  obtain rfl := Except.ok.inj heq
  have hforall : List.Forall₂ (fun e e' : String × Json => r.refKey e.1 = .ok e'.1 ∧
      e.2.onMember "click_behavior" (Json.onObj r.clickBehavior) = .ok e'.2) members entries := by
    refine (Json.forall₂_comp hclicked (Except.mapM_eq_ok_iff.1 hentries)).imp ?_
    rintro ⟨key, v⟩ e' ⟨⟨_, w⟩, ⟨rfl, hw⟩, he'⟩
    obtain ⟨key', hkey', he'⟩ := Except.bind_eq_ok_iff.1 he'
    obtain rfl := Except.ok.inj he'
    exact ⟨hkey', hw⟩
  have hnodup : (entries.map Prod.fst).Nodup := by
    refine hapart.columns (.columns hcolumns) (Except.mapM_eq_ok_iff.2 ?_)
    exact List.forall₂_map_right_iff.2 (hforall.imp fun _ _ => And.left)
  rw [Assoc.ofList_eq_self hnodup]
  refine .of_members (Json.forall₂_iff_getElem?.2 ⟨hforall.length_eq, fun n e e' he he' => ?_⟩)
  obtain ⟨hkey, hvalue⟩ := Json.getElem?_forall₂ hforall he he'
  have hmem := List.mem_of_getElem? he
  have hcolumn := Json.wellFormedMembers_iff.1 (hsettings.member? hcolumns).2 e hmem
  refine ⟨(refKey_holds hkey).imp_right fun ⟨f, hholds, hf⟩ => .columnKey hcolumns hmem hholds hf, ?_⟩
  refine .onMember hcolumn hvalue fun click click' hclick hclick' => .onObj hclick' fun hclick' => ?_
  have hplace (k : PlaceKind) (p : Json) : k = .clickBehavior ∧ p = click → Walk.SettingsPlace settings k p := by
    rintro ⟨rfl, rfl⟩
    exact .columnClick hcolumns hmem hclick
  refine (clickBehavior_differsOnly (hcolumn.member? hclick) (hapart.mono hplace) hclick').mono fun c p => ?_
  exact .columnClick hcolumns hmem hclick

/-- What a walk does to the members of settings that hold places. -/
def settingsTurns (r : Renaming) : List (String × (Json → Except MigrationError Json)) :=
  [("series_settings", Json.onObj pure), ("table.columns", Json.onArr r.tableColumns),
    ("column_settings", Json.onMembers fun _ => Json.onMember "click_behavior" (Json.onObj r.clickBehavior)),
    ("column_settings", Json.onObj r.columnSettings), ("click_behavior", Json.onObj r.clickBehavior)]

theorem mem_keys_settingsTurns {key : String} :
    key ∈ r.settingsTurns.map Prod.fst ↔ key ∈ Walk.innerKeys .visualizationSettings := by
  simp [settingsTurns, Walk.innerKeys]

/-- A member that holds a place is changed by what is done to it. -/
theorem settingsTurn_differsOnly {key : String} {v v' : Json} (hj : j.WellFormed)
    (hapart : r.KeepsApart (Walk.SettingsPlace j)) (hkey : key ∈ Walk.innerKeys .visualizationSettings)
    (hv : j.member? key = some v) (h : turnOf key r.settingsTurns v = .ok v') :
    DiffersOnly ((SettingsSite j).below (.member key)) v v' := by
  simp only [Walk.innerKeys, List.mem_cons, List.not_mem_nil, or_false] at hkey
  obtain rfl | rfl | rfl | rfl := hkey <;>
    simp only [settingsTurns, Json.turnOf_cons_self, Json.turnOf_cons_of_ne, Json.turnOf_nil, ne_eq, String.reduceEq,
      not_false_eq_true, bind_pure] at h
  · refine .onObj h fun h => ?_
    obtain rfl := Except.ok.inj h
    exact .refl _ _
  · cases v with
    | arr items =>
      refine .onItems h fun n column column' hcolumn hcolumn' => ?_
      have hwell := (hj.member? hv).item? hcolumn
      exact (tableColumn_differsOnly hwell hcolumn').mono fun c p => .tableColumn hv hcolumn
    | _ =>
      obtain rfl := Except.ok.inj h
      exact .refl _ _
  · cases v with
    | obj members => exact columnSettings_differsOnly hj hapart hv h
    | _ =>
      obtain rfl := Except.ok.inj h
      exact .refl _ _
  · refine .onObj h fun h => ?_
    have hplace (k : PlaceKind) (p : Json) : k = .clickBehavior ∧ p = v → Walk.SettingsPlace j k p := by
      rintro ⟨rfl, rfl⟩
      exact .click hv
    exact (clickBehavior_differsOnly (hj.member? hv) (hapart.mono hplace) h).mono fun c p => .click hv

/-- The members that hold places are changed, and then those that hold names of columns. -/
theorem settings_differsOnly {trail : Trail} (hj : j.WellFormed) (hapart : r.KeepsApart (Walk.SettingsPlace j))
    (h : Walk.settings (fun t j => (r.place t j).outcome) trail j = .ok j') :
    DiffersOnly (SettingsSite j) j j' := by
  have hturns : j.inTurn r.settingsTurns >>= (Json.onMembers fun key v =>
      pure (if nameSettings.contains key then r.columnNames v else v)) = .ok j' := by
    rw [← funext visualizationSettings_eq]
    simp only [settingsTurns, Json.inTurn_cons, Json.inTurn_nil, bind_pure, bind_assoc]
    exact h
  refine .inTurn_onMembers hj hturns fun key v v' hv hv' => ?_
  have hnames : ∀ key ∈ Walk.innerKeys .visualizationSettings, key ∉ nameSettings := by decide
  by_cases hkey : key ∈ Walk.innerKeys .visualizationSettings
  · simp only [List.contains_iff_mem, if_neg (hnames key hkey), bind_pure] at hv'
    exact settingsTurn_differsOnly hj hapart hkey hv hv'
  · rw [Json.turnOf_of_not_mem (mem_keys_settingsTurns.not.2 hkey)] at hv'
    obtain rfl := Except.ok.inj hv'
    split
    · next hname => exact columnNames_differsOnly v fun p => .name (List.contains_iff_mem.1 hname) hv
    · exact .refl _ _

/-! ## Cards, dashcards and parameters -/

/-- What a walk does to the members of a card or dashcard that hold places. -/
def innerTurns (r : Renaming) (trail : Trail) : List (String × (Json → Except MigrationError Json)) :=
  [("visualization_settings", Json.onObj (Walk.settings (fun t j => (r.place t j).outcome) trail)),
    ("dataset_query", Json.onMember "query" (Json.onObj (Walk.query (fun t j => (r.place t j).outcome) trail))),
    ("parameter_mappings", Json.onItems (Json.onObj r.parameterMapping))]

theorem mem_keys_innerTurns {trail : Trail} {key : String} :
    key ∈ (r.innerTurns trail).map Prod.fst ↔ key ∈ Walk.innerKeys .card := by
  simp [innerTurns, Walk.innerKeys]

theorem innerTurn_differsOnly {trail : Trail} {key : String} {v v' : Json} (hj : j.WellFormed)
    (hapart : r.KeepsApart (Walk.CardPlace j)) (hkey : key ∈ Walk.innerKeys .card) (hv : j.member? key = some v)
    (h : turnOf key (r.innerTurns trail) v = .ok v') : DiffersOnly ((InnerSite j).below (.member key)) v v' := by
  simp only [Walk.innerKeys, List.mem_cons, List.not_mem_nil, or_false] at hkey
  obtain rfl | rfl | rfl := hkey <;>
    simp only [innerTurns, Json.turnOf_cons_self, Json.turnOf_cons_of_ne, Json.turnOf_nil, ne_eq, String.reduceEq,
      not_false_eq_true, bind_pure] at h
  · refine .onObj h fun h => ?_
    refine (settings_differsOnly (hj.member? hv) (hapart.mono fun k p => .settings hv) h).mono fun c p => ?_
    exact .settings hv
  · refine .onMember (hj.member? hv) h fun q q' hq h => .onObj h fun h => ?_
    have hquery : j.query? = some q := by rw [Json.query?, hv, Option.bind_some, hq]
    refine ((walkQuery_substitutes trail q h).differsOnly ((hj.member? hv).member? hq)).mono ?_
    rintro c p ⟨rfl, k, -, hp⟩
    exact .query hquery hp
  · cases v with
    | arr items =>
      refine .onItems h fun n i i' hi h => .onObj h fun h => ?_
      exact (parameterMapping_differsOnly ((hj.member? hv).item? hi) h).mono fun c p => .mapping hv hi
    | _ =>
      obtain rfl := Except.ok.inj h
      exact .refl _ _

/-- The places inside of a card or dashcard are visited first, and then the members that it holds directly. -/
theorem inTurn_differsOnly {trail : Trail} {acts : List (String × (Json → Except MigrationError Json))}
    (hj : j.WellFormed) (hapart : r.KeepsApart (Walk.CardPlace j)) (h : j.inTurn (r.innerTurns trail ++ acts) = .ok j')
    (hsites : ∀ c p, InnerSite j c p → sites c p)
    (hacts : ∀ key ∈ acts.map Prod.fst, ∀ v w v', j.member? key = some v → (key ∉ Walk.innerKeys .card → w = v) →
      DiffersOnly (sites.below (.member key)) v w → turnOf key acts w = .ok v' →
      DiffersOnly (sites.below (.member key)) v v') : DiffersOnly sites j j' := by
  refine .inTurn hj h fun key _ v v' hv hv' => ?_
  rw [Json.turnOf_append] at hv'
  obtain ⟨w, hw, hv'⟩ := Except.bind_eq_ok_iff.1 hv'
  have hsame (hinner : key ∉ Walk.innerKeys .card) : w = v := by
    rw [Json.turnOf_of_not_mem (mem_keys_innerTurns.not.2 hinner)] at hw
    exact (Except.ok.inj hw).symm
  have hdiffers : DiffersOnly (sites.below (.member key)) v w := by
    by_cases hinner : key ∈ Walk.innerKeys .card
    · exact (innerTurn_differsOnly hj hapart hinner hv hw).mono fun c p => hsites c _
    · exact hsame hinner ▸ .refl _ _
  by_cases hkey : key ∈ acts.map Prod.fst
  · exact hacts key hkey v w v' hv hsame hdiffers hv'
  · rw [Json.turnOf_of_not_mem hkey] at hv'
    obtain rfl := Except.ok.inj hv'
    exact hdiffers

/-- The walk of a card changes its members in turn, and then visits the card itself. -/
theorem walkCard_eq_inTurn (trail : Trail) (j : Json) :
    Walk.card (fun t j => (r.place t j).outcome) trail j =
      j.inTurn (r.innerTurns (trail.push .card (Walk.cardTitle j))) >>=
        fun card => (r.place (trail.push .card (Walk.cardTitle j)) card).outcome := by
  simp only [innerTurns, Json.inTurn_cons, Json.inTurn_nil, bind_pure, bind_assoc]
  rfl

/-! ### Cards -/

/-- What is done to the members of a card itself. -/
def cardTurns (r : Renaming) : List (String × (Json → Except MigrationError Json)) :=
  [("database_id", Json.unlessNull fun _ => pure r.databaseValue),
    ("dataset_query", fun query => pure (query.setMember "database" r.databaseValue)),
    ("table_id", Json.unlessNull r.tableValue), ("result_metadata", Json.onItems r.metadataColumn)]

theorem outcome_place_card {trail : Trail} (hkind : trail.kind? = some .card)
    (htrail : trail.hasKind .dashboard = false) : (fun j => (r.place trail j).outcome) = inTurn r.cardTurns := by
  funext j
  rw [place, hkind]
  simp only [htrail, cardTurns, Json.inTurn_cons, Json.inTurn_nil, bind_pure]
  rfl

theorem card_differsOnly {trail : Trail} (htrail : trail.hasKind .dashboard = false) (hj : j.WellFormed)
    (hapart : r.KeepsApart (Walk.CardPlace j))
    (h : Walk.card (fun t j => (r.place t j).outcome) trail j = .ok j') : DiffersOnly (CardSite j) j j' := by
  have hcard : (trail.push .card (Walk.cardTitle j)).hasKind .dashboard = false := htrail
  rw [walkCard_eq_inTurn, outcome_place_card rfl hcard, ← Json.inTurn_append] at h
  refine inTurn_differsOnly hj hapart h (fun c p => .inner) fun key hkey v w v' hv hsame hdiffers hv' => ?_
  simp only [cardTurns, List.map_cons, List.map_nil, List.mem_cons, List.not_mem_nil, or_false] at hkey
  obtain rfl | rfl | rfl | rfl := hkey <;>
    simp only [cardTurns, Json.turnOf_cons_self, Json.turnOf_cons_of_ne, Json.turnOf_nil, ne_eq, String.reduceEq,
      not_false_eq_true, bind_pure] at hv'
  · exact .value .database
  · obtain rfl := Except.ok.inj hv'
    exact hdiffers.setEntry (fun k => CardSite.not_key rfl) .queryDatabase _
  · exact .value .table
  · obtain rfl := hsame (by decide)
    cases w with
    | arr items =>
      refine .onItems hv' fun n column column' hcolumn hcolumn' => ?_
      exact (metadataColumn_differsOnly hcolumn').mono fun c p => .result hv hcolumn
    | _ =>
      obtain rfl := Except.ok.inj hv'
      exact .refl _ _

/-! ### Dashcards -/

/-- What is done to the members of a dashcard itself, where every card can be had. -/
def dashcardTurns (r : Renaming) : List (String × (Json → Except MigrationError Json)) :=
  [("card_id", Json.unlessNull (r.givenCardValue fun _ => .ok ())), ("card", r.cardSummary)]

theorem outcome_place_dashcard {trail : Trail} (hkind : trail.kind? = some .card)
    (htrail : trail.hasKind .dashboard = true) : (fun j => (r.place trail j).outcome) = inTurn r.dashcardTurns := by
  funext j
  rw [place, hkind]
  simp only [htrail, dashcardTurns, Json.inTurn_cons, Json.inTurn_nil, bind_pure]
  rw [if_pos trivial, ← Plan.given_ok, dashcardNode_given]

theorem dashcard_differsOnly {trail : Trail} (htrail : trail.hasKind .dashboard = true) (hj : j.WellFormed)
    (hapart : r.KeepsApart (Walk.CardPlace j))
    (h : Walk.card (fun t j => (r.place t j).outcome) trail j = .ok j') : DiffersOnly (DashcardSite j) j j' := by
  have hcard : (trail.push .card (Walk.cardTitle j)).hasKind .dashboard = true := htrail
  rw [walkCard_eq_inTurn, outcome_place_dashcard rfl hcard, ← Json.inTurn_append] at h
  refine inTurn_differsOnly hj hapart h (fun c p => .inner) fun key hkey v w v' hv hsame hdiffers hv' => ?_
  simp only [dashcardTurns, List.map_cons, List.map_nil, List.mem_cons, List.not_mem_nil, or_false] at hkey
  obtain rfl | rfl := hkey <;>
    simp only [dashcardTurns, Json.turnOf_cons_self, Json.turnOf_cons_of_ne, Json.turnOf_nil, ne_eq, String.reduceEq,
      not_false_eq_true, bind_pure] at hv'
  · exact .value .card
  · obtain rfl := hsame (by decide)
    refine .onMember_onMember (by decide) (hj.member? hv) hv' (fun u u' hu hu' => ?_) fun u u' hu hu' => ?_
    · exact .value .summaryTable
    · exact .value .summaryDatabase

/-! ### Parameters -/

theorem parameter_differsOnly (hj : j.WellFormed) (h : (r.parameter j).outcome = .ok j') :
    DiffersOnly (ParameterSite j) j j' := by
  have hparameter : j.onMember "values_source_config" (fun config => (r.valuesSource config).outcome) = .ok j' := by
    rw [← h]
    exact (Plan.compatible_outcome.onMember _ (fun _ => rfl) j).symm
  refine .onMember hj hparameter fun config config' hconfig hconfig' => ?_
  rw [← Plan.given_ok, valuesSource_given] at hconfig'
  refine .onMember_onMember (by decide) (hj.member? hconfig) hconfig' (fun v v' hv hv' => ?_) fun f f' hf hf' => ?_
  · exact .value .card
  · exact fieldRef_differsOnly ((hj.member? hconfig).member? hf) hf' fun p hp => .field hconfig hf hp

/-! ## Documents -/

/-- What a walk does to the members of a dashboard. -/
def dashboardTurns (r : Renaming) (trail : Trail) : List (String × (Json → Except MigrationError Json)) :=
  [("dashcards", Json.onItems (Json.onObj (Walk.card (fun t j => (r.place t j).outcome) trail))),
    ("tabs", Json.onArr pure), ("parameters", Json.onItems (Json.onObj fun j => (r.parameter j).outcome)),
    ("param_values", Json.unlessNull pure), ("param_fields", Json.unlessNull pure)]

theorem dashboard_differsOnly {trail : Trail} (hj : j.WellFormed)
    (hapart : r.KeepsApart (Walk.DocumentPlace .dashboard j))
    (h : Walk.dashboard (fun t j => (r.place t j).outcome) trail j = .ok j') :
    DiffersOnly (DashboardSite j) j j' := by
  have hturns : j.inTurn (r.dashboardTurns (trail.push .dashboard (j.text? "name"))) = .ok j' := by
    simp only [dashboardTurns, Json.inTurn_cons, Json.inTurn_nil]
    exact h
  refine .inTurn hj hturns fun key hkey v v' hv hv' => ?_
  simp only [dashboardTurns, List.map_cons, List.map_nil, List.mem_cons, List.not_mem_nil, or_false] at hkey
  obtain rfl | rfl | rfl | rfl | rfl := hkey <;>
    simp only [dashboardTurns, Json.turnOf_cons_self, Json.turnOf_cons_of_ne, Json.turnOf_nil, ne_eq, String.reduceEq,
      not_false_eq_true, bind_pure] at hv'
  · cases v with
    | arr items =>
      refine .onItems hv' fun n i i' hi h => .onObj h fun h => ?_
      have hplaces (k : PlaceKind) (p : Json) : Walk.CardPlace i k p → Walk.DocumentPlace .dashboard j k p :=
        .dashcard hv (List.mem_of_getElem? hi)
      exact (dashcard_differsOnly rfl ((hj.member? hv).item? hi) (hapart.mono hplaces) h).mono fun c p => .dashcard hv hi
    | _ =>
      obtain rfl := Except.ok.inj hv'
      exact .refl _ _
  · obtain rfl := Except.ok.inj ((Json.onArr_eq_ok_self fun _ => rfl).symm.trans hv')
    exact .refl _ _
  · cases v with
    | arr items =>
      refine .onItems hv' fun n i i' hi h => .onObj h fun h => ?_
      exact (parameter_differsOnly ((hj.member? hv).item? hi) h).mono fun c p => .parameter hv hi
    | _ =>
      obtain rfl := Except.ok.inj hv'
      exact .refl _ _
  · obtain rfl := Except.ok.inj ((Json.unlessNull_eq_ok_self rfl).symm.trans hv')
    exact .refl _ _
  · obtain rfl := Except.ok.inj ((Json.unlessNull_eq_ok_self rfl).symm.trans hv')
    exact .refl _ _

/-- Renaming the references of a document makes differences at its sites only. -/
theorem document_differsOnly {d d' : Json} (hd : d.WellFormed)
    (hapart : r.KeepsApart (Walk.DocumentPlace r.owner.kind d)) (h : (r.document d).outcome = .ok d') :
    DiffersOnly (DocumentSite r.owner.kind d) d d' := by
  rw [document, Plan.compatible_outcome.document (fun _ _ => rfl)] at h
  revert hapart h
  cases r.owner.kind with
  | card => exact fun hapart h => card_differsOnly rfl hd (hapart.mono fun k p => .card) h
  | dashboard => exact fun hapart h => dashboard_differsOnly hd hapart h

end Rehome.Renaming
