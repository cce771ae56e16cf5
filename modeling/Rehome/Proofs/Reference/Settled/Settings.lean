import Rehome.Proofs.Json.RoundTrip
import Rehome.Proofs.Reference.Settled.Query

/-! # Renaming the references of settings settles

The keys of columns are texts. The new text of a key is read as the reference that it was made of if the
doubles in that are read back (`KeyReadsBack`); a key that holds no reference keeps its text. Keys that
collide leave distinct keys behind, so keying anew a second time changes nothing. -/

namespace Rehome.Renaming

variable {r : Renaming} (hr : r.mapping.Settled)

include hr

/-! ## Names of columns -/

theorem replacedName_self (n : String) :
    (r.mapping.replaceName? ((r.mapping.replaceName? n).getD n)).getD
      ((r.mapping.replaceName? n).getD n) = (r.mapping.replaceName? n).getD n := by
  cases hn : r.mapping.replaceName? n with
  | none => rw [Option.getD_none, hn, Option.getD_none]
  | some n' =>
    rw [Option.getD_some]
    cases hn' : r.mapping.replaceName? n' with
    | none => rfl
    | some n'' => exact hr.name hn hn'

omit hr in
mutual

theorem columnNames_columnNames (hr : r.mapping.Settled) : (j : Json) →
    r.columnNames (r.columnNames j) = r.columnNames j
  | .str n => by
    rw [columnNames, columnNames, replacedName_self hr n]
  | .arr items => by
    rw [columnNames, columnNames, columnNamesItems_columnNamesItems hr items]
  | .null | .bool _ | .int _ | .double _ | .obj _ => by simp only [columnNames]

theorem columnNamesItems_columnNamesItems (hr : r.mapping.Settled) : (items : List Json) →
    r.columnNamesItems (r.columnNamesItems items) = r.columnNamesItems items
  | [] => rfl
  | j :: rest => by
    rw [columnNamesItems, columnNamesItems, columnNames_columnNames hr j,
      columnNamesItems_columnNamesItems hr rest]

end

omit hr in
/-- Settings are renamed member by member. -/
theorem visualizationSettings_eq (j : Json) : (.ok (r.visualizationSettings j) : Except MigrationError Json) =
    j.onMembers fun key v => pure (if nameSettings.contains key then r.columnNames v else v) := by
  cases j with
  | obj members =>
    refine (Json.onMembers_eq_ok_iff.2 ⟨_, rfl, ?_⟩).symm
    exact List.forall₂_map_right_iff.2 (List.forall₂_same.2 fun p _ => ⟨rfl, rfl⟩)
  | _ => rfl

theorem settles_visualizationSettings :
    Settles fun j => (.ok (r.visualizationSettings j) : Except MigrationError Json) := by
  rw [funext visualizationSettings_eq]
  refine Json.settles_onMembers fun key v v' h => ?_
  obtain rfl := Except.ok.inj h
  split_ifs
  · rw [columnNames_columnNames hr]
    rfl
  · rfl

/-! ## Serialized references -/

omit hr in
/-- The second item is renamed if it is a field reference. -/
theorem second_eq_some_iff {field j j' : Json} :
    (do return (← r.fieldRef? field).map (j.setItem 1) : Except MigrationError _) = .ok (some j') ↔
      ∃ field', Retargeted r field field' ∧ j' = j.setItem 1 field' := by
  rw [Except.bind_eq_ok_iff]
  constructor
  · rintro ⟨o, ho, h⟩
    obtain ⟨field', rfl, rfl⟩ := Option.map_eq_some_iff.1 (Except.ok.inj h)
    exact ⟨field', fieldRef?_eq_some_iff.1 ho, rfl⟩
  · rintro ⟨field', h, rfl⟩
    exact ⟨some field', fieldRef?_eq_some_iff.2 h, rfl⟩

omit hr in
theorem refValue?_eq_some_iff {j j' : Json} : r.refValue? j = .ok (some j') ↔
    j.item? 0 = some (.str "ref") ∧ ∃ field field', j.item? 1 = some field ∧
      Retargeted r field field' ∧ j' = j.setItem 1 field' := by
  rw [refValue?]
  split
  · next field h0 h1 =>
    rw [second_eq_some_iff]
    simp [h0, h1]
  · next hnot =>
    constructor
    · intro h
      cases h
    · rintro ⟨h0, field, -, h1, -⟩
      exact (hnot field h0 h1).elim

theorem refValue?_self {j j' : Json} (h : r.refValue? j = .ok (some j')) :
    r.refValue? j' = .ok (some j') := by
  obtain ⟨h0, field, field', h1, hfield, rfl⟩ := refValue?_eq_some_iff.1 h
  refine refValue?_eq_some_iff.2 ⟨?_, field', field', Json.item?_setItem h1, hfield.self hr, ?_⟩
  · rw [Json.item?_setItem_of_ne (by decide), h0]
  · rw [Json.setItem_setItem]

omit hr in
theorem Retargeted.legible {P : Binary64 → Prop} {depth : Nat} {j j' : Json} (h : Retargeted r j j')
    (hj : j.Legible P depth) : j'.Legible P depth := by
  cases h with
  | @column _ _ _ _ c' _ _ _ =>
    have hid : ∀ depth, Json.Legible P depth c'.toJson := fun _ => .int (by have := c'.toNat_lt; omega)
    exact hj.setItem (i := 1) fun depth _ _ _ => hid depth
  | name _ _ => exact hj.setItem (i := 1) fun _ _ _ _ => .str _
  | kept _ _ _ => exact hj

omit hr in
theorem legible_refValue? {P : Binary64 → Prop} {depth : Nat} {j j' : Json} (hj : j.Legible P depth)
    (hj' : r.refValue? j = .ok (some j')) : j'.Legible P depth := by
  obtain ⟨-, field, field', hfield, hretargeted, rfl⟩ := refValue?_eq_some_iff.1 hj'
  refine hj.setItem fun depth old hold => ?_
  obtain rfl := Option.some.inj (hfield.symm.trans hold)
  exact hretargeted.legible

/-- If a key holds a reference, the doubles in what the reference is renamed to are read back. -/
def KeyReadsBack (r : Renaming) (key : String) : Prop :=
  ∀ j j', Json.parse? key = some j → r.refValue? j = .ok (some j') → ∀ x, j'.HoldsDouble x → x.ReadsBack

omit hr in
/-- The new text of a key is read as the reference that it was made of. -/
theorem KeyReadsBack.parse? {key : String} {j j' : Json} (hkey : KeyReadsBack r key)
    (hj : Json.parse? key = some j) (hj' : r.refValue? j = .ok (some j')) :
    Json.parse? j'.compact = some j' := by
  have hlegible := legible_refValue? (Json.legible_of_parse? hj) hj'
  exact Json.parse?_compact (hlegible.of_holdsDouble (hkey j j' hj hj'))

omit hr in
theorem refKey_eq_ok_iff {key key' : String} : r.refKey key = .ok key' ↔
    (∃ j j', Json.parse? key = some j ∧ r.refValue? j = .ok (some j') ∧ key' = j'.compact) ∨
      (∀ j, Json.parse? key = some j → r.refValue? j = .ok none) ∧ key' = key := by
  rw [refKey]
  split
  · next hnone => simp [hnone, eq_comm]
  · next j hj =>
    rw [Except.bind_eq_ok_iff]
    simp only [hj, Option.some.injEq, exists_and_left, forall_eq', exists_eq_left']
    constructor
    · rintro ⟨o, ho, h⟩
      obtain rfl := Except.ok.inj h
      cases o with
      | none => exact .inr ⟨ho, rfl⟩
      | some j' => exact .inl ⟨j', ho, rfl⟩
    · rintro (⟨j', hj', rfl⟩ | ⟨hnone, rfl⟩)
      · exact ⟨some j', hj', rfl⟩
      · exact ⟨none, hnone, rfl⟩

theorem refKey_self {key key' : String} (hkey : KeyReadsBack r key) (h : r.refKey key = .ok key') :
    r.refKey key' = .ok key' := by
  obtain ⟨j, j', hj, hj', rfl⟩ | ⟨hnone, rfl⟩ := refKey_eq_ok_iff.1 h
  · exact refKey_eq_ok_iff.2 (.inl ⟨j', j', hkey.parse? hj hj', refValue?_self hr hj', rfl⟩)
  · exact h

/-! ## Columns -/

theorem tableColumn_self {c c' : Json} (hkey : ∀ key, c.text? "key" = some key → KeyReadsBack r key)
    (h : r.tableColumn c = .ok c') : r.tableColumn c' = .ok c' := by
  obtain ⟨a, ha, h⟩ := Except.bind_eq_ok_iff.1 h
  have hfield := Json.onMember_eq_ok_self_iff.1 (Json.settles_onMember _ (settles_fieldRef hr) c a ha)
  refine Except.bind_eq_ok_iff.2 ⟨c', Json.onMember_eq_ok_self_iff.2 fun v hv => ?_,
    Json.onMember_eq_ok_self_iff.2 fun v' hv' => ?_⟩
  · rw [Json.keeps_onMember (by decide) a c' h] at hv
    exact hfield v hv
  · obtain ⟨v, hv, hvv⟩ := Json.mem_of_mem_onMember (Json.mem_onMember_of_eq_ok h) hv'
    rw [Json.keeps_onMember (by decide) c a ha] at hv
    cases v with
    | str key =>
      obtain ⟨key', hkey', hstr⟩ := Except.bind_eq_ok_iff.1 hvv
      obtain rfl := Except.ok.inj hstr
      have hread : KeyReadsBack r key := hkey key (by rw [Json.text?, hv]; rfl)
      exact Except.bind_eq_ok_iff.2 ⟨key', refKey_self hr hread hkey', rfl⟩
    | _ =>
      obtain rfl := Except.ok.inj hvv
      rfl

theorem tableColumns_self {items : List Json} {j' : Json}
    (hkeys : ∀ c ∈ items, ∀ key, c.text? "key" = some key → KeyReadsBack r key)
    (h : r.tableColumns (.arr items) = .ok j') : r.tableColumns j' = .ok j' := by
  obtain ⟨items', -, heq⟩ := Except.bind_eq_ok_iff.1 h
  obtain rfl := Except.ok.inj heq
  refine Json.onItems_eq_ok_self_iff.2 fun c' hc' => ?_
  obtain ⟨olds, c, harr, hc, hcc⟩ := Json.exists_of_onItems h hc'
  obtain rfl := Json.arr.inj harr
  exact tableColumn_self hr (hkeys c hc) hcc

omit hr in
/-- Entries that settle are left alone when their map is keyed anew once more: its keys are distinct. -/
theorem keyed_self {f : String × Json → Except MigrationError (String × Json)}
    {members entries : List (String × Json)} (h : members.mapM f = .ok entries)
    (hf : ∀ e ∈ members, ∀ e', f e = .ok e' → f e' = .ok e') :
    (do return Json.obj (Assoc.ofList (← (Assoc.ofList entries).mapM f)) : Except MigrationError _) =
      .ok (.obj (Assoc.ofList entries)) := by
  have hsame : (Assoc.ofList entries).mapM f = .ok (Assoc.ofList entries) := by
    refine Except.mapM_eq_ok_iff.2 (List.forall₂_same.2 fun e' he' => ?_)
    obtain ⟨e, he, hee⟩ := Json.exists_of_forall₂ (Except.mapM_eq_ok_iff.1 h)
      (Assoc.mem_of_mem_ofList he')
    exact hf e he e' hee
  refine Except.bind_eq_ok_iff.2 ⟨_, hsame, ?_⟩
  rw [Assoc.ofList_eq_self (Assoc.nodup_keys_ofList entries)]
  rfl

omit hr in
theorem exists_of_columnSettings {j : Json} {members' : List (String × Json)} {e' : String × Json}
    (h : r.columnSettings j = .ok (.obj members')) (he' : e' ∈ members') :
    ∃ members e, j = .obj members ∧ e ∈ members ∧ r.refKey e.1 = .ok e'.1 ∧ e'.2 = e.2 := by
  cases j with
  | obj members =>
    obtain ⟨entries, hentries, heq⟩ := Except.bind_eq_ok_iff.1 h
    rw [← Json.obj.inj (Except.ok.inj heq)] at he'
    obtain ⟨e, he, hee⟩ := Json.exists_of_forall₂ (Except.mapM_eq_ok_iff.1 hentries)
      (Assoc.mem_of_mem_ofList he')
    obtain ⟨key, hkey, hee⟩ := Except.bind_eq_ok_iff.1 hee
    obtain rfl := Except.ok.inj hee
    exact ⟨members, e, rfl, he, hkey, rfl⟩
  | _ => cases h

theorem columnSettings_self {members : List (String × Json)} {j' : Json}
    (hkeys : ∀ e ∈ members, KeyReadsBack r e.1) (h : r.columnSettings (.obj members) = .ok j') :
    r.columnSettings j' = .ok j' := by
  obtain ⟨entries, hentries, heq⟩ := Except.bind_eq_ok_iff.1 h
  obtain rfl := Except.ok.inj heq
  refine keyed_self hentries fun e he e' hee => ?_
  obtain ⟨key, hkey, hee⟩ := Except.bind_eq_ok_iff.1 hee
  obtain rfl := Except.ok.inj hee
  exact Except.bind_eq_ok_iff.2 ⟨key, refKey_self hr (hkeys e he) hkey, rfl⟩

/-! ## Click behaviour -/

theorem dimension?_self {d d' : Json} (h : r.dimension? d = .ok (some d')) :
    r.dimension? d' = .ok (some d') := by
  rw [dimension?] at h
  split at h
  · cases h
  · next field hfield =>
    obtain ⟨field', hfield', rfl⟩ := second_eq_some_iff.1 h
    rw [dimension?, Json.item?_setItem hfield]
    refine second_eq_some_iff.2 ⟨field', hfield'.self hr, ?_⟩
    rw [Json.setItem_setItem]

omit hr in
theorem mappedDimension?_eq_some_iff {mapping d : Json} : mappedDimension? mapping = some d ↔
    ∃ target, mapping.member? "target" = some target ∧ target.text? "type" = some "dimension" ∧
      target.member? "dimension" = some d := by
  rw [mappedDimension?]
  split
  · next hnone => simp [hnone]
  · next target htarget =>
    rw [htarget]
    split
    · next htype => simp [htype]
    · next htype => simp [htype]

omit hr in
/-- What a mapping with a new dimension holds where it has been changed. -/
theorem member?_withDimension {mapping target : Json} (d : Json)
    (htarget : mapping.member? "target" = some target) (hobj : target.isObj) :
    (withDimension mapping d).member? "id" = some (.str d.compact) ∧
    ∃ target', (withDimension mapping d).member? "target" = some target' ∧
      target'.text? "type" = target.text? "type" ∧ target'.member? "dimension" = some d ∧
      target'.member? "id" = some (.str d.compact) := by
  have hmapping := Json.isObj_of_member? htarget
  rw [withDimension, htarget, Option.getD_some]
  refine ⟨Json.member?_setMember_self (Json.isObj_setMember.trans hmapping),
    (target.setMember "dimension" d).setMember "id" (.str d.compact), ?_, ?_, ?_, ?_⟩
  · rw [Json.member?_setMember_of_ne (by decide), Json.member?_setMember_self hmapping]
  · rw [Json.text?, Json.member?_setMember_of_ne (by decide), Json.member?_setMember_of_ne (by decide),
      Json.text?]
  · rw [Json.member?_setMember_of_ne (by decide), Json.member?_setMember_self hobj]
  · exact Json.member?_setMember_self (Json.isObj_setMember.trans hobj)

theorem clickMapping_self {e e' : String × Json} (h : r.clickMapping e = .ok e') :
    r.clickMapping e' = .ok e' := by
  have hsame := h
  rw [clickMapping] at h
  split at h
  · obtain rfl := Except.ok.inj h
    exact hsame
  · next d hd =>
    obtain ⟨o, ho, h⟩ := Except.bind_eq_ok_iff.1 h
    cases o with
    | none =>
      obtain rfl := Except.ok.inj h
      exact hsame
    | some d' =>
      obtain rfl := Except.ok.inj h
      obtain ⟨target, htarget, htype, hdimension⟩ := mappedDimension?_eq_some_iff.1 hd
      obtain ⟨hid, target', htarget', htype', hdimension', hid'⟩ :=
        member?_withDimension d' htarget (Json.isObj_of_member? hdimension)
      have hmapped : mappedDimension? (withDimension e.2 d') = some d' :=
        mappedDimension?_eq_some_iff.2 ⟨target', htarget', htype'.trans htype, hdimension'⟩
      rw [clickMapping, hmapped]
      refine Except.bind_eq_ok_iff.2 ⟨some d', dimension?_self hr ho, ?_⟩
      have hwith : withDimension (withDimension e.2 d') d' = withDimension e.2 d' := by
        rw [withDimension, htarget', Option.getD_some, Json.setMember_eq_self hdimension',
          Json.setMember_eq_self hid', Json.setMember_eq_self htarget', Json.setMember_eq_self hid]
      exact congrArg (fun mapping => Except.ok (d'.compact, mapping)) hwith

theorem settles_clickMappings : Settles r.clickMappings := by
  intro j j' h
  cases j with
  | obj members =>
    obtain ⟨entries, hentries, heq⟩ := Except.bind_eq_ok_iff.1 h
    obtain rfl := Except.ok.inj heq
    exact keyed_self hentries fun e _ e' => clickMapping_self hr
  | _ =>
    obtain rfl := Except.ok.inj h
    exact h

theorem settles_clickTarget (toDashboard : Bool) : Settles (r.clickTarget toDashboard) := by
  cases toDashboard with
  | true => exact settles_dashboardValue hr
  | false => exact settles_cardValue hr

theorem settles_clickBehavior : Settles r.clickBehavior := by
  have hclick : ∀ toDashboard, Settles fun click : Json =>
      click.onMember "targetId" (Json.unlessNull (r.clickTarget toDashboard)) >>=
        Json.onMember "parameterMapping" r.clickMappings := fun toDashboard =>
    Json.settles_onMember_bind (Json.settles_unlessNull (settles_clickTarget hr toDashboard))
      (Json.settles_onMember _ (settles_clickMappings hr)) (Json.keeps_onMember (by decide))
  intro click click' h
  have hlink : click'.member? "linkType" = click.member? "linkType" :=
    Json.keeps_onMember_bind (by decide) (Json.keeps_onMember (by decide)) click click' h
  rw [clickBehavior, Json.text?, hlink, ← Json.text?]
  exact hclick _ click click' h

end Rehome.Renaming
