import Rehome.Proofs.Json.Similar
import Rehome.Proofs.Reference.Columns
import Rehome.Proofs.Reference.Frame
import Rehome.Proofs.Reference.Keys

/-! # Columns of a table and their settings

A column of a table holds a field reference and the text of it as a key, and its settings stand under the same
text. The reference is renamed in place, both texts are read, renamed and written again: the three agree
afterwards if the text of the reference is read back. Of several settings that come to one text the last are
kept. -/

namespace Rehome

/-- The key of a field reference. -/
def refText (f : Json) : String := (Json.arr [.str "ref", f]).compact

/-- The text of a field reference is read back. -/
def RefReadsBack (f : Json) : Prop := Json.parse? (refText f) = some (.arr [.str "ref", f])

namespace Renaming

variable {r : Renaming}

/-- A key is renamed in step with the reference that it is the text of. -/
theorem refKey_refText {f f' : Json} (hread : RefReadsBack f) (hf : r.fieldRef f = .ok f') :
    r.refKey (refText f) = .ok (refText f') := by
  rw [refKey_eq_ok_iff]
  obtain hf' | ⟨hnot, rfl⟩ := fieldRef_eq_ok_iff.1 hf
  · exact .inl ⟨_, _, hread, refValue?_eq_some_iff.2 ⟨rfl, f, f', rfl, hf', rfl⟩, rfl⟩
  · refine .inr ⟨fun j hj => refValue?_eq_none_iff.2 fun _ field hitem => ?_, rfl⟩
    obtain rfl := Option.some.inj (hread.symm.trans hj)
    obtain rfl := Option.some.inj hitem
    exact hnot

/-- Whether a value is a field reference does not depend on its doubles. -/
theorem isFieldRef_of_blur_eq {j j' : Json} (h : j'.blur = j.blur) (hj : (Clause.ofJson j).isFieldRef) :
    (Clause.ofJson j').isFieldRef := by
  obtain ⟨target, htarget⟩ := Clause.isFieldRef_eq_true_iff.1 hj
  obtain ⟨operator, operands, rfl, hoperator, -⟩ := Clause.ofJson_eq_fieldRef_iff.1 htarget
  cases j' with
  | arr items =>
    match items with
    | [] => cases h
    | .str operator' :: operands' =>
      simp only [Json.blur, Json.blurItems, Json.arr.injEq, List.cons.injEq, Json.str.injEq] at h
      obtain ⟨rfl, -⟩ := h
      rw [Clause.isFieldRef_ofJson_clause, decide_eq_true hoperator]
    | .null :: _ | .bool _ :: _ | .int _ :: _ | .double _ :: _ | .arr _ :: _ | .obj _ :: _ =>
      simp [Json.blur, Json.blurItems] at h
  | _ => cases h

/-- No other key comes to the text of a value that is no field reference. -/
theorem refKey_ne_refText {f : Json} (hread : RefReadsBack f) (hf : (Clause.ofJson f).isFieldRef = false)
    {key : String} (hkey : key ≠ refText f) : r.refKey key ≠ .ok (refText f) := by
  intro h
  obtain ⟨j, j', hj, hj', htext⟩ | ⟨-, hsame⟩ := refKey_eq_ok_iff.1 h
  · have hlegible := legible_refValue? (Json.legible_of_parse? hj) hj'
    rw [RefReadsBack, htext] at hread
    have hblur := Json.blur_of_parse?_compact hlegible hread
    obtain ⟨-, field, field', hitem, hfield, rfl⟩ := refValue?_eq_some_iff.1 hj'
    have hsecond : f.blur = field'.blur := by
      cases j with
      | arr items =>
        match items with
        | first :: second :: others =>
          simp only [Json.setItem, List.set_cons_succ, List.set_cons_zero, Json.blur, Json.blurItems, Json.arr.injEq,
            List.cons.injEq] at hblur
          exact hblur.2.1
        | [] | [_] => cases hitem
      | _ => cases hitem
    rw [isFieldRef_of_blur_eq hsecond hfield.isFieldRef] at hf
    cases hf
  · exact hkey hsame.symm

/-- A column of a table is renamed in its two members. -/
theorem tableColumn_agrees {column column' f : Json} (hread : RefReadsBack f)
    (hfield : column.member? "fieldRef" = some f) (hkey : column.member? "key" = some (.str (refText f)))
    (h : r.tableColumn column = .ok column') : ∃ f', r.fieldRef f = .ok f' ∧
      column' = (column.setMember "fieldRef" f').setMember "key" (.str (refText f')) := by
  rw [tableColumn, Json.onMember_of_some hfield] at h
  obtain ⟨renamed, hrenamed, h⟩ := Except.bind_eq_ok_iff.1 h
  obtain ⟨f', hf', heq⟩ := Except.bind_eq_ok_iff.1 hrenamed
  obtain rfl := Except.ok.inj heq
  have hkept : (column.setMember "fieldRef" f').member? "key" = some (.str (refText f)) := by
    rw [Json.member?_setMember_of_ne (by decide), hkey]
  rw [Json.onMember_of_some hkept, Json.onStr, refKey_refText hread hf'] at h
  obtain rfl := Except.ok.inj h
  exact ⟨f', hf', rfl⟩

/-- The last of the entries whose keys come to this one. -/
def LastSent (r : Renaming) (key : String) (members : List (String × Json)) (v : Json) : Prop :=
  ∃ before old after, members = before ++ (old, v) :: after ∧ r.refKey old = .ok key ∧
    ∀ e ∈ after, r.refKey e.1 ≠ .ok key

/-- Under each key stand the settings of the last entry that has come to it. -/
theorem columnSettings_lastSent {members : List (String × Json)} {settings' : Json}
    (h : r.columnSettings (.obj members) = .ok settings') (key : String) (v : Json) :
    settings'.member? key = some v ↔ r.LastSent key members v := by
  obtain ⟨hcolumns, rfl⟩ := columnSettings_eq_ok_iff.1 h
  have hkeys : ∀ e ∈ members, ∀ k, r.refKey e.1 = .ok k ↔ r.newKey e.1 = k := by
    intro e he k
    rw [refKey_eq_ok_iff_newKey, and_iff_right (hcolumns e he), eq_comm]
  rw [Json.member?, Assoc.lookup_eq_some_iff_mem (Assoc.nodup_keys_ofList _), mem_keyed_iff]
  refine exists_congr fun before => exists_congr fun old => exists_congr fun after => ?_
  refine and_congr_right fun hmembers => and_congr ?_ ?_
  · exact (hkeys (old, v) (hmembers ▸ List.mem_append_right before List.mem_cons_self) key).symm
  · refine forall₂_congr fun e he => ?_
    rw [Ne, Ne, hkeys e (hmembers ▸ List.mem_append_right before (List.mem_cons_of_mem _ he)) key]

/-- Of the entries that come to a key there is a last one. -/
theorem exists_lastSent {key : String} {members : List (String × Json)}
    (h : ∃ e ∈ members, r.refKey e.1 = .ok key) : ∃ v, r.LastSent key members v := by
  induction members using List.reverseRecOn with
  | nil =>
    obtain ⟨e, he, -⟩ := h
    exact absurd he List.not_mem_nil
  | append_singleton members last ih =>
    by_cases hlast : r.refKey last.1 = .ok key
    · exact ⟨last.2, members, last.1, [], rfl, hlast, fun e he => absurd he List.not_mem_nil⟩
    · obtain ⟨e, he, hkey⟩ := h
      have hmem : e ∈ members := by
        rcases List.mem_append.1 he with he | he
        · exact he
        · obtain rfl := List.mem_singleton.1 he
          exact absurd hkey hlast
      obtain ⟨v, before, old, after, rfl, hold, hafter⟩ := ih ⟨e, hmem, hkey⟩
      refine ⟨v, before, old, after ++ [last], by simp, hold, fun e he => ?_⟩
      rcases List.mem_append.1 he with he | he
      · exact hafter e he
      · obtain rfl := List.mem_singleton.1 he
        exact hlast

/-- The column of a table and its settings agree after their renaming. The key of the column is the text of its
reference, renamed; the settings of the last column whose key comes to this text stand under it, and they are
those of the column unless the key of a later one comes to the same text. If the column held no field reference,
it is unchanged, and so are its settings with their key. -/
theorem columns_agree {f column columns' settings' v : Json} {columns : List Json} {i : Nat}
    {before after : List (String × Json)} (hread : RefReadsBack f) (hcolumn : columns[i]? = some column)
    (hfield : column.member? "fieldRef" = some f) (hkey : column.member? "key" = some (.str (refText f)))
    (hnodup : ((before ++ (refText f, v) :: after).map Prod.fst).Nodup)
    (hcolumns : r.tableColumns (.arr columns) = .ok columns')
    (hsettings : r.columnSettings (.obj (before ++ (refText f, v) :: after)) = .ok settings') :
    ∃ f' column', r.fieldRef f = .ok f' ∧ columns'.item? i = some column' ∧
      column'.member? "fieldRef" = some f' ∧ column'.member? "key" = some (.str (refText f')) ∧
      (∃ w, settings'.member? (refText f') = some w ∧
        r.LastSent (refText f') (before ++ (refText f, v) :: after) w) ∧
      ((∀ e ∈ after, r.refKey e.1 ≠ .ok (refText f')) → settings'.member? (refText f') = some v) ∧
      ((Clause.ofJson f).isFieldRef = false → f' = f ∧ column' = column ∧
        settings'.member? (refText f) = some v) := by
  obtain ⟨renamed, hrenamed, heq⟩ := Except.bind_eq_ok_iff.1 hcolumns
  obtain rfl := Except.ok.inj heq
  obtain ⟨hlength, hitems⟩ := Json.forall₂_iff_getElem?.1 (Except.mapM_eq_ok_iff.1 hrenamed)
  obtain ⟨hlt, -⟩ := List.getElem?_eq_some_iff.1 hcolumn
  have hi : renamed[i]? = some (renamed.get ⟨i, hlength ▸ hlt⟩) := List.getElem?_eq_getElem _
  obtain ⟨f', hf', hcolumn'⟩ := tableColumn_agrees hread hfield hkey (hitems i _ _ hcolumn hi)
  have hsent := refKey_refText hread hf'
  have hlast : (∀ e ∈ after, r.refKey e.1 ≠ .ok (refText f')) → settings'.member? (refText f') = some v :=
    fun hafter => (columnSettings_lastSent hsettings _ _).2 ⟨before, _, after, rfl, hsent, hafter⟩
  obtain ⟨w, hw⟩ := exists_lastSent ⟨(refText f, v), List.mem_append_right before List.mem_cons_self, hsent⟩
  refine ⟨f', _, hf', hi, ?_, ?_, ⟨w, (columnSettings_lastSent hsettings _ _).2 hw, hw⟩, hlast, fun hnot => ?_⟩
  · rw [hcolumn', Json.member?_setMember_of_ne (by decide), Json.member?_setMember_self (Json.isObj_of_member? hfield)]
  · rw [hcolumn', Json.member?_setMember_self (Json.isObj_setMember.trans (Json.isObj_of_member? hfield))]
  · obtain ⟨-, rfl⟩ := (fieldRef_eq_ok_iff.1 hf').resolve_left fun h => by
      rw [h.isFieldRef_source] at hnot
      cases hnot
    refine ⟨rfl, ?_, hlast fun e he => refKey_ne_refText hread hnot ?_⟩
    · rw [hcolumn', Json.setMember_eq_self hfield, Json.setMember_eq_self hkey]
    · rintro hsame
      rw [List.map_append, List.map_cons] at hnodup
      have hnot_mem := (List.nodup_cons.1 (List.nodup_append.1 hnodup).2.1).1
      exact hnot_mem (List.mem_map.2 ⟨e, he, hsame⟩)

/-- A column of a table, with its key. -/
def keyedColumn (column : ColumnId) : Json :=
  .obj [("fieldRef", Sample.fieldRef column), ("key", .str (refText (Sample.fieldRef column)))]

/-- The settings of a column, with its key. -/
def titled (column : ColumnId) (title : String) : String × Json :=
  (refText (Sample.fieldRef column), .obj [("column_title", .str title)])

theorem columns_agree_source : RefReadsBack (Sample.fieldRef ⟨100⟩) ∧
    tableColumns ⟨oneColumn, .card ⟨7⟩⟩ (.arr [keyedColumn ⟨100⟩]) = .ok (.arr [keyedColumn ⟨1100⟩]) ∧
    ∃ settings', columnSettings ⟨oneColumn, .card ⟨7⟩⟩ (.obj [titled ⟨100⟩ "Source"]) = .ok settings' ∧
      settings'.member? (refText (Sample.fieldRef ⟨1100⟩)) = some (.obj [("column_title", .str "Source")]) := by
  have hread : RefReadsBack (Sample.fieldRef ⟨100⟩) := by
    rw [RefReadsBack]
    decide +kernel
  have hcolumns : tableColumns ⟨oneColumn, .card ⟨7⟩⟩ (.arr [keyedColumn ⟨100⟩]) =
      .ok (.arr [keyedColumn ⟨1100⟩]) := by
    decide +kernel
  have hsettings : columnSettings ⟨oneColumn, .card ⟨7⟩⟩ (.obj ([] ++ [titled ⟨100⟩ "Source"])) =
      .ok (.obj [titled ⟨1100⟩ "Source"]) := by
    decide +kernel
  have hkeys : (([] ++ titled ⟨100⟩ "Source" :: []).map Prod.fst).Nodup := List.nodup_singleton _
  obtain ⟨f', column', hf', hcolumn', hfield, -, -, hsent, -⟩ :=
    columns_agree (i := 0) hread rfl rfl rfl hkeys hcolumns hsettings
  obtain rfl := Option.some.inj hcolumn'
  obtain rfl := Option.some.inj hfield
  exact ⟨hread, hcolumns, _, hsettings, hsent fun e he => absurd he List.not_mem_nil⟩

/-- Where the settings of a column and of the one that it is replaced by are both there, those of the column are
lost. -/
theorem columns_superseded : RefReadsBack (Sample.fieldRef ⟨100⟩) ∧
    tableColumns ⟨oneColumn, .card ⟨7⟩⟩ (.arr [keyedColumn ⟨100⟩]) = .ok (.arr [keyedColumn ⟨1100⟩]) ∧
    ∃ settings', columnSettings ⟨oneColumn, .card ⟨7⟩⟩
        (.obj [titled ⟨100⟩ "Source", titled ⟨1100⟩ "Destination"]) = .ok settings' ∧
      settings'.member? (refText (Sample.fieldRef ⟨1100⟩)) ≠ some (.obj [("column_title", .str "Source")]) := by
  refine ⟨?_, by decide +kernel, .obj [titled ⟨1100⟩ "Destination"], by decide +kernel, by decide +kernel⟩
  rw [RefReadsBack]
  decide +kernel

end Renaming

end Rehome
