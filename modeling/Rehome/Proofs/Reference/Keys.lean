import Rehome.Proofs.Reference.Settled.Settings
import Rehome.Sample

/-! # Keys of columns

A key that holds a field reference becomes the text of the reference with its column replaced
(`Renaming.newKey`), every other key stays. Settings that are keyed anew keep the order in which their new
keys come first, and of the settings that come to the same key the last. -/

namespace Rehome

/-- The text of the key holds a reference to a field by the id of the column. -/
inductive KeyNames : String → ColumnId → Prop
  | intro {key : String} {field : Json} {others : List Json} {c : ColumnId} :
    Json.parse? key = some (.arr (.str "ref" :: field :: others)) → RefersById field c → KeyNames key c

namespace Renaming

variable {r : Renaming}

/-- What stands for a column after its replacement: another id if one is known, another name if the name is
overridden. -/
def replacedItem (r : Renaming) : Json → Json
  | .str n => .str ((r.mapping.replaceName? n).getD n)
  | item =>
    match Ident.ofJson? item with
    | some c =>
      match r.mapping.replaceColumn c with
      | .ok c' => c'.toJson
      | .error _ => item
    | none => item

/-- The new text of a key. -/
def newKey (r : Renaming) (key : String) : String :=
  match Json.parse? key with
  | some (.arr (.str "ref" :: .arr (.str operator :: operands) :: others)) =>
    if Text.trim operator = "field" then
      (Json.arr (.str "ref" :: .arr (.str operator :: operands.modifyHead r.replacedItem) :: others)).compact
    else key
  | _ => key

/-! ## One key -/

theorem replacedItem_of_ofJson? {item : Json} {c c' : ColumnId} (hitem : Ident.ofJson? item = some c)
    (hc : r.mapping.replaceColumn c = .ok c') : r.replacedItem item = c'.toJson := by
  cases item with
  | int n => simp only [replacedItem, hitem, hc]
  | _ => cases hitem

theorem replacedItem_of_kept {item : Json} (hid : (Ident.ofJson? item : Option ColumnId) = none)
    (hname : ∀ n, item = .str n → r.mapping.replaceName? n = none) : r.replacedItem item = item := by
  cases item with
  | str n => rw [replacedItem, hname n rfl, Option.getD_none]
  | _ => simp only [replacedItem, hid]

/-- What a field reference is renamed to. -/
theorem Retargeted.replaced {operator : String} {operands : List Json} {j' : Json}
    (h : Retargeted r (.arr (.str operator :: operands)) j') :
    (∀ c, RefersById (.arr (.str operator :: operands)) c → ∃ c', r.mapping.replaceColumn c = .ok c') ∧
      j' = .arr (.str operator :: operands.modifyHead r.replacedItem) := by
  cases h with
  | @column _ item rest c c' _ hitem hc =>
    have hc' := Except.mapError_eq_ok_iff.1 hc
    rw [List.modifyHead_cons, replacedItem_of_ofJson? hitem hc']
    refine ⟨fun d hd => ?_, rfl⟩
    obtain ⟨-, hd⟩ := hd
    obtain rfl := Option.some.inj (hitem.symm.trans hd)
    exact ⟨c', hc'⟩
  | @name _ n n' rest _ hn =>
    rw [List.modifyHead_cons, replacedItem, hn, Option.getD_some]
    refine ⟨fun d hd => ?_, rfl⟩
    obtain ⟨-, hd⟩ := hd
    cases hd
  | kept _ hid hname =>
    cases operands with
    | nil => exact ⟨nofun, rfl⟩
    | cons item rest =>
      have hnone : (Ident.ofJson? item : Option ColumnId) = none :=
        Option.eq_none_iff_forall_ne_some.2 fun c hc => hid c (ofItem_of_ofJson? hc)
      have hkept : ∀ n, item = .str n → r.mapping.replaceName? n = none := by
        rintro n rfl
        exact hname n rfl
      rw [List.modifyHead_cons, replacedItem_of_kept hnone hkept]
      refine ⟨fun d hd => ?_, rfl⟩
      obtain ⟨-, hd⟩ := hd
      cases hnone.symm.trans hd

/-- A field reference is renamed if the column can be replaced that it names by id. -/
theorem retargeted_replaced {operator : String} {operands : List Json} (hfield : Text.trim operator = "field")
    (hcolumns : ∀ c, RefersById (.arr (.str operator :: operands)) c →
      ∃ c', r.mapping.replaceColumn c = .ok c') :
    Retargeted r (.arr (.str operator :: operands))
      (.arr (.str operator :: operands.modifyHead r.replacedItem)) := by
  cases operands with
  | nil => exact .kept hfield nofun nofun
  | cons item rest =>
    rw [List.modifyHead_cons]
    cases hitem : (Ident.ofJson? item : Option ColumnId) with
    | some c =>
      obtain ⟨c', hc⟩ := hcolumns c ⟨hfield, hitem⟩
      rw [replacedItem_of_ofJson? hitem hc]
      exact .column hfield hitem (Except.mapError_eq_ok_iff.2 hc)
    | none =>
      by_cases hname : ∃ n n', item = .str n ∧ r.mapping.replaceName? n = some n'
      · obtain ⟨n, n', rfl, hn⟩ := hname
        rw [replacedItem, hn, Option.getD_some]
        exact .name hfield hn
      · have hkept : ∀ n, item = .str n → r.mapping.replaceName? n = none := by
          rintro n rfl
          exact Option.eq_none_iff_forall_ne_some.2 fun n' hn => hname ⟨n, n', rfl, hn⟩
        rw [replacedItem_of_kept hitem hkept]
        refine .kept hfield (fun c hc => ?_) fun n hn => ?_
        · obtain ⟨item', rest', heq, hc⟩ := ofItem_eq_id hc
          obtain ⟨rfl, rfl⟩ := List.cons.inj heq
          cases hitem.symm.trans hc
        · obtain ⟨rest', heq⟩ := ofItem_eq_name hn
          exact hkept n (List.cons.inj heq).1

/-- The text of the key holds a field reference. -/
def HoldsField (key operator : String) (operands others : List Json) : Prop :=
  Json.parse? key = some (.arr (.str "ref" :: .arr (.str operator :: operands) :: others)) ∧
    Text.trim operator = "field"

theorem newKey_of_holdsField {key operator : String} {operands others : List Json}
    (h : HoldsField key operator operands others) : r.newKey key =
      (Json.arr (.str "ref" :: .arr (.str operator :: operands.modifyHead r.replacedItem) :: others)).compact := by
  rw [newKey, h.1]
  exact if_pos h.2

theorem newKey_of_not_holdsField {key : String}
    (h : ∀ operator operands others, ¬HoldsField key operator operands others) : r.newKey key = key := by
  rw [newKey]
  split
  · next operator operands others hkey => exact if_neg fun hfield => h operator operands others ⟨hkey, hfield⟩
  · rfl

/-- A reference in a key is a list that starts with `ref` and a field reference. -/
theorem exists_holdsField {key : String} {j field : Json} (hkey : Json.parse? key = some j)
    (href : j.item? 0 = some (.str "ref")) (hitem : j.item? 1 = some field)
    (hfield : (Clause.ofJson field).isFieldRef) : ∃ operator operands others,
      HoldsField key operator operands others := by
  obtain ⟨target, htarget⟩ := Clause.isFieldRef_eq_true_iff.1 hfield
  obtain ⟨operator, operands, rfl, hoperator, -⟩ := Clause.ofJson_eq_fieldRef_iff.1 htarget
  cases j with
  | arr items =>
    match items with
    | first :: second :: others =>
      obtain rfl := Option.some.inj href
      obtain rfl := Option.some.inj hitem
      exact ⟨operator, operands, others, hkey, hoperator⟩
    | [] | [_] => cases hitem
  | _ => cases hitem

theorem refValue?_eq_some_iff_replaced {operator : String} {operands others : List Json} {j' : Json}
    (hfield : Text.trim operator = "field") :
    r.refValue? (.arr (.str "ref" :: .arr (.str operator :: operands) :: others)) = .ok (some j') ↔
      (∀ c, RefersById (.arr (.str operator :: operands)) c → ∃ c', r.mapping.replaceColumn c = .ok c') ∧
        j' = .arr (.str "ref" :: .arr (.str operator :: operands.modifyHead r.replacedItem) :: others) := by
  rw [refValue?_eq_some_iff]
  constructor
  · rintro ⟨-, field, field', hitem, h, rfl⟩
    obtain rfl := Option.some.inj hitem
    obtain ⟨hcolumns, rfl⟩ := h.replaced
    exact ⟨hcolumns, rfl⟩
  · rintro ⟨hcolumns, rfl⟩
    exact ⟨rfl, _, _, rfl, retargeted_replaced hfield hcolumns, rfl⟩

theorem refValue?_eq_none_iff {j : Json} : r.refValue? j = .ok none ↔
    (j.item? 0 = some (.str "ref") → ∀ field, j.item? 1 = some field →
      (Clause.ofJson field).isFieldRef = false) := by
  rw [refValue?]
  split
  · next field href hitem =>
    rw [hitem, Except.bind_eq_ok_iff]
    constructor
    · rintro ⟨o, ho, h⟩ - _ hsame
      obtain rfl := Option.some.inj hsame
      obtain rfl := Option.map_eq_none_iff.1 (Except.ok.inj h)
      exact fieldRef?_eq_none_iff.1 ho
    · intro h
      exact ⟨none, fieldRef?_eq_none_iff.2 (h href field rfl), rfl⟩
  · next hnot => exact iff_of_true rfl fun href field hitem => absurd hitem (hnot field href)

theorem refKey_of_holdsField {key key' operator : String} {operands others : List Json}
    (h : HoldsField key operator operands others) : r.refKey key = .ok key' ↔
      (∀ c, RefersById (.arr (.str operator :: operands)) c → ∃ c', r.mapping.replaceColumn c = .ok c') ∧
        key' = r.newKey key := by
  rw [newKey_of_holdsField h, refKey_eq_ok_iff]
  obtain ⟨hparse, hfield⟩ := h
  constructor
  · rintro (⟨j, j', hj, hj', rfl⟩ | ⟨hnone, -⟩)
    · obtain rfl := Option.some.inj (hparse.symm.trans hj)
      obtain ⟨hcolumns, rfl⟩ := (refValue?_eq_some_iff_replaced hfield).1 hj'
      exact ⟨hcolumns, rfl⟩
    · have hnot := refValue?_eq_none_iff.1 (hnone _ hparse) rfl _ rfl
      rw [Clause.isFieldRef_ofJson_clause, decide_eq_true hfield] at hnot
      cases hnot
  · rintro ⟨hcolumns, rfl⟩
    exact .inl ⟨_, _, hparse, (refValue?_eq_some_iff_replaced hfield).2 ⟨hcolumns, rfl⟩, rfl⟩

theorem refKey_of_not_holdsField {key : String}
    (h : ∀ operator operands others, ¬HoldsField key operator operands others) : r.refKey key = .ok key := by
  refine refKey_eq_ok_iff.2 (.inr ⟨fun j hj => refValue?_eq_none_iff.2 fun href field hitem => ?_, rfl⟩)
  rw [Bool.eq_false_iff]
  intro hfield
  obtain ⟨operator, operands, others, hkey⟩ := exists_holdsField hj href hitem hfield
  exact h operator operands others hkey

/-- A key is renamed if the column can be replaced that it names by id. -/
theorem refKey_eq_ok_iff_newKey {key key' : String} : r.refKey key = .ok key' ↔
    (∀ c, KeyNames key c → ∃ c', r.mapping.replaceColumn c = .ok c') ∧ key' = r.newKey key := by
  by_cases h : ∃ operator operands others, HoldsField key operator operands others
  · obtain ⟨operator, operands, others, hkey⟩ := h
    have hnames : ∀ c, KeyNames key c ↔ RefersById (.arr (.str operator :: operands)) c := by
      refine fun c => ⟨fun hc => ?_, fun hc => ⟨hkey.1, hc⟩⟩
      obtain ⟨hparse, hc⟩ := hc
      cases hkey.1.symm.trans hparse
      exact hc
    simp only [refKey_of_holdsField hkey, hnames]
  · have hnot : ∀ operator operands others, ¬HoldsField key operator operands others := by
      intro operator operands others hkey
      exact h ⟨operator, operands, others, hkey⟩
    have hnames : ∀ c, ¬KeyNames key c := by
      rintro c ⟨hparse, ⟨hfield, -⟩⟩
      exact hnot _ _ _ ⟨hparse, hfield⟩
    rw [newKey_of_not_holdsField hnot, refKey_of_not_holdsField hnot, Except.ok.injEq, eq_comm]
    exact (and_iff_right fun c hc => absurd hc (hnames c)).symm

/-! ## Settings of columns -/

/-- Entries are keyed anew if all of their keys can be renamed. -/
theorem mapM_refKey_eq_ok_iff {members entries : List (String × Json)} :
    (members.mapM fun e => do return (← r.refKey e.1, e.2)) = .ok entries ↔
      (∀ e ∈ members, ∀ c, KeyNames e.1 c → ∃ c', r.mapping.replaceColumn c = .ok c') ∧
        entries = members.map fun e => (r.newKey e.1, e.2) := by
  have hentry : ∀ e e' : String × Json, (do return (← r.refKey e.1, e.2) : Except MigrationError _) = .ok e' ↔
      (∀ c, KeyNames e.1 c → ∃ c', r.mapping.replaceColumn c = .ok c') ∧ (r.newKey e.1, e.2) = e' := by
    intro e e'
    rw [bind_pure_comp, Except.map_eq_ok_iff]
    constructor
    · rintro ⟨key, hkey, rfl⟩
      obtain ⟨hcolumns, rfl⟩ := refKey_eq_ok_iff_newKey.1 hkey
      exact ⟨hcolumns, rfl⟩
    · rintro ⟨hcolumns, rfl⟩
      exact ⟨_, refKey_eq_ok_iff_newKey.2 ⟨hcolumns, rfl⟩, rfl⟩
  rw [Except.mapM_eq_ok_iff]
  simp only [hentry]
  rw [List.forall₂_and_left, ← List.forall₂_map_left_iff, List.forall₂_eq_eq_eq, eq_comm (a := entries)]

theorem columnSettings_eq_ok_iff {members : List (String × Json)} {j' : Json} :
    r.columnSettings (.obj members) = .ok j' ↔
      (∀ e ∈ members, ∀ c, KeyNames e.1 c → ∃ c', r.mapping.replaceColumn c = .ok c') ∧
        j' = .obj (Assoc.ofList (members.map fun e => (r.newKey e.1, e.2))) := by
  rw [columnSettings, Except.bind_eq_ok_iff]
  constructor
  · rintro ⟨entries, hentries, h⟩
    obtain rfl := Except.ok.inj h
    obtain ⟨hcolumns, rfl⟩ := mapM_refKey_eq_ok_iff.1 hentries
    exact ⟨hcolumns, rfl⟩
  · rintro ⟨hcolumns, rfl⟩
    exact ⟨_, mapM_refKey_eq_ok_iff.2 ⟨hcolumns, rfl⟩, rfl⟩

/-- A new key has the settings of the last entry whose key it has become. -/
theorem mem_keyed_iff {members : List (String × Json)} {key : String} {v : Json} :
    (key, v) ∈ Assoc.ofList (members.map fun e => (r.newKey e.1, e.2)) ↔
      ∃ before old after, members = before ++ (old, v) :: after ∧ r.newKey old = key ∧
        ∀ e ∈ after, r.newKey e.1 ≠ key := by
  rw [← Assoc.lookup_eq_some_iff_mem (Assoc.nodup_keys_ofList _), Assoc.lookup_ofList_eq_some_iff]
  constructor
  · rintro ⟨before', after', hsplit, hafter⟩
    obtain ⟨before, rest, rfl, -, hrest⟩ := List.map_eq_append_iff.1 hsplit
    obtain ⟨⟨old, w⟩, after, rfl, hold, rfl⟩ := List.map_eq_cons_iff.1 hrest
    obtain ⟨rfl, rfl⟩ := Prod.mk.inj hold
    refine ⟨before, old, after, rfl, rfl, fun e he hsame => hafter ?_⟩
    rw [List.map_map]
    exact List.mem_map.2 ⟨e, he, hsame⟩
  · rintro ⟨before, old, after, rfl, rfl, hafter⟩
    refine ⟨_, _, List.map_append, fun hmem => ?_⟩
    rw [List.map_map] at hmem
    obtain ⟨e, he, hsame⟩ := List.mem_map.1 hmem
    exact hafter e he hsame

theorem map_fst_keyed (r : Renaming) (members : List (String × Json)) :
    (members.map fun e => (r.newKey e.1, e.2)).map Prod.fst = (members.map Prod.fst).map r.newKey := by
  rw [List.map_map, List.map_map]
  rfl

/-- Settings of columns are keyed anew if and only if every column can be replaced that a key names by id. The
new keys then stand in the order in which they come first, each with the settings, unchanged, of the last
entry whose key it has become. In particular, if no two keys become the same, all entries stay in their places
with their settings. -/
theorem columnSettings_keyed (r : Renaming) (members : List (String × Json)) :
    ((∃ j', r.columnSettings (.obj members) = .ok j') ↔
      ∀ e ∈ members, ∀ c, KeyNames e.1 c → ∃ c', r.mapping.replaceColumn c = .ok c') ∧
    ∀ j', r.columnSettings (.obj members) = .ok j' → ∃ entries, j' = .obj entries ∧
      entries.map Prod.fst = ((members.map Prod.fst).map r.newKey).eraseDups ∧
      (∀ key v, (key, v) ∈ entries ↔ ∃ before old after, members = before ++ (old, v) :: after ∧
        r.newKey old = key ∧ ∀ e ∈ after, r.newKey e.1 ≠ key) ∧
      ((members.map Prod.fst).Nodup → Set.InjOn r.newKey {key | key ∈ members.map Prod.fst} →
        entries = members.map fun e => (r.newKey e.1, e.2)) := by
  refine ⟨by simp [columnSettings_eq_ok_iff], fun j' hj' => ?_⟩
  obtain ⟨-, rfl⟩ := columnSettings_eq_ok_iff.1 hj'
  refine ⟨_, rfl, ?_, fun key v => mem_keyed_iff, fun hnodup hinj => Assoc.ofList_eq_self ?_⟩
  · rw [Assoc.keys_ofList, map_fst_keyed]
  · rw [map_fst_keyed]
    exact hnodup.map_on fun key hkey key' hkey' hsame => hinj hkey hkey' hsame

/-- The settings of a column that has been moved stand where those of its source stood. -/
example : Sample.mapping.toOption.map (fun m => columnSettings ⟨m, .card ⟨7⟩⟩ (.obj [
      ((Json.arr [.str "ref", Sample.fieldRef ⟨100⟩]).compact, .str "source"),
      ("count", .str "other"),
      ((Json.arr [.str "ref", Sample.fieldRef ⟨1100⟩]).compact, .str "destination")])) =
    some (.ok (.obj [((Json.arr [.str "ref", Sample.fieldRef ⟨1100⟩]).compact, .str "destination"),
      ("count", .str "other")])) := by
  decide +kernel

end Renaming

end Rehome
