import Mathlib.Data.List.Induction
import Mathlib.Data.List.Nodup
import Rehome.Data.Assoc

/-! # Association lists

What is in a list after keys have been given values, or elements inserted. -/

namespace Rehome.Assoc

variable {κ ν : Type}

theorem mem_of_lookup [BEq κ] [LawfulBEq κ] {k : κ} {v : ν} {entries : List (κ × ν)}
    (h : entries.lookup k = some v) : (k, v) ∈ entries := by
  obtain ⟨before, after, rfl, -⟩ := List.lookup_eq_some_iff.1 h
  exact List.mem_append_right before List.mem_cons_self

variable [DecidableEq κ]

/-- Looking a key up does not depend on how keys are compared. -/
theorem lookup_eq_lookup {compare : BEq κ} [LawfulBEq κ] (k : κ) (entries : List (κ × ν)) :
    entries.lookup k = @List.lookup κ ν instBEqOfDecidableEq k entries := by
  obtain rfl : compare = instBEqOfDecidableEq := by
    obtain ⟨eq⟩ := compare
    refine congrArg BEq.mk (funext fun a => funext fun b => ?_)
    exact @beq_eq_decide κ ⟨eq⟩ _ _ a b
  rfl

/-- Where keys are distinct, each pair is what its key leads to. -/
theorem lookup_eq_some_iff_mem {entries : List (κ × ν)} (h : (entries.map Prod.fst).Nodup) {k : κ} {v : ν} :
    entries.lookup k = some v ↔ (k, v) ∈ entries := by
  refine ⟨mem_of_lookup, fun hmem => ?_⟩
  induction entries with
  | nil => exact absurd hmem List.not_mem_nil
  | cons e rest ih =>
    obtain ⟨k', v'⟩ := e
    obtain ⟨hhead, hrest⟩ := List.nodup_cons.1 h
    rw [lookup_cons]
    rcases List.mem_cons.1 hmem with hkv | hlater
    · obtain ⟨rfl, rfl⟩ := Prod.mk.inj hkv
      exact if_pos rfl
    · have hne : k ≠ k' := by
        rintro rfl
        exact hhead (List.mem_map.2 ⟨(k, v), hlater, rfl⟩)
      rw [if_neg hne, ih hrest hlater]

/-- A key that no pair has leads nowhere. -/
theorem lookup_eq_none {entries : List (κ × ν)} {k : κ} (h : k ∉ entries.map Prod.fst) :
    entries.lookup k = none := by
  cases hk : entries.lookup k with
  | none => rfl
  | some v => exact absurd (List.mem_map_of_mem (mem_of_lookup hk)) h

/-- A key leads somewhere just if a pair has it. -/
theorem isSome_lookup_iff {entries : List (κ × ν)} {k : κ} :
    (entries.lookup k).isSome ↔ k ∈ entries.map Prod.fst := by
  rw [List.lookup_isSome_iff, List.mem_map]
  simp only [beq_iff_eq, eq_comm (a := k)]

/-- A key that leads nowhere can be given a value without a loss. -/
theorem lookup_put_of_lookup {entries : List (κ × ν)} {key k : κ} {v : ν} (hnew : entries.lookup key = none)
    (h : entries.lookup k = some v) (value : ν) : (put key value entries).lookup k = some v := by
  have hne : k ≠ key := by
    rintro rfl
    rw [hnew] at h
    cases h
  exact (lookup_put_of_ne hne value entries).trans h

theorem lookup_putNew (key k : κ) (value : ν) (entries : List (κ × ν)) :
    (putNew key value entries).lookup k =
      (entries.lookup k).or (if k = key then some value else none) := by
  rw [putNew]
  split
  · next v hv =>
    by_cases hk : k = key
    · rw [hk, hv, Option.some_or]
    · rw [if_neg hk, Option.or_none]
  · rw [List.lookup_append, lookup_cons]
    rfl

/-- Of the pairs that are added without replacing anything, the first one of a new key counts. -/
theorem lookup_foldl_putNew (pairs entries : List (κ × ν)) (k : κ) :
    (pairs.foldl (fun entries p => putNew p.1 p.2 entries) entries).lookup k =
      (entries.lookup k).or (pairs.lookup k) := by
  induction pairs generalizing entries with
  | nil => rw [List.foldl_nil, List.lookup_nil, Option.or_none]
  | cons p pairs ih =>
    rw [List.foldl_cons, ih, lookup_putNew, Option.or_assoc, lookup_cons]
    split <;> rfl

/-- Without the first entry of a key, other keys lead where they did. -/
theorem lookup_eraseP_of_ne {key k : κ} (h : k ≠ key) (entries : List (κ × ν)) :
    (entries.eraseP (·.1 == key)).lookup k = entries.lookup k := by
  induction entries with
  | nil => rfl
  | cons e rest ih =>
    obtain ⟨k', v⟩ := e
    by_cases hk : k' = key
    · rw [List.eraseP_cons_of_pos (by simpa using hk), lookup_cons, if_neg (hk ▸ h)]
    · rw [List.eraseP_cons_of_neg (by simpa using hk), lookup_cons, lookup_cons, ih]

/-! ## Giving a value to one key -/

/-- Giving a key the value that it has changes nothing. -/
theorem put_eq_self {key : κ} {value : ν} {entries : List (κ × ν)}
    (h : entries.lookup key = some value) : put key value entries = entries := by
  induction entries with
  | nil => cases h
  | cons e rest ih =>
    obtain ⟨k, v⟩ := e
    rw [lookup_cons] at h
    by_cases hk : key = k
    · rw [if_pos hk] at h
      rw [put, if_pos hk.symm, Option.some.inj h]
    · rw [if_neg hk] at h
      rw [put, if_neg (Ne.symm hk), ih h]

theorem mem_put {key : κ} {value : ν} {entries : List (κ × ν)} {e : κ × ν}
    (h : e ∈ put key value entries) : e = (key, value) ∨ e ∈ entries := by
  induction entries with
  | nil => exact .inl (List.mem_singleton.1 h)
  | cons e' rest ih =>
    obtain ⟨k, v⟩ := e'
    rw [put] at h
    split at h
    · next hk =>
      rcases List.mem_cons.1 h with rfl | h
      · exact .inl (by rw [hk])
      · exact .inr (List.mem_cons_of_mem _ h)
    · rcases List.mem_cons.1 h with rfl | h
      · exact .inr List.mem_cons_self
      · exact (ih h).imp_right (List.mem_cons_of_mem _)

/-- A new key goes last. -/
theorem put_of_not_mem {key : κ} {value : ν} {entries : List (κ × ν)}
    (h : key ∉ entries.map Prod.fst) : put key value entries = entries ++ [(key, value)] := by
  induction entries with
  | nil => rfl
  | cons e rest ih =>
    obtain ⟨k, v⟩ := e
    obtain ⟨hk, hrest⟩ : key ≠ k ∧ key ∉ rest.map Prod.fst := by simpa using h
    rw [put, if_neg (Ne.symm hk), ih hrest, List.cons_append]

/-- A key that is there keeps its place. -/
theorem keys_put_of_mem {key : κ} {entries : List (κ × ν)} (h : key ∈ entries.map Prod.fst) (value : ν) :
    (put key value entries).map Prod.fst = entries.map Prod.fst := by
  induction entries with
  | nil => cases h
  | cons e rest ih =>
    obtain ⟨k, v⟩ := e
    rw [put]
    split
    · next hk => rfl
    · next hk =>
      rcases List.mem_cons.1 h with rfl | h
      · exact absurd rfl hk
      · rw [List.map_cons, List.map_cons, ih h]

theorem nodup_keys_put {entries : List (κ × ν)} (h : (entries.map Prod.fst).Nodup) (key : κ)
    (value : ν) : ((put key value entries).map Prod.fst).Nodup := by
  by_cases hkey : key ∈ entries.map Prod.fst
  · rwa [keys_put_of_mem hkey]
  · rw [put_of_not_mem hkey, List.map_append]
    exact List.Nodup.append h (List.nodup_singleton key) (by simpa using hkey)

theorem nodup_keys_putNew {entries : List (κ × ν)} (h : (entries.map Prod.fst).Nodup) (key : κ)
    (value : ν) : ((putNew key value entries).map Prod.fst).Nodup := by
  rw [putNew]
  split
  · exact h
  · next hnone =>
    have hnew : key ∉ entries.map Prod.fst := by
      rw [← isSome_lookup_iff, hnone]
      exact Bool.false_ne_true
    rw [← put_of_not_mem hnew]
    exact nodup_keys_put h key value

theorem nodup_keys_foldl_putNew (pairs : List (κ × ν)) {entries : List (κ × ν)}
    (h : (entries.map Prod.fst).Nodup) :
    ((pairs.foldl (fun entries p => putNew p.1 p.2 entries) entries).map Prod.fst).Nodup := by
  induction pairs generalizing entries with
  | nil => exact h
  | cons p pairs ih => exact ih (nodup_keys_putNew h p.1 p.2)

/-- Only the last value that a key is given counts. -/
theorem put_put (key : κ) (v w : ν) (entries : List (κ × ν)) :
    put key w (put key v entries) = put key w entries := by
  induction entries with
  | nil => simp [put]
  | cons e rest ih =>
    obtain ⟨k, u⟩ := e
    by_cases hk : k = key
    · simp [put, hk]
    · simp [put, hk, ih]

/-- A key that comes in no entry before gets its value there. -/
theorem put_append {key : κ} {front : List (κ × ν)}
    (h : key ∉ front.map Prod.fst) (value : ν) (back : List (κ × ν)) :
    put key value (front ++ back) = front ++ put key value back := by
  induction front with
  | nil => rfl
  | cons e front ih =>
    have hne : key ≠ e.1 := List.ne_of_not_mem_cons h
    rw [List.cons_append, put, if_neg hne.symm, ih (List.not_mem_of_not_mem_cons h), List.cons_append]

/-- A key that comes in an entry before gets its value there. -/
theorem put_append_of_mem {key : κ} {front : List (κ × ν)}
    (h : key ∈ front.map Prod.fst) (value : ν) (back : List (κ × ν)) :
    put key value (front ++ back) = put key value front ++ back := by
  induction front with
  | nil => cases h
  | cons e front ih =>
    rw [List.cons_append, put, put]
    split
    · rfl
    · next hk => rw [ih ((List.mem_cons.1 h).resolve_left (Ne.symm hk)), List.cons_append]

/-- Values of two keys, the first of which is there, may be given in any order. -/
theorem put_comm {k key : κ} (hne : k ≠ key) (x v : ν)
    {entries : List (κ × ν)} (hk : k ∈ entries.map Prod.fst) :
    put k x (put key v entries) = put key v (put k x entries) := by
  induction entries with
  | nil => cases hk
  | cons e rest ih =>
    obtain ⟨l, u⟩ := e
    by_cases hl : l = k
    · subst hl
      simp [put, hne]
    · have hrest : k ∈ rest.map Prod.fst := by
        rcases List.mem_cons.1 hk with heq | hrest
        · exact absurd heq.symm hl
        · exact hrest
      by_cases hkey : l = key
      · simp [put, hkey, hne.symm]
      · simp [put, hl, hkey, ih hrest]

/-! ## Lists of pairs -/

theorem mem_foldl_put {pairs entries : List (κ × ν)} {e : κ × ν}
    (h : e ∈ pairs.foldl (fun entries p => put p.1 p.2 entries) entries) :
    e ∈ entries ∨ e ∈ pairs := by
  induction pairs generalizing entries with
  | nil => exact .inl h
  | cons p pairs ih =>
    rcases ih h with h | h
    · rcases mem_put h with rfl | h
      · exact .inr List.mem_cons_self
      · exact .inl h
    · exact .inr (List.mem_cons_of_mem _ h)

theorem mem_of_mem_ofList {pairs : List (κ × ν)} {e : κ × ν} (h : e ∈ ofList pairs) : e ∈ pairs := by
  rcases mem_foldl_put h with h | h
  · cases h
  · exact h

/-- Of the pairs of a key the last counts. -/
theorem lookup_ofList (pairs : List (κ × ν)) (k : κ) :
    (ofList pairs).lookup k = pairs.reverse.lookup k := by
  have hfold : ∀ entries : List (κ × ν),
      (pairs.foldl (fun entries p => put p.1 p.2 entries) entries).lookup k =
        (pairs.reverse.lookup k).or (entries.lookup k) := by
    induction pairs with
    | nil => exact fun _ => rfl
    | cons p pairs ih =>
      intro entries
      rw [List.foldl_cons, ih, lookup_put, List.reverse_cons, List.lookup_append, Option.or_assoc,
        lookup_cons]
      by_cases hk : k = p.1
      · simp [hk]
      · simp [hk]
  rw [ofList, hfold, List.lookup_nil, Option.or_none]

theorem nodup_keys_ofList (pairs : List (κ × ν)) : ((ofList pairs).map Prod.fst).Nodup := by
  have hfold : ∀ entries : List (κ × ν), (entries.map Prod.fst).Nodup →
      ((pairs.foldl (fun entries p => put p.1 p.2 entries) entries).map Prod.fst).Nodup := by
    induction pairs with
    | nil => exact fun entries h => h
    | cons p pairs ih => exact fun entries h => ih _ (nodup_keys_put h p.1 p.2)
  exact hfold [] List.nodup_nil

/-- Keys stand in the order in which they come first. -/
theorem keys_ofList (pairs : List (κ × ν)) :
    (ofList pairs).map Prod.fst = (pairs.map Prod.fst).eraseDups := by
  induction pairs using List.reverseRecOn with
  | nil => rfl
  | append_singleton pairs p ih =>
    have hput : ofList (pairs ++ [p]) = put p.1 p.2 (ofList pairs) := List.foldl_concat ..
    have hkeys : p.1 ∈ (ofList pairs).map Prod.fst ↔ p.1 ∈ pairs.map Prod.fst := by
      rw [ih, List.mem_eraseDups]
    rw [hput, List.map_append, List.eraseDups_append, ← ih]
    by_cases hp : p.1 ∈ pairs.map Prod.fst
    · have hnone : [p.1].removeAll (pairs.map Prod.fst) = [] := by simpa [List.removeAll] using hp
      rw [keys_put_of_mem (hkeys.2 hp), List.map_singleton, hnone, List.eraseDups_nil, List.append_nil]
    · have hself : [p.1].removeAll (pairs.map Prod.fst) = [p.1] := by simpa [List.removeAll] using hp
      rw [put_of_not_mem (mt hkeys.1 hp), List.map_append, List.map_singleton, hself]
      rfl

/-- A key has the value of the last pair with that key. -/
theorem lookup_ofList_eq_some_iff {pairs : List (κ × ν)} {k : κ} {v : ν} : (ofList pairs).lookup k = some v ↔
    ∃ before after, pairs = before ++ (k, v) :: after ∧ k ∉ after.map Prod.fst := by
  rw [lookup_ofList, List.lookup_eq_some_iff]
  constructor
  · rintro ⟨after, before, hpairs, hafter⟩
    refine ⟨before.reverse, after.reverse, ?_, fun hk => ?_⟩
    · rw [← List.reverse_reverse pairs, hpairs]
      simp
    · obtain ⟨p, hp, rfl⟩ := List.mem_map.1 hk
      simpa using hafter p (List.mem_reverse.1 hp)
  · rintro ⟨before, after, rfl, hafter⟩
    refine ⟨after.reverse, before.reverse, by simp, fun p hp => ?_⟩
    rw [bne_iff_ne]
    rintro rfl
    exact hafter (List.mem_map_of_mem (List.mem_reverse.1 hp))

/-- Pairs with distinct keys are kept as they are. -/
theorem ofList_eq_self {pairs : List (κ × ν)} (h : (pairs.map Prod.fst).Nodup) :
    ofList pairs = pairs := by
  have hfold : ∀ entries : List (κ × ν), ((entries ++ pairs).map Prod.fst).Nodup →
      pairs.foldl (fun entries p => put p.1 p.2 entries) entries = entries ++ pairs := by
    clear h
    induction pairs with
    | nil => exact fun entries _ => (List.append_nil entries).symm
    | cons p pairs ih =>
      intro entries h
      have hp : p.1 ∉ entries.map Prod.fst := by
        rw [List.map_append, List.map_cons] at h
        exact fun hmem => List.disjoint_of_nodup_append h hmem List.mem_cons_self
      rw [List.foldl_cons, put_of_not_mem hp, ih _ (by simpa using h), List.append_assoc]
      rfl
  exact hfold [] h

end Rehome.Assoc
