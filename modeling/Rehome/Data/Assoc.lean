/-! # Association lists

Finite maps as lists of pairs, read with `List.lookup`. `put` keeps the order in which keys were first
given, `putSorted` the order of the keys; `putNew` never replaces a value. -/

namespace Rehome.Assoc

variable {κ ν : Type}

/-- Gives `key` a value: in its place if it is there, else at the end. -/
def put [DecidableEq κ] (key : κ) (value : ν) : List (κ × ν) → List (κ × ν)
  | [] => [(key, value)]
  | (k, v) :: rest => if k = key then (k, value) :: rest else (k, v) :: put key value rest

/-- Gives `key` a value unless it has one. -/
def putNew [DecidableEq κ] (key : κ) (value : ν) (entries : List (κ × ν)) : List (κ × ν) :=
  match entries.lookup key with
  | some _ => entries
  | none => entries ++ [(key, value)]

/-- Puts the pairs one after the other: a key keeps its first place and its last value. -/
def ofList [DecidableEq κ] (pairs : List (κ × ν)) : List (κ × ν) :=
  pairs.foldl (fun entries p => put p.1 p.2 entries) []

/-- Gives `key` a value in a list that is sorted by key. -/
def putSorted [LT κ] [DecidableLT κ] [DecidableEq κ] (key : κ) (value : ν) :
    List (κ × ν) → List (κ × ν)
  | [] => [(key, value)]
  | (k, v) :: rest =>
    if k = key then (k, value) :: rest
    else if key < k then (key, value) :: (k, v) :: rest
    else (k, v) :: putSorted key value rest

/-- The pairs sorted by key, the last value of each key. -/
def sorted [LT κ] [DecidableLT κ] [DecidableEq κ] (pairs : List (κ × ν)) : List (κ × ν) :=
  pairs.foldl (fun entries p => putSorted p.1 p.2 entries) []

theorem lookup_cons [DecidableEq κ] (k k' : κ) (v : ν) (entries : List (κ × ν)) :
    ((k', v) :: entries).lookup k = if k = k' then some v else entries.lookup k := by
  by_cases h : k = k'
  · rw [if_pos h, h, List.lookup_cons_self]
  · rw [if_neg h, List.lookup_cons, beq_eq_false_iff_ne.2 h]

theorem lookup_put [DecidableEq κ] (key k : κ) (value : ν) (entries : List (κ × ν)) :
    (put key value entries).lookup k = if k = key then some value else entries.lookup k := by
  induction entries with
  | nil => simp [put, lookup_cons]
  | cons e rest ih =>
    obtain ⟨k', v'⟩ := e
    by_cases h : k' = key
    · subst h
      by_cases hk : k = k' <;> simp [put, lookup_cons, hk]
    · by_cases hk : k = k'
      · subst hk
        simp [put, h]
      · simp [put, lookup_cons, h, hk, ih]

@[simp] theorem lookup_put_self [DecidableEq κ] (key : κ) (value : ν) (entries : List (κ × ν)) :
    (put key value entries).lookup key = some value := by simp [lookup_put]

theorem lookup_put_of_ne [DecidableEq κ] {key k : κ} (h : k ≠ key) (value : ν)
    (entries : List (κ × ν)) : (put key value entries).lookup k = entries.lookup k := by
  simp [lookup_put, h]

end Rehome.Assoc

namespace Rehome

/-- Adds an element to a list that is sorted without repetition. -/
def insertSorted {α : Type} [LT α] [DecidableLT α] [DecidableEq α] (a : α) : List α → List α
  | [] => [a]
  | b :: rest =>
    if b = a then b :: rest
    else if a < b then a :: b :: rest
    else b :: insertSorted a rest

/-- The elements of the second list added to the first. -/
def unionSorted {α : Type} [LT α] [DecidableLT α] [DecidableEq α] (as bs : List α) : List α :=
  bs.foldl (fun acc b => insertSorted b acc) as

section Sorted

variable {α : Type} [LT α] [DecidableLT α] [DecidableEq α] {a b : α} {as bs : List α}

theorem mem_insertSorted : b ∈ insertSorted a as ↔ b = a ∨ b ∈ as := by
  induction as with
  | nil => simp [insertSorted]
  | cons c as ih =>
    rw [insertSorted]
    split
    · next h => simp [h]
    · split
      · simp
      · simp [ih, or_left_comm]

theorem mem_unionSorted : a ∈ unionSorted as bs ↔ a ∈ as ∨ a ∈ bs := by
  rw [unionSorted]
  induction bs generalizing as with
  | nil => simp
  | cons b bs ih => rw [List.foldl_cons, ih, mem_insertSorted, List.mem_cons, or_comm (a := a = b), or_assoc]

variable [Trans (α := α) (· < ·) (· < ·) (· < ·)] [Std.Trichotomous (α := α) (· < ·)]

theorem pairwise_insertSorted (h : as.Pairwise (· < ·)) (a : α) :
    (insertSorted a as).Pairwise (· < ·) := by
  induction as with
  | nil => exact List.pairwise_singleton _ a
  | cons b as ih =>
    obtain ⟨hb, has⟩ := List.pairwise_cons.1 h
    rw [insertSorted]
    split
    · exact h
    next hne =>
    split
    · next hlt =>
      refine List.pairwise_cons.2 ⟨fun c hc => ?_, h⟩
      rcases List.mem_cons.1 hc with rfl | hc
      · exact hlt
      · exact Trans.trans hlt (hb c hc)
    · next hge =>
      refine List.pairwise_cons.2 ⟨fun c hc => ?_, ih has⟩
      rcases mem_insertSorted.1 hc with rfl | hc
      · exact ((Std.Trichotomous.rel_or_eq_or_rel_swap (r := (· < ·))).resolve_right
          (not_or.2 ⟨hne, hge⟩))
      · exact hb c hc

theorem pairwise_unionSorted (h : as.Pairwise (· < ·)) (bs : List α) :
    (unionSorted as bs).Pairwise (· < ·) := by
  rw [unionSorted]
  induction bs generalizing as with
  | nil => exact h
  | cons b bs ih => exact ih (pairwise_insertSorted h b)

end Sorted

end Rehome
