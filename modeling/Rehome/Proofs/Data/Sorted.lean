import Mathlib.Order.Lattice
import Rehome.Proofs.Data.Assoc

/-! # Association lists sorted by key

No key comes twice in a list that is sorted, and a search in it finds the least key. Giving a key a value keeps a
list sorted. -/

namespace Rehome.Assoc

variable {κ ν : Type} [LinearOrder κ] {entries : List (κ × ν)}

/-- Keys stand in increasing order. -/
def Sorted (entries : List (κ × ν)) : Prop := entries.Pairwise fun e e' => e.1 < e'.1

theorem Sorted.nodup_keys (h : Sorted entries) : (entries.map Prod.fst).Nodup :=
  List.pairwise_map.2 (h.imp ne_of_lt)

/-! ## Giving a value to one key -/

theorem mem_putSorted {key : κ} {value : ν} {e : κ × ν} (h : e ∈ putSorted key value entries) :
    e = (key, value) ∨ e ∈ entries := by
  induction entries with
  | nil => exact .inl (List.mem_singleton.1 h)
  | cons e' rest ih =>
    obtain ⟨k, v⟩ := e'
    rw [putSorted] at h
    split at h
    · next hk =>
      rcases List.mem_cons.1 h with rfl | h
      · exact .inl (by rw [hk])
      · exact .inr (List.mem_cons_of_mem _ h)
    split at h
    · exact List.mem_cons.1 h
    · rcases List.mem_cons.1 h with rfl | h
      · exact .inr List.mem_cons_self
      · exact (ih h).imp_right (List.mem_cons_of_mem _)

theorem lookup_putSorted (key k : κ) (value : ν) (entries : List (κ × ν)) :
    (putSorted key value entries).lookup k = if k = key then some value else entries.lookup k := by
  induction entries with
  | nil => rw [putSorted, lookup_cons]
  | cons e rest ih =>
    obtain ⟨k', v'⟩ := e
    rw [putSorted]
    split
    · next hk' =>
      subst hk'
      simp only [lookup_cons]
      split <;> rfl
    split
    · rw [lookup_cons]
    · next hne _ =>
      rw [lookup_cons, lookup_cons, ih]
      by_cases hk : k = k'
      · rw [if_pos hk, if_pos hk, if_neg (hk ▸ hne)]
      · rw [if_neg hk, if_neg hk]

theorem Sorted.putSorted (h : Sorted entries) (key : κ) (value : ν) : Sorted (putSorted key value entries) := by
  induction entries with
  | nil => exact List.pairwise_singleton _ _
  | cons e rest ih =>
    obtain ⟨k, v⟩ := e
    obtain ⟨hhead, hrest⟩ := List.pairwise_cons.1 h
    rw [Assoc.putSorted]
    split
    · exact List.pairwise_cons.2 ⟨hhead, hrest⟩
    next hne =>
    split
    · next hlt =>
      refine List.pairwise_cons.2 ⟨fun e he => ?_, h⟩
      rcases List.mem_cons.1 he with rfl | he
      · exact hlt
      · exact lt_trans hlt (hhead e he)
    · next hge =>
      refine List.pairwise_cons.2 ⟨fun e he => ?_, ih hrest⟩
      rcases mem_putSorted he with rfl | he
      · exact lt_of_le_of_ne (not_lt.1 hge) hne
      · exact hhead e he

theorem sorted_sorted (pairs : List (κ × ν)) : Sorted (sorted pairs) := by
  have hfold : ∀ entries : List (κ × ν), Sorted entries →
      Sorted (pairs.foldl (fun entries p => Assoc.putSorted p.1 p.2 entries) entries) := by
    induction pairs with
    | nil => exact fun entries h => h
    | cons p pairs ih => exact fun entries h => ih _ (h.putSorted p.1 p.2)
  exact hfold [] List.Pairwise.nil

theorem mem_foldl_putSorted {pairs : List (κ × ν)} {e : κ × ν}
    (h : e ∈ pairs.foldl (fun entries p => putSorted p.1 p.2 entries) entries) : e ∈ entries ∨ e ∈ pairs := by
  induction pairs generalizing entries with
  | nil => exact .inl h
  | cons p pairs ih =>
    rcases ih h with h | h
    · rcases mem_putSorted h with rfl | h
      · exact .inr List.mem_cons_self
      · exact .inl h
    · exact .inr (List.mem_cons_of_mem _ h)

theorem mem_of_mem_sorted {pairs : List (κ × ν)} {e : κ × ν} (h : e ∈ sorted pairs) : e ∈ pairs :=
  (mem_foldl_putSorted h).resolve_left List.not_mem_nil

/-! ## Searching -/

/-- A search finds the entry with the least of the keys that satisfy what is searched for. -/
theorem Sorted.find?_eq_some_iff (h : Sorted entries) {p : κ × ν → Bool} {e : κ × ν} :
    entries.find? p = some e ↔ e ∈ entries ∧ p e ∧ ∀ e' ∈ entries, p e' → e.1 ≤ e'.1 := by
  have hfound : ∀ e, entries.find? p = some e → e ∈ entries ∧ p e ∧ ∀ e' ∈ entries, p e' → e.1 ≤ e'.1 := by
    intro e he
    obtain ⟨hp, before, after, hentries, hbefore⟩ := List.find?_eq_some_iff_append.1 he
    refine ⟨List.mem_of_find?_eq_some he, hp, fun e' he' hp' => ?_⟩
    rw [Sorted, hentries, List.pairwise_append] at h
    rw [hentries] at he'
    rcases List.mem_append.1 he' with he' | he'
    · exact absurd hp' (by simpa using hbefore e' he')
    · rcases List.mem_cons.1 he' with rfl | he'
      · exact le_refl _
      · exact le_of_lt ((List.pairwise_cons.1 h.2.1).1 e' he')
  refine ⟨hfound e, fun ⟨hmem, hp, hleast⟩ => ?_⟩
  obtain ⟨e', he'⟩ := Option.isSome_iff_exists.1 (List.find?_isSome.2 ⟨e, hmem, hp⟩)
  obtain ⟨hmem', hp', hleast'⟩ := hfound e' he'
  have hkey : e'.1 = e.1 := le_antisymm (hleast' e hmem hp) (hleast e' hmem' hp')
  rw [he', List.inj_on_of_nodup_map h.nodup_keys hmem' hmem hkey]

end Rehome.Assoc
