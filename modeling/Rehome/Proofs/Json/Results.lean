import Mathlib.Data.List.Forall2
import Mathlib.Data.Set.Functor
import Rehome.Proofs.Place.Compatible

/-! # What a change of a value may come to

A computation whose effects are of no interest is replaced by the set of its possible results, and walks
and the functions they are made of are carried out on sets. Here is what the result of changing one part
of a value says about that part, and about the parts that are left alone. -/

namespace Rehome

attribute [local instance] Set.monad

namespace Json

variable {f : Json → Set Json} {j j' : Json}

theorem mem_bind {α β : Type} {s : Set α} {f : α → Set β} {b : β} :
    b ∈ s >>= f ↔ ∃ a ∈ s, b ∈ f a := by simp

/-! ## Members -/

theorem isObj_of_member? {key : String} {v : Json} (h : j.member? key = some v) : j.isObj := by
  cases j with
  | obj members => rfl
  | _ => simp [member?] at h

theorem member?_obj_put (key k : String) (v : Json) (members : List (String × Json)) :
    (obj (Assoc.put key v members)).member? k = if k = key then some v else (obj members).member? k :=
  Assoc.lookup_put key k v members

/-- Either the member is there and is changed, or nothing is. -/
theorem mem_onMember {key : String} (h : j' ∈ j.onMember key f) :
    (∃ v v', j.member? key = some v ∧ v' ∈ f v ∧ j' = j.setMember key v') ∨
      j.member? key = none ∧ j' = j := by
  cases j with
  | obj members =>
    rw [onMember] at h
    split at h
    · next v hv =>
      obtain ⟨v', hv', rfl⟩ : ∃ v' ∈ f v, j' = obj (Assoc.put key v' members) := by simpa using h
      exact .inl ⟨v, v', hv, hv', rfl⟩
    · next hv => exact .inr ⟨hv, by simpa using h⟩
  | _ => exact .inr ⟨rfl, by simpa [onMember] using h⟩

theorem member?_setMember {key k : String} {v w : Json} (h : j.member? key = some w) :
    (j.setMember key v).member? k = if k = key then some v else j.member? k := by
  cases j with
  | obj members => exact member?_obj_put key k v members
  | _ => simp [member?] at h

theorem member?_setMember_self {key : String} {v : Json} (h : j.isObj) :
    (j.setMember key v).member? key = some v := by
  cases j with
  | obj members => exact Assoc.lookup_put_self key v members
  | _ => cases h

theorem isObj_setMember {key : String} {v : Json} : (j.setMember key v).isObj = j.isObj := by
  cases j <;> rfl

theorem member?_setMember_of_ne {key k : String} (hk : k ≠ key) (j v : Json) :
    (j.setMember key v).member? k = j.member? k := by
  cases j with
  | obj members => exact Assoc.lookup_put_of_ne hk v members
  | _ => rfl

theorem member?_of_mem_onMember {key k : String} (hk : k ≠ key) (h : j' ∈ j.onMember key f) :
    j'.member? k = j.member? k := by
  obtain ⟨v, v', hv, -, rfl⟩ | ⟨-, rfl⟩ := mem_onMember h
  · exact member?_setMember_of_ne hk j v'
  · rfl

theorem mem_of_mem_onMember {key : String} {v' : Json} (h : j' ∈ j.onMember key f)
    (hv' : j'.member? key = some v') : ∃ v, j.member? key = some v ∧ v' ∈ f v := by
  obtain ⟨v, w, hv, hw, rfl⟩ | ⟨hnone, rfl⟩ := mem_onMember h
  · rw [member?_setMember hv, if_pos rfl, Option.some_inj] at hv'
    exact ⟨v, hv, hv' ▸ hw⟩
  · simp [hnone] at hv'

theorem exists_of_forall₂ {α β : Type} {R : α → β → Prop} {as : List α} {bs : List β}
    (h : List.Forall₂ R as bs) {b : β} (hb : b ∈ bs) : ∃ a ∈ as, R a b := by
  induction h with
  | nil => simp at hb
  | @cons a b' as bs hab _ ih =>
    rcases List.mem_cons.1 hb with rfl | hb
    · exact ⟨a, List.mem_cons_self, hab⟩
    · obtain ⟨a, ha, hab⟩ := ih hb
      exact ⟨a, List.mem_cons_of_mem _ ha, hab⟩

theorem mem_mapM {α β : Type} {f : α → Set β} {as : List α} {bs : List β} :
    bs ∈ as.mapM f ↔ List.Forall₂ (fun a b => b ∈ f a) as bs := by
  induction as generalizing bs with
  | nil => simp
  | cons a as ih => simp [List.mapM_cons, List.forall₂_cons_left_iff, ih]

/-- Every member is changed in its place. -/
theorem mem_onMembers {f : String → Json → Set Json} {members : List (String × Json)}
    (h : j' ∈ (obj members).onMembers f) :
    ∃ members', j' = obj members' ∧
      List.Forall₂ (fun p p' => p'.1 = p.1 ∧ p'.2 ∈ f p.1 p.2) members members' := by
  obtain ⟨members', hmem, rfl⟩ : ∃ members' ∈ members.mapM _, j' = obj members' := by
    simpa [onMembers] using h
  refine ⟨members', rfl, (mem_mapM.1 hmem).imp fun p p' hp => ?_⟩
  obtain ⟨v, hv, rfl⟩ : ∃ v ∈ f p.1 p.2, p' = (p.1, v) := by simpa using hp
  exact ⟨rfl, hv⟩

theorem lookup_forall₂ {f : String → Json → Set Json} {members members' : List (String × Json)}
    (h : List.Forall₂ (fun p p' => p'.1 = p.1 ∧ p'.2 ∈ f p.1 p.2) members members') (k : String) :
    (members.lookup k = none ∧ members'.lookup k = none) ∨
      ∃ v v', members.lookup k = some v ∧ members'.lookup k = some v' ∧ v' ∈ f k v := by
  induction h with
  | nil => exact .inl ⟨rfl, rfl⟩
  | @cons p p' rest rest' hp _ ih =>
    obtain ⟨key, v⟩ := p
    obtain ⟨key', v'⟩ := p'
    obtain ⟨rfl, hv⟩ := hp
    rw [Assoc.lookup_cons, Assoc.lookup_cons]
    by_cases hk : k = key'
    · subst hk
      exact .inr ⟨v, v', by simp, by simp, hv⟩
    · simpa [hk] using ih

theorem mem_of_mem_onMembers {f : String → Json → Set Json} {k : String} {v' : Json}
    (h : j' ∈ j.onMembers f) (hv' : j'.member? k = some v') :
    ∃ v, j.member? k = some v ∧ v' ∈ f k v := by
  cases j with
  | obj members =>
    obtain ⟨members', rfl, hforall⟩ := mem_onMembers h
    obtain ⟨-, hnone⟩ | ⟨v, w, hv, hw, hmem⟩ := lookup_forall₂ hforall k
    · simp [member?, hnone] at hv'
    · obtain rfl : w = v' := by simpa [member?, hw] using hv'
      exact ⟨v, hv, hmem⟩
  | _ =>
    obtain rfl : j' = _ := by simpa [onMembers] using h
    simp [member?] at hv'

/-- A member whose value is left alone. -/
theorem member?_of_mem_onMembers {f : String → Json → Set Json} {k : String}
    (hf : ∀ v v', v' ∈ f k v → v' = v) (h : j' ∈ j.onMembers f) : j'.member? k = j.member? k := by
  cases j with
  | obj members =>
    obtain ⟨members', rfl, hforall⟩ := mem_onMembers h
    obtain ⟨hnone, hnone'⟩ | ⟨v, w, hv, hw, hmem⟩ := lookup_forall₂ hforall k
    · exact hnone'.trans hnone.symm
    · exact (hf v w hmem ▸ hw : members'.lookup k = some v).trans hv.symm
  | _ =>
    obtain rfl : j' = _ := by simpa [onMembers] using h
    rfl

theorem exists_of_mem_onMembers {f : String → Json → Set Json} {members' : List (String × Json)}
    (h : obj members' ∈ j.onMembers f) {e' : String × Json} (he' : e' ∈ members') :
    ∃ members e, j = obj members ∧ e ∈ members ∧ e'.1 = e.1 ∧ e'.2 ∈ f e.1 e.2 := by
  cases j with
  | obj members =>
    obtain ⟨news, heq, hforall⟩ := mem_onMembers h
    obtain rfl := obj.inj heq
    obtain ⟨e, he, hkey, hvalue⟩ := exists_of_forall₂ hforall he'
    exact ⟨members, e, rfl, he, hkey, hvalue⟩
  | _ => simp [onMembers] at h

/-! ## Items -/

theorem item?_setItem {j v w : Json} {i : Nat} (h : j.item? i = some w) :
    (j.setItem i v).item? i = some v := by
  cases j with
  | arr items =>
    obtain ⟨hi, -⟩ := List.getElem?_eq_some_iff.1 h
    exact List.getElem?_set_self hi
  | _ => cases h

theorem mem_of_mem_onItems {items' : List Json} (h : arr items' ∈ j.onItems f) {i' : Json}
    (hi' : i' ∈ items') : ∃ items i, j = arr items ∧ i ∈ items ∧ i' ∈ f i := by
  cases j with
  | arr items =>
    obtain ⟨bs, hmem, heq⟩ : ∃ bs ∈ items.mapM f, items' = bs := by simpa [onItems] using h
    subst heq
    obtain ⟨i, hi, hif⟩ := exists_of_forall₂ (mem_mapM.1 hmem) hi'
    exact ⟨items, i, rfl, hi, hif⟩
  | _ => simp [onItems] at h

/-! ## Values of one kind -/

theorem mem_onObj (h : j' ∈ j.onObj f) : j.isObj ∧ j' ∈ f j ∨ ¬j.isObj ∧ j' = j := by
  cases j with
  | obj members => exact .inl ⟨rfl, h⟩
  | _ => exact .inr ⟨by simp [isObj], by simpa [onObj] using h⟩

theorem mem_of_mem_onObj (h : j' ∈ j.onObj f) (hobj : j'.isObj) : j' ∈ f j := by
  obtain ⟨-, h⟩ | ⟨hnot, rfl⟩ := mem_onObj h
  · exact h
  · exact absurd hobj hnot

theorem mem_of_mem_onArr (h : j' ∈ j.onArr f) (harr : j'.isArr) : j' ∈ f j := by
  cases j with
  | arr items => exact h
  | _ =>
    obtain rfl : j' = _ := by simpa [onArr] using h
    simp [isArr] at harr

theorem mem_unlessNull (h : j' ∈ j.unlessNull f) : j' ∈ f j ∨ j = .null ∧ j' = .null := by
  cases j with
  | null => exact .inr ⟨rfl, by simpa [unlessNull] using h⟩
  | _ => exact .inl h

end Json

end Rehome
