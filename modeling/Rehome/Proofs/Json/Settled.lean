import Rehome.Proofs.Data.Assoc
import Rehome.Proofs.Data.Except
import Rehome.Proofs.Json.Results

/-! # Changes that settle

A change settles if it leaves alone whatever has come out of it. A change of one part of a value settles
when the change of the part does; several changes, one after the other, settle when the later ones keep
the members that the earlier ones have changed. -/

namespace Rehome

attribute [local instance] Set.monad

variable {ε α : Type}

/-- What the change succeeds with, it does not change again. -/
def Settles (f : α → Except ε α) : Prop := ∀ a a', f a = .ok a' → f a' = .ok a'

/-- The change leaves the member under a key alone. -/
def Keeps (key : String) (f : Json → Except ε Json) : Prop :=
  ∀ j j', f j = .ok j' → j'.member? key = j.member? key

theorem settles_pure : Settles (pure : α → Except ε α) := fun _ _ _ => rfl

namespace Json

variable {f : Json → Except ε Json} {j j' : Json}

/-! ## Members -/

theorem setMember_eq_self {key : String} {v : Json} (h : j.member? key = some v) :
    j.setMember key v = j := by
  cases j with
  | obj members => exact congrArg obj (Assoc.put_eq_self h)
  | _ => rfl

/-- The results of changes that may fail, as sets. -/
theorem compatible_except :
    Compatible fun α (x : Except ε α) (s : Set α) => {a | x = .ok a} = s where
  pure a := by
    ext b
    rw [Set.mem_ofPred_eq, Except.pure_eq_ok_iff, eq_comm]
    exact Set.mem_singleton_iff.symm
  bind {α β x s f g} hx hf := by
    subst hx
    ext b
    rw [mem_bind]
    simp only [Set.mem_ofPred_eq, Except.bind_eq_ok_iff, ← hf]

theorem mem_onMember_of_eq_ok {key : String} (h : j.onMember key f = .ok j') :
    j' ∈ j.onMember key fun v => {v' | f v = .ok v'} := by
  rwa [← compatible_except.onMember key (fun _ => rfl) j]

theorem onMember_eq_ok_self_iff {key : String} :
    j.onMember key f = .ok j ↔ ∀ v, j.member? key = some v → f v = .ok v := by
  cases j with
  | obj members =>
    rw [onMember]
    cases hv : members.lookup key with
    | none => simp [member?, hv, Except.pure_eq_ok_iff]
    | some v =>
      simp only [member?, hv, Option.some.injEq, forall_eq', Except.bind_eq_ok_iff]
      constructor
      · rintro ⟨v', hv', h⟩
        have hput : Assoc.put key v' members = members := obj.inj (Except.ok.inj h)
        have hlookup := Assoc.lookup_put_self key v' members
        rw [hput, hv] at hlookup
        obtain rfl := Option.some.inj hlookup
        exact hv'
      · intro h
        exact ⟨v, h, congrArg _ (congrArg obj (Assoc.put_eq_self hv))⟩
  | _ => simp [onMember, member?, Except.pure_eq_ok_iff]

theorem keeps_onMember {key k : String} (hk : k ≠ key) : Keeps k (Json.onMember key f) :=
  fun _ _ h => member?_of_mem_onMember hk (mem_onMember_of_eq_ok h)

theorem settles_onMember (key : String) (hf : Settles f) : Settles (Json.onMember key f) := by
  intro j j' h
  refine onMember_eq_ok_self_iff.2 fun v' hv' => ?_
  obtain ⟨v, -, hv⟩ := mem_of_mem_onMember (mem_onMember_of_eq_ok h) hv'
  exact hf v v' hv

theorem onMembers_eq_ok_iff {f : String → Json → Except ε Json} {members : List (String × Json)} :
    (obj members).onMembers f = .ok j' ↔ ∃ members', j' = obj members' ∧
      List.Forall₂ (fun p p' => p'.1 = p.1 ∧ f p.1 p.2 = .ok p'.2) members members' := by
  rw [onMembers, Except.bind_eq_ok_iff]
  refine exists_congr fun members' => ?_
  rw [Except.mapM_eq_ok_iff, Except.pure_eq_ok_iff, and_comm, eq_comm]
  refine and_congr_right fun _ => ?_
  have hentry : ∀ p p' : String × Json, (do return (p.1, ← f p.1 p.2) : Except ε _) = .ok p' ↔
      p'.1 = p.1 ∧ f p.1 p.2 = .ok p'.2 := by
    rintro p ⟨k, v⟩
    rw [Except.bind_eq_ok_iff]
    simp only [Except.pure_eq_ok_iff, Prod.mk.injEq]
    constructor
    · rintro ⟨v', hv, hk, rfl⟩
      exact ⟨hk.symm, hv⟩
    · rintro ⟨hk, hv⟩
      exact ⟨v, hv, hk.symm, rfl⟩
  simp only [hentry]

theorem onMembers_eq_ok_self_iff {f : String → Json → Except ε Json} {members : List (String × Json)} :
    (obj members).onMembers f = .ok (obj members) ↔ ∀ p ∈ members, f p.1 p.2 = .ok p.2 := by
  rw [onMembers_eq_ok_iff]
  constructor
  · rintro ⟨members', h, hforall⟩
    obtain rfl := obj.inj h
    exact fun p hp => (List.forall₂_same.1 hforall p hp).2
  · intro h
    exact ⟨members, rfl, List.forall₂_same.2 fun p hp => ⟨rfl, h p hp⟩⟩

theorem keeps_onMembers {f : String → Json → Except ε Json} {key : String}
    (hf : ∀ v v', f key v = .ok v' → v' = v) : Keeps key (Json.onMembers f) := by
  intro j j' h
  have hsuccesses := compatible_except.onMembers (g := fun key v => {v' | f key v = .ok v'})
    (fun _ _ => rfl) j
  exact member?_of_mem_onMembers hf (hsuccesses.subset h)

theorem exists_of_onMembers {f : String → Json → Except ε Json} {members' : List (String × Json)}
    {e' : String × Json} (h : j.onMembers f = .ok (obj members')) (he' : e' ∈ members') :
    ∃ members e, j = obj members ∧ e ∈ members ∧ e'.1 = e.1 ∧ f e.1 e.2 = .ok e'.2 := by
  have hmem : obj members' ∈ j.onMembers fun key v => {v' | f key v = .ok v'} := by
    rwa [← compatible_except.onMembers (fun _ _ => rfl) j]
  exact exists_of_mem_onMembers hmem he'

theorem isObj_of_onMembers {f : String → Json → Except ε Json} (h : j.onMembers f = .ok j') :
    j'.isObj = j.isObj := by
  cases j with
  | obj members =>
    obtain ⟨members', rfl, -⟩ := onMembers_eq_ok_iff.1 h
    rfl
  | _ => rw [← Except.ok.inj h]

theorem settles_onMembers {f : String → Json → Except ε Json} (hf : ∀ key, Settles (f key)) :
    Settles (Json.onMembers f) := by
  intro j j' h
  cases j with
  | obj members =>
    obtain ⟨members', rfl, hforall⟩ := onMembers_eq_ok_iff.1 h
    refine onMembers_eq_ok_self_iff.2 fun p' hp' => ?_
    obtain ⟨p, -, hkey, hp⟩ := exists_of_forall₂ hforall hp'
    rw [hkey]
    exact hf p.1 p.2 p'.2 hp
  | _ =>
    obtain rfl := Except.ok.inj h
    exact h

/-! ## Items -/

theorem onItems_eq_ok_self_iff {items : List Json} :
    (arr items).onItems f = .ok (arr items) ↔ ∀ i ∈ items, f i = .ok i := by
  rw [onItems, Except.bind_eq_ok_iff]
  constructor
  · rintro ⟨items', h, heq⟩
    obtain rfl := arr.inj (Except.ok.inj heq)
    exact List.forall₂_same.1 (Except.mapM_eq_ok_iff.1 h)
  · intro h
    exact ⟨items, Except.mapM_eq_ok_iff.2 (List.forall₂_same.2 h), rfl⟩

theorem exists_of_onItems {items' : List Json} {i' : Json} (h : j.onItems f = .ok (arr items'))
    (hi : i' ∈ items') : ∃ items i, j = arr items ∧ i ∈ items ∧ f i = .ok i' := by
  have hmem : arr items' ∈ j.onItems fun i => {i' | f i = .ok i'} := by
    rwa [← compatible_except.onItems (fun _ => rfl) j]
  exact mem_of_mem_onItems hmem hi

theorem isArr_of_onItems (h : j.onItems f = .ok j') : j'.isArr = j.isArr := by
  cases j with
  | arr items =>
    obtain ⟨items', -, h⟩ := Except.bind_eq_ok_iff.1 h
    rw [← Except.ok.inj h]
    rfl
  | _ => rw [← Except.ok.inj h]

theorem settles_onItems (hf : Settles f) : Settles (Json.onItems f) := by
  intro j j' h
  cases j with
  | arr items =>
    obtain ⟨items', -, heq⟩ := Except.bind_eq_ok_iff.1 h
    obtain rfl := Except.ok.inj heq
    refine onItems_eq_ok_self_iff.2 fun i' hi' => ?_
    obtain ⟨-, i, -, -, hi⟩ := exists_of_onItems h hi'
    exact hf i i' hi
  | _ =>
    obtain rfl := Except.ok.inj h
    exact h

theorem setItem_eq_self {i : Nat} {v : Json} (h : j.item? i = some v) : j.setItem i v = j := by
  cases j with
  | arr items =>
    obtain ⟨hi, hv⟩ := List.getElem?_eq_some_iff.1 h
    rw [setItem, ← hv, List.set_getElem_self]
  | _ => rfl

theorem item?_setItem_of_ne {i k : Nat} (h : k ≠ i) (v : Json) : (j.setItem i v).item? k = j.item? k := by
  cases j with
  | arr items => exact List.getElem?_set_ne (Ne.symm h)
  | _ => rfl

theorem setItem_setItem (i : Nat) (v w : Json) : (j.setItem i v).setItem i w = j.setItem i w := by
  cases j with
  | arr items => simp [setItem]
  | _ => rfl

/-- Either the item is there and is changed, or nothing is. -/
theorem onItem_eq_ok_iff {i : Nat} : j.onItem i f = .ok j' ↔
    (∃ v v', j.item? i = some v ∧ f v = .ok v' ∧ j' = j.setItem i v') ∨ j.item? i = none ∧ j' = j := by
  cases j with
  | arr items =>
    rw [onItem]
    cases hv : items[i]? with
    | none => simp [item?, hv, Except.pure_eq_ok_iff, eq_comm (a := j')]
    | some v =>
      rw [Except.bind_eq_ok_iff]
      simp [item?, hv, Except.pure_eq_ok_iff, setItem, eq_comm (a := j')]
  | _ => simp [onItem, item?, Except.pure_eq_ok_iff, eq_comm (a := j')]

theorem settles_onItem (i : Nat) (hf : Settles f) : Settles (Json.onItem i f) := by
  intro j j' h
  obtain ⟨v, v', hv, hv', rfl⟩ | ⟨hnone, rfl⟩ := onItem_eq_ok_iff.1 h
  · exact onItem_eq_ok_iff.2 (.inl ⟨v', v', item?_setItem hv, hf v v' hv', (setItem_setItem i v' v').symm⟩)
  · exact h

/-! ## Values of one kind -/

theorem unlessNull_eq_ok_self (h : f j = .ok j) : j.unlessNull f = .ok j := by
  cases j with
  | null => rfl
  | _ => exact h

theorem settles_unlessNull (hf : Settles f) : Settles (Json.unlessNull f) := by
  intro j j' h
  cases j with
  | null =>
    obtain rfl := Except.ok.inj h
    rfl
  | _ => exact unlessNull_eq_ok_self (hf _ j' h)

theorem onObj_eq_ok_self (h : j.isObj → f j = .ok j) : j.onObj f = .ok j := by
  cases j with
  | obj members => exact h rfl
  | _ => rfl

theorem onArr_eq_ok_self (h : j.isArr → f j = .ok j) : j.onArr f = .ok j := by
  cases j with
  | arr items => exact h rfl
  | _ => rfl

/-- Objects that have come out of a change of the objects in a list. -/
theorem onItems_onObj_eq_ok_self {g : Json → Set Json} (h : j' ∈ j.onItems (Json.onObj g))
    (hf : ∀ items i i', j = arr items → i ∈ items → i'.isObj → i' ∈ g i → f i' = .ok i') :
    j'.onItems (Json.onObj f) = .ok j' := by
  cases j' with
  | arr items' =>
    refine onItems_eq_ok_self_iff.2 fun i' hi' => onObj_eq_ok_self fun hobj => ?_
    obtain ⟨items, i, hitems, hi, hmem⟩ := mem_of_mem_onItems h hi'
    exact hf items i i' hitems hi hobj (mem_of_mem_onObj hmem hobj)
  | _ => rfl

/-! ## Changes that do nothing -/

section Nothing

variable {m : Type → Type} [Monad m] [LawfulMonad m]

theorem onMember_pure (key : String) (j : Json) : j.onMember key (pure : Json → m Json) = pure j := by
  cases j with
  | obj members =>
    rw [onMember]
    split
    · next v hv => rw [pure_bind, Assoc.put_eq_self hv]
    · rfl
  | _ => rfl

theorem mapM_pure_eq {β : Type} (bs : List β) : bs.mapM (pure : β → m β) = pure bs := by
  have hmap := List.mapM_pure (m := m) (l := bs) (f := id)
  rwa [List.map_id] at hmap

theorem onMembers_pure (j : Json) : j.onMembers (fun _ => (pure : Json → m Json)) = pure j := by
  cases j with
  | obj members =>
    rw [onMembers]
    simp only [pure_bind, Prod.mk.eta]
    rw [mapM_pure_eq, pure_bind]
  | _ => rfl

theorem onItems_pure (j : Json) : j.onItems (pure : Json → m Json) = pure j := by
  cases j with
  | arr items => rw [onItems, mapM_pure_eq, pure_bind]
  | _ => rfl

theorem onStr_pure (j : Json) : j.onStr (pure : String → m String) = pure j := by
  cases j with
  | str s => rw [onStr, pure_bind]
  | _ => rfl

end Nothing

/-! ## One after the other -/

/-- A change of one member, and then a change that leaves the member alone. -/
theorem settles_onMember_bind {key : String} {g : Json → Except ε Json} (hf : Settles f)
    (hg : Settles g) (hkeeps : Keeps key g) : Settles fun j => j.onMember key f >>= g := by
  intro j j' h
  obtain ⟨a, ha, h⟩ := Except.bind_eq_ok_iff.1 h
  have hfixed := onMember_eq_ok_self_iff.1 (settles_onMember key hf j a ha)
  refine Except.bind_eq_ok_iff.2 ⟨j', onMember_eq_ok_self_iff.2 fun v hv => ?_, hg a j' h⟩
  exact hfixed v (hkeeps a j' h ▸ hv)

theorem keeps_onMember_bind {key k : String} {g : Json → Except ε Json} (hk : k ≠ key)
    (hg : Keeps k g) : Keeps k fun j => j.onMember key f >>= g := by
  intro j j' h
  obtain ⟨a, ha, h⟩ := Except.bind_eq_ok_iff.1 h
  rw [hg a j' h, keeps_onMember hk j a ha]

end Json

end Rehome
