import Rehome.Proofs.Json.Position
import Rehome.Proofs.Json.RoundTrip

/-! # Actions at a position

A member that is set leaves all others as they are. A value can be acted on at one position only. Actions at the same position, one after the other, are one
action, so a sequence of actions inside one part of a value is the action on that part of the sequence
(`foldlM_onStep`). Where there is nothing at the position, nothing is done. -/

namespace Rehome.Json

/-! ## Setting members -/

theorem setMember_setMember (key : String) (v w : Json) (j : Json) :
    (j.setMember key v).setMember key w = j.setMember key w := by
  cases j with
  | obj members => exact congrArg obj (Assoc.put_put key v w members)
  | _ => rfl

theorem member?_of_not_isObj {j : Json} (h : ¬j.isObj) (key : String) : j.member? key = none := by
  cases j with
  | obj members => exact absurd rfl h
  | _ => rfl

theorem setMember_of_not_isObj {j : Json} (h : ¬j.isObj) (key : String) (v : Json) : j.setMember key v = j := by
  cases j with
  | obj members => exact absurd rfl h
  | _ => rfl

/-- A member that is there may be set before another one or after it. -/
theorem setMember_comm {j u : Json} {k key : String} (hk : j.member? k = some u) (hne : k ≠ key) (v w : Json) :
    (j.setMember key v).setMember k w = (j.setMember k w).setMember key v := by
  cases j with
  | obj members =>
    have hmem : k ∈ members.map Prod.fst := List.mem_map_of_mem (Assoc.mem_of_lookup hk)
    exact congrArg obj (Assoc.put_comm hne w v hmem)
  | _ => rfl

/-! ## Acting on what a step leads to -/

section Effects

variable {m : Type → Type} [Monad m]

/-- Acts on what a step leads to. -/
def onStep : Step → (Json → m Json) → Json → m Json
  | .member key, act => onMember key act
  | .item n, act => onItem n act

/-- Acts on what is at a position. -/
def onPosition : Position → (Json → m Json) → Json → m Json
  | [], act => act
  | step :: rest, act => onStep step (onPosition rest act)

theorem onMember_of_none {key : String} {j : Json} (h : j.member? key = none) (act : Json → m Json) :
    j.onMember key act = pure j := by
  cases j with
  | obj members => rw [onMember, show members.lookup key = none from h]
  | _ => rfl

theorem onMember_of_some {key : String} {j v : Json} (h : j.member? key = some v) (act : Json → m Json) :
    j.onMember key act = act v >>= fun w => pure (j.setMember key w) := by
  cases j with
  | obj members =>
    rw [onMember, show members.lookup key = some v from h]
    rfl
  | _ => cases h

end Effects

/-! ## Parts of a value -/

section Parts

variable {j v : Json}

/-- What a step leads to is smaller. -/
theorem sizeOf_lt_of_step? {step : Step} (h : j.step? step = some v) : sizeOf v < sizeOf j := by
  cases step with
  | member key =>
    cases j with
    | obj members =>
      have hmem := List.sizeOf_lt_of_mem (Assoc.mem_of_lookup h)
      rw [Prod.mk.sizeOf_spec] at hmem
      rw [obj.sizeOf_spec]
      omega
    | _ => cases h
  | item n =>
    cases j with
    | arr items =>
      have hmem := List.sizeOf_lt_of_mem (List.mem_of_getElem? h)
      rw [arr.sizeOf_spec]
      omega
    | _ => cases h

@[simp] theorem at?_singleton (step : Step) (j : Json) : j.at? [step] = j.step? step := by
  rw [at?_cons]
  cases j.step? step <;> rfl

theorem at?_append (p q : Position) (j : Json) : j.at? (p ++ q) = (j.at? p).bind (at? q) := by
  induction p generalizing j with
  | nil => rfl
  | cons step p ih =>
    rw [List.cons_append, at?_cons, at?_cons, Option.bind_assoc]
    exact congrArg _ (funext ih)

theorem sizeOf_le_of_at? {p : Position} (h : j.at? p = some v) : sizeOf v ≤ sizeOf j := by
  induction p generalizing j with
  | nil => exact (Option.some.inj h) ▸ Nat.le_refl _
  | cons step p ih =>
    obtain ⟨w, hw, hv⟩ := Option.bind_eq_some_iff.1 h
    exact Nat.le_trans (ih hv) (Nat.le_of_lt (sizeOf_lt_of_step? hw))

/-- What holds of a value as soon as it holds of all that is inside of it holds of all values. -/
theorem inside_induction {P : Json → Prop}
    (h : ∀ j, (∀ step p v, j.at? (step :: p) = some v → P v) → P j) (j : Json) : P j := by
  induction hsize : sizeOf j using Nat.strong_induction_on generalizing j with
  | _ n ih =>
    subst hsize
    refine h j fun step p v hv => ih _ ?_ v rfl
    obtain ⟨w, hw, hv⟩ := Option.bind_eq_some_iff.1 hv
    exact Nat.lt_of_le_of_lt (sizeOf_le_of_at? hv) (sizeOf_lt_of_step? hw)

/-- A member that is changed, and all else as it is. -/
theorem at?_setMember {w : Json} (hv : j.member? key = some v) (p : Position) :
    ((j.setMember key w).at? p).map shape =
      match p with
      | .member k :: q => if k = key then (w.at? q).map shape else (j.at? p).map shape
      | _ => (j.at? p).map shape := by
  cases j with
  | obj ms =>
    match p with
    | [] =>
      exact congrArg some (shape_obj (Assoc.keys_put_of_mem (List.mem_map_of_mem (Assoc.mem_of_lookup hv)) w))
    | .item n :: q => rfl
    | .member k :: q =>
      rw [at?_cons, at?_cons]
      simp only [step?, setMember, member?, Assoc.lookup_put]
      split
      · rfl
      · rfl
  | _ => cases hv

theorem shape_eq_str {t : String} (h : v.shape = .str t) : v = .str t := by
  cases v <;> simp_all [shape]

theorem WellFormed.step? {step : Step} (hj : j.WellFormed) (h : j.step? step = some v) : v.WellFormed := by
  cases step with
  | member key =>
    cases j with
    | obj members => exact wellFormedMembers_iff.1 hj.2 _ (Assoc.mem_of_lookup h)
    | _ => cases h
  | item n =>
    cases j with
    | arr items => exact wellFormedItems_iff.1 hj _ (List.mem_of_getElem? h)
    | _ => cases h

theorem WellFormed.member? {key : String} (hj : j.WellFormed) (h : j.member? key = some v) : v.WellFormed :=
  hj.step? (show j.step? (.member key) = some v from h)

theorem WellFormed.item? {n : Nat} (hj : j.WellFormed) (h : j.item? n = some v) : v.WellFormed :=
  hj.step? (show j.step? (.item n) = some v from h)

end Parts

variable {m : Type → Type} [Monad m] [LawfulMonad m] {α : Type}

/-! ## Actions at the same position -/

theorem onMember_onMember (key : String) (f g : Json → m Json) (j : Json) :
    (j.onMember key f >>= Json.onMember key g) = j.onMember key fun v => f v >>= g := by
  cases j with
  | obj members =>
    rw [onMember, onMember]
    cases hv : members.lookup key with
    | none => simp [onMember, hv]
    | some v => simp [onMember, Assoc.put_put]
  | _ => simp [onMember]

theorem onItem_onItem (n : Nat) (f g : Json → m Json) (j : Json) :
    (j.onItem n f >>= Json.onItem n g) = j.onItem n fun v => f v >>= g := by
  cases j with
  | arr items =>
    rw [onItem, onItem]
    cases hv : items[n]? with
    | none => simp [onItem, hv]
    | some v =>
      obtain ⟨hn, -⟩ := List.getElem?_eq_some_iff.1 hv
      simp [onItem, hn]
  | _ => simp [onItem]

theorem onItem_pure (n : Nat) (j : Json) : j.onItem n (pure : Json → m Json) = pure j := by
  cases j with
  | arr items =>
    rw [onItem]
    cases hv : items[n]? with
    | none => rfl
    | some v =>
      obtain ⟨hn, rfl⟩ := List.getElem?_eq_some_iff.1 hv
      simp
  | _ => rfl

theorem onStep_onStep (step : Step) (f g : Json → m Json) (j : Json) :
    (j.onStep step f >>= Json.onStep step g) = j.onStep step fun v => f v >>= g := by
  cases step with
  | member key => exact onMember_onMember key f g j
  | item n => exact onItem_onItem n f g j

theorem onStep_pure (step : Step) (j : Json) : j.onStep step (pure : Json → m Json) = pure j := by
  cases step with
  | member key => exact onMember_pure key j
  | item n => exact onItem_pure n j

theorem onPosition_pure (p : Position) (j : Json) : j.onPosition p (pure : Json → m Json) = pure j := by
  induction p generalizing j with
  | nil => rfl
  | cons step p ih => rw [onPosition, funext ih, onStep_pure]

/-- Actions inside one part of a value, one after the other, act on that part. -/
theorem foldlM_onStep (step : Step) (f : α → Json → m Json) (as : List α) (j : Json) :
    as.foldlM (fun j a => j.onStep step (f a)) j =
      j.onStep step fun v => as.foldlM (fun v a => f a v) v := by
  induction as generalizing j with
  | nil => exact (onStep_pure step j).symm
  | cons a as ih =>
    simp only [List.foldlM_cons, ih]
    exact onStep_onStep step (f a) _ j

omit [LawfulMonad m] in
/-- What is done depends on what is there alone. -/
theorem onStep_congr {step : Step} {f g : Json → m Json} {j : Json}
    (h : ∀ v, j.step? step = some v → f v = g v) : j.onStep step f = j.onStep step g := by
  cases step with
  | member key =>
    cases j with
    | obj members =>
      rw [onStep, onStep, onMember, onMember]
      split
      · next v hv => rw [h v hv]
      · rfl
    | _ => rfl
  | item n =>
    cases j with
    | arr items =>
      rw [onStep, onStep, onItem, onItem]
      split
      · next v hv => rw [h v hv]
      · rfl
    | _ => rfl

/-! ## Actions on all members or items -/

section All

variable {f : String → Json → m Json} {g : String × Json → Json → m Json}

theorem foldlM_members (done : List (String × Json)) {todo : List (String × Json)} (h : ((done ++ todo).map Prod.fst).Nodup)
    (hfg : ∀ e ∈ todo, f e.1 e.2 = g e e.2) :
    todo.foldlM (fun j e => j.onMember e.1 (g e)) (obj (done ++ todo)) =
      (fun todo' => obj (done ++ todo')) <$> todo.mapM fun e => (fun v => (e.1, v)) <$> f e.1 e.2 := by
  induction todo generalizing done with
  | nil => simp
  | cons e todo ih =>
    obtain ⟨key, v⟩ := e
    obtain ⟨hv, htodo⟩ := List.forall_mem_cons.1 hfg
    have hkey : key ∉ done.map Prod.fst := by
      rw [List.map_append, List.nodup_append] at h
      exact fun hmem => h.2.2 key hmem key (by simp) rfl
    have hdone : done.lookup key = none := by
      refine List.lookup_eq_none_iff.2 fun e he => ?_
      simpa using fun heq : key = e.1 => hkey (heq ▸ List.mem_map_of_mem he)
    have hlookup : (done ++ (key, v) :: todo).lookup key = some v := by
      rw [List.lookup_append, hdone, List.lookup_cons_self, Option.none_or]
    rw [List.foldlM_cons, onMember, hlookup]
    simp only [Assoc.put_append hkey, Assoc.put, if_true, List.mapM_cons, bind_assoc, pure_bind, map_bind,
      bind_map_left, map_pure, hv]
    refine bind_congr fun w => ?_
    have hrest := ih (done ++ [(key, w)]) (by simpa using h) htodo
    simp only [List.append_assoc, List.singleton_append] at hrest
    rw [hrest, bind_pure_comp]

/-- Acting on all members is acting on one after the other, if no key comes twice. -/
theorem onMembers_eq_foldlM {members : List (String × Json)} (h : (members.map Prod.fst).Nodup)
    (hfg : ∀ e ∈ members, f e.1 e.2 = g e e.2) :
    (obj members).onMembers f = members.foldlM (fun j e => j.onMember e.1 (g e)) (obj members) := by
  have hfold := foldlM_members [] h hfg
  rw [List.nil_append] at hfold
  simp only [hfold, onMembers, bind_pure_comp, List.nil_append]

end All

section All

variable {f : Json → m Json} {g : Json × Nat → Json → m Json}

theorem foldlM_items (done : List Json) {todo : List Json} (hfg : ∀ e ∈ todo.zipIdx done.length, f e.1 = g e e.1) :
    (todo.zipIdx done.length).foldlM (fun j e => j.onItem e.2 (g e)) (arr (done ++ todo)) =
      (fun todo' => arr (done ++ todo')) <$> todo.mapM f := by
  induction todo generalizing done with
  | nil => simp
  | cons v todo ih =>
    rw [List.zipIdx_cons] at hfg ⊢
    obtain ⟨hv, htodo⟩ := List.forall_mem_cons.1 hfg
    have hitem : (done ++ v :: todo)[done.length]? = some v := by simp
    rw [List.foldlM_cons, onItem, hitem]
    simp only [List.set_append_right _ _ (Nat.le_refl done.length), Nat.sub_self, List.set_cons_zero,
      List.mapM_cons, bind_assoc, pure_bind, map_bind, map_pure, hv]
    refine bind_congr fun w => ?_
    have hlength : (done ++ [w]).length = done.length + 1 := by simp
    have hrest := ih (done ++ [w]) (by rwa [hlength])
    simp only [List.append_assoc, List.singleton_append, hlength] at hrest
    rw [hrest, bind_pure_comp]

/-- Acting on all items is acting on one after the other. -/
theorem onItems_eq_foldlM {items : List Json} (hfg : ∀ e ∈ items.zipIdx, f e.1 = g e e.1) :
    (arr items).onItems f = items.zipIdx.foldlM (fun j e => j.onItem e.2 (g e)) (arr items) := by
  have hfold := foldlM_items [] hfg
  rw [List.nil_append, List.length_nil] at hfold
  simp only [hfold, onItems, bind_pure_comp, List.nil_append]

end All

end Rehome.Json
