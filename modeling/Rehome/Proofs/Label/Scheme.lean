import Rehome.Label.Slots
import Rehome.Proofs.Json.Update

/-! # Schemes of texts

A scheme says in which members and items of a value its texts are, at any depth. It can be carried out by any
action on texts (`mapTexts`), and it tells the texts with their positions (`spots`). Changing the texts of a
value (`reword`) changes nothing else that a scheme tells of it (`texts_reword`, `reword_setMember`). -/

namespace Rehome

/-- Changes a value that is a string. -/
def Json.mapStr (f : String → String) : Json → Json
  | .str t => .str (f t)
  | j => j

namespace Label

/-- Where texts are. -/
inductive Scheme where
  /-- The value is a text, if it is a string. -/
  | text
  | none
  /-- In one member, and then elsewhere. -/
  | member (key : String) (scheme rest : Scheme)
  /-- In all members, as their keys say. -/
  | members (scheme : String → Scheme)
  /-- In all items. -/
  | items (scheme : Scheme)

namespace Scheme

section Effects

variable {m : Type → Type} [Monad m]

/-- Acts on all texts. -/
def mapTexts (act : String → m String) : Scheme → Json → m Json
  | .text, j => j.onStr act
  | .none, j => pure j
  | .member key s rest, j => j.onMember key (mapTexts act s) >>= mapTexts act rest
  | .members s, j => j.onMembers fun key => mapTexts act (s key)
  | .items s, j => j.onItems (mapTexts act s)

end Effects

/-- Changes all texts. -/
def reword (f : String → String) (s : Scheme) (j : Json) : Json := Id.run (s.mapTexts (fun t => pure (f t)) j)

/-- Is a string at this position a text? -/
def hasText : Scheme → Position → Bool
  | .text, [] => true
  | .member key s rest, .member k :: p => k == key && s.hasText p || rest.hasText (.member k :: p)
  | .member _ _ rest, p => rest.hasText p
  | .members s, .member k :: p => (s k).hasText p
  | .items s, .item _ :: p => s.hasText p
  | _, _ => false

/-- Texts told from what their value is a part of. -/
def under (step : Step) (spots : List (Position × String)) : List (Position × String) :=
  spots.map (Prod.map (step :: ·) id)

/-- The texts, with their positions. -/
def spots : Scheme → Json → List (Position × String)
  | .text, .str t => [([], t)]
  | .member key s rest, j =>
    (match j.member? key with
      | some v => under (.member key) (s.spots v)
      | Option.none => []) ++ rest.spots j
  | .members s, .obj ms => ms.flatMap fun e => under (.member e.1) ((s e.1).spots e.2)
  | .items s, .arr js => js.zipIdx.flatMap fun e => under (.item e.2) (s.spots e.1)
  | _, _ => []

/-- The texts, in order. -/
def texts (s : Scheme) (j : Json) : List String := (s.spots j).map Prod.snd

/-- The member with this key holds no text. -/
def Ignores (key : String) : Scheme → Prop
  | .member k _ rest => key ≠ k ∧ rest.Ignores key
  | .members s => s key = .none
  | _ => True

/-- No text comes twice. -/
def Apart : Scheme → Prop
  | .member key s rest => s.Apart ∧ rest.Apart ∧ rest.Ignores key
  | .members s => ∀ key, (s key).Apart
  | .items s => s.Apart
  | _ => True

variable {f : String → String} {s rest : Scheme} {key : String} {j : Json}

/-! ## Rewording -/

@[simp] theorem reword_none (j : Json) : reword f .none j = j := rfl

theorem reword_text (j : Json) : reword f .text j = j.mapStr f := by
  cases j <;> rfl

/-- The texts in one member are changed before the others. -/
theorem reword_member (key : String) (s rest : Scheme) (j : Json) : reword f (.member key s rest) j =
    rest.reword f (match j.member? key with
      | some v => j.setMember key (s.reword f v)
      | Option.none => j) := by
  cases j with
  | obj ms =>
    rw [reword, mapTexts, Json.onMember, Json.member?]
    cases ms.lookup key <;> rfl
  | _ => rfl

theorem reword_member_none (key : String) (rest : Scheme) (j : Json) :
    reword f (.member key .none rest) j = rest.reword f j := by
  rw [reword_member]
  split
  · next v hv => rw [reword_none, Json.setMember_eq_self hv]
  · rfl

theorem reword_members_obj (s : String → Scheme) (ms : List (String × Json)) :
    reword f (.members s) (.obj ms) = .obj (ms.map fun e => (e.1, (s e.1).reword f e.2)) := by
  have hmembers : (ms.mapM fun e => do return (e.1, ← (s e.1).mapTexts (fun t => pure (f t)) e.2) : Id _) =
      pure (ms.map fun e => (e.1, (s e.1).reword f e.2)) := List.mapM_pure
  rw [reword, mapTexts, Json.onMembers, hmembers]
  rfl

theorem reword_items_arr (js : List Json) : reword f (.items s) (.arr js) = .arr (js.map (s.reword f)) := by
  have hitems : (js.mapM (s.mapTexts fun t => pure (f t)) : Id _) = pure (js.map (s.reword f)) :=
    List.mapM_pure
  rw [reword, mapTexts, Json.onItems, hitems]
  rfl

theorem isObj_reword (f : String → String) (s : Scheme) (j : Json) : (s.reword f j).isObj = j.isObj := by
  induction s generalizing j with
  | text => cases j <;> rfl
  | none => rfl
  | member key s rest _ ih =>
    rw [reword_member, ih]
    split
    · exact Json.isObj_setMember
    · rfl
  | members s _ =>
    cases j with
    | obj ms => rw [reword_members_obj]; rfl
    | _ => rfl
  | items s _ =>
    cases j with
    | arr js => rw [reword_items_arr]; rfl
    | _ => rfl

/-- Texts that stay as they are. -/
theorem mapTexts_pure {m : Type → Type} [Monad m] [LawfulMonad m] (s : Scheme) (j : Json) :
    s.mapTexts (pure : String → m String) j = pure j := by
  induction s generalizing j with
  | text => exact Json.onStr_pure j
  | none => rfl
  | member key s rest ih ihrest => rw [mapTexts, funext ih, Json.onMember_pure, pure_bind, ihrest]
  | members s ih => rw [mapTexts, funext fun key => funext (ih key), Json.onMembers_pure]
  | items s ih => rw [mapTexts, funext ih, Json.onItems_pure]

theorem reword_id (s : Scheme) (j : Json) : s.reword id j = j :=
  congrArg Id.run (s.mapTexts_pure (m := Id) j)

/-! ## Lists of texts -/

theorem map_snd_under (step : Step) (spots : List (Position × String)) :
    (under step spots).map Prod.snd = spots.map Prod.snd := by
  rw [under, List.map_map]
  rfl

theorem texts_member (key : String) (s rest : Scheme) (j : Json) :
    texts (.member key s rest) j = (j.member? key).elim [] s.texts ++ rest.texts j := by
  rw [texts, spots, List.map_append]
  cases j.member? key with
  | none => rfl
  | some v => rw [map_snd_under]; rfl

theorem texts_members_obj (s : String → Scheme) (ms : List (String × Json)) :
    texts (.members s) (.obj ms) = ms.flatMap fun e => (s e.1).texts e.2 := by
  rw [texts, spots, List.map_flatMap]
  simp only [map_snd_under]
  rfl

theorem texts_items_arr (s : Scheme) (js : List Json) : texts (.items s) (.arr js) = js.flatMap s.texts := by
  rw [texts, spots, List.map_flatMap]
  simp only [map_snd_under]
  have hitems : js.zipIdx.map Prod.fst = js := List.zipIdx_map_fst 0 js
  conv_rhs => rw [← hitems, List.flatMap_map]
  rfl

/-! ## Members that hold no text -/

theorem reword_setMember (h : s.Ignores key) (j v : Json) :
    s.reword f (j.setMember key v) = (s.reword f j).setMember key v := by
  by_cases hobj : j.isObj
  · induction s generalizing j with
    | text =>
      cases j with
      | obj ms => rfl
      | _ => cases hobj
    | none => rfl
    | member k s rest _ ih =>
      obtain ⟨hne, hrest⟩ := h
      rw [reword_member, reword_member, Json.member?_setMember_of_ne hne.symm]
      cases hk : j.member? k with
      | none => exact ih hrest j hobj
      | some w =>
        dsimp only
        rw [Json.setMember_comm hk hne.symm]
        exact ih hrest _ (Json.isObj_setMember.trans hobj)
    | members s _ =>
      cases j with
      | obj ms =>
        rw [Json.setMember, reword_members_obj, reword_members_obj, Json.setMember]
        congr 1
        induction ms with
        | nil => simp [Assoc.put, show s key = .none from h]
        | cons e ms ih =>
          obtain ⟨k, w⟩ := e
          by_cases hk : k = key
          · simp [Assoc.put, hk, show s key = .none from h]
          · simp [Assoc.put, hk, ih rfl]
      | _ => cases hobj
    | items s _ =>
      cases j with
      | obj ms => rfl
      | _ => cases hobj
  · have hobj' : ¬(s.reword f j).isObj := by rwa [isObj_reword]
    rw [Json.setMember_of_not_isObj hobj, Json.setMember_of_not_isObj hobj']

theorem member?_reword (h : s.Ignores key) (j : Json) : (s.reword f j).member? key = j.member? key := by
  induction s generalizing j with
  | text => cases j <;> rfl
  | none => rfl
  | member k s rest _ ih =>
    rw [reword_member, ih h.2]
    split
    · exact Json.member?_setMember_of_ne h.1 j _
    · rfl
  | members s _ =>
    cases j with
    | obj ms =>
      rw [reword_members_obj]
      simp only [Json.member?]
      induction ms with
      | nil => rfl
      | cons e ms ih =>
        obtain ⟨k, w⟩ := e
        rw [List.map_cons, Assoc.lookup_cons, Assoc.lookup_cons]
        split
        · next hk =>
          obtain rfl : key = k := hk
          rw [show s key = .none from h, reword_none]
        · exact ih
    | _ => rfl
  | items s _ =>
    cases j with
    | arr js => rw [reword_items_arr]; rfl
    | _ => rfl

theorem spots_setMember (h : s.Ignores key) (j v : Json) : s.spots (j.setMember key v) = s.spots j := by
  induction s with
  | text => cases j <;> rfl
  | none => rfl
  | member k s rest _ ih => rw [spots, spots, Json.member?_setMember_of_ne h.1.symm, ih h.2]
  | members s ih =>
    clear ih
    cases j with
    | obj ms =>
      rw [Json.setMember, spots, spots]
      induction ms with
      | nil => simp [Assoc.put, show s key = .none from h, spots, under]
      | cons e ms ih =>
        obtain ⟨k, w⟩ := e
        by_cases hk : k = key
        · simp [Assoc.put, hk, show s key = .none from h, spots]
        · simp [Assoc.put, hk, ih]
    | _ => rfl
  | items s _ => cases j <;> rfl

theorem texts_setMember (h : s.Ignores key) (j v : Json) : s.texts (j.setMember key v) = s.texts j := by
  rw [texts, texts, spots_setMember h]

/-! ## Texts of what was reworded -/

/-- The texts of a reworded value are the new texts, in the same order. -/
theorem texts_reword (hs : s.Apart) (j : Json) : s.texts (s.reword f j) = (s.texts j).map f := by
  induction s generalizing j with
  | text => cases j <;> rfl
  | none => rfl
  | member key s rest ih ihrest =>
    obtain ⟨hs, hrest, hignores⟩ := hs
    rw [reword_member, texts_member, texts_member, member?_reword hignores, ihrest hrest, List.map_append]
    cases hv : j.member? key with
    | none => simp [hv]
    | some v =>
      have hobj := Json.isObj_of_member? hv
      dsimp only
      rw [Json.member?_setMember_self hobj, texts_setMember hignores]
      exact congrArg (· ++ _) (ih hs v)
  | members s ih =>
    cases j with
    | obj ms =>
      rw [reword_members_obj, texts_members_obj, texts_members_obj, List.flatMap_map, List.map_flatMap]
      simp only [ih _ (hs _)]
    | _ => rfl
  | items s ih =>
    cases j with
    | arr js =>
      rw [reword_items_arr, texts_items_arr, texts_items_arr, List.flatMap_map, List.map_flatMap]
      simp only [ih hs]
    | _ => rfl

theorem reword_reword (hs : s.Apart) {g : String → String} (j : Json) :
    s.reword g (s.reword f j) = s.reword (g ∘ f) j := by
  induction s generalizing j with
  | text => cases j <;> rfl
  | none => rfl
  | member key s rest ih ihrest =>
    obtain ⟨hs, hrest, hignores⟩ := hs
    rw [reword_member, reword_member, reword_member, member?_reword hignores]
    cases hv : j.member? key with
    | none =>
      dsimp only
      rw [hv]
      exact ihrest hrest j
    | some v =>
      dsimp only
      have hobj := Json.isObj_of_member? hv
      rw [Json.member?_setMember_self hobj]
      dsimp only
      rw [← reword_setMember hignores, ihrest hrest, ih hs, Json.setMember_setMember]
  | members s ih =>
    cases j with
    | obj ms =>
      rw [reword_members_obj, reword_members_obj, reword_members_obj, List.map_map]
      refine congrArg Json.obj (List.map_congr_left fun e _ => ?_)
      exact congrArg (Prod.mk e.1) (ih e.1 (hs e.1) e.2)
    | _ => rfl
  | items s ih =>
    cases j with
    | arr js =>
      rw [reword_items_arr, reword_items_arr, reword_items_arr, List.map_map]
      exact congrArg Json.arr (List.map_congr_left fun j _ => ih hs j)
    | _ => rfl

/-! ## Texts of objects -/

/-- Only objects hold texts. -/
def OfObjects : Scheme → Prop
  | .none => True
  | .member _ _ rest => rest.OfObjects
  | .members _ => True
  | _ => False

theorem mapTexts_of_not_isObj {m : Type → Type} [Monad m] [LawfulMonad m] (hs : s.OfObjects) (h : ¬j.isObj)
    (act : String → m String) : s.mapTexts act j = pure j := by
  induction s with
  | none => rfl
  | member key s rest _ ih =>
    rw [mapTexts, Json.onMember_of_none (Json.member?_of_not_isObj h key), pure_bind]
    exact ih hs
  | members s _ =>
    cases j with
    | obj ms => exact absurd rfl h
    | _ => rfl
  | text => cases hs
  | items s _ => cases hs

theorem texts_of_not_isObj (hs : s.OfObjects) (h : ¬j.isObj) : s.texts j = [] := by
  induction s with
  | none => rfl
  | member key s rest _ ih =>
    rw [texts_member, Json.member?_of_not_isObj h, ih hs]
    rfl
  | members s _ =>
    cases j with
    | obj ms => exact absurd rfl h
    | _ => rfl
  | text => cases hs
  | items s _ => cases hs

/-- Acting on objects alone is no restriction. -/
theorem onObj_mapTexts {m : Type → Type} [Monad m] [LawfulMonad m] (hs : s.OfObjects) (act : String → m String) :
    Json.onObj (s.mapTexts act) = s.mapTexts act := by
  funext j
  cases j with
  | obj ms => rfl
  | _ => exact (mapTexts_of_not_isObj hs (by simp [Json.isObj]) act).symm

/-! ## Several members -/

/-- In some members, one after the other, and then elsewhere. -/
def within (inner : List (String × Scheme)) (own : Scheme) : Scheme :=
  inner.foldr (fun e rest => .member e.1 e.2 rest) own

variable {inner : List (String × Scheme)} {own : Scheme}

theorem within_cons (e : String × Scheme) : within (e :: inner) own = .member e.1 e.2 (within inner own) := rfl

theorem ignores_within (hkey : key ∉ inner.map Prod.fst) (hown : own.Ignores key) :
    (within inner own).Ignores key := by
  induction inner with
  | nil => exact hown
  | cons e inner ih =>
    obtain ⟨hne, hinner⟩ := not_or.1 (mt List.mem_cons.2 hkey)
    exact ⟨hne, ih hinner⟩

theorem ofObjects_within (hown : own.OfObjects) : (within inner own).OfObjects := by
  induction inner with
  | nil => exact hown
  | cons e inner ih => exact ih

theorem apart_within (hkeys : (inner.map Prod.fst).Nodup) (hinner : ∀ e ∈ inner, e.2.Apart)
    (hown : own.Apart) (hignores : ∀ e ∈ inner, own.Ignores e.1) : (within inner own).Apart := by
  induction inner with
  | nil => exact hown
  | cons e inner ih =>
    obtain ⟨hkey, hkeys⟩ := List.nodup_cons.1 hkeys
    obtain ⟨he, hinner⟩ := List.forall_mem_cons.1 hinner
    obtain ⟨hownkey, hignores⟩ := List.forall_mem_cons.1 hignores
    exact ⟨he, ih hkeys hinner hignores, ignores_within hkey hownkey⟩

theorem within_append (inner' : List (String × Scheme)) :
    within (inner ++ inner') own = within inner (within inner' own) := List.foldr_append

theorem reword_within (j : Json) :
    (within inner own).reword f j = own.reword f ((within inner .none).reword f j) := by
  induction inner generalizing j with
  | nil => rfl
  | cons e inner ih => rw [within_cons, within_cons, reword_member, reword_member, ih]

/-- Texts elsewhere stay as they are. -/
theorem texts_reword_within (hignores : ∀ e ∈ inner, own.Ignores e.1) (j : Json) :
    own.texts ((within inner .none).reword f j) = own.texts j := by
  induction inner generalizing j with
  | nil => rfl
  | cons e inner ih =>
    obtain ⟨he, hinner⟩ := List.forall_mem_cons.1 hignores
    rw [within_cons, reword_member, ih hinner]
    split
    · exact texts_setMember he j _
    · rfl

theorem texts_within_eq (j : Json) :
    (within inner own).texts j = (inner.flatMap fun e => (j.member? e.1).elim [] e.2.texts) ++ own.texts j := by
  induction inner with
  | nil => rfl
  | cons e inner ih => rw [within_cons, texts_member, ih, List.flatMap_cons, List.append_assoc]

theorem texts_within (j : Json) :
    (within inner own).texts j = (within inner .none).texts j ++ own.texts j := by
  rw [texts_within_eq, texts_within_eq]
  simp [texts, spots]

theorem texts_inner_subset {e : String × Scheme} (he : e ∈ inner) {v : Json} (hv : j.member? e.1 = some v) :
    e.2.texts v ⊆ (within inner own).texts j := by
  rw [texts_within_eq]
  refine fun t ht => List.mem_append_left _ (List.mem_flatMap.2 ⟨e, he, ?_⟩)
  rwa [hv]

theorem texts_own_subset : own.texts j ⊆ (within inner own).texts j := by
  rw [texts_within]
  exact List.subset_append_right _ _

theorem texts_within_congr {j' : Json} (h : ∀ e ∈ inner, j'.member? e.1 = j.member? e.1) :
    (within inner .none).texts j' = (within inner .none).texts j := by
  rw [texts_within_eq, texts_within_eq]
  exact congrArg (· ++ []) (List.flatMap_congr fun e he => by rw [h e he])

end Scheme

end Label

end Rehome
