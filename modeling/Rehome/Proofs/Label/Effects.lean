import Rehome.Proofs.Label.Scheme
import Rehome.Proofs.Place.Compatible

/-! # Acting on the texts of a value

What acting on all texts comes to, for actions that change a state (`mapTexts_changing`) and for actions that
may fail (`mapTexts_except`): the value is reworded, and the rest is done for one text after the other. -/

namespace Rehome.Label.Scheme

variable {f : String → String} {s rest : Scheme} {key : String} {j : Json}

/-- Actions on texts are related when the actions on each text are. -/
theorem mapTexts_related {m n : Type → Type} [Monad m] [Monad n] [LawfulMonad m] [LawfulMonad n]
    {R : (α : Type) → m α → n α → Prop} (hR : Compatible R) {f : String → m String} {g : String → n String}
    (h : ∀ t, R _ (f t) (g t)) (s : Scheme) (j : Json) : R _ (s.mapTexts f j) (s.mapTexts g j) := by
  induction s generalizing j with
  | text => exact hR.onStr h j
  | none => exact hR.pure j
  | member key s rest ih ihrest => exact hR.bind (hR.onMember key ih j) ihrest
  | members s ih => exact hR.onMembers ih j
  | items s ih => exact hR.onItems ih j

/-! ## Actions with a state -/

section State

variable {σ : Type} {update : σ → String → σ}

theorem mapM_state {α β : Type} {act : α → StateM σ β} {g : α → β} {told : α → List String}
    (h : ∀ a st, act a st = (g a, (told a).foldl update st)) (as : List α) (st : σ) :
    as.mapM act st = (as.map g, (as.flatMap told).foldl update st) := by
  induction as generalizing st with
  | nil => rfl
  | cons a as ih =>
    rw [List.mapM_cons, List.map_cons, List.flatMap_cons, List.foldl_append]
    show ((as.mapM act >>= fun bs => pure ((act a st).1 :: bs)) (act a st).2) = _
    rw [h]
    show ((g a :: (as.mapM act _).1, (as.mapM act _).2) : List β × σ) = _
    rw [ih]

/-- Changes a text, and a state with it. -/
def changing (f : String → String) (update : σ → String → σ) (t : String) : StateM σ String := fun st =>
  (f t, update st t)

/-- Texts are changed in order, and the state with them. -/
theorem mapTexts_changing (hs : s.Apart) (j : Json) (st : σ) :
    s.mapTexts (changing f update) j st = (s.reword f j, (s.texts j).foldl update st) := by
  induction s generalizing j st with
  | text => cases j <;> rfl
  | none => rfl
  | member key s rest ih ihrest =>
    obtain ⟨hs, hrest, hignores⟩ := hs
    rw [mapTexts, reword_member, texts_member, List.foldl_append]
    cases hv : j.member? key with
    | none =>
      rw [Json.onMember_of_none hv, pure_bind]
      exact ihrest hrest j st
    | some v =>
      rw [Json.onMember_of_some hv, bind_assoc]
      show rest.mapTexts (changing f update) (j.setMember key (s.mapTexts (changing f update) v st).1)
        (s.mapTexts (changing f update) v st).2 = _
      rw [ih hs, ihrest hrest, texts_setMember hignores]
      rfl
  | members s ih =>
    cases j with
    | obj ms =>
      let act (e : String × Json) : StateM σ (String × Json) := do
        return (e.1, ← (s e.1).mapTexts (changing f update) e.2)
      have hentry (e : String × Json) (st : σ) :
          act e st = ((e.1, (s e.1).reword f e.2), ((s e.1).texts e.2).foldl update st) := by
        show ((e.1, ((s e.1).mapTexts (changing f update) e.2 st).1),
          ((s e.1).mapTexts (changing f update) e.2 st).2) = _
        rw [ih e.1 (hs e.1)]
      rw [reword_members_obj, texts_members_obj]
      show (Json.obj (ms.mapM act st).1, (ms.mapM act st).2) = _
      rw [mapM_state hentry]
    | _ => rfl
  | items s ih =>
    cases j with
    | arr js =>
      rw [reword_items_arr, texts_items_arr]
      show (Json.arr (js.mapM (s.mapTexts (changing f update)) st).1,
        (js.mapM (s.mapTexts (changing f update)) st).2) = _
      rw [mapM_state fun j st => ih hs j st]
    | _ => rfl

end State

/-! ## Actions that may fail -/

section Failing

variable {ε : Type} {act : String → Except ε String}

/-- What an action that may fail makes of a text, if it succeeds. -/
def rendered (act : String → Except ε String) (t : String) : String :=
  match act t with
  | .ok t' => t'
  | .error _ => t

theorem mapM_except {α β : Type} {g : α → Except ε β} {h : α → β} {told : α → List String}
    (hg : ∀ a, g a = (told a).mapM act >>= fun _ => pure (h a)) (as : List α) :
    as.mapM g = (as.flatMap told).mapM act >>= fun _ => pure (as.map h) := by
  induction as with
  | nil => rfl
  | cons a as ih =>
    rw [List.mapM_cons, hg, ih, List.flatMap_cons, List.mapM_append]
    simp only [bind_assoc, pure_bind, List.map_cons]

/-- An action that may fail is tried on the texts in order, and rewords the value if it succeeds. -/
theorem mapTexts_except (hs : s.Apart) (j : Json) :
    s.mapTexts act j = (s.texts j).mapM act >>= fun _ => pure (s.reword (rendered act) j) := by
  induction s generalizing j with
  | text =>
    cases j with
    | str t =>
      show (act t >>= fun t' => pure (Json.str t')) =
        [t].mapM act >>= fun _ => pure (Json.str (rendered act t))
      rw [List.mapM_cons, List.mapM_nil, rendered]
      cases act t <;> rfl
    | _ => rfl
  | none => rfl
  | member key s rest ih ihrest =>
    obtain ⟨hs, hrest, hignores⟩ := hs
    rw [mapTexts, reword_member, texts_member, List.mapM_append]
    cases hv : j.member? key with
    | none =>
      rw [Json.onMember_of_none hv, pure_bind, ihrest hrest]
      simp
    | some v =>
      rw [Json.onMember_of_some hv, ih hs]
      simp only [bind_assoc, pure_bind, ihrest hrest, texts_setMember hignores, Option.elim_some]
  | members s ih =>
    cases j with
    | obj ms =>
      have hentry (e : String × Json) : (do return (e.1, ← (s e.1).mapTexts act e.2) : Except ε _) =
          ((s e.1).texts e.2).mapM act >>= fun _ => pure (e.1, (s e.1).reword (rendered act) e.2) := by
        rw [ih e.1 (hs e.1), bind_assoc]
        rfl
      rw [mapTexts, Json.onMembers, mapM_except hentry, reword_members_obj, texts_members_obj, bind_assoc]
      rfl
    | _ => rfl
  | items s ih =>
    cases j with
    | arr js =>
      rw [mapTexts, Json.onItems, mapM_except (ih hs), reword_items_arr, texts_items_arr, bind_assoc]
      rfl
    | _ => rfl

end Failing

end Rehome.Label.Scheme
