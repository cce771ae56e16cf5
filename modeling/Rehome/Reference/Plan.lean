import Rehome.Migration.Error

/-! # Plans

A fragment of a document is renamed without looking at the installation. All it asks of it is that
certain cards are migrated first. So a renaming is a plan: the cards it needs, in order, and then the
fragment or the reason why there is none. What is carried out of a plan that fails is what stands
before the failure. -/

namespace Rehome

/-- The cards that are needed, and what comes of it once they are there. -/
structure Plan (α : Type) where
  needs : List CardId
  outcome : Except MigrationError α

namespace Plan

variable {α β γ : Type}

def bind (p : Plan α) (f : α → Plan β) : Plan β :=
  match p.outcome with
  | .ok a => ⟨p.needs ++ (f a).needs, (f a).outcome⟩
  | .error e => ⟨p.needs, .error e⟩

instance : Monad Plan where
  pure a := ⟨[], .ok a⟩
  bind := bind

/-- Needs one card. -/
def need (card : CardId) : Plan Unit := ⟨[card], .ok ()⟩

def ofExcept (outcome : Except MigrationError α) : Plan α := ⟨[], outcome⟩

instance : MonadLift (Except MigrationError) Plan := ⟨ofExcept⟩

@[ext] theorem ext {p q : Plan α} (needs : p.needs = q.needs) (outcome : p.outcome = q.outcome) :
    p = q := by
  cases p; cases q; simp_all

@[simp] theorem needs_pure (a : α) : (pure a : Plan α).needs = [] := rfl

@[simp] theorem outcome_pure (a : α) : (pure a : Plan α).outcome = .ok a := rfl

@[simp] theorem needs_need (card : CardId) : (need card).needs = [card] := rfl

@[simp] theorem outcome_need (card : CardId) : (need card).outcome = .ok () := rfl

@[simp] theorem needs_ofExcept (o : Except MigrationError α) : (ofExcept o).needs = [] := rfl

@[simp] theorem outcome_ofExcept (o : Except MigrationError α) : (ofExcept o).outcome = o := rfl

theorem bind_of_ok {p : Plan α} {a : α} (h : p.outcome = .ok a) (f : α → Plan β) :
    p >>= f = ⟨p.needs ++ (f a).needs, (f a).outcome⟩ := by
  show bind p f = _
  simp [bind, h]

theorem bind_of_error {p : Plan α} {e : MigrationError} (h : p.outcome = .error e) (f : α → Plan β) :
    p >>= f = ⟨p.needs, .error e⟩ := by
  show bind p f = _
  simp [bind, h]

theorem map_id (p : Plan α) : id <$> p = p := by
  show bind p _ = p
  cases p with | mk n o => cases o <;> simp [bind, Function.comp]

theorem bind_of_pure (a : α) (f : α → Plan β) : pure a >>= f = f a := by
  show bind _ _ = _
  simp [bind, pure]

theorem bind_bind (p : Plan α) (f : α → Plan β) (g : β → Plan γ) :
    p >>= f >>= g = p >>= fun a => f a >>= g := by
  show bind (bind p f) g = bind p fun x => bind (f x) g
  cases p with | mk n o =>
    cases o with
    | error e => simp [bind]
    | ok a => simp only [bind]; cases (f a).outcome <;> simp

instance : LawfulMonad Plan := LawfulMonad.mk' Plan map_id bind_of_pure bind_bind

end Plan

end Rehome
