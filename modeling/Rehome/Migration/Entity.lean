import Rehome.Ident

/-! # Cards and dashboards as entities of an installation -/

namespace Rehome

inductive EntityKind where
  | card
  | dashboard
deriving DecidableEq, Repr

/-- The name of a kind, also the path of its entities. -/
def EntityKind.name : EntityKind → String
  | .card => "card"
  | .dashboard => "dashboard"

/-- A card or a dashboard, by its id. -/
structure Entity where
  kind : EntityKind
  id : UInt64
deriving DecidableEq, Repr

namespace Entity

def card (id : CardId) : Entity := ⟨.card, id.val⟩

def dashboard (id : DashboardId) : Entity := ⟨.dashboard, id.val⟩

instance : ToString Entity := ⟨fun e => s!"{e.kind.name} {e.id.toNat}"⟩

@[simp] theorem kind_card (id : CardId) : (card id).kind = .card := rfl
@[simp] theorem id_card (id : CardId) : (card id).id = id.val := rfl
@[simp] theorem kind_dashboard (id : DashboardId) : (dashboard id).kind = .dashboard := rfl
@[simp] theorem id_dashboard (id : DashboardId) : (dashboard id).id = id.val := rfl

@[simp] theorem card_inj {a b : CardId} : card a = card b ↔ a = b := by
  cases a
  cases b
  simp [card]

end Entity

end Rehome
