import Rehome.Data.Assoc
import Rehome.Ident

/-! # Moved cards and dashboards

A card or dashboard that was copied to the destination has a new id there. An id that is already one of
the new ids moves nowhere. -/

namespace Rehome

structure Moves where
  cards : List (CardId × CardId)
  dashboards : List (DashboardId × DashboardId)
deriving DecidableEq, Repr

namespace Moves

def none : Moves := ⟨[], []⟩

def withCard (source destination : CardId) (m : Moves) : Moves :=
  { m with cards := Assoc.putSorted source destination m.cards }

def withDashboard (source destination : DashboardId) (m : Moves) : Moves :=
  { m with dashboards := Assoc.putSorted source destination m.dashboards }

/-- The new id of `id`: where it is moved to, or `id` itself if it is a new id. -/
def find? {kind : IdentKind} (moves : List (Ident kind × Ident kind)) (id : Ident kind) :
    Option (Ident kind) :=
  match moves.lookup id with
  | some destination => some destination
  | Option.none => if moves.any fun p => p.2 == id then some id else Option.none

def card? (m : Moves) (card : CardId) : Option CardId := find? m.cards card

def dashboard? (m : Moves) (dashboard : DashboardId) : Option DashboardId :=
  find? m.dashboards dashboard

/-- The distinct ids that cards are moved to. -/
def destinationCards (m : Moves) : List CardId := (m.cards.map Prod.snd).eraseDups

end Moves

end Rehome
