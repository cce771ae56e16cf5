import Rehome.Json.Basic
import Rehome.Migration.Error

/-! # Installations

An installation holds the documents of cards and dashboards. It has a state of its own: it may answer
the same request differently each time. -/

namespace Rehome

class Remote (ρ : Type) where
  /-- The document of an entity. -/
  fetch (entity : Entity) : ρ → Except RemoteError Json × ρ
  /-- Offers a document for an entity, and answers the status of that: only 200 accepts it. -/
  push (entity : Entity) (document : Json) : ρ → Except RemoteError Nat × ρ

/-- The status of a request that has been carried out. -/
def Remote.accepted : Nat := 200

end Rehome
