import Rehome.Data.Assoc
import Rehome.Migration.Remote

/-! # An installation in memory

It answers from the documents it holds, keeps what is pushed, and writes down every request. How it
answers the next requests for an entity can be set beforehand. -/

namespace Rehome

/-- A request as it is written down; one that did not reach the documents is marked so. -/
inductive RemoteEvent where
  | fetch (entity : Entity) (reached : Bool)
  | push (entity : Entity) (document : Json) (reached : Bool)
deriving DecidableEq, Repr

structure Memory where
  documents : List (Entity × Json)
  /-- The statuses of the next pushes of an entity; without one a push is accepted. -/
  statuses : List (Entity × Nat)
  /-- The statuses with which the next fetches of an entity fail. -/
  fetchFailures : List (Entity × Nat)
  /-- The statuses with which the next pushes of an entity fail. -/
  pushFailures : List (Entity × Nat)
  /-- The requests so far. -/
  log : List RemoteEvent
deriving DecidableEq, Repr

namespace Memory

def empty : Memory := ⟨[], [], [], [], []⟩

def withDocument (entity : Entity) (document : Json) (m : Memory) : Memory :=
  { m with documents := Assoc.put entity document m.documents }

def withStatus (entity : Entity) (status : Nat) (m : Memory) : Memory :=
  { m with statuses := m.statuses ++ [(entity, status)] }

def withFetchFailure (entity : Entity) (status : Nat) (m : Memory) : Memory :=
  { m with fetchFailures := m.fetchFailures ++ [(entity, status)] }

def withPushFailure (entity : Entity) (status : Nat) (m : Memory) : Memory :=
  { m with pushFailures := m.pushFailures ++ [(entity, status)] }

def document? (entity : Entity) (m : Memory) : Option Json := m.documents.lookup entity

/-! ## Requests -/

/-- What is set for the next request for an entity, and what is left after it. -/
def takeNext (entity : Entity) (queue : List (Entity × Nat)) : Option Nat × List (Entity × Nat) :=
  (queue.lookup entity, queue.eraseP (·.1 == entity))

def write (event : RemoteEvent) (m : Memory) : Memory := { m with log := m.log ++ [event] }

def fetch (entity : Entity) (m : Memory) : Except RemoteError Json × Memory :=
  match takeNext entity m.fetchFailures with
  | (some status, rest) =>
    (.error (.status entity status), { m with fetchFailures := rest }.write (.fetch entity false))
  | (none, _) =>
    let m := m.write (.fetch entity true)
    match m.document? entity with
    | some document => (.ok document, m)
    | none => (.error (.notFound entity), m)

/-- Keeps a document that has been accepted. -/
def store (entity : Entity) (document : Json) (status : Nat) (m : Memory) : Memory :=
  if status = Remote.accepted then m.withDocument entity document else m

def push (entity : Entity) (document : Json) (m : Memory) : Except RemoteError Nat × Memory :=
  match takeNext entity m.pushFailures with
  | (some status, rest) =>
    (.error (.status entity status),
      { m with pushFailures := rest }.write (.push entity document false))
  | (none, _) =>
    let (next, rest) := takeNext entity m.statuses
    let status := next.getD Remote.accepted
    (.ok status,
      ({ m with statuses := rest }.write (.push entity document true)).store entity document status)

instance : Remote Memory := ⟨fetch, push⟩

/-! ## What has been requested -/

/-- The fetches that reached the documents. -/
def fetches (m : Memory) : List Entity :=
  m.log.filterMap fun
    | .fetch entity true => some entity
    | _ => none

/-- The pushes that reached the documents, refused ones included. -/
def pushes (m : Memory) : List (Entity × Json) :=
  m.log.filterMap fun
    | .push entity document true => some (entity, document)
    | _ => none

def pushCount (entity : Entity) (m : Memory) : Nat := m.pushes.countP (·.1 == entity)

/-- The document of the last such push of an entity. -/
def lastPushed? (entity : Entity) (m : Memory) : Option Json := m.pushes.reverse.lookup entity

end Memory

end Rehome
