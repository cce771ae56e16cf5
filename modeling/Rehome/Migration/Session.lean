import Rehome.Label.Document
import Rehome.Migration.Remote
import Rehome.Reference.Place
import Rehome.Translator.Basic

/-! # Migration sessions

A session migrates cards and dashboards of one installation. Before an entity is pushed, every card it
is built on is migrated; a card that has been migrated is not migrated again. The cards whose migration
is under way form a chain, each needed by the one before it, and a card that is needed while it is in
the chain is refused. Every card that is needed is one that cards are moved to, so the chain is never
longer than their number and one. -/

namespace Rehome

structure Session (ρ μ : Type) where
  mapping : Mapping
  remote : ρ
  translator : Option (Translator μ)
  /-- Are documents kept back? -/
  dryRun : Bool
  /-- The cards that have been migrated, sorted. -/
  migrated : List CardId
  /-- The cards whose migration is under way, outermost first. -/
  inProgress : List CardId
  /-- The last document of each entity that was pushed, or kept back. -/
  produced : List (Entity × Json)

namespace Session

variable {ρ μ : Type}

def new (mapping : Mapping) (remote : ρ) : Session ρ μ := ⟨mapping, remote, none, false, [], [], []⟩

def withTranslator (translator : Translator μ) (s : Session ρ μ) : Session ρ μ :=
  { s with translator := some translator }

def withDryRun (dryRun : Bool) (s : Session ρ μ) : Session ρ μ := { s with dryRun := dryRun }

def isMigrated (card : CardId) (s : Session ρ μ) : Bool := s.migrated.contains card

/-- The last document of an entity that was pushed, or kept back. -/
def produced? (entity : Entity) (s : Session ρ μ) : Option Json := s.produced.lookup entity

/-- Writes down that a card has been migrated. -/
def markMigrated (card : CardId) (s : Session ρ μ) : Session ρ μ :=
  { s with migrated := insertSorted card s.migrated }

/-- Writes down the last document of an entity. -/
def markProduced (entity : Entity) (document : Json) (s : Session ρ μ) : Session ρ μ :=
  { s with produced := Assoc.put entity document s.produced }

/-- Adds a card to those under way. -/
def enter (card : CardId) (s : Session ρ μ) : Session ρ μ := { s with inProgress := s.inProgress ++ [card] }

@[simp] theorem mapping_enter (card : CardId) (s : Session ρ μ) : (s.enter card).mapping = s.mapping := rfl

@[simp] theorem migrated_enter (card : CardId) (s : Session ρ μ) : (s.enter card).migrated = s.migrated := rfl

@[simp] theorem inProgress_enter (card : CardId) (s : Session ρ μ) :
    (s.enter card).inProgress = s.inProgress ++ [card] := rfl

/-- Takes the last card off those under way. -/
def leave (s : Session ρ μ) : Session ρ μ := { s with inProgress := s.inProgress.dropLast }

/-- How deep migrations of cards may be nested. -/
def depthLimit (s : Session ρ μ) : Nat := s.mapping.moves.destinationCards.length + 1

end Session

/-- Computations of a session that may fail; it is left as it is at the failure. -/
abbrev Migrating (ρ μ : Type) := ExceptT MigrationError (StateM (Session ρ μ))

namespace Migrating

variable {ρ μ : Type}

/-! ## Requests -/

section Requests

variable [Remote ρ]

def fetch (entity : Entity) : Migrating ρ μ Json := fun s =>
  let (answer, remote) := Remote.fetch entity s.remote
  (answer.mapError .remote, { s with remote := remote })

/-- Offers a document to the installation. -/
def offer (entity : Entity) (document : Json) : Migrating ρ μ Nat := fun s =>
  let (answer, remote) := Remote.push entity document s.remote
  (answer.mapError .remote, { s with remote := remote })

/-- Sends a document; one that is not accepted is an error. -/
def send (entity : Entity) (document : Json) : Migrating ρ μ Unit := do
  let status ← offer entity document
  if status ≠ Remote.accepted then throw (.pushRefused entity status)

/-- Sends a document unless documents are kept back, and writes it down. -/
def push (entity : Entity) (document : Json) : Migrating ρ μ Unit := do
  unless (← get).dryRun do send entity document
  modify (·.markProduced entity document)

/-- The document of an entity, which must be an object. -/
def fetchDocument (entity : Entity) : Migrating ρ μ Json := do
  let document ← fetch entity
  match entity.checkDocument document with
  | .ok document => return document
  | .error e => throw e

end Requests

/-! ## Visits -/

section Visits

/-- Carries out a plan: the cards it needs, in order, then its outcome. -/
def carryOut {α : Type} (require : CardId → Migrating ρ μ Unit) (plan : Plan α) : Migrating ρ μ α := do
  plan.needs.forM require
  match plan.outcome with
  | .ok a => return a
  | .error e => throw e

variable [Provider μ]

/-- Translates a text if the session has a translator. -/
def translateText (text : String) : Migrating ρ μ String := fun s =>
  match s.translator with
  | none => (.ok text, s)
  | some translator =>
    let (result, translator) := (Translator.translate text).run.run translator
    (result.mapError .label, { s with translator := some translator })

/-- Renames the references of one place of a document, then translates its labels. -/
def visit (require : CardId → Migrating ρ μ Unit) (owner : Entity) (trail : Trail) (j : Json) :
    Migrating ρ μ Json := do
  if trail.isEmpty then return j
  let j ← carryOut require (Renaming.place ⟨(← get).mapping, owner⟩ trail j)
  Label.mapSlots translateText trail j

/-- Visits all places of the document of an entity. -/
def walkDocument (require : CardId → Migrating ρ μ Unit) (entity : Entity) (document : Json) :
    Migrating ρ μ Json := do
  let ((), document) ← Traversal.run entity.kind
    (fun trail j => do return ((), ← visit require entity trail j)) document
  return document

end Visits

/-! ## Migration -/

section Migration

variable [Remote ρ] [Provider μ]

/-- Migrates one entity; `require` migrates the cards that it needs. -/
def migrateEntity (require : CardId → Migrating ρ μ Unit) (entity : Entity) : Migrating ρ μ Unit := do
  let document ← fetchDocument entity
  let document ← walkDocument require entity document
  push entity document

/-- Runs an action with a card added to those under way. It is taken off afterwards, also if the action fails. -/
def during (card : CardId) (act : Migrating ρ μ Unit) : Migrating ρ μ Unit := fun s =>
  let (result, s) := act (s.enter card)
  (result, s.leave)

/-- Runs the migration of a card unless it has been migrated; a card under way is refused. -/
def once (card : CardId) (act : Migrating ρ μ Unit) : Migrating ρ μ Unit := do
  let s ← get
  if s.isMigrated card then return
  if s.inProgress.contains card then throw (.cyclicReference (s.inProgress ++ [card]))
  during card act
  modify (·.markMigrated card)

/-- Migrates a card, with at most so many migrations of cards inside each other. -/
def migrateCardWithin : Nat → CardId → Migrating ρ μ Unit
  | 0, card => once card (throw (.nestedTooDeep card))
  | depth + 1, card => once card (migrateEntity (migrateCardWithin depth) (.card card))

/-- Migrates a card, after every card it is built on. -/
def migrateCard (card : CardId) : Migrating ρ μ Unit := do
  migrateCardWithin (← get).depthLimit card

/-- Migrates a dashboard, after every card it shows. Dashboards are migrated anew each time. -/
def migrateDashboard (dashboard : DashboardId) : Migrating ρ μ Unit :=
  migrateEntity migrateCard (.dashboard dashboard)

end Migration

/-! ## Labels -/

section Labels

variable [Remote ρ]

/-- The labels of an entity, sorted. -/
def collectLabels (entity : Entity) : Migrating ρ μ (List String) := do
  return (Label.ofDocument entity.kind (← fetchDocument entity)).elements

/-- Replaces labels of an entity and answers how many; without any, nothing is pushed. -/
def relabel (entity : Entity) (replacements : List (String × String)) : Migrating ρ μ Nat := do
  let (count, document) := Label.replace replacements entity.kind (← fetchDocument entity)
  if count = 0 then return 0
  push entity document
  return count

end Labels

end Migrating

end Rehome
