import Rehome.Proofs.Migration.Watching

/-! # Histories of sessions

What a session was asked for, call by call, and what it asked of the installation for that. Any
installation can be made to write down its exchanges; that a session is watched in this way changes
nothing (`forget_record`). -/

namespace Rehome

/-! ## Exchanges -/

/-- What a request is made for. -/
inductive Purpose where
  | migration
  | labels
deriving DecidableEq, Repr

/-- A request to an installation, with its answer. -/
inductive Exchange where
  | fetch (purpose : Purpose) (entity : Entity) (answer : Except RemoteError Json)
  | push (purpose : Purpose) (entity : Entity) (document : Json) (answer : Except RemoteError Nat)

namespace Exchange

def purpose : Exchange → Purpose
  | .fetch purpose _ _ | .push purpose _ _ _ => purpose

def entity : Exchange → Entity
  | .fetch _ entity _ | .push _ entity _ _ => entity

/-- A push that was accepted. -/
def accepted (purpose : Purpose) (entity : Entity) (document : Json) : Exchange :=
  .push purpose entity document (.ok Remote.accepted)

/-- The entity and the document of a push that was accepted. -/
def accepted? : Exchange → Option (Entity × Json)
  | .push _ entity document (.ok status) =>
    if status = Remote.accepted then some (entity, document) else none
  | _ => none

end Exchange

/-- The document of the last push of an entity that was accepted. -/
def lastAccepted? (entity : Entity) (log : List Exchange) : Option Json :=
  (log.filterMap Exchange.accepted?).reverse.lookup entity

/-- Has a migration of the card been accepted? -/
def MigrationAccepted (card : CardId) (log : List Exchange) : Prop :=
  ∃ document, .accepted .migration (.card card) document ∈ log

/-! ## Installations that are watched -/

/-- An installation that writes down its exchanges, with what they were for. -/
structure Recorded (ρ : Type) where
  remote : ρ
  /-- What the requests at present are for. -/
  purpose : Purpose
  log : List Exchange

instance {ρ : Type} [Remote ρ] : Remote (Recorded ρ) where
  fetch entity r :=
    let (answer, remote) := Remote.fetch entity r.remote
    (answer, { r with remote := remote, log := r.log ++ [.fetch r.purpose entity answer] })
  push entity document r :=
    let (answer, remote) := Remote.push entity document r.remote
    (answer, { r with remote := remote, log := r.log ++ [.push r.purpose entity document answer] })

/-! ## Calls -/

/-- Migrates a card or a dashboard. -/
def Migrating.migrate {ρ μ : Type} [Remote ρ] [Provider μ] : Entity → Migrating ρ μ Unit
  | ⟨.card, id⟩ => migrateCard ⟨id⟩
  | ⟨.dashboard, id⟩ => migrateDashboard ⟨id⟩

/-- What a session is asked for. -/
inductive Call where
  | migrate (entity : Entity)
  | relabel (entity : Entity) (replacements : List (String × String))
  | collectLabels (entity : Entity)
deriving DecidableEq, Repr

namespace Call

def purpose : Call → Purpose
  | .migrate _ => .migration
  | .relabel _ _ | .collectLabels _ => .labels

variable {ρ μ : Type} [Remote ρ] [Provider μ]

/-- Carries out a call; of what it answers, only the failure is kept. -/
def perform : Call → Migrating ρ μ Unit
  | .migrate entity => Migrating.migrate entity
  | .relabel entity replacements => discard (Migrating.relabel entity replacements)
  | .collectLabels entity => discard (Migrating.collectLabels entity)

end Call

theorem Migrating.Stable.perform {ρ μ : Type} [Remote ρ] [Provider μ]
    {P : Session ρ μ → Session ρ μ → Prop} (hP : Stable P) (call : Call) : Leads P _ call.perform := by
  cases call with
  | migrate entity =>
    obtain ⟨kind, id⟩ := entity
    cases kind with
    | card => exact hP.migrateCard ⟨id⟩
    | dashboard => exact hP.migrateDashboard ⟨id⟩
  | relabel entity replacements =>
    intro s
    rw [Call.perform, discard_apply]
    exact hP.relabel entity replacements s
  | collectLabels entity =>
    intro s
    rw [Call.perform, discard_apply]
    exact hP.collectLabels entity s

/-- A call that has been carried out, with its result and the state after it. -/
structure Performed (ρ μ : Type) where
  call : Call
  result : Except MigrationError Unit
  state : Session ρ μ

namespace Session

variable {ρ μ : Type} [Remote ρ] [Provider μ]

/-- Carries out calls in order. -/
def performed : List Call → Session ρ μ → List (Performed ρ μ)
  | [], _ => []
  | call :: calls, s =>
    ⟨call, (call.perform s).1, (call.perform s).2⟩ :: performed calls (call.perform s).2

/-- The state after some calls, each of which may have failed. -/
def after (calls : List Call) (s : Session ρ μ) : Session ρ μ :=
  calls.foldl (fun s call => (call.perform s).2) s

/-- The state before a call is carried out on an installation that is watched. -/
def announce (call : Call) (s : Session (Recorded ρ) μ) : Session (Recorded ρ) μ :=
  { s with remote := { s.remote with purpose := call.purpose } }

/-- The state after some calls on an installation that is watched. -/
def record (calls : List Call) (s : Session (Recorded ρ) μ) : Session (Recorded ρ) μ :=
  calls.foldl (fun s call => (call.perform (s.announce call)).2) s

/-- A new session on an installation that is watched from now on. -/
def watched (mapping : Mapping) (translator : Option (Translator μ)) (remote : ρ) :
    Session (Recorded ρ) μ :=
  { (new mapping ⟨remote, .migration, []⟩ : Session (Recorded ρ) μ) with translator := translator }

/-- The state without what has been written down. -/
def forget (s : Session (Recorded ρ) μ) : Session ρ μ :=
  ⟨s.mapping, s.remote.remote, s.translator, s.dryRun, s.migrated, s.inProgress, s.produced⟩

end Session

/-! ## Histories grow -/

/-- A later state while the session is asked for the same: the history has only grown. -/
structure Session.Later {ρ μ : Type} (s t : Session (Recorded ρ) μ) : Prop where
  purpose : t.remote.purpose = s.remote.purpose
  log : s.remote.log <+: t.remote.log

namespace Session.Later

variable {ρ μ : Type}

theorem trans {s t u : Session (Recorded ρ) μ} (h : s.Later t) (h' : t.Later u) : s.Later u :=
  ⟨h'.purpose.trans h.purpose, h.log.trans h'.log⟩

theorem stable [Remote ρ] : Migrating.Stable (Later (ρ := ρ) (μ := μ)) where
  refl _ := ⟨rfl, List.prefix_rfl⟩
  trans := trans
  fetch _ _ := ⟨rfl, List.prefix_append _ _⟩
  push _ _ _ := ⟨rfl, List.prefix_append _ _⟩
  translator _ := ⟨rfl, List.prefix_rfl⟩
  markProduced _ _ _ := ⟨rfl, List.prefix_rfl⟩
  markMigrated _ _ := ⟨rfl, List.prefix_rfl⟩
  inside h := ⟨h.purpose, h.log⟩

end Session.Later

/-- The cards under way are the same after any calls. -/
theorem Session.record_inProgress {ρ μ : Type} [Remote ρ] [Provider μ] (calls : List Call)
    (s : Session (Recorded ρ) μ) : (s.record calls).inProgress = s.inProgress := by
  induction calls generalizing s with
  | nil => rfl
  | cons call calls ih =>
    exact (ih _).trans (Session.Steady.stable.perform call (s.announce call)).inProgress

/-! ## Single requests -/

namespace Migrating

variable {ρ μ : Type} [Remote ρ]

/-- The state after an exchange with the installation. -/
def exchanged (s : Session (Recorded ρ) μ) (remote : ρ) (x : Exchange) : Session (Recorded ρ) μ :=
  { s with remote := { s.remote with remote := remote, log := s.remote.log ++ [x] } }

theorem fetchDocument_state (entity : Entity) (s : Session (Recorded ρ) μ) :
    ∃ remote answer,
      (fetchDocument entity s).2 = exchanged s remote (.fetch s.remote.purpose entity answer) := by
  refine ⟨(Remote.fetch entity s.remote.remote).2, (Remote.fetch entity s.remote.remote).1, ?_⟩
  have hfetch : fetch entity s = ((Remote.fetch entity s.remote.remote).1.mapError .remote,
      exchanged s (Remote.fetch entity s.remote.remote).2
        (.fetch s.remote.purpose entity (Remote.fetch entity s.remote.remote).1)) := rfl
  rw [fetchDocument, bind_apply, hfetch]
  cases (Remote.fetch entity s.remote.remote).1 with
  | error e => rfl
  | ok document =>
    dsimp only [Except.mapError]
    cases entity.checkDocument document <;> rfl

/-- A document that was fetched is the one that is written down. -/
theorem fetchDocument_of_ok {entity : Entity} {document : Json} {s t : Session (Recorded ρ) μ}
    (h : fetchDocument entity s = (.ok document, t)) :
    ∃ remote, t = exchanged s remote (.fetch s.remote.purpose entity (.ok document)) := by
  have hfetch : fetch entity s = ((Remote.fetch entity s.remote.remote).1.mapError .remote,
      exchanged s (Remote.fetch entity s.remote.remote).2
        (.fetch s.remote.purpose entity (Remote.fetch entity s.remote.remote).1)) := rfl
  refine ⟨(Remote.fetch entity s.remote.remote).2, ?_⟩
  rw [fetchDocument, bind_apply, hfetch] at h
  cases hanswer : (Remote.fetch entity s.remote.remote).1 with
  | error e =>
    rw [hanswer] at h
    cases h
  | ok fetched =>
    rw [hanswer] at h
    by_cases hobj : fetched.isObj
    · simp only [Except.mapError, Entity.checkDocument, if_pos hobj, pure_apply] at h
      obtain ⟨hdocument, rfl⟩ := Prod.mk.inj h
      rw [Except.ok.inj hdocument]
    · simp only [Except.mapError, Entity.checkDocument, if_neg hobj, throw_apply] at h
      cases h

/-- A push that is not kept back is written down; what is remembered changes if it was accepted. -/
theorem push_cases (entity : Entity) (document : Json) {s : Session (Recorded ρ) μ}
    (hs : s.dryRun = false) :
    (∃ remote, push entity document s =
      (.ok (), (exchanged s remote (.accepted s.remote.purpose entity document)).markProduced
        entity document)) ∨
    ∃ e remote answer, answer ≠ .ok Remote.accepted ∧ push entity document s =
      (.error e, exchanged s remote (.push s.remote.purpose entity document answer)) := by
  have hoffer : offer entity document s =
      ((Remote.push entity document s.remote.remote).1.mapError .remote,
        exchanged s (Remote.push entity document s.remote.remote).2
          (.push s.remote.purpose entity document (Remote.push entity document s.remote.remote).1)) :=
    rfl
  rw [push_apply, if_neg (by simp [hs]), send, bind_assoc, bind_apply, hoffer]
  generalize (Remote.push entity document s.remote.remote).2 = remote
  cases (Remote.push entity document s.remote.remote).1 with
  | error e => exact .inr ⟨.remote e, remote, .error e, by simp, rfl⟩
  | ok status =>
    dsimp only [Except.mapError]
    by_cases hstatus : status = Remote.accepted
    · subst hstatus
      exact .inl ⟨remote, rfl⟩
    · refine .inr ⟨.pushRefused entity status, remote, .ok status, by simp [hstatus], ?_⟩
      rw [if_pos hstatus]
      rfl

end Migrating

/-! ## Watching changes nothing -/

variable {ρ μ : Type}

/-- An installation that writes down its exchanges answers as it would otherwise. -/
theorem Recorded.watches [Remote ρ] : Remote.Watches (Recorded.remote (ρ := ρ)) :=
  ⟨fun _ _ => rfl, fun _ _ _ => rfl⟩

namespace Migrating

variable [Remote ρ] [Provider μ]

theorem perform_forgets (call : Call) :
    Forgets (Recorded.remote (ρ := ρ)) (μ := μ) _ call.perform call.perform := by
  have hwatches := Recorded.watches (ρ := ρ)
  cases call with
  | migrate entity =>
    obtain ⟨kind, id⟩ := entity
    cases kind with
    | card => exact migrateCard_forgets hwatches ⟨id⟩
    | dashboard => exact migrateEntity_forgets hwatches (migrateCard_forgets hwatches) _
  | relabel entity replacements =>
    refine compatible_forgets.map (compatible_forgets.bind (fetchDocument_forgets hwatches entity)
      fun document => ?_) _
    rcases Label.replace replacements entity.kind document with ⟨count, document⟩
    dsimp only
    split
    · exact compatible_forgets.pure 0
    · exact compatible_forgets.bind (push_forgets hwatches entity document) fun _ =>
        compatible_forgets.pure count
  | collectLabels entity =>
    exact compatible_forgets.map (compatible_forgets.bind (fetchDocument_forgets hwatches entity)
      fun _ => compatible_forgets.pure _) _

theorem perform_forget (call : Call) (s : Session (Recorded ρ) μ) :
    call.perform s.forget = ((call.perform s).1, (call.perform s).2.forget) := perform_forgets call s

/-- A call that fails fails in the same way when it is watched. -/
theorem perform_error_of_forget (call : Call) (s : Session (Recorded ρ) μ) {e : MigrationError}
    (h : (call.perform s.forget).1 = .error e) : ∃ t, call.perform s = (.error e, t) := by
  rw [perform_forget] at h
  exact ⟨(call.perform s).2, Prod.ext h rfl⟩

end Migrating

/-- A session that is watched does what it would do otherwise. -/
theorem Session.forget_record {ρ μ : Type} [Remote ρ] [Provider μ] (calls : List Call)
    (s : Session (Recorded ρ) μ) : (s.record calls).forget = s.forget.after calls := by
  induction calls generalizing s with
  | nil => rfl
  | cons call calls ih =>
    have hcall := Migrating.perform_forget call (s.announce call)
    show (record calls (call.perform (s.announce call)).2).forget = after calls (call.perform s.forget).2
    rw [ih, ← show (s.announce call).forget = s.forget from rfl, hcall]

end Rehome
