import Mathlib.Data.List.Pairwise
import Rehome.Proofs.Migration.History

/-! # What a session remembers

A session remembers which cards it has migrated and the last document of each entity. `Ledger` relates
both to what the installation has been asked: it holds between calls, and also in the middle of nested
migrations, where the cards under way are not yet among the migrated ones. -/

namespace Rehome

/-- A migration of the card `x` was accepted, so `y` must not be part of another one. -/
def Exchange.LeavesMigrated (x y : Exchange) : Prop :=
  ∀ card document, x = .accepted .migration (.card card) document →
    y.purpose = .migration → y.entity ≠ .card card

/-- What a session remembers agrees with the exchanges so far. -/
structure Ledger (migrated : List CardId) (produced : List (Entity × Json)) (log : List Exchange) :
    Prop where
  mem_migrated_iff : ∀ card, card ∈ migrated ↔ MigrationAccepted card log
  leavesMigrated : log.Pairwise Exchange.LeavesMigrated
  lookup_produced : ∀ entity, produced.lookup entity = lastAccepted? entity log

namespace Ledger

variable {migrated : List CardId} {produced : List (Entity × Json)} {log : List Exchange}

theorem empty : Ledger [] [] [] :=
  ⟨fun card => by simp [MigrationAccepted], .nil, fun entity => rfl⟩

theorem lastAccepted?_append (entity : Entity) (log : List Exchange) (x : Exchange) :
    lastAccepted? entity (log ++ [x]) =
      match x.accepted? with
      | some (e, document) => if entity = e then some document else lastAccepted? entity log
      | none => lastAccepted? entity log := by
  rw [lastAccepted?, List.filterMap_append, List.reverse_append, lastAccepted?]
  rcases h : x.accepted? with _ | ⟨e, document⟩
  · simp [List.filterMap, h]
  · simp [List.filterMap, h, Assoc.lookup_cons]

/-- A migration may ask about any entity but the cards that have been migrated. -/
def Open (migrated : List CardId) (purpose : Purpose) (entity : Entity) : Prop :=
  purpose = .migration → ∀ card, entity = .card card → card ∉ migrated

theorem pairwise_append (h : Ledger migrated produced log) {x : Exchange}
    (hopen : Open migrated x.purpose x.entity) :
    (log ++ [x]).Pairwise Exchange.LeavesMigrated := by
  refine List.pairwise_append.2 ⟨h.leavesMigrated, List.pairwise_singleton _ _, ?_⟩
  intro y hy z hz card document hyx hpurpose hentity
  obtain rfl := List.mem_singleton.1 hz
  exact hopen hpurpose card hentity ((h.mem_migrated_iff card).2 ⟨document, hyx ▸ hy⟩)

/-- An exchange that is no accepted push changes nothing. -/
theorem append (h : Ledger migrated produced log) {x : Exchange}
    (hopen : Open migrated x.purpose x.entity) (hx : x.accepted? = none) :
    Ledger migrated produced (log ++ [x]) where
  mem_migrated_iff card := by
    rw [h.mem_migrated_iff]
    refine exists_congr fun document => ?_
    have hne : Exchange.accepted .migration (.card card) document ≠ x := by
      rintro rfl
      simp [Exchange.accepted, Exchange.accepted?] at hx
    simp [hne]
  leavesMigrated := h.pairwise_append hopen
  lookup_produced entity := by rw [h.lookup_produced, lastAccepted?_append, hx]

theorem lookup_put_of_accepted (h : Ledger migrated produced log) (purpose : Purpose)
    (entity : Entity) (document : Json) (e : Entity) :
    (Assoc.put entity document produced).lookup e =
      lastAccepted? e (log ++ [.accepted purpose entity document]) := by
  rw [Assoc.lookup_put, lastAccepted?_append, h.lookup_produced]
  simp [Exchange.accepted, Exchange.accepted?]

theorem migrationAccepted_append (card : CardId) (purpose : Purpose) (entity : Entity)
    (document : Json) :
    MigrationAccepted card (log ++ [.accepted purpose entity document]) ↔
      MigrationAccepted card log ∨ purpose = .migration ∧ entity = .card card := by
  simp only [MigrationAccepted, List.mem_append, List.mem_singleton, exists_or]
  refine or_congr_right ⟨?_, ?_⟩
  · rintro ⟨d, hd⟩
    simp only [Exchange.accepted, Exchange.push.injEq] at hd
    exact ⟨hd.1.symm, hd.2.1.symm⟩
  · rintro ⟨rfl, rfl⟩
    exact ⟨document, rfl⟩

/-- An accepted push of anything but the migration of a card. -/
theorem append_accepted (h : Ledger migrated produced log) {purpose : Purpose} {entity : Entity}
    (hother : purpose = .migration → entity.kind = .dashboard) (document : Json) :
    Ledger migrated (Assoc.put entity document produced)
      (log ++ [.accepted purpose entity document]) where
  mem_migrated_iff card := by
    rw [h.mem_migrated_iff, migrationAccepted_append, or_iff_left]
    rintro ⟨rfl, rfl⟩
    simpa using hother rfl
  leavesMigrated := h.pairwise_append fun hp card hcard => by
    rw [show (Exchange.accepted purpose entity document).entity = entity from rfl] at hcard
    have hkind := hother hp
    rw [hcard] at hkind
    simp at hkind
  lookup_produced := h.lookup_put_of_accepted purpose entity document

/-- An accepted push of the migration of a card, which is then among the migrated ones. -/
theorem append_migrated (h : Ledger migrated produced log) {card : CardId} (hcard : card ∉ migrated)
    (document : Json) :
    Ledger (insertSorted card migrated) (Assoc.put (.card card) document produced)
      (log ++ [.accepted .migration (.card card) document]) where
  mem_migrated_iff c := by
    rw [mem_insertSorted, h.mem_migrated_iff, migrationAccepted_append, or_comm]
    simp [eq_comm]
  leavesMigrated := h.pairwise_append fun _ c hc => by
    rwa [← Entity.card_inj.1 hc]
  lookup_produced := h.lookup_put_of_accepted .migration (.card card) document

end Ledger

/-! ## States -/

namespace Session

variable {ρ μ : Type}

/-- A session in the middle of its work: what it remembers agrees with the history, and no card under way
is among the migrated ones. -/
structure Consistent (s : Session (Recorded ρ) μ) : Prop where
  ledger : Ledger s.migrated s.produced s.remote.log
  pending : ∀ card ∈ s.inProgress, card ∉ s.migrated
  sends : s.dryRun = false

/-- A consistent session that is carrying out a migration. -/
def Migrates (s : Session (Recorded ρ) μ) : Prop := s.Consistent ∧ s.remote.purpose = .migration

/-- A session that is consistent once `card` has been added to the migrated cards. -/
def Completes (card : CardId) (s : Session (Recorded ρ) μ) : Prop :=
  card ∉ s.migrated ∧
    Ledger (insertSorted card s.migrated) s.produced s.remote.log ∧
    (∀ c ∈ s.inProgress, c ∉ s.migrated) ∧ s.dryRun = false

/-- A card that has not been migrated may be put under way. -/
theorem Migrates.inside {s : Session (Recorded ρ) μ} (hs : s.Migrates) {card : CardId}
    (hcard : card ∉ s.migrated) : Migrates (s.enter card) := by
  refine ⟨⟨hs.1.ledger, fun c hc => ?_, hs.1.sends⟩, hs.2⟩
  rcases List.mem_append.1 hc with hc | hc
  · exact hs.1.pending c hc
  · rwa [List.mem_singleton.1 hc]

theorem consistent_watched (mapping : Mapping) (translator : Option (Translator μ)) (remote : ρ) :
    (watched mapping translator remote).Consistent :=
  ⟨Ledger.empty, fun _ h => absurd h (by simp [watched, new]), rfl⟩

end Session

namespace Migrating

variable {ρ μ : Type}

/-- Every run of the computation leaves a migrating session consistent. -/
def KeepsConsistent (α : Type) (x : Migrating (Recorded ρ) μ α) : Prop :=
  Leads (fun s t => s.Migrates → t.Migrates) α x

theorem closed_keepsConsistent : Closed (KeepsConsistent (ρ := ρ) (μ := μ)) :=
  closed_leads (P := fun s t => s.Migrates → t.Migrates) (fun _ h => h) fun h h' hs => h' (h hs)

theorem visit_keepsConsistent [Provider μ] {require : CardId → Migrating (Recorded ρ) μ Unit}
    (h : ∀ c, KeepsConsistent _ (require c)) (owner : Entity) (trail : Trail) (j : Json) :
    KeepsConsistent _ (visit require owner trail j) :=
  visit_leads (P := fun s t => s.Migrates → t.Migrates) (fun _ hs => hs) (fun h h' hs => h' (h hs))
    (translateText_leads (fun _ hs => hs) fun _ hs => ⟨⟨hs.1.ledger, hs.1.pending, hs.1.sends⟩, hs.2⟩)
    h owner trail j

theorem walkDocument_keepsConsistent [Provider μ] {require : CardId → Migrating (Recorded ρ) μ Unit}
    (h : ∀ c, KeepsConsistent _ (require c)) (entity : Entity) (document : Json) :
    KeepsConsistent _ (walkDocument require entity document) :=
  walkDocument_of_visit closed_keepsConsistent (visit_keepsConsistent h entity) document

variable [Remote ρ]

theorem fetchDocument_consistent {entity : Entity} {s : Session (Recorded ρ) μ} (hs : s.Consistent)
    (hopen : Ledger.Open s.migrated s.remote.purpose entity) :
    (fetchDocument entity s).2.Consistent := by
  obtain ⟨remote, answer, h⟩ := fetchDocument_state entity s
  rw [h]
  exact ⟨hs.ledger.append hopen rfl, hs.pending, hs.sends⟩

omit [Remote ρ] in
theorem exchanged_consistent {entity : Entity} {document : Json} {s : Session (Recorded ρ) μ}
    (hs : s.Consistent) (hopen : Ledger.Open s.migrated s.remote.purpose entity) (remote : ρ)
    {answer : Except RemoteError Nat} (hanswer : answer ≠ .ok Remote.accepted) :
    (exchanged s remote (.push s.remote.purpose entity document answer)).Consistent := by
  have hnone : (Exchange.push s.remote.purpose entity document answer).accepted? = none := by
    cases answer with
    | error e => rfl
    | ok status => exact if_neg fun h => hanswer (congrArg _ h)
  exact ⟨hs.ledger.append hopen hnone, hs.pending, hs.sends⟩

/-- A push that is no migration of a card. -/
theorem push_consistent {entity : Entity} {document : Json} {s : Session (Recorded ρ) μ}
    (hs : s.Consistent) (hother : s.remote.purpose = .migration → entity.kind = .dashboard) :
    (push entity document s).2.Consistent := by
  obtain ⟨remote, h⟩ | ⟨e, remote, answer, hanswer, h⟩ := push_cases entity document hs.sends
  · rw [h]
    exact ⟨hs.ledger.append_accepted hother document, hs.pending, hs.sends⟩
  · rw [h]
    refine exchanged_consistent hs (fun hp card hcard => ?_) remote hanswer
    rw [hcard] at hother
    simpa using hother hp

/-- The push of the migration of a card. -/
theorem push_completes {card : CardId} {document : Json} {s : Session (Recorded ρ) μ}
    (hs : s.Migrates) (hcard : card ∉ s.migrated) :
    (∃ t, push (.card card) document s = (.ok (), t) ∧ t.Completes card) ∨
      ∃ e t, push (.card card) document s = (.error e, t) ∧ t.Consistent := by
  obtain ⟨remote, h⟩ | ⟨e, remote, answer, hanswer, h⟩ := push_cases (.card card) document hs.1.sends
  · refine .inl ⟨_, h, hcard, ?_, hs.1.pending, hs.1.sends⟩
    rw [hs.2]
    exact hs.1.ledger.append_migrated hcard document
  · refine .inr ⟨e, _, h, exchanged_consistent hs.1 (fun _ c hc => ?_) remote hanswer⟩
    rwa [← Entity.card_inj.1 hc]

/-! ## Migrations -/

section Migration

variable [Provider μ] {require : CardId → Migrating (Recorded ρ) μ Unit}

omit [Provider μ] in
theorem fetchDocument_migrates {entity : Entity} {s : Session (Recorded ρ) μ} (hs : s.Migrates)
    (hopen : ∀ card, entity = .card card → card ∉ s.migrated) :
    (fetchDocument entity s).2.Migrates :=
  ⟨fetchDocument_consistent hs.1 fun _ => hopen,
    (Session.Later.stable.fetchDocument entity s).purpose.trans hs.2⟩

/-- The state in which a document is pushed, or the failure before that. -/
theorem migrateEntity_consistent (hrequire : ∀ c, KeepsConsistent _ (require c))
    (hsteady : ∀ c, Leads Session.Steady _ (require c)) {entity : Entity}
    {s : Session (Recorded ρ) μ} (hs : s.Migrates)
    (hopen : ∀ card, entity = .card card → card ∉ s.migrated) :
    (∃ document t, t.Migrates ∧ t.inProgress = s.inProgress ∧
      migrateEntity require entity s = push entity document t) ∨
    ∃ e t, t.Consistent ∧ migrateEntity require entity s = (.error e, t) := by
  have hfetched := fetchDocument_migrates hs hopen
  have hfetch := Session.Steady.stable.fetchDocument entity s
  obtain ⟨e, t, ht, h⟩ | ⟨document, t, ht, hwalk⟩ := migrateEntity_cases require entity s
  · rw [ht] at hfetched
    exact .inr ⟨e, t, hfetched.1, h⟩
  rw [ht] at hfetched hfetch
  have hwalked := walkDocument_keepsConsistent hrequire entity document t hfetched
  have hchain := Session.Steady.stable.walkDocument hsteady entity document t
  obtain ⟨e, u, hu, h⟩ | ⟨document', u, hu, h⟩ := hwalk
  · rw [hu] at hwalked
    exact .inr ⟨e, u, hwalked.1, h⟩
  · rw [hu] at hwalked hchain
    exact .inl ⟨document', u, hwalked, hchain.inProgress.trans hfetch.inProgress, h⟩

omit [Remote ρ] [Provider μ] in
/-- What is carried out with a card under way must leave the card as the only one still to be added. -/
theorem once_keepsConsistent (card : CardId) {act : Migrating (Recorded ρ) μ Unit}
    (hsteady : Leads Session.Steady _ act) (hlater : Leads Session.Later _ act)
    (hact : ∀ s, s.Migrates → card ∈ s.inProgress →
      (∃ t, act s = (.ok (), t) ∧ t.Completes card) ∨ ∃ e t, act s = (.error e, t) ∧ t.Consistent) :
    KeepsConsistent _ (once card act) := by
  intro s hs
  rw [once_apply]
  split
  · exact hs
  split
  · exact hs
  next hnew hout =>
  have hcard : card ∉ s.migrated := by simpa [Session.isMigrated] using hnew
  have hchain : card ∉ s.inProgress := by simpa using hout
  have hsteady := hsteady (s.enter card)
  have hlater := hlater (s.enter card)
  have hmem : ∀ c ∈ s.inProgress, c ∈ s.inProgress ++ [card] := fun c => List.mem_append_left _
  rw [bind_apply, during_apply hsteady.inProgress]
  rcases hact _ (hs.inside hcard) (by simp) with ⟨t, h, hnot, hledger, hpending, hsends⟩ | ⟨e, t, h, ht⟩ <;>
    rw [h] at hsteady hlater ⊢
  · refine ⟨⟨hledger, fun c hc hmigrated => ?_, hsends⟩, hlater.purpose.trans hs.2⟩
    rcases mem_insertSorted.1 hmigrated with rfl | hmigrated
    · exact hchain hc
    · exact hpending c (hsteady.inProgress ▸ hmem c hc) hmigrated
  · refine ⟨⟨ht.ledger, fun c hc => ?_, ht.sends⟩, hlater.purpose.trans hs.2⟩
    exact ht.pending c (hsteady.inProgress ▸ hmem c hc)

theorem migrateCardWithin_keepsConsistent (depth : Nat) (card : CardId) :
    KeepsConsistent (ρ := ρ) (μ := μ) _ (migrateCardWithin depth card) := by
  induction depth generalizing card with
  | zero =>
    exact once_keepsConsistent card (Session.Steady.stable.throw _) (Session.Later.stable.throw _)
      fun s hs _ => .inr ⟨_, s, rfl, hs.1⟩
  | succ depth ih =>
    have hsteady := Session.Steady.stable.migrateCardWithin (ρ := Recorded ρ) (μ := μ) depth
    have hlater := Session.Later.stable.migrateCardWithin (ρ := Recorded ρ) (μ := μ) depth
    refine once_keepsConsistent card (Session.Steady.stable.migrateEntity hsteady _)
      (Session.Later.stable.migrateEntity hlater _) fun s hs hmem => ?_
    have hopen : ∀ c, Entity.card card = .card c → c ∉ s.migrated := fun c hc =>
      Entity.card_inj.1 hc ▸ hs.1.pending card hmem
    rcases migrateEntity_consistent ih hsteady hs hopen with ⟨document, t, ht, hchain, h⟩ | ⟨e, t, ht, h⟩
    · rw [h]
      exact push_completes ht (ht.1.pending card (hchain ▸ hmem))
    · exact .inr ⟨e, t, h, ht⟩

theorem migrateCard_keepsConsistent (card : CardId) :
    KeepsConsistent (ρ := ρ) (μ := μ) _ (migrateCard card) := by
  intro s
  rw [migrateCard_apply]
  exact migrateCardWithin_keepsConsistent s.depthLimit card s

theorem migrateDashboard_consistent (dashboard : DashboardId) {s : Session (Recorded ρ) μ}
    (hs : s.Migrates) : (migrateDashboard dashboard s).2.Consistent := by
  have hsteady := Session.Steady.stable.migrateCard (ρ := Recorded ρ) (μ := μ)
  have hopen : ∀ card, Entity.dashboard dashboard = .card card → card ∉ s.migrated := fun card h => by
    simpa using congrArg Entity.kind h
  obtain ⟨document, t, ht, -, h⟩ | ⟨e, t, ht, h⟩ :=
    migrateEntity_consistent migrateCard_keepsConsistent hsteady hs hopen
  · rw [migrateDashboard, h]
    exact push_consistent ht.1 fun _ => rfl
  · rw [migrateDashboard, h]
    exact ht

end Migration

/-! ## Calls -/

theorem relabel_consistent (entity : Entity) (replacements : List (String × String))
    {s : Session (Recorded ρ) μ} (hs : s.Consistent) (hpurpose : s.remote.purpose = .labels) :
    (relabel entity replacements s).2.Consistent := by
  have hfetch : (fetchDocument entity s).2.Consistent :=
    fetchDocument_consistent hs (by simp [Ledger.Open, hpurpose])
  have hlater := Session.Later.stable.fetchDocument entity s
  rw [relabel]
  rcases h : fetchDocument entity s with ⟨e | document, t⟩ <;> rw [h] at hfetch hlater
  · rwa [bind_of_error h]
  rw [bind_of_ok h]
  rcases Label.replace replacements entity.kind document with ⟨count, document⟩
  dsimp only
  split
  · exact hfetch
  have hlabels : t.remote.purpose = .labels := hlater.purpose.trans hpurpose
  rw [bind_pure_state]
  exact push_consistent hfetch (by simp [hlabels])

theorem collectLabels_consistent (entity : Entity) {s : Session (Recorded ρ) μ} (hs : s.Consistent)
    (hpurpose : s.remote.purpose = .labels) : (collectLabels entity s).2.Consistent := by
  have hfetch : (fetchDocument entity s).2.Consistent :=
    fetchDocument_consistent hs (by simp [Ledger.Open, hpurpose])
  rwa [collectLabels, bind_pure_state]

variable [Provider μ]

theorem perform_consistent (call : Call) {s : Session (Recorded ρ) μ} (hs : s.Consistent) :
    (call.perform (s.announce call)).2.Consistent := by
  have hannounce : (s.announce call).Consistent := ⟨hs.ledger, hs.pending, hs.sends⟩
  cases call with
  | migrate entity =>
    obtain ⟨kind, id⟩ := entity
    cases kind with
    | card => exact (migrateCard_keepsConsistent ⟨id⟩ _ ⟨hannounce, rfl⟩).1
    | dashboard => exact migrateDashboard_consistent ⟨id⟩ ⟨hannounce, rfl⟩
  | relabel entity replacements =>
    rw [Call.perform, discard_apply]
    exact relabel_consistent entity replacements hannounce rfl
  | collectLabels entity =>
    rw [Call.perform, discard_apply]
    exact collectLabels_consistent entity hannounce rfl

end Migrating

namespace Session

variable {ρ μ : Type} [Remote ρ] [Provider μ]

theorem record_consistent (calls : List Call) {s : Session (Recorded ρ) μ} (hs : s.Consistent) :
    (s.record calls).Consistent := by
  induction calls generalizing s with
  | nil => exact hs
  | cons call calls ih => exact ih (Migrating.perform_consistent call hs)

/-- After any calls on a new session, no card is under way; the migrated cards are those whose migration
was accepted; a card whose migration was accepted was neither accepted before nor is asked about by any
migration afterwards; and the document of an entity that is remembered is the one accepted last. -/
theorem record_bookkeeping (mapping : Mapping) (translator : Option (Translator μ)) (remote : ρ)
    (calls : List Call) :
    let s := (watched mapping translator remote).record calls
    s.inProgress = [] ∧
    (∀ card, s.isMigrated card ↔ MigrationAccepted card s.remote.log) ∧
    (∀ card document before after,
      s.remote.log = before ++ .accepted .migration (.card card) document :: after →
      ¬MigrationAccepted card before ∧
        ∀ x ∈ after, x.purpose = .migration → x.entity ≠ .card card) ∧
    ∀ entity, s.produced? entity = lastAccepted? entity s.remote.log := by
  intro s
  have hs : s.Consistent := record_consistent calls (consistent_watched mapping translator remote)
  refine ⟨record_inProgress calls _, fun card => ?_, fun card document before after hlog => ?_,
    hs.ledger.lookup_produced⟩
  · rw [← hs.ledger.mem_migrated_iff]
    simp [isMigrated]
  · have hpairwise := hs.ledger.leavesMigrated
    rw [hlog, List.pairwise_append, List.pairwise_cons] at hpairwise
    obtain ⟨-, ⟨hafter, -⟩, hbefore⟩ := hpairwise
    refine ⟨?_, fun x hx => hafter x hx card document rfl⟩
    rintro ⟨d, hd⟩
    exact hbefore _ hd _ List.mem_cons_self card d rfl rfl rfl

end Session

end Rehome
