import Rehome.Proofs.Migration.Bookkeeping
import Rehome.Proofs.Reference.Sources

/-! # The order of migrations

Whatever a pushed document is built on has been migrated before. The walk of a document is related to a
walk on sets of results, in which a card counts as available when its migration has been accepted by the
end of the walk. So every document that a migration pushes is a result of such a walk (`Renamed`), and what
may come out of that walk is built on available cards alone. -/

namespace Rehome

attribute [local instance] Set.monad

/-- The migration of every card that a document is built on was accepted before a migration pushed the
document. -/
def DependenciesFirst (log : List Exchange) : Prop :=
  ∀ before entity document answer after,
    log = before ++ .push .migration entity document answer :: after →
    ∀ c, BuiltOn entity.kind document c → MigrationAccepted c before

theorem MigrationAccepted.mono {card : CardId} {log log' : List Exchange}
    (h : MigrationAccepted card log) (hlog : log <+: log') : MigrationAccepted card log' := by
  obtain ⟨document, hdocument⟩ := h
  exact ⟨document, hlog.subset hdocument⟩

/-- Every document that a migration pushed is what came of the renaming of some document, with those cards
available whose migration was accepted before. -/
def Renamed (mapping : Mapping) (log : List Exchange) : Prop :=
  ∀ before entity document answer after,
    log = before ++ .push .migration entity document answer :: after →
    ∃ d, document ∈ Walk.document entity.kind
      (Renaming.outcomes {c | MigrationAccepted c before} ⟨mapping, entity⟩) [] d

namespace Renamed

variable {mapping : Mapping} {log : List Exchange}

theorem dependenciesFirst (h : Renamed mapping log) : DependenciesFirst log := by
  intro before entity document answer after hlog c hc
  obtain ⟨d, hd⟩ := h before entity document answer after hlog
  exact Renaming.builtOn_available hd hc

theorem empty : Renamed mapping [] := by
  intro before entity document answer after h
  simp at h

theorem append (h : Renamed mapping log) {x : Exchange}
    (hx : ∀ entity document answer, x = .push .migration entity document answer →
      ∃ d, document ∈ Walk.document entity.kind
        (Renaming.outcomes {c | MigrationAccepted c log} ⟨mapping, entity⟩) [] d) :
    Renamed mapping (log ++ [x]) := by
  intro before entity document answer after hlog
  rcases List.eq_nil_or_concat after with rfl | ⟨after, y, rfl⟩
  · obtain ⟨rfl, hx'⟩ := List.append_inj' hlog rfl
    exact hx entity document answer (List.singleton_inj.1 hx')
  · have hsplit : log ++ [x] = (before ++ .push .migration entity document answer :: after) ++ [y] := by
      rw [hlog, List.concat_eq_append, List.append_assoc, List.cons_append]
    exact h before entity document answer after (List.append_inj' hsplit rfl).1

end Renamed

/-- What happens to a session in the course of a migration. -/
structure Session.Advances {ρ μ : Type} (s t : Session (Recorded ρ) μ) : Prop where
  migrates : s.Migrates → t.Migrates
  steady : s.Steady t
  later : s.Later t
  order : s.Migrates → Renamed s.mapping s.remote.log → Renamed t.mapping t.remote.log

theorem Session.Advances.refl {ρ μ : Type} (s : Session (Recorded ρ) μ) : s.Advances s :=
  ⟨id, ⟨rfl, rfl, rfl⟩, ⟨rfl, List.prefix_rfl⟩, fun _ => id⟩

theorem Session.Advances.trans {ρ μ : Type} {s t u : Session (Recorded ρ) μ} (h : s.Advances t)
    (h' : t.Advances u) : s.Advances u where
  migrates := h'.migrates ∘ h.migrates
  steady := h.steady.trans h'.steady
  later := h.later.trans h'.later
  order hs := h'.order (h.migrates hs) ∘ h.order hs

namespace Migrating

variable {ρ μ : Type} {mapping : Mapping} {available : Set CardId}

/-- A computation advances a migrating session, and results in one of a set of values if all cards are
available whose migration has been accepted by then. -/
def Attains (mapping : Mapping) (available : Set CardId) (α : Type) (x : Migrating (Recorded ρ) μ α)
    (results : Set α) : Prop :=
  ∀ s, s.Migrates → s.mapping = mapping → s.Advances (x s).2 ∧
    ∀ a, (x s).1 = .ok a → (∀ c, MigrationAccepted c (x s).2.remote.log → c ∈ available) → a ∈ results

theorem compatible_attains : Compatible (Attains (ρ := ρ) (μ := μ) mapping available) where
  pure a s hs hm := by
    refine ⟨.refl s, fun b hb _ => ?_⟩
    obtain rfl : a = b := Except.ok.inj hb
    exact rfl
  bind {α β x xs f fs} hx hf s hs hm := by
    obtain ⟨hadvances, hresult⟩ := hx s hs hm
    rcases h : x s with ⟨e | a, t⟩ <;> rw [h] at hadvances hresult
    · rw [bind_of_error h]
      exact ⟨hadvances, fun b hb => by simp at hb⟩
    · rw [bind_of_ok h]
      obtain ⟨hadvances', hresult'⟩ := hf a t (hadvances.migrates hs) (hadvances.steady.mapping.trans hm)
      refine ⟨hadvances.trans hadvances', fun b hb haccepted => ?_⟩
      have ha : a ∈ xs := hresult a rfl fun c hc => haccepted c (hc.mono hadvances'.later.log)
      exact Json.mem_bind.2 ⟨a, ha, hresult' b hb haccepted⟩

/-- A way to require cards that succeeds only if the card has been migrated. -/
def Provides (require : CardId → Migrating (Recorded ρ) μ Unit) : Prop :=
  ∀ mapping available c, Attains mapping available Unit (require c) {_u | c ∈ available}

theorem mem_forM {cards : List CardId} {u : Unit} :
    u ∈ cards.forM (fun c => ({_u | c ∈ available} : Set Unit)) ↔ ∀ c ∈ cards, c ∈ available := by
  induction cards with
  | nil => simp
  | cons c cards ih =>
    rw [List.forM, Json.mem_bind, List.forall_mem_cons, ← ih]
    constructor
    · rintro ⟨_, hc, hcards⟩
      exact ⟨hc, hcards⟩
    · rintro ⟨hc, hcards⟩
      exact ⟨(), hc, hcards⟩

theorem carryOut_attains {α : Type} {require : CardId → Migrating (Recorded ρ) μ Unit}
    (h : Provides require) (plan : Plan α) :
    Attains mapping available α (carryOut require plan) (plan.results available) := by
  have hneeds := (compatible_attains (ρ := ρ) (μ := μ)).forM (h mapping available) plan.needs
  have hresults : plan.results available = plan.needs.forM (fun c => ({_u | c ∈ available} : Set Unit)) >>=
      fun _ => {a | plan.outcome = .ok a} := by
    ext a
    rw [Json.mem_bind]
    simp only [mem_forM, Plan.results, Set.mem_ofPred_eq, exists_and_left, exists_const, and_comm]
  rw [hresults]
  refine compatible_attains.bind hneeds fun _ => ?_
  cases plan.outcome with
  | ok a =>
    intro s hs hm
    exact ⟨.refl s, fun b hb _ => hb⟩
  | error e =>
    intro s hs hm
    exact ⟨.refl s, fun b hb _ => by simp at hb⟩

theorem visit_attains [Provider μ] {require : CardId → Migrating (Recorded ρ) μ Unit}
    (h : Provides require) (owner : Entity) (trail : Trail) (j : Json) :
    Attains mapping available Json (visit require owner trail j)
      (Renaming.outcomes available ⟨mapping, owner⟩ trail j) := by
  have htranslate : ∀ text, Attains (ρ := ρ) (μ := μ) mapping available String (translateText text)
      Set.univ := by
    intro text s hs hm
    rw [translateText]
    split
    · exact ⟨.refl s, fun _ _ _ => trivial⟩
    · refine ⟨⟨fun hs => ⟨⟨hs.1.ledger, hs.1.pending, hs.1.sends⟩, hs.2⟩, ⟨rfl, rfl, rfl⟩,
        ⟨rfl, List.prefix_rfl⟩, fun _ => id⟩, fun _ _ _ => trivial⟩
  intro s hs hm
  rw [visit_apply]
  split
  · next hempty =>
    obtain rfl : trail = [] := by simpa using hempty
    refine ⟨.refl s, fun b hb _ => ?_⟩
    obtain rfl : j = b := Except.ok.inj hb
    exact Json.mem_bind.2 ⟨j, by simp [Renaming.place, Trail.kind?], rfl⟩
  · rw [hm]
    exact compatible_attains.bind (carryOut_attains h _)
      (compatible_attains.mapSlots htranslate trail) s hs hm

theorem walkDocument_attains [Provider μ] {require : CardId → Migrating (Recorded ρ) μ Unit}
    (h : Provides require) (entity : Entity) (document : Json) :
    Attains mapping available Json (walkDocument require entity document)
      (Walk.document entity.kind (Renaming.outcomes available ⟨mapping, entity⟩) [] document) :=
  walkDocument_compatible compatible_attains (visit_attains h entity) document

/-! ## Requests -/

section Requests

variable [Remote ρ]

theorem fetchDocument_renamed (entity : Entity) {s : Session (Recorded ρ) μ}
    (h : Renamed s.mapping s.remote.log) :
    Renamed (fetchDocument entity s).2.mapping (fetchDocument entity s).2.remote.log := by
  obtain ⟨remote, answer, hstate⟩ := fetchDocument_state entity s
  rw [hstate]
  exact h.append fun _ _ _ hx => by simp at hx

theorem push_renamed {entity : Entity} {document : Json} {s : Session (Recorded ρ) μ}
    (hs : s.dryRun = false) (h : Renamed s.mapping s.remote.log)
    (hdocument : ∃ d, document ∈ Walk.document entity.kind
      (Renaming.outcomes {c | MigrationAccepted c s.remote.log} ⟨s.mapping, entity⟩) [] d) :
    Renamed (push entity document s).2.mapping (push entity document s).2.remote.log := by
  have happend : ∀ answer, Renamed s.mapping
      (s.remote.log ++ [.push s.remote.purpose entity document answer]) := by
    intro answer
    refine h.append fun e d answer' hx => ?_
    obtain ⟨-, rfl, rfl, -⟩ := Exchange.push.inj hx
    exact hdocument
  obtain ⟨remote, hpush⟩ | ⟨e, remote, answer, -, hpush⟩ := push_cases entity document hs
  · rw [hpush]
    exact happend _
  · rw [hpush]
    exact happend answer

end Requests

/-! ## Migrations -/

section Migration

/-- What is carried out with a card under way must respect the order. -/
theorem once_attains (card : CardId) {act : Migrating (Recorded ρ) μ Unit}
    (hkeeps : KeepsConsistent _ (once card act)) (hsteady : Leads Session.Steady _ (once card act))
    (hlater : Leads Session.Later _ (once card act))
    (horder : ∀ s, s.Migrates → card ∈ s.inProgress → Renamed s.mapping s.remote.log →
      Renamed (act s).2.mapping (act s).2.remote.log) :
    Attains mapping available Unit (once card act) {_u | card ∈ available} := by
  intro s hs _
  refine ⟨⟨hkeeps s, hsteady s, hlater s, fun hs h => ?_⟩, fun u hu haccepted => ?_⟩
  · rw [once_apply]
    split
    · exact h
    next hnew =>
    split
    · exact h
    have hcard : card ∉ s.migrated := by simpa [Session.isMigrated] using hnew
    have hact := horder (s.enter card) (hs.inside hcard) (by simp) h
    rw [bind_apply, during]
    rcases hstate : act (s.enter card) with ⟨e | u, t⟩ <;>
      rw [hstate] at hact
    · exact hact
    · exact hact
  · have hmigrated := isMigrated_once hu
    exact haccepted card (((hkeeps s hs).1.ledger.mem_migrated_iff card).1 hmigrated)

variable [Remote ρ] [Provider μ]

theorem migrateEntity_renamed {require : CardId → Migrating (Recorded ρ) μ Unit}
    (hrequire : Provides require) {entity : Entity} {s : Session (Recorded ρ) μ} (hs : s.Migrates)
    (hopen : ∀ card, entity = .card card → card ∉ s.migrated) (h : Renamed s.mapping s.remote.log) :
    Renamed (migrateEntity require entity s).2.mapping (migrateEntity require entity s).2.remote.log := by
  have hfetched := fetchDocument_migrates hs hopen
  have hfetch := fetchDocument_renamed entity h
  obtain ⟨e, t, ht, hend⟩ | ⟨document, t, ht, hwalk⟩ := migrateEntity_cases require entity s
  · rw [hend]
    rwa [ht] at hfetch
  rw [ht] at hfetched hfetch
  have hattains (available : Set CardId) : Attains t.mapping available Json
      (walkDocument require entity document) (Walk.document entity.kind
        (Renaming.outcomes available ⟨t.mapping, entity⟩) [] document) :=
    walkDocument_attains hrequire entity document
  obtain ⟨e, u, hu, hend⟩ | ⟨document', u, hu, hend⟩ := hwalk
  · rw [hend]
    have hadvances := (hattains Set.univ t hfetched rfl).1
    rw [hu] at hadvances
    exact hadvances.order hfetched hfetch
  · rw [hend]
    obtain ⟨hadvances, hresult⟩ :=
      hattains {c | MigrationAccepted c u.remote.log} t hfetched rfl
    rw [hu] at hadvances hresult
    have hdocument := hresult document' rfl fun c hc => hc
    rw [← hadvances.steady.mapping] at hdocument
    exact push_renamed (hadvances.migrates hfetched).1.sends (hadvances.order hfetched hfetch)
      ⟨document, hdocument⟩

theorem migrateCardWithin_provides (depth : Nat) :
    Provides (migrateCardWithin (ρ := Recorded ρ) (μ := μ) depth) := by
  induction depth with
  | zero =>
    intro mapping available card
    exact once_attains card (migrateCardWithin_keepsConsistent 0 card)
      (Session.Steady.stable.migrateCardWithin 0 card) (Session.Later.stable.migrateCardWithin 0 card)
      fun s _ _ h => h
  | succ depth ih =>
    intro mapping available card
    refine once_attains card (migrateCardWithin_keepsConsistent (depth + 1) card)
      (Session.Steady.stable.migrateCardWithin (depth + 1) card)
      (Session.Later.stable.migrateCardWithin (depth + 1) card) fun s hs hmem h => ?_
    exact migrateEntity_renamed ih hs
      (fun c hc => Entity.card_inj.1 hc ▸ hs.1.pending card hmem) h

theorem migrateCard_provides : Provides (migrateCard (ρ := Recorded ρ) (μ := μ)) := by
  intro mapping available card s hs hm
  rw [migrateCard_apply]
  exact migrateCardWithin_provides s.depthLimit mapping available card s hs hm

end Migration

/-! ## Calls -/

variable [Remote ρ]

/-- Nothing that is done about labels counts as a migration. -/
theorem stable_labels : Stable fun s t : Session (Recorded ρ) μ => s.remote.purpose = .labels →
    t.remote.purpose = .labels ∧
      (Renamed s.mapping s.remote.log → Renamed t.mapping t.remote.log) where
  refl s hs := ⟨hs, id⟩
  trans h h' hs := ⟨(h' (h hs).1).1, (h' (h hs).1).2 ∘ (h hs).2⟩
  fetch entity s hs := ⟨hs, fun h => h.append fun _ _ _ hx => by simp at hx⟩
  push entity document s hs := ⟨hs, fun h => h.append fun _ _ _ hx => by
    simp [hs] at hx⟩
  translator _ hs := ⟨hs, id⟩
  markProduced entity document s hs := ⟨hs, id⟩
  markMigrated card s hs := ⟨hs, id⟩
  inside h hs := h hs

variable [Provider μ]

theorem perform_renamed (call : Call) {s : Session (Recorded ρ) μ} (hs : s.Consistent)
    (h : Renamed s.mapping s.remote.log) :
    Renamed (call.perform (s.announce call)).2.mapping (call.perform (s.announce call)).2.remote.log := by
  have hannounce : (s.announce call).Consistent := ⟨hs.ledger, hs.pending, hs.sends⟩
  cases call with
  | migrate entity =>
    obtain ⟨kind, id⟩ := entity
    cases kind with
    | card =>
      have hcard := migrateCard_provides s.mapping Set.univ ⟨id⟩ _ ⟨hannounce, rfl⟩ rfl
      exact hcard.1.order ⟨hannounce, rfl⟩ h
    | dashboard =>
      exact migrateEntity_renamed migrateCard_provides ⟨hannounce, rfl⟩
        (fun card hcard => absurd (congrArg Entity.kind hcard) (by simp)) h
  | relabel entity replacements => exact (stable_labels.perform (.relabel entity replacements) _ rfl).2 h
  | collectLabels entity => exact (stable_labels.perform (.collectLabels entity) _ rfl).2 h

end Migrating

namespace Session

variable {ρ μ : Type} [Remote ρ] [Provider μ]

theorem renamed_record (calls : List Call) {s : Session (Recorded ρ) μ} (hs : s.Consistent)
    (h : Renamed s.mapping s.remote.log) : Renamed s.mapping (s.record calls).remote.log := by
  induction calls generalizing s with
  | nil => exact h
  | cons call calls ih =>
    have hmapping := (Steady.stable.perform call (s.announce call)).mapping
    exact hmapping ▸ ih (Migrating.perform_consistent call hs) (Migrating.perform_renamed call hs h)

theorem dependenciesFirst_record (calls : List Call) {s : Session (Recorded ρ) μ} (hs : s.Consistent)
    (h : Renamed s.mapping s.remote.log) : DependenciesFirst (s.record calls).remote.log :=
  (renamed_record calls hs h).dependenciesFirst

/-- In the history of a new session, the migration of every card that a document is built on was accepted
before a migration pushed the document, accepted or not. So the migrated cards are closed under what
their accepted documents are built on. -/
theorem record_dependenciesFirst (mapping : Mapping) (translator : Option (Translator μ)) (remote : ρ)
    (calls : List Call) :
    let s := (watched mapping translator remote).record calls
    (∀ before entity document answer after,
      s.remote.log = before ++ .push .migration entity document answer :: after →
      ∀ c, BuiltOn entity.kind document c → MigrationAccepted c before) ∧
    ∀ card, s.isMigrated card →
      ∃ document, .accepted .migration (.card card) document ∈ s.remote.log ∧
        ∀ c, BuiltOn .card document c → s.isMigrated c := by
  intro s
  have hs : s.Consistent := record_consistent calls (consistent_watched mapping translator remote)
  have horder : DependenciesFirst s.remote.log :=
    dependenciesFirst_record calls (consistent_watched mapping translator remote) .empty
  have hmigrated : ∀ card, s.isMigrated card ↔ MigrationAccepted card s.remote.log := by
    intro card
    rw [← hs.ledger.mem_migrated_iff]
    simp [isMigrated]
  refine ⟨horder, fun card hcard => ?_⟩
  obtain ⟨document, hdocument⟩ := (hmigrated card).1 hcard
  refine ⟨document, hdocument, fun c hc => (hmigrated c).2 ?_⟩
  obtain ⟨before, after, hlog⟩ := List.append_of_mem hdocument
  have hbefore := horder before _ document _ after hlog c hc
  exact hbefore.mono (hlog ▸ List.prefix_append before _)

end Session

end Rehome
