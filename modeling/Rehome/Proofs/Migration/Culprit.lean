import Mathlib.Data.List.Chain
import Rehome.Proofs.Migration.Again
import Rehome.Proofs.Migration.Failures
import Rehome.Proofs.Migration.Passage
import Rehome.Proofs.Reference.Blame

/-! # Whom a migration blames

A migration that fails because of a document names the entity that the document belongs to. This is the entity
that was to be migrated, or a card that it comes to through cards that are required, and the document fetched
for it has the fault that is reported. An entity is offered to the installation after all that it requires has
been migrated, so nothing has happened to any entity on the way to the one that is blamed (`migrate_blames`). -/

namespace Rehome

/-- The error is about the document of an entity: its shape is not known, or it mentions what the mapping has
nothing for. -/
def Mapping.Fault (m : Mapping) (entity : Entity) (document : Json) (e : MigrationError) : Prop :=
  (∃ detail, e = .malformed entity detail) ∨
    ∃ x, Mentions entity.kind document x ∧ m.Lacks x ∧ e = x.missing entity

/-- The cards that must be moved before the document of an entity of some kind can be renamed. -/
def Mapping.required (m : Mapping) (kind : EntityKind) (document : Json) : Set Entity :=
  {b | ∃ c d, NeedsCard kind document c ∧ m.moves.card? c = some d ∧ b = .card d}

/-- The document that was fetched for the first entity requires the second one. -/
def Requires (m : Mapping) (log : List Exchange) (a b : Entity) : Prop :=
  ∃ purpose document, .fetch purpose a (.ok document) ∈ log ∧ b ∈ m.required a.kind document

theorem Mapping.Fault.owner?_eq {m : Mapping} {entity : Entity} {document : Json} {e : MigrationError}
    (h : m.Fault entity document e) : e.owner? = some entity := by
  rcases h with ⟨detail, rfl⟩ | ⟨x, -, -, rfl⟩
  · rfl
  · exact x.owner?_missing entity

theorem Requires.mono {m : Mapping} {log log' : List Exchange} {a b : Entity} (h : Requires m log a b)
    (hlog : log ⊆ log') : Requires m log' a b := by
  obtain ⟨purpose, document, hfetch, hb⟩ := h
  exact ⟨purpose, document, hlog hfetch, hb⟩

theorem MigrationError.owner?_of_isOfRequest {e : MigrationError} (h : e.isOfRequest = true) :
    e.owner? = none := by
  cases e with
  | pushRefused | invalidDocument | remote | label => rfl
  | unresolvedReference | malformed | unknownCard | unknownDashboard | cyclicReference | nestedTooDeep => cases h

namespace Session

variable {ρ μ : Type} {α β : Type}

/-! ## Accounts of runs -/

/-- Nothing has happened to an entity between two states, nor has it been migrated before. -/
structure Untouched (s t : Session (Recorded ρ) μ) (news : List Exchange) (entity : Entity) : Prop where
  kept : s.Kept t news entity
  pending : ∀ card, entity = .card card → card ∉ t.migrated

/-- A chain of entities, each of which requires the next one, ends at the one that an error is about. -/
structure Accuses (mapping : Mapping) (news : List Exchange) (t : Session ρ μ) (chain : List Entity)
    (e : MigrationError) : Prop where
  linked : chain.IsChain (Requires mapping news)
  fault : ∃ owner purpose document, chain.getLast? = some owner ∧
    .fetch purpose owner (.ok document) ∈ news ∧ mapping.Fault owner document e
  pending : ∀ card, .card card ∈ chain → card ∉ t.migrated

/-- What is known of a run by its result. Unless it ends with an error that is about no document, the entities
that were offered are migrated cards, or `own` ones if it has succeeded. An error about a document is among
`faults`, or a chain from one of some starts leads to the entity that it is about. -/
structure Account (mapping : Mapping) (faults : Set MigrationError) (starts own : Set Entity)
    (s : Session (Recorded ρ) μ) (result : Except MigrationError α) (t : Session (Recorded ρ) μ)
    (news : List Exchange) : Prop where
  passage : s.Passage t news
  kept : (∀ e, result = .error e → e.owner? ≠ none) → ∀ entity, s.Kept t news entity ∨
    (∃ card ∈ t.migrated, entity = .card card) ∨ entity ∈ own ∧ ∃ a, result = .ok a
  accuses : ∀ e, result = .error e → e.owner? ≠ none → e ∈ faults ∨
    ∃ chain, (∃ start ∈ starts, chain.head? = some start) ∧ t.Accuses mapping news chain e

variable {s t u : Session (Recorded ρ) μ} {news news' : List Exchange} {entity : Entity} {mapping : Mapping}
  {faults : Set MigrationError} {starts own : Set Entity}
  {result : Except MigrationError α} {e : MigrationError} {chain : List Entity}

theorem Accuses.mono (h : t.Accuses mapping news chain e) (hnews : news ⊆ news') :
    t.Accuses mapping news' chain e where
  linked := h.linked.imp fun _ _ hab => hab.mono hnews
  fault := by
    obtain ⟨owner, purpose, document, hlast, hfetch, hfault⟩ := h.fault
    exact ⟨owner, purpose, document, hlast, hnews hfetch, hfault⟩
  pending := h.pending

/-- A pending entity that requires the first one of the chain is accused along with it. -/
theorem Accuses.cons (h : t.Accuses mapping news chain e) {start : Entity} (hhead : chain.head? = some start)
    (hrequires : Requires mapping news entity start)
    (hpending : ∀ card, entity = .card card → card ∉ t.migrated) :
    t.Accuses mapping news (entity :: chain) e where
  linked := by
    rw [List.isChain_cons]
    refine ⟨fun b hb => ?_, h.linked⟩
    rw [hhead] at hb
    exact Option.some.inj hb ▸ hrequires
  fault := by
    obtain ⟨owner, purpose, document, hlast, hfetch, hfault⟩ := h.fault
    refine ⟨owner, purpose, document, ?_, hfetch, hfault⟩
    rw [List.getLast?_cons, hlast, Option.getD_some]
  pending card hcard := by
    rcases List.mem_cons.1 hcard with heq | hcard
    · exact hpending card heq.symm
    · exact h.pending card hcard

/-- A run that offers nothing, and fails with some faults alone, or because of no document. -/
theorem Account.of_passage (hpassage : s.Passage t news) (hkept : ∀ entity, s.Kept t news entity)
    (hresult : ∀ e, result = .error e → e.owner? ≠ none → e ∈ faults) :
    s.Account mapping faults starts own result t news where
  passage := hpassage
  kept _ entity := .inl (hkept entity)
  accuses e he howner := .inl (hresult e he howner)

/-- A run that has succeeded, and offers no entities of its own, has offered migrated cards alone. -/
theorem Account.kept_or_migrated {a : α} (h : s.Account mapping faults starts ∅ (.ok a) t news)
    (entity : Entity) : s.Kept t news entity ∨ ∃ card ∈ t.migrated, entity = .card card := by
  rcases h.kept (fun e he => by cases he) entity with hkept | hmigrated | ⟨hown, -⟩
  · exact .inl hkept
  · exact .inr hmigrated
  · exact absurd hown (Set.notMem_empty entity)

/-- What comes before a run that offered migrated cards alone is part of it. -/
theorem Account.after (hpassage : s.Passage t news)
    (hkept : ∀ entity, s.Kept t news entity ∨ ∃ card ∈ t.migrated, entity = .card card)
    (h : t.Account mapping faults starts own result u news') :
    s.Account mapping faults starts own result u (news ++ news') where
  passage := hpassage.trans h.passage
  kept hresult entity := by
    rcases hkept entity with hbefore | ⟨card, hcard, rfl⟩
    · rcases h.kept hresult entity with hafter | hother
      · exact .inl (hbefore.trans hafter)
      · exact .inr hother
    · exact .inr (.inl ⟨card, h.passage.migrated hcard, rfl⟩)
  accuses e he howner := by
    rcases h.accuses e he howner with hfault | ⟨chain, hstart, haccuses⟩
    · exact .inl hfault
    · exact .inr ⟨chain, hstart, haccuses.mono (List.subset_append_right _ _)⟩

/-- A failure remains one of whatever the run is part of. -/
theorem Account.of_error {own' : Set Entity}
    (h : s.Account (α := α) mapping faults starts own (.error e) t news) :
    s.Account (α := β) mapping faults starts own' (.error e) t news where
  passage := h.passage
  kept hresult entity := by
    rcases h.kept (fun e' he' => hresult e' (congrArg _ (Except.error.inj he'))) entity with
      hkept | hmigrated | ⟨-, a, ha⟩
    · exact .inl hkept
    · exact .inr (.inl hmigrated)
    · cases ha
  accuses e' he' := h.accuses e' (congrArg _ (Except.error.inj he'))

/-- The walk of the document of an entity has failed, and so has the migration of the entity. -/
theorem Account.blamed {purpose : Purpose} {document : Json}
    (h : s.Account (α := α) mapping {e | mapping.Fault entity document e} (mapping.required entity.kind document)
      own (.error e) t news)
    (hfetch : .fetch purpose entity (.ok document) ∈ news)
    (hpending : ∀ card, entity = .card card → card ∉ t.migrated) {own' : Set Entity} :
    s.Account (α := β) mapping ∅ {entity} own' (.error e) t news where
  passage := h.passage
  kept := h.of_error.kept
  accuses e' he' howner := by
    obtain rfl := Except.error.inj he'
    rcases h.accuses e rfl howner with hfault | ⟨chain, ⟨start, hstart, hhead⟩, haccuses⟩
    · refine .inr ⟨[entity], ⟨entity, rfl, rfl⟩, .singleton entity, ?_, fun card hcard => ?_⟩
      · exact ⟨entity, purpose, document, rfl, hfetch, hfault⟩
      · exact hpending card (List.mem_singleton.1 hcard).symm
    · refine .inr ⟨entity :: chain, ⟨entity, rfl, rfl⟩, haccuses.cons hhead ?_ hpending⟩
      exact ⟨purpose, document, hfetch, hstart⟩

/-- After a run that has succeeded, one entity is offered. -/
theorem Account.pushed {a : α} (h : s.Account mapping faults starts ∅ (.ok a) t news)
    (hpassage : t.Passage u news') (hkept : ∀ b ≠ entity, t.Kept u news' b)
    {result : Except MigrationError β} (hresult : ∀ e, result = .error e → e.owner? = none)
    {faults' : Set MigrationError} {starts' : Set Entity} :
    s.Account mapping faults' starts' {entity} result u (news ++ news') where
  passage := h.passage.trans hpassage
  kept howner b := by
    by_cases hb : b = entity
    · cases hok : result with
      | ok v => exact .inr (.inr ⟨hb, v, rfl⟩)
      | error e => exact absurd (hresult e hok) (howner e hok)
    · rcases h.kept_or_migrated b with hbefore | ⟨card, hcard, rfl⟩
      · exact .inl (hbefore.trans (hkept b hb))
      · exact .inr (.inl ⟨card, hpassage.migrated hcard, rfl⟩)
  accuses e he howner := absurd (hresult e he) howner

/-! ## Runs with one more card under way -/

variable {card : CardId}

theorem Account.outside (h : Account mapping faults starts own (s.enter card) result t news) :
    s.Account mapping faults starts own result { t with inProgress := s.inProgress } news where
  passage := h.passage.outside
  kept hresult entity := by
    rcases h.kept hresult entity with hkept | hother
    · exact .inl ⟨hkept.offered, hkept.produced⟩
    · exact .inr hother
  accuses e he howner := by
    rcases h.accuses e he howner with hfault | ⟨chain, hstart, haccuses⟩
    · exact .inl hfault
    · exact .inr ⟨chain, hstart, haccuses.linked, haccuses.fault, haccuses.pending⟩

/-- A card that was offered is a migrated one once that is written down. -/
theorem Account.marked {a : α} (h : s.Account mapping faults starts {.card card} (.ok a) t news)
    (hunder : card ∉ s.inProgress) (b : β) :
    s.Account mapping faults starts ∅ (.ok b) (t.markMigrated card) news where
  passage := h.passage.marked hunder
  kept _ entity := by
    rcases h.kept (fun e he => by cases he) entity with hkept | ⟨c, hc, rfl⟩ | ⟨rfl, -⟩
    · exact .inl ⟨hkept.offered, hkept.produced⟩
    · exact .inr (.inl ⟨c, mem_insertSorted.2 (.inr hc), rfl⟩)
    · exact .inr (.inl ⟨card, mem_insertSorted.2 (.inl rfl), rfl⟩)
  accuses e he := by cases he

end Session

namespace Migrating

open Session

variable {ρ μ : Type} {α : Type} {mapping : Mapping} {faults : Set MigrationError} {starts own : Set Entity}

/-! ## Accounts of computations -/

/-- With this mapping, every run of the computation has an account. -/
def Attributes (mapping : Mapping) (faults : Set MigrationError) (starts : Set Entity) (α : Type)
    (x : Migrating (Recorded ρ) μ α) : Prop :=
  ∀ s : Session (Recorded ρ) μ, s.mapping = mapping →
    ∃ news, s.Account mapping faults starts ∅ (x s).1 (x s).2 news

theorem closed_attributes (mapping : Mapping) (faults : Set MigrationError) (starts : Set Entity) :
    Closed (Attributes (ρ := ρ) (μ := μ) mapping faults starts) where
  pure a s _ := ⟨[], .of_passage (.refl s) (Kept.refl s) fun e he => by cases he⟩
  bind {α β x f} hx hf s hm := by
    obtain ⟨news, haccount⟩ := hx s hm
    rcases h : x s with ⟨e | a, t⟩ <;> rw [h] at haccount
    · rw [bind_of_error h]
      exact ⟨news, haccount.of_error⟩
    · rw [bind_of_ok h]
      obtain ⟨news', haccount'⟩ := hf a t (haccount.passage.steady.mapping.trans hm)
      exact ⟨news ++ news', .after haccount.passage haccount.kept_or_migrated haccount'⟩

theorem Attributes.mono {faults' : Set MigrationError} {starts' : Set Entity} {x : Migrating (Recorded ρ) μ α}
    (h : Attributes mapping faults starts α x) (hfaults : faults ⊆ faults') (hstarts : starts ⊆ starts') :
    Attributes mapping faults' starts' α x := by
  intro s hm
  obtain ⟨news, haccount⟩ := h s hm
  refine ⟨news, haccount.passage, haccount.kept, fun e he howner => ?_⟩
  rcases haccount.accuses e he howner with hfault | ⟨chain, ⟨start, hstart, hhead⟩, haccuses⟩
  · exact .inl (hfaults hfault)
  · exact .inr ⟨chain, ⟨start, hstarts hstart, hhead⟩, haccuses⟩

theorem attributes_throw {e : MigrationError} (h : e.owner? ≠ none → e ∈ faults) :
    Attributes (ρ := ρ) (μ := μ) mapping faults starts α (throw e) := by
  intro s _
  refine ⟨[], .of_passage (.refl s) (Kept.refl s) ?_⟩
  rintro e' he'
  obtain rfl := Except.error.inj he'
  exact h

/-! ## Visits -/

/-- A way to require cards of which a chain starts with the card that is required. -/
def AttributesCards (mapping : Mapping) (require : CardId → Migrating (Recorded ρ) μ Unit) : Prop :=
  ∀ card, Attributes mapping ∅ {.card card} Unit (require card)

variable {require : CardId → Migrating (Recorded ρ) μ Unit}

theorem carryOut_attributes (h : AttributesCards mapping require) {plan : Plan α}
    (hneeds : Plan.NeedsIn {c | .card c ∈ starts} α plan)
    (hfaults : ∀ e, plan.outcome = .error e → e ∈ faults) :
    Attributes mapping faults starts α (carryOut require plan) := by
  have hclosed := closed_attributes (ρ := ρ) (μ := μ) mapping faults starts
  refine carryOut_related_mem hclosed.compatible (g := require) (fun c hc => ?_) fun e he => ?_
  · exact (h c).mono (Set.empty_subset _) (Set.singleton_subset_iff.2 (hneeds c hc))
  · exact attributes_throw fun _ => hfaults e he

variable [Provider μ]

theorem translateText_attributes (text : String) :
    Attributes (ρ := ρ) (μ := μ) mapping faults starts String (translateText text) := by
  intro s _
  have hresult (e : MigrationError) (he : (translateText text s).1 = .error e) (howner : e.owner? ≠ none) :
      e ∈ faults :=
    absurd (MigrationError.owner?_of_isOfRequest (translateText_failsAsking text s e he)) howner
  obtain ⟨hpassage, hkept⟩ := translateText_passage text s
  exact ⟨[], .of_passage hpassage hkept hresult⟩

theorem visit_attributes (h : AttributesCards mapping require) {owner : Entity} {trail : Trail} {j : Json}
    (hneeds : Plan.NeedsIn {c | .card c ∈ starts} Json (Renaming.place ⟨mapping, owner⟩ trail j))
    (hfaults : ∀ e, (Renaming.place ⟨mapping, owner⟩ trail j).outcome = .error e → e ∈ faults) :
    Attributes mapping faults starts Json (visit require owner trail j) := by
  have hclosed := closed_attributes (ρ := ρ) (μ := μ) mapping faults starts
  intro s hm
  rw [visit_apply]
  split
  · exact hclosed.pure j s hm
  · rw [hm]
    exact hclosed.bind (carryOut_attributes h hneeds hfaults)
      (hclosed.mapSlots translateText_attributes trail) s hm

/-- The walk of a document fails because of the document itself, or a chain starts from a card that the document
requires. -/
theorem walkDocument_attributes (h : AttributesCards mapping require) (entity : Entity) (document : Json) :
    Attributes mapping {e | mapping.Fault entity document e} (mapping.required entity.kind document) Json
      (walkDocument require entity document) := by
  rw [walkDocument_eq]
  apply (closed_attributes mapping _ _).document_visits
  intro k p trail j hp hkind hinside hj
  refine visit_attributes h ((Renaming.needsIn_neededAt hkind hinside j).mono ?_) fun e he => ?_
  · rintro d ⟨c, hc, hd⟩
    exact ⟨c, d, ⟨k, p, hp, hc.of_keeps hj⟩, hd, rfl⟩
  · rcases Renaming.faults_place hkind hinside j e he with hdetail | ⟨x, hx, hlacks, heq⟩
    · exact .inl hdetail
    · exact .inr ⟨x, ⟨k, p, hp, hx.of_keeps hj⟩, hlacks, heq⟩

/-! ## Migrations -/

section Migration

variable [Remote ρ]

/-- The migration of an entity that is not migrated itself meanwhile: it is offered last of all, and is at the
start of every chain. -/
theorem migrateEntity_account (h : AttributesCards mapping require) (entity : Entity)
    {s : Session (Recorded ρ) μ} (hm : s.mapping = mapping)
    (hunder : ∀ card, entity = .card card → card ∈ s.inProgress ∧ card ∉ s.migrated) :
    ∃ news, s.Account mapping ∅ {entity} {entity} (migrateEntity require entity s).1
      (migrateEntity require entity s).2 news := by
  obtain ⟨e, t, ht, hend⟩ | ⟨document, t, ht, hwalk⟩ := migrateEntity_cases require entity s
  · obtain ⟨answer, hpassage, hkept⟩ := fetchDocument_passage entity s
    rw [ht] at hpassage hkept
    rw [hend]
    refine ⟨_, .of_passage hpassage hkept fun e' he' howner => ?_⟩
    obtain rfl := Except.error.inj he'
    exact absurd (MigrationError.owner?_of_isOfRequest
      (fetchDocument_failsAsking entity s e (congrArg Prod.fst ht))) howner
  obtain ⟨hpassage, hkept⟩ := fetchDocument_passage_of_ok ht
  obtain ⟨news, haccount⟩ := walkDocument_attributes h entity document t (hpassage.steady.mapping.trans hm)
  have hbefore := haccount.after hpassage fun a => .inl (hkept a)
  obtain ⟨e, u, hu, hend⟩ | ⟨document', u, hu, hend⟩ := hwalk <;> rw [hu] at hbefore
  · rw [hend]
    have hpending (card : CardId) (hcard : entity = .card card) : card ∉ u.migrated :=
      hbefore.passage.spares card (hunder card hcard).1 (hunder card hcard).2
    exact ⟨_, hbefore.blamed List.mem_cons_self hpending⟩
  · rw [hend]
    obtain ⟨news', hpassage', hkept'⟩ := push_passage entity document' u
    refine ⟨_, hbefore.pushed hpassage' hkept' fun e he => ?_⟩
    exact MigrationError.owner?_of_isOfRequest (push_failsAsking entity document' u e he)

omit [Remote ρ] [Provider μ] in
/-- What is carried out with a card under way may offer that card, and is accused from there on; or the card is
refused before anything is asked for. -/
theorem once_attributes {card : CardId} {act : Migrating (Recorded ρ) μ Unit}
    (hact : ∀ s : Session (Recorded ρ) μ, s.mapping = mapping → card ∈ s.inProgress → card ∉ s.migrated →
      ∃ news, s.Account mapping ∅ {.card card} {.card card} (act s).1 (act s).2 news) :
    Attributes mapping ∅ {.card card} Unit (once card act) := by
  intro s hm
  rw [once_apply]
  split
  · exact (closed_attributes mapping ∅ {.card card}).pure () s hm
  next hnew =>
  have hnew : card ∉ s.migrated := by simpa [Session.isMigrated] using hnew
  split
  · exact attributes_throw (fun howner => absurd rfl howner) s hm
  next hunder =>
  have hunder : card ∉ s.inProgress := by simpa using hunder
  obtain ⟨news, haccount⟩ := hact (s.enter card) hm (by simp) hnew
  rw [bind_apply, during_apply haccount.passage.steady.inProgress]
  rcases h : act (s.enter card) with ⟨e | a, t⟩ <;> rw [h] at haccount
  · exact ⟨news, haccount.outside.of_error⟩
  · exact ⟨news, haccount.outside.marked hunder ()⟩

theorem migrateCardWithin_attributes (depth : Nat) :
    AttributesCards mapping (migrateCardWithin (ρ := Recorded ρ) (μ := μ) depth) := by
  induction depth with
  | zero =>
    intro card
    apply once_attributes
    intro s _ _ _
    refine ⟨[], .of_passage (.refl s) (Kept.refl s) ?_⟩
    intro e he howner
    obtain rfl := Except.error.inj he
    exact absurd rfl howner
  | succ depth ih =>
    intro card
    apply once_attributes
    intro s hm hunder hnew
    apply migrateEntity_account ih (.card card) hm
    intro c hc
    rw [← Entity.card_inj.1 hc]
    exact ⟨hunder, hnew⟩

theorem migrateCard_attributes : AttributesCards mapping (migrateCard (ρ := Recorded ρ) (μ := μ)) := by
  intro card s hm
  rw [migrateCard_apply]
  exact migrateCardWithin_attributes s.depthLimit card s hm

theorem migrate_account (entity : Entity) (s : Session (Recorded ρ) μ) :
    ∃ news, s.Account s.mapping ∅ {entity} {entity} (migrate entity s).1 (migrate entity s).2 news := by
  obtain ⟨kind, id⟩ := entity
  cases kind with
  | card =>
    obtain ⟨news, haccount⟩ := migrateCard_attributes ⟨id⟩ s rfl
    refine ⟨news, haccount.passage, fun hresult entity => ?_, haccount.accuses⟩
    exact (haccount.kept hresult entity).imp_right (.imp_right fun h => absurd h.1 (Set.notMem_empty entity))
  | dashboard =>
    apply migrateEntity_account migrateCard_attributes ⟨.dashboard, id⟩ rfl
    intro card hcard
    cases congrArg Entity.kind hcard

/-- A migration that fails because of a document blames the entity that was to be migrated, or a card that it
comes to through cards that are required. The document that was fetched for that entity has the fault: its shape
is not known, or it mentions what the mapping has nothing for. Nothing has happened to any entity on the way. -/
theorem migrate_blames {entity owner : Entity} {e : MigrationError} {s t : Session (Recorded ρ) μ}
    (h : migrate entity s = (.error e, t)) (howner : e.owner? = some owner) :
    ∃ (news : List Exchange) (chain : List Entity), t.remote.log = s.remote.log ++ news ∧
      chain.head? = some entity ∧ chain.getLast? = some owner ∧ chain.IsChain (Requires s.mapping news) ∧
      (∃ purpose document, .fetch purpose owner (.ok document) ∈ news ∧ s.mapping.Fault owner document e) ∧
      ∀ a ∈ chain, s.Untouched t news a := by
  obtain ⟨news, haccount⟩ := migrate_account entity s
  rw [h] at haccount
  have hblames : e.owner? ≠ none := by simp [howner]
  rcases haccount.accuses e rfl hblames with hfault | ⟨chain, ⟨start, hstart, hhead⟩, haccuses⟩
  · exact absurd hfault (Set.notMem_empty e)
  obtain rfl : start = entity := hstart
  obtain ⟨owner', purpose, document, hlast, hfetch, hfault⟩ := haccuses.fault
  obtain rfl : owner' = owner := Option.some.inj (hfault.owner?_eq.symm.trans howner)
  refine ⟨news, chain, haccount.passage.log, hhead, hlast, haccuses.linked, ⟨purpose, document, hfetch, hfault⟩, ?_⟩
  intro a ha
  have hpending (card : CardId) (hcard : a = .card card) : card ∉ t.migrated :=
    haccuses.pending card (hcard ▸ ha)
  have hresult (e' : MigrationError) (he' : (.error e : Except MigrationError Unit) = .error e') :
      e'.owner? ≠ none :=
    Except.error.inj he' ▸ hblames
  rcases haccount.kept hresult a with hkept | ⟨card, hcard, rfl⟩ | ⟨-, v, hv⟩
  · exact ⟨hkept, hpending⟩
  · exact absurd hcard (hpending card rfl)
  · cases hv

end Migration

/-! ## A setting of a question on a question -/

/-- A dashboard that shows a question on a question, whose column is not known. -/
def nesting : Memory :=
  ((Memory.empty.withDocument (.dashboard ⟨104⟩) (Sample.dashboard ⟨104⟩ "Overview" [⟨12⟩])).withDocument
    (.card ⟨112⟩) (Sample.questionOnCard ⟨112⟩ "B" ⟨13⟩)).withDocument
    (.card ⟨113⟩) (Sample.question ⟨113⟩ "A" ⟨10⟩ ⟨999⟩)

/-- A session on that installation. -/
def nested : Session (Recorded Memory) TableProvider := watched sampled none nesting

theorem result_nested : (migrate (.dashboard ⟨104⟩) nested).1 =
    .error (.unresolvedReference (.card ⟨113⟩) (.unresolvedColumn ⟨999⟩)) := by
  decide +kernel

omit [Provider μ] in
theorem exists_state {x : Migrating ρ μ α} {s : Session ρ μ} {result : Except MigrationError α}
    (h : (x s).1 = result) : ∃ t, x s = (result, t) :=
  ⟨_, Prod.ext h rfl⟩

/-- The question in the middle is not to blame, and nothing has happened to the dashboard. -/
theorem migrate_nested : ∃ (t : Session (Recorded Memory) TableProvider) (chain : List Entity),
    migrate (.dashboard ⟨104⟩) nested = (.error (.unresolvedReference (.card ⟨113⟩) (.unresolvedColumn ⟨999⟩)), t) ∧
    chain.head? = some (.dashboard ⟨104⟩) ∧ chain.getLast? = some (.card ⟨113⟩) ∧
    chain.IsChain (Requires sampled t.remote.log) ∧
    (∃ purpose document, .fetch purpose (.card ⟨113⟩) (.ok document) ∈ t.remote.log ∧
      Mentions .card document (.column ⟨999⟩) ∧ sampled.Lacks (.column ⟨999⟩)) ∧
    ∀ a ∈ chain, nested.Untouched t t.remote.log a := by
  obtain ⟨t, hfails⟩ := exists_state result_nested
  obtain ⟨news, chain, hlog, hhead, hlast, hlinked, ⟨purpose, document, hfetch, hfault⟩, huntouched⟩ :=
    migrate_blames hfails rfl
  obtain rfl : t.remote.log = news := hlog
  refine ⟨t, chain, hfails, hhead, hlast, hlinked, ⟨purpose, document, hfetch, ?_⟩, huntouched⟩
  rcases hfault with ⟨detail, hdetail⟩ | ⟨x, hx, hlacks, heq⟩
  · cases hdetail
  · cases x with
    | column c =>
      obtain rfl : (⟨999⟩ : ColumnId) = c := by simpa [Reference.missing] using heq
      exact ⟨hx, hlacks⟩
    | table | card | dashboard => cases heq

end Migrating

end Rehome
