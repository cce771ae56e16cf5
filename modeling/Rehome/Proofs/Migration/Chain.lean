import Mathlib.Data.List.Chain
import Rehome.Proofs.Migration.Failures
import Rehome.Proofs.Migration.Passage
import Rehome.Proofs.Reference.Blame
import Rehome.Proofs.Reference.CardsRead

/-! # The chain of a cyclic reference

When cards need each other, the migration reports the cards under way and the one that is needed again.
Each card of that chain was fetched in the course of the call, and leads on to the next one: what was
fetched for it reads from a card that moves there. Since no card is offered to the installation before all
that it leads on to has been migrated, none of the chain has been offered (`perform_cyclic`). -/

namespace Rehome

/-- Does the error report cards that need each other? -/
def MigrationError.isCyclic : MigrationError → Bool
  | .cyclicReference _ => true
  | _ => false

/-- The document that was fetched for the first card reads from a card that moves to the second one. -/
def LeadsOn (moves : Moves) (log : List Exchange) (a b : CardId) : Prop :=
  ∃ purpose document, .fetch purpose (.card a) (.ok document) ∈ log ∧
    ∃ c ∈ queriedCards document, moves.card? c = some b

/-- Has a document been offered for the card, accepted or not? -/
def Offered (log : List Exchange) (card : CardId) : Prop :=
  ∃ purpose document answer, .push purpose (.card card) document answer ∈ log

theorem LeadsOn.mono {moves : Moves} {log log' : List Exchange} {a b : CardId}
    (h : LeadsOn moves log a b) (hlog : log ⊆ log') : LeadsOn moves log' a b := by
  obtain ⟨purpose, document, hfetch, hb⟩ := h
  exact ⟨purpose, document, hlog hfetch, hb⟩

theorem offered_append {log log' : List Exchange} {card : CardId} :
    Offered (log ++ log') card ↔ Offered log card ∨ Offered log' card := by
  simp only [Offered, List.mem_append, exists_or]

theorem not_offered_nil (card : CardId) : ¬Offered [] card := by
  rintro ⟨purpose, document, answer, h⟩
  exact absurd h List.not_mem_nil

namespace Session

variable {ρ μ : Type} {α β : Type}

/-! ## Runs -/

/-- The cards under way are distinct, and none of them has been migrated. -/
structure Guarded (s : Session ρ μ) : Prop where
  nodup : s.inProgress.Nodup
  pending : ∀ card ∈ s.inProgress, card ∉ s.migrated

/-- What the installation was asked between two states, in the course of a run that keeps the cards under
way guarded. -/
structure Course (s t : Session (Recorded ρ) μ) (news : List Exchange) : Prop where
  log : t.remote.log = s.remote.log ++ news
  steady : s.Steady t
  migrated : s.migrated ⊆ t.migrated
  guarded : t.Guarded

/-- The cards under way, then a path, close with a card that is among these already: each card on the path
leads on to the next one, the first of it is among some starts, and no card has been migrated. -/
structure Closes (moves : Moves) (starts : Set CardId) (news : List Exchange) (t : Session ρ μ)
    (path : List CardId) (last : CardId) : Prop where
  nodup : (t.inProgress ++ path).Nodup
  closes : last ∈ t.inProgress ++ path
  starts : ∃ c ∈ starts, (path ++ [last]).head? = some c
  linked : (path ++ [last]).IsChain (LeadsOn moves news)
  pending : ∀ card ∈ path, card ∉ t.migrated

/-- What is known of a run by its result: the cards that were offered have been migrated, or may be `own`
cards if it has succeeded; and the chain that it reports closes. -/
structure Run (moves : Moves) (starts own : Set CardId) (s : Session (Recorded ρ) μ)
    (result : Except MigrationError α) (t : Session (Recorded ρ) μ) (news : List Exchange) : Prop where
  course : s.Course t news
  offered : ∀ card, Offered news card → card ∈ t.migrated ∨
    (card ∈ own ∧ ∃ a, result = .ok a) ∨ ∃ e, result = .error e ∧ e.isCyclic = false
  closes : ∀ chain, result = .error (.cyclicReference chain) →
    ∃ path last, chain = t.inProgress ++ path ++ [last] ∧ t.Closes moves starts news path last

/-- Cards that need each other, as the migration of an entity reports them when it ends: each card leads on
to the next one, and none of them has been migrated or offered. -/
structure Cycle (moves : Moves) (entity : Entity) (news : List Exchange)
    (t : Session (Recorded ρ) μ) (chain : List CardId) : Prop where
  /-- Distinct cards, and then one of these again. -/
  closes : ∃ path last, chain = path ++ [last] ∧ path.Nodup ∧ last ∈ path
  starts : ∀ card, entity = .card card → chain.head? = some card
  linked : chain.IsChain (LeadsOn moves news)
  pending : ∀ card ∈ chain, card ∉ t.migrated ∧ ¬Offered news card

theorem Passage.course {s t : Session (Recorded ρ) μ} {news : List Exchange} (h : s.Passage t news)
    (hs : s.Guarded) : s.Course t news where
  log := h.log
  steady := h.steady
  migrated := h.migrated
  guarded := by
    refine ⟨h.steady.inProgress ▸ hs.nodup, fun card hcard => ?_⟩
    rw [h.steady.inProgress] at hcard
    exact h.spares card hcard (hs.pending card hcard)

theorem Course.refl {s : Session (Recorded ρ) μ} (hs : s.Guarded) : s.Course s [] := (Passage.refl s).course hs

theorem Course.trans {s t u : Session (Recorded ρ) μ} {news news' : List Exchange}
    (h : s.Course t news) (h' : t.Course u news') : s.Course u (news ++ news') where
  log := by rw [h'.log, h.log, List.append_assoc]
  steady := h.steady.trans h'.steady
  migrated := List.Subset.trans h.migrated h'.migrated
  guarded := h'.guarded

variable {moves : Moves} {starts own : Set CardId} {news news' : List Exchange}

theorem Closes.mono {t : Session ρ μ} {starts' : Set CardId} {path : List CardId} {last : CardId}
    (h : t.Closes moves starts news path last) (hstarts : starts ⊆ starts') (hnews : news ⊆ news') :
    t.Closes moves starts' news' path last where
  nodup := h.nodup
  closes := h.closes
  starts := by
    obtain ⟨c, hc, hhead⟩ := h.starts
    exact ⟨c, hstarts hc, hhead⟩
  linked := h.linked.imp fun _ _ hab => hab.mono hnews
  pending := h.pending

/-- A run that ends before anything has been offered, without a report of cyclic references. -/
theorem Run.of_course {s t : Session (Recorded ρ) μ} {result : Except MigrationError α}
    (hcourse : s.Course t news) (hoffered : ∀ card, ¬Offered news card)
    (hresult : ∀ e, result = .error e → e.isCyclic = false) : Run moves starts own s result t news where
  course := hcourse
  offered card h := absurd h (hoffered card)
  closes chain h := by cases hresult _ h

/-- What comes before a run that offered migrated cards alone is part of it. -/
theorem Run.after {s t u : Session (Recorded ρ) μ} {result : Except MigrationError α}
    (hcourse : s.Course t news) (hoffered : ∀ card, Offered news card → card ∈ t.migrated)
    (h : Run moves starts own t result u news') : Run moves starts own s result u (news ++ news') where
  course := hcourse.trans h.course
  offered card hcard := by
    rcases offered_append.1 hcard with hcard | hcard
    · exact .inl (h.course.migrated (hoffered card hcard))
    · exact h.offered card hcard
  closes chain hchain := by
    obtain ⟨path, last, heq, hcloses⟩ := h.closes chain hchain
    exact ⟨path, last, heq, hcloses.mono (fun _ hc => hc) (List.subset_append_right _ _)⟩

/-- A run that has succeeded, and offers no cards of its own, has offered migrated cards alone. -/
theorem Run.mem_migrated {s t : Session (Recorded ρ) μ} {a : α}
    (h : Run moves starts ∅ s (.ok a) t news) {card : CardId} (hcard : Offered news card) :
    card ∈ t.migrated := by
  rcases h.offered card hcard with hcard | ⟨hcard, -⟩ | ⟨e, he, -⟩
  · exact hcard
  · exact absurd hcard (Set.notMem_empty card)
  · cases he

/-- A failure remains one of whatever the run is part of. -/
theorem Run.of_error {s t : Session (Recorded ρ) μ} {e : MigrationError} {own' : Set CardId}
    (h : Run (α := α) moves starts own s (.error e) t news) :
    Run (α := β) moves starts own' s (.error e) t news where
  course := h.course
  offered card hcard := by
    rcases h.offered card hcard with hcard | ⟨-, a, ha⟩ | ⟨e', he', hcyclic⟩
    · exact .inl hcard
    · cases ha
    · exact .inr (.inr ⟨e', congrArg _ (Except.error.inj he'), hcyclic⟩)
  closes chain hchain := h.closes chain (congrArg _ (Except.error.inj hchain))

/-! ## Runs with one more card under way -/

variable {card : CardId}

theorem Guarded.inside {s : Session ρ μ} (hs : s.Guarded) (hnew : card ∉ s.migrated)
    (hunder : card ∉ s.inProgress) : Guarded (s.enter card) where
  nodup := by
    refine List.nodup_append.2 ⟨hs.nodup, List.nodup_singleton card, ?_⟩
    rintro a ha b hb rfl
    exact hunder (List.mem_singleton.1 hb ▸ ha)
  pending c hc := by
    rcases List.mem_append.1 hc with hc | hc
    · exact hs.pending c hc
    · rwa [List.mem_singleton.1 hc]

/-- A card that is under way closes the chain at once. -/
theorem Run.of_inProgress {s : Session (Recorded ρ) μ} (hs : s.Guarded) (hunder : card ∈ s.inProgress) :
    Run (α := α) moves {card} own s (.error (.cyclicReference (s.inProgress ++ [card]))) s [] where
  course := .refl hs
  offered c hc := absurd hc (not_offered_nil c)
  closes chain hchain := by
    refine ⟨[], card, ?_, ?_⟩
    · rw [List.append_nil]
      exact (MigrationError.cyclicReference.inj (Except.error.inj hchain)).symm
    · refine ⟨?_, ?_, ⟨card, rfl, rfl⟩, .singleton card, fun c hc => absurd hc List.not_mem_nil⟩
      · rw [List.append_nil]
        exact hs.nodup
      · rw [List.append_nil]
        exact hunder

/-- The last card under way is the first one of a path that starts where this card leads on to. -/
theorem Closes.outside {t : Session ρ μ} {chain path : List CardId} {last : CardId}
    (h : t.Closes moves {b | LeadsOn moves news card b} news path last)
    (hchain : t.inProgress = chain ++ [card]) (hcard : card ∉ t.migrated) :
    Closes moves {card} news { t with inProgress := chain } (card :: path) last := by
  have hpath : t.inProgress ++ path = chain ++ card :: path := by
    rw [hchain, List.append_assoc, List.singleton_append]
  obtain ⟨b, hb, hhead⟩ := h.starts
  refine ⟨hpath ▸ h.nodup, hpath ▸ h.closes, ⟨card, rfl, rfl⟩, ?_, List.forall_mem_cons.2 ⟨hcard, h.pending⟩⟩
  rw [List.cons_append, List.isChain_cons]
  refine ⟨fun b' hb' => ?_, h.linked⟩
  rw [hhead] at hb'
  exact Option.some.inj hb' ▸ hb

section Outside

variable {s t : Session (Recorded ρ) μ} {result : Except MigrationError α}
  (h : Run moves {b | LeadsOn moves news card b} {card} (s.enter card) result t news)

include h

theorem Run.pending_outside : ∀ c ∈ s.inProgress ++ [card], c ∉ t.migrated := by
  have hchain : t.inProgress = s.inProgress ++ [card] := h.course.steady.inProgress
  rw [← hchain]
  exact h.course.guarded.pending

theorem Run.outside_error {e : MigrationError} (hs : s.Guarded) (hresult : result = .error e) :
    Run (α := β) moves {card} ∅ s (.error e) { t with inProgress := s.inProgress } news where
  course := by
    refine ⟨h.course.log, ⟨h.course.steady.mapping, h.course.steady.dryRun, rfl⟩, h.course.migrated,
      hs.nodup, fun c hc => ?_⟩
    exact h.pending_outside c (List.mem_append_left _ hc)
  offered c hc := by
    rcases h.offered c hc with hc | ⟨-, a, ha⟩ | ⟨e', he', hcyclic⟩
    · exact .inl hc
    · cases hresult.symm.trans ha
    · exact .inr (.inr ⟨e', congrArg _ (Except.error.inj (hresult.symm.trans he')), hcyclic⟩)
  closes chain hchain := by
    obtain ⟨path, last, rfl, hcloses⟩ :=
      h.closes chain (hresult.trans (congrArg _ (Except.error.inj hchain)))
    have hinProgress : t.inProgress = s.inProgress ++ [card] := h.course.steady.inProgress
    refine ⟨card :: path, last, ?_, hcloses.outside hinProgress (h.pending_outside card (by simp))⟩
    rw [hinProgress, List.append_assoc s.inProgress, List.singleton_append]

theorem Run.outside_ok (hs : s.Guarded) (hunder : card ∉ s.inProgress) {a : α} (hresult : result = .ok a)
    (b : β) : Run moves {card} ∅ s (.ok b)
      (markMigrated card { t with inProgress := s.inProgress }) news where
  course := by
    refine ⟨h.course.log, ⟨h.course.steady.mapping, h.course.steady.dryRun, rfl⟩, fun c hc => ?_,
      hs.nodup, fun c hc hmigrated => ?_⟩
    · exact mem_insertSorted.2 (.inr (h.course.migrated hc))
    · rcases mem_insertSorted.1 hmigrated with rfl | hmigrated
      · exact hunder hc
      · exact h.pending_outside c (List.mem_append_left _ hc) hmigrated
  offered c hc := by
    rcases h.offered c hc with hc | ⟨hc, -⟩ | ⟨e, he, -⟩
    · exact .inl (mem_insertSorted.2 (.inr hc))
    · exact .inl (mem_insertSorted.2 (.inl hc))
    · cases hresult.symm.trans he
  closes chain hchain := by cases hchain

end Outside

end Session

namespace Migrating

variable {ρ μ : Type} {α : Type}

/-! ## Failures that are not cyclic -/

/-- No failure of the computation reports cyclic references. -/
def NeverCyclic (α : Type) (x : Migrating ρ μ α) : Prop :=
  ∀ s e, (x s).1 = .error e → e.isCyclic = false

theorem neverCyclic_throw {e : MigrationError} (h : e.isCyclic = false) :
    NeverCyclic (ρ := ρ) (μ := μ) α (throw e) := by
  rintro s e' h'
  obtain rfl := Except.error.inj h'
  exact h

theorem FailsAsking.neverCyclic {x : Migrating ρ μ α} (h : FailsAsking α x) : NeverCyclic α x := by
  intro s e he
  have hasking : e.isOfRequest = true := h s e he
  cases e with
  | cyclicReference chain => cases hasking
  | _ => rfl

/-! ## Traced computations -/

section Traced

variable {mapping : Mapping} {starts : Set CardId}

/-- With this mapping and guarded cards under way, every run of the computation offers migrated cards
alone, unless it fails otherwise, and the chain that it reports closes. -/
def Traces (mapping : Mapping) (starts : Set CardId) (α : Type) (x : Migrating (Recorded ρ) μ α) :
    Prop :=
  ∀ s, s.mapping = mapping → s.Guarded →
    ∃ news, Session.Run mapping.moves starts ∅ s (x s).1 (x s).2 news

theorem closed_traces (mapping : Mapping) (starts : Set CardId) :
    Closed (Traces (ρ := ρ) (μ := μ) mapping starts) where
  pure a s _ hs :=
    ⟨[], .of_course (.refl hs) not_offered_nil fun e h => by cases h⟩
  bind {α β x f} hx hf s hm hs := by
    obtain ⟨news, hrun⟩ := hx s hm hs
    rcases h : x s with ⟨e | a, t⟩ <;> rw [h] at hrun
    · rw [bind_of_error h]
      exact ⟨news, hrun.of_error⟩
    · rw [bind_of_ok h]
      obtain ⟨news', hrun'⟩ := hf a t (hrun.course.steady.mapping.trans hm) hrun.course.guarded
      exact ⟨news ++ news', hrun'.after hrun.course fun _ => hrun.mem_migrated⟩

theorem Traces.mono {starts' : Set CardId} {x : Migrating (Recorded ρ) μ α}
    (h : Traces mapping starts α x) (hstarts : starts ⊆ starts') : Traces mapping starts' α x := by
  intro s hm hs
  obtain ⟨news, hrun⟩ := h s hm hs
  refine ⟨news, hrun.course, hrun.offered, fun chain hchain => ?_⟩
  obtain ⟨path, last, heq, hcloses⟩ := hrun.closes chain hchain
  exact ⟨path, last, heq, hcloses.mono hstarts (List.Subset.refl _)⟩

/-- A computation that asks the installation nothing, and does not fail because of cyclic references. -/
theorem traces_of_state {x : Migrating (Recorded ρ) μ α} (hx : NeverCyclic α x)
    (hstate : ∀ s : Session (Recorded ρ) μ, s.Guarded → s.Course (x s).2 []) : Traces mapping starts α x :=
  fun s _ hs => ⟨[], .of_course (hstate s hs) not_offered_nil (hx s)⟩

/-! ## Visits -/

/-- A way to require cards of which every chain starts with the card that is required. -/
def TracesCards (mapping : Mapping) (require : CardId → Migrating (Recorded ρ) μ Unit) : Prop :=
  ∀ card, Traces mapping {card} Unit (require card)

variable {require : CardId → Migrating (Recorded ρ) μ Unit}

theorem carryOut_traces (h : TracesCards mapping require) {plan : Plan α}
    (hneeds : Plan.NeedsIn starts α plan) (houtcome : ∀ e, plan.outcome = .error e → e.isCyclic = false) :
    Traces mapping starts α (carryOut require plan) := by
  have hclosed := closed_traces (ρ := ρ) (μ := μ) mapping starts
  refine carryOut_related_mem hclosed.compatible (g := require) (fun c hc => ?_) fun e he => ?_
  · exact (h c).mono (Set.singleton_subset_iff.2 (hneeds c hc))
  · exact traces_of_state (neverCyclic_throw (houtcome e he)) fun s hs => .refl hs

variable [Provider μ]

theorem visit_traces (h : TracesCards mapping require) {owner : Entity} {trail : Trail} {j : Json}
    (hneeds : Plan.NeedsIn starts Json (Renaming.place ⟨mapping, owner⟩ trail j)) :
    Traces mapping starts Json (visit require owner trail j) := by
  have hclosed := closed_traces (ρ := ρ) (μ := μ) mapping starts
  have htranslate (text : String) :
      Traces (ρ := ρ) (μ := μ) mapping starts String (translateText text) := by
    refine traces_of_state (translateText_failsAsking text).neverCyclic fun s hs => ?_
    exact (translateText_passage text s).1.course hs
  have hplan : Traces mapping starts Json
      (carryOut require (Renaming.place ⟨mapping, owner⟩ trail j)) := by
    refine carryOut_traces h hneeds fun e he => ?_
    have howner := Renaming.blames_place trail j e he
    cases e with
    | cyclicReference chain => cases howner
    | _ => rfl
  intro s hm hs
  rw [visit_apply]
  split
  · exact hclosed.pure j s hm hs
  · rw [hm]
    exact hclosed.bind hplan (hclosed.mapSlots htranslate trail) s hm hs

/-- The chains of the walk of a card start where the cards go that its query reads from. -/
theorem walkCard_traces (h : TracesCards mapping require) (card : CardId) (document : Json) :
    Traces mapping ((⟨mapping, .card card⟩ : Renaming).destinationsOf (queriedCards document)) Json
      (walkDocument require (.card card) document) := by
  rw [walkDocument_eq]
  refine (closed_traces mapping _).card_reached (fun trail j hbeside => ?_) rfl document
    fun q hq k p hp trail j hkind hj => ?_
  · exact visit_traces h ((Renaming.needsIn_place_beside hbeside j).mono (Set.empty_subset _))
  · have hplace := hp.kind_cases (.inl rfl)
    rw [← Option.some_inj, ← Option.some_inj (b := PlaceKind.join), ← hkind] at hplace
    refine visit_traces h ((Renaming.needsIn_place_query hplace j).mono ?_)
    rintro d ⟨c, hc, hd⟩
    refine ⟨c, ?_, hd⟩
    rw [sourceCards, hj, ← sourceCards] at hc
    rw [queriedCards, hq]
    exact (sourceCards_subset hp).1 rfl hc

theorem walkDocument_traces (h : TracesCards mapping require) (entity : Entity) (document : Json) :
    Traces mapping Set.univ Json (walkDocument require entity document) :=
  walkDocument_of_visit (closed_traces mapping _)
    (fun _ _ => visit_traces h fun _ _ => Set.mem_univ _) document

end Traced

/-! ## Migrations -/

section Migration

variable [Remote ρ] {mapping : Mapping}

theorem fetchDocument_course (entity : Entity) {s : Session (Recorded ρ) μ} (hs : s.Guarded) :
    ∃ answer, s.Course (fetchDocument entity s).2 [.fetch s.remote.purpose entity answer] := by
  obtain ⟨answer, hpassage, -⟩ := fetchDocument_passage entity s
  exact ⟨answer, hpassage.course hs⟩

/-- Only the entity itself is offered. -/
theorem push_course (entity : Entity) (document : Json) {s : Session (Recorded ρ) μ} (hs : s.Guarded) :
    ∃ news, s.Course (push entity document s).2 news ∧
      ∀ card, Offered news card → entity = .card card := by
  obtain ⟨news, hpassage, hkept⟩ := push_passage entity document s
  refine ⟨news, hpassage.course hs, ?_⟩
  rintro card ⟨purpose, d, answer, h⟩
  by_contra hcard
  exact (hkept (.card card) (Ne.symm hcard)).offered purpose d answer h

theorem not_offered_fetch {purpose : Purpose} {entity : Entity} {answer : Except RemoteError Json}
    (card : CardId) : ¬Offered [.fetch purpose entity answer] card := by
  rintro ⟨purpose', document, answer', h⟩
  cases List.mem_singleton.1 h

variable [Provider μ] {require : CardId → Migrating (Recorded ρ) μ Unit}

omit [Remote ρ] in
/-- The walk of a fetched document, with the exchange that fetched it. A chain of a card's walk starts
where that card leads on to. -/
theorem walkFetched_traces (h : TracesCards mapping require) (entity : Entity) (purpose : Purpose)
    (document : Json) {s : Session (Recorded ρ) μ} (hm : s.mapping = mapping) (hs : s.Guarded) :
    ∃ news, s.Run mapping.moves
      {b | ∀ card, entity = .card card →
        LeadsOn mapping.moves (.fetch purpose entity (.ok document) :: news) card b}
      ∅ (walkDocument require entity document s).1 (walkDocument require entity document s).2 news := by
  obtain ⟨kind, id⟩ := entity
  cases kind with
  | card =>
    obtain ⟨news, hrun⟩ := walkCard_traces h ⟨id⟩ document s hm hs
    refine ⟨news, hrun.course, hrun.offered, fun chain hchain => ?_⟩
    obtain ⟨path, last, heq, hcloses⟩ := hrun.closes chain hchain
    refine ⟨path, last, heq, hcloses.mono (fun b hb card hcard => ?_) (List.Subset.refl _)⟩
    obtain rfl : (⟨id⟩ : CardId) = card := Entity.card_inj.1 hcard
    exact ⟨purpose, document, List.mem_cons_self, hb⟩
  | dashboard =>
    obtain ⟨news, hrun⟩ := walkDocument_traces h ⟨.dashboard, id⟩ document s hm hs
    refine ⟨news, hrun.course, hrun.offered, fun chain hchain => ?_⟩
    obtain ⟨path, last, heq, hcloses⟩ := hrun.closes chain hchain
    refine ⟨path, last, heq, hcloses.mono (fun b hb card hcard => ?_) (List.Subset.refl _)⟩
    cases congrArg Entity.kind hcard

/-- A migration offers migrated cards and, last of all, the card itself; a chain that it reports starts
where the card leads on to. -/
theorem migrateEntity_run (h : TracesCards mapping require) (entity : Entity)
    {s : Session (Recorded ρ) μ} (hm : s.mapping = mapping) (hs : s.Guarded) :
    ∃ news, s.Run mapping.moves {b | ∀ card, entity = .card card → LeadsOn mapping.moves news card b}
      {card | entity = .card card} (migrateEntity require entity s).1
      (migrateEntity require entity s).2 news := by
  obtain ⟨e, t, ht, hend⟩ | ⟨document, t, ht, hwalk⟩ := migrateEntity_cases require entity s
  · obtain ⟨answer, hfetched⟩ := fetchDocument_course entity hs
    rw [ht] at hfetched
    rw [hend]
    refine ⟨_, .of_course hfetched not_offered_fetch fun e' he' => ?_⟩
    obtain rfl := Except.error.inj he'
    exact (fetchDocument_failsAsking entity).neverCyclic s e (congrArg Prod.fst ht)
  have hfetched := (fetchDocument_passage_of_ok ht).1.course hs
  obtain ⟨news, hrun⟩ := walkFetched_traces h entity s.remote.purpose document
    (hfetched.steady.mapping.trans hm) hfetched.guarded
  have hbefore := hrun.after hfetched fun card hcard => absurd hcard (not_offered_fetch card)
  obtain ⟨e, u, hu, hend⟩ | ⟨document', u, hu, hend⟩ := hwalk <;> rw [hu] at hbefore
  · rw [hend]
    exact ⟨_, hbefore.of_error⟩
  · rw [hend]
    obtain ⟨news', hpushed, hown⟩ := push_course entity document' hbefore.course.guarded
    refine ⟨_, hbefore.course.trans hpushed, fun card hcard => ?_, fun chain hchain => ?_⟩
    · rcases offered_append.1 hcard with hcard | hcard
      · exact .inl (hpushed.migrated (hbefore.mem_migrated hcard))
      · cases hresult : (push entity document' u).1 with
        | ok v => exact .inr (.inl ⟨hown card hcard, v, rfl⟩)
        | error e => exact .inr (.inr ⟨e, rfl, (push_failsAsking entity document').neverCyclic u e hresult⟩)
    · cases (push_failsAsking entity document').neverCyclic u _ hchain

omit [Remote ρ] [Provider μ] in
/-- What is carried out with a card under way may offer that card, and has its chains start where the card
leads on to; or the card is refused before anything is asked for. -/
theorem once_traces {card : CardId} {act : Migrating (Recorded ρ) μ Unit}
    (hact : ∀ s : Session (Recorded ρ) μ, s.mapping = mapping → s.Guarded →
      ∃ news, s.Run mapping.moves {b | LeadsOn mapping.moves news card b} {card} (act s).1 (act s).2 news) :
    Traces mapping {card} Unit (once card act) := by
  intro s hm hs
  rw [once_apply]
  split
  · exact (closed_traces mapping {card}).pure () s hm hs
  next hnew =>
  have hnew : card ∉ s.migrated := by simpa [Session.isMigrated] using hnew
  split
  · next hunder =>
    exact ⟨[], .of_inProgress hs (by simpa using hunder)⟩
  next hunder =>
  have hunder : card ∉ s.inProgress := by simpa using hunder
  obtain ⟨news, hrun⟩ := hact (s.enter card) hm (hs.inside hnew hunder)
  rw [bind_apply, during_apply hrun.course.steady.inProgress]
  rcases h : act (s.enter card) with ⟨e | u, t⟩ <;> rw [h] at hrun
  · exact ⟨news, hrun.outside_error hs rfl⟩
  · exact ⟨news, hrun.outside_ok hs hunder rfl ()⟩

theorem migrateCardWithin_traces (depth : Nat) :
    TracesCards mapping (migrateCardWithin (ρ := Recorded ρ) (μ := μ) depth) := by
  induction depth with
  | zero =>
    refine fun card => once_traces fun s _ hs => ⟨[], ?_⟩
    exact .of_course (.refl hs) not_offered_nil (neverCyclic_throw rfl s)
  | succ depth ih =>
    refine fun card => once_traces fun s hm hs => ?_
    obtain ⟨news, hrun⟩ := migrateEntity_run ih (.card card) hm hs
    refine ⟨news, hrun.course, fun c hc => ?_, fun chain hchain => ?_⟩
    · refine (hrun.offered c hc).imp_right (.imp_left ?_)
      exact fun ⟨hc, ha⟩ => ⟨(Entity.card_inj.1 hc).symm, ha⟩
    · obtain ⟨path, last, heq, hcloses⟩ := hrun.closes chain hchain
      exact ⟨path, last, heq, hcloses.mono (fun b hb => hb card rfl) (List.Subset.refl _)⟩

theorem migrateCard_traces : TracesCards mapping (migrateCard (ρ := Recorded ρ) (μ := μ)) := by
  intro card s hm hs
  rw [migrateCard_apply]
  exact migrateCardWithin_traces s.depthLimit card s hm hs

end Migration

/-! ## Calls -/

variable [Remote ρ] [Provider μ]

/-- Only migrations report cyclic references. -/
theorem perform_neverCyclic {call : Call} (h : ∀ entity, call ≠ .migrate entity) :
    NeverCyclic (ρ := ρ) (μ := μ) _ call.perform := by
  cases call with
  | migrate entity => exact absurd rfl (h entity)
  | relabel entity replacements => exact FailsAsking.neverCyclic (relabel_failsAsking entity replacements).discard
  | collectLabels entity => exact FailsAsking.neverCyclic (collectLabels_failsAsking entity).discard

theorem migrate_run (entity : Entity) {s : Session (Recorded ρ) μ} (hs : s.Guarded) :
    ∃ news, s.Run s.mapping.moves
      {b | ∀ card, entity = .card card → b = card} {card | entity = .card card}
      (migrate entity s).1 (migrate entity s).2 news := by
  obtain ⟨kind, id⟩ := entity
  cases kind with
  | card =>
    obtain ⟨news, hrun⟩ := migrateCard_traces ⟨id⟩ s rfl hs
    refine ⟨news, hrun.course, fun c hc => ?_, fun chain hchain => ?_⟩
    · exact (hrun.offered c hc).imp_right (.imp_left fun h => absurd h.1 (Set.notMem_empty c))
    · obtain ⟨path, last, heq, hcloses⟩ := hrun.closes chain hchain
      refine ⟨path, last, heq, hcloses.mono ?_ (List.Subset.refl _)⟩
      rintro b rfl card hcard
      exact Entity.card_inj.1 hcard
  | dashboard =>
    obtain ⟨news, hrun⟩ := migrateEntity_run migrateCard_traces ⟨.dashboard, id⟩ rfl hs
    refine ⟨news, hrun.course, hrun.offered, fun chain hchain => ?_⟩
    obtain ⟨path, last, heq, hcloses⟩ := hrun.closes chain hchain
    refine ⟨path, last, heq, hcloses.mono (fun b _ card hcard => ?_) (List.Subset.refl _)⟩
    cases congrArg Entity.kind hcard

/-- A chain that is reported by a call on an idle session is a cycle. Only migrations report one. -/
theorem perform_cyclic (call : Call) {s t : Session (Recorded ρ) μ} (hidle : s.inProgress = [])
    {chain : List CardId} (h : call.perform s = (.error (.cyclicReference chain), t)) :
    ∃ entity news, call = .migrate entity ∧ t.remote.log = s.remote.log ++ news ∧
      t.Cycle s.mapping.moves entity news chain := by
  by_cases hcall : ∃ entity, call = .migrate entity
  swap
  · cases perform_neverCyclic (fun entity he => hcall ⟨entity, he⟩) s _ (congrArg Prod.fst h)
  obtain ⟨entity, rfl⟩ := hcall
  have hs : s.Guarded := ⟨hidle ▸ .nil, fun card hcard => absurd (hidle ▸ hcard) List.not_mem_nil⟩
  obtain ⟨news, hrun⟩ := migrate_run entity hs
  rw [show migrate entity s = (.error (.cyclicReference chain), t) from h] at hrun
  have hidle' : t.inProgress = [] := hrun.course.steady.inProgress.trans hidle
  obtain ⟨path, last, hchain, hcloses⟩ := hrun.closes chain rfl
  have hnodup := hcloses.nodup
  have hlast := hcloses.closes
  rw [hidle', List.nil_append] at hchain hnodup hlast
  subst hchain
  refine ⟨entity, news, rfl, hrun.course.log, ⟨path, last, rfl, hnodup, hlast⟩, fun card hcard => ?_,
    hcloses.linked, fun card hcard => ?_⟩
  · obtain ⟨b, hb, hhead⟩ := hcloses.starts
    rw [hhead, hb card hcard]
  · have hpending : card ∉ t.migrated := by
      refine hcloses.pending card ?_
      rcases List.mem_append.1 hcard with hcard | hcard
      · exact hcard
      · exact List.mem_singleton.1 hcard ▸ hlast
    refine ⟨hpending, fun hoffered => ?_⟩
    rcases hrun.offered card hoffered with hmigrated | ⟨-, a, ha⟩ | ⟨e, he, hcyclic⟩
    · exact hpending hmigrated
    · cases ha
    · cases he
      cases hcyclic

end Migrating

end Rehome
