import Rehome.Proofs.Migration.Faithful

/-! # Requests of a faithful session

Whatever a session is asked for, it stays faithful (`migrate_bounded`). The migrated cards that are new can be
reached from the entity that was asked for, through what plans need; if the request succeeds, all of these have
been migrated. -/

namespace Rehome

variable {μ : Type} {α β : Type}

namespace Migrating

open Outset

variable [Provider μ] {o : Outset μ} {s : Session Memory μ} {cards starts : Set CardId}

/-! ## Migrations of entities -/

/-- A session after the documents of an entity were asked for. -/
def asked (entity : Entity) (s : Session Memory μ) : Session Memory μ :=
  { s with remote := s.remote.write (.fetch entity true) }

theorem advance_asked (hs : o.Faithful s) (entity : Entity) : o.Advance ∅ s (asked entity s) :=
  .of_remote hs (fun _ => rfl) (Memory.pushes_write_fetch ..) fun h e =>
    ⟨(h e).fetched, (h e).pushed, (h e).accepted⟩

/-- A fetch that fails is the end of a migration. -/
theorem migrateEntity_unanswered (hs : o.Faithful s) {entity : Entity} {status : Nat}
    (h : s.remote.fetchFailures.lookup entity = some status) :
    o.Ends entity ∅ s (migrateEntity migrateCard entity s).1 (migrateEntity migrateCard entity s).2 ∧
      ¬s.remote.Obliging := by
  have hfetch : fetch entity s = (.error (.remote (.status entity status)), { s with
      remote := Memory.write (.fetch entity false)
        { s.remote with fetchFailures := s.remote.fetchFailures.eraseP (·.1 == entity) } }) := by
    rw [fetch_memory, Memory.answer_of_some h, Memory.fetched, h]
    rfl
  have hnot : ¬s.remote.Obliging := by
    intro hobliging
    rw [(hobliging entity).fetched] at h
    cases h
  rw [migrateEntity, fetchDocument, bind_assoc, bind_of_error hfetch]
  refine ⟨.failed (.of_remote hs (fun _ => rfl) (Memory.pushes_write_fetch ..) ?_), hnot⟩
  exact fun hobliging => absurd hobliging hnot

/-- A migration whose document can be fetched ends as its plan has it. If the installation refuses nothing,
its result is known from that of the cards it needs. -/
theorem migrateEntity_ends (hs : o.Faithful s) {entity : Entity}
    (hdocument : s.remote.document? entity = o.memory.document? entity)
    (hanswers : s.remote.fetchFailures.lookup entity = none)
    (hneeds : o.Advance cards (asked entity s) ((o.plan entity).needs.forM migrateCard (asked entity s)).2) :
    o.Ends entity cards s (migrateEntity migrateCard entity s).1 (migrateEntity migrateCard entity s).2 ∧
    (s.remote.Obliging → (migrateEntity migrateCard entity s).1 =
      ((o.plan entity).needs.forM migrateCard (asked entity s)).1 >>= fun _ =>
        (o.plan entity).outcome.map fun _ => ()) := by
  have hadvance := (advance_asked hs entity).trans hneeds
  rw [Set.empty_union] at hadvance
  rw [migrateEntity_planned hs.governs hdocument hanswers, carryOut, bind_assoc, ← asked]
  rcases hforM : (o.plan entity).needs.forM migrateCard (asked entity s) with ⟨e | v, t⟩ <;>
    rw [hforM] at hadvance
  · rw [bind_of_error hforM]
    exact ⟨.failed hadvance, fun _ => rfl⟩
  rw [bind_of_ok hforM]
  cases houtcome : (o.plan entity).outcome with
  | error e => exact ⟨.failed hadvance, fun _ => rfl⟩
  | ok d =>
    rw [pure_bind]
    have hmigrated := mem_migrated_of_forM hforM
    obtain ⟨m, hpush, haccepts⟩ | ⟨e, m, hpush, hrefuses⟩ :=
      push_memory_cases entity d hadvance.faithful.sends
    · rw [hpush]
      exact ⟨.pushed houtcome hmigrated hadvance haccepts, fun _ => rfl⟩
    · rw [hpush]
      refine ⟨.failed (hadvance.refused houtcome hmigrated hrefuses), fun hobliging => ?_⟩
      exact absurd (hadvance.obliging hobliging) hrefuses.obliging

/-! ## Migrations of cards -/

/-- A new card is added to the migrated ones if its migration succeeds. -/
theorem once_ends {card : CardId} {act : Migrating Memory μ Unit} (hs : o.Faithful s)
    (hnew : card ∉ s.migrated) (hunder : card ∉ s.inProgress)
    (h : o.Ends (.card card) cards (s.enter card) (act (s.enter card)).1 (act (s.enter card)).2) :
    (once card act s).1 = (act (s.enter card)).1 ∧
    o.Advance (cards ∪ {c | c = card ∧ (once card act s).1 = .ok ()}) s (once card act s).2 := by
  rw [once_of_new hnew hunder h.inProgress]
  rcases hact : act (s.enter card) with ⟨e | v, t⟩ <;> rw [hact] at h
  · refine ⟨rfl, ?_⟩
    have hnone : {c | c = card ∧ (Except.error e : Except MigrationError Unit) = .ok ()} = ∅ := by
      ext c
      simp
    rw [hnone, Set.union_empty]
    exact h.outside_error hs
  · refine ⟨rfl, ?_⟩
    have hone : {c | c = card ∧ (Except.ok () : Except MigrationError Unit) = .ok ()} = {card} := by
      ext c
      simp
    rw [hone]
    exact h.outside_ok hs hunder

/-- With these cards under way, the computation keeps a session faithful, and adds none but cards that can be
reached from some starts. -/
def Bounded (o : Outset μ) (chain : List CardId) (starts : Set CardId) (α : Type)
    (x : Migrating Memory μ α) : Prop :=
  ∀ s, o.Faithful s → s.inProgress = chain → ∃ cards ⊆ o.Reach starts, o.Advance cards s (x s).2

theorem closed_bounded (chain : List CardId) (starts : Set CardId) :
    Closed (Bounded o chain starts) where
  pure a s hs _ := ⟨∅, Set.empty_subset _, .refl hs⟩
  bind {α β x f} hx hf s hs hchain := by
    obtain ⟨cards, hcards, hadvance⟩ := hx s hs hchain
    rcases h : x s with ⟨e | a, t⟩ <;> rw [h] at hadvance
    · rw [bind_of_error h]
      exact ⟨cards, hcards, hadvance⟩
    · rw [bind_of_ok h]
      obtain ⟨cards', hcards', hadvance'⟩ := hf a t hadvance.faithful (hadvance.inProgress.trans hchain)
      exact ⟨cards ∪ cards', Set.union_subset hcards hcards', hadvance.trans hadvance'⟩

theorem Bounded.mono {chain : List CardId} {starts' : Set CardId} {x : Migrating Memory μ α}
    (h : Bounded o chain starts α x) (hstarts : starts ⊆ starts') : Bounded o chain starts' α x := by
  intro s hs hchain
  obtain ⟨cards, hcards, hadvance⟩ := h s hs hchain
  exact ⟨cards, hcards.trans (Reach.mono hstarts), hadvance⟩

/-- The migration of an entity adds none but cards that can be reached from what its plan needs. -/
theorem migrateEntity_bounded {entity : Entity} {chain : List CardId}
    (hrequire : ∀ c ∈ (o.plan entity).needs, Bounded o chain {c} Unit (migrateCard c)) (hs : o.Faithful s)
    (hchain : s.inProgress = chain) (hdocument : s.remote.document? entity = o.memory.document? entity) :
    ∃ cards ⊆ o.Reach {c | c ∈ (o.plan entity).needs},
      o.Ends entity cards s (migrateEntity migrateCard entity s).1 (migrateEntity migrateCard entity s).2 := by
  cases hanswers : s.remote.fetchFailures.lookup entity with
  | some status => exact ⟨∅, Set.empty_subset _, (migrateEntity_unanswered hs hanswers).1⟩
  | none =>
    have hneeds : Bounded o chain {c | c ∈ (o.plan entity).needs} Unit
        ((o.plan entity).needs.forM migrateCard) :=
      (closed_bounded chain _).forM_mem fun c hc => (hrequire c hc).mono (Set.singleton_subset_iff.2 hc)
    obtain ⟨cards, hcards, hadvance⟩ := hneeds (asked entity s) (advance_asked hs entity).faithful hchain
    exact ⟨cards, hcards, (migrateEntity_ends hs hdocument hanswers hadvance).1⟩

theorem migrateCard_bounded (o : Outset μ) (chain : List CardId) (card : CardId) :
    Bounded o chain {card} Unit (migrateCard card) := by
  refine nested_induction o.mapping (P := fun chain card => Bounded o chain {card} Unit (migrateCard card))
    ?_ chain card
  intro chain card ih s hs hchain
  rw [migrateCard_eq]
  by_cases hmigrated : card ∈ s.migrated
  · rw [once_apply, if_pos (by simpa [Session.isMigrated] using hmigrated)]
    exact ⟨∅, Set.empty_subset _, .refl hs⟩
  by_cases hunder : card ∈ s.inProgress
  · rw [once_apply, if_neg (by simpa [Session.isMigrated] using hmigrated), if_pos (by simpa using hunder)]
    exact ⟨∅, Set.empty_subset _, .refl hs⟩
  have hrequire : ∀ c ∈ (o.plan (.card card)).needs, Bounded o (chain ++ [card]) {c} Unit (migrateCard c) :=
    fun c hc => ih (hchain ▸ hunder) c (o.needsIn_plan _ c hc)
  obtain ⟨cards, hcards, hends⟩ := migrateEntity_bounded hrequire (hs.inside hmigrated hunder)
    (by rw [s.inProgress_enter, hchain]) (hs.pending card hmigrated)
  refine ⟨_, Set.union_subset (fun c hc => ?_) (fun c hc => ?_), (once_ends hs hmigrated hunder hends).2⟩
  · exact mem_reach_singleton.2 (.inr (hcards hc))
  · exact mem_reach_singleton.2 (.inl hc.1)

end Migrating

/-! ## Requests -/

namespace Outset

variable [Provider μ] (o : Outset μ)

/-- The cards that have to be migrated for an entity: the card itself, or what the plan of a dashboard
needs. -/
def wanted : Entity → Set CardId
  | ⟨.card, id⟩ => {⟨id⟩}
  | ⟨.dashboard, id⟩ => {c | c ∈ (o.plan ⟨.dashboard, id⟩).needs}

/-- The installation still has the first document of an entity, unless that is a card. -/
def Untouched (entity : Entity) (s : Session Memory μ) : Prop :=
  entity.kind = .dashboard → s.remote.document? entity = o.memory.document? entity

/-- A faithful session after the migration of an entity was asked for, and the result of that. -/
structure Answer (o : Outset μ) (entity : Entity) (cards : Set CardId) (s : Session Memory μ)
    (result : Except MigrationError Unit) (t : Session Memory μ) : Prop where
  faithful : o.Faithful t
  inProgress : t.inProgress = s.inProgress
  mem_migrated_iff : ∀ c, c ∈ t.migrated ↔ c ∈ s.migrated ∨ c ∈ cards
  dashboards : ∀ b, t.remote.document? (.dashboard b) =
    if entity = .dashboard b ∧ result = .ok () then (o.plan entity).outcome.toOption
    else s.remote.document? (.dashboard b)
  obliging : s.remote.Obliging → t.remote.Obliging
  completes : result = .ok () →
    (∀ c ∈ o.wanted entity, c ∈ t.migrated) ∧ ∃ d, (o.plan entity).outcome = .ok d

variable {o} {s t u : Session Memory μ} {cards : Set CardId} {result : Except MigrationError Unit}

theorem Advance.answer {card : CardId} (h : o.Advance cards s t)
    (hok : result = .ok () → card ∈ t.migrated) : o.Answer (.card card) cards s result t where
  faithful := h.faithful
  inProgress := h.inProgress
  mem_migrated_iff := h.mem_migrated_iff
  dashboards b := by
    rw [if_neg fun heq => by simp [Entity.card, Entity.dashboard] at heq]
    exact h.dashboards b
  obliging := h.obliging
  completes hresult := by
    have hcard := hok hresult
    obtain ⟨-, d, hd, -⟩ := h.faithful.done card hcard
    refine ⟨?_, d, hd⟩
    rintro c rfl
    exact hcard

theorem Ends.answer {b : DashboardId} (h : o.Ends (.dashboard b) cards s result t) :
    o.Answer (.dashboard b) cards s result t := by
  cases h with
  | failed hadvance =>
    refine ⟨hadvance.faithful, hadvance.inProgress, hadvance.mem_migrated_iff, fun b' => ?_,
      hadvance.obliging, fun hok => by cases hok⟩
    rw [if_neg fun h => by cases h.2]
    exact hadvance.dashboards b'
  | @pushed d t m hd hneeds hadvance haccepts =>
    have ht := hadvance.faithful
    have hcards (c : CardId) : m.document? (.card c) = t.remote.document? (.card c) := by
      rw [haccepts.document?, if_neg (by simp [Entity.card, Entity.dashboard])]
    refine ⟨⟨⟨ht.governs.mapping, ht.governs.translator⟩, ht.sends, ⟨ht.guarded.nodup, ht.guarded.pending⟩,
      ht.sorted, fun c hc => (hcards c).trans (ht.pending c hc), fun c hc => ?_, ht.closed, ?_⟩,
      hadvance.inProgress, hadvance.mem_migrated_iff, fun b' => ?_,
      fun hobliging => haccepts.obliging (hadvance.obliging hobliging), fun _ => ⟨hneeds, d, hd⟩⟩
    · obtain ⟨hcompletes, d', hd', hdone⟩ := ht.done c hc
      exact ⟨hcompletes, d', hd', (hcards c).trans hdone⟩
    · obtain ⟨news, hnews, haccounts⟩ := ht.sent
      refine ⟨news ++ [(.dashboard b, d)], ?_, haccounts.append hd fun c hc => (ht.done c (hneeds c hc)).1⟩
      show m.pushes = _
      rw [haccepts.pushes, hnews, List.append_assoc]
    · refine (haccepts.document? _).trans ?_
      by_cases hb : Entity.dashboard b = .dashboard b'
      · rw [if_pos hb.symm, if_pos ⟨hb, rfl⟩, hd]
        rfl
      · rw [if_neg (Ne.symm hb), if_neg fun h => hb h.1]
        exact hadvance.dashboards b'

end Outset

namespace Migrating

open Outset

variable [Provider μ] {o : Outset μ} {s : Session Memory μ}

/-- A request adds none but cards that can be reached from those that are wanted. -/
theorem migrate_bounded {entity : Entity} (hs : o.Faithful s) (hidle : s.inProgress = [])
    (hentity : o.Untouched entity s) : ∃ cards ⊆ o.Reach (o.wanted entity),
      o.Answer entity cards s (migrate entity s).1 (migrate entity s).2 := by
  obtain ⟨kind, id⟩ := entity
  cases kind with
  | card =>
    obtain ⟨cards, hcards, hadvance⟩ := migrateCard_bounded o [] ⟨id⟩ s hs hidle
    refine ⟨cards, hcards, hadvance.answer fun hok => ?_⟩
    exact mem_migrated_of_migrateCard (Prod.ext hok rfl)
  | dashboard =>
    obtain ⟨cards, hcards, hends⟩ := migrateEntity_bounded (fun c _ => migrateCard_bounded o [] c) hs hidle
      (hentity rfl)
    exact ⟨cards, hcards, Ends.answer (b := ⟨id⟩) hends⟩

end Migrating

end Rehome
