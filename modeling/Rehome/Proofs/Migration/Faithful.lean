import Mathlib.Data.List.Sort
import Rehome.Proofs.Migration.Acyclic
import Rehome.Proofs.Migration.Planned

/-! # Sessions that are faithful to what they were given

What the migration of an entity needs and comes to is settled by the documents that the installation held at
first (`Outset.plan`). A session is faithful while this shows: a card that has not been migrated still has its
first document, and one that has been migrated has what its plan comes to, and so has every card that the plan
needs. What is known of such a session after some cards have been migrated is an `Outset.Advance`; how the
migration of one entity may end, `Outset.Ends`. -/

namespace Rehome

open Relation

/-! ## Sorted ids -/

namespace Ident

variable {kind : IdentKind} {as bs : List (Ident kind)}

/-- Sorted lists of the same ids are the same. -/
theorem eq_of_pairwise_lt (has : as.Pairwise (· < ·)) (hbs : bs.Pairwise (· < ·))
    (h : ∀ a, a ∈ as ↔ a ∈ bs) : as = bs := by
  have hirrefl : Std.Irrefl (α := Ident kind) (· < ·) := ⟨fun a => Nat.lt_irrefl a.toNat⟩
  have hantisymm : Std.Antisymm (α := Ident kind) (· < ·) :=
    ⟨fun a b hab hba => absurd hba (Nat.lt_asymm hab)⟩
  exact has.eq_of_mem_iff hbs h

end Ident

/-! ## Pushes to an installation in memory -/

namespace Memory

/-- The installation answers all requests, and accepts whatever is pushed. -/
def Obliging (m : Memory) : Prop := ∀ entity, m.Obliges entity

/-- What the installation holds after it has accepted a document. -/
structure Accepts (entity : Entity) (document : Json) (m m' : Memory) : Prop where
  document? : ∀ e, m'.document? e = if e = entity then some document else m.document? e
  pushes : m'.pushes = m.pushes ++ [(entity, document)]
  obliging : m.Obliging → m'.Obliging

/-- What the installation holds after it has refused a document, if it was asked at all. -/
structure Refuses (entity : Entity) (document : Json) (m m' : Memory) : Prop where
  document? : ∀ e, m'.document? e = m.document? e
  pushes : m'.pushes = m.pushes ∨ m'.pushes = m.pushes ++ [(entity, document)]
  obliging : ¬m.Obliging

theorem pushes_write_push (entity : Entity) (document : Json) (m : Memory) :
    (m.write (.push entity document true)).pushes = m.pushes ++ [(entity, document)] := by
  rw [pushes, write, List.filterMap_append]
  rfl

theorem pushes_write_push_false (entity : Entity) (document : Json) (m : Memory) :
    (m.write (.push entity document false)).pushes = m.pushes := by
  rw [pushes, write, List.filterMap_append]
  exact List.append_nil _

theorem pushes_write_fetch (entity : Entity) (reached : Bool) (m : Memory) :
    (m.write (.fetch entity reached)).pushes = m.pushes := by
  rw [pushes, write, List.filterMap_append]
  exact List.append_nil _

theorem push_cases (entity : Entity) (document : Json) (m : Memory) :
    (∃ m', m.push entity document = (.ok Remote.accepted, m') ∧ Accepts entity document m m') ∨
    ∃ answer m', m.push entity document = (answer, m') ∧ answer ≠ .ok Remote.accepted ∧
      Refuses entity document m m' := by
  rw [push, takeNext]
  cases hfailure : m.pushFailures.lookup entity with
  | some status =>
    refine .inr ⟨_, _, rfl, by simp, fun _ => rfl, .inl (pushes_write_push_false ..), fun h => ?_⟩
    rw [(h entity).pushed] at hfailure
    cases hfailure
  | none =>
    dsimp only [takeNext]
    generalize hstatus : (m.statuses.lookup entity).getD Remote.accepted = status
    by_cases haccepted : status = Remote.accepted
    · rw [store, if_pos haccepted, haccepted]
      refine .inl ⟨_, rfl, fun e => Assoc.lookup_put entity e document m.documents, ?_, fun h e => ?_⟩
      · exact pushes_write_push entity document _
      · exact ⟨(h e).fetched, (h e).pushed, fun p hp => (h e).accepted p (List.mem_of_mem_eraseP hp)⟩
    · rw [store, if_neg haccepted]
      refine .inr ⟨_, _, rfl, by simpa using haccepted, fun _ => rfl, .inr ?_, fun h => haccepted ?_⟩
      · exact pushes_write_push entity document _
      · rw [← hstatus]
        cases hlookup : m.statuses.lookup entity with
        | none => rfl
        | some status => exact (h entity).accepted _ (Assoc.mem_of_lookup hlookup) rfl

end Memory

variable {μ : Type} {α β : Type}

namespace Migrating

/-- A push that is not kept back: what is remembered changes if it was accepted. -/
theorem push_memory_cases (entity : Entity) (document : Json) {s : Session Memory μ}
    (hs : s.dryRun = false) :
    (∃ m, push entity document s = (.ok (), { s with remote := m }.markProduced entity document) ∧
      Memory.Accepts entity document s.remote m) ∨
    ∃ e m, push entity document s = (.error e, { s with remote := m }) ∧
      Memory.Refuses entity document s.remote m := by
  have hoffer : offer entity document s =
      ((Memory.push entity document s.remote).1.mapError .remote,
        { s with remote := (Memory.push entity document s.remote).2 }) := rfl
  rw [push_apply, if_neg (by simp [hs]), send, bind_assoc, bind_apply, hoffer]
  obtain ⟨m, hm, haccepts⟩ | ⟨answer, m, hm, hanswer, hrefuses⟩ := Memory.push_cases entity document s.remote
  · rw [hm]
    exact .inl ⟨m, rfl, haccepts⟩
  · rw [hm]
    cases answer with
    | error e => exact .inr ⟨.remote e, m, rfl, hrefuses⟩
    | ok status =>
      refine .inr ⟨.pushRefused entity status, m, ?_, hrefuses⟩
      have hstatus : status ≠ Remote.accepted := fun h => hanswer (congrArg _ h)
      dsimp only [Except.mapError]
      rw [if_pos hstatus]
      rfl

end Migrating

/-! ## Cards that need each other -/

namespace Outset

variable [Provider μ] (o : Outset μ)

/-- The plan of the first card needs the second one. -/
def Needs (a b : CardId) : Prop := b ∈ (o.plan (.card a)).needs

/-- Some cards, and all that their plans need, and so on. -/
def Reach (cards : Set CardId) : Set CardId := {c | ∃ a ∈ cards, ReflTransGen o.Needs a c}

/-- The plan of the card comes to a document, and those of all cards that it needs do. -/
inductive Completes : CardId → Prop
  | intro {card : CardId} {document : Json} : (o.plan (.card card)).outcome = .ok document →
      (∀ c, o.Needs card c → Completes c) → Completes card

variable {o}

theorem Completes.acc {card : CardId} (h : o.Completes card) : Acc (fun b a => o.Needs a b) card := by
  induction h with
  | intro _ _ ih => exact .intro _ fun c hc => ih c hc

theorem Reach.of_mem {cards : Set CardId} {c : CardId} (h : c ∈ cards) : c ∈ o.Reach cards :=
  ⟨c, h, .refl⟩

theorem Reach.mono {cards cards' : Set CardId} (h : cards ⊆ cards') : o.Reach cards ⊆ o.Reach cards' :=
  fun _ ⟨a, ha, hac⟩ => ⟨a, h ha, hac⟩

theorem reach_union (cards cards' : Set CardId) :
    o.Reach (cards ∪ cards') = o.Reach cards ∪ o.Reach cards' := by
  ext c
  constructor
  · rintro ⟨a, ha | ha, hac⟩
    · exact .inl ⟨a, ha, hac⟩
    · exact .inr ⟨a, ha, hac⟩
  · rintro (⟨a, ha, hac⟩ | ⟨a, ha, hac⟩)
    · exact ⟨a, .inl ha, hac⟩
    · exact ⟨a, .inr ha, hac⟩

/-- What can be reached from a card is the card, and what can be reached from the cards it needs. -/
theorem mem_reach_singleton {card c : CardId} :
    c ∈ o.Reach {card} ↔ c = card ∨ c ∈ o.Reach {b | o.Needs card b} := by
  constructor
  · rintro ⟨a, rfl, hac⟩
    rcases hac.cases_head with rfl | ⟨b, hb, hbc⟩
    · exact .inl rfl
    · exact .inr ⟨b, hb, hbc⟩
  · rintro (rfl | ⟨b, hb, hbc⟩)
    · exact .of_mem rfl
    · exact ⟨card, rfl, .head hb hbc⟩

/-- A set of cards that has all that its cards need has all that can be reached from them. -/
theorem reach_subset {cards closed : Set CardId} (h : cards ⊆ closed)
    (hclosed : ∀ a ∈ closed, ∀ b, o.Needs a b → b ∈ closed) : o.Reach cards ⊆ closed := by
  rintro c ⟨a, ha, hac⟩
  induction hac with
  | refl => exact h ha
  | tail _ hbc ih => exact hclosed _ ih _ hbc

/-- New pushes of cards: each carries what the plan of its card comes to, and every migrated card has been
pushed. -/
structure Accounts (o : Outset μ) (migrated : List CardId) (news : List (Entity × Json)) : Prop where
  result : ∀ card d, (.card card, d) ∈ news → o.Completes card ∧ (o.plan (.card card)).outcome = .ok d
  pushed : ∀ card ∈ migrated, ∃ d, (.card card, d) ∈ news

/-- What the installation holds, and was sent, agrees with the plans. -/
structure Faithful (o : Outset μ) (s : Session Memory μ) : Prop where
  governs : o.Governs s
  sends : s.dryRun = false
  guarded : s.Guarded
  sorted : s.migrated.Pairwise (· < ·)
  pending : ∀ card ∉ s.migrated, s.remote.document? (.card card) = o.memory.document? (.card card)
  done : ∀ card ∈ s.migrated, o.Completes card ∧
    ∃ d, (o.plan (.card card)).outcome = .ok d ∧ s.remote.document? (.card card) = some d
  closed : ∀ card ∈ s.migrated, ∀ c, o.Needs card c → c ∈ s.migrated
  sent : ∃ news, s.remote.pushes = o.memory.pushes ++ news ∧ o.Accounts s.migrated news

/-! ## Faithful sessions -/

/-- A faithful session, after some cards have been added to the migrated ones. -/
structure Advance (o : Outset μ) (cards : Set CardId) (s t : Session Memory μ) : Prop where
  faithful : o.Faithful t
  inProgress : t.inProgress = s.inProgress
  mem_migrated_iff : ∀ c, c ∈ t.migrated ↔ c ∈ s.migrated ∨ c ∈ cards
  dashboards : ∀ b, t.remote.document? (.dashboard b) = s.remote.document? (.dashboard b)
  obliging : s.remote.Obliging → t.remote.Obliging

variable {s t u : Session Memory μ} {cards cards' : Set CardId}

theorem faithful_start (o : Outset μ) : o.Faithful o.start where
  governs := ⟨rfl, rfl⟩
  sends := rfl
  guarded := ⟨.nil, fun _ hc => absurd hc List.not_mem_nil⟩
  sorted := .nil
  pending _ _ := rfl
  done _ hc := absurd hc List.not_mem_nil
  closed _ hc := absurd hc List.not_mem_nil
  sent := by
    refine ⟨[], (List.append_nil _).symm, ?_, fun _ hc => absurd hc List.not_mem_nil⟩
    exact fun _ _ h => absurd h List.not_mem_nil

theorem Faithful.reach_subset (hs : o.Faithful s) (h : ∀ c ∈ cards, c ∈ s.migrated) :
    ∀ c ∈ o.Reach cards, c ∈ s.migrated := by
  have hsubset : o.Reach cards ⊆ {c | c ∈ s.migrated} := Outset.reach_subset h hs.closed
  exact fun c hc => hsubset hc

/-- Requests that leave all documents alone, and push nothing, are of no matter. -/
theorem Faithful.of_remote (hs : o.Faithful s) {m : Memory}
    (hdocument : ∀ e, m.document? e = s.remote.document? e) (hpushes : m.pushes = s.remote.pushes) :
    o.Faithful { s with remote := m } where
  governs := ⟨hs.governs.mapping, hs.governs.translator⟩
  sends := hs.sends
  guarded := ⟨hs.guarded.nodup, hs.guarded.pending⟩
  sorted := hs.sorted
  pending card hcard := (hdocument _).trans (hs.pending card hcard)
  done card hcard := by
    obtain ⟨hcompletes, d, hd, hdone⟩ := hs.done card hcard
    exact ⟨hcompletes, d, hd, (hdocument _).trans hdone⟩
  closed := hs.closed
  sent := by
    obtain ⟨news, hnews, haccounts⟩ := hs.sent
    exact ⟨news, hpushes.trans hnews, haccounts⟩

/-- Faithful sessions that have migrated the same cards hold the same documents of cards. -/
theorem Faithful.document?_congr (hs : o.Faithful s) (ht : o.Faithful t)
    (h : ∀ c, c ∈ s.migrated ↔ c ∈ t.migrated) (card : CardId) :
    s.remote.document? (.card card) = t.remote.document? (.card card) := by
  by_cases hcard : card ∈ s.migrated
  · obtain ⟨-, d, hd, hdocument⟩ := hs.done card hcard
    obtain ⟨-, d', hd', hdocument'⟩ := ht.done card ((h card).1 hcard)
    rw [hdocument, hdocument', Except.ok.inj (hd.symm.trans hd')]
  · rw [hs.pending card hcard, ht.pending card fun hcard' => hcard ((h card).2 hcard')]

theorem Faithful.inside (hs : o.Faithful s) {card : CardId} (hnew : card ∉ s.migrated)
    (hunder : card ∉ s.inProgress) : o.Faithful (s.enter card) :=
  { hs with
    governs := ⟨hs.governs.mapping, hs.governs.translator⟩
    guarded := hs.guarded.inside hnew hunder }

theorem Advance.of_remote (hs : o.Faithful s) {m : Memory}
    (hdocument : ∀ e, m.document? e = s.remote.document? e) (hpushes : m.pushes = s.remote.pushes)
    (hobliging : s.remote.Obliging → m.Obliging) : o.Advance ∅ s { s with remote := m } where
  faithful := hs.of_remote hdocument hpushes
  inProgress := rfl
  mem_migrated_iff c := (or_iff_left (Set.notMem_empty c)).symm
  dashboards _ := hdocument _
  obliging := hobliging

/-- Cards that have been migrated need not be added. -/
theorem Advance.of_mem (hs : o.Faithful s) (h : ∀ c ∈ cards, c ∈ s.migrated) : o.Advance cards s s where
  faithful := hs
  inProgress := rfl
  mem_migrated_iff c := (or_iff_left_of_imp (h c)).symm
  dashboards _ := rfl
  obliging := id

theorem Advance.refl (hs : o.Faithful s) : o.Advance ∅ s s :=
  .of_mem hs fun c hc => absurd hc (Set.notMem_empty c)

theorem Advance.trans (h : o.Advance cards s t) (h' : o.Advance cards' t u) :
    o.Advance (cards ∪ cards') s u where
  faithful := h'.faithful
  inProgress := h'.inProgress.trans h.inProgress
  mem_migrated_iff c := by rw [h'.mem_migrated_iff, h.mem_migrated_iff, or_assoc, Set.mem_union]
  dashboards b := (h'.dashboards b).trans (h.dashboards b)
  obliging := h'.obliging ∘ h.obliging

/-- A new push of what the plan of an entity comes to, after all that the plan needs was migrated. -/
theorem Accounts.append {migrated : List CardId} {news : List (Entity × Json)}
    (h : o.Accounts migrated news) {entity : Entity} {d : Json}
    (hd : (o.plan entity).outcome = .ok d) (hneeds : ∀ c ∈ (o.plan entity).needs, o.Completes c) :
    o.Accounts migrated (news ++ [(entity, d)]) where
  result card d' h' := by
    rcases List.mem_append.1 h' with h' | h'
    · exact h.result card d' h'
    · obtain ⟨rfl, rfl⟩ := Prod.mk.inj (List.mem_singleton.1 h')
      exact ⟨.intro hd hneeds, hd⟩
  pushed card hcard := by
    obtain ⟨d', hd'⟩ := h.pushed card hcard
    exact ⟨d', List.mem_append_left _ hd'⟩

/-- How the migration of an entity may end: with a failure, or with the push of what its plan comes to,
after all that the plan needs was migrated. -/
inductive Ends (o : Outset μ) (entity : Entity) (cards : Set CardId) (s : Session Memory μ) :
    Except MigrationError Unit → Session Memory μ → Prop
  | failed {e : MigrationError} {t : Session Memory μ} : o.Advance cards s t →
      Ends o entity cards s (.error e) t
  | pushed {d : Json} {t : Session Memory μ} {m : Memory} : (o.plan entity).outcome = .ok d →
      (∀ c ∈ (o.plan entity).needs, c ∈ t.migrated) → o.Advance cards s t →
      Memory.Accepts entity d t.remote m →
      Ends o entity cards s (.ok ()) ({ t with remote := m }.markProduced entity d)

theorem Ends.inProgress {entity : Entity} {result : Except MigrationError Unit}
    (h : o.Ends entity cards s result t) : t.inProgress = s.inProgress := by
  cases h with
  | failed hadvance => exact hadvance.inProgress
  | pushed _ _ hadvance => exact hadvance.inProgress

theorem Advance.refused {entity : Entity} {d : Json} {m : Memory} (h : o.Advance cards s t)
    (hd : (o.plan entity).outcome = .ok d) (hneeds : ∀ c ∈ (o.plan entity).needs, c ∈ t.migrated)
    (hm : Memory.Refuses entity d t.remote m) : o.Advance cards s { t with remote := m } := by
  have ht := h.faithful
  have hfaithful : o.Faithful { t with remote := m } := by
    rcases hm.pushes with hpushes | hpushes
    · exact ht.of_remote hm.document? hpushes
    · refine { ht with
        governs := ⟨ht.governs.mapping, ht.governs.translator⟩
        guarded := ⟨ht.guarded.nodup, ht.guarded.pending⟩
        pending := fun c hc => (hm.document? _).trans (ht.pending c hc)
        done := fun c hc => ?_
        sent := ?_ }
      · obtain ⟨hcompletes, d', hd', hdone⟩ := ht.done c hc
        exact ⟨hcompletes, d', hd', (hm.document? _).trans hdone⟩
      · obtain ⟨news, hnews, haccounts⟩ := ht.sent
        refine ⟨news ++ [(entity, d)], ?_, haccounts.append hd fun c hc => (ht.done c (hneeds c hc)).1⟩
        rw [hpushes, hnews, List.append_assoc]
  refine ⟨hfaithful, h.inProgress, h.mem_migrated_iff, fun b => ?_, fun hs => ?_⟩
  · exact (hm.document? _).trans (h.dashboards b)
  · exact absurd (h.obliging hs) hm.obliging

/-- A card that was under way is migrated once what its plan comes to has been pushed. -/
theorem Faithful.pushed {card : CardId} {d : Json} {m : Memory} (ht : o.Faithful t) (hs : s.Guarded)
    (hchain : t.inProgress = s.inProgress ++ [card]) (hunder : card ∉ s.inProgress)
    (hd : (o.plan (.card card)).outcome = .ok d) (hneeds : ∀ c, o.Needs card c → c ∈ t.migrated)
    (hm : Memory.Accepts (.card card) d t.remote m) :
    o.Faithful (Session.markMigrated card
      { Session.markProduced (.card card) d { t with remote := m } with inProgress := s.inProgress }) where
  governs := ⟨ht.governs.mapping, ht.governs.translator⟩
  sends := ht.sends
  guarded := by
    refine ⟨hs.nodup, fun c hc hmigrated => ?_⟩
    rcases mem_insertSorted.1 hmigrated with rfl | hmigrated
    · exact hunder hc
    · exact ht.guarded.pending c (by rw [hchain]; exact List.mem_append_left _ hc) hmigrated
  sorted := pairwise_insertSorted ht.sorted card
  pending c hc := by
    rw [Session.markMigrated, mem_insertSorted, not_or] at hc
    refine (hm.document? _).trans ?_
    rw [if_neg fun heq => hc.1 (Entity.card_inj.1 heq)]
    exact ht.pending c hc.2
  done c hc := by
    show o.Completes c ∧ ∃ d', (o.plan (.card c)).outcome = .ok d' ∧ m.document? (.card c) = some d'
    rw [hm.document?]
    rcases mem_insertSorted.1 hc with rfl | hc
    · exact ⟨.intro hd fun b hb => (ht.done b (hneeds b hb)).1, d, hd, if_pos rfl⟩
    · obtain ⟨hdone, d', hd', hdocument⟩ := ht.done c hc
      refine ⟨hdone, d', hd', ?_⟩
      split
      · next heq =>
        rw [Entity.card_inj.1 heq] at hd'
        exact congrArg some (Except.ok.inj (hd.symm.trans hd'))
      · exact hdocument
  closed c hc b hb := by
    rcases mem_insertSorted.1 hc with rfl | hc
    · exact mem_insertSorted.2 (.inr (hneeds b hb))
    · exact mem_insertSorted.2 (.inr (ht.closed c hc b hb))
  sent := by
    obtain ⟨news, hnews, haccounts⟩ := ht.sent
    have happend := haccounts.append hd fun c hc => (ht.done c (hneeds c hc)).1
    refine ⟨news ++ [(.card card, d)], ?_, happend.result, fun c hc => ?_⟩
    · show m.pushes = _
      rw [hm.pushes, hnews, List.append_assoc]
    · rcases mem_insertSorted.1 hc with rfl | hc
      · exact ⟨d, List.mem_append_right _ (List.mem_singleton.2 rfl)⟩
      · exact happend.pushed c hc

/-- A card that was under way is added to the migrated ones. -/
theorem Ends.outside_ok {card : CardId} (hs : o.Faithful s) (hunder : card ∉ s.inProgress)
    (h : o.Ends (.card card) cards (s.enter card) (.ok ()) u) :
    o.Advance (cards ∪ {card}) s (Session.markMigrated card { u with inProgress := s.inProgress }) := by
  cases h with
  | @pushed d t m hd hneeds hadvance haccepts =>
  have hmem (c : CardId) : c ∈ insertSorted card t.migrated ↔ c ∈ s.migrated ∨ c ∈ cards ∪ {card} := by
    rw [mem_insertSorted, hadvance.mem_migrated_iff, s.migrated_enter, Set.mem_union, Set.mem_singleton_iff,
      or_comm, or_assoc]
  constructor
  case faithful =>
    exact hadvance.faithful.pushed hs.guarded hadvance.inProgress hunder hd hneeds haccepts
  case inProgress => rfl
  case mem_migrated_iff => exact hmem
  case dashboards =>
    intro b
    refine (haccepts.document? _).trans ?_
    rw [if_neg (by simp [Entity.card, Entity.dashboard])]
    exact hadvance.dashboards b
  case obliging => exact fun hobliging => haccepts.obliging (hadvance.obliging hobliging)

theorem Ends.outside_error {card : CardId} {e : MigrationError} (hs : o.Faithful s)
    (h : o.Ends (.card card) cards (s.enter card) (.error e) u) :
    o.Advance cards s { u with inProgress := s.inProgress } := by
  cases h with
  | failed hadvance =>
    have hu := hadvance.faithful
    have hchain : u.inProgress = s.inProgress ++ [card] := hadvance.inProgress
    have hpending (c : CardId) (hc : c ∈ s.inProgress) : c ∉ u.migrated :=
      hu.guarded.pending c (by rw [hchain]; exact List.mem_append_left _ hc)
    have hfaithful : o.Faithful { u with inProgress := s.inProgress } :=
      { hu with
        governs := ⟨hu.governs.mapping, hu.governs.translator⟩
        guarded := ⟨hs.guarded.nodup, hpending⟩ }
    exact ⟨hfaithful, rfl, hadvance.mem_migrated_iff, hadvance.dashboards, hadvance.obliging⟩

end Outset

end Rehome
