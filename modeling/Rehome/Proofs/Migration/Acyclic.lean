import Mathlib.Logic.Relation
import Rehome.Proofs.Migration.Again
import Rehome.Proofs.Migration.Chain
import Rehome.Proofs.Migration.Depth
import Rehome.Proofs.Migration.Memory

/-! # Migrations that fail because of cycles alone

Consider an installation in memory that holds what is needed for a card and refuses nothing. Then the
migration of the card succeeds exactly when no cycle of references can be reached from it, and otherwise
reports a cycle (`migrateCard_exact`). What carries the induction along nested migrations is that every
migrated card is grounded, as all cards were that it refers to when it was migrated; and that the cards
under way refer to each other, so the card that is refused closes a cycle. -/

namespace Rehome

open Relation

/-! ## References -/

/-- From a grounded element no cycle can be reached. -/
theorem not_transGen_of_acc {α : Type} {r : α → α → Prop} {a b : α} (ha : Acc (fun y x => r x y) a)
    (hab : ReflTransGen r a b) : ¬TransGen r b b := by
  induction ha generalizing b with
  | intro a _ ih =>
    intro hbb
    rcases hab.cases_head with rfl | ⟨c, hac, hcb⟩
    · obtain ⟨c, hac, hca⟩ := TransGen.head'_iff.1 hbb
      exact ih c hac hca hbb
    · exact ih c hac hcb hbb

/-- A chain that comes to an element that it has passed makes a cycle. -/
theorem transGen_of_isChain {α : Type} {r : α → α → Prop} {as : List α} {a : α}
    (h : (as ++ [a]).IsChain r) (ha : a ∈ as) : TransGen r a a := by
  obtain ⟨before, after, rfl⟩ := List.append_of_mem ha
  rw [List.append_assoc, List.cons_append] at h
  have hcycle : (a :: (after ++ [a])).IsChain r := h.right_of_append
  cases after with
  | nil => exact .single (List.isChain_cons_cons.1 hcycle).1
  | cons b after =>
    obtain ⟨hab, hrest⟩ := List.isChain_cons_cons.1 hcycle
    refine TransGen.head' hab (List.relationReflTransGen_of_exists_isChain_cons _ hrest ?_)
    simp

namespace Memory

/-- The document of the first card reads from a card that moves to the second one. -/
def Refers (moves : Moves) (m : Memory) (a b : CardId) : Prop :=
  ∃ document, m.document? (.card a) = some document ∧
    ∃ c ∈ queriedCards document, moves.card? c = some b

/-- The installation answers the requests for an entity, and accepts whatever is pushed. -/
structure Obliges (m : Memory) (entity : Entity) : Prop where
  fetched : m.fetchFailures.lookup entity = none
  pushed : m.pushFailures.lookup entity = none
  accepted : ∀ p ∈ m.statuses, p.1 = entity → p.2 = Remote.accepted

/-- The installation holds a document for a card, and refuses nothing about it; nothing is wrong with the
document, so it can be renamed once the cards it needs have been migrated. -/
structure Migratable (mapping : Mapping) (m : Memory) (card : CardId) : Prop where
  obliges : m.Obliges (.card card)
  document : ∃ document, m.document? (.card card) = some document ∧ document.isObj ∧
    ∃ renamed, (Renaming.document ⟨mapping, .card card⟩ document).outcome = .ok renamed

theorem migratable_of_isOk {mapping : Mapping} {m : Memory} {card : CardId} (hobliges : m.Obliges (.card card))
    (h : ((m.document? (.card card)).any fun d =>
      d.isObj && (Renaming.document ⟨mapping, .card card⟩ d).outcome.isOk) = true) :
    m.Migratable mapping card := by
  obtain ⟨document, hdocument, h⟩ := (Option.any_eq_true _ _).1 h
  obtain ⟨hobj, hok⟩ := Bool.and_eq_true_iff.1 h
  refine ⟨hobliges, document, hdocument, hobj, ?_⟩
  cases hrenamed : (Renaming.document ⟨mapping, .card card⟩ document).outcome with
  | ok renamed => exact ⟨renamed, rfl⟩
  | error e =>
    rw [hrenamed] at hok
    cases hok

theorem refers_iff_mem {moves : Moves} {m : Memory} {a b : CardId} : m.Refers moves a b ↔
    b ∈ (((m.document? (.card a)).map queriedCards).getD []).filterMap moves.card? := by
  cases h : m.document? (.card a) with
  | none => simp [Refers, h]
  | some document => simp [Refers, h]

theorem refers_iff_contains {moves : Moves} {m : Memory} {a b : CardId} : m.Refers moves a b ↔
    ((((m.document? (.card a)).map queriedCards).getD []).filterMap moves.card?).contains b = true := by
  rw [refers_iff_mem, List.contains_iff_mem]

instance (moves : Moves) (m : Memory) (a b : CardId) : Decidable (m.Refers moves a b) :=
  decidable_of_iff _ refers_iff_contains.symm

variable {m : Memory} {entity : Entity}

theorem push_of_obliges (h : m.Obliges entity) (document : Json) :
    ∃ m', m.push entity document = (.ok Remote.accepted, m') ∧
      (∀ e, m.Obliges e → m'.Obliges e) ∧ ∀ e ≠ entity, m'.document? e = m.document? e := by
  have hstatus : (m.statuses.lookup entity).getD Remote.accepted = Remote.accepted := by
    cases hlookup : m.statuses.lookup entity with
    | none => rfl
    | some status => exact h.accepted _ (Assoc.mem_of_lookup hlookup) rfl
  have hpush : m.push entity document = (.ok Remote.accepted,
      ({ m with statuses := m.statuses.eraseP (·.1 == entity) }.write (.push entity document true)
        ).withDocument entity document) := by
    rw [push, takeNext, h.pushed]
    simp only [takeNext, hstatus, store, if_pos]
  refine ⟨_, hpush, fun e he => ⟨he.fetched, he.pushed, fun p hp => ?_⟩, fun e he => ?_⟩
  · exact he.accepted p (List.mem_of_mem_eraseP hp)
  · exact Assoc.lookup_put_of_ne he document m.documents

end Memory

/-! ## Sessions -/

section Sessions

variable {μ : Type} (mapping : Mapping) (m : Memory) (cards : Set CardId)

/-- A session without a translator that has been about these cards alone: what the installation held at
first for a card, it still holds for the cards that have not been migrated, and those that have been
migrated are grounded. -/
structure Session.Undisturbed (s : Session Memory μ) : Prop where
  obliges : ∀ card ∈ cards, s.remote.Obliges (.card card)
  document : ∀ card ∉ s.migrated, s.remote.document? (.card card) = m.document? (.card card)
  grounded : ∀ card ∈ s.migrated, Acc (fun b a => m.Refers mapping.moves a b) card
  mapping : s.mapping = mapping
  translator : s.translator = none

namespace Migrating

variable {α β : Type}

/-- With these cards under way, the computation succeeds and leaves the session undisturbed, or it reports
cyclic references, and then there is a cycle. -/
def Decides (chain : List CardId) (α : Type) (x : Migrating Memory μ α) : Prop :=
  ∀ s, s.inProgress = chain → s.Undisturbed mapping m cards →
    (∃ a t, x s = (.ok a, t) ∧ t.inProgress = chain ∧ t.Undisturbed mapping m cards) ∨
    ∃ cycle t, x s = (.error (.cyclicReference cycle), t) ∧
      ∃ a ∈ cards, TransGen (m.Refers mapping.moves) a a

theorem closed_decides (chain : List CardId) : Closed (Decides (μ := μ) mapping m cards chain) where
  pure a s hchain hs := .inl ⟨a, s, rfl, hchain, hs⟩
  bind {α β x f} hx hf s hchain hs := by
    obtain ⟨a, t, h, hchain', ht⟩ | ⟨cycle, t, h, hcycle⟩ := hx s hchain hs
    · rw [bind_of_ok h]
      exact hf a t hchain' ht
    · exact .inr ⟨cycle, t, bind_of_error h f, hcycle⟩

variable {mapping m cards}

theorem fetchDocument_undisturbed {s : Session Memory μ} (hs : s.Undisturbed mapping m cards)
    {card : CardId} (hcard : card ∈ cards) (hnew : card ∉ s.migrated) {document : Json}
    (hdocument : m.document? (.card card) = some document) (hobj : document.isObj) :
    ∃ t, fetchDocument (.card card) s = (.ok document, t) ∧ t.Undisturbed mapping m cards ∧
      t.inProgress = s.inProgress ∧ t.migrated = s.migrated := by
  have hfetch : fetch (.card card) s =
      (.ok document, { s with remote := s.remote.write (.fetch (.card card) true) }) := by
    have hanswers := (hs.obliges card hcard).fetched
    rw [fetch_memory, Memory.answer_of_none hanswers, (hs.document card hnew).trans hdocument, Memory.fetched,
      hanswers]
    rfl
  have hfetched : fetchDocument (.card card) s =
      (.ok document, { s with remote := s.remote.write (.fetch (.card card) true) }) := by
    rw [fetchDocument, bind_of_ok hfetch, Entity.checkDocument, if_pos hobj]
    rfl
  refine ⟨_, hfetched, ⟨fun c hc => ?_, hs.document, hs.grounded, hs.mapping, hs.translator⟩, rfl, rfl⟩
  exact ⟨(hs.obliges c hc).fetched, (hs.obliges c hc).pushed, (hs.obliges c hc).accepted⟩

/-- A card may be pushed when it is grounded, and is among the migrated ones then. -/
theorem push_undisturbed {s : Session Memory μ} (hs : s.Undisturbed mapping m cards) {card : CardId}
    (hcard : card ∈ cards) (hgrounded : Acc (fun b a => m.Refers mapping.moves a b) card)
    (document : Json) : ∃ t, push (.card card) document s = (.ok (), t) ∧
      ∀ chain, Session.Undisturbed mapping m cards
        (Session.markMigrated card { t with inProgress := chain }) := by
  have hmark {t : Session Memory μ} (hmapping : t.mapping = s.mapping)
      (htranslator : t.translator = s.translator) (hmigrated : t.migrated = s.migrated)
      (hobliges : ∀ e, s.remote.Obliges e → t.remote.Obliges e)
      (hdocument : ∀ e ≠ .card card, t.remote.document? e = s.remote.document? e) (chain : List CardId) :
      Session.Undisturbed mapping m cards (Session.markMigrated card { t with inProgress := chain }) := by
    refine ⟨fun c hc => hobliges _ (hs.obliges c hc), fun c hc => ?_, fun c hc => ?_,
      hmapping.trans hs.mapping, htranslator.trans hs.translator⟩
    · rw [Session.markMigrated, mem_insertSorted, not_or] at hc
      refine (hdocument _ fun heq => hc.1 (Entity.card_inj.1 heq)).trans (hs.document c ?_)
      rw [← hmigrated]
      exact hc.2
    · rcases mem_insertSorted.1 hc with rfl | hc
      · exact hgrounded
      · exact hs.grounded c (hmigrated ▸ hc)
  rw [push_apply]
  split
  · exact ⟨_, rfl, hmark rfl rfl rfl (fun _ => id) fun _ _ => rfl⟩
  · obtain ⟨remote, hremote, hobliges, hdocument⟩ :=
      Memory.push_of_obliges (hs.obliges card hcard) document
    have hoffer : offer (.card card) document s = (.ok Remote.accepted, { s with remote := remote }) := by
      show ((Memory.push (.card card) document s.remote).1.mapError _,
        { s with remote := (Memory.push (.card card) document s.remote).2 }) = _
      rw [hremote]
      rfl
    rw [send, bind_assoc, bind_of_ok hoffer]
    exact ⟨_, rfl, hmark rfl rfl rfl hobliges hdocument⟩

/-! ## Migrations -/

section Migration

variable [Provider μ] (hcards : ∀ a ∈ cards, m.Migratable mapping a)
  (hclosed : ∀ a ∈ cards, ∀ b, m.Refers mapping.moves a b → b ∈ cards)

include hcards

/-- With a card under way, the migration of its document decides as those of the cards it refers to do. -/
theorem migrateEntity_decides {card : CardId} {chain : List CardId} (hcard : card ∈ cards)
    (hrequire : ∀ b, m.Refers mapping.moves card b →
      Decides mapping m cards chain Unit (migrateCard (ρ := Memory) (μ := μ) b))
    {s : Session Memory μ} (hchain : s.inProgress = chain) (hnew : card ∉ s.migrated)
    (hs : s.Undisturbed mapping m cards) :
    (∃ t, migrateEntity migrateCard (.card card) s = (.ok (), t) ∧
      ∀ chain, Session.Undisturbed mapping m cards
        (Session.markMigrated card { t with inProgress := chain })) ∨
    ∃ cycle t, migrateEntity migrateCard (.card card) s = (.error (.cyclicReference cycle), t) ∧
      ∃ a ∈ cards, TransGen (m.Refers mapping.moves) a a := by
  obtain ⟨document, hdocument, hobj, renamed, hrenamed⟩ := (hcards card hcard).document
  obtain ⟨t, hfetched, ht, hchain', -⟩ := fetchDocument_undisturbed hs hcard hnew hdocument hobj
  have hneeds : ∀ b, b ∈ (Renaming.document ⟨mapping, .card card⟩ document).needs ↔
      m.Refers mapping.moves card b := by
    intro b
    refine (Renaming.mem_needs_walkCard rfl hrenamed b).trans ⟨fun hb => ⟨document, hdocument, hb⟩, ?_⟩
    rintro ⟨document', hdocument', hb⟩
    obtain rfl := Option.some.inj (hdocument.symm.trans hdocument')
    exact hb
  have hall : Decides mapping m cards chain Unit
      ((Renaming.document ⟨mapping, .card card⟩ document).needs.forM migrateCard) :=
    (closed_decides mapping m cards chain).forM_mem fun b hb => hrequire b ((hneeds b).1 hb)
  have hwalk := walkDocument_carriesOut migrateCard_untranslated (.card card) document t ht.mapping
    ht.translator
  rw [migrateEntity, bind_of_ok hfetched]
  obtain ⟨_, u, hmigrated, -, hu⟩ | ⟨cycle, u, hfailed, hcycle⟩ := hall t (hchain'.trans hchain) ht
  · rw [carryOut_eq_ok_iff.2 ⟨hmigrated, hrenamed⟩] at hwalk
    have hgrounded : Acc (fun b a => m.Refers mapping.moves a b) card := by
      refine .intro card fun b hb => hu.grounded b ?_
      exact mem_migrated_of_forM hmigrated b ((hneeds b).2 hb)
    left
    exact bind_of_ok hwalk _ ▸ push_undisturbed hu hcard hgrounded renamed
  · rw [carryOut, bind_of_error hfailed] at hwalk
    exact .inr ⟨cycle, u, bind_of_error hwalk _, hcycle⟩

include hclosed

theorem migrateCard_decides (chain : List CardId) (card : CardId) : card ∈ cards →
    (chain ++ [card]).IsChain (m.Refers mapping.moves) →
    Decides mapping m cards chain Unit (migrateCard (ρ := Memory) (μ := μ) card) := by
  refine nested_induction mapping (P := fun chain card => card ∈ cards →
    (chain ++ [card]).IsChain (m.Refers mapping.moves) →
    Decides mapping m cards chain Unit (migrateCard card)) ?_ chain card
  intro chain card ih hcard hlinked s hchain hs
  subst hchain
  rw [migrateCard_eq, once_apply]
  split
  · exact .inl ⟨(), s, rfl, rfl, hs⟩
  next hnew =>
  have hnew : card ∉ s.migrated := by simpa [Session.isMigrated] using hnew
  split
  · next hunder =>
    exact .inr ⟨_, s, rfl, card, hcard, transGen_of_isChain hlinked (by simpa using hunder)⟩
  next hunder =>
  have hrequire : ∀ b, m.Refers mapping.moves card b →
      Decides mapping m cards (s.inProgress ++ [card]) Unit (migrateCard (ρ := Memory) (μ := μ) b) := by
    intro b hb
    have hmoved : b ∈ mapping.moves.destinationCards := by
      obtain ⟨document, -, c, -, hc⟩ := hb
      exact Moves.mem_destinationCards_of_card? hc
    refine ih (by simpa using hunder) b hmoved (hclosed card hcard b hb) ?_
    refine hlinked.append (.singleton b) fun a ha b' hb' => ?_
    rw [List.getLast?_concat] at ha
    obtain rfl := Option.some.inj ha
    obtain rfl := Option.some.inj hb'
    exact hb
  have hinside : Session.Undisturbed mapping m cards (s.enter card) :=
    ⟨hs.obliges, hs.document, hs.grounded, hs.mapping, hs.translator⟩
  rw [bind_apply, during_apply
    (Session.Steady.stable.migrateEntity Session.Steady.stable.migrateCard _ (s.enter card)).inProgress]
  obtain ⟨t, h, ht⟩ | ⟨cycle, t, h, hcycle⟩ :=
    migrateEntity_decides (s := s.enter card) hcards hcard hrequire rfl hnew hinside
  · rw [h]
    exact .inl ⟨(), _, rfl, rfl, ht s.inProgress⟩
  · rw [h]
    exact .inr ⟨cycle, _, rfl, hcycle⟩

end Migration

end Migrating

end Sessions

namespace Migrating

variable {ρ μ : Type} [Provider μ]

/-- Where nothing else can go wrong, the migration of a card in a new session fails exactly when a cycle can
be reached from the card, and reports cyclic references then. -/
theorem migrateCard_exact {mapping : Mapping} {m : Memory} {card : CardId}
    (h : ∀ a, ReflTransGen (m.Refers mapping.moves) card a → m.Migratable mapping a) (dryRun : Bool) :
    let result := (migrateCard card ((Session.new mapping m : Session Memory μ).withDryRun dryRun)).1
    (result = .ok () ↔ ¬∃ a, ReflTransGen (m.Refers mapping.moves) card a ∧
      TransGen (m.Refers mapping.moves) a a) ∧
    (result = .ok () ∨ ∃ chain, result = .error (.cyclicReference chain)) := by
  intro result
  have hnew : Session.Undisturbed mapping m {a | ReflTransGen (m.Refers mapping.moves) card a}
      ((Session.new mapping m : Session Memory μ).withDryRun dryRun) :=
    ⟨fun a ha => (h a ha).obliges, fun _ _ => rfl, fun a ha => absurd ha List.not_mem_nil, rfl, rfl⟩
  obtain ⟨_, t, hok, -, ht⟩ | ⟨chain, t, hfailed, a, ha, hcycle⟩ :=
    migrateCard_decides h (fun a ha b hb => ha.tail hb) [] card .refl (.singleton card) _ rfl hnew
  · have hresult : result = .ok () := congrArg Prod.fst hok
    have hgrounded := ht.grounded card (mem_migrated_of_migrateCard hok)
    refine ⟨⟨fun _ => ?_, fun _ => hresult⟩, .inl hresult⟩
    rintro ⟨a, ha, hcycle⟩
    exact not_transGen_of_acc hgrounded ha hcycle
  · have hresult : result = .error (.cyclicReference chain) := congrArg Prod.fst hfailed
    refine ⟨⟨fun hok => ?_, fun hnone => absurd ⟨a, ha, hcycle⟩ hnone⟩, .inr ⟨chain, hresult⟩⟩
    cases hresult.symm.trans hok

/-- Cycles are found exactly. Take a new session without a translator on an installation in memory that
holds a document for every card that can be reached from a card, refuses nothing about these, and whose
documents have nothing else wrong with them. Then the migration of the card succeeds if and only if no cycle
can be reached from it, and otherwise reports cyclic references. And in any run of any idle session, the
chain that is reported is a cycle: distinct cards and then one of these again, starting with the card that
was asked for, each leading on to the next one by the document that was fetched for it. No card of the chain
has been migrated, or offered to the installation, by then. -/
theorem cycles_exact [Remote ρ] (mapping : Mapping) :
    (∀ (m : Memory) (dryRun : Bool) (card : CardId),
      (∀ a, ReflTransGen (m.Refers mapping.moves) card a → m.Migratable mapping a) →
      let result := (migrateCard card ((Session.new mapping m : Session Memory μ).withDryRun dryRun)).1
      (result = .ok () ↔ ¬∃ a, ReflTransGen (m.Refers mapping.moves) card a ∧
        TransGen (m.Refers mapping.moves) a a) ∧
      (result = .ok () ∨ ∃ chain, result = .error (.cyclicReference chain))) ∧
    ∀ (call : Call) (s t : Session (Recorded ρ) μ) (chain : List CardId), s.inProgress = [] →
      call.perform s = (.error (.cyclicReference chain), t) →
      ∃ entity news, call = .migrate entity ∧ t.remote.log = s.remote.log ++ news ∧
        t.Cycle s.mapping.moves entity news chain :=
  ⟨fun _ dryRun _ h => migrateCard_exact h dryRun, fun call _ _ _ hidle h => perform_cyclic call hidle h⟩

/-! ## Two questions that are built on each other -/

/-- Two questions, each built on the other, and one that is built on a table. -/
def circular : Memory :=
  ((Memory.empty.withDocument (.card ⟨112⟩) (Sample.questionOnCard ⟨112⟩ "A" ⟨13⟩)).withDocument
    (.card ⟨113⟩) (Sample.questionOnCard ⟨113⟩ "B" ⟨12⟩)).withDocument
    (.card ⟨114⟩) (Sample.question ⟨114⟩ "C" ⟨10⟩ ⟨100⟩)

theorem migratable_circular {a : CardId} (ha : a ∈ [(⟨112⟩ : CardId), ⟨113⟩, ⟨114⟩]) :
    circular.Migratable sampled a := by
  have hrenamed : ∀ a ∈ [(⟨112⟩ : CardId), ⟨113⟩, ⟨114⟩], ((circular.document? (.card a)).any fun d =>
      d.isObj && (Renaming.document ⟨sampled, .card a⟩ d).outcome.isOk) = true := by
    decide +kernel
  exact Memory.migratable_of_isOk ⟨rfl, rfl, fun p hp => absurd hp List.not_mem_nil⟩ (hrenamed a ha)

theorem refers_circular : circular.Refers sampled.moves ⟨112⟩ ⟨113⟩ ∧
    circular.Refers sampled.moves ⟨113⟩ ⟨112⟩ ∧
    (∀ b, circular.Refers sampled.moves ⟨112⟩ b → b = ⟨113⟩) ∧
    (∀ b, circular.Refers sampled.moves ⟨113⟩ b → b = ⟨112⟩) ∧
    ∀ b, ¬circular.Refers sampled.moves ⟨114⟩ b := by
  simp only [Memory.refers_iff_mem]
  decide +kernel

/-- The question on a table is migrated; of the others, either would be a cycle. -/
theorem cycles_circular :
    (migrateCard ⟨114⟩ (Session.new sampled circular : Session Memory TableProvider)).1 = .ok () ∧
    ∃ chain entity news t,
      (Call.migrate (.card ⟨112⟩)).perform
        (Session.watched sampled none circular : Session (Recorded Memory) TableProvider) =
        (.error (.cyclicReference chain), t) ∧ t.Cycle sampled.moves entity news chain := by
  obtain ⟨hleft, hright, hleft', hright', hnone⟩ := refers_circular
  have hplain : ∀ a, ReflTransGen (circular.Refers sampled.moves) ⟨114⟩ a → a = ⟨114⟩ := by
    intro a ha
    rcases ha.cases_head with heq | ⟨b, hb, -⟩
    · exact heq.symm
    · exact absurd hb (hnone b)
  have hmutual : ∀ a, ReflTransGen (circular.Refers sampled.moves) ⟨112⟩ a → a = ⟨112⟩ ∨ a = ⟨113⟩ := by
    intro a ha
    induction ha with
    | refl => exact .inl rfl
    | tail _ hab ih =>
      rcases ih with rfl | rfl
      · exact .inr (hleft' _ hab)
      · exact .inl (hright' _ hab)
  obtain ⟨hexact, hcycle⟩ := cycles_exact (ρ := Memory) (μ := TableProvider) sampled
  refine ⟨(hexact circular false ⟨114⟩ fun a ha => ?_).1.2 ?_, ?_⟩
  · exact migratable_circular (by simp [hplain a ha])
  · rintro ⟨a, ha, hloop⟩
    obtain ⟨b, hb, -⟩ := TransGen.head'_iff.1 hloop
    exact hnone b (hplain a ha ▸ hb)
  have hmigratable : ∀ a, ReflTransGen (circular.Refers sampled.moves) ⟨112⟩ a →
      circular.Migratable sampled a := by
    intro a ha
    rcases hmutual a ha with rfl | rfl <;> exact migratable_circular (by simp)
  obtain ⟨hok, hfail⟩ := hexact circular false ⟨112⟩ hmigratable
  rcases hfail with hresult | ⟨chain, hresult⟩
  · exact absurd ⟨⟨112⟩, .refl, .head hleft (.single hright)⟩ (hok.1 hresult)
  · obtain ⟨t, ht⟩ := perform_error_of_forget (.migrate (.card ⟨112⟩))
      (Session.watched sampled none circular : Session (Recorded Memory) TableProvider) hresult
    obtain ⟨entity, news, -, -, hreported⟩ := hcycle _ _ t chain rfl ht
    exact ⟨chain, entity, news, t, ht, hreported⟩

end Migrating

end Rehome
