import Rehome.Proofs.Migration.Requests

/-! # Requests do not depend on each other

On an installation that refuses nothing, the result of a request, and the cards that it adds to the migrated
ones, are the same in every faithful session (`migrate_alike`). For a card that has been migrated is one whose
plan, and whose cards' plans, all come to documents; so where it has not been migrated yet, it will be, unless
one of its cards is under way, and then the session is not faithful. It follows that requests may be made in
any order (`requests_in_any_order`). -/

namespace Rehome

open Relation

variable {μ : Type} {α β : Type}

namespace Migrating

open Outset

variable [Provider μ] {o : Outset μ} {chain : List CardId}

/-! ## Migrations that succeed -/

/-- With these cards under way, and refused nothing, the computation succeeds and adds exactly some cards to
the migrated ones. -/
def Achieves (o : Outset μ) (chain : List CardId) (cards : Set CardId) (x : Migrating Memory μ Unit) :
    Prop :=
  ∀ s, o.Faithful s → s.remote.Obliging → s.inProgress = chain →
    (x s).1 = .ok () ∧ o.Advance cards s (x s).2

theorem forM_achieves {needs : List CardId}
    (h : ∀ c ∈ needs, Achieves o chain (o.Reach {c}) (migrateCard c)) :
    Achieves o chain (o.Reach {c | c ∈ needs}) (needs.forM migrateCard) := by
  induction needs with
  | nil =>
    intro s hs _ _
    refine ⟨rfl, .of_mem hs ?_⟩
    rintro c ⟨a, ha, -⟩
    cases ha
  | cons c needs ih =>
    obtain ⟨hc, hneeds⟩ := List.forall_mem_cons.1 h
    intro s hs hobliging hchain
    obtain ⟨hok, hadvance⟩ := hc s hs hobliging hchain
    obtain ⟨hok', hadvance'⟩ := ih hneeds _ hadvance.faithful (hadvance.obliging hobliging)
      (hadvance.inProgress.trans hchain)
    have hunion : ({b | b ∈ c :: needs} : Set CardId) = {c} ∪ {b | b ∈ needs} := by
      ext b
      simp
    rw [List.forM, bind_of_ok (Prod.ext hok rfl), hunion, reach_union]
    exact ⟨hok', hadvance.trans hadvance'⟩

/-- A card whose plan comes to a document, like those of all cards that it needs, is migrated unless one of
these is under way. -/
theorem migrateCard_achieves {card : CardId} (h : o.Completes card)
    (hfree : ∀ c ∈ o.Reach {card}, c ∉ chain) : Achieves o chain (o.Reach {card}) (migrateCard card) := by
  induction h generalizing chain with
  | @intro card d hd hneeds ih =>
  intro s hs hobliging hchain
  by_cases hmigrated : card ∈ s.migrated
  · rw [migrateCard_of_mem hmigrated]
    exact ⟨rfl, .of_mem hs (hs.reach_subset fun c hc => hc ▸ hmigrated)⟩
  have hunder : card ∉ s.inProgress := hchain ▸ hfree card (.of_mem rfl)
  have hinside : ∀ c, o.Needs card c → Achieves o (chain ++ [card]) (o.Reach {c}) (migrateCard c) := by
    intro c hc
    apply ih c hc
    intro b hb hmem
    rcases List.mem_append.1 hmem with hmem | hmem
    · exact hfree b (mem_reach_singleton.2 (.inr (Reach.mono (Set.singleton_subset_iff.2 hc) hb))) hmem
    · -- A card that can be reached from one it needs would need itself.
      obtain ⟨_, rfl, hcb⟩ := hb
      rw [List.mem_singleton.1 hmem] at hcb
      have hacc := (Completes.intro hd hneeds).acc
      exact not_transGen_of_acc hacc .refl (.head' hc hcb)
  have hsinside := hs.inside hmigrated hunder
  have hall : Achieves o (chain ++ [card]) (o.Reach {c | o.Needs card c})
      ((o.plan (.card card)).needs.forM migrateCard) := forM_achieves hinside
  obtain ⟨hok, hadvance⟩ := hall (asked (.card card) (s.enter card))
    (advance_asked hsinside _).faithful ((advance_asked hsinside _).obliging hobliging) (by rw [← hchain]; rfl)
  obtain ⟨hends, hresult⟩ := migrateEntity_ends hsinside (hs.pending card hmigrated)
    (hobliging _).fetched hadvance
  have hact := hresult hobliging
  rw [hok, hd] at hact
  obtain ⟨honce, hadvance'⟩ := once_ends hs hmigrated hunder hends
  rw [migrateCard_eq]
  have honce' := honce.trans hact
  refine ⟨honce', ?_⟩
  have hcards : o.Reach {card} = o.Reach {c | c ∈ (o.plan (.card card)).needs} ∪
      {c | c = card ∧ (once card (migrateEntity migrateCard (.card card)) s).1 = .ok ()} := by
    ext c
    rw [mem_reach_singleton, or_comm]
    exact or_congr_right ⟨fun hc => ⟨hc, honce'⟩, fun hc => hc.1⟩
  rw [hcards]
  exact hadvance'

/-! ## Migrations with a known result -/

/-- With these cards under way, and refused nothing, the computation has one result, and adds the same cards
to the migrated ones, in every faithful session. -/
def Determined (o : Outset μ) (chain : List CardId) (α : Type) (x : Migrating Memory μ α) : Prop :=
  ∃ result cards, ∀ s, o.Faithful s → s.remote.Obliging → s.inProgress = chain →
    (x s).1 = result ∧ o.Advance cards s (x s).2

theorem closed_determined (chain : List CardId) : Closed (Determined o chain) where
  pure a := ⟨.ok a, ∅, fun _ hs _ _ => ⟨rfl, .refl hs⟩⟩
  bind {α β x f} hx hf := by
    obtain ⟨result, cards, hx⟩ := hx
    cases result with
    | error e =>
      refine ⟨.error e, cards, fun s hs hobliging hchain => ?_⟩
      obtain ⟨hresult, hadvance⟩ := hx s hs hobliging hchain
      rw [bind_of_error (Prod.ext hresult rfl)]
      exact ⟨rfl, hadvance⟩
    | ok a =>
      obtain ⟨result', cards', hf⟩ := hf a
      refine ⟨result', cards ∪ cards', fun s hs hobliging hchain => ?_⟩
      obtain ⟨hresult, hadvance⟩ := hx s hs hobliging hchain
      rw [bind_of_ok (Prod.ext hresult rfl)]
      obtain ⟨hresult', hadvance'⟩ := hf _ hadvance.faithful (hadvance.obliging hobliging)
        (hadvance.inProgress.trans hchain)
      exact ⟨hresult', hadvance.trans hadvance'⟩

/-- The migration of an entity has one result if the cards that its plan needs have. -/
theorem migrateEntity_determined (entity : Entity)
    (h : ∀ c ∈ (o.plan entity).needs, Determined o chain Unit (migrateCard c)) :
    ∃ result cards, ∀ s, o.Faithful s → s.remote.Obliging → s.inProgress = chain →
      s.remote.document? entity = o.memory.document? entity →
      (migrateEntity migrateCard entity s).1 = result ∧
        o.Ends entity cards s result (migrateEntity migrateCard entity s).2 := by
  obtain ⟨result, cards, hneeds⟩ := (closed_determined chain).forM_mem h
  refine ⟨result >>= fun _ => (o.plan entity).outcome.map fun _ => (), cards,
    fun s hs hobliging hchain hdocument => ?_⟩
  have hasked := advance_asked hs entity
  obtain ⟨hresult, hadvance⟩ := hneeds (asked entity s) hasked.faithful (hasked.obliging hobliging) hchain
  obtain ⟨hends, hknown⟩ := migrateEntity_ends hs hdocument (hobliging entity).fetched hadvance
  rw [hknown hobliging, hresult] at hends ⊢
  exact ⟨rfl, hends⟩

theorem migrateCard_determined (o : Outset μ) (chain : List CardId) (card : CardId) :
    Determined o chain Unit (migrateCard card) := by
  refine nested_induction o.mapping (P := fun chain card => Determined o chain Unit (migrateCard card))
    ?_ chain card
  intro chain card ih
  by_cases hunder : card ∈ chain
  · refine ⟨.error (.cyclicReference (chain ++ [card])), ∅, ?_⟩
    rintro s hs - rfl
    have hnew : card ∉ s.migrated := hs.guarded.pending card hunder
    rw [migrateCard_eq, once_apply, if_neg (by simpa [Session.isMigrated] using hnew),
      if_pos (by simpa using hunder)]
    exact ⟨rfl, .refl hs⟩
  by_cases hcompletes : o.Completes card ∧ ∀ c ∈ o.Reach {card}, c ∉ chain
  · exact ⟨.ok (), o.Reach {card}, migrateCard_achieves hcompletes.1 hcompletes.2⟩
  -- Otherwise no faithful session with this chain has migrated the card.
  obtain ⟨result, cards, hentity⟩ := migrateEntity_determined (.card card)
    fun c hc => ih hunder c (o.needsIn_plan _ c hc)
  refine ⟨result, cards ∪ {c | c = card ∧ result = .ok ()}, ?_⟩
  rintro s hs hobliging rfl
  have hnew : card ∉ s.migrated := by
    intro hmigrated
    have hreached : ∀ c ∈ o.Reach {card}, c ∈ s.migrated := hs.reach_subset fun c hc => hc ▸ hmigrated
    exact hcompletes ⟨(hs.done card hmigrated).1, fun c hc hmem => hs.guarded.pending c hmem (hreached c hc)⟩
  obtain ⟨hresult, hends⟩ := hentity _ (hs.inside hnew hunder) hobliging rfl (hs.pending card hnew)
  rw [← hresult] at hends
  obtain ⟨honce, hadvance⟩ := once_ends hs hnew hunder hends
  have honce' := honce.trans hresult
  rw [honce'] at hadvance
  rw [migrateCard_eq]
  exact ⟨honce', hadvance⟩

/-- A request has the same result in every faithful session, and adds the same cards. -/
theorem migrate_determined (o : Outset μ) (entity : Entity) :
    ∃ result cards, ∀ s, o.Faithful s → s.remote.Obliging → s.inProgress = [] → o.Untouched entity s →
      (migrate entity s).1 = result ∧ o.Answer entity cards s result (migrate entity s).2 := by
  obtain ⟨kind, id⟩ := entity
  cases kind with
  | card =>
    obtain ⟨result, cards, h⟩ := migrateCard_determined o [] ⟨id⟩
    refine ⟨result, cards, fun s hs hobliging hidle _ => ?_⟩
    obtain ⟨hresult, hadvance⟩ := h s hs hobliging hidle
    refine ⟨hresult, hadvance.answer fun hok => ?_⟩
    exact mem_migrated_of_migrateCard (Prod.ext (hresult.trans hok) rfl)
  | dashboard =>
    obtain ⟨result, cards, h⟩ := migrateEntity_determined ⟨.dashboard, id⟩
      fun c _ => migrateCard_determined o [] c
    refine ⟨result, cards, fun s hs hobliging hidle hentity => ?_⟩
    obtain ⟨hresult, hends⟩ := h s hs hobliging hidle (hentity rfl)
    exact ⟨hresult, Ends.answer (b := ⟨id⟩) hends⟩

/-- A request does in every faithful session what it does in a new one. -/
theorem migrate_alike (o : Outset μ) (hobliging : o.memory.Obliging) (entity : Entity)
    {s : Session Memory μ} (hs : o.Faithful s) (hobliging' : s.remote.Obliging) (hidle : s.inProgress = [])
    (hentity : o.Untouched entity s) : (migrate entity s).1 = (migrate entity o.start).1 ∧
      o.Answer entity {c | c ∈ (migrate entity o.start).2.migrated} s (migrate entity o.start).1
        (migrate entity s).2 := by
  obtain ⟨result, cards, h⟩ := migrate_determined o entity
  obtain ⟨hresult, hanswer⟩ := h s hs hobliging' hidle hentity
  obtain ⟨hstart, hstarted⟩ := h o.start (faithful_start o) hobliging rfl fun _ => rfl
  have hcards : {c | c ∈ (migrate entity o.start).2.migrated} = cards := by
    ext c
    refine (hstarted.mem_migrated_iff c).trans (or_iff_right ?_)
    exact List.not_mem_nil
  rw [hcards, hstart]
  exact ⟨hresult, hanswer⟩

end Migrating

/-! ## Requests one after the other -/

namespace Session

open Migrating Outset

variable [Provider μ] {o : Outset μ} {s : Session Memory μ}

/-- A session that has been asked for some entities, in any order: it has the cards that each of them adds to a
new session, and for each dashboard among them, what a new session makes of it. -/
structure Asked (o : Outset μ) (requests : List Entity) (s : Session Memory μ) : Prop where
  faithful : o.Faithful s
  obliging : s.remote.Obliging
  idle : s.inProgress = []
  mem_migrated_iff : ∀ c, c ∈ s.migrated ↔ ∃ e ∈ requests, c ∈ (migrate e o.start).2.migrated
  dashboards : ∀ b, s.remote.document? (.dashboard b) =
    if .dashboard b ∈ requests then (migrate (.dashboard b) o.start).2.remote.document? (.dashboard b)
    else o.memory.document? (.dashboard b)

theorem asked_start (h : o.memory.Obliging) : Asked o [] o.start where
  faithful := faithful_start o
  obliging := h
  idle := rfl
  mem_migrated_iff c := by
    refine ⟨fun hc => absurd hc List.not_mem_nil, ?_⟩
    rintro ⟨e, he, -⟩
    exact absurd he List.not_mem_nil
  dashboards b := (if_neg List.not_mem_nil).symm

/-- One more request, for an entity that was not asked for if it is a dashboard. -/
theorem Asked.migrate {requests : List Entity} (hobliging : o.memory.Obliging) (h : Asked o requests s)
    {entity : Entity} (hnew : entity.kind = .dashboard → entity ∉ requests) :
    (Migrating.migrate entity s).1 = (Migrating.migrate entity o.start).1 ∧
      Asked o (requests ++ [entity]) (Migrating.migrate entity s).2 := by
  have hentity : o.Untouched entity s := by
    intro hkind
    obtain ⟨kind, id⟩ := entity
    cases hkind
    exact (h.dashboards ⟨id⟩).trans (if_neg (hnew rfl))
  obtain ⟨hresult, hanswer⟩ := migrate_alike o hobliging entity h.faithful h.obliging h.idle hentity
  obtain ⟨-, hstarted⟩ := migrate_alike o hobliging entity (faithful_start o) hobliging rfl fun _ => rfl
  refine ⟨hresult, hanswer.faithful, hanswer.obliging h.obliging, hanswer.inProgress.trans h.idle,
    fun c => ?_, fun b => ?_⟩
  · rw [hanswer.mem_migrated_iff, h.mem_migrated_iff]
    constructor
    · rintro (⟨e, he, hc⟩ | hc)
      · exact ⟨e, List.mem_append_left _ he, hc⟩
      · exact ⟨entity, List.mem_append_right _ (List.mem_singleton.2 rfl), hc⟩
    · rintro ⟨e, he, hc⟩
      rcases List.mem_append.1 he with he | he
      · exact .inl ⟨e, he, hc⟩
      · obtain rfl := List.mem_singleton.1 he
        exact .inr hc
  · rw [hanswer.dashboards]
    by_cases hb : entity = .dashboard b
    · subst hb
      have hold : s.remote.document? (.dashboard b) = o.start.remote.document? (.dashboard b) := hentity rfl
      rw [if_pos (List.mem_append_right _ (List.mem_singleton.2 rfl)), hstarted.dashboards, hold]
    · rw [if_neg fun h => hb h.1, h.dashboards]
      have hmem : Entity.dashboard b ∈ requests ++ [entity] ↔ .dashboard b ∈ requests := by
        rw [List.mem_append, List.mem_singleton]
        exact or_iff_left (Ne.symm hb)
      simp only [hmem]

/-- Requests for distinct dashboards, and for any cards, each have the result that they have in a new
session. -/
theorem Asked.after {requests : List Entity} (hobliging : o.memory.Obliging) (h : Asked o requests s)
    (more : List Entity) (hdashboards : ((requests ++ more).filter (·.kind == .dashboard)).Nodup) :
    (∀ p ∈ s.performed (more.map .migrate), ∃ e, p.call = .migrate e ∧
      p.result = (Migrating.migrate e o.start).1) ∧
    Asked o (requests ++ more) (s.after (more.map .migrate)) := by
  induction more generalizing requests s with
  | nil =>
    rw [List.append_nil]
    exact ⟨fun p hp => absurd hp List.not_mem_nil, h⟩
  | cons entity more ih =>
    have hnew : entity.kind = .dashboard → entity ∉ requests := by
      intro hkind hmem
      rw [List.filter_append, List.nodup_append] at hdashboards
      refine hdashboards.2.2 entity (List.mem_filter.2 ⟨hmem, ?_⟩) entity
        (List.mem_filter.2 ⟨List.mem_cons_self, ?_⟩) rfl
      · exact beq_iff_eq.2 hkind
      · exact beq_iff_eq.2 hkind
    obtain ⟨hresult, hasked⟩ := h.migrate hobliging hnew
    have hsplit : requests ++ entity :: more = requests ++ [entity] ++ more := by simp
    rw [hsplit] at hdashboards ⊢
    obtain ⟨hresults, hafter⟩ := ih hasked hdashboards
    refine ⟨fun p hp => ?_, hafter⟩
    rcases List.mem_cons.1 hp with rfl | hp
    · exact ⟨entity, rfl, hresult⟩
    · exact hresults p hp

/-- Whatever a faithful session has pushed for a card is what a new session pushes for it alone. -/
theorem sent_alone (hobliging : o.memory.Obliging) (hs : o.Faithful s) :
    ∃ news, s.remote.pushes = o.memory.pushes ++ news ∧
      ∀ card d, (.card card, d) ∈ news → (migrateCard card o.start).1 = .ok () ∧
        ∃ alone, (migrateCard card o.start).2.remote.pushes = o.memory.pushes ++ alone ∧
          ∀ d', (.card card, d') ∈ alone ↔ d' = d := by
  obtain ⟨news, hnews, haccounts⟩ := hs.sent
  refine ⟨news, hnews, fun card d hpushed => ?_⟩
  obtain ⟨hcompletes, hd⟩ := haccounts.result card d hpushed
  have hachieves : Achieves o [] (o.Reach {card}) (migrateCard card) :=
    migrateCard_achieves hcompletes fun _ _ => List.not_mem_nil
  obtain ⟨hok, hadvance⟩ := hachieves o.start (faithful_start o) hobliging rfl
  obtain ⟨alone, halone, haccounts'⟩ := hadvance.faithful.sent
  refine ⟨hok, alone, halone, fun d' => ?_⟩
  constructor
  · intro hd'
    exact Except.ok.inj ((haccounts'.result card d' hd').2.symm.trans hd)
  · rintro rfl
    obtain ⟨d', hd'⟩ := haccounts'.pushed card (mem_migrated_of_migrateCard (Prod.ext hok rfl))
    rw [Except.ok.inj (hd.symm.trans (haccounts'.result card d' hd').2)]
    exact hd'

/-- The order of requests is of no matter. On an installation in memory that accepts all pushes, and for a
session that has no translator or one that asks no provider, any two orders of the same requests, with no
dashboard among them twice, give each request the same result, and end with the same migrated cards and the
same documents. And whatever was pushed for a card, in the course of whichever request, is what a new session
pushes when it is asked for that card alone. -/
theorem requests_in_any_order (o : Outset μ) (hobliging : o.memory.Obliging) {requests requests' : List Entity}
    (hperm : requests.Perm requests') (hdashboards : (requests.filter (·.kind == .dashboard)).Nodup) :
    (∀ p ∈ o.start.performed (requests.map .migrate), ∀ p' ∈ o.start.performed (requests'.map .migrate),
      p.call = p'.call → p.result = p'.result) ∧
    (o.start.after (requests.map .migrate)).migrated = (o.start.after (requests'.map .migrate)).migrated ∧
    (∀ e, (o.start.after (requests.map .migrate)).remote.document? e =
      (o.start.after (requests'.map .migrate)).remote.document? e) ∧
    ∃ news, (o.start.after (requests.map .migrate)).remote.pushes = o.memory.pushes ++ news ∧
      ∀ card d, (.card card, d) ∈ news → (migrateCard card o.start).1 = .ok () ∧
        ∃ alone, (migrateCard card o.start).2.remote.pushes = o.memory.pushes ++ alone ∧
          ∀ d', (.card card, d') ∈ alone ↔ d' = d := by
  have hstart := asked_start hobliging
  obtain ⟨hresults, hafter⟩ := hstart.after hobliging requests hdashboards
  obtain ⟨hresults', hafter'⟩ := hstart.after hobliging requests'
    ((hperm.filter _).nodup_iff.1 hdashboards)
  rw [List.nil_append] at hafter hafter'
  have hmigrated (c : CardId) : c ∈ (o.start.after (requests.map .migrate)).migrated ↔
      c ∈ (o.start.after (requests'.map .migrate)).migrated := by
    rw [hafter.mem_migrated_iff, hafter'.mem_migrated_iff]
    simp only [hperm.mem_iff]
  refine ⟨fun p hp p' hp' hcall => ?_, ?_, fun e => ?_, ?_⟩
  · obtain ⟨e, he, hresult⟩ := hresults p hp
    obtain ⟨e', he', hresult'⟩ := hresults' p' hp'
    obtain rfl : e = e' := Call.migrate.inj (he.symm.trans (hcall.trans he'))
    exact hresult.trans hresult'.symm
  · exact Ident.eq_of_pairwise_lt hafter.faithful.sorted hafter'.faithful.sorted hmigrated
  · obtain ⟨kind, id⟩ := e
    cases kind with
    | card => exact hafter.faithful.document?_congr hafter'.faithful hmigrated ⟨id⟩
    | dashboard =>
      refine (hafter.dashboards ⟨id⟩).trans (Eq.trans ?_ (hafter'.dashboards ⟨id⟩).symm)
      simp only [hperm.mem_iff]
  · exact sent_alone hobliging hafter.faithful

/-! ## A dashboard and a question that it shows -/

/-- A question on a table, another one that is built on it, and a dashboard that shows the latter and a card
that the installation does not hold. -/
def shown : Memory :=
  ((Memory.empty.withDocument (.card ⟨112⟩) (Sample.question ⟨112⟩ "A" ⟨10⟩ ⟨101⟩)).withDocument
    (.card ⟨113⟩) (Sample.questionOnCard ⟨113⟩ "B" ⟨12⟩)).withDocument
    (.dashboard ⟨104⟩) (Sample.dashboard ⟨104⟩ "Overview" [⟨13⟩, ⟨14⟩])

/-- A new session on that installation, with a translator that keeps what it does not know. -/
def showing : Outset TableProvider where
  mapping := sampled
  translator := some ((Translator.new .fr .keep).withSentence "Country" "Pays")
  memory := shown
  unaided := by
    intro t ht
    obtain rfl := Option.some.inj ht
    decide

/-- The dashboard fails, and the question succeeds, whichever of them is asked for first. -/
theorem anyOrder_shown :
    showing.memory.Obliging ∧
    [Entity.dashboard ⟨104⟩, .card ⟨113⟩].Perm [.card ⟨113⟩, .dashboard ⟨104⟩] ∧
    ([Entity.dashboard ⟨104⟩, .card ⟨113⟩].filter (·.kind == .dashboard)).Nodup ∧
    (showing.start.performed ([.dashboard ⟨104⟩, .card ⟨113⟩].map .migrate)).map (·.result) =
      [.error (.remote (.notFound (.card ⟨114⟩))), .ok ()] ∧
    (∀ p ∈ showing.start.performed ([.dashboard ⟨104⟩, .card ⟨113⟩].map .migrate),
      ∀ p' ∈ showing.start.performed ([.card ⟨113⟩, .dashboard ⟨104⟩].map .migrate),
      p.call = p'.call → p.result = p'.result) ∧
    (showing.start.after ([.card ⟨113⟩, .dashboard ⟨104⟩].map .migrate)).migrated = [⟨112⟩, ⟨113⟩] := by
  have hobliging : showing.memory.Obliging := fun _ => ⟨rfl, rfl, fun p hp => absurd hp List.not_mem_nil⟩
  have hperm : [Entity.dashboard ⟨104⟩, .card ⟨113⟩].Perm [.card ⟨113⟩, .dashboard ⟨104⟩] := .swap ..
  have hdashboards : ([Entity.dashboard ⟨104⟩, .card ⟨113⟩].filter (·.kind == .dashboard)).Nodup := by decide
  obtain ⟨hresults, hmigrated, -, -⟩ := requests_in_any_order showing hobliging hperm hdashboards
  refine ⟨hobliging, hperm, hdashboards, by decide +kernel, hresults, hmigrated.symm.trans ?_⟩
  decide +kernel

end Session

end Rehome
