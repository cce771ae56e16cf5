import Rehome.Proofs.Migration.Independence

/-! # Migrations that are interrupted

An installation may refuse pushes at any depth of a migration. What has been migrated by then stays so, and
everything else has its first document still, so the session is as faithful as it was, and the same request can
be made again. Once it succeeds, exactly the cards that can be reached from the entity have been migrated, as if
nothing had been refused (`resumed_as_at_once`). -/

namespace Rehome

open Relation

/-- The installation with the same documents, which refuses nothing. -/
def Memory.unrefused (m : Memory) : Memory := { m with statuses := [], fetchFailures := [], pushFailures := [] }

theorem Memory.obliging_unrefused (m : Memory) : m.unrefused.Obliging :=
  fun _ => ⟨rfl, rfl, fun _ hp => absurd hp List.not_mem_nil⟩

variable {μ : Type}

/-- What a new session on the installation that refuses nothing is given. -/
def Outset.unrefused (o : Outset μ) : Outset μ := { o with memory := o.memory.unrefused }

namespace Migrating

open Outset

variable [Provider μ] {o : Outset μ} {entity : Entity} {s t : Session Memory μ}

/-- A request that fails, and the session after it. -/
def Fails (entity : Entity) (s t : Session Memory μ) : Prop := ∃ e, migrate entity s = (.error e, t)

theorem fails_of_error {e : MigrationError} (h : (migrate entity s).1 = .error e) :
    Fails entity s (migrate entity s).2 :=
  ⟨e, Prod.ext h rfl⟩

theorem eq_of_ok (h : (migrate entity s).1 = .ok ()) : migrate entity s = (.ok (), (migrate entity s).2) :=
  Prod.ext h rfl

/-- A session in which all requests so far have failed: what has been migrated can be reached from the entity,
and the dashboards are as they were. -/
structure Interrupted (o : Outset μ) (entity : Entity) (s : Session Memory μ) : Prop where
  faithful : o.Faithful s
  idle : s.inProgress = []
  reached : ∀ c ∈ s.migrated, c ∈ o.Reach (o.wanted entity)
  dashboards : ∀ b, s.remote.document? (.dashboard b) = o.memory.document? (.dashboard b)

theorem Interrupted.untouched (h : Interrupted o entity s) : o.Untouched entity s := by
  intro hkind
  obtain ⟨kind, id⟩ := entity
  cases hkind
  exact h.dashboards ⟨id⟩

theorem interrupted_start (o : Outset μ) (entity : Entity) : Interrupted o entity o.start where
  faithful := faithful_start o
  idle := rfl
  reached _ hc := absurd hc List.not_mem_nil
  dashboards _ := rfl

theorem Interrupted.fails (h : Interrupted o entity s) (hfails : Fails entity s t) :
    Interrupted o entity t := by
  obtain ⟨e, hfails⟩ := hfails
  obtain ⟨cards, hcards, hanswer⟩ := migrate_bounded h.faithful h.idle h.untouched
  rw [hfails] at hanswer
  refine ⟨hanswer.faithful, hanswer.inProgress.trans h.idle, fun c hc => ?_, fun b => ?_⟩
  · rcases (hanswer.mem_migrated_iff c).1 hc with hc | hc
    · exact h.reached c hc
    · exact hcards hc
  · rw [hanswer.dashboards, if_neg fun hok => by cases hok.2]
    exact h.dashboards b

theorem interrupted_of_reflTransGen (h : ReflTransGen (Fails entity) o.start s) :
    Interrupted o entity s := by
  induction h with
  | refl => exact interrupted_start o entity
  | tail _ hfails ih => exact ih.fails hfails

/-- The request that succeeds at last has migrated exactly the cards that can be reached from the entity. -/
theorem Interrupted.answer (h : Interrupted o entity s) (hok : migrate entity s = (.ok (), t)) :
    o.Answer entity (o.Reach (o.wanted entity)) s (.ok ()) t ∧
      ∀ c, c ∈ t.migrated ↔ c ∈ o.Reach (o.wanted entity) := by
  obtain ⟨cards, hcards, hanswer⟩ := migrate_bounded h.faithful h.idle h.untouched
  rw [hok] at hanswer
  have hreach (c : CardId) : c ∈ t.migrated ↔ c ∈ o.Reach (o.wanted entity) := by
    constructor
    · intro hc
      rcases (hanswer.mem_migrated_iff c).1 hc with hc | hc
      · exact h.reached c hc
      · exact hcards hc
    · exact hanswer.faithful.reach_subset (hanswer.completes rfl).1 c
  refine ⟨⟨hanswer.faithful, hanswer.inProgress, fun c => ?_, hanswer.dashboards, hanswer.obliging,
    hanswer.completes⟩, hreach⟩
  rw [hreach]
  exact (or_iff_right_of_imp (h.reached c)).symm

/-- Where nothing is refused, an entity whose plan comes to a document is migrated, if the plans of its cards
come to documents. -/
theorem migrate_achieves (hcards : ∀ c ∈ o.wanted entity, o.Completes c)
    (hplan : ∃ d, (o.plan entity).outcome = .ok d) (hs : o.Faithful s) (hobliging : s.remote.Obliging)
    (hidle : s.inProgress = []) (hentity : o.Untouched entity s) : (migrate entity s).1 = .ok () ∧
      o.Answer entity (o.Reach (o.wanted entity)) s (.ok ()) (migrate entity s).2 := by
  have hachieves (c : CardId) (hc : c ∈ o.wanted entity) :
      Achieves o [] (o.Reach {c}) (migrateCard c) :=
    migrateCard_achieves (hcards c hc) fun _ _ => List.not_mem_nil
  obtain ⟨kind, id⟩ := entity
  cases kind with
  | card =>
    obtain ⟨hok, hadvance⟩ := hachieves ⟨id⟩ rfl s hs hobliging hidle
    exact ⟨hok, hadvance.answer fun _ => mem_migrated_of_migrateCard (Prod.ext hok rfl)⟩
  | dashboard =>
    obtain ⟨d, hd⟩ := hplan
    have hasked := advance_asked hs ⟨.dashboard, id⟩
    obtain ⟨hok, hadvance⟩ := forM_achieves hachieves _ hasked.faithful (hasked.obliging hobliging) hidle
    obtain ⟨hends, hresult⟩ := migrateEntity_ends hs (hentity rfl) (hobliging _).fetched hadvance
    have hmigrated := hresult hobliging
    rw [hok, hd] at hmigrated
    rw [hmigrated] at hends
    exact ⟨hmigrated, Ends.answer (b := ⟨id⟩) hends⟩

/-- Interrupted migrations resume. Take an installation in memory that refuses any pushes, with any statuses,
and fails any requests, a session on it without a translator, or with one that asks no provider, and a card or
dashboard whose migration is asked for again and again, until it succeeds. Then it would have succeeded at once
on the installation with the same documents that refuses nothing, with the same cards migrated, and the same
documents. -/
theorem resumed_as_at_once (o : Outset μ) (hretries : ReflTransGen (Fails entity) o.start s)
    (hok : migrate entity s = (.ok (), t)) :
    ∃ u, migrate entity o.unrefused.start = (.ok (), u) ∧ t.migrated = u.migrated ∧
      ∀ e, t.remote.document? e = u.remote.document? e := by
  have hinterrupted := interrupted_of_reflTransGen hretries
  obtain ⟨hanswer, hreach⟩ := hinterrupted.answer hok
  have hstart : o.Faithful o.unrefused.start := (faithful_start o).of_remote (fun _ => rfl) rfl
  obtain ⟨hwanted, hplan⟩ := hanswer.completes rfl
  obtain ⟨honce, hatonce⟩ := migrate_achieves (fun c hc => (hanswer.faithful.done c (hwanted c hc)).1) hplan
    hstart o.memory.obliging_unrefused rfl fun _ => rfl
  have hmigrated (c : CardId) : c ∈ t.migrated ↔ c ∈ (migrate entity o.unrefused.start).2.migrated := by
    rw [hreach, hatonce.mem_migrated_iff]
    exact (or_iff_right List.not_mem_nil).symm
  refine ⟨_, Prod.ext honce rfl, ?_, fun e => ?_⟩
  · exact Ident.eq_of_pairwise_lt hanswer.faithful.sorted hatonce.faithful.sorted hmigrated
  · obtain ⟨kind, id⟩ := e
    cases kind with
    | card => exact hanswer.faithful.document?_congr hatonce.faithful hmigrated ⟨id⟩
    | dashboard =>
      have hfirst : s.remote.document? (.dashboard ⟨id⟩) =
          o.unrefused.start.remote.document? (.dashboard ⟨id⟩) := hinterrupted.dashboards ⟨id⟩
      refine (hanswer.dashboards ⟨id⟩).trans (Eq.trans ?_ (hatonce.dashboards ⟨id⟩).symm)
      rw [hfirst]

/-! ## A question that is refused twice -/

/-- The first push of each question is refused. -/
def refusing : Outset TableProvider :=
  { Session.showing with memory := (Session.shown.withStatus (.card ⟨112⟩) 503).withStatus (.card ⟨113⟩) 500 }

/-- What the first requests for the question that is built on the other one come to. -/
theorem results_refusing :
    (refusing.start.performed (List.replicate 3 (.migrate (.card ⟨113⟩)))).map (·.result) =
      [.error (.pushRefused (.card ⟨112⟩) 503), .error (.pushRefused (.card ⟨113⟩) 500), .ok ()] := by
  decide +kernel

/-- That question is migrated at the third attempt, and the one it is built on at the second. -/
theorem resumed_refusing : ∃ s t u,
    ReflTransGen (Fails (.card ⟨113⟩)) refusing.start s ∧ migrate (.card ⟨113⟩) s = (.ok (), t) ∧
    migrate (.card ⟨113⟩) refusing.unrefused.start = (.ok (), u) ∧ t.migrated = u.migrated ∧
    u.migrated = [⟨112⟩, ⟨113⟩] ∧ ∀ e, t.remote.document? e = u.remote.document? e := by
  obtain ⟨hfirst, hsecond, hthird, -⟩ : _ ∧ _ ∧ _ ∧ True := by
    simpa only [List.replicate, Session.performed, Call.perform, List.map, List.cons.injEq]
      using results_refusing
  have hcards : (migrate (.card ⟨113⟩) refusing.unrefused.start).2.migrated = [⟨112⟩, ⟨113⟩] := by
    decide +kernel
  have hretries := ReflTransGen.tail (.single (fails_of_error hfirst)) (fails_of_error hsecond)
  have ht := eq_of_ok hthird
  obtain ⟨u, hu, hmigrated, hdocuments⟩ := resumed_as_at_once refusing hretries ht
  refine ⟨_, _, u, hretries, ht, hu, hmigrated, ?_, hdocuments⟩
  rw [← hcards, hu]

end Migrating

end Rehome
