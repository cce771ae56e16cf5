import Rehome.Proofs.Migration.Independence
import Rehome.Proofs.Migration.Memory

/-! # Dry runs

A session that keeps its documents back does what it would do otherwise, as long as no document is fetched
again after it was kept back or sent. No migration does that: a card that has been migrated is not fetched
again, a card under way is refused, and no card needs a dashboard. So a dry run and the real run stay mirrored
(`Session.Mirrored`), although their installations drift apart with the first push, and the dry run foretells
the real one (`Session.dryRun_foretells`). -/

namespace Rehome

/-- Was a document asked for? -/
def RemoteEvent.isFetch : RemoteEvent → Bool
  | .fetch _ _ => true
  | .push _ _ _ => false

/-! ## Installations that accept all pushes -/

namespace Memory

/-- The installation accepts whatever is pushed; some fetches may fail. -/
structure Welcoming (m : Memory) : Prop where
  pushed : m.pushFailures = []
  accepted : ∀ p ∈ m.statuses, p.2 = Remote.accepted

theorem Welcoming.push {m : Memory} (h : m.Welcoming) (entity : Entity) (document : Json) :
    m.push entity document = (.ok Remote.accepted,
      ({ m with statuses := m.statuses.eraseP (·.1 == entity) }.write (.push entity document true)
        ).withDocument entity document) := by
  have hstatus : (m.statuses.lookup entity).getD Remote.accepted = Remote.accepted := by
    cases hlookup : m.statuses.lookup entity with
    | none => rfl
    | some status => exact h.accepted _ (Assoc.mem_of_lookup hlookup)
  rw [Memory.push, takeNext, h.pushed, List.lookup_nil]
  simp only [takeNext, hstatus, store, if_pos]

end Memory

variable {μ : Type} {α β : Type}

/-! ## Mirrored sessions -/

namespace Session

/-- The session sends its documents, to that installation. -/
def sending (r : Memory) (s : Session Memory μ) : Session Memory μ := { s with dryRun := false, remote := r }

/-- A session that keeps documents back, on an installation that started as `m`, and the installation that a
session has come to that differs from it only in that it sends them. What was produced is for cards that have
been migrated, or for some entities that no migration will fetch. -/
structure Mirrored (m : Memory) (gone : Set Entity) (s : Session Memory μ) (r : Memory) : Prop where
  keeps : s.dryRun = true
  guarded : s.Guarded
  documents : s.remote.documents = m.documents
  document? : ∀ e, r.document? e = (s.produced? e).or (m.document? e)
  failures : r.fetchFailures = s.remote.fetchFailures
  welcoming : r.Welcoming
  log : ∃ news, r.log = m.log ++ news ∧ s.remote.log = m.log ++ news.filter (·.isFetch)
  pushes : r.pushes = m.pushes ++ s.produced
  produced : ∀ e ∈ s.produced.map Prod.fst, e ∈ gone ∨ ∃ c ∈ s.migrated, e = .card c
  once : (s.produced.map Prod.fst).Nodup

namespace Mirrored

variable {m r : Memory} {gone : Set Entity} {s t : Session Memory μ} {entity : Entity} {card : CardId}

/-- Nothing has been produced for an entity that a migration is about to fetch, or to push. -/
theorem fresh (h : Mirrored m gone s r) (hgone : entity ∉ gone)
    (hcard : ∀ c, entity = .card c → c ∈ s.inProgress) : entity ∉ s.produced.map Prod.fst := by
  intro hentity
  rcases h.produced entity hentity with hentity | ⟨c, hc, rfl⟩
  · exact hgone hentity
  · exact h.guarded.pending c (hcard c rfl) hc

theorem mono {gone' : Set Entity} (h : Mirrored m gone s r) (hgone : gone ⊆ gone') : Mirrored m gone' s r :=
  { h with produced := fun e he => (h.produced e he).imp_left (@hgone e) }

/-- What a session remembers of its texts is of no importance. -/
theorem translated (h : Mirrored m gone s r) (t : Option (Translator μ)) :
    Mirrored m gone { s with translator := t } r :=
  { h with guarded := ⟨h.guarded.nodup, h.guarded.pending⟩ }

theorem fetched (h : Mirrored m gone s r) (entity : Entity) :
    Mirrored m gone { s with remote := s.remote.fetched entity } (r.fetched entity) := by
  obtain ⟨news, hreal, hdry⟩ := h.log
  have hevent (reached : Bool) : (news ++ [RemoteEvent.fetch entity reached]).filter (·.isFetch) =
      news.filter (·.isFetch) ++ [.fetch entity reached] := List.filter_append ..
  rw [Memory.fetched, Memory.fetched, h.failures]
  cases s.remote.fetchFailures.lookup entity with
  | some status =>
    refine { h with
      guarded := ⟨h.guarded.nodup, h.guarded.pending⟩
      failures := rfl
      welcoming := ⟨h.welcoming.pushed, h.welcoming.accepted⟩
      log := ⟨news ++ [.fetch entity false], ?_, ?_⟩
      pushes := (Memory.pushes_write_fetch ..).trans h.pushes }
    · exact (congrArg (· ++ _) hreal).trans (List.append_assoc ..)
    · rw [hevent]
      exact (congrArg (· ++ _) hdry).trans (List.append_assoc ..)
  | none =>
    refine { h with
      guarded := ⟨h.guarded.nodup, h.guarded.pending⟩
      welcoming := ⟨h.welcoming.pushed, h.welcoming.accepted⟩
      log := ⟨news ++ [.fetch entity true], ?_, ?_⟩
      pushes := (Memory.pushes_write_fetch ..).trans h.pushes }
    · exact (congrArg (· ++ _) hreal).trans (List.append_assoc ..)
    · rw [hevent]
      exact (congrArg (· ++ _) hdry).trans (List.append_assoc ..)

/-- One session keeps a document back that the other one sends. -/
theorem pushed (h : Mirrored m gone s r) (hfresh : entity ∉ s.produced.map Prod.fst) (document : Json) :
    Mirrored m (insert entity gone) (s.markProduced entity document) (r.push entity document).2 := by
  rw [h.welcoming.push]
  obtain ⟨news, hreal, hdry⟩ := h.log
  refine { h with
    guarded := ⟨h.guarded.nodup, h.guarded.pending⟩
    document? := fun e => ?_
    welcoming := ⟨h.welcoming.pushed, fun p hp => h.welcoming.accepted p (List.mem_of_mem_eraseP hp)⟩
    log := ⟨news ++ [.push entity document true], ?_, ?_⟩
    pushes := ?_
    produced := fun e he => ?_
    once := Assoc.nodup_keys_put h.once _ _ }
  · have hreal := Assoc.lookup_put entity e document r.documents
    have hdry := Assoc.lookup_put entity e document s.produced
    have hbefore := h.document? e
    rw [produced?, markProduced, hdry]
    refine hreal.trans ?_
    split
    · rfl
    · exact hbefore
  · exact (congrArg (· ++ _) hreal).trans (List.append_assoc ..)
  · rw [List.filter_append, show List.filter (·.isFetch) [RemoteEvent.push entity document true] = [] from rfl,
      List.append_nil]
    exact hdry
  · rw [markProduced, Assoc.put_of_not_mem hfresh, ← List.append_assoc, ← h.pushes]
    exact Memory.pushes_write_push ..
  · rw [markProduced, Assoc.put_of_not_mem hfresh, List.map_append, List.mem_append] at he
    rcases he with he | he
    · exact (h.produced e he).imp_left (Set.mem_insert_of_mem _)
    · exact .inl (.inl (List.mem_singleton.1 he))

theorem inside (h : Mirrored m gone s r) (hnew : card ∉ s.migrated) (hunder : card ∉ s.inProgress) :
    Mirrored m gone (s.enter card) r :=
  { h with guarded := h.guarded.inside hnew hunder }

theorem outside_error (h : Mirrored m gone t r) (hs : s.Guarded)
    (hchain : t.inProgress = s.inProgress ++ [card]) :
    Mirrored m gone { t with inProgress := s.inProgress } r := by
  have hpending : ∀ c ∈ s.inProgress, c ∉ t.migrated := fun c hc =>
    h.guarded.pending c (hchain ▸ List.mem_append_left _ hc)
  exact { h with guarded := ⟨hs.nodup, hpending⟩ }

/-- A card that has been produced is added to the migrated ones. -/
theorem outside_ok (h : Mirrored m (insert (.card card) gone) t r) (hs : s.Guarded)
    (hunder : card ∉ s.inProgress) (hchain : t.inProgress = s.inProgress ++ [card]) :
    Mirrored m gone (markMigrated card { t with inProgress := s.inProgress }) r := by
  have hpending : ∀ c ∈ s.inProgress, c ∉ insertSorted card t.migrated := by
    intro c hc hmigrated
    rcases mem_insertSorted.1 hmigrated with rfl | hmigrated
    · exact hunder hc
    · exact h.guarded.pending c (hchain ▸ List.mem_append_left _ hc) hmigrated
  refine { h with guarded := ⟨hs.nodup, hpending⟩, produced := ?_ }
  intro e he
  rcases h.produced e he with (rfl | he) | ⟨c, hc, rfl⟩
  · exact .inr ⟨card, mem_insertSorted.2 (.inl rfl), rfl⟩
  · exact .inl he
  · exact .inr ⟨c, mem_insertSorted.2 (.inr hc), rfl⟩

end Mirrored

end Session

namespace Migrating

open Session

/-! ## Computations that do the same in both sessions -/

/-- The computation does the same in both sessions, and leaves them mirrored; if it succeeds, it may have
produced other entities. -/
inductive Reflects (m : Memory) (gone gone' : Set Entity) (x : Migrating Memory μ α) (s : Session Memory μ)
    (r : Memory) : Prop
  | ok {a : α} {t : Session Memory μ} {r' : Memory} :
      x s = (.ok a, t) → x (s.sending r) = (.ok a, t.sending r') → t.inProgress = s.inProgress →
      Mirrored m gone' t r' → Reflects m gone gone' x s r
  | error {e : MigrationError} {t : Session Memory μ} {r' : Memory} :
      x s = (.error e, t) → x (s.sending r) = (.error e, t.sending r') → t.inProgress = s.inProgress →
      Mirrored m gone t r' → Reflects m gone gone' x s r

/-- The computation does the same in all mirrored sessions. -/
def Mirrors (m : Memory) (gone : Set Entity) (α : Type) (x : Migrating Memory μ α) : Prop :=
  ∀ s r, Mirrored m gone s r → Reflects m gone gone x s r

variable {m r : Memory} {gone gone' : Set Entity} {s : Session Memory μ} {entity : Entity}

theorem Reflects.congr {x y : Migrating Memory μ α} (h : Reflects m gone gone' y s r) (hdry : x s = y s)
    (hreal : x (s.sending r) = y (s.sending r)) : Reflects m gone gone' x s r := by
  cases h with
  | ok hdry' hreal' hchain h => exact .ok (hdry.trans hdry') (hreal.trans hreal') hchain h
  | error hdry' hreal' hchain h => exact .error (hdry.trans hdry') (hreal.trans hreal') hchain h

/-- The sessions remain mirrored, whether the computation succeeds or not. -/
theorem Reflects.mirrored {x : Migrating Memory μ α} (h : Reflects m gone gone' x s r) {all : Set Entity}
    (hgone : gone ⊆ all) (hgone' : gone' ⊆ all) : ∃ result t r', x s = (result, t) ∧
      x (s.sending r) = (result, t.sending r') ∧ t.inProgress = s.inProgress ∧ Mirrored m all t r' := by
  cases h with
  | ok hdry hreal hchain h => exact ⟨_, _, _, hdry, hreal, hchain, h.mono hgone'⟩
  | error hdry hreal hchain h => exact ⟨_, _, _, hdry, hreal, hchain, h.mono hgone⟩

theorem Reflects.bind {x : Migrating Memory μ α} {f : α → Migrating Memory μ β}
    (hx : Reflects m gone gone x s r)
    (hf : ∀ a t r', t.inProgress = s.inProgress → Mirrored m gone t r' → Reflects m gone gone' (f a) t r') :
    Reflects m gone gone' (x >>= f) s r := by
  cases hx with
  | error hdry hreal hchain h =>
    exact .error (bind_of_error hdry f) (bind_of_error hreal f) hchain h
  | ok hdry hreal hchain h =>
    have hdry' := bind_of_ok hdry f
    have hreal' := bind_of_ok hreal f
    cases hf _ _ _ hchain h with
    | ok hdry hreal hchain' h' =>
      exact .ok (hdry'.trans hdry) (hreal'.trans hreal) (hchain'.trans hchain) h'
    | error hdry hreal hchain' h' =>
      exact .error (hdry'.trans hdry) (hreal'.trans hreal) (hchain'.trans hchain) h'

theorem closed_mirrors (m : Memory) (gone : Set Entity) : Closed (Mirrors (μ := μ) m gone) where
  pure _ _ _ h := .ok rfl rfl rfl h
  bind hx hf s r h := (hx s r h).bind fun a t r' _ ht => hf a t r' ht

theorem throw_mirrors (e : MigrationError) : Mirrors (μ := μ) m gone α (throw e) :=
  fun _ _ h => .error rfl rfl rfl h

/-- An entity is fetched for which nothing has been produced. -/
theorem fetchDocument_reflects (h : Mirrored m gone s r) (hfresh : entity ∉ s.produced.map Prod.fst) :
    Reflects m gone gone (fetchDocument entity) s r := by
  have hproduced : s.produced? entity = none := by
    apply List.lookup_eq_none_iff.2
    intro p hp
    rw [bne_iff_ne]
    rintro rfl
    exact hfresh (List.mem_map_of_mem hp)
  have hdocument : r.document? entity = s.remote.document? entity := by
    rw [h.document?, hproduced, Option.none_or, Memory.document?, Memory.document?, h.documents]
  have hdry : fetch entity s = ((s.remote.fetch entity).1.mapError .remote,
      { s with remote := (s.remote.fetch entity).2 }) := rfl
  have hreal : fetch entity (s.sending r) = ((r.fetch entity).1.mapError .remote,
      sending (r.fetch entity).2 s) := rfl
  rw [Memory.fetch_eq] at hdry hreal
  rw [h.failures, hdocument] at hreal
  have hfetch : Reflects m gone gone (fetch entity) s r := by
    cases hanswer : Memory.answer entity s.remote.fetchFailures (s.remote.document? entity) with
    | ok document =>
      rw [hanswer] at hdry hreal
      exact .ok hdry hreal rfl (h.fetched entity)
    | error e =>
      rw [hanswer] at hdry hreal
      exact .error hdry hreal rfl (h.fetched entity)
  apply hfetch.bind
  intro document t r' _ ht
  cases entity.checkDocument document with
  | ok document => exact (closed_mirrors m gone).pure document t r' ht
  | error e => exact throw_mirrors e t r' ht

theorem push_reflects (h : Mirrored m gone s r) (hfresh : entity ∉ s.produced.map Prod.fst) (document : Json) :
    Reflects m gone (insert entity gone) (push entity document) s r := by
  have hoffer : offer entity document (s.sending r) = ((r.push entity document).1.mapError .remote,
      sending (r.push entity document).2 s) := rfl
  have hreal : push entity document (s.sending r) =
      (.ok (), sending (r.push entity document).2 (s.markProduced entity document)) := by
    rw [push_apply, if_neg (by simp [sending]), send, bind_assoc, bind_apply, hoffer, h.welcoming.push]
    rfl
  have hdry : push entity document s = (.ok (), s.markProduced entity document) := by
    rw [push_apply, if_pos h.keeps]
  exact .ok hdry hreal rfl (h.pushed hfresh document)

section Migration

variable [Provider μ]

theorem visit_mirrors {require : CardId → Migrating Memory μ Unit} (h : ∀ c, Mirrors m gone _ (require c))
    (owner : Entity) (trail : Trail) (j : Json) : Mirrors m gone _ (visit require owner trail j) := by
  have htranslate (text : String) : Mirrors (μ := μ) m gone _ (translateText text) := by
    intro s r hs
    cases htranslator : s.translator with
    | none =>
      have hkept (s : Session Memory μ) (h : s.translator = none) :
          translateText text s = (.ok text, s) := by
        rw [translateText, h]
      exact .ok (hkept s htranslator) (hkept (s.sending r) htranslator) rfl hs
    | some translator =>
      have hset (s : Session Memory μ) (h : s.translator = some translator) : translateText text s =
          (((Translator.translate text).run.run translator).1.mapError .label,
            { s with translator := some ((Translator.translate text).run.run translator).2 }) := by
        rw [translateText, h]
        rfl
      have hdry := hset s htranslator
      have hreal := hset (s.sending r) htranslator
      cases hresult : ((Translator.translate text).run.run translator).1 with
      | ok translated =>
        rw [hresult] at hdry hreal
        exact .ok hdry hreal rfl (hs.translated _)
      | error e =>
        rw [hresult] at hdry hreal
        exact .error hdry hreal rfl (hs.translated _)
  intro s r hs
  have hclosed := closed_mirrors (μ := μ) m gone
  have hplan := carryOut_related hclosed.compatible (g := require) throw_mirrors h
    (Renaming.place ⟨s.mapping, owner⟩ trail j)
  have hdry := visit_apply require owner trail j s
  have hreal := visit_apply require owner trail j (s.sending r)
  by_cases htrail : trail.isEmpty
  · rw [if_pos htrail] at hdry hreal
    exact .ok hdry hreal rfl hs
  · rw [if_neg htrail] at hdry hreal
    exact (hclosed.bind hplan (hclosed.mapSlots htranslate trail) s r hs).congr hdry hreal

/-- The migration of an entity that has not been produced, and that no card needs, or that is under way. -/
theorem migrateEntity_reflects {require : CardId → Migrating Memory μ Unit}
    (hrequire : ∀ c, Mirrors m gone _ (require c)) (h : Mirrored m gone s r) (hgone : entity ∉ gone)
    (hcard : ∀ c, entity = .card c → c ∈ s.inProgress) :
    Reflects m gone (insert entity gone) (migrateEntity require entity) s r := by
  apply (fetchDocument_reflects h (h.fresh hgone hcard)).bind
  intro document t r' hchain ht
  have hwalk := walkDocument_of_visit (closed_mirrors m gone) (visit_mirrors hrequire entity) document
  apply (hwalk t r' ht).bind
  intro document' u r'' hchain' hu
  refine push_reflects hu (hu.fresh hgone fun c hc => ?_) document'
  rw [hchain', hchain]
  exact hcard c hc

omit [Provider μ] in
theorem once_mirrors (card : CardId) {act : Migrating Memory μ Unit}
    (hact : ∀ s r, Mirrored m gone s r → card ∈ s.inProgress →
      Reflects m gone (insert (.card card) gone) act s r) : Mirrors m gone _ (once card act) := by
  intro s r h
  have hdry := once_apply card act s
  have hreal := once_apply card act (s.sending r)
  by_cases hmigrated : s.isMigrated card
  · rw [if_pos hmigrated] at hdry
    rw [if_pos (show (s.sending r).isMigrated card from hmigrated)] at hreal
    exact .ok hdry hreal rfl h
  rw [if_neg hmigrated] at hdry
  rw [if_neg (show ¬(s.sending r).isMigrated card from hmigrated)] at hreal
  by_cases hunder : s.inProgress.contains card
  · rw [if_pos hunder] at hdry
    rw [if_pos (show (s.sending r).inProgress.contains card from hunder)] at hreal
    exact .error hdry hreal rfl h
  rw [if_neg hunder] at hdry
  rw [if_neg (show ¬(s.sending r).inProgress.contains card from hunder)] at hreal
  have hnew : card ∉ s.migrated := by simpa [isMigrated] using hmigrated
  have hout : card ∉ s.inProgress := by simpa using hunder
  have hmem : card ∈ s.inProgress ++ [card] := List.mem_append_right _ (List.mem_singleton.2 rfl)
  cases hact _ r (h.inside hnew hout) hmem with
  | ok hdry' hreal' hchain ht =>
    have hreal' : act ((s.sending r).enter card) = _ := hreal'
    rw [bind_apply, during_apply (hdry' ▸ hchain), hdry'] at hdry
    rw [bind_apply, during_apply (hreal' ▸ hchain), hreal'] at hreal
    exact .ok hdry hreal rfl (ht.outside_ok h.guarded hout hchain)
  | error hdry' hreal' hchain ht =>
    have hreal' : act ((s.sending r).enter card) = _ := hreal'
    rw [bind_apply, during_apply (hdry' ▸ hchain), hdry'] at hdry
    rw [bind_apply, during_apply (hreal' ▸ hchain), hreal'] at hreal
    exact .error hdry hreal rfl (ht.outside_error h.guarded hchain)

theorem migrateCard_mirrors (hgone : ∀ c, .card c ∉ gone) (card : CardId) :
    Mirrors (μ := μ) m gone _ (migrateCard card) := by
  have hwithin (depth : Nat) : ∀ card, Mirrors (μ := μ) m gone _ (migrateCardWithin depth card) := by
    induction depth with
    | zero =>
      intro card
      exact once_mirrors card fun s r h _ => .error rfl rfl rfl h
    | succ depth ih =>
      intro card
      refine once_mirrors card fun s r h hunder => migrateEntity_reflects ih h (hgone card) fun c hc => ?_
      exact Entity.card_inj.1 hc ▸ hunder
  intro s r h
  exact (hwithin s.depthLimit card s r h).congr (migrateCard_apply card s) (migrateCard_apply card (s.sending r))

/-- A migration of a card, or of a dashboard that has not been produced. -/
theorem migrate_mirrored (hcards : ∀ c, .card c ∉ gone) (hentity : entity ∉ gone) (h : Mirrored m gone s r)
    (hidle : s.inProgress = []) : ∃ result t r', migrate entity s = (result, t) ∧
      migrate entity (s.sending r) = (result, t.sending r') ∧ t.inProgress = [] ∧
      Mirrored m (gone ∪ {e | e = entity ∧ e.kind = .dashboard}) t r' := by
  obtain ⟨kind, id⟩ := entity
  cases kind with
  | card =>
    have hcard := migrateCard_mirrors hcards ⟨id⟩ s r h
    obtain ⟨result, t, r', hdry, hreal, hchain, ht⟩ := hcard.mirrored Set.subset_union_left Set.subset_union_left
    exact ⟨result, t, r', hdry, hreal, hchain.trans hidle, ht⟩
  | dashboard =>
    have hdashboard := migrateEntity_reflects (migrateCard_mirrors hcards) h hentity fun c hc => by cases hc
    have hinsert : insert ⟨.dashboard, id⟩ gone ⊆
        gone ∪ {e : Entity | e = ⟨.dashboard, id⟩ ∧ e.kind = .dashboard} :=
      Set.insert_subset (.inr ⟨rfl, rfl⟩) Set.subset_union_left
    obtain ⟨result, t, r', hdry, hreal, hchain, ht⟩ := hdashboard.mirrored Set.subset_union_left hinsert
    exact ⟨result, t, r', hdry, hreal, hchain.trans hidle, ht⟩

end Migration

end Migrating

/-! ## Requests one after the other -/

namespace Session

/-- What a session that keeps documents back tells of one that sends them, where both have started on the
installation `m`. -/
structure Foretells (m : Memory) (dry real : Session Memory μ) : Prop where
  migrated : dry.migrated = real.migrated
  produced : ∀ e, dry.produced? e = real.produced? e
  translator : dry.translator = real.translator
  /-- The dry run has made the same fetches in the same order, and no pushes. -/
  requests : ∃ news, real.remote.log = m.log ++ news ∧ dry.remote.log = m.log ++ news.filter (·.isFetch)
  documents : ∀ e, dry.remote.document? e = m.document? e
  /-- The real run has pushed each entity that is remembered once, with its document, and no other. -/
  pushes : ∃ news, real.remote.pushes = m.pushes ++ news ∧ (news.map Prod.fst).Nodup ∧
    ∀ e d, (e, d) ∈ news ↔ real.produced? e = some d

theorem Mirrored.foretells {m r : Memory} {gone : Set Entity} {s : Session Memory μ}
    (h : Mirrored m gone s r) : Foretells m s (s.sending r) where
  migrated := rfl
  produced _ := rfl
  translator := rfl
  requests := h.log
  documents e := by rw [Memory.document?, Memory.document?, h.documents]
  pushes := ⟨s.produced, h.pushes, h.once, fun _ _ => (Assoc.lookup_eq_some_iff_mem h.once).symm⟩

/-- A session that has produced nothing and is asked for nothing yet. -/
theorem mirrored_start (mapping : Mapping) (translator : Option (Translator μ)) {m : Memory} (hm : m.Welcoming) :
    Mirrored m ∅ ⟨mapping, m, translator, true, [], [], []⟩ m where
  keeps := rfl
  guarded := ⟨.nil, fun _ hc => absurd hc List.not_mem_nil⟩
  documents := rfl
  document? _ := rfl
  failures := rfl
  welcoming := hm
  log := ⟨[], (List.append_nil _).symm, (List.append_nil _).symm⟩
  pushes := (List.append_nil _).symm
  produced _ he := absurd he List.not_mem_nil
  once := .nil

variable [Provider μ]

/-- Requests that are made of both sessions, with no dashboard among them twice or produced already. -/
theorem Mirrored.requested {m r : Memory} {gone : Set Entity} {s : Session Memory μ} (h : Mirrored m gone s r)
    (hidle : s.inProgress = []) (hcards : ∀ c, .card c ∉ gone) {requests : List Entity}
    (hrequests : ∀ e ∈ requests, e ∉ gone) (hdashboards : (requests.filter (·.kind == .dashboard)).Nodup) :
    List.Forall₂ (fun p q => p.call = q.call ∧ p.result = q.result ∧ Foretells m p.state q.state)
      (s.performed (requests.map .migrate)) ((s.sending r).performed (requests.map .migrate)) ∧
    Foretells m (s.after (requests.map .migrate)) ((s.sending r).after (requests.map .migrate)) := by
  induction requests generalizing s r gone with
  | nil => exact ⟨.nil, h.foretells⟩
  | cons entity requests ih =>
    obtain ⟨hentity, hrest⟩ := List.forall_mem_cons.1 hrequests
    obtain ⟨result, t, r', hdry, hreal, hidle', ht⟩ := Migrating.migrate_mirrored hcards hentity h hidle
    have hcards' : ∀ c, .card c ∉ gone ∪ {e : Entity | e = entity ∧ e.kind = .dashboard} := by
      rintro c (hc | ⟨-, hkind⟩)
      · exact hcards c hc
      · cases hkind
    have hrest' : ∀ e ∈ requests, e ∉ gone ∪ {e : Entity | e = entity ∧ e.kind = .dashboard} := by
      rintro e he (hgone | ⟨rfl, hkind⟩)
      · exact hrest e he hgone
      · have hfilter : (e :: requests).filter (·.kind == .dashboard) =
            e :: requests.filter (·.kind == .dashboard) :=
          List.filter_cons_of_pos (beq_iff_eq.2 hkind)
        rw [hfilter, List.nodup_cons] at hdashboards
        exact hdashboards.1 (List.mem_filter.2 ⟨he, beq_iff_eq.2 hkind⟩)
    have hdashboards' : (requests.filter (·.kind == .dashboard)).Nodup :=
      hdashboards.sublist ((List.sublist_cons_self entity requests).filter _)
    obtain ⟨hperformed, hafter⟩ := ih ht hidle' hcards' hrest' hdashboards'
    have hresult : (Call.migrate entity).perform s = (result, t) := hdry
    have hresult' : (Call.migrate entity).perform (s.sending r) = (result, t.sending r') := hreal
    rw [List.map_cons, performed, performed, after, after, List.foldl_cons, List.foldl_cons, hresult, hresult']
    exact ⟨.cons ⟨rfl, rfl, ht.foretells⟩ hperformed, hafter⟩

/-- A dry run foretells the real run. For any mapping, any translator, with whatever provider, and any
installation in memory that accepts all pushes, and for any requests with no dashboard among them twice, the
same requests have the same results in a session that keeps its documents back and in one that sends them, and
after each of them the former foretells the latter: both have migrated the same cards, have produced the same
documents, and have made the same fetches; the former has pushed nothing and has left all documents as they
were, and the latter has pushed exactly what it has produced. -/
theorem dryRun_foretells (mapping : Mapping) (translator : Option (Translator μ)) {m : Memory}
    (hm : m.Welcoming) {requests : List Entity}
    (hdashboards : (requests.filter (·.kind == .dashboard)).Nodup) :
    let real : Session Memory μ := { (new mapping m : Session Memory μ) with translator := translator }
    let dry := real.withDryRun true
    List.Forall₂ (fun p q => p.call = q.call ∧ p.result = q.result ∧ Foretells m p.state q.state)
      (dry.performed (requests.map .migrate)) (real.performed (requests.map .migrate)) ∧
    Foretells m (dry.after (requests.map .migrate)) (real.after (requests.map .migrate)) :=
  (mirrored_start mapping translator hm).requested rfl (fun _ hc => absurd hc (Set.notMem_empty _))
    (fun _ _ he => absurd he (Set.notMem_empty _)) hdashboards

/-! ## A dry run with a provider -/

/-- A translator that asks a provider, which fails once. -/
def asking : Translator TableProvider :=
  (Translator.new .fr .askProvider).withProvider
    ⟨"en", [("Group", "Groupe"), ("A", "Un"), ("B", "Deux")], 1, []⟩

/-- The dashboard fails for want of a card, after the other question has been migrated. -/
theorem foretells_shown :
    shown.Welcoming ∧ ([Entity.dashboard ⟨104⟩, .card ⟨113⟩].filter (·.kind == .dashboard)).Nodup ∧
    let real : Session Memory TableProvider :=
      { (new Migrating.sampled shown : Session Memory TableProvider) with translator := some asking }
    let calls := [Entity.dashboard ⟨104⟩, .card ⟨113⟩].map Call.migrate
    ((real.withDryRun true).performed calls).map (·.result) =
      [.error (.remote (.notFound (.card ⟨114⟩))), .ok ()] ∧
    Foretells shown ((real.withDryRun true).after calls) (real.after calls) ∧
    (real.after calls).migrated = [⟨112⟩, ⟨113⟩] := by
  have hwelcoming : shown.Welcoming := ⟨rfl, fun p hp => absurd hp List.not_mem_nil⟩
  have hdashboards : ([Entity.dashboard ⟨104⟩, .card ⟨113⟩].filter (·.kind == .dashboard)).Nodup := by decide
  obtain ⟨-, hforetells⟩ := dryRun_foretells Migrating.sampled (some asking) hwelcoming hdashboards
  refine ⟨hwelcoming, hdashboards, by decide +kernel, hforetells, ?_⟩
  decide +kernel

end Session

end Rehome
