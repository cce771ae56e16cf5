import Mathlib.Logic.Relation
import Rehome.Proofs.Label.Replacement
import Rehome.Proofs.Migration.Again
import Rehome.Proofs.Migration.Depth
import Rehome.Proofs.Migration.Failures
import Rehome.Proofs.Migration.History
import Rehome.Proofs.Migration.Memory
import Rehome.Proofs.Translator.Terms

/-! # Vocabularies that are prepared beforehand

The labels of an entity, and of all cards that are required for it, are collected before it is migrated. A
translator that knows these fails at no text of the migration (`migrate_vocabulary`): a card is fetched once, and
as it was at first; its walk translates none but texts that it had then; and it requires none but the cards that
it requires without a translator. -/

namespace Rehome

open Label Relation

variable {μ α β : Type}

/-- The card that is the second entity is required for the migration of the first one. -/
def Memory.Requires (mapping : Mapping) (m : Memory) (a b : Entity) : Prop :=
  ∃ document card, m.document? a = some document ∧
    card ∈ (Renaming.document ⟨mapping, a⟩ document).needs ∧ b = .card card

namespace Session

/-- What a request about an entity leaves as it is. -/
structure Aside (entity : Entity) (s t : Session Memory μ) : Prop where
  mapping : t.mapping = s.mapping
  translator : t.translator = s.translator
  migrated : t.migrated = s.migrated
  inProgress : t.inProgress = s.inProgress
  beside : s.remote.Beside entity t.remote

namespace Aside

variable {entity : Entity} {s t u : Session Memory μ}

theorem refl (entity : Entity) (s : Session Memory μ) : Aside entity s s := ⟨rfl, rfl, rfl, rfl, .refl entity _⟩

theorem trans (h : Aside entity s t) (h' : Aside entity t u) : Aside entity s u where
  mapping := h'.mapping.trans h.mapping
  translator := h'.translator.trans h.translator
  migrated := h'.migrated.trans h.migrated
  inProgress := h'.inProgress.trans h.inProgress
  beside := h.beside.trans h'.beside

end Aside

/-- A session with this mapping and translator that has done nothing yet about the cards that have neither been
migrated nor are under way: these can be fetched, or not, as at first. -/
structure Intact (mapping : Mapping) (translator : Option (Translator μ)) (m : Memory) (s : Session Memory μ) :
    Prop where
  setUp : s.SetUp mapping translator
  document? : ∀ card, card ∉ s.migrated → card ∉ s.inProgress →
    s.remote.document? (.card card) = m.document? (.card card)
  fetchFailures : ∀ card, card ∉ s.migrated → card ∉ s.inProgress →
    s.remote.fetchFailures.lookup (.card card) = m.fetchFailures.lookup (.card card)

namespace Intact

variable {mapping : Mapping} {translator : Option (Translator μ)} {m : Memory} {s t : Session Memory μ}
  {entity : Entity} {card : CardId}

/-- Requests about an entity that is no card, or one under way. -/
theorem of_aside (hs : s.Intact mapping translator m) (h : s.Aside entity t)
    (hentity : ∀ card, entity = .card card → card ∈ s.inProgress) : t.Intact mapping translator m := by
  have hne {card : CardId} (hcard : card ∉ t.inProgress) : Entity.card card ≠ entity :=
    fun heq => hcard (h.inProgress ▸ hentity card heq.symm)
  refine ⟨⟨h.mapping.trans hs.setUp.mapping, h.translator.trans hs.setUp.translator⟩, ?_, ?_⟩
  · intro card hmigrated hunder
    refine (h.beside.document? _ (hne hunder)).trans (hs.document? card ?_ ?_)
    · exact h.migrated ▸ hmigrated
    · exact h.inProgress ▸ hunder
  · intro card hmigrated hunder
    refine (h.beside.fetchFailures _ (hne hunder)).trans (hs.fetchFailures card ?_ ?_)
    · exact h.migrated ▸ hmigrated
    · exact h.inProgress ▸ hunder

/-- One more card is under way. -/
theorem inside (hs : s.Intact mapping translator m) (card : CardId) :
    Intact mapping translator m (s.enter card) where
  setUp := ⟨hs.setUp.mapping, hs.setUp.translator⟩
  document? c hc hunder := hs.document? c hc (mt (List.mem_append_left _) hunder)
  fetchFailures c hc hunder := hs.fetchFailures c hc (mt (List.mem_append_left _) hunder)

/-- A card that was under way has been migrated. -/
theorem outside {chain : List CardId} (ht : t.Intact mapping translator m) (hchain : t.inProgress = chain ++ [card]) :
    Intact mapping translator m (Session.markMigrated card { t with inProgress := chain }) := by
  have hnot {c : CardId} (hmigrated : c ∉ insertSorted card t.migrated) (hunder : c ∉ chain) :
      c ∉ t.migrated ∧ c ∉ t.inProgress := by
    rw [mem_insertSorted, not_or] at hmigrated
    rw [hchain, List.mem_append, List.mem_singleton, not_or]
    exact ⟨hmigrated.2, hunder, hmigrated.1⟩
  refine ⟨⟨ht.setUp.mapping, ht.setUp.translator⟩, fun c hmigrated hunder => ?_, fun c hmigrated hunder => ?_⟩
  · exact ht.document? c (hnot hmigrated hunder).1 (hnot hmigrated hunder).2
  · exact ht.fetchFailures c (hnot hmigrated hunder).1 (hnot hmigrated hunder).2

end Intact

end Session

namespace Migrating

/-! ## Fetches -/

theorem fetchDocument_result (entity : Entity) (s : Session Memory μ) : (fetchDocument entity s).1 =
    (Memory.answer entity s.remote.fetchFailures (s.remote.document? entity)).mapError .remote >>=
      entity.checkDocument := by
  rw [fetchDocument, bind_apply, fetch_memory]
  cases Memory.answer entity s.remote.fetchFailures (s.remote.document? entity) with
  | error e => rfl
  | ok document =>
    show _ = entity.checkDocument document
    dsimp only [Except.mapError]
    cases entity.checkDocument document <;> rfl

/-- What comes of a fetch depends on what the installation has for the entity. -/
theorem fetchDocument_congr {entity : Entity} {s t : Session Memory μ}
    (hdocument : s.remote.document? entity = t.remote.document? entity)
    (hfailures : s.remote.fetchFailures.lookup entity = t.remote.fetchFailures.lookup entity) :
    (fetchDocument entity s).1 = (fetchDocument entity t).1 := by
  simp only [fetchDocument_result, Memory.answer, hdocument, hfailures]

theorem document?_of_fetchDocument {entity : Entity} {s : Session Memory μ} {d : Json}
    (h : (fetchDocument entity s).1 = .ok d) : s.remote.document? entity = some d := by
  rw [fetchDocument_result] at h
  obtain ⟨document, hanswer, hchecked⟩ := Except.bind_eq_ok_iff.1 h
  have hdocument : s.remote.document? entity = some document :=
    Memory.document?_of_answer (Except.mapError_eq_ok_iff.1 hanswer)
  rw [Entity.checkDocument] at hchecked
  split at hchecked
  · rw [hdocument, Except.ok.inj hchecked]
  · cases hchecked

/-! ## Migrations -/

variable [Provider μ]

/-- The translator translates all texts that an entity has at first. -/
def Prepared (mapping : Mapping) (m : Memory) (translator : Translator μ) (entity : Entity) : Prop :=
  ∀ d, (fetchDocument entity (Session.new mapping m : Session Memory μ)).1 = .ok d →
    ∀ t ∈ (documentScheme entity.kind).texts d, ∃ t', (Translator.translate t translator).1 = .ok t'

/-- With these cards under way, a computation has succeeded and left the session intact, or it has failed at
something else than a text. -/
def Untroubled (mapping : Mapping) (translator : Option (Translator μ)) (m : Memory) (chain : List CardId)
    {α : Type} : Except MigrationError α × Session Memory μ → Prop
  | (.ok _, t) => t.inProgress = chain ∧ t.Intact mapping translator m
  | (.error e, _) => ∀ cause, e ≠ .label cause

/-- With these cards under way, the computation keeps a session intact, unless it fails at something else than a
text. -/
def Fluent (mapping : Mapping) (translator : Option (Translator μ)) (m : Memory) (chain : List CardId) (α : Type)
    (x : Migrating Memory μ α) : Prop :=
  ∀ s, s.inProgress = chain → s.Intact mapping translator m → Untroubled mapping translator m chain (x s)

variable {mapping : Mapping} {m : Memory} {translator : Translator μ} {chain : List CardId} {entity : Entity}

section Steps

omit [Provider μ]

variable {translator : Option (Translator μ)}

theorem closed_fluent : Closed (Fluent mapping translator m chain) where
  pure _ _ hchain hs := ⟨hchain, hs⟩
  bind {α β x f} hx hf s hchain hs := by
    have hresult := hx s hchain hs
    rw [bind_apply]
    rcases h : x s with ⟨e | a, t⟩ <;> rw [h] at hresult
    · exact hresult
    · exact hf a t hresult.1 hresult.2

/-- Requests about an entity that is no card, or one under way. -/
theorem fluent_of_aside {x : Migrating Memory μ α} (h : Leads (Session.Aside entity) α x)
    (hlabel : FailsIn {e | ∀ cause, e ≠ .label cause} α x) (hentity : ∀ card, entity = .card card → card ∈ chain) :
    Fluent mapping translator m chain α x := by
  intro s hchain hs
  have haside := h s
  rcases hx : x s with ⟨e | a, t⟩ <;> rw [hx] at haside
  · exact hlabel s e (congrArg Prod.fst hx)
  · exact ⟨haside.inProgress.trans hchain, hs.of_aside haside (hchain ▸ hentity)⟩

theorem fetchDocument_fluent (hentity : ∀ card, entity = .card card → card ∈ chain) :
    Fluent mapping translator m chain Json (fetchDocument entity) := by
  refine fluent_of_aside ?_ (fetchDocument_failsIn entity (fun _ _ => nofun) fun _ _ => nofun) hentity
  exact fetchDocument_leads (Session.Aside.refl entity) Session.Aside.trans entity
    fun s => ⟨rfl, rfl, rfl, rfl, Memory.beside_fetch entity s.remote⟩

theorem push_fluent (hentity : ∀ card, entity = .card card → card ∈ chain) (d : Json) :
    Fluent mapping translator m chain Unit (push entity d) := by
  refine fluent_of_aside ?_ (push_failsIn entity d (fun _ _ => nofun) fun _ _ => nofun) hentity
  exact push_leads (Session.Aside.refl entity) Session.Aside.trans entity d
    (fun s => ⟨rfl, rfl, rfl, rfl, Memory.beside_push entity d s.remote⟩)
    fun s => ⟨rfl, rfl, rfl, rfl, .refl entity s.remote⟩

/-- A card is migrated once its migration inside of the others is fluent. -/
theorem once_fluent {card : CardId} {act : Migrating Memory μ Unit}
    (hact : ∀ s, (act s).2.inProgress = s.inProgress)
    (h : ∀ s : Session Memory μ, card ∉ s.migrated → card ∉ chain → s.inProgress = chain →
      s.Intact mapping translator m → Untroubled mapping translator m (chain ++ [card]) (act (s.enter card))) :
    Fluent mapping translator m chain Unit (once card act) := by
  rintro s rfl hs
  by_cases hmigrated : card ∈ s.migrated
  · rw [once_apply, if_pos (by simpa [Session.isMigrated] using hmigrated)]
    exact ⟨rfl, hs⟩
  by_cases hunder : card ∈ s.inProgress
  · rw [once_apply, if_neg (by simpa [Session.isMigrated] using hmigrated), if_pos (by simpa using hunder)]
    intro cause hcause
    cases hcause
  have hresult := h s hmigrated hunder rfl hs
  rw [once_of_new hmigrated hunder (hact _)]
  rcases hact : act (s.enter card) with ⟨e | u, t⟩ <;> rw [hact] at hresult
  · exact hresult
  · exact ⟨rfl, hresult.2.outside hresult.1⟩

end Steps

/-- A walk whose texts are all translated, if the cards that it requires can be migrated. -/
theorem walkDocument_fluent (hunaided : translator.onMiss ≠ .askProvider) {d : Json}
    (htexts : ∀ t ∈ (documentScheme entity.kind).texts d, ∃ t', (Translator.translate t translator).1 = .ok t')
    (hrequire : ∀ card ∈ (Renaming.document ⟨mapping, entity⟩ d).needs,
      Fluent mapping (some translator) m chain Unit (migrateCard card)) :
    Fluent mapping (some translator) m chain Json (walkDocument migrateCard entity d) := by
  have hunaided' : ∀ t ∈ some translator, t.onMiss ≠ .askProvider := by simpa using hunaided
  have hfollows := Renaming.document_follows entity.kind ⟨mapping, entity⟩
    (Translator.rendering (some translator)) d
  have hlabel : Plan.NoLabel Json (Walk.document entity.kind
      ((⟨mapping, entity⟩ : Renaming).translated (Translator.rendering (some translator))) [] d) := by
    intro cause hcause
    obtain ⟨t, ht, hmissing⟩ := hfollows.label hcause
    obtain ⟨t', ht'⟩ := htexts t ht
    cases hmissing.symm.trans (Except.mapError_eq_ok_iff.2 ht')
  intro s hchain hs
  rw [walkDocument_performs (migrateCard_keepsSetUp hunaided') hunaided' entity d s hs.setUp]
  refine closed_fluent.bind (closed_fluent.forM_mem fun card hcard => hrequire card ?_) (fun _ => ?_) s hchain hs
  · exact hfollows.needs.subset hcard
  · split
    · next d' _ => exact closed_fluent.pure d'
    · next e he => exact fun _ _ _ cause hcause => hlabel cause (he.trans (congrArg _ hcause))

/-- The migration of an entity that is fetched as at first. -/
theorem migrateEntity_fluent (hunaided : translator.onMiss ≠ .askProvider)
    (hprepared : Prepared mapping m translator entity)
    (hrequire : ∀ card, m.Requires mapping entity (.card card) →
      Fluent mapping (some translator) m chain Unit (migrateCard card))
    (hentity : ∀ card, entity = .card card → card ∈ chain) {s : Session Memory μ} (hchain : s.inProgress = chain)
    (hs : s.Intact mapping (some translator) m)
    (hfirst : (fetchDocument entity s).1 = (fetchDocument entity (Session.new mapping m : Session Memory μ)).1) :
    Untroubled mapping (some translator) m chain (migrateEntity migrateCard entity s) := by
  have hfetched := fetchDocument_fluent hentity s hchain hs
  rw [migrateEntity, bind_apply]
  rcases hfetch : fetchDocument entity s with ⟨e | d, t⟩ <;> rw [hfetch] at hfetched
  · exact hfetched
  have hd : (fetchDocument entity (Session.new mapping m : Session Memory μ)).1 = .ok d :=
    hfirst.symm.trans (congrArg Prod.fst hfetch)
  have hwalk : Fluent mapping (some translator) m chain Json (walkDocument migrateCard entity d) :=
    walkDocument_fluent hunaided (hprepared d hd) fun card hcard =>
      hrequire card ⟨d, card, document?_of_fetchDocument hd, hcard, rfl⟩
  exact closed_fluent.bind hwalk (push_fluent hentity) t hfetched.1 hfetched.2

/-- The migration of a card, if all that is required for it is prepared. -/
theorem migrateCard_fluent (hunaided : translator.onMiss ≠ .askProvider) (chain : List CardId) (card : CardId) :
    (∀ e, ReflTransGen (m.Requires mapping) (.card card) e → Prepared mapping m translator e) →
      Fluent mapping (some translator) m chain Unit (migrateCard card) := by
  refine nested_induction mapping (P := fun chain card =>
    (∀ e, ReflTransGen (m.Requires mapping) (.card card) e → Prepared mapping m translator e) →
      Fluent mapping (some translator) m chain Unit (migrateCard card)) ?_ chain card
  intro chain card ih hprepared
  rw [migrateCard_eq]
  have hsteady := Session.Steady.stable.migrateEntity
    (Session.Steady.stable.migrateCard (ρ := Memory) (μ := μ)) (.card card)
  refine once_fluent (fun s => (hsteady s).inProgress) fun s hmigrated hnew hchain hs => ?_
  subst hchain
  refine migrateEntity_fluent hunaided (hprepared _ .refl) (fun c hc => ?_) (fun c hc => ?_) rfl (hs.inside card) ?_
  · refine ih hnew c ?_ fun e he => hprepared e (.head hc he)
    obtain ⟨document, c', -, hc', heq⟩ := hc
    obtain rfl := Entity.card_inj.1 heq
    exact (Plan.closed_needsIn _).document Renaming.needsIn_place EntityKind.card [] document c hc'
  · rw [Entity.card_inj.1 hc]
    exact List.mem_append_right _ (List.mem_singleton_self _)
  · exact fetchDocument_congr (hs.document? card hmigrated hnew) (hs.fetchFailures card hmigrated hnew)

/-! ## Prepared vocabularies -/

/-- A translator that has been given the labels of an entity translates all of its texts. -/
theorem prepared_of_has {terms : TermDictionary}
    (h : ∀ labels s, collectLabels entity (Session.new mapping m : Session Memory μ) = (.ok labels, s) →
      ∀ label ∈ labels, terms.Has translator.language label) :
    Prepared mapping m (translator.withTerms terms false) entity := by
  intro d hd t ht
  refine Translator.exists_translate_withTerms fun hne => ?_
  have hcollected : collectLabels entity (Session.new mapping m : Session Memory μ) =
      (.ok (Label.ofDocument entity.kind d).elements, (fetchDocument entity (Session.new mapping m)).2) :=
    bind_of_ok (Prod.ext hd rfl) _
  exact h _ _ hcollected _ (mem_ofDocument.2 (mem_labelsOf.2 ⟨hne, t, ht, rfl⟩))

/-- The labels that are collected beforehand are all that has to be known. Take a translator that fails at what
it does not know, and a dictionary that has each label of an entity and of all cards that are required for it,
directly or for one another, as far as their documents can be had from an installation in memory. With the
dictionary, the translator fails at no text of the migration of that entity in a new session. -/
theorem migrate_vocabulary {terms : TermDictionary} (hpolicy : translator.onMiss = .fail)
    (hterms : ∀ e, ReflTransGen (m.Requires mapping) entity e → ∀ labels s,
      collectLabels e (Session.new mapping m : Session Memory μ) = (.ok labels, s) →
        ∀ label ∈ labels, terms.Has translator.language label) (dryRun : Bool) (cause : TranslateError) :
    (migrate entity (((Session.new mapping m).withTranslator (translator.withTerms terms false)).withDryRun
      dryRun)).1 ≠ .error (.label cause) := by
  have hunaided : (translator.withTerms terms false).onMiss ≠ .askProvider := by
    rw [Translator.withTerms_onMiss, hpolicy]
    decide
  have hprepared (e : Entity) (he : ReflTransGen (m.Requires mapping) entity e) :
      Prepared mapping m (translator.withTerms terms false) e := prepared_of_has (hterms e he)
  let start := ((Session.new mapping m : Session Memory μ).withTranslator
    (translator.withTerms terms false)).withDryRun dryRun
  have hstart : start.Intact mapping (some (translator.withTerms terms false)) m :=
    ⟨⟨rfl, rfl⟩, fun _ _ _ => rfl, fun _ _ _ => rfl⟩
  have hresult : Untroubled mapping (some (translator.withTerms terms false)) m [] (migrate entity start) := by
    obtain ⟨kind, id⟩ := entity
    cases kind with
    | card => exact migrateCard_fluent hunaided [] ⟨id⟩ hprepared start rfl hstart
    | dashboard =>
      refine migrateEntity_fluent hunaided (hprepared _ .refl) (fun card hcard => ?_) nofun rfl hstart
        (fetchDocument_congr rfl rfl)
      exact migrateCard_fluent hunaided [] card fun e he => hprepared e (.head hcard he)
  rcases hmigrate : migrate entity start with ⟨e | u, t⟩ <;> rw [hmigrate] at hresult
  · exact fun heq => hresult cause (Except.error.inj heq)
  · exact nofun

/-- An installation with a question and the card that it is to be built on. -/
def stocked : Memory :=
  (Memory.empty.withDocument (.card ⟨113⟩) (totals ⟨12⟩ ⟨101⟩ "TOTAL")).withDocument (.card ⟨112⟩)
    (.obj [("name", .str " Sales ")])

/-- What the labels of both are called. -/
def sold : TermDictionary := ⟨[("Sales", [("FR", "Ventes")]), ("Totals", [("FR", "Totaux")])]⟩

theorem requires_stocked {e : Entity} (h : ReflTransGen (stocked.Requires sampled) (.card ⟨113⟩) e) :
    e = .card ⟨113⟩ ∨ e = .card ⟨112⟩ := by
  induction h with
  | refl => exact .inl rfl
  | tail _ hstep ih =>
    obtain ⟨d, card, hd, hcard, rfl⟩ := hstep
    rcases ih with rfl | rfl
    · obtain rfl : totals ⟨12⟩ ⟨101⟩ "TOTAL" = d := Option.some.inj hd
      have hneeds : (Renaming.document ⟨sampled, .card ⟨113⟩⟩ (totals ⟨12⟩ ⟨101⟩ "TOTAL")).needs = [⟨112⟩] := by
        decide +kernel
      rw [hneeds] at hcard
      exact .inr (congrArg Entity.card (List.mem_singleton.1 hcard))
    · obtain rfl : Json.obj [("name", .str " Sales ")] = d := Option.some.inj hd
      have hneeds : (Renaming.document ⟨sampled, .card ⟨112⟩⟩ (.obj [("name", .str " Sales ")])).needs = [] := by
        decide +kernel
      rw [hneeds] at hcard
      cases hcard

theorem stocked_vocabulary : (Translator.new .fr .fail : Translator TableProvider).onMiss = .fail ∧
    (∀ e, ReflTransGen (stocked.Requires sampled) (.card ⟨113⟩) e → ∀ labels s,
      collectLabels e (Session.new sampled stocked : Session Memory TableProvider) = (.ok labels, s) →
        ∀ label ∈ labels, sold.Has .fr label) ∧
    ∀ dryRun cause, (migrate (.card ⟨113⟩) (((Session.new sampled stocked : Session Memory TableProvider).withTranslator
      ((Translator.new .fr .fail).withTerms sold false)).withDryRun dryRun)).1 ≠ .error (.label cause) := by
  have hterms : ∀ e, ReflTransGen (stocked.Requires sampled) (.card ⟨113⟩) e → ∀ labels s,
      collectLabels e (Session.new sampled stocked : Session Memory TableProvider) = (.ok labels, s) →
        ∀ label ∈ labels, sold.Has .fr label := by
    intro e he labels s hlabels label hlabel
    have hcalled (called : String) : TermDictionary.calledIn? .fr [("FR", called)] = some called := by
      simp [TermDictionary.calledIn?, Language.sameLetters, Language.name]
    have hfirst := congrArg Prod.fst hlabels
    rcases requires_stocked he with rfl | rfl
    · have hcollected : (collectLabels (.card ⟨113⟩) (Session.new sampled stocked : Session Memory TableProvider)).1 =
          .ok ["Totals"] := by decide +kernel
      obtain rfl := Except.ok.inj (hcollected.symm.trans hfirst)
      rw [List.mem_singleton.1 hlabel]
      exact ⟨[("FR", "Totaux")], "Totaux", by simp [sold], hcalled "Totaux"⟩
    · have hcollected : (collectLabels (.card ⟨112⟩) (Session.new sampled stocked : Session Memory TableProvider)).1 =
          .ok ["Sales"] := by decide +kernel
      obtain rfl := Except.ok.inj (hcollected.symm.trans hfirst)
      rw [List.mem_singleton.1 hlabel]
      exact ⟨[("FR", "Ventes")], "Ventes", by simp [sold], hcalled "Ventes"⟩
  exact ⟨rfl, hterms, migrate_vocabulary rfl hterms⟩

end Migrating

end Rehome
