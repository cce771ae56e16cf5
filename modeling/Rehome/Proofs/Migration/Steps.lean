import Rehome.Migration.Session
import Rehome.Proofs.Data.Assoc
import Rehome.Proofs.Place.Traversal

/-! # Steps of a session

What each computation of a session does to its state: an equation for each way to compose computations,
and what is known across any of them because it is known across every single change. The mapping, whether
documents are kept back, and the cards under way are never changed (`Session.Steady.stable`). -/

namespace Rehome

variable {ρ μ : Type} {α β : Type}

namespace Migrating

/-! ## Equations -/

@[simp] theorem pure_apply (a : α) (s : Session ρ μ) :
    (pure a : Migrating ρ μ α) s = (.ok a, s) := rfl

@[simp] theorem throw_apply (e : MigrationError) (s : Session ρ μ) :
    (throw e : Migrating ρ μ α) s = (.error e, s) := rfl

@[simp] theorem get_apply (s : Session ρ μ) : (get : Migrating ρ μ (Session ρ μ)) s = (.ok s, s) := rfl

@[simp] theorem modify_apply (f : Session ρ μ → Session ρ μ) (s : Session ρ μ) :
    (modify f : Migrating ρ μ Unit) s = (.ok (), f s) := rfl

theorem bind_apply (x : Migrating ρ μ α) (f : α → Migrating ρ μ β) (s : Session ρ μ) :
    (x >>= f) s = match x s with
      | (.ok a, s') => f a s'
      | (.error e, s') => (.error e, s') := by
  show ExceptT.bindCont f (x s).1 (x s).2 = _
  obtain ⟨result, s'⟩ := x s
  cases result <;> rfl

theorem bind_of_ok {x : Migrating ρ μ α} {s s' : Session ρ μ} {a : α} (h : x s = (.ok a, s'))
    (f : α → Migrating ρ μ β) : (x >>= f) s = f a s' := by
  rw [bind_apply, h]

theorem bind_of_error {x : Migrating ρ μ α} {s s' : Session ρ μ} {e : MigrationError}
    (h : x s = (.error e, s')) (f : α → Migrating ρ μ β) : (x >>= f) s = (.error e, s') := by
  rw [bind_apply, h]

theorem bind_pure_state (x : Migrating ρ μ α) (f : α → β) (s : Session ρ μ) :
    ((x >>= fun a => pure (f a)) s).2 = (x s).2 := by
  rw [bind_apply]
  rcases x s with ⟨e | a, t⟩ <;> rfl

theorem discard_apply (x : Migrating ρ μ α) (s : Session ρ μ) :
    (discard x : Migrating ρ μ Unit) s = ((x s).1.map fun _ => (), (x s).2) := by
  show (Functor.map (fun _ => ()) x) s = _
  rw [map_eq_pure_bind, bind_apply]
  rcases x s with ⟨e | a, t⟩ <;> rfl

theorem push_apply [Remote ρ] (entity : Entity) (document : Json) (s : Session ρ μ) :
    push entity document s =
      if s.dryRun then (.ok (), s.markProduced entity document)
      else (send entity document >>= fun _ => modify (·.markProduced entity document)) s := by
  rw [push, bind_of_ok (get_apply s)]
  split <;> rfl

theorem leave_of_inProgress {s t : Session ρ μ} {card : CardId} (h : t.inProgress = s.inProgress ++ [card]) :
    t.leave = { t with inProgress := s.inProgress } := by
  rw [Session.leave, h, List.dropLast_concat]

/-- The card that is added to those under way is the one that is taken off, if the action leaves them alone. -/
theorem during_apply {act : Migrating ρ μ Unit} {card : CardId} {s : Session ρ μ}
    (hact : (act (s.enter card)).2.inProgress = s.inProgress ++ [card]) :
    during card act s =
      ((act (s.enter card)).1,
        { (act (s.enter card)).2 with inProgress := s.inProgress }) :=
  congrArg (Prod.mk _) (leave_of_inProgress hact)

theorem once_apply (card : CardId) (act : Migrating ρ μ Unit) (s : Session ρ μ) :
    once card act s =
      if s.isMigrated card then (.ok (), s)
      else if s.inProgress.contains card then
        (.error (.cyclicReference (s.inProgress ++ [card])), s)
      else (during card act >>= fun _ => modify (·.markMigrated card)) s := by
  rw [once, bind_of_ok (get_apply s)]
  split
  · rfl
  · split <;> rfl

/-- What `once` makes of an action about a new card. -/
theorem once_of_new {card : CardId} {s : Session ρ μ} (hnew : card ∉ s.migrated) (hunder : card ∉ s.inProgress)
    {act : Migrating ρ μ Unit} (hact : (act (s.enter card)).2.inProgress = s.inProgress ++ [card]) :
    once card act s =
      match act (s.enter card) with
      | (.ok _, t) => (.ok (), Session.markMigrated card { t with inProgress := s.inProgress })
      | (.error e, t) => (.error e, { t with inProgress := s.inProgress }) := by
  rw [once_apply, if_neg (by simpa [Session.isMigrated] using hnew), if_neg (by simpa using hunder),
    bind_apply, during_apply hact]
  rcases act (s.enter card) with ⟨e | v, t⟩ <;> rfl

/-- A card that `once` has succeeded for is among the migrated ones. -/
theorem isMigrated_once {card : CardId} {act : Migrating ρ μ Unit}
    {s : Session ρ μ} (h : (once card act s).1 = .ok ()) :
    card ∈ (once card act s).2.migrated := by
  rw [once_apply] at h ⊢
  split at h
  · next hmigrated =>
    rw [if_pos hmigrated]
    simpa [Session.isMigrated] using hmigrated
  next hnew =>
  rw [if_neg hnew]
  split at h
  · simp at h
  next hout =>
  rw [if_neg hout]
  rw [bind_apply] at h ⊢
  rcases hact : during card act s with ⟨e | u, t⟩
  · rw [hact] at h
    simp at h
  · exact mem_insertSorted.2 (.inl rfl)

theorem migrateCard_apply [Remote ρ] [Provider μ] (card : CardId) (s : Session ρ μ) :
    migrateCard card s = migrateCardWithin s.depthLimit card s := by
  rw [migrateCard, bind_of_ok (get_apply s)]

theorem visit_apply [Provider μ] (require : CardId → Migrating ρ μ Unit) (owner : Entity)
    (trail : Trail) (j : Json) (s : Session ρ μ) :
    visit require owner trail j s =
      if trail.isEmpty then (.ok j, s)
      else (carryOut require (Renaming.place ⟨s.mapping, owner⟩ trail j) >>=
        Label.mapSlots translateText trail) s := by
  rw [visit]
  split
  · rfl
  · rw [bind_of_ok (get_apply s)]

/-- The document is walked, and each place visited with its trail. -/
theorem walkDocument_eq [Provider μ] (require : CardId → Migrating ρ μ Unit) (entity : Entity)
    (document : Json) :
    walkDocument require entity document = Walk.document entity.kind (visit require entity) [] document := by
  have hrun := Traversal.run_performs entity.kind
    (fun trail j => Prod.mk () <$> visit require entity trail j) document
  simp only [Functor.map_map, id_map'] at hrun
  rw [← hrun, map_eq_pure_bind]
  rfl

/-- A migration ends at the failure of the fetch, or of the walk, or with the push of what has come out
of the walk. -/
theorem migrateEntity_cases [Remote ρ] [Provider μ] (require : CardId → Migrating ρ μ Unit)
    (entity : Entity) (s : Session ρ μ) :
    (∃ e t, fetchDocument entity s = (.error e, t) ∧ migrateEntity require entity s = (.error e, t)) ∨
    ∃ document t, fetchDocument entity s = (.ok document, t) ∧
      ((∃ e u, walkDocument require entity document t = (.error e, u) ∧
        migrateEntity require entity s = (.error e, u)) ∨
      ∃ document' u, walkDocument require entity document t = (.ok document', u) ∧
        migrateEntity require entity s = push entity document' u) := by
  rw [migrateEntity]
  rcases hfetch : fetchDocument entity s with ⟨e | document, t⟩
  · exact .inl ⟨e, t, rfl, bind_of_error hfetch _⟩
  · rw [bind_of_ok hfetch]
    rcases hwalk : walkDocument require entity document t with ⟨e | document', u⟩
    · exact .inr ⟨document, t, rfl, .inl ⟨e, u, hwalk, bind_of_error hwalk _⟩⟩
    · exact .inr ⟨document, t, rfl, .inr ⟨document', u, hwalk, bind_of_ok hwalk _⟩⟩

/-! ## Relations between states -/

/-- Every run leads from a state to one it is related to, whether it fails or not. -/
def Leads (P : Session ρ μ → Session ρ μ → Prop) (α : Type) (x : Migrating ρ μ α) : Prop :=
  ∀ s, P s (x s).2

theorem closed_leads {P : Session ρ μ → Session ρ μ → Prop} (refl : ∀ s, P s s)
    (trans : ∀ {s t u}, P s t → P t u → P s u) : Closed (Leads P) where
  pure a s := refl s
  bind {α β x f} hx hf s := by
    have hs := hx s
    rcases h : x s with ⟨e | a, s'⟩ <;> rw [h] at hs
    · rwa [bind_of_error h]
    · rw [bind_of_ok h]
      exact trans hs (hf a s')

/-! ## Computations made of others -/

section Compose

variable {ρ' μ' : Type} {R : (α : Type) → Migrating ρ μ α → Migrating ρ' μ' α → Prop}
  {f : CardId → Migrating ρ μ Unit} {g : CardId → Migrating ρ' μ' Unit}

/-- Two ways to carry out a plan are related if they are about the cards that it needs, and about its
failure. -/
theorem carryOut_related_mem (hR : Compatible R) {plan : Plan α} (h : ∀ c ∈ plan.needs, R _ (f c) (g c))
    (hthrow : ∀ e, plan.outcome = .error e → R α (throw e) (throw e)) :
    R _ (carryOut f plan) (carryOut g plan) := by
  refine hR.bind (hR.forM_mem h) fun _ => ?_
  cases houtcome : plan.outcome with
  | ok a => exact hR.pure a
  | error e => exact hthrow e houtcome

theorem carryOut_related (hR : Compatible R) (hthrow : ∀ {α} (e : MigrationError), R α (throw e) (throw e))
    (h : ∀ c, R _ (f c) (g c)) (plan : Plan α) : R _ (carryOut f plan) (carryOut g plan) :=
  carryOut_related_mem hR (fun c _ => h c) fun e _ => hthrow e

/-- Walking a document is related to a walk of any kind if the visits of its places are. -/
theorem walkDocument_compatible [Provider μ] {n : Type → Type} [Monad n] [LawfulMonad n]
    {R : (α : Type) → Migrating ρ μ α → n α → Prop} (hR : Compatible R) {entity : Entity}
    {act : Trail → Json → n Json} (h : ∀ trail j, R _ (visit f entity trail j) (act trail j)) (document : Json) :
    R _ (walkDocument f entity document) (Walk.document entity.kind act [] document) := by
  rw [walkDocument_eq]
  exact hR.document h entity.kind [] document

theorem walkDocument_related [Provider μ] [Provider μ'] (hR : Compatible R) {entity : Entity}
    (h : ∀ trail j, R _ (visit f entity trail j) (visit g entity trail j)) (document : Json) :
    R _ (walkDocument f entity document) (walkDocument g entity document) := by
  rw [walkDocument_eq g]
  exact walkDocument_compatible hR h document

/-- Walking a document has a property if the visits of its places have it. -/
theorem walkDocument_of_visit [Provider μ] {K : (α : Type) → Migrating ρ μ α → Prop} (hK : Closed K)
    {entity : Entity} (h : ∀ trail j, K _ (visit f entity trail j)) (document : Json) :
    K _ (walkDocument f entity document) := by
  rw [walkDocument_eq]
  exact hK.document h entity.kind [] document

end Compose

/-- To most relations the state of a translator is of no importance. -/
theorem translateText_leads [Provider μ] {P : Session ρ μ → Session ρ μ → Prop} (refl : ∀ s, P s s)
    (translator : ∀ {t s}, s.translator ≠ none → P s { s with translator := some t }) (text : String) :
    Leads P _ (translateText text) := by
  intro s
  rw [translateText]
  split
  · exact refl s
  · next h => exact translator (by simp [h])

/-- A visit respects a relation if translations do, and all that it requires. -/
theorem visit_leads [Provider μ] {P : Session ρ μ → Session ρ μ → Prop} (refl : ∀ s, P s s)
    (trans : ∀ {s t u}, P s t → P t u → P s u) (htranslate : ∀ text, Leads P _ (translateText text))
    {require : CardId → Migrating ρ μ Unit} (h : ∀ c, Leads P _ (require c)) (owner : Entity)
    (trail : Trail) (j : Json) : Leads P _ (visit require owner trail j) := by
  have hclosed : Closed (Leads P) := closed_leads refl trans
  intro s
  rw [visit_apply]
  split
  · exact refl s
  · have hplan := carryOut_related hclosed.compatible (g := require) (fun _ => refl) h
      (Renaming.place ⟨s.mapping, owner⟩ trail j)
    exact hclosed.bind hplan (hclosed.mapSlots htranslate trail) s

section Requests

variable [Remote ρ] {P : Session ρ μ → Session ρ μ → Prop} (refl : ∀ s, P s s)
  (trans : ∀ {s t u}, P s t → P t u → P s u) (entity : Entity)

include refl trans

theorem fetchDocument_leads (fetch : ∀ s, P s { s with remote := (Remote.fetch entity s.remote).2 }) :
    Leads P _ (fetchDocument entity) := by
  refine (closed_leads refl trans).bind fetch fun document => ?_
  cases entity.checkDocument document with
  | ok document => exact (closed_leads refl trans).pure document
  | error e => exact refl

theorem push_leads (document : Json)
    (push : ∀ s, P s { s with remote := (Remote.push entity document s.remote).2 })
    (markProduced : ∀ s, P s (s.markProduced entity document)) : Leads P _ (Migrating.push entity document) := by
  have hclosed : Closed (Leads P) := closed_leads refl trans
  have hsend : Leads P _ (send entity document) := by
    refine hclosed.bind push fun status => ?_
    split
    · exact refl
    · exact hclosed.pure ()
  intro s
  rw [push_apply]
  split
  · exact markProduced s
  · exact hclosed.bind hsend (fun _ t => markProduced t) s

end Requests

/-! ## Relations that every step respects -/

/-- A relation between states that holds across each change of a session by a request or by what it writes down,
and that does not mind cards being under way in between. -/
structure Respected [Remote ρ] (P : Session ρ μ → Session ρ μ → Prop) : Prop where
  refl (s) : P s s
  trans {s t u} : P s t → P t u → P s u
  fetch (entity s) : P s { s with remote := (Remote.fetch entity s.remote).2 }
  push (entity document s) : P s { s with remote := (Remote.push entity document s.remote).2 }
  markProduced (entity document s) : P s (s.markProduced entity document)
  markMigrated (card s) : P s (s.markMigrated card)
  inside {card : CardId} {s t} : P (s.enter card) t → P s t.leave

namespace Respected

variable [Remote ρ] {P : Session ρ μ → Session ρ μ → Prop} (hP : Respected P)

include hP

theorem closed : Closed (Leads P) := closed_leads hP.refl hP.trans

theorem throw (e : MigrationError) : Leads P α (throw e) := hP.refl

theorem fetchDocument (entity : Entity) : Leads P _ (fetchDocument entity) :=
  fetchDocument_leads hP.refl hP.trans entity (hP.fetch entity)

theorem pushDocument (entity : Entity) (document : Json) : Leads P _ (Migrating.push entity document) :=
  push_leads hP.refl hP.trans entity document (hP.push entity document) (hP.markProduced entity document)

theorem once (card : CardId) {act : Migrating ρ μ Unit} (h : Leads P _ act) :
    Leads P _ (once card act) := by
  have hduring : Leads P _ (during card act) := fun s => hP.inside (h _)
  intro s
  rw [once_apply]
  split
  · exact hP.refl s
  · split
    · exact hP.refl s
    · exact hP.closed.bind hduring (fun _ t => hP.markMigrated card t) s

theorem collectLabels (entity : Entity) : Leads P _ (collectLabels entity) :=
  hP.closed.bind (hP.fetchDocument entity) fun _ => hP.closed.pure _

theorem relabel (entity : Entity) (replacements : List (String × String)) :
    Leads P _ (relabel entity replacements) := by
  refine hP.closed.bind (hP.fetchDocument entity) fun document => ?_
  rcases Label.replace replacements entity.kind document with ⟨count, document⟩
  dsimp only
  split
  · exact hP.closed.pure 0
  · exact hP.closed.bind (hP.pushDocument entity document) fun _ => hP.closed.pure count

/-! ### Visits -/

variable [Provider μ] (htranslate : ∀ text, Leads P _ (translateText text))

include htranslate

theorem walkDocument {require : CardId → Migrating ρ μ Unit} (h : ∀ c, Leads P _ (require c))
    (entity : Entity) (document : Json) : Leads P _ (walkDocument require entity document) :=
  walkDocument_of_visit hP.closed (visit_leads hP.refl hP.trans htranslate h entity) document

theorem migrateEntity {require : CardId → Migrating ρ μ Unit} (h : ∀ c, Leads P _ (require c))
    (entity : Entity) : Leads P _ (migrateEntity require entity) :=
  hP.closed.bind (hP.fetchDocument entity) fun document =>
    hP.closed.bind (hP.walkDocument htranslate h entity document) fun document =>
      hP.pushDocument entity document

theorem migrateCardWithin (depth : Nat) (card : CardId) :
    Leads P _ (migrateCardWithin depth card) := by
  induction depth generalizing card with
  | zero => exact hP.once card (hP.throw _)
  | succ depth ih => exact hP.once card (hP.migrateEntity htranslate ih _)

theorem migrateCard (card : CardId) : Leads P _ (migrateCard card) := by
  intro s
  rw [migrateCard_apply]
  exact hP.migrateCardWithin htranslate s.depthLimit card s

end Respected

/-- A relation that holds across all changes of a session, and to which the state of a translator is of no
importance. -/
structure Stable [Remote ρ] (P : Session ρ μ → Session ρ μ → Prop) : Prop extends Respected P where
  translator {t s} : s.translator ≠ none → P s { s with translator := some t }

namespace Stable

variable [Remote ρ] [Provider μ] {P : Session ρ μ → Session ρ μ → Prop} (hP : Stable P)

include hP

theorem translateText (text : String) : Leads P _ (translateText text) :=
  translateText_leads hP.refl hP.translator text

theorem walkDocument {require : CardId → Migrating ρ μ Unit} (h : ∀ c, Leads P _ (require c))
    (entity : Entity) (document : Json) : Leads P _ (walkDocument require entity document) :=
  hP.toRespected.walkDocument hP.translateText h entity document

theorem migrateEntity {require : CardId → Migrating ρ μ Unit} (h : ∀ c, Leads P _ (require c))
    (entity : Entity) : Leads P _ (migrateEntity require entity) :=
  hP.toRespected.migrateEntity hP.translateText h entity

theorem migrateCardWithin (depth : Nat) (card : CardId) : Leads P _ (migrateCardWithin depth card) :=
  hP.toRespected.migrateCardWithin hP.translateText depth card

theorem migrateCard (card : CardId) : Leads P _ (migrateCard card) :=
  hP.toRespected.migrateCard hP.translateText card

theorem migrateDashboard (dashboard : DashboardId) : Leads P _ (migrateDashboard dashboard) :=
  hP.migrateEntity hP.migrateCard _

end Stable

end Migrating

/-! ## What never changes -/

/-- Two states with the same mapping, cards under way and decision whether documents are kept back. -/
structure Session.Steady (s t : Session ρ μ) : Prop where
  mapping : t.mapping = s.mapping
  dryRun : t.dryRun = s.dryRun
  inProgress : t.inProgress = s.inProgress

namespace Session.Steady

theorem trans {s t u : Session ρ μ} (h : s.Steady t) (h' : t.Steady u) : s.Steady u :=
  ⟨h'.mapping.trans h.mapping, h'.dryRun.trans h.dryRun, h'.inProgress.trans h.inProgress⟩

theorem stable [Remote ρ] : Migrating.Stable (Steady (ρ := ρ) (μ := μ)) where
  refl _ := ⟨rfl, rfl, rfl⟩
  trans := trans
  fetch _ _ := ⟨rfl, rfl, rfl⟩
  push _ _ _ := ⟨rfl, rfl, rfl⟩
  translator _ := ⟨rfl, rfl, rfl⟩
  markProduced _ _ _ := ⟨rfl, rfl, rfl⟩
  markMigrated _ _ := ⟨rfl, rfl, rfl⟩
  inside h := ⟨h.mapping, h.dryRun, by rw [Session.leave, h.inProgress]; exact List.dropLast_concat⟩

end Session.Steady

end Rehome
