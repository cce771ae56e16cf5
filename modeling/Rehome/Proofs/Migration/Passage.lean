import Rehome.Proofs.Migration.History

/-! # Runs that migrate no card under way

No part of a migration adds a card under way to the migrated ones (`Session.Passage`), and what it does about
other entities can be told from what was asked of the installation and from what is remembered
(`Session.Kept`). Both are known of each single request. -/

namespace Rehome

variable {ρ μ : Type}

namespace Session

/-- Between two states no document was offered for an entity, and the one that is remembered is the same. -/
structure Kept (s t : Session (Recorded ρ) μ) (news : List Exchange) (entity : Entity) : Prop where
  offered : ∀ purpose document answer, .push purpose entity document answer ∉ news
  produced : t.produced? entity = s.produced? entity

/-- What the installation was asked between two states, in the course of a run that migrates no card under
way. -/
structure Passage (s t : Session (Recorded ρ) μ) (news : List Exchange) : Prop where
  log : t.remote.log = s.remote.log ++ news
  steady : s.Steady t
  migrated : s.migrated ⊆ t.migrated
  spares : ∀ card ∈ s.inProgress, card ∉ s.migrated → card ∉ t.migrated

variable {s t u : Session (Recorded ρ) μ} {news news' : List Exchange} {entity : Entity}

theorem Kept.refl (s : Session (Recorded ρ) μ) (entity : Entity) : s.Kept s [] entity :=
  ⟨fun _ _ _ => List.not_mem_nil, rfl⟩

theorem Kept.trans (h : s.Kept t news entity) (h' : t.Kept u news' entity) :
    s.Kept u (news ++ news') entity where
  offered purpose document answer hmem := by
    rcases List.mem_append.1 hmem with hmem | hmem
    · exact h.offered purpose document answer hmem
    · exact h'.offered purpose document answer hmem
  produced := h'.produced.trans h.produced

/-- A run that migrates no card at all. -/
theorem Passage.of_migrated_eq (hlog : t.remote.log = s.remote.log ++ news) (hsteady : s.Steady t)
    (hmigrated : t.migrated = s.migrated) : s.Passage t news where
  log := hlog
  steady := hsteady
  migrated := hmigrated ▸ List.Subset.refl _
  spares card _ hnew := by rwa [hmigrated]

theorem Passage.refl (s : Session (Recorded ρ) μ) : s.Passage s [] :=
  .of_migrated_eq (List.append_nil _).symm ⟨rfl, rfl, rfl⟩ rfl

theorem Passage.trans (h : s.Passage t news) (h' : t.Passage u news') : s.Passage u (news ++ news') where
  log := by rw [h'.log, h.log, List.append_assoc]
  steady := h.steady.trans h'.steady
  migrated := List.Subset.trans h.migrated h'.migrated
  spares card hcard hnew := by
    apply h'.spares card
    · rwa [h.steady.inProgress]
    · exact h.spares card hcard hnew

/-- The passage of a run with one more card under way. -/
theorem Passage.outside {card : CardId} (h : Passage (s.enter card) t news) :
    s.Passage { t with inProgress := s.inProgress } news where
  log := h.log
  steady := ⟨h.steady.mapping, h.steady.dryRun, rfl⟩
  migrated := h.migrated
  spares c hc := h.spares c (List.mem_append_left _ hc)

/-- The card that was under way is migrated at last. -/
theorem Passage.marked {card : CardId} (h : s.Passage t news) (hunder : card ∉ s.inProgress) :
    s.Passage (t.markMigrated card) news where
  log := h.log
  steady := ⟨h.steady.mapping, h.steady.dryRun, h.steady.inProgress⟩
  migrated c hc := mem_insertSorted.2 (.inr (h.migrated hc))
  spares c hc hnew hmigrated := by
    rcases mem_insertSorted.1 hmigrated with rfl | hmigrated
    · exact hunder hc
    · exact h.spares c hc hnew hmigrated

end Session

namespace Migrating

open Session

/-! ## Single requests -/

theorem translateText_passage [Provider μ] (text : String) (s : Session (Recorded ρ) μ) :
    s.Passage (translateText text s).2 [] ∧ ∀ a, s.Kept (translateText text s).2 [] a := by
  rw [translateText]
  split
  · exact ⟨.refl s, .refl s⟩
  · constructor
    · exact .of_migrated_eq (List.append_nil _).symm ⟨rfl, rfl, rfl⟩ rfl
    · exact fun a => ⟨fun _ _ _ => List.not_mem_nil, rfl⟩

variable [Remote ρ]

theorem fetchDocument_passage (entity : Entity) (s : Session (Recorded ρ) μ) :
    ∃ answer, s.Passage (fetchDocument entity s).2 [.fetch s.remote.purpose entity answer] ∧
      ∀ a, s.Kept (fetchDocument entity s).2 [.fetch s.remote.purpose entity answer] a := by
  obtain ⟨remote, answer, hstate⟩ := fetchDocument_state entity s
  rw [hstate]
  refine ⟨answer, .of_migrated_eq rfl ⟨rfl, rfl, rfl⟩ rfl, fun a => ⟨?_, rfl⟩⟩
  intro purpose document answer' h
  cases List.mem_singleton.1 h

theorem fetchDocument_passage_of_ok {entity : Entity} {document : Json} {s t : Session (Recorded ρ) μ}
    (h : fetchDocument entity s = (.ok document, t)) :
    s.Passage t [.fetch s.remote.purpose entity (.ok document)] ∧
      ∀ a, s.Kept t [.fetch s.remote.purpose entity (.ok document)] a := by
  obtain ⟨answer, hpassage, hkept⟩ := fetchDocument_passage entity s
  obtain ⟨remote, rfl⟩ := fetchDocument_of_ok h
  rw [h] at hpassage hkept
  obtain rfl : answer = .ok document :=
    (Exchange.fetch.inj (List.singleton_inj.1 (List.append_cancel_left hpassage.log))).2.2.symm
  exact ⟨hpassage, hkept⟩

/-- Only the entity itself is offered. -/
theorem push_passage (entity : Entity) (document : Json) (s : Session (Recorded ρ) μ) :
    ∃ news, s.Passage (push entity document s).2 news ∧
      ∀ a ≠ entity, s.Kept (push entity document s).2 news a := by
  have hproduced (t : Session (Recorded ρ) μ) {a : Entity} (ha : a ≠ entity) :
      (t.markProduced entity document).produced? a = t.produced? a :=
    Assoc.lookup_put_of_ne ha document t.produced
  have hoffered {answer : Except RemoteError Nat} {a : Entity} (ha : a ≠ entity) (purpose : Purpose)
      (d : Json) (answer' : Except RemoteError Nat) :
      Exchange.push purpose a d answer' ∉ [.push s.remote.purpose entity document answer] := by
    intro h
    exact ha (Exchange.push.inj (List.mem_singleton.1 h)).2.1
  by_cases hdry : s.dryRun
  · rw [push_apply, if_pos hdry]
    refine ⟨[], .of_migrated_eq (List.append_nil _).symm ⟨rfl, rfl, rfl⟩ rfl, fun a ha => ?_⟩
    exact ⟨fun _ _ _ => List.not_mem_nil, hproduced s ha⟩
  obtain ⟨remote, hpush⟩ | ⟨e, remote, answer, -, hpush⟩ := push_cases entity document (by simpa using hdry)
  · rw [hpush]
    refine ⟨_, .of_migrated_eq rfl ⟨rfl, rfl, rfl⟩ rfl, fun a ha => ⟨hoffered ha, ?_⟩⟩
    exact hproduced _ ha
  · rw [hpush]
    exact ⟨_, .of_migrated_eq rfl ⟨rfl, rfl, rfl⟩ rfl, fun a ha => ⟨hoffered ha, rfl⟩⟩

end Migrating

end Rehome
