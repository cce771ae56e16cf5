import Mathlib.Data.Finset.Card
import Rehome.Proofs.Migration.Steps
import Rehome.Proofs.Reference.Needs

/-! # How deep migrations are nested

The document of a card requires other cards, so the migration of a card recurs into whatever the
installation answers. It ends all the same: a card that is required is one that cards are moved to, and
it is refused when it is under way already. Each migration that is started inside of another therefore
takes one away from the destinations that are not under way, and what would be done inside of more
migrations than there are destinations, and one, is of no matter (`migrateCardNested_eq`). So the recursion
has one solution only (`solves_iff_eq_migrateCard`). -/

namespace Rehome

variable {ρ μ : Type} {α β : Type}

namespace Migrating

/-! ## Computations that do the same -/

/-- Two computations do the same in every session with this mapping and these cards under way, and lead to a
state that is related to it. -/
def Alike (P : Session ρ μ → Session ρ μ → Prop) (mapping : Mapping) (chain : List CardId) (α : Type)
    (x y : Migrating ρ μ α) : Prop :=
  ∀ s, s.mapping = mapping → s.inProgress = chain → x s = y s ∧ P s (x s).2

section Alike

variable [Remote ρ] {P : Session ρ μ → Session ρ μ → Prop} (hP : Stable P)
  (hsteady : ∀ {s t}, P s t → s.Steady t) {mapping : Mapping} {chain : List CardId}

omit [Remote ρ] in
theorem alike_of_leads {x : Migrating ρ μ α} (h : Leads P α x) : Alike P mapping chain α x x :=
  fun s _ _ => ⟨rfl, h s⟩

include hP hsteady

theorem compatible_alike (mapping : Mapping) (chain : List CardId) : Compatible (Alike P mapping chain) where
  pure a s _ _ := ⟨rfl, hP.refl s⟩
  bind {α β x y f g} hxy hfg s hm hc := by
    obtain ⟨heq, hrel⟩ := hxy s hm hc
    rw [bind_apply, bind_apply, ← heq]
    rcases h : x s with ⟨e | a, t⟩ <;> rw [h] at hrel
    · exact ⟨rfl, hrel⟩
    · obtain ⟨heq', hrel'⟩ := hfg a t ((hsteady hrel).mapping.trans hm) ((hsteady hrel).inProgress.trans hc)
      exact ⟨heq', hP.trans hrel hrel'⟩

/-- Plans are carried out in the same way by two ways to require cards that do the same about every card
that they may need. -/
theorem carryOut_alike {f g : CardId → Migrating ρ μ Unit} {cards : Set CardId}
    (h : ∀ c ∈ cards, Alike P mapping chain Unit (f c) (g c)) {plan : Plan α}
    (hplan : Plan.NeedsIn cards α plan) : Alike P mapping chain α (carryOut f plan) (carryOut g plan) :=
  carryOut_related_mem (compatible_alike hP hsteady mapping chain) (fun c hc => h c (hplan c hc))
    fun _ _ s _ _ => ⟨rfl, hP.refl s⟩

section Entities

variable [Provider μ] {f g : CardId → Migrating ρ μ Unit}
  (h : ∀ c ∈ mapping.moves.destinationCards, Alike P mapping chain Unit (f c) (g c))

include h

theorem visit_alike (owner : Entity) (trail : Trail) (j : Json) :
    Alike P mapping chain Json (visit f owner trail j) (visit g owner trail j) := by
  have htranslate (text : String) : Alike P mapping chain String (translateText text) (translateText text) :=
    alike_of_leads (hP.translateText text)
  intro s hm hc
  rw [visit_apply, visit_apply]
  split
  · exact ⟨rfl, hP.refl s⟩
  · rw [hm]
    have hplan : Plan.NeedsIn {c | c ∈ mapping.moves.destinationCards} Json
        (Renaming.place ⟨mapping, owner⟩ trail j) := Renaming.needsIn_place trail j
    have hcompatible := compatible_alike hP hsteady mapping chain
    exact hcompatible.bind (carryOut_alike hP hsteady h hplan) (hcompatible.mapSlots htranslate trail) s hm hc

theorem migrateEntity_alike (entity : Entity) :
    Alike P mapping chain Unit (migrateEntity f entity) (migrateEntity g entity) := by
  have hcompatible := compatible_alike hP hsteady mapping chain
  refine hcompatible.bind (alike_of_leads (hP.fetchDocument entity)) fun d => ?_
  refine hcompatible.bind (walkDocument_related hcompatible (visit_alike hP hsteady h entity) d) fun d' => ?_
  exact alike_of_leads (hP.pushDocument entity d')

end Entities

omit hsteady in
/-- A card that is under way is not migrated, whatever its migration would be. -/
theorem once_of_mem {card : CardId} (hcard : card ∈ chain) (x y : Migrating ρ μ Unit) :
    Alike P mapping chain Unit (once card x) (once card y) := by
  rintro s - rfl
  have hunder : s.inProgress.contains card := by simpa using hcard
  rw [once_apply, once_apply, if_pos hunder, if_pos hunder]
  refine ⟨rfl, ?_⟩
  split <;> exact hP.refl s

theorem once_alike {card : CardId} {x y : Migrating ρ μ Unit}
    (h : card ∉ chain → Alike P mapping (chain ++ [card]) Unit x y) :
    Alike P mapping chain Unit (once card x) (once card y) := by
  by_cases hcard : card ∈ chain
  · exact once_of_mem hP hcard x y
  have hduring : Alike P mapping chain Unit (during card x) (during card y) := by
    intro s hm hc
    obtain ⟨heq, hrel⟩ := h hcard (s.enter card) hm (by rw [s.inProgress_enter, hc])
    exact ⟨by simp only [during, heq], hP.inside hrel⟩
  intro s hm hc
  rw [once_apply, once_apply]
  split
  · exact ⟨rfl, hP.refl s⟩
  split
  · exact ⟨rfl, hP.refl s⟩
  · refine (compatible_alike hP hsteady mapping chain).bind hduring (fun _ => ?_) s hm hc
    exact alike_of_leads fun t => hP.markMigrated card t

/-- One step of the recursion: a card is migrated in the same way if the cards that are moved to are, with this
card added to those under way. -/
theorem migration_alike [Provider μ] {f g : CardId → Migrating ρ μ Unit} {card : CardId}
    (h : card ∉ chain → ∀ c ∈ mapping.moves.destinationCards, Alike P mapping (chain ++ [card]) Unit (f c) (g c)) :
    Alike P mapping chain Unit (once card (migrateEntity f (.card card))) (once card (migrateEntity g (.card card))) :=
  once_alike hP hsteady fun hnew => migrateEntity_alike hP hsteady (h hnew) (.card card)

end Alike

variable {mapping : Mapping} {chain : List CardId}

/-! ## Destinations that are not under way -/

/-- The cards that are moved to and are not under way. -/
def remaining (mapping : Mapping) (chain : List CardId) : Finset CardId :=
  mapping.moves.destinationCards.toFinset \ chain.toFinset

theorem card_remaining_le (mapping : Mapping) (chain : List CardId) :
    (remaining mapping chain).card ≤ mapping.moves.destinationCards.length :=
  (Finset.card_le_card Finset.sdiff_subset).trans (List.toFinset_card_le _)

theorem card_remaining_append {card : CardId} (hcard : card ∈ mapping.moves.destinationCards)
    (hnew : card ∉ chain) : (remaining mapping (chain ++ [card])).card < (remaining mapping chain).card := by
  refine Finset.card_lt_card (Finset.ssubset_iff_of_subset (fun c hc => ?_) |>.2 ⟨card, ?_, ?_⟩)
  · simp only [remaining, Finset.mem_sdiff, List.mem_toFinset, List.mem_append] at hc ⊢
    exact ⟨hc.1, fun hmem => hc.2 (.inl hmem)⟩
  · simp [remaining, hcard, hnew]
  · simp [remaining]

/-- Induction along nested migrations: what holds of a card under a chain as soon as it holds of the
cards that are moved to under the chain with this card added, unless it is in the chain already. -/
theorem nested_induction (mapping : Mapping) {P : List CardId → CardId → Prop}
    (step : ∀ chain card, (card ∉ chain →
      ∀ c ∈ mapping.moves.destinationCards, P (chain ++ [card]) c) → P chain card)
    (chain : List CardId) (card : CardId) : P chain card := by
  have hmoved : ∀ n chain card, card ∈ mapping.moves.destinationCards →
      (remaining mapping chain).card ≤ n → P chain card := by
    intro n
    induction n with
    | zero =>
      intro chain card hcard hn
      refine step chain card fun hnew => ?_
      have := card_remaining_append hcard hnew
      omega
    | succ n ih =>
      intro chain card hcard hn
      refine step chain card fun hnew c hc => ih _ c hc ?_
      have := card_remaining_append hcard hnew
      omega
  exact step chain card fun _ c hc => hmoved _ _ c hc le_rfl

/-! ## Nested migrations -/

section Nested

variable [Remote ρ] [Provider μ]

/-- Migrates a card as usual, but only inside of `depth` migrations: where one more would be started
inside of these, something else is done in its place. So up to `depth + 1` calls are nested, the innermost of
which can still be skipped or refused as usual. -/
def migrateCardNested (beyond : CardId → Migrating ρ μ Unit) : Nat → CardId → Migrating ρ μ Unit
  | 0, card => once card (beyond card)
  | depth + 1, card => once card (migrateEntity (migrateCardNested beyond depth) (.card card))

theorem migrateCardWithin_eq (depth : Nat) (card : CardId) :
    migrateCardWithin (ρ := ρ) (μ := μ) depth card =
      migrateCardNested (fun c => throw (.nestedTooDeep c)) depth card := by
  induction depth generalizing card with
  | zero => rfl
  | succ depth ih => rw [migrateCardWithin, migrateCardNested, funext ih]

/-- Destinations are migrated in the same way wherever the depth suffices for those not under way. -/
theorem nested_alike (f g : CardId → Migrating ρ μ Unit) {card : CardId}
    (hcard : card ∈ mapping.moves.destinationCards) {m n : Nat}
    (hm : (remaining mapping chain).card ≤ m) (hn : (remaining mapping chain).card ≤ n) :
    Alike Session.Steady mapping chain Unit (migrateCardNested f m card) (migrateCardNested g n card) := by
  induction m generalizing n chain card with
  | zero =>
    have hunder : card ∈ chain := by
      by_contra hnew
      have := card_remaining_append hcard hnew
      omega
    cases n <;> exact once_of_mem Session.Steady.stable hunder _ _
  | succ m ih =>
    by_cases hunder : card ∈ chain
    · cases n <;> exact once_of_mem Session.Steady.stable hunder _ _
    have hless := card_remaining_append hcard hunder
    obtain ⟨n, rfl⟩ : ∃ k, n = k + 1 := ⟨n - 1, by omega⟩
    refine migration_alike Session.Steady.stable id fun _ c hc => ?_
    exact ih hc (by omega) (by omega)

/-- A required card is migrated with one level less than any other. -/
theorem migrateCard_alike_of_mem (f : CardId → Migrating ρ μ Unit) {card : CardId}
    (hcard : card ∈ mapping.moves.destinationCards) {n : Nat}
    (hn : mapping.moves.destinationCards.length ≤ n) :
    Alike Session.Steady mapping chain Unit (migrateCard card) (migrateCardNested f n card) := by
  intro s hs hc
  have hle := card_remaining_le mapping chain
  rw [migrateCard_apply, migrateCardWithin_eq]
  exact nested_alike _ f hcard (by rw [Session.depthLimit, hs]; omega) (by omega) s hs hc

/-- The migration of a card recurs without any bound on its depth. -/
theorem migrateCard_eq (card : CardId) :
    migrateCard (ρ := ρ) (μ := μ) card = once card (migrateEntity migrateCard (.card card)) := by
  funext s
  rw [migrateCard_apply, migrateCardWithin_eq]
  refine (migration_alike Session.Steady.stable id (fun _ c hc t ht ht' => ?_) s rfl rfl).1
  obtain ⟨heq, hsteady⟩ := migrateCard_alike_of_mem (fun c => throw (.nestedTooDeep c)) hc le_rfl t ht ht'
  exact ⟨heq.symm, heq ▸ hsteady⟩

end Nested

end Migrating

end Rehome
