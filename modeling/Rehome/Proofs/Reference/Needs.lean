import Rehome.Proofs.Data.Assoc
import Rehome.Proofs.Data.Except
import Rehome.Proofs.Place.Nesting
import Rehome.Reference.Place

/-! # Cards that a renaming needs

Whatever comes of a renaming, each card that it needs is one that cards are moved to
(`needsIn_place`). A query part or join needs nothing but where the cards go that it reads from, and a
place of a card outside of its query needs nothing at all. -/

namespace Rehome

/-! ## Needs of plans -/

namespace Plan

variable {α β : Type} {cards : Set CardId}

/-- All cards that a plan needs are in a set. -/
def NeedsIn (cards : Set CardId) (α : Type) (p : Plan α) : Prop := ∀ c ∈ p.needs, c ∈ cards

theorem closed_needsIn (cards : Set CardId) : Closed (NeedsIn cards) where
  pure a c hc := absurd hc List.not_mem_nil
  bind {α β p f} hp hf c hc := by
    cases h : p.outcome with
    | error e =>
      rw [bind_of_error h] at hc
      exact hp c hc
    | ok a =>
      rw [bind_of_ok h] at hc
      exact (List.mem_append.1 hc).elim (hp c) (hf a c)

theorem needsIn_ofExcept (x : Except MigrationError α) : NeedsIn cards α (ofExcept x) :=
  fun _ hc => absurd hc List.not_mem_nil

/-- What is needed after a computation that may fail is needed after it has succeeded. -/
theorem needsIn_ofExcept_bind {x : Except MigrationError α} {f : α → Plan β}
    (h : ∀ a, x = .ok a → NeedsIn cards β (f a)) : NeedsIn cards β (ofExcept x >>= f) := by
  cases x with
  | error e =>
    rw [bind_of_error rfl]
    exact needsIn_ofExcept (.error e)
  | ok a =>
    rw [bind_of_ok rfl]
    exact h a rfl

theorem needsIn_need {c : CardId} (h : c ∈ cards) : NeedsIn cards Unit (need c) := by
  intro c' hc'
  obtain rfl := List.mem_singleton.1 hc'
  exact h

theorem NeedsIn.mono {cards' : Set CardId} {p : Plan α} (h : NeedsIn cards α p) (hcards : cards ⊆ cards') :
    NeedsIn cards' α p :=
  fun c hc => hcards (h c hc)

end Plan

/-- Something moves to one of the ids that things are moved to. -/
theorem Moves.exists_of_find? {kind : IdentKind} {moves : List (Ident kind × Ident kind)}
    {id d : Ident kind} (h : find? moves id = some d) : ∃ p ∈ moves, p.2 = d := by
  rw [find?] at h
  split at h
  · next hd =>
    obtain rfl := Option.some.inj h
    exact ⟨_, Assoc.mem_of_lookup hd, rfl⟩
  · split at h
    · next hany =>
      obtain rfl := Option.some.inj h
      obtain ⟨p, hp, hpc⟩ := List.any_eq_true.1 hany
      exact ⟨p, hp, eq_of_beq hpc⟩
    · cases h

/-- A card moves to one of the destinations. -/
theorem Moves.mem_destinationCards_of_card? {m : Moves} {c d : CardId} (h : m.card? c = some d) :
    d ∈ m.destinationCards := by
  rw [destinationCards, List.mem_eraseDups]
  exact List.mem_map.2 (exists_of_find? h)

/-! ## Sources -/

/-- The card that a source is, if it is a card. -/
def Source.asCard : Source → Option CardId
  | .card c => some c
  | _ => none

/-- The card that a member names as the source of a query part or join. -/
def sourceCard? (e : String × Json) : Option CardId :=
  if e.1 = "source-table" then (Source.ofJson e.2).asCard else none

/-- The cards that a query part or join reads from itself. There is at most one when its keys are
distinct. -/
def sourceCards (p : Json) : List CardId := (Walk.ownMembers p).filterMap sourceCard?

namespace Renaming

variable {r : Renaming} {trail : Trail}

theorem card_eq_ok_iff {c d : CardId} : r.card c = .ok d ↔ r.mapping.moves.card? c = some d := by
  rw [card]
  cases r.mapping.moves.card? c <;> simp

/-- The cards that cards are moved to. -/
def destinations (r : Renaming) : Set CardId := {c | c ∈ r.mapping.moves.destinationCards}

/-- Where some cards go. -/
def destinationsOf (r : Renaming) (cards : List CardId) : Set CardId :=
  {d | ∃ c ∈ cards, r.mapping.moves.card? c = some d}

theorem destinationsOf_subset (cards : List CardId) : r.destinationsOf cards ⊆ r.destinations :=
  fun _ ⟨_, _, hd⟩ => Moves.mem_destinationCards_of_card? hd

theorem needsIn_source (j : Json) :
    Plan.NeedsIn (r.destinationsOf (Source.ofJson j).asCard.toList) Json (r.source j) := by
  rw [source]
  cases h : Source.ofJson j with
  | table t => exact Plan.needsIn_ofExcept_bind fun _ _ => (Plan.closed_needsIn _).pure _
  | unknown text => exact Plan.needsIn_ofExcept _
  | card c =>
    refine Plan.needsIn_ofExcept_bind fun d hd => ?_
    refine (Plan.closed_needsIn _).bind (Plan.needsIn_need ?_) fun _ => (Plan.closed_needsIn _).pure _
    exact ⟨c, List.mem_singleton.2 rfl, card_eq_ok_iff.1 hd⟩

theorem needsIn_neededCardValue (j : Json) : Plan.NeedsIn r.destinations Json (r.neededCardValue j) := by
  refine Plan.needsIn_ofExcept_bind fun d hd => ?_
  refine (Plan.closed_needsIn _).bind (Plan.needsIn_need ?_) fun _ => (Plan.closed_needsIn _).pure _
  obtain ⟨c, -, hc⟩ := Except.bind_eq_ok_iff.1 hd
  exact Moves.mem_destinationCards_of_card? (card_eq_ok_iff.1 hc)

/-! ## Query parts and joins -/

/-- A way to rename members that needs a card for the source alone. -/
structure NeedsForSource (r : Renaming) (f : String → Json → Plan Json) : Prop where
  source : f "source-table" = r.source
  other {key : String} (h : key ≠ "source-table") (j : Json) : ∃ x, f key j = Plan.ofExcept x

theorem needsForSource_queryMember : NeedsForSource r r.queryMember where
  source := rfl
  other {key} h j := by
    rw [queryMember, if_neg h]
    repeat' split
    all_goals exact ⟨_, rfl⟩

theorem needsForSource_joinMember : NeedsForSource r r.joinMember where
  source := rfl
  other {key} h j := by
    rw [joinMember, if_neg h]
    split
    all_goals exact ⟨_, rfl⟩

/-- The members of a query part or join need only where the cards go that it reads from. -/
theorem needsIn_onMembers {f : String → Json → Plan Json} (hf : NeedsForSource r f) (p : Json) :
    Plan.NeedsIn (r.destinationsOf (sourceCards p)) Json (p.onMembers f) := by
  have hclosed := Plan.closed_needsIn (r.destinationsOf (sourceCards p))
  cases p with
  | obj members =>
    refine hclosed.bind (hclosed.mapM_mem fun e he => ?_) fun _ => hclosed.pure _
    refine hclosed.bind ?_ fun _ => hclosed.pure _
    obtain ⟨key, v⟩ := e
    by_cases hkey : key = "source-table"
    · subst hkey
      rw [hf.source]
      refine (needsIn_source v).mono ?_
      rintro d ⟨c, hc, hd⟩
      refine ⟨c, List.mem_filterMap.2 ⟨_, List.mem_filter.2 ⟨he, rfl⟩, ?_⟩, hd⟩
      exact Option.mem_toList.1 hc
    · obtain ⟨x, hx⟩ := hf.other hkey v
      rw [hx]
      exact Plan.needsIn_ofExcept x
  | _ => exact hclosed.pure _

/-- A query part or join needs only where the cards go that it reads from. -/
theorem needsIn_place_query (h : trail.kind? = some .queryPart ∨ trail.kind? = some .join) (p : Json) :
    Plan.NeedsIn (r.destinationsOf (sourceCards p)) Json (r.place trail p) := by
  obtain h | h := h
  · rw [place, h]
    exact needsIn_onMembers needsForSource_queryMember p
  · rw [place, h]
    exact needsIn_onMembers needsForSource_joinMember p

/-! ## Other places -/

/-- A place of a card that is in no dashboard needs nothing outside of the query. -/
theorem needsIn_place_beside (h : Walk.BesideQuery trail) (j : Json) :
    Plan.NeedsIn ∅ Json (r.place trail j) := by
  rw [place]
  cases hkind : trail.kind? with
  | none => exact Plan.needsIn_ofExcept (.ok j)
  | some kind =>
    cases kind with
    | queryPart | join | parameter => exact absurd hkind (h.kind _ (by decide))
    | card =>
      dsimp only
      rw [if_neg (by simp [h.alone])]
      exact Plan.needsIn_ofExcept _
    | _ => exact Plan.needsIn_ofExcept _

/-- All cards that a place needs are ones that cards are moved to. -/
theorem needsIn_place (trail : Trail) (j : Json) :
    Plan.NeedsIn r.destinations Json (r.place trail j) := by
  have hclosed := Plan.closed_needsIn r.destinations
  have hcard (j : Json) : Plan.NeedsIn r.destinations Json
      (j.onMember "card_id" (Json.unlessNull r.neededCardValue)) :=
    hclosed.onMember _ (hclosed.unlessNull needsIn_neededCardValue) j
  have hlifted {f : Json → Except MigrationError Json} (key : String) (j : Json) :
      Plan.NeedsIn r.destinations Json (j.onMember key fun v => (f v : Plan Json)) :=
    hclosed.onMember _ (fun v => Plan.needsIn_ofExcept (f v)) j
  rw [place]
  cases hkind : trail.kind? with
  | none => exact Plan.needsIn_ofExcept (.ok j)
  | some kind =>
    cases kind with
    | queryPart =>
      exact (needsIn_onMembers needsForSource_queryMember j).mono (destinationsOf_subset _)
    | join =>
      exact (needsIn_onMembers needsForSource_joinMember j).mono (destinationsOf_subset _)
    | card =>
      dsimp only
      split
      · exact hclosed.bind (hcard j) fun j => hlifted _ j
      · exact Plan.needsIn_ofExcept _
    | parameter => exact hclosed.onMember _ (fun j => hclosed.bind (hcard j) fun j => hlifted _ j) j
    | _ => exact Plan.needsIn_ofExcept _

end Renaming

end Rehome
