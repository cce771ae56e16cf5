import Rehome.Proofs.Reference.Needs
import Rehome.Proofs.Reference.Results

/-! # Cards that a query reads from

A query reads from the cards that its nested query, its joins and its own source name, in this order at
any depth. When a query is renamed, the cards that are needed for that are exactly where those cards go
(`asks_walkQuery`). -/

namespace Rehome

/-! ## Cards -/

mutual

/-- The cards that a query reads from: its nested query, then its joins, then the query itself. -/
def cardsRead : Json → List CardId
  | .obj members => nestedCardsRead members ++ (joinsCardsRead members ++ sourceCards (.obj members))
  | _ => []

/-- The cards that the nested query in members reads from. -/
def nestedCardsRead : List (String × Json) → List CardId
  | [] => []
  | (key, j) :: rest => if key = "source-query" then cardsRead j else nestedCardsRead rest

/-- The cards that the joins in members read from. -/
def joinsCardsRead : List (String × Json) → List CardId
  | [] => []
  | (key, j) :: rest => if key = "joins" then joinListCardsRead j else joinsCardsRead rest

def joinListCardsRead : Json → List CardId
  | .arr items => joinItemsCardsRead items
  | _ => []

def joinItemsCardsRead : List Json → List CardId
  | [] => []
  | j :: rest => joinCardsRead j ++ joinItemsCardsRead rest

/-- The cards that a join reads from: its nested query, then the join itself. -/
def joinCardsRead : Json → List CardId
  | .obj members => nestedCardsRead members ++ sourceCards (.obj members)
  | _ => []

end

theorem nestedCardsRead_of_lookup {members : List (String × Json)} {q : Json}
    (h : members.lookup "source-query" = some q) : nestedCardsRead members = cardsRead q := by
  induction members with
  | nil => cases h
  | cons e rest ih =>
    obtain ⟨key, j⟩ := e
    rw [Assoc.lookup_cons] at h
    rw [nestedCardsRead]
    by_cases hkey : key = "source-query"
    · rw [if_pos hkey.symm] at h
      rw [if_pos hkey, Option.some.inj h]
    · rw [if_neg (Ne.symm hkey)] at h
      rw [if_neg hkey, ih h]

theorem joinsCardsRead_of_lookup {members : List (String × Json)} {v : Json}
    (h : members.lookup "joins" = some v) : joinsCardsRead members = joinListCardsRead v := by
  induction members with
  | nil => cases h
  | cons e rest ih =>
    obtain ⟨key, j⟩ := e
    rw [Assoc.lookup_cons] at h
    rw [joinsCardsRead]
    by_cases hkey : key = "joins"
    · rw [if_pos hkey.symm] at h
      rw [if_pos hkey, Option.some.inj h]
    · rw [if_neg (Ne.symm hkey)] at h
      rw [if_neg hkey, ih h]

theorem joinCardsRead_subset {items : List Json} {i : Json} (h : i ∈ items) :
    joinCardsRead i ⊆ joinItemsCardsRead items := by
  induction items with
  | nil => cases h
  | cons j items ih =>
    rw [joinItemsCardsRead]
    rcases List.mem_cons.1 h with rfl | h
    · exact List.subset_append_left _ _
    · exact List.Subset.trans (ih h) (List.subset_append_right _ _)

/-- A query or join reads from the cards that any place inside of it reads from. -/
theorem sourceCards_subset {k l : PlaceKind} {j p : Json} (h : Walk.Reaches k j l p) :
    (k = .queryPart → sourceCards p ⊆ cardsRead j) ∧ (k = .join → sourceCards p ⊆ joinCardsRead j) := by
  induction h with
  | refl k j =>
    cases j with
    | obj members =>
      rw [cardsRead, joinCardsRead]
      refine ⟨fun _ c hc => ?_, fun _ c hc => ?_⟩
      · exact List.mem_append_right _ (List.mem_append_right _ hc)
      · exact List.mem_append_right _ hc
    | _ => exact ⟨fun _ => List.nil_subset _, fun _ => List.nil_subset _⟩
  | @nested k l j q p hq _ _ ih =>
    cases j with
    | obj members =>
      rw [cardsRead, joinCardsRead, nestedCardsRead_of_lookup hq]
      have hread := ih.1 rfl
      exact ⟨fun _ c hc => List.mem_append_left _ (hread hc), fun _ c hc => List.mem_append_left _ (hread hc)⟩
    | _ => cases hq
  | @join l j i p items hitems hi _ _ ih =>
    cases j with
    | obj members =>
      refine ⟨fun _ c hc => ?_, fun hk => by cases hk⟩
      rw [cardsRead, joinsCardsRead_of_lookup hitems, joinListCardsRead]
      exact List.mem_append_right _ (List.mem_append_left _ (joinCardsRead_subset hi (ih.2 rfl hc)))
    | _ => cases hitems

/-- The cards that the query of a card reads from. -/
def queriedCards (card : Json) : List CardId := (card.query?.map cardsRead).getD []

/-! ## Plans that ask for cards -/

namespace Plan

variable {α β : Type}

/-- A plan that succeeds needs exactly where these cards go, in order. -/
def Asks (moves : Moves) (cards : List CardId) (α : Type) (p : Plan α) : Prop :=
  ∀ a, p.outcome = .ok a → List.Forall₂ (fun c d => moves.card? c = some d) cards p.needs

variable {moves : Moves} {cards cards' : List CardId} {p : Plan α}

theorem asks_pure (a : α) : Asks moves [] α (pure a) := fun _ _ => .nil

theorem asks_ofExcept (x : Except MigrationError α) : Asks moves [] α (ofExcept x) := fun _ _ => .nil

theorem Asks.bind {f : α → Plan β} (hp : Asks moves cards α p)
    (hf : ∀ a, p.outcome = .ok a → Asks moves cards' β (f a)) :
    Asks moves (cards ++ cards') β (p >>= f) := by
  intro b hb
  cases h : p.outcome with
  | error e =>
    rw [bind_of_error h] at hb
    cases hb
  | ok a =>
    rw [bind_of_ok h] at hb ⊢
    exact List.rel_append (hp a h) (hf a h b hb)

theorem Asks.bind_pure {f : α → β} (hp : Asks moves cards α p) :
    Asks moves cards β (p >>= fun a => pure (f a)) := by
  have hbind := hp.bind (f := fun a => pure (f a)) fun a _ => asks_pure (f a)
  rwa [List.append_nil] at hbind

theorem Asks.map {f : α → β} (hp : Asks moves cards α p) : Asks moves cards β (f <$> p) := by
  rw [map_eq_pure_bind]
  exact hp.bind_pure

end Plan

namespace Renaming

variable {r : Renaming} {trail : Trail}

/-! ## Query parts and joins -/

theorem asks_source (j : Json) :
    Plan.Asks r.mapping.moves (Source.ofJson j).asCard.toList Json (r.source j) := by
  rw [source]
  cases Source.ofJson j with
  | table t => exact (Plan.asks_ofExcept (r.table t)).bind_pure
  | unknown text => exact Plan.asks_ofExcept _
  | card c =>
    refine (Plan.asks_ofExcept (r.card c)).bind fun d hd => ?_
    have hneed : Plan.Asks r.mapping.moves [c] Unit (Plan.need d) :=
      fun _ _ => .cons (card_eq_ok_iff.1 hd) .nil
    exact hneed.bind_pure

theorem asks_member {f : String → Json → Plan Json} (hf : NeedsForSource r f) (e : String × Json) :
    Plan.Asks r.mapping.moves (sourceCard? e).toList Json (f e.1 e.2) := by
  obtain ⟨key, v⟩ := e
  rw [sourceCard?]
  split
  · next hkey =>
    rw [show key = "source-table" from hkey, hf.source]
    exact asks_source v
  · next hkey =>
    obtain ⟨x, hx⟩ := hf.other hkey v
    rw [hx]
    exact Plan.asks_ofExcept x

/-- Only members that are no places of their own name a source. -/
theorem sourceCards_obj (members : List (String × Json)) :
    sourceCards (.obj members) = members.filterMap sourceCard? := by
  rw [sourceCards, Walk.ownMembers, List.filterMap_filter]
  refine List.filterMap_congr fun e _ => ?_
  split
  · rfl
  · next hinner =>
    rw [sourceCard?, if_neg]
    rintro hkey
    simp [hkey] at hinner

theorem asks_onMembers {f : String → Json → Plan Json} (hf : NeedsForSource r f) (p : Json) : Plan.Asks r.mapping.moves (sourceCards p) Json (p.onMembers f) := by
  cases p with
  | obj members =>
    rw [sourceCards_obj, List.filterMap_eq_flatMap_toList]
    refine Plan.Asks.bind_pure ?_
    induction members with
    | nil => exact Plan.asks_pure _
    | cons e members ih =>
      rw [List.mapM_cons, List.flatMap_cons]
      exact (asks_member hf e).bind_pure.bind fun _ _ => ih.bind_pure
  | _ => exact Plan.asks_pure _

/-- A query part or join asks for the cards that it reads from, whatever has become of the places inside
of it. -/
theorem asks_place (h : trail.kind? = some .queryPart ∨ trail.kind? = some .join) {j p : Json}
    (hj : Walk.ownMembers j = Walk.ownMembers p) :
    Plan.Asks r.mapping.moves (sourceCards p) Json (r.place trail j) := by
  rw [sourceCards, ← hj, ← sourceCards]
  obtain h | h := h
  · rw [place, h]
    exact asks_onMembers needsForSource_queryMember j
  · rw [place, h]
    exact asks_onMembers needsForSource_joinMember j

/-! ## Queries -/

mutual

theorem asks_walkQuery (trail : Trail) : (q : Json) →
    Plan.Asks r.mapping.moves (cardsRead q) Json (Walk.query r.place trail q)
  | .obj members => by
    rw [Walk.query, cardsRead]
    refine (asks_walkNested _ members).bind fun nested _ => (asks_walkJoins _ members).bind fun joins _ => ?_
    refine asks_place (.inl rfl) ?_
    rw [Walk.ownMembers_putBack (.inr rfl), Walk.ownMembers_putBack (.inl rfl)]
  | .null | .bool _ | .int _ | .double _ | .str _ | .arr _ => by
    simp only [Walk.query, cardsRead]
    exact Plan.asks_pure _

theorem asks_walkNested (trail : Trail) : (members : List (String × Json)) →
    Plan.Asks r.mapping.moves (nestedCardsRead members) _ (Walk.nestedQuery r.place trail members)
  | [] => by
    rw [Walk.nestedQuery]
    exact Plan.asks_pure _
  | (key, j) :: rest => by
    rw [Walk.nestedQuery, nestedCardsRead]
    split
    · split
      · exact (asks_walkQuery trail j).map
      · next hobj =>
        cases j with
        | obj members => exact absurd rfl hobj
        | _ =>
          simp only [cardsRead]
          exact Plan.asks_pure _
    · exact asks_walkNested trail rest

theorem asks_walkJoins (trail : Trail) : (members : List (String × Json)) →
    Plan.Asks r.mapping.moves (joinsCardsRead members) _ (Walk.joinsOf r.place trail members)
  | [] => by
    rw [Walk.joinsOf]
    exact Plan.asks_pure _
  | (key, j) :: rest => by
    rw [Walk.joinsOf, joinsCardsRead]
    split
    · exact asks_walkJoinList trail j
    · exact asks_walkJoins trail rest

theorem asks_walkJoinList (trail : Trail) : (j : Json) →
    Plan.Asks r.mapping.moves (joinListCardsRead j) _ (Walk.joinList r.place trail j)
  | .arr items => by
    rw [Walk.joinList, joinListCardsRead]
    exact (asks_walkJoinItems trail items).map
  | .null | .bool _ | .int _ | .double _ | .str _ | .obj _ => by
    simp only [Walk.joinList, joinListCardsRead]
    exact Plan.asks_pure _

theorem asks_walkJoinItems (trail : Trail) : (items : List Json) →
    Plan.Asks r.mapping.moves (joinItemsCardsRead items) _ (Walk.joins r.place trail items)
  | [] => by
    rw [Walk.joins]
    exact Plan.asks_pure _
  | j :: rest => by
    rw [Walk.joins, joinItemsCardsRead]
    exact (asks_walkJoin trail j).bind fun _ _ => (asks_walkJoinItems trail rest).bind_pure

theorem asks_walkJoin (trail : Trail) : (j : Json) →
    Plan.Asks r.mapping.moves (joinCardsRead j) Json (Walk.join r.place trail j)
  | .obj members => by
    rw [Walk.join, joinCardsRead]
    refine (asks_walkNested _ members).bind fun nested _ => ?_
    refine asks_place (.inr rfl) ?_
    rw [Walk.ownMembers_putBack (.inl rfl)]
  | .null | .bool _ | .int _ | .double _ | .str _ | .arr _ => by
    simp only [Walk.join, joinCardsRead]
    exact Plan.asks_pure _

end

/-! ## Cards -/

theorem asks_onMember {key : String} {f : Json → Plan Json} {j : Json} {cards : List CardId}
    (h : ∀ v, j.member? key = some v → Plan.Asks r.mapping.moves cards Json (f v))
    (hnone : j.member? key = none → cards = []) :
    Plan.Asks r.mapping.moves cards Json (j.onMember key f) := by
  cases j with
  | obj members =>
    rw [Json.onMember]
    split
    · next v hv => exact (h v hv).bind_pure
    · next hv =>
      rw [hnone hv]
      exact Plan.asks_pure _
  | _ =>
    rw [hnone rfl]
    exact Plan.asks_pure _

theorem asks_of_needsIn_empty {α : Type} {p : Plan α} (h : Plan.NeedsIn ∅ α p) :
    Plan.Asks r.mapping.moves [] α p := by
  intro a _
  rw [List.eq_nil_iff_forall_not_mem.2 fun c hc => h c hc]
  exact .nil

/-- A card asks for the cards that its query reads from, and for no others. -/
theorem asks_walkCard (htrail : trail.hasKind .dashboard = false) (j : Json) :
    Plan.Asks r.mapping.moves (queriedCards j) Json (Walk.card r.place trail j) := by
  have hclosed := Plan.closed_needsIn ∅
  have hcard {title : Option String} : (trail.push .card title).hasKind .dashboard = false := htrail
  rw [Walk.card, ← List.nil_append (queriedCards j)]
  refine Plan.Asks.bind (asks_of_needsIn_empty ?_) fun a ha => ?_
  · refine hclosed.onMember _ (fun v => ?_) j
    cases v with
    | obj members => exact hclosed.settings_reached (fun _ j h => needsIn_place_beside h j) hcard _
    | _ => exact hclosed.pure _
  have hquery : a.query? = j.query? := by
    rw [Plan.compatible_outcome.onMember _ (fun _ => rfl)] at ha
    rw [Json.query?, Json.query?, Json.keeps_onMember (by decide) j a ha]
  rw [← List.append_nil (queriedCards j)]
  refine Plan.Asks.bind ?_ fun b _ => asks_of_needsIn_empty ?_
  · rw [queriedCards, ← hquery, Json.query?]
    refine asks_onMember (fun d hd => ?_) fun hd => by rw [hd]; rfl
    rw [hd, Option.bind_some]
    refine asks_onMember (fun q hq => ?_) fun hq => by rw [hq]; rfl
    rw [hq]
    cases q with
    | obj members => exact asks_walkQuery _ _
    | _ => exact Plan.asks_pure _
  · have hbeside : Walk.BesideQuery (trail.push .card (Walk.cardTitle j)) := .push htrail (by decide)
    have hmapping : Walk.BesideQuery ((trail.push .card (Walk.cardTitle j)).push .parameterMapping none) :=
      .push hcard (by decide)
    refine hclosed.bind (hclosed.onMember _ (hclosed.onItems fun i => ?_) b)
      (needsIn_place_beside hbeside)
    cases i with
    | obj members => exact needsIn_place_beside hmapping _
    | _ => exact hclosed.pure _

/-- When a card can be renamed, what is needed for that is where the cards go that its query reads from. -/
theorem mem_needs_walkCard (htrail : trail.hasKind .dashboard = false) {j renamed : Json}
    (h : (Walk.card r.place trail j).outcome = .ok renamed) (d : CardId) :
    d ∈ (Walk.card r.place trail j).needs ↔ d ∈ r.destinationsOf (queriedCards j) := by
  have hneeds := asks_walkCard htrail j renamed h
  constructor
  · intro hd
    exact Json.exists_of_forall₂ hneeds hd
  · rintro ⟨c, hc, hmoves⟩
    obtain ⟨d', hd', hmoves'⟩ := Json.exists_of_forall₂ hneeds.flip hc
    obtain rfl : d = d' := Option.some.inj (hmoves.symm.trans hmoves')
    exact hd'

end Renaming

end Rehome
