import Rehome.Proofs.Place.Reach

/-! # Walks of a given document

A visit of a query part or join is given what the visits inside of it have left there, and everything
else as the document has it. So two walks of a query are related as soon as the visits of its own query
parts and joins are, whatever has become of the places inside of these (`query_reached`). The same holds
of a card, whose query is still the one of the document when it is walked (`card_reached`). -/

namespace Rehome

/-- Giving a value to a key that is filtered out. -/
theorem Assoc.filter_put {κ ν : Type} [DecidableEq κ] {p : κ → Bool} {key : κ} (h : p key = false)
    (value : ν) (entries : List (κ × ν)) :
    (put key value entries).filter (fun e => p e.1) = entries.filter fun e => p e.1 := by
  induction entries with
  | nil => simp [put, h]
  | cons e rest ih =>
    obtain ⟨k, v⟩ := e
    rw [put]
    split
    · next hk =>
      subst hk
      simp [h]
    · rw [List.filter_cons, List.filter_cons, ih]

theorem Trail.hasKind_push (kind kind' : PlaceKind) (title : Option String) (trail : Trail) :
    (trail.push kind title).hasKind kind' = (kind == kind' || trail.hasKind kind') := rfl

namespace Walk

/-- The members of a query part or join that are no places of their own. -/
def ownMembers : Json → List (String × Json)
  | .obj members => members.filter fun e => e.1 != "source-query" && e.1 != "joins"
  | _ => []

theorem ownMembers_putBack {key : String} (h : key = "source-query" ∨ key = "joins")
    (value : Option Json) (members : List (String × Json)) :
    ownMembers (.obj (putBack key value members)) = ownMembers (.obj members) := by
  cases value with
  | none => rfl
  | some j =>
    refine Assoc.filter_put (p := fun k => k != "source-query" && k != "joins") ?_ j members
    rcases h with rfl | rfl <;> rfl

/-- A place of a card that is in no dashboard, outside of its query. -/
structure BesideQuery (trail : Trail) : Prop where
  alone : trail.hasKind .dashboard = false
  kind : ∀ kind ∈ [PlaceKind.queryPart, .join, .parameter, .dashboard], trail.kind? ≠ some kind

theorem BesideQuery.push {trail : Trail} {kind : PlaceKind} {title : Option String}
    (h : trail.hasKind .dashboard = false)
    (hkind : kind ∉ [PlaceKind.queryPart, .join, .parameter, .dashboard]) :
    BesideQuery (trail.push kind title) where
  alone := by
    have hne : kind ≠ .dashboard := fun heq => hkind (by simp [heq])
    simp [Trail.hasKind_push, h, hne]
  kind kind' hmem heq := by
    obtain rfl : kind = kind' := Option.some.inj heq
    exact hkind hmem

end Walk

variable {m n : Type → Type} [Monad m] [Monad n] [LawfulMonad m] [LawfulMonad n]

namespace Compatible

variable {R : (α : Type) → m α → n α → Prop} (hR : Compatible R)

include hR

/-- What follows the change of one member finds all others as they were. -/
theorem onMember_bind {α : Type} {f : Json → m Json} {g : Json → n Json} {f' : Json → m α}
    {g' : Json → n α} {j : Json} (key : String) (h : ∀ v, j.member? key = some v → R _ (f v) (g v))
    (hrest : ∀ j' : Json, (∀ k, k ≠ key → j'.member? k = j.member? k) → R _ (f' j') (g' j')) :
    R _ (j.onMember key f >>= f') (j.onMember key g >>= g') := by
  cases j with
  | obj members =>
    rw [Json.onMember, Json.onMember]
    split
    · next v hv =>
      rw [bind_assoc, bind_assoc]
      refine hR.bind (h v hv) fun v' => ?_
      rw [pure_bind, pure_bind]
      exact hrest _ fun k hk => Assoc.lookup_put_of_ne hk v' members
    · rw [pure_bind, pure_bind]
      exact hrest _ fun k _ => rfl
  | _ =>
    simp only [Json.onMember, pure_bind]
    exact hrest _ fun k _ => rfl

variable {f : Trail → Json → m Json} {g : Trail → Json → n Json}

/-! ## Queries -/

omit hR [LawfulMonad m] [LawfulMonad n] in
/-- The visits of a query part or join are related, whatever has become of the places inside of it. -/
def VisitsOf (R : (α : Type) → m α → n α → Prop) (f : Trail → Json → m Json)
    (g : Trail → Json → n Json) (k : PlaceKind) (p : Json) : Prop :=
  ∀ trail j, trail.kind? = some k → Walk.ownMembers j = Walk.ownMembers p → R _ (f trail j) (g trail j)

omit hR [LawfulMonad m] [LawfulMonad n] in
mutual

theorem query_reached [LawfulMonad m] [LawfulMonad n] (hR : Compatible R) (trail : Trail) : (j : Json) →
    (∀ k p, Walk.Reaches .queryPart j k p → VisitsOf R f g k p) →
    R _ (Walk.query f trail j) (Walk.query g trail j)
  | .obj members, h => by
    rw [Walk.query, Walk.query]
    refine hR.bind (nestedQuery_reached hR _ members fun q hq hobj k p hp => h k p (.nested hq hobj hp))
      fun nested => ?_
    refine hR.bind (joinsOf_reached hR _ members fun items hitems i hi hobj k p hp =>
      h k p (.join hitems hi hobj hp)) fun joins => ?_
    refine h _ _ (.refl _ _) _ _ rfl ?_
    rw [Walk.ownMembers_putBack (.inr rfl), Walk.ownMembers_putBack (.inl rfl)]
  | .null, _ | .bool _, _ | .int _, _ | .double _, _ | .str _, _ | .arr _, _ => by
    simpa only [Walk.query] using hR.pure _

theorem nestedQuery_reached [LawfulMonad m] [LawfulMonad n] (hR : Compatible R) (trail : Trail) :
    (members : List (String × Json)) →
    (∀ q, members.lookup "source-query" = some q → q.isObj →
      ∀ k p, Walk.Reaches .queryPart q k p → VisitsOf R f g k p) →
    R _ (Walk.nestedQuery f trail members) (Walk.nestedQuery g trail members)
  | [], _ => by simpa only [Walk.nestedQuery] using hR.pure _
  | (key, j) :: rest, h => by
    rw [Walk.nestedQuery, Walk.nestedQuery]
    by_cases hkey : key = "source-query"
    · rw [if_pos hkey, if_pos hkey]
      split
      · next hobj =>
        refine hR.map (query_reached hR trail j (h j ?_ hobj)) some
        rw [Assoc.lookup_cons, if_pos hkey.symm]
      · exact hR.pure _
    · rw [if_neg hkey, if_neg hkey]
      refine nestedQuery_reached hR trail rest fun q hq => h q ?_
      rwa [Assoc.lookup_cons, if_neg (Ne.symm hkey)]

theorem joinsOf_reached [LawfulMonad m] [LawfulMonad n] (hR : Compatible R) (trail : Trail) :
    (members : List (String × Json)) →
    (∀ items, members.lookup "joins" = some (.arr items) → ∀ i ∈ items, i.isObj →
      ∀ k p, Walk.Reaches .join i k p → VisitsOf R f g k p) →
    R _ (Walk.joinsOf f trail members) (Walk.joinsOf g trail members)
  | [], _ => by simpa only [Walk.joinsOf] using hR.pure _
  | (key, j) :: rest, h => by
    rw [Walk.joinsOf, Walk.joinsOf]
    by_cases hkey : key = "joins"
    · rw [if_pos hkey, if_pos hkey]
      refine joinList_reached hR trail j fun items hitems => h items ?_
      rw [Assoc.lookup_cons, if_pos hkey.symm, hitems]
    · rw [if_neg hkey, if_neg hkey]
      refine joinsOf_reached hR trail rest fun items hitems => h items ?_
      rwa [Assoc.lookup_cons, if_neg (Ne.symm hkey)]

theorem joinList_reached [LawfulMonad m] [LawfulMonad n] (hR : Compatible R) (trail : Trail) : (j : Json) →
    (∀ items, j = .arr items → ∀ i ∈ items, i.isObj →
      ∀ k p, Walk.Reaches .join i k p → VisitsOf R f g k p) →
    R _ (Walk.joinList f trail j) (Walk.joinList g trail j)
  | .arr items, h => by
    rw [Walk.joinList, Walk.joinList]
    exact hR.map (joins_reached hR trail items (h items rfl)) _
  | .null, _ | .bool _, _ | .int _, _ | .double _, _ | .str _, _ | .obj _, _ => by
    simpa only [Walk.joinList] using hR.pure _

theorem joins_reached [LawfulMonad m] [LawfulMonad n] (hR : Compatible R) (trail : Trail) :
    (items : List Json) →
    (∀ i ∈ items, i.isObj → ∀ k p, Walk.Reaches .join i k p → VisitsOf R f g k p) →
    R _ (Walk.joins f trail items) (Walk.joins g trail items)
  | [], _ => by simpa only [Walk.joins] using hR.pure _
  | j :: rest, h => by
    rw [Walk.joins, Walk.joins]
    refine hR.bind (join_reached hR trail j (h j List.mem_cons_self)) fun _ => ?_
    exact hR.bind (joins_reached hR trail rest fun i hi => h i (List.mem_cons_of_mem _ hi)) fun _ => hR.pure _

theorem join_reached [LawfulMonad m] [LawfulMonad n] (hR : Compatible R) (trail : Trail) : (j : Json) →
    (j.isObj → ∀ k p, Walk.Reaches .join j k p → VisitsOf R f g k p) →
    R _ (Walk.join f trail j) (Walk.join g trail j)
  | .obj members, h => by
    rw [Walk.join, Walk.join]
    refine hR.bind (nestedQuery_reached hR _ members fun q hq hobj k p hp => h rfl k p (.nested hq hobj hp))
      fun nested => ?_
    refine h rfl _ _ (.refl _ _) _ _ rfl ?_
    rw [Walk.ownMembers_putBack (.inl rfl)]
  | .null, _ | .bool _, _ | .int _, _ | .double _, _ | .str _, _ | .arr _, _ => by
    simpa only [Walk.join] using hR.pure _

end

/-! ## Cards -/

section Cards

variable (hplaces : ∀ trail j, Walk.BesideQuery trail → R _ (f trail j) (g trail j))

include hplaces

theorem settings_reached {trail : Trail} (htrail : trail.hasKind .dashboard = false) (j : Json) :
    R _ (Walk.settings f trail j) (Walk.settings g trail j) := by
  have hsettings {title : Option String} :
      (trail.push .visualizationSettings title).hasKind .dashboard = false := htrail
  have hclick (key : String) (j : Json) :
      R _ (Walk.columnClick f (trail.push .visualizationSettings none) key j)
        (Walk.columnClick g (trail.push .visualizationSettings none) key j) := by
    rw [Walk.columnClick, Walk.columnClick]
    refine hR.onMember _ (hR.onObj fun j => hplaces _ j (.push ?_ (by decide))) j
    exact htrail
  refine hR.bind (hR.onMember _ (hR.onObj fun j => hplaces _ j (.push hsettings (by decide))) j) fun j => ?_
  refine hR.bind (hR.onMember _ (hR.onArr fun j => hplaces _ j (.push hsettings (by decide))) j) fun j => ?_
  refine hR.bind (hR.onMember _ (hR.onMembers hclick) j) fun j => ?_
  refine hR.bind (hR.onMember _ (hR.onObj fun j => hplaces _ j (.push hsettings (by decide))) j) fun j => ?_
  refine hR.bind (hR.onMember _ (hR.onObj fun j => hplaces _ j (.push hsettings (by decide))) j) fun j => ?_
  exact hplaces _ j (.push htrail (by decide))

/-- Walks of a card that is not in a dashboard are related when the visits of its places are, those in its
query under `VisitsOf`. -/
theorem card_reached {trail : Trail} (htrail : trail.hasKind .dashboard = false) (j : Json)
    (hquery : ∀ q, j.query? = some q → ∀ k p, Walk.Reaches .queryPart q k p → VisitsOf R f g k p) :
    R _ (Walk.card f trail j) (Walk.card g trail j) := by
  have hcard {title : Option String} : (trail.push .card title).hasKind .dashboard = false := htrail
  refine hR.onMember_bind _ (fun v _ => ?_) fun j' hj' => ?_
  · cases v with
    | obj members => exact hR.settings_reached hplaces hcard _
    | _ => exact hR.pure _
  refine hR.onMember_bind _ (fun v hv => ?_) fun j'' _ => ?_
  · rw [hj' _ (by decide)] at hv
    have hwalk (q : Json) (hq : v.member? "query" = some q) :
        R _ (Json.onObj (Walk.query f (trail.push .card (Walk.cardTitle j))) q)
          (Json.onObj (Walk.query g (trail.push .card (Walk.cardTitle j))) q) := by
      cases q with
      | obj members =>
        refine hR.query_reached _ _ (hquery _ ?_)
        rw [Json.query?, hv]
        exact hq
      | _ => exact hR.pure _
    have hmember := hR.onMember_bind "query" hwalk fun j' _ => hR.pure j'
    rwa [bind_pure, bind_pure] at hmember
  refine hR.bind ?_ fun j => hplaces _ j (.push htrail (by decide))
  exact hR.onMember _ (hR.onItems (hR.onObj fun j => hplaces _ j (.push hcard (by decide)))) j''

end Cards

end Compatible

namespace Closed

omit [Monad n] [LawfulMonad n]

variable {K : (α : Type) → m α → Prop} (hK : Closed K)

include hK

section Cards

variable {f : Trail → Json → m Json} (hplaces : ∀ trail j, Walk.BesideQuery trail → K _ (f trail j))

include hplaces

theorem settings_reached {trail : Trail} (htrail : trail.hasKind .dashboard = false) (j : Json) :
    K _ (Walk.settings f trail j) :=
  hK.compatible.settings_reached (g := f) hplaces htrail j

/-- A walk of a card has a property when the visits of its places have it, those in its query whatever has
become of the places inside of theirs. -/
theorem card_reached {trail : Trail} (htrail : trail.hasKind .dashboard = false) (j : Json)
    (hquery : ∀ q, j.query? = some q → ∀ k p, Walk.Reaches .queryPart q k p →
      ∀ trail j, trail.kind? = some k → Walk.ownMembers j = Walk.ownMembers p → K _ (f trail j)) :
    K _ (Walk.card f trail j) :=
  hK.compatible.card_reached (g := f) hplaces htrail j hquery

end Cards

end Closed

end Rehome
