import Rehome.Proofs.Reference.CardsRead
import Rehome.Proofs.Reference.Results
import Rehome.Proofs.Reference.Slots
import Rehome.Sample

/-! # Renaming a query is one substitution

A query is renamed part by part, but each slot belongs to one part alone and is visited once. So whatever
the ids on both sides of the mapping are, the result is the query with the original value at each slot
replaced by its image (`query_once`), and the cards that are needed are where those cards go that the
query reads from, in the order of the walk. -/

namespace Rehome

/-! ## Plans that are carried out elsewhere -/

namespace Plan

variable {α β : Type}

/-- Carries out a plan with a way to accept every card that it needs. -/
def perform {m : Type → Type} [Monad m] (accept : CardId → m Unit) (p : Plan α) :
    ExceptT MigrationError m α :=
  ExceptT.mk do
    p.needs.forM accept
    return p.outcome

/-- Plans are composed and then carried out, or carried out one after the other. -/
theorem compatible_perform {m : Type → Type} [Monad m] [LawfulMonad m] (accept : CardId → m Unit) :
    Compatible fun α (p : Plan α) (x : ExceptT MigrationError m α) => p.perform accept = x where
  pure a := by
    show (pure () >>= fun _ => pure (Except.ok a) : m (Except MigrationError _)) = pure (Except.ok a)
    rw [pure_bind]
  bind {α β p x f g} hp hf := by
    subst hp
    show _ = (p.needs.forM accept >>= fun _ => pure p.outcome : m _) >>= ExceptT.bindCont g
    rw [bind_assoc]
    cases h : p.outcome with
    | error e =>
      rw [bind_of_error h]
      simp only [pure_bind, ExceptT.bindCont]
      rfl
    | ok a =>
      rw [bind_of_ok h]
      simp only [pure_bind, ExceptT.bindCont, ← hf a]
      show (forM (p.needs ++ (f a).needs) accept >>= _ : m _) = (forM p.needs accept >>= _)
      rw [List.forM_append, bind_assoc]
      rfl

end Plan

namespace Renaming

variable {r : Renaming} {trail : Trail}

/-! ## Members of query parts and joins -/

/-- Renames what a descent goes through. -/
def descend (r : Renaming) : Descent → Json → Plan Json
  | .source, j => r.source j
  | .clauses, j => r.filter j
  | .lists, j => r.nested j
  | .listsOfMembers, j => r.expressions j
  | .items, j => r.breakout j
  | .orderings, j => r.orderings j

/-- Renames what a query part or join has under a key. -/
def partMember (r : Renaming) (k : PlaceKind) (key : String) (j : Json) : Plan Json :=
  match (descents k).lookup key with
  | some d => r.descend d j
  | none => pure j

theorem queryMember_eq : r.queryMember = r.partMember .queryPart := by
  funext key j
  rw [queryMember, partMember, descents]
  simp only [Assoc.lookup_cons, List.lookup_nil]
  by_cases hsource : key = "source-table"
  · simp [hsource, descend]
  by_cases hfilter : key = "filter"
  · simp [hfilter, descend]
  by_cases haggregation : key = "aggregation"
  · simp [haggregation, descend]
  by_cases hfields : key = "fields"
  · simp [hfields, descend]
  by_cases hexpressions : key = "expressions"
  · simp [hexpressions, descend]
  by_cases hbreakout : key = "breakout"
  · simp [hbreakout, descend]
  by_cases horder : key = "order-by"
  · simp [horder, descend]
  simp [hsource, hfilter, haggregation, hfields, hexpressions, hbreakout, horder]

theorem joinMember_eq : r.joinMember = r.partMember .join := by
  funext key j
  rw [joinMember, partMember, descents]
  simp only [Assoc.lookup_cons, List.lookup_nil]
  by_cases hsource : key = "source-table"
  · simp [hsource, descend]
  by_cases hcondition : key = "condition"
  · simp [hcondition, descend]
  by_cases hfields : key = "fields"
  · simp [hfields, descend]
  simp [hsource, hcondition, hfields]

theorem place_queryPart (h : trail.kind? = some .queryPart) (j : Json) :
    r.place trail j = j.onMembers (r.partMember .queryPart) := by
  rw [place, h, ← queryMember_eq]
  rfl

theorem place_join (h : trail.kind? = some .join) (j : Json) :
    r.place trail j = j.onMembers (r.partMember .join) := by
  rw [place, h, ← joinMember_eq]
  rfl

/-! ## Descents -/

theorem source_substitutes {j j' : Json} (h : (r.source j).outcome = .ok j') :
    Substitutes (Descent.source.Slot j) r.Image j j' := by
  have hslots (s : SlotKind) (p : Position) : Descent.source.Slot j s p ↔ s = .source ∧ p = [] := by
    constructor
    · intro hs
      cases hs
      exact ⟨rfl, rfl⟩
    · rintro ⟨rfl, rfl⟩
      exact .source
  rw [source] at h
  cases hsource : Source.ofJson j with
  | table t =>
    rw [hsource] at h
    obtain ⟨t', ht, h⟩ := Except.bind_eq_ok_iff.1 ((Plan.compatible_outcome.bind rfl fun _ => rfl).symm.trans h)
    obtain rfl := Except.ok.inj h
    refine .leaf ?_ rfl (.table hsource (Except.mapError_eq_ok_iff.1 ht)) hslots
    rw [Source.ofJson.eq_def] at hsource
    split at hsource
    · next hid => exact isLeaf_of_ofJson? hid
    · split at hsource <;> cases hsource
  | card c =>
    rw [hsource] at h
    obtain ⟨c', hc, h⟩ := Except.bind_eq_ok_iff.1 ((Plan.compatible_outcome.bind rfl fun _ => rfl).symm.trans h)
    obtain rfl := Except.ok.inj h
    refine .leaf ?_ rfl (.card hsource (card_eq_ok_iff.1 hc)) hslots
    rw [Source.ofJson.eq_def] at hsource
    split at hsource
    · cases hsource
    · cases j with
      | str s => rfl
      | _ => cases hsource
  | unknown text =>
    rw [hsource] at h
    cases h

theorem expressions_substitutes {j j' : Json} (h : r.expressions j = .ok j') :
    Substitutes (Descent.listsOfMembers.Slot j) r.Image j j' := by
  obtain ⟨-, h⟩ := expressions_eq_ok_iff.1 h
  refine .onMembers (fun s p hs => ?_) (fun key v v' hv hv' => ?_) h
  · cases hs with
    | listsOfMembers he => exact ⟨_, _, rfl, by rw [he]; rfl⟩
  · refine (nested_substitutes v hv').congr fun s p => ⟨?_, fun hs => ?_⟩
    · rintro ⟨rfl, hp⟩
      exact .listsOfMembers hv hp
    · cases hs with
      | listsOfMembers he hp => exact ⟨rfl, Option.some.inj (hv.symm.trans he) ▸ hp⟩

theorem breakout_substitutes {j j' : Json} (h : r.breakout j = .ok j') :
    Substitutes (Descent.items.Slot j) r.Image j j' := by
  obtain ⟨-, h⟩ := breakout_eq_ok_iff.1 h
  refine .onItems (fun s p hs => ?_) (fun n v v' hv hv' => ?_) h
  · cases hs with
    | items hi => exact ⟨_, _, rfl, by rw [hi]; rfl⟩
  · refine (fieldRef_substitutes hv').congr fun s p => ⟨?_, fun hs => ?_⟩
    · rintro ⟨rfl, hp⟩
      exact .items hv hp
    · cases hs with
      | items hi hp => exact ⟨rfl, Option.some.inj (hv.symm.trans hi) ▸ hp⟩

theorem orderings_substitutes {j j' : Json} (h : r.orderings j = .ok j') :
    Substitutes (Descent.orderings.Slot j) r.Image j j' := by
  obtain ⟨-, h⟩ := orderings_eq_ok_iff.1 h
  refine .onItems (fun s p hs => ?_) (fun n o o' ho ho' => ?_) h
  · cases hs with
    | orderings ho => exact ⟨_, _, rfl, by rw [ho]; rfl⟩
  · obtain ⟨i, i', hi, hi', rfl⟩ := ordering_eq_ok_iff.1 ho'
    refine .setItem hi (fun s p hs => ?_) ?_
    · cases hs with
      | orderings => exact ⟨_, rfl⟩
    · refine (fieldRef_substitutes hi').congr fun s p => ⟨?_, fun hs => ?_⟩
      · rintro ⟨rfl, hp⟩
        exact .orderings ho hi hp
      · cases hs with
        | orderings ho' hi' hp =>
          obtain rfl := Option.some.inj (ho.symm.trans ho')
          exact ⟨rfl, Option.some.inj (hi.symm.trans hi') ▸ hp⟩

theorem descend_substitutes {d : Descent} {j j' : Json} (h : (r.descend d j).outcome = .ok j') :
    Substitutes (d.Slot j) r.Image j j' := by
  cases d with
  | source => exact source_substitutes h
  | clauses =>
    refine (filter_substitutes j h).congr fun s p => ⟨?_, fun hs => ?_⟩
    · rintro ⟨rfl, hp⟩
      exact .clauses hp
    · cases hs with
      | clauses hp => exact ⟨rfl, hp⟩
  | lists =>
    refine (nested_substitutes j h).congr fun s p => ⟨?_, fun hs => ?_⟩
    · rintro ⟨rfl, hp⟩
      exact .lists hp
    · cases hs with
      | lists hp => exact ⟨rfl, hp⟩
  | listsOfMembers => exact expressions_substitutes h
  | items => exact breakout_substitutes h
  | orderings => exact orderings_substitutes h

/-! ## Query parts and joins -/

/-- The slots of a nested query. -/
def nestedSlots (q : Json) (s : SlotKind) (p : Position) : Prop :=
  q.isObj ∧ QuerySlot .queryPart q s p

/-- The slots of a list of joins. -/
def joinsSlots (v : Json) (s : SlotKind) (p : Position) : Prop :=
  ∃ items n i rest, v = .arr items ∧ p = .item n :: rest ∧ items[n]? = some i ∧ i.isObj ∧
    QuerySlot .join i s rest

/-- What is put under a key is, for the value that was there, a substitution at its slots. -/
structure PutsBack (r : Renaming) (key : String) (slots : Json → SlotKind → Position → Prop)
    (value : Option Json) (members : List (String × Json)) : Prop where
  absent : members.lookup key = none → value = none
  present {v : Json} : members.lookup key = some v → Substitutes (slots v) r.Image v (value.getD v)

theorem keys_putBack {key : String} {value : Option Json} {members : List (String × Json)}
    (h : members.lookup key = none → value = none) :
    (Walk.putBack key value members).map Prod.fst = members.map Prod.fst := by
  cases value with
  | none => rfl
  | some j =>
    cases hv : members.lookup key with
    | none => cases h hv
    | some v => exact Assoc.keys_put_of_mem (List.mem_map_of_mem (Assoc.mem_of_lookup hv)) j

theorem PutsBack.substitutes {key : String} {slots : Json → SlotKind → Position → Prop}
    {value : Option Json} {members : List (String × Json)} (h : PutsBack r key slots value members)
    {v w : Json} (hv : members.lookup key = some v) (hw : value.or (members.lookup key) = some w) :
    Substitutes (slots v) r.Image v w := by
  have hvalue : value.getD v = w := by
    rw [hv] at hw
    cases value with
    | none => exact Option.some.inj hw
    | some j => exact Option.some.inj hw
  exact hvalue ▸ h.present hv

/-- The entry under the key comes first, or is found further on. -/
theorem PutsBack.cons {key k : String} {slots : Json → SlotKind → Position → Prop} {value : Option Json}
    {j : Json} {rest : List (String × Json)}
    (h : if k = key then Substitutes (slots j) r.Image j (value.getD j)
      else PutsBack r key slots value rest) : PutsBack r key slots value ((k, j) :: rest) := by
  by_cases hk : k = key
  · rw [if_pos hk] at h
    refine ⟨fun hnone => ?_, fun {v} hv => ?_⟩
    · rw [Assoc.lookup_cons, if_pos hk.symm] at hnone
      cases hnone
    · rw [Assoc.lookup_cons, if_pos hk.symm] at hv
      exact Option.some.inj hv ▸ h
  · rw [if_neg hk] at h
    refine ⟨fun hnone => h.absent ?_, fun {v} hv => h.present ?_⟩
    · rwa [Assoc.lookup_cons, if_neg (Ne.symm hk)] at hnone
    · rwa [Assoc.lookup_cons, if_neg (Ne.symm hk)] at hv

theorem querySlot_member_iff {k : PlaceKind} {j v : Json} {key : String} {s : SlotKind} {p : Position}
    (hv : j.member? key = some v) : QuerySlot k j s (.member key :: p) ↔
      (∃ d, (descents k).lookup key = some d ∧ d.Slot v s p) ∨
      (key = "source-query" ∧ nestedSlots v s p) ∨ k = .queryPart ∧ key = "joins" ∧ joinsSlots v s p := by
  constructor
  · intro h
    cases h with
    | member hd hw hp => exact .inl ⟨_, hd, Option.some.inj (hv.symm.trans hw) ▸ hp⟩
    | nested hq hobj hp =>
      obtain rfl := Option.some.inj (hv.symm.trans hq)
      exact .inr (.inl ⟨rfl, hobj, hp⟩)
    | join hitems hi hobj hp =>
      exact .inr (.inr ⟨rfl, rfl, _, _, _, _, Option.some.inj (hv.symm.trans hitems), rfl, hi, hobj, hp⟩)
  · rintro (⟨d, hd, hp⟩ | ⟨rfl, hobj, hp⟩ | ⟨rfl, rfl, items, n, i, rest, rfl, rfl, hi, hobj, hp⟩)
    · exact .member hd hv hp
    · exact .nested hv hobj hp
    · exact .join hv hi hobj hp

/-- Without a descent for its key, a member stays. -/
theorem partMember_eq_self {k : PlaceKind} {key : String} {v v' : Json} (hnone : (descents k).lookup key = none)
    (h : (r.partMember k key v).outcome = .ok v') : v' = v := by
  rw [partMember, hnone] at h
  exact (Except.ok.inj h).symm

/-- A member that holds no places is substituted at the slots that the descent for its key has. -/
theorem partMember_substitutes {k : PlaceKind} {j v v' : Json} {key : String} (hv : j.member? key = some v)
    (hsource : key ≠ "source-query") (hjoin : ¬(k = .queryPart ∧ key = "joins"))
    (h : (r.partMember k key v).outcome = .ok v') :
    Substitutes (fun s p => QuerySlot k j s (.member key :: p)) r.Image v v' := by
  have hslots : ∀ s p, QuerySlot k j s (.member key :: p) ↔
      ∃ d, (descents k).lookup key = some d ∧ d.Slot v s p := by
    intro s p
    rw [querySlot_member_iff hv]
    refine or_iff_left ?_
    rintro (⟨hkey, -⟩ | ⟨hpart, hkey, -⟩)
    · exact hsource hkey
    · exact hjoin ⟨hpart, hkey⟩
  cases hdescents : (descents k).lookup key with
  | none =>
    rw [partMember_eq_self hdescents h]
    refine .refl (fun s p hs => ?_) v
    rw [hslots, hdescents] at hs
    obtain ⟨d, hd, -⟩ := hs
    cases hd
  | some d =>
    rw [partMember, hdescents] at h
    refine (descend_substitutes h).congr fun s p => ?_
    rw [hslots, hdescents]
    simp

/-- A query part or join is substituted at its slots, if what has become of the places inside of it is a
substitution there. -/
theorem part_substitutes {k : PlaceKind} (hk : k = .queryPart ∨ k = .join)
    {members walked : List (String × Json)} {p' : Json}
    (hkeys : walked.map Prod.fst = members.map Prod.fst)
    (hown : ∀ key, key ≠ "source-query" → ¬(k = .queryPart ∧ key = "joins") →
      walked.lookup key = members.lookup key)
    (hnested : ∀ v w, members.lookup "source-query" = some v → walked.lookup "source-query" = some w →
      Substitutes (nestedSlots v) r.Image v w)
    (hjoins : k = .queryPart → ∀ v w, members.lookup "joins" = some v →
      walked.lookup "joins" = some w → Substitutes (joinsSlots v) r.Image v w)
    (h : (Json.obj walked).onMembers (fun key v => (r.partMember k key v).outcome) = .ok p') :
    Substitutes (QuerySlot k (.obj members)) r.Image (.obj members) p' := by
  obtain ⟨members', rfl, hforall⟩ := Json.onMembers_eq_ok_iff.1 h
  have hkeys' : members'.map Prod.fst = members.map Prod.fst := by
    rw [← hkeys]
    exact Json.keys_of_forall₂ hforall
  refine .obj (fun s hs => by cases hs) hkeys' fun key v v' hv hv' => ?_
  obtain ⟨-, hnone⟩ | ⟨w, w', hw, hw', hmember⟩ :=
    Json.lookup_forall₂ (f := fun key v => {v' | (r.partMember k key v).outcome = .ok v'}) hforall key
  · rw [hnone] at hv'
    cases hv'
  obtain rfl := Option.some.inj (hv'.symm.trans hw')
  have hthere : (Json.obj members).member? key = some v := hv
  by_cases hsource : key = "source-query"
  · subst hsource
    have hdescents : (descents k).lookup "source-query" = none := by rcases hk with rfl | rfl <;> rfl
    rw [partMember_eq_self hdescents hmember]
    refine (hnested v w hv hw).congr fun s p => ?_
    rw [querySlot_member_iff hthere, hdescents]
    simp
  by_cases hjoin : k = .queryPart ∧ key = "joins"
  · obtain ⟨rfl, rfl⟩ := hjoin
    have hdescents : (descents .queryPart).lookup "joins" = none := rfl
    rw [partMember_eq_self hdescents hmember]
    refine (hjoins rfl v w hv hw).congr fun s p => ?_
    rw [querySlot_member_iff hthere, hdescents]
    simp
  obtain rfl := Option.some.inj (hv.symm.trans ((hown key hsource hjoin).symm.trans hw))
  exact partMember_substitutes hthere hsource hjoin hmember

/-! ## Queries -/

theorem place_outcome {k : PlaceKind} (hk : k = .queryPart ∨ k = .join) (h : trail.kind? = some k)
    (j : Json) :
    (r.place trail j).outcome = j.onMembers fun key v => (r.partMember k key v).outcome := by
  obtain rfl | rfl := hk
  · rw [place_queryPart h]
    exact Plan.compatible_outcome.onMembers (fun _ _ => rfl) j
  · rw [place_join h]
    exact Plan.compatible_outcome.onMembers (fun _ _ => rfl) j

/-- The slots of a join in a list of joins. -/
def joinSlots (j : Json) (s : SlotKind) (p : Position) : Prop := j.isObj ∧ QuerySlot .join j s p

mutual

theorem walkQuery_substitutes (trail : Trail) : (q : Json) → ∀ {q' : Json},
    Walk.query (fun t j => (r.place t j).outcome) trail q = .ok q' →
    Substitutes (nestedSlots q) r.Image q q'
  | .obj members, q', h => by
    rw [Walk.query] at h
    obtain ⟨nested, hnested, h⟩ := Except.bind_eq_ok_iff.1 h
    obtain ⟨joins, hjoins, h⟩ := Except.bind_eq_ok_iff.1 h
    have hn := walkNested_putsBack _ members hnested
    have hj := walkJoins_putsBack _ members hjoins
    rw [place_outcome (.inl rfl) rfl] at h
    refine (part_substitutes (.inl rfl) ?_ ?_ ?_ ?_ h).congr fun s p => (and_iff_right rfl).symm
    · rw [keys_putBack, keys_putBack hn.absent]
      rw [Walk.lookup_putBack, if_neg (by decide)]
      exact hj.absent
    · intro key hsource hjoin
      rw [Walk.lookup_putBack, if_neg fun hkey => hjoin ⟨rfl, hkey⟩, Walk.lookup_putBack, if_neg hsource]
    · intro v w hv hw
      rw [Walk.lookup_putBack, if_neg (by decide), Walk.lookup_putBack, if_pos rfl] at hw
      exact hn.substitutes hv hw
    · intro _ v w hv hw
      rw [Walk.lookup_putBack, if_pos rfl, Walk.lookup_putBack, if_neg (by decide)] at hw
      exact hj.substitutes hv hw
  | .null, q', h | .bool _, q', h | .int _, q', h | .double _, q', h | .str _, q', h
  | .arr _, q', h => by
    simp only [Walk.query] at h
    obtain rfl := Except.ok.inj h
    exact .refl (fun s p hs => by cases hs.1) _

theorem walkNested_putsBack (trail : Trail) : (members : List (String × Json)) →
    ∀ {nested : Option Json},
    Walk.nestedQuery (fun t j => (r.place t j).outcome) trail members = .ok nested →
    PutsBack r "source-query" nestedSlots nested members
  | [], nested, h => by
    rw [Walk.nestedQuery] at h
    obtain rfl := Except.ok.inj h
    exact ⟨fun _ => rfl, fun hv => by cases hv⟩
  | (key, j) :: rest, nested, h => by
    rw [Walk.nestedQuery] at h
    refine .cons ?_
    split at h
    · next hkey =>
      rw [if_pos hkey]
      split at h
      · obtain ⟨q', hq, rfl⟩ := Except.map_eq_ok_iff.1 h
        exact walkQuery_substitutes trail j hq
      · next hobj =>
        obtain rfl := Except.ok.inj h
        exact .refl (fun s p hs => hobj hs.1) _
    · next hkey =>
      rw [if_neg hkey]
      exact walkNested_putsBack trail rest h

theorem walkJoins_putsBack (trail : Trail) : (members : List (String × Json)) →
    ∀ {joins : Option Json},
    Walk.joinsOf (fun t j => (r.place t j).outcome) trail members = .ok joins →
    PutsBack r "joins" joinsSlots joins members
  | [], joins, h => by
    rw [Walk.joinsOf] at h
    obtain rfl := Except.ok.inj h
    exact ⟨fun _ => rfl, fun hv => by cases hv⟩
  | (key, j) :: rest, joins, h => by
    rw [Walk.joinsOf] at h
    refine .cons ?_
    split at h
    · next hkey =>
      rw [if_pos hkey]
      exact walkJoinList_substitutes trail j h
    · next hkey =>
      rw [if_neg hkey]
      exact walkJoins_putsBack trail rest h

theorem walkJoinList_substitutes (trail : Trail) : (j : Json) → ∀ {joins : Option Json},
    Walk.joinList (fun t j => (r.place t j).outcome) trail j = .ok joins →
    Substitutes (joinsSlots j) r.Image j (joins.getD j)
  | .arr items, joins, h => by
    rw [Walk.joinList] at h
    obtain ⟨items', hitems, rfl⟩ := Except.map_eq_ok_iff.1 h
    obtain ⟨hlength, hsubstitutes⟩ := walkJoinItems_substitutes trail items hitems
    refine .arr (fun s hs => ?_) hlength fun n i i' hi hi' => ?_
    · obtain ⟨items, n, i, rest, -, hp, -⟩ := hs
      cases hp
    · refine (hsubstitutes n i i' hi hi').congr fun s p => ⟨?_, ?_⟩
      · rintro ⟨hobj, hp⟩
        exact ⟨items, n, i, p, rfl, rfl, hi, hobj, hp⟩
      · rintro ⟨items, n, i, rest, heq, hp, hi', hobj, hslot⟩
        obtain rfl := Json.arr.inj heq
        cases hp
        exact Option.some.inj (hi.symm.trans hi') ▸ ⟨hobj, hslot⟩
  | .null, joins, h | .bool _, joins, h | .int _, joins, h | .double _, joins, h | .str _, joins, h
  | .obj _, joins, h => by
    simp only [Walk.joinList] at h
    obtain rfl := Except.ok.inj h
    refine .refl (fun s p hs => ?_) _
    obtain ⟨items, n, i, rest, heq, -⟩ := hs
    cases heq

theorem walkJoinItems_substitutes (trail : Trail) : (items : List Json) → ∀ {items' : List Json},
    Walk.joins (fun t j => (r.place t j).outcome) trail items = .ok items' →
    items'.length = items.length ∧ ∀ (n : Nat) (i i' : Json), items[n]? = some i →
      items'[n]? = some i' → Substitutes (joinSlots i) r.Image i i'
  | [], items', h => by
    rw [Walk.joins] at h
    obtain rfl := Except.ok.inj h
    exact ⟨rfl, fun n i i' hi => by cases hi⟩
  | j :: items, items', h => by
    rw [Walk.joins] at h
    obtain ⟨j', hj, h⟩ := Except.bind_eq_ok_iff.1 h
    obtain ⟨rest, hrest, h⟩ := Except.bind_eq_ok_iff.1 h
    obtain rfl := Except.ok.inj h
    obtain ⟨hlength, hsubstitutes⟩ := walkJoinItems_substitutes trail items hrest
    refine ⟨congrArg (· + 1) hlength, fun n i i' hi hi' => ?_⟩
    cases n with
    | zero =>
      obtain rfl := Option.some.inj hi
      obtain rfl := Option.some.inj hi'
      exact walkJoin_substitutes trail j hj
    | succ n => exact hsubstitutes n i i' hi hi'

theorem walkJoin_substitutes (trail : Trail) : (j : Json) → ∀ {j' : Json},
    Walk.join (fun t j => (r.place t j).outcome) trail j = .ok j' →
    Substitutes (joinSlots j) r.Image j j'
  | .obj members, j', h => by
    rw [Walk.join] at h
    obtain ⟨nested, hnested, h⟩ := Except.bind_eq_ok_iff.1 h
    have hn := walkNested_putsBack _ members hnested
    rw [place_outcome (.inr rfl) rfl] at h
    refine (part_substitutes (.inr rfl) (keys_putBack hn.absent) ?_ ?_ ?_ h).congr
      fun s p => (and_iff_right rfl).symm
    · intro key hsource _
      rw [Walk.lookup_putBack, if_neg hsource]
    · intro v w hv hw
      rw [Walk.lookup_putBack, if_pos rfl] at hw
      exact hn.substitutes hv hw
    · intro hpart
      cases hpart
  | .null, j', h | .bool _, j', h | .int _, j', h | .double _, j', h | .str _, j', h
  | .arr _, j', h => by
    simp only [Walk.join] at h
    obtain rfl := Except.ok.inj h
    exact .refl (fun s p hs => by cases hs.1) _

end

/-! ## One substitution -/

theorem QuerySlot.isObj {k : PlaceKind} {j : Json} {s : SlotKind} {p : Position} (h : QuerySlot k j s p) :
    j.isObj := by
  cases h with
  | member _ hv => exact Json.isObj_of_member? hv
  | nested hq => exact Json.isObj_of_member? hq
  | join hitems => exact Json.isObj_of_member? hitems

/-- Renaming a query asks for some cards and then has an outcome, in whatever way it is that cards are
accepted. If it succeeds, the outcome is the query in which the original value at each slot has been
replaced by its image, and nothing else has changed; and the cards that have been asked for are where those
go that the query reads from: first the ones of its nested query, then those of its joins, then its own. -/
theorem query_once (r : Renaming) (trail : Trail) (q : Json) :
    ∃ (asked : List CardId) (outcome : Except MigrationError Json),
      (∀ (m : Type → Type) [Monad m] [LawfulMonad m] (accept : CardId → m Unit),
        (Walk.query (fun t j => (r.place t j).perform accept) trail q).run = do
          asked.forM accept
          return outcome) ∧
      ∀ q', outcome = .ok q' → Substitutes (QuerySlot .queryPart q) r.Image q q' ∧
        List.Forall₂ (fun c d => r.mapping.moves.card? c = some d) (cardsRead q) asked := by
  refine ⟨(Walk.query r.place trail q).needs, (Walk.query r.place trail q).outcome, ?_, fun q' hq => ⟨?_, ?_⟩⟩
  · intro m _ _ accept
    rw [← (Plan.compatible_perform accept).query (fun _ _ => rfl)]
    rfl
  · rw [Plan.compatible_outcome.query (fun _ _ => rfl)] at hq
    refine (walkQuery_substitutes trail q hq).congr fun s p => ⟨And.right, fun hp => ?_⟩
    exact ⟨QuerySlot.isObj hp, hp⟩
  · exact asks_walkQuery trail q q' hq

/-- A mapping whose ids are both sources and destinations: table 20, column 200 and card 13. -/
def chained : Mapping where
  database := ⟨3⟩
  tables := ((EquivalenceTable.ofSpec ⟨[⟨⟨10⟩, ⟨20⟩, [⟨⟨100⟩, ⟨200⟩⟩]⟩, ⟨⟨20⟩, ⟨30⟩, [⟨⟨200⟩, ⟨300⟩⟩]⟩]⟩).toOption).getD
    .empty
  overrides := .none
  moves := (Moves.none.withCard ⟨12⟩ ⟨13⟩).withCard ⟨13⟩ ⟨14⟩

/-- A query over a card, joined with a table and grouped by two columns. -/
def joined (table : TableId) (card : CardId) (column column' : ColumnId) : Json :=
  .obj [("joins", .arr [.obj [("source-table", table.toJson),
      ("condition", .arr [.str "=", Sample.fieldRef column, Sample.fieldRef column'])]]),
    ("source-table", (Source.card card).toJson),
    ("breakout", .arr [Sample.fieldRef column', Sample.fieldRef column])]

/-- Ids that are both sources and destinations are replaced once. -/
example : Walk.query (place ⟨chained, .card ⟨7⟩⟩) [] (joined ⟨10⟩ ⟨12⟩ ⟨100⟩ ⟨200⟩) =
    ⟨[⟨13⟩], .ok (joined ⟨20⟩ ⟨13⟩ ⟨200⟩ ⟨300⟩)⟩ := by
  rfl

end Renaming

end Rehome
