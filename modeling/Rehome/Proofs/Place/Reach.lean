import Rehome.Proofs.Json.Results

/-! # What a walk leaves at each place

Visits are carried out on sets of possible results here. The visit of a query part or join comes after
the visits of the places inside it. If it leaves these alone, then whatever is found at such a place at
the end was left there by a visit (`query_leaves`). Settings, cards and dashboards have their places at a
fixed depth; `SettingsWalked`, `CardWalked` and `DashboardWalked` say what has been made of these when the
settings, the card or the dashboard itself is visited. -/

namespace Rehome

attribute [local instance] Set.monad

/-- The query of a card or dashcard. -/
def Json.query? (j : Json) : Option Json := (j.member? "dataset_query").bind (·.member? "query")

namespace Walk

/-- `Reaches k j l p` holds when `p`, a place of kind `l`, is the query part or join `j` of kind `k` or
is inside of it. -/
inductive Reaches : PlaceKind → Json → PlaceKind → Json → Prop
  /-- Every place reaches itself. -/
  | refl (k : PlaceKind) (j : Json) : Reaches k j k j
  /-- Query parts and joins may hold a nested query. -/
  | nested {k l : PlaceKind} {j q p : Json} : j.member? "source-query" = some q → q.isObj →
    Reaches .queryPart q l p → Reaches k j l p
  /-- Query parts may hold joins. -/
  | join {l : PlaceKind} {j i p : Json} {items : List Json} : j.member? "joins" = some (.arr items) →
    i ∈ items → i.isObj → Reaches .join i l p → Reaches .queryPart j l p

/-- Inside of queries and joins there are only queries and joins. -/
theorem Reaches.kind_cases {k l : PlaceKind} {j p : Json} (h : Reaches k j l p)
    (hk : k = .queryPart ∨ k = .join) : l = .queryPart ∨ l = .join := by
  induction h with
  | refl => exact hk
  | nested _ _ _ ih => exact ih (.inl rfl)
  | join _ _ _ _ ih => exact ih (.inr rfl)

/-- Only objects hold other places. -/
theorem Reaches.isObj {k l : PlaceKind} {j p : Json} (h : Reaches k j l p) (hp : p.isObj) : j.isObj := by
  cases h with
  | refl => exact hp
  | nested hq => exact Json.isObj_of_member? hq
  | join hitems => exact Json.isObj_of_member? hitems

variable {V : Trail → Json → Set Json}

/-- Some visit of a place of this kind may leave `p` there. -/
def Leaves (V : Trail → Json → Set Json) (k : PlaceKind) (p : Json) : Prop :=
  ∃ trail j, trail.kind? = some k ∧ p ∈ V trail j

/-- Visits of query parts and joins leave the places inside them alone. -/
structure KeepsInner (V : Trail → Json → Set Json) : Prop where
  nested {trail : Trail} {j j' : Json} : trail.kind? = some .queryPart ∨ trail.kind? = some .join →
    j' ∈ V trail j → j'.member? "source-query" = j.member? "source-query"
  joins {trail : Trail} {j j' : Json} : trail.kind? = some .queryPart → j' ∈ V trail j →
    j'.member? "joins" = j.member? "joins"

theorem lookup_putBack (key k : String) (value : Option Json) (members : List (String × Json)) :
    (putBack key value members).lookup k =
      if k = key then value.or (members.lookup key) else members.lookup k := by
  cases value with
  | none =>
    rw [putBack, Option.none_or]
    split
    · next h => rw [h]
    · rfl
  | some j => exact Assoc.lookup_put key k j members

/-! ## Queries -/

mutual

/-- What is found inside a query after a walk was left there by a visit. -/
theorem query_leaves (hV : KeepsInner V) (trail : Trail) : (j : Json) →
    ∀ {j' p : Json} {l : PlaceKind}, j'.isObj → j' ∈ query V trail j → Reaches .queryPart j' l p →
    Leaves V l p
  | .obj members, j', p, l, _, hj, hp => by
    rw [query] at hj
    obtain ⟨nested, hnested, hj⟩ := Json.mem_bind.1 hj
    obtain ⟨joins, hjoins, hj⟩ := Json.mem_bind.1 hj
    cases hp with
    | refl => exact ⟨_, _, rfl, hj⟩
    | nested hq hobj hp =>
      rw [hV.nested (.inl rfl) hj, Json.member?, lookup_putBack, if_neg (by decide), lookup_putBack,
        if_pos rfl] at hq
      exact nestedQuery_leaves hV _ members hnested hq hobj hp
    | join hitems hi hobj hp =>
      rw [hV.joins rfl hj, Json.member?, lookup_putBack, if_pos rfl, lookup_putBack,
        if_neg (by decide)] at hitems
      exact joinsOf_leaves hV _ members hjoins hitems hi hobj hp
  | .null, j', _, _, hobj, hj, _ | .bool _, j', _, _, hobj, hj, _ | .int _, j', _, _, hobj, hj, _
  | .double _, j', _, _, hobj, hj, _ | .str _, j', _, _, hobj, hj, _
  | .arr _, j', _, _, hobj, hj, _ => by
    obtain rfl : j' = _ := by simpa [query] using hj
    simp [Json.isObj] at hobj

theorem nestedQuery_leaves (hV : KeepsInner V) (trail : Trail) : (members : List (String × Json)) →
    ∀ {nested : Option Json} {q p : Json} {l : PlaceKind}, nested ∈ nestedQuery V trail members →
    nested.or (members.lookup "source-query") = some q → q.isObj → Reaches .queryPart q l p →
    Leaves V l p
  | [], nested, q, p, l, hnested, hq, _, _ => by
    obtain rfl : nested = none := by simpa [nestedQuery] using hnested
    simp at hq
  | (k, j) :: rest, nested, q, p, l, hnested, hq, hobj, hp => by
    rw [nestedQuery] at hnested
    rw [Assoc.lookup_cons] at hq
    by_cases hk : k = "source-query"
    · rw [if_pos hk] at hnested
      rw [if_pos hk.symm] at hq
      split at hnested
      · obtain ⟨j', hj', rfl⟩ : ∃ j' ∈ query V trail j, some j' = nested := by simpa using hnested
        obtain rfl : j' = q := by simpa using hq
        exact query_leaves hV trail j hobj hj' hp
      · next hnot =>
        obtain rfl : nested = none := by simpa using hnested
        obtain rfl : j = q := by simpa using hq
        exact absurd hobj hnot
    · rw [if_neg hk] at hnested
      rw [if_neg (Ne.symm hk)] at hq
      exact nestedQuery_leaves hV trail rest hnested hq hobj hp

theorem joinsOf_leaves (hV : KeepsInner V) (trail : Trail) : (members : List (String × Json)) →
    ∀ {joined : Option Json} {items : List Json} {i p : Json} {l : PlaceKind},
    joined ∈ joinsOf V trail members → joined.or (members.lookup "joins") = some (.arr items) →
    i ∈ items → i.isObj → Reaches .join i l p → Leaves V l p
  | [], joined, items, i, p, l, hjoined, hitems, _, _, _ => by
    obtain rfl : joined = none := by simpa [joinsOf] using hjoined
    simp at hitems
  | (k, j) :: rest, joined, items, i, p, l, hjoined, hitems, hi, hobj, hp => by
    rw [joinsOf] at hjoined
    rw [Assoc.lookup_cons] at hitems
    by_cases hk : k = "joins"
    · rw [if_pos hk] at hjoined
      rw [if_pos hk.symm] at hitems
      exact joinList_leaves hV trail j hjoined hitems hi hobj hp
    · rw [if_neg hk] at hjoined
      rw [if_neg (Ne.symm hk)] at hitems
      exact joinsOf_leaves hV trail rest hjoined hitems hi hobj hp

theorem joinList_leaves (hV : KeepsInner V) (trail : Trail) : (j : Json) →
    ∀ {joined : Option Json} {items : List Json} {i p : Json} {l : PlaceKind},
    joined ∈ joinList V trail j → joined.or (some j) = some (.arr items) →
    i ∈ items → i.isObj → Reaches .join i l p → Leaves V l p
  | .arr olds, joined, items, i, p, l, hjoined, hitems, hi, hobj, hp => by
    rw [joinList] at hjoined
    obtain ⟨news, hnews, rfl⟩ : ∃ news ∈ joins V trail olds, some (Json.arr news) = joined := by
      simpa using hjoined
    obtain rfl : news = items := by simpa using hitems
    exact joins_leaves hV trail olds hnews hi hobj hp
  | .null, joined, _, _, _, _, hjoined, hitems, _, _, _
  | .bool _, joined, _, _, _, _, hjoined, hitems, _, _, _
  | .int _, joined, _, _, _, _, hjoined, hitems, _, _, _
  | .double _, joined, _, _, _, _, hjoined, hitems, _, _, _
  | .str _, joined, _, _, _, _, hjoined, hitems, _, _, _
  | .obj _, joined, _, _, _, _, hjoined, hitems, _, _, _ => by
    obtain rfl : joined = none := by simpa [joinList] using hjoined
    simp at hitems

theorem joins_leaves (hV : KeepsInner V) (trail : Trail) : (olds : List Json) →
    ∀ {items : List Json} {i p : Json} {l : PlaceKind}, items ∈ joins V trail olds →
    i ∈ items → i.isObj → Reaches .join i l p → Leaves V l p
  | [], items, i, _, _, hitems, hi, _, _ => by
    obtain rfl : items = [] := by simpa [joins] using hitems
    simp at hi
  | j :: rest, items, i, p, l, hitems, hi, hobj, hp => by
    rw [joins] at hitems
    obtain ⟨j', hj', hitems⟩ := Json.mem_bind.1 hitems
    obtain ⟨rest', hrest, hitems⟩ := Json.mem_bind.1 hitems
    obtain rfl : items = j' :: rest' := hitems
    rcases List.mem_cons.1 hi with rfl | hi
    · exact join_leaves hV trail j hobj hj' hp
    · exact joins_leaves hV trail rest hrest hi hobj hp

theorem join_leaves (hV : KeepsInner V) (trail : Trail) : (j : Json) →
    ∀ {j' p : Json} {l : PlaceKind}, j'.isObj → j' ∈ join V trail j → Reaches .join j' l p →
    Leaves V l p
  | .obj members, j', p, l, _, hj, hp => by
    rw [join] at hj
    obtain ⟨nested, hnested, hj⟩ := Json.mem_bind.1 hj
    cases hp with
    | refl => exact ⟨_, _, rfl, hj⟩
    | nested hq hobj hp =>
      rw [hV.nested (.inr rfl) hj, Json.member?, lookup_putBack, if_pos rfl] at hq
      exact nestedQuery_leaves hV _ members hnested hq hobj hp
  | .null, j', _, _, hobj, hj, _ | .bool _, j', _, _, hobj, hj, _ | .int _, j', _, _, hobj, hj, _
  | .double _, j', _, _, hobj, hj, _ | .str _, j', _, _, hobj, hj, _
  | .arr _, j', _, _, hobj, hj, _ => by
    obtain rfl : j' = _ := by simpa [join] using hj
    simp [Json.isObj] at hobj

end

/-! ## Settings -/

/-- What has been made of settings `s` when they are visited themselves, as `c`. -/
structure SettingsWalked (V : Trail → Json → Set Json) (trail : Trail) (s c : Json) : Prop where
  series {v' : Json} : c.member? "series_settings" = some v' →
    ∃ v : Json, v' ∈ v.onObj (V (trail.push .seriesSettings none))
  tableColumns {v' : Json} : c.member? "table.columns" = some v' →
    ∃ v : Json, s.member? "table.columns" = some v ∧ v' ∈ v.onArr (V (trail.push .tableColumns none))
  columnSettings {v' : Json} : c.member? "column_settings" = some v' →
    ∃ v u : Json, s.member? "column_settings" = some v ∧ u ∈ v.onMembers (columnClick V trail) ∧
      v' ∈ u.onObj (V (trail.push .columnSettings none))
  click {v' : Json} : c.member? "click_behavior" = some v' →
    ∃ v : Json, v' ∈ v.onObj (V (trail.push .clickBehavior none))

theorem mem_settings {trail : Trail} {s s' : Json} (h : s' ∈ settings V trail s) :
    ∃ c, SettingsWalked V (trail.push .visualizationSettings none) s c ∧
      s' ∈ V (trail.push .visualizationSettings none) c := by
  rw [settings] at h
  obtain ⟨a, ha, h⟩ := Json.mem_bind.1 h
  obtain ⟨b, hb, h⟩ := Json.mem_bind.1 h
  obtain ⟨c, hc, h⟩ := Json.mem_bind.1 h
  obtain ⟨d, hd, h⟩ := Json.mem_bind.1 h
  obtain ⟨e, he, h⟩ := Json.mem_bind.1 h
  have hcolumns {key : String} (hkey : key ≠ "column_settings") : d.member? key = b.member? key :=
    (Json.member?_of_mem_onMember hkey hd).trans (Json.member?_of_mem_onMember hkey hc)
  refine ⟨e, ⟨fun {v'} hv => ?_, fun {v'} hv => ?_, fun {v'} hv => ?_, fun {v'} hv => ?_⟩, h⟩
  · rw [Json.member?_of_mem_onMember (by decide) he, hcolumns (by decide),
      Json.member?_of_mem_onMember (by decide) hb] at hv
    obtain ⟨v, -, hv⟩ := Json.mem_of_mem_onMember ha hv
    exact ⟨v, hv⟩
  · rw [Json.member?_of_mem_onMember (by decide) he, hcolumns (by decide)] at hv
    obtain ⟨v, hmember, hv⟩ := Json.mem_of_mem_onMember hb hv
    exact ⟨v, by rwa [← Json.member?_of_mem_onMember (by decide) ha], hv⟩
  · rw [Json.member?_of_mem_onMember (by decide) he] at hv
    obtain ⟨u, hu, hv⟩ := Json.mem_of_mem_onMember hd hv
    obtain ⟨v, hmember, hu⟩ := Json.mem_of_mem_onMember hc hu
    refine ⟨v, u, ?_, hu, hv⟩
    rwa [Json.member?_of_mem_onMember (by decide) hb, Json.member?_of_mem_onMember (by decide) ha]
      at hmember
  · obtain ⟨v, -, hv⟩ := Json.mem_of_mem_onMember he hv
    exact ⟨v, hv⟩

/-! ## Cards -/

/-- What has been made of a card `j` when it is visited itself, as `c`. -/
structure CardWalked (V : Trail → Json → Set Json) (trail : Trail) (j c : Json) : Prop where
  settings {v' : Json} : c.member? "visualization_settings" = some v' →
    ∃ v : Json, j.member? "visualization_settings" = some v ∧ v' ∈ v.onObj (settings V trail)
  query {q' : Json} : c.query? = some q' → ∃ q : Json, q' ∈ q.onObj (query V trail)
  mappings {v' : Json} : c.member? "parameter_mappings" = some v' →
    ∃ v : Json, v' ∈ v.onItems (Json.onObj (V (trail.push .parameterMapping none)))

theorem mem_card {trail : Trail} {j j' : Json} (h : j' ∈ card V trail j) :
    ∃ title c, CardWalked V (trail.push .card title) j c ∧ j' ∈ V (trail.push .card title) c := by
  rw [card] at h
  obtain ⟨a, ha, h⟩ := Json.mem_bind.1 h
  obtain ⟨b, hb, h⟩ := Json.mem_bind.1 h
  obtain ⟨c, hc, h⟩ := Json.mem_bind.1 h
  refine ⟨_, c, ⟨fun {v'} hv => ?_, fun {q'} hq => ?_, fun {v'} hv => ?_⟩, h⟩
  · rw [Json.member?_of_mem_onMember (by decide) hc, Json.member?_of_mem_onMember (by decide) hb] at hv
    exact Json.mem_of_mem_onMember ha hv
  · obtain ⟨d', hd', hq'⟩ := Option.bind_eq_some_iff.1 hq
    rw [Json.member?_of_mem_onMember (by decide) hc] at hd'
    obtain ⟨d, -, hd⟩ := Json.mem_of_mem_onMember hb hd'
    obtain ⟨q, -, hq⟩ := Json.mem_of_mem_onMember hd hq'
    exact ⟨q, hq⟩
  · obtain ⟨v, -, hv⟩ := Json.mem_of_mem_onMember hc hv
    exact ⟨v, hv⟩

/-! ## Dashboards -/

/-- What has been made of a dashboard `j` when it is visited itself, as `d`. -/
structure DashboardWalked (V : Trail → Json → Set Json) (trail : Trail) (j d : Json) : Prop where
  dashcards {v' : Json} : d.member? "dashcards" = some v' →
    ∃ v : Json, j.member? "dashcards" = some v ∧ v' ∈ v.onItems (Json.onObj (card V trail))
  tabs {v' : Json} : d.member? "tabs" = some v' → ∃ v : Json, v' ∈ v.onArr (V (trail.push .tabs none))
  parameters {v' : Json} : d.member? "parameters" = some v' →
    ∃ v : Json, v' ∈ v.onItems (Json.onObj (parameter V trail))
  values {v' : Json} : d.member? "param_values" = some v' →
    ∃ v : Json, v' ∈ v.unlessNull (V (trail.push .paramValues none))
  fields {v' : Json} : d.member? "param_fields" = some v' →
    ∃ v : Json, v' ∈ v.unlessNull (V (trail.push .paramFields none))

theorem mem_dashboard {trail : Trail} {j j' : Json} (h : j' ∈ dashboard V trail j) :
    ∃ title d, DashboardWalked V (trail.push .dashboard title) j d ∧
      j' ∈ V (trail.push .dashboard title) d := by
  rw [dashboard] at h
  obtain ⟨a, ha, h⟩ := Json.mem_bind.1 h
  obtain ⟨b, hb, h⟩ := Json.mem_bind.1 h
  obtain ⟨c, hc, h⟩ := Json.mem_bind.1 h
  obtain ⟨d, hd, h⟩ := Json.mem_bind.1 h
  obtain ⟨e, he, h⟩ := Json.mem_bind.1 h
  have hlast {key : String} (hkey : key ≠ "param_values") (hkey' : key ≠ "param_fields") :
      e.member? key = c.member? key :=
    (Json.member?_of_mem_onMember hkey' he).trans (Json.member?_of_mem_onMember hkey hd)
  refine ⟨_, e, ⟨fun {v'} hv => ?_, fun {v'} hv => ?_, fun {v'} hv => ?_, fun {v'} hv => ?_,
    fun {v'} hv => ?_⟩, h⟩
  · rw [hlast (by decide) (by decide), Json.member?_of_mem_onMember (by decide) hc,
      Json.member?_of_mem_onMember (by decide) hb] at hv
    exact Json.mem_of_mem_onMember ha hv
  · rw [hlast (by decide) (by decide), Json.member?_of_mem_onMember (by decide) hc] at hv
    obtain ⟨v, -, hv⟩ := Json.mem_of_mem_onMember hb hv
    exact ⟨v, hv⟩
  · rw [hlast (by decide) (by decide)] at hv
    obtain ⟨v, -, hv⟩ := Json.mem_of_mem_onMember hc hv
    exact ⟨v, hv⟩
  · rw [Json.member?_of_mem_onMember (by decide) he] at hv
    obtain ⟨v, -, hv⟩ := Json.mem_of_mem_onMember hd hv
    exact ⟨v, hv⟩
  · obtain ⟨v, -, hv⟩ := Json.mem_of_mem_onMember he hv
    exact ⟨v, hv⟩

end Walk

end Rehome
