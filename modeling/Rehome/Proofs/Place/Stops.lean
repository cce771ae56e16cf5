import Rehome.Proofs.Json.Update
import Rehome.Proofs.Place.Visits

/-! # The stops of a walk

Which places a document has, and where, is settled before it is walked. `Walk.Holds` says which places are
directly inside of a place and which frames lead to them, and `Walk.PlaceAt` what can be reached that way.
`Walk.documentStops` lists the same places in the order in which they are to be visited, each after all places
inside of it (`mem_documentStops`, `childrenFirst_documentStops`). -/

namespace Rehome

theorem Json.WellFormed.nodup_keys {j : Json} (hj : j.WellFormed) : j.keys.Nodup := by
  cases j with
  | obj members => exact hj.1
  | _ => exact List.nodup_nil

namespace Walk

/-- A place to be visited: its trail, where it is, and what the document has there. -/
structure Stop where
  trail : Trail
  position : Position
  place : Json

/-- The same stop, told from what its part is a part of. -/
def Stop.under (step : Step) (s : Stop) : Stop := { s with position := step :: s.position }

/-- The same stop, told from further out. -/
def Stop.within (front : Position) (s : Stop) : Stop := { s with position := front ++ s.position }

/-! ## Lists of stops -/

/-- A place itself. -/
def here (trail : Trail) (j : Json) : List Stop := [⟨trail, [], j⟩]

def ifObj (stops : Json → List Stop) (j : Json) : List Stop := if j.isObj then stops j else []

def ifArr (stops : Json → List Stop) (j : Json) : List Stop := if j.isArr then stops j else []

def unlessNull (stops : Json → List Stop) (j : Json) : List Stop := if j = .null then [] else stops j

/-- The stops in what a step leads to. -/
def inside (step : Step) (stops : Json → List Stop) (j : Json) : List Stop :=
  match j.step? step with
  | some v => (stops v).map (Stop.under step)
  | none => []

/-- The stops in each member. -/
def inMembers (stops : String → Json → List Stop) (j : Json) : List Stop :=
  j.keys.flatMap fun key => inside (.member key) (stops key) j

/-- The stops in each item. -/
def inItems (stops : Json → List Stop) : Json → List Stop
  | .arr items => items.zipIdx.flatMap fun e => (stops e.1).map (Stop.under (.item e.2))
  | _ => []

/-! ## Queries -/

mutual

/-- A query part: its nested query, its joins, then the query part itself. -/
def queryStops (trail : Trail) : Json → List Stop
  | .obj members => nestedStops trail members ++ joinsStops trail members ++ here trail (.obj members)
  | j => here trail j

def nestedStops (trail : Trail) : List (String × Json) → List Stop
  | [] => []
  | (k, j) :: rest =>
    if k = "source-query" then
      if j.isObj then (queryStops (trail.push .queryPart none) j).map (Stop.under (.member "source-query"))
      else []
    else nestedStops trail rest

def joinsStops (trail : Trail) : List (String × Json) → List Stop
  | [] => []
  | (k, j) :: rest =>
    if k = "joins" then (joinListStops trail j).map (Stop.under (.member "joins"))
    else joinsStops trail rest

def joinListStops (trail : Trail) : Json → List Stop
  | .arr items => joinStopsFrom trail 0 items
  | _ => []

/-- The stops in joins, the first of which has this index. -/
def joinStopsFrom (trail : Trail) (n : Nat) : List Json → List Stop
  | [] => []
  | j :: rest =>
    (if j.isObj then (joinStops (trail.push .join (j.text? "alias")) j).map (Stop.under (.item n)) else []) ++
      joinStopsFrom trail (n + 1) rest

/-- A join: its nested query, then the join itself. -/
def joinStops (trail : Trail) : Json → List Stop
  | .obj members => nestedStops trail members ++ here trail (.obj members)
  | j => here trail j

end

/-! ## Cards and dashboards -/

/-- Settings: series, table columns, the clicks of columns, columns, the click, then the settings. -/
def settingsStops (trail : Trail) (s : Json) : List Stop :=
  inside (.member "series_settings") (ifObj (here (trail.push .seriesSettings none))) s ++
  (inside (.member "table.columns") (ifArr (here (trail.push .tableColumns none))) s ++
  (inside (.member "column_settings") (fun columns =>
    inMembers (fun key => inside (.member "click_behavior")
      (ifObj (here ((trail.push .columnSettings (some key)).push .clickBehavior none)))) columns ++
    ifObj (here (trail.push .columnSettings none)) columns) s ++
  (inside (.member "click_behavior") (ifObj (here (trail.push .clickBehavior none))) s ++
  here trail s)))

/-- A card or dashcard: its settings, its query, its parameter mappings, then the card itself. -/
def cardStops (trail : Trail) (c : Json) : List Stop :=
  inside (.member "visualization_settings")
    (ifObj (settingsStops (trail.push .visualizationSettings none))) c ++
  (inside (.member "dataset_query")
    (inside (.member "query") (ifObj (queryStops (trail.push .queryPart none)))) c ++
  (inside (.member "parameter_mappings") (inItems (ifObj (here (trail.push .parameterMapping none)))) c ++
  here trail c))

/-- A dashboard: its dashcards, tabs, parameters, their values and fields, then the dashboard. -/
def dashboardStops (trail : Trail) (d : Json) : List Stop :=
  inside (.member "dashcards") (inItems (ifObj fun c => cardStops (trail.push .card (cardTitle c)) c)) d ++
  (inside (.member "tabs") (ifArr (here (trail.push .tabs none))) d ++
  (inside (.member "parameters")
    (inItems (ifObj fun p => here (trail.push .parameter (p.text? "name")) p)) d ++
  (inside (.member "param_values") (unlessNull (here (trail.push .paramValues none))) d ++
  (inside (.member "param_fields") (unlessNull (here (trail.push .paramFields none))) d ++
  here trail d))))

/-- The trail of a document that is walked inside of some places. -/
def documentTrail (kind : EntityKind) (trail : Trail) (d : Json) : Trail :=
  match kind with
  | .card => trail.push .card (cardTitle d)
  | .dashboard => trail.push .dashboard (d.text? "name")

/-- The stops in a place, the place itself being the last one. -/
def stopsOf (trail : Trail) (j : Json) : List Stop :=
  match trail.kind? with
  | some .visualizationSettings => settingsStops trail j
  | some .queryPart => queryStops trail j
  | some .join => joinStops trail j
  | some .card => cardStops trail j
  | some .dashboard => dashboardStops trail j
  | _ => here trail j

/-- The stops in a document, in the order of their visits. -/
def documentStops (kind : EntityKind) (trail : Trail) (d : Json) : List Stop :=
  stopsOf (documentTrail kind trail d) d

/-! ## Places inside of places -/

/-- `Holds k j p frames v` holds when a place `j` of kind `k` has a place `v` directly inside of it, at the
position `p`; its trail is that of `j` with some frames added. -/
inductive Holds : PlaceKind → Json → Position → Trail → Json → Prop
  | series {s v : Json} : s.member? "series_settings" = some v → v.isObj →
    Holds .visualizationSettings s [.member "series_settings"] [⟨.seriesSettings, none⟩] v
  | tableColumns {s v : Json} : s.member? "table.columns" = some v → v.isArr →
    Holds .visualizationSettings s [.member "table.columns"] [⟨.tableColumns, none⟩] v
  | columnClick {s columns column v : Json} {key : String} : s.member? "column_settings" = some columns →
    columns.member? key = some column → column.member? "click_behavior" = some v → v.isObj →
    Holds .visualizationSettings s [.member "column_settings", .member key, .member "click_behavior"]
      [⟨.clickBehavior, none⟩, ⟨.columnSettings, some key⟩] v
  | columns {s v : Json} : s.member? "column_settings" = some v → v.isObj →
    Holds .visualizationSettings s [.member "column_settings"] [⟨.columnSettings, none⟩] v
  | click {s v : Json} : s.member? "click_behavior" = some v → v.isObj →
    Holds .visualizationSettings s [.member "click_behavior"] [⟨.clickBehavior, none⟩] v
  | nestedQuery {k : PlaceKind} {q v : Json} : k = .queryPart ∨ k = .join →
    q.member? "source-query" = some v → v.isObj →
    Holds k q [.member "source-query"] [⟨.queryPart, none⟩] v
  | join {q joins v : Json} {n : Nat} : q.member? "joins" = some joins → joins.item? n = some v → v.isObj →
    Holds .queryPart q [.member "joins", .item n] [⟨.join, v.text? "alias"⟩] v
  | settings {c v : Json} : c.member? "visualization_settings" = some v → v.isObj →
    Holds .card c [.member "visualization_settings"] [⟨.visualizationSettings, none⟩] v
  | query {c q v : Json} : c.member? "dataset_query" = some q → q.member? "query" = some v → v.isObj →
    Holds .card c [.member "dataset_query", .member "query"] [⟨.queryPart, none⟩] v
  | parameterMapping {c items v : Json} {n : Nat} : c.member? "parameter_mappings" = some items →
    items.item? n = some v → v.isObj →
    Holds .card c [.member "parameter_mappings", .item n] [⟨.parameterMapping, none⟩] v
  | dashcard {d items v : Json} {n : Nat} : d.member? "dashcards" = some items → items.item? n = some v →
    v.isObj → Holds .dashboard d [.member "dashcards", .item n] [⟨.card, cardTitle v⟩] v
  | tabs {d v : Json} : d.member? "tabs" = some v → v.isArr →
    Holds .dashboard d [.member "tabs"] [⟨.tabs, none⟩] v
  | parameter {d items v : Json} {n : Nat} : d.member? "parameters" = some items → items.item? n = some v →
    v.isObj → Holds .dashboard d [.member "parameters", .item n] [⟨.parameter, v.text? "name"⟩] v
  | values {d v : Json} : d.member? "param_values" = some v → v ≠ .null →
    Holds .dashboard d [.member "param_values"] [⟨.paramValues, none⟩] v
  | fields {d v : Json} : d.member? "param_fields" = some v → v ≠ .null →
    Holds .dashboard d [.member "param_fields"] [⟨.paramFields, none⟩] v

/-- `PlaceAt trail j stop` holds when the stop is at the place `j` with this trail or at one inside of it. -/
inductive PlaceAt : Trail → Json → Stop → Prop
  | self (trail : Trail) (j : Json) : PlaceAt trail j ⟨trail, [], j⟩
  | inside {trail frames : Trail} {k : PlaceKind} {j v : Json} {p : Position} {stop : Stop} :
    trail.kind? = some k → Holds k j p frames v → PlaceAt (frames ++ trail) v stop →
    PlaceAt trail j (stop.within p)

/-- The places of a document that is walked inside of some places. -/
def DocumentPlaceAt (kind : EntityKind) (trail : Trail) (d : Json) (stop : Stop) : Prop :=
  PlaceAt (documentTrail kind trail d) d stop

/-! ## Members of the lists -/

section Members

variable {trail : Trail} {stop : Stop} {stops : Json → List Stop} {j : Json}

theorem mem_here : stop ∈ here trail j ↔ stop = ⟨trail, [], j⟩ := List.mem_singleton

theorem mem_ifObj : stop ∈ ifObj stops j ↔ j.isObj ∧ stop ∈ stops j := by
  rw [ifObj]
  split
  · next h => simp [h]
  · next h => simp [h]

theorem mem_ifArr : stop ∈ ifArr stops j ↔ j.isArr ∧ stop ∈ stops j := by
  rw [ifArr]
  split
  · next h => simp [h]
  · next h => simp [h]

theorem mem_unlessNull : stop ∈ unlessNull stops j ↔ j ≠ .null ∧ stop ∈ stops j := by
  rw [unlessNull]
  split
  · next h => simp [h]
  · next h => simp [h]

theorem mem_inside {step : Step} :
    stop ∈ inside step stops j ↔ ∃ v, j.step? step = some v ∧ ∃ s ∈ stops v, s.under step = stop := by
  rw [inside]
  split
  · next v hv => simp [hv]
  · next hv => simp [hv]

theorem mem_inMembers {stops : String → Json → List Stop} : stop ∈ inMembers stops j ↔
    ∃ key v, j.member? key = some v ∧ ∃ s ∈ stops key v, s.under (.member key) = stop := by
  rw [inMembers, List.mem_flatMap]
  constructor
  · rintro ⟨key, -, hstop⟩
    exact ⟨key, mem_inside.1 hstop⟩
  · rintro ⟨key, v, hv, hstop⟩
    refine ⟨key, ?_, mem_inside.2 ⟨v, hv, hstop⟩⟩
    cases j with
    | obj members => exact List.mem_map_of_mem (Assoc.mem_of_lookup hv)
    | _ => cases hv

theorem mem_inItems : stop ∈ inItems stops j ↔
    ∃ n v, j.item? n = some v ∧ ∃ s ∈ stops v, s.under (.item n) = stop := by
  cases j with
  | arr items =>
    simp only [inItems, List.mem_flatMap, List.mem_map, Prod.exists, List.mem_zipIdx_iff_getElem?]
    exact exists_comm
  | _ => simp [inItems, Json.item?]

theorem mem_inside_ifObj {step : Step} : stop ∈ inside step (ifObj stops) j ↔
    ∃ v, j.step? step = some v ∧ v.isObj ∧ ∃ s ∈ stops v, s.under step = stop := by
  simp only [mem_inside, mem_ifObj, and_assoc, exists_and_left]

theorem mem_inItems_ifObj : stop ∈ inItems (ifObj stops) j ↔
    ∃ n v, j.item? n = some v ∧ v.isObj ∧ ∃ s ∈ stops v, s.under (.item n) = stop := by
  simp only [mem_inItems, mem_ifObj, and_assoc, exists_and_left]

theorem mem_inside_inItems {key : String} : stop ∈ inside (.member key) (inItems (ifObj stops)) j ↔
    ∃ items n v, j.member? key = some items ∧ items.item? n = some v ∧ v.isObj ∧
      ∃ s ∈ stops v, s.within [.member key, .item n] = stop := by
  rw [mem_inside]
  constructor
  · rintro ⟨items, hitems, s, hs, rfl⟩
    obtain ⟨n, v, hv, hobj, inner, hinner, rfl⟩ := mem_inItems_ifObj.1 hs
    exact ⟨items, n, v, hitems, hv, hobj, inner, hinner, rfl⟩
  · rintro ⟨items, n, v, hitems, hv, hobj, inner, hinner, rfl⟩
    exact ⟨items, hitems, _, mem_inItems_ifObj.2 ⟨n, v, hv, hobj, inner, hinner, rfl⟩, rfl⟩

end Members

/-! ## Queries by their members -/

theorem nestedStops_eq (trail : Trail) (members : List (String × Json)) :
    nestedStops trail members =
      inside (.member "source-query") (ifObj (queryStops (trail.push .queryPart none))) (.obj members) := by
  induction members with
  | nil => rfl
  | cons e rest ih =>
    obtain ⟨k, j⟩ := e
    rw [nestedStops, inside, Json.step?, Json.member?, Assoc.lookup_cons]
    by_cases hk : k = "source-query"
    · rw [if_pos hk, if_pos hk.symm]
      cases hobj : j.isObj <;> simp [ifObj, hobj]
    · rw [if_neg hk, if_neg (Ne.symm hk), ih]
      rfl

theorem joinStopsFrom_eq (trail : Trail) (n : Nat) (items : List Json) :
    joinStopsFrom trail n items = (items.zipIdx n).flatMap fun e =>
      (ifObj (fun v => joinStops (trail.push .join (v.text? "alias")) v) e.1).map (Stop.under (.item e.2)) := by
  induction items generalizing n with
  | nil => rfl
  | cons j rest ih =>
    rw [joinStopsFrom, List.zipIdx_cons, List.flatMap_cons, ih]
    cases hobj : j.isObj <;> simp [ifObj, hobj]

theorem joinsStops_eq (trail : Trail) (members : List (String × Json)) :
    joinsStops trail members = inside (.member "joins")
      (inItems (ifObj fun v => joinStops (trail.push .join (v.text? "alias")) v)) (.obj members) := by
  induction members with
  | nil => rfl
  | cons e rest ih =>
    obtain ⟨k, j⟩ := e
    rw [joinsStops, inside, Json.step?, Json.member?, Assoc.lookup_cons]
    by_cases hk : k = "joins"
    · rw [if_pos hk, if_pos hk.symm]
      cases j with
      | arr items =>
        rw [joinListStops, joinStopsFrom_eq]
        rfl
      | _ => rfl
    · rw [if_neg hk, if_neg (Ne.symm hk), ih]
      rfl

theorem queryStops_eq (trail : Trail) (q : Json) : queryStops trail q =
    inside (.member "source-query") (ifObj (queryStops (trail.push .queryPart none))) q ++
    (inside (.member "joins")
      (inItems (ifObj fun v => joinStops (trail.push .join (v.text? "alias")) v)) q ++ here trail q) := by
  cases q with
  | obj members => rw [queryStops, nestedStops_eq, joinsStops_eq, List.append_assoc]
  | _ => rfl

theorem joinStops_eq (trail : Trail) (q : Json) : joinStops trail q =
    inside (.member "source-query") (ifObj (queryStops (trail.push .queryPart none))) q ++ here trail q := by
  cases q with
  | obj members => rw [joinStops, nestedStops_eq]
  | _ => rfl

/-! ## The places are the stops -/

section Places

variable {trail : Trail} {stop : Stop} {j : Json}

/-- The position of a place inside of another one is not that of the other one. -/
theorem Holds.ne_nil {k : PlaceKind} {p : Position} {frames : Trail} {v : Json}
    (h : Holds k j p frames v) : p ≠ [] := by
  cases h <;> exact List.cons_ne_nil _ _

theorem Holds.at? {k : PlaceKind} {p : Position} {frames : Trail} {v : Json}
    (h : Holds k j p frames v) : j.at? p = some v := by
  cases h <;> simp_all [Json.at?_cons, Json.step?]

/-- The stops in a place that is inside of another one. -/
theorem Holds.mem_stopsOf {k : PlaceKind} {p : Position} {frames : Trail} {v : Json} {inner : Stop}
    (hk : trail.kind? = some k) (h : Holds k j p frames v) (hinner : inner ∈ stopsOf (frames ++ trail) v) :
    inner.within p ∈ stopsOf trail j := by
  rw [stopsOf, hk]
  cases h with
  | series hv hobj =>
    exact List.mem_append_left _ (mem_inside_ifObj.2 ⟨v, hv, hobj, inner, hinner, rfl⟩)
  | tableColumns hv harr =>
    refine List.mem_append_right _ (List.mem_append_left _ ?_)
    exact mem_inside.2 ⟨v, hv, inner, mem_ifArr.2 ⟨harr, hinner⟩, rfl⟩
  | @columnClick _ columns column _ key hcolumns hcolumn hv hobj =>
    refine List.mem_append_right _ (List.mem_append_right _ (List.mem_append_left _ ?_))
    have hclick : inner.within [.member "click_behavior"] ∈ inside (.member "click_behavior")
        (ifObj (here ((trail.push .columnSettings (some key)).push .clickBehavior none))) column :=
      mem_inside_ifObj.2 ⟨v, hv, hobj, inner, hinner, rfl⟩
    refine mem_inside.2 ⟨columns, hcolumns, inner.within [.member key, .member "click_behavior"], ?_, rfl⟩
    exact List.mem_append_left _ (mem_inMembers.2 ⟨key, column, hcolumn, _, hclick, rfl⟩)
  | columns hv hobj =>
    refine List.mem_append_right _ (List.mem_append_right _ (List.mem_append_left _ ?_))
    exact mem_inside.2 ⟨v, hv, inner, List.mem_append_right _ (mem_ifObj.2 ⟨hobj, hinner⟩), rfl⟩
  | click hv hobj =>
    refine List.mem_append_right _ (List.mem_append_right _ (List.mem_append_right _ ?_))
    exact List.mem_append_left _ (mem_inside_ifObj.2 ⟨v, hv, hobj, inner, hinner, rfl⟩)
  | nestedQuery hor hv hobj =>
    have hnested : inner.within [.member "source-query"] ∈
        inside (.member "source-query") (ifObj (queryStops (trail.push .queryPart none))) j :=
      mem_inside_ifObj.2 ⟨v, hv, hobj, inner, hinner, rfl⟩
    rcases hor with rfl | rfl
    · dsimp only
      rw [queryStops_eq]
      exact List.mem_append_left _ hnested
    · dsimp only
      rw [joinStops_eq]
      exact List.mem_append_left _ hnested
  | @join _ joins _ n hjoins hv hobj =>
    dsimp only
    rw [queryStops_eq]
    refine List.mem_append_right _ (List.mem_append_left _ ?_)
    exact mem_inside_inItems.2 ⟨joins, n, v, hjoins, hv, hobj, inner, hinner, rfl⟩
  | settings hv hobj =>
    exact List.mem_append_left _ (mem_inside_ifObj.2 ⟨v, hv, hobj, inner, hinner, rfl⟩)
  | @query _ q _ hq hv hobj =>
    refine List.mem_append_right _ (List.mem_append_left _ ?_)
    exact mem_inside.2 ⟨q, hq, _, mem_inside_ifObj.2 ⟨v, hv, hobj, inner, hinner, rfl⟩, rfl⟩
  | @parameterMapping _ items _ n hitems hv hobj =>
    refine List.mem_append_right _ (List.mem_append_right _ (List.mem_append_left _ ?_))
    exact mem_inside_inItems.2 ⟨items, n, v, hitems, hv, hobj, inner, hinner, rfl⟩
  | @dashcard _ items _ n hitems hv hobj =>
    exact List.mem_append_left _ (mem_inside_inItems.2 ⟨items, n, v, hitems, hv, hobj, inner, hinner, rfl⟩)
  | tabs hv harr =>
    refine List.mem_append_right _ (List.mem_append_left _ ?_)
    exact mem_inside.2 ⟨v, hv, inner, mem_ifArr.2 ⟨harr, hinner⟩, rfl⟩
  | @parameter _ items _ n hitems hv hobj =>
    refine List.mem_append_right _ (List.mem_append_right _ (List.mem_append_left _ ?_))
    exact mem_inside_inItems.2 ⟨items, n, v, hitems, hv, hobj, inner, hinner, rfl⟩
  | values hv hnull =>
    refine List.mem_append_right _ (List.mem_append_right _ (List.mem_append_right _ ?_))
    refine List.mem_append_left _ ?_
    exact mem_inside.2 ⟨v, hv, inner, mem_unlessNull.2 ⟨hnull, hinner⟩, rfl⟩
  | fields hv hnull =>
    refine List.mem_append_right _ (List.mem_append_right _ (List.mem_append_right _ ?_))
    refine List.mem_append_right _ (List.mem_append_left _ ?_)
    exact mem_inside.2 ⟨v, hv, inner, mem_unlessNull.2 ⟨hnull, hinner⟩, rfl⟩

/-- The stop is in a place that is directly inside of the place. -/
def Inner (trail : Trail) (j : Json) (stop : Stop) : Prop :=
  ∃ k p frames v inner, trail.kind? = some k ∧ Holds k j p frames v ∧
    inner ∈ stopsOf (frames ++ trail) v ∧ inner.within p = stop

theorem inner_of_mem_nested {k : PlaceKind} (hk : trail.kind? = some k) (hor : k = .queryPart ∨ k = .join)
    (h : stop ∈ inside (.member "source-query") (ifObj (queryStops (trail.push .queryPart none))) j) :
    Inner trail j stop := by
  obtain ⟨v, hv, hobj, inner, hinner, rfl⟩ := mem_inside_ifObj.1 h
  exact ⟨k, _, _, v, inner, hk, .nestedQuery hor hv hobj, hinner, rfl⟩

theorem inner_of_mem_queryStops (hk : trail.kind? = some .queryPart) (h : stop ∈ queryStops trail j) :
    stop = ⟨trail, [], j⟩ ∨ Inner trail j stop := by
  rw [queryStops_eq] at h
  rcases List.mem_append.1 h with h | h
  · exact .inr (inner_of_mem_nested hk (.inl rfl) h)
  rcases List.mem_append.1 h with h | h
  · obtain ⟨joins, n, v, hjoins, hv, hobj, inner, hinner, rfl⟩ := mem_inside_inItems.1 h
    exact .inr ⟨_, _, _, v, inner, hk, .join hjoins hv hobj, hinner, rfl⟩
  · exact .inl (mem_here.1 h)

theorem inner_of_mem_joinStops (hk : trail.kind? = some .join) (h : stop ∈ joinStops trail j) :
    stop = ⟨trail, [], j⟩ ∨ Inner trail j stop := by
  rw [joinStops_eq] at h
  rcases List.mem_append.1 h with h | h
  · exact .inr (inner_of_mem_nested hk (.inr rfl) h)
  · exact .inl (mem_here.1 h)

theorem inner_of_mem_settingsStops (hk : trail.kind? = some .visualizationSettings)
    (h : stop ∈ settingsStops trail j) : stop = ⟨trail, [], j⟩ ∨ Inner trail j stop := by
  rcases List.mem_append.1 h with h | h
  · obtain ⟨v, hv, hobj, inner, hinner, rfl⟩ := mem_inside_ifObj.1 h
    exact .inr ⟨_, _, _, v, inner, hk, .series hv hobj, hinner, rfl⟩
  rcases List.mem_append.1 h with h | h
  · obtain ⟨v, hv, inner, hmem, rfl⟩ := mem_inside.1 h
    obtain ⟨harr, hinner⟩ := mem_ifArr.1 hmem
    exact .inr ⟨_, _, _, v, inner, hk, .tableColumns hv harr, hinner, rfl⟩
  rcases List.mem_append.1 h with h | h
  · obtain ⟨columns, hcolumns, s, hs, rfl⟩ := mem_inside.1 h
    rcases List.mem_append.1 hs with hclick | hcolumn
    · obtain ⟨key, column, hcolumn, t, ht, rfl⟩ := mem_inMembers.1 hclick
      obtain ⟨v, hv, hobj, inner, hinner, rfl⟩ := mem_inside_ifObj.1 ht
      exact .inr ⟨_, _, _, v, inner, hk, .columnClick hcolumns hcolumn hv hobj, hinner, rfl⟩
    · obtain ⟨hobj, hinner⟩ := mem_ifObj.1 hcolumn
      exact .inr ⟨_, _, _, columns, s, hk, .columns hcolumns hobj, hinner, rfl⟩
  rcases List.mem_append.1 h with h | h
  · obtain ⟨v, hv, hobj, inner, hinner, rfl⟩ := mem_inside_ifObj.1 h
    exact .inr ⟨_, _, _, v, inner, hk, .click hv hobj, hinner, rfl⟩
  · exact .inl (mem_here.1 h)

theorem inner_of_mem_cardStops (hk : trail.kind? = some .card) (h : stop ∈ cardStops trail j) :
    stop = ⟨trail, [], j⟩ ∨ Inner trail j stop := by
  rcases List.mem_append.1 h with h | h
  · obtain ⟨v, hv, hobj, inner, hinner, rfl⟩ := mem_inside_ifObj.1 h
    exact .inr ⟨_, _, _, v, inner, hk, .settings hv hobj, hinner, rfl⟩
  rcases List.mem_append.1 h with h | h
  · obtain ⟨q, hq, s, hs, rfl⟩ := mem_inside.1 h
    obtain ⟨v, hv, hobj, inner, hinner, rfl⟩ := mem_inside_ifObj.1 hs
    exact .inr ⟨_, _, _, v, inner, hk, .query hq hv hobj, hinner, rfl⟩
  rcases List.mem_append.1 h with h | h
  · obtain ⟨items, n, v, hitems, hv, hobj, inner, hinner, rfl⟩ := mem_inside_inItems.1 h
    exact .inr ⟨_, _, _, v, inner, hk, .parameterMapping hitems hv hobj, hinner, rfl⟩
  · exact .inl (mem_here.1 h)

theorem inner_of_mem_dashboardStops (hk : trail.kind? = some .dashboard) (h : stop ∈ dashboardStops trail j) :
    stop = ⟨trail, [], j⟩ ∨ Inner trail j stop := by
  rcases List.mem_append.1 h with h | h
  · obtain ⟨items, n, v, hitems, hv, hobj, inner, hinner, rfl⟩ := mem_inside_inItems.1 h
    exact .inr ⟨_, _, _, v, inner, hk, .dashcard hitems hv hobj, hinner, rfl⟩
  rcases List.mem_append.1 h with h | h
  · obtain ⟨v, hv, inner, hmem, rfl⟩ := mem_inside.1 h
    obtain ⟨harr, hinner⟩ := mem_ifArr.1 hmem
    exact .inr ⟨_, _, _, v, inner, hk, .tabs hv harr, hinner, rfl⟩
  rcases List.mem_append.1 h with h | h
  · obtain ⟨items, n, v, hitems, hv, hobj, inner, hinner, rfl⟩ := mem_inside_inItems.1 h
    exact .inr ⟨_, _, _, v, inner, hk, .parameter hitems hv hobj, hinner, rfl⟩
  rcases List.mem_append.1 h with h | h
  · obtain ⟨v, hv, inner, hmem, rfl⟩ := mem_inside.1 h
    obtain ⟨hnull, hinner⟩ := mem_unlessNull.1 hmem
    exact .inr ⟨_, _, _, v, inner, hk, .values hv hnull, hinner, rfl⟩
  rcases List.mem_append.1 h with h | h
  · obtain ⟨v, hv, inner, hmem, rfl⟩ := mem_inside.1 h
    obtain ⟨hnull, hinner⟩ := mem_unlessNull.1 hmem
    exact .inr ⟨_, _, _, v, inner, hk, .fields hv hnull, hinner, rfl⟩
  · exact .inl (mem_here.1 h)

/-- A stop in a place is at the place itself, or in a place that is directly inside of it. -/
theorem inner_of_mem_stopsOf (h : stop ∈ stopsOf trail j) :
    stop = ⟨trail, [], j⟩ ∨ Inner trail j stop := by
  rw [stopsOf] at h
  split at h
  · next hk => exact inner_of_mem_settingsStops hk h
  · next hk => exact inner_of_mem_queryStops hk h
  · next hk => exact inner_of_mem_joinStops hk h
  · next hk => exact inner_of_mem_cardStops hk h
  · next hk => exact inner_of_mem_dashboardStops hk h
  · exact .inl (mem_here.1 h)

theorem self_mem_stopsOf (trail : Trail) (j : Json) : ⟨trail, [], j⟩ ∈ stopsOf trail j := by
  have hhere : (⟨trail, [], j⟩ : Stop) ∈ here trail j := mem_here.2 rfl
  rw [stopsOf, queryStops_eq, joinStops_eq, settingsStops, cardStops, dashboardStops]
  split <;> simp only [List.mem_append, hhere, or_true]

/-- The stops in a place are at the places that can be reached from it. -/
theorem mem_stopsOf : stop ∈ stopsOf trail j ↔ PlaceAt trail j stop := by
  constructor
  · intro h
    -- the position of a stop in an inner place gets shorter when it is told from there
    induction hlength : stop.position.length using Nat.strong_induction_on generalizing trail j stop with
    | _ n ih =>
      subst hlength
      obtain rfl | ⟨k, p, frames, v, inner, hk, hholds, hinner, rfl⟩ := inner_of_mem_stopsOf h
      · exact .self trail j
      · have hp : 0 < p.length := List.length_pos_iff.2 hholds.ne_nil
        have hshorter : inner.position.length < (inner.within p).position.length := by
          rw [Stop.within, List.length_append]
          omega
        exact .inside hk hholds (ih _ hshorter hinner rfl)
  · intro h
    induction h with
    | self trail j => exact self_mem_stopsOf trail j
    | inside hk hholds _ ih => exact hholds.mem_stopsOf hk ih

end Places

/-- The stops in a document are at its places. -/
theorem mem_documentStops {kind : EntityKind} {trail : Trail} {d : Json} {stop : Stop} :
    stop ∈ documentStops kind trail d ↔ DocumentPlaceAt kind trail d stop :=
  mem_stopsOf

/-! ## Children first -/

/-- No place comes before one that is inside of it, and none comes twice. -/
def ChildrenFirst (stops : List Stop) : Prop := stops.Pairwise fun a b => ¬a.position <+: b.position

section Order

variable {trail : Trail} {j : Json} {step : Step} {stops : Json → List Stop} {front later : List Stop}

/-- The first step to each place is another one. -/
def Avoids (step : Step) (stops : List Stop) : Prop := ∀ s ∈ stops, s.position.head? ≠ some step

theorem avoids_here : Avoids step (here trail j) := by
  intro s hs
  rw [mem_here.1 hs]
  exact nofun

theorem avoids_inside {step' : Step} (h : step' ≠ step) : Avoids step (inside step' stops j) := by
  intro s hs
  obtain ⟨v, -, inner, -, rfl⟩ := mem_inside.1 hs
  exact fun heq => h (Option.some.inj heq)

theorem avoids_append : Avoids step (front ++ later) ↔ Avoids step front ∧ Avoids step later :=
  List.forall_mem_append

theorem childrenFirst_here : ChildrenFirst (here trail j) := List.pairwise_singleton _ _

theorem childrenFirst_ifObj (h : j.isObj → ChildrenFirst (stops j)) : ChildrenFirst (ifObj stops j) := by
  rw [ifObj]
  split
  · next hobj => exact h hobj
  · exact .nil

theorem childrenFirst_ifArr (h : ChildrenFirst (stops j)) : ChildrenFirst (ifArr stops j) := by
  rw [ifArr]
  split
  · exact h
  · exact .nil

theorem childrenFirst_unlessNull (h : ChildrenFirst (stops j)) : ChildrenFirst (unlessNull stops j) := by
  rw [unlessNull]
  split
  · exact .nil
  · exact h

theorem ChildrenFirst.under (h : ChildrenFirst front) : ChildrenFirst (front.map (Stop.under step)) := by
  refine List.pairwise_map.2 (h.imp fun hab hprefix => hab ?_)
  exact (List.cons_prefix_cons.1 hprefix).2

theorem childrenFirst_inside (h : ∀ v, j.step? step = some v → ChildrenFirst (stops v)) :
    ChildrenFirst (inside step stops j) := by
  rw [inside]
  split
  · next v hv => exact (h v hv).under
  · exact .nil

/-- Places inside of one part of a value, and then others. -/
theorem ChildrenFirst.append (h : ∀ v, j.step? step = some v → ChildrenFirst (stops v))
    (hlater : ChildrenFirst later) (havoids : Avoids step later) :
    ChildrenFirst (inside step stops j ++ later) := by
  refine List.pairwise_append.2 ⟨childrenFirst_inside h, hlater, fun a ha b hb hprefix => ?_⟩
  obtain ⟨v, -, inner, -, rfl⟩ := mem_inside.1 ha
  obtain ⟨rest, hrest⟩ := hprefix
  exact havoids b hb (hrest ▸ rfl)

/-- Places in parts to which different steps lead. -/
theorem childrenFirst_flatMap {α : Type} {as : List α} (step : α → Step) {stops : α → List Stop}
    (hdistinct : as.Pairwise fun a b => step a ≠ step b) (h : ∀ a ∈ as, ChildrenFirst (stops a))
    (hstep : ∀ a ∈ as, ∀ s ∈ stops a, s.position.head? = some (step a)) :
    ChildrenFirst (as.flatMap stops) := by
  refine List.pairwise_flatMap.2 ⟨h, ?_⟩
  refine hdistinct.imp_of_mem fun {a b} ha hb hne s hs t ht hprefix => hne ?_
  obtain ⟨rest, hrest⟩ := hprefix
  have hs' := hstep a ha s hs
  have ht' := hstep b hb t ht
  rw [← hrest, List.head?_append, hs'] at ht'
  exact Option.some.inj ht'

theorem childrenFirst_inMembers {stops : String → Json → List Stop} (hj : j.keys.Nodup)
    (h : ∀ key v, j.member? key = some v → ChildrenFirst (stops key v)) :
    ChildrenFirst (inMembers stops j) := by
  refine childrenFirst_flatMap Step.member (hj.imp fun hne heq => hne (Step.member.inj heq)) ?_ ?_
  · exact fun key _ => childrenFirst_inside (h key)
  · intro key _ s hs
    obtain ⟨v, -, inner, -, rfl⟩ := mem_inside.1 hs
    rfl

theorem childrenFirst_inItems (h : ∀ n v, j.item? n = some v → ChildrenFirst (stops v)) :
    ChildrenFirst (inItems stops j) := by
  cases j with
  | arr items =>
    refine childrenFirst_flatMap (fun e => .item e.2) ?_ (fun e he => ?_) fun e _ s hs => ?_
    · have hdistinct : (items.zipIdx.map Prod.snd).Nodup := by
        rw [List.zipIdx_map_snd]
        exact List.nodup_range'
      exact (List.pairwise_map.1 hdistinct).imp fun hne heq => hne (Step.item.inj heq)
    · exact (h e.2 e.1 (List.mem_zipIdx_iff_getElem?.1 he)).under
    · obtain ⟨inner, -, rfl⟩ := List.mem_map.1 hs
      rfl
  | _ => exact .nil

theorem childrenFirst_queryStops (trail : Trail) (q : Json) :
    ChildrenFirst (queryStops trail q) ∧ ChildrenFirst (joinStops trail q) := by
  induction q using Json.inside_induction generalizing trail with
  | h q ih =>
    have hnested (v : Json) (hv : q.step? (.member "source-query") = some v) :
        ChildrenFirst (ifObj (queryStops (trail.push .queryPart none)) v) :=
      childrenFirst_ifObj fun _ => (ih (.member "source-query") [] v (by simpa using hv) _).1
    have hjoins (joins : Json) (hj : q.step? (.member "joins") = some joins) : ChildrenFirst
        (inItems (ifObj fun v => joinStops (trail.push .join (v.text? "alias")) v) joins) := by
      refine childrenFirst_inItems fun n v hv => childrenFirst_ifObj fun _ => ?_
      refine (ih (.member "joins") [.item n] v ?_ _).2
      rw [Json.at?_cons, hj, Option.bind_some, Json.at?_singleton]
      exact hv
    rw [queryStops_eq, joinStops_eq]
    constructor
    · refine .append hnested (.append hjoins childrenFirst_here avoids_here) ?_
      simp [avoids_append, avoids_inside, avoids_here]
    · exact .append hnested childrenFirst_here avoids_here

theorem childrenFirst_settingsStops {s : Json} (hs : s.WellFormed) :
    ChildrenFirst (settingsStops trail s) := by
  have hplain (step : Step) (t : Trail) (v : Json) (_ : s.step? step = some v) :
      ChildrenFirst (ifObj (here t) v) := childrenFirst_ifObj fun _ => childrenFirst_here
  have hcolumns (columns : Json) (hc : s.step? (.member "column_settings") = some columns) :
      ChildrenFirst (inMembers (fun key => inside (.member "click_behavior")
        (ifObj (here ((trail.push .columnSettings (some key)).push .clickBehavior none)))) columns ++
        ifObj (here (trail.push .columnSettings none)) columns) := by
    refine List.pairwise_append.2 ⟨?_, childrenFirst_ifObj fun _ => childrenFirst_here, ?_⟩
    · refine childrenFirst_inMembers (hs.step? hc).nodup_keys fun key v _ => ?_
      exact childrenFirst_inside fun _ _ => childrenFirst_ifObj fun _ => childrenFirst_here
    · intro a ha b hb hprefix
      obtain ⟨key, v, -, inner, -, rfl⟩ := mem_inMembers.1 ha
      obtain rfl := mem_here.1 (mem_ifObj.1 hb).2
      exact absurd (List.prefix_nil.1 hprefix) (List.cons_ne_nil _ _)
  refine .append (hplain _ _) (.append (fun v _ => childrenFirst_ifArr childrenFirst_here)
    (.append hcolumns (.append (hplain _ _) childrenFirst_here avoids_here) ?_) ?_) ?_ <;>
  simp [avoids_append, avoids_inside, avoids_here]

theorem childrenFirst_cardStops {c : Json} (hc : c.WellFormed) : ChildrenFirst (cardStops trail c) := by
  have hsettings (v : Json) (hv : c.step? (.member "visualization_settings") = some v) :
      ChildrenFirst (ifObj (settingsStops (trail.push .visualizationSettings none)) v) :=
    childrenFirst_ifObj fun _ => childrenFirst_settingsStops (hc.step? hv)
  have hquery (q : Json) (_ : c.step? (.member "dataset_query") = some q) :
      ChildrenFirst (inside (.member "query") (ifObj (queryStops (trail.push .queryPart none))) q) :=
    childrenFirst_inside fun v _ => childrenFirst_ifObj fun _ => (childrenFirst_queryStops _ v).1
  have hmappings (items : Json) (_ : c.step? (.member "parameter_mappings") = some items) :
      ChildrenFirst (inItems (ifObj (here (trail.push .parameterMapping none))) items) :=
    childrenFirst_inItems fun _ _ _ => childrenFirst_ifObj fun _ => childrenFirst_here
  refine .append hsettings (.append hquery (.append hmappings childrenFirst_here avoids_here) ?_) ?_ <;>
  simp [avoids_append, avoids_inside, avoids_here]

theorem childrenFirst_dashboardStops {d : Json} (hd : d.WellFormed) :
    ChildrenFirst (dashboardStops trail d) := by
  have hcards (items : Json) (hitems : d.step? (.member "dashcards") = some items) : ChildrenFirst
      (inItems (ifObj fun c => cardStops (trail.push .card (cardTitle c)) c) items) := by
    refine childrenFirst_inItems fun n c hc => childrenFirst_ifObj fun _ => ?_
    exact childrenFirst_cardStops ((hd.step? hitems).item? hc)
  have hparameters (items : Json) (_ : d.step? (.member "parameters") = some items) : ChildrenFirst
      (inItems (ifObj fun p => here (trail.push .parameter (p.text? "name")) p) items) :=
    childrenFirst_inItems fun _ _ _ => childrenFirst_ifObj fun _ => childrenFirst_here
  have hvalues (step : Step) (t : Trail) (v : Json) (_ : d.step? step = some v) :
      ChildrenFirst (unlessNull (here t) v) := childrenFirst_unlessNull childrenFirst_here
  refine .append hcards (.append (fun v _ => childrenFirst_ifArr childrenFirst_here) (.append hparameters
    (.append (hvalues _ _) (.append (hvalues _ _) childrenFirst_here avoids_here) ?_) ?_) ?_) ?_ <;>
  simp [avoids_append, avoids_inside, avoids_here]

/-- The places of a document are visited after all places inside of them, and none is visited twice. -/
theorem childrenFirst_documentStops {kind : EntityKind} {d : Json} (hd : d.WellFormed) (trail : Trail) :
    ChildrenFirst (documentStops kind trail d) := by
  cases kind with
  | card => exact childrenFirst_cardStops hd
  | dashboard => exact childrenFirst_dashboardStops hd

end Order

/-- Positions of which none comes before one that it goes on to are different. -/
theorem ChildrenFirst.nodup {stops : List Stop} (h : ChildrenFirst stops) :
    (stops.map Stop.position).Nodup :=
  List.pairwise_map.2 (h.imp fun {a b} hab (heq : a.position = b.position) => hab (heq ▸ List.prefix_rfl))

end Walk

end Rehome
