import Rehome.Proofs.Json.Settled
import Rehome.Proofs.Place.Reach

/-! # Walks that settle

A walk changes nothing if none of its visits does (`query_fixes`, `settings_fixes`, `card_fixes`,
`dashboard_fixes`). So a walk settles if its visits settle, and the visit of a place does not undo what
has been made of the places inside it (`document_settles`). The keys of columns may have to be of a
certain form for this; `ColumnKey` says where they are. -/

namespace Rehome

attribute [local instance] Set.monad

variable {ε : Type}

theorem Trail.hasKind_push_congr {k l : PlaceKind} {t t' : Trail} (h : t.hasKind l = t'.hasKind l)
    (a b : Option String) : (t.push k a).hasKind l = (t'.push k b).hasKind l :=
  congrArg ((k == l) || ·) h

namespace Walk

variable {V : Trail → Json → Except ε Json}

/-! ## Queries -/

/-- The visits of all places inside a query or join leave them alone. -/
def Fixes (V : Trail → Json → Except ε Json) (k : PlaceKind) (j : Json) : Prop :=
  ∀ l p, Reaches k j l p → p.isObj → ∀ trail, trail.kind? = some l → V trail p = .ok p

theorem putBack_lookup (key : String) (accepts : Json → Bool) (members : List (String × Json)) :
    putBack key ((members.lookup key).filter accepts) members = members := by
  cases h : members.lookup key with
  | none => rfl
  | some v =>
    rw [Option.filter_some]
    split
    · exact Assoc.put_eq_self h
    · rfl

mutual

/-- A walk changes nothing in a query if no visit does. -/
theorem query_fixes (trail : Trail) : (j : Json) → Fixes V .queryPart j → query V trail j = .ok j
  | .obj members, h => by
    have hnested := nestedQuery_fixes (trail.push .queryPart none) members
      fun q hq hobj l p hp => h l p (.nested hq hobj hp)
    have hjoins := joinsOf_fixes (trail.push .queryPart none) members
      fun items hitems i hi hobj l p hp => h l p (.join hitems hi hobj hp)
    rw [query, Except.bind_eq_ok_iff]
    refine ⟨_, hnested, Except.bind_eq_ok_iff.2 ⟨_, hjoins, ?_⟩⟩
    rw [putBack_lookup, putBack_lookup]
    exact h _ _ (.refl _ _) rfl _ rfl
  | .null, _ | .bool _, _ | .int _, _ | .double _, _ | .str _, _ | .arr _, _ => by
    simp only [query, Except.pure_eq_ok_iff]

theorem nestedQuery_fixes (trail : Trail) : (members : List (String × Json)) →
    (∀ q, members.lookup "source-query" = some q → q.isObj → Fixes V .queryPart q) →
    nestedQuery V trail members = .ok ((members.lookup "source-query").filter Json.isObj)
  | [], _ => by simp only [nestedQuery, Except.pure_eq_ok_iff, List.lookup_nil, Option.filter_none]
  | (k, j) :: rest, h => by
    rw [nestedQuery, Assoc.lookup_cons]
    by_cases hk : k = "source-query"
    · rw [if_pos hk, if_pos hk.symm, Option.filter_some]
      by_cases hobj : j.isObj
      · rw [if_pos hobj, if_pos hobj, Except.map_eq_ok_iff]
        refine ⟨j, query_fixes trail j (h j ?_ hobj), rfl⟩
        rw [Assoc.lookup_cons, if_pos hk.symm]
      · rw [if_neg hobj, if_neg hobj, Except.pure_eq_ok_iff]
    · rw [if_neg hk, if_neg (Ne.symm hk)]
      refine nestedQuery_fixes trail rest fun q hq => h q ?_
      rwa [Assoc.lookup_cons, if_neg (Ne.symm hk)]

theorem joinsOf_fixes (trail : Trail) : (members : List (String × Json)) →
    (∀ items, members.lookup "joins" = some (.arr items) → ∀ i ∈ items, i.isObj → Fixes V .join i) →
    joinsOf V trail members = .ok ((members.lookup "joins").filter Json.isArr)
  | [], _ => by simp only [joinsOf, Except.pure_eq_ok_iff, List.lookup_nil, Option.filter_none]
  | (k, j) :: rest, h => by
    rw [joinsOf, Assoc.lookup_cons]
    by_cases hk : k = "joins"
    · rw [if_pos hk, if_pos hk.symm]
      refine joinList_fixes trail j fun items hitems => h items ?_
      rw [Assoc.lookup_cons, if_pos hk.symm, hitems]
    · rw [if_neg hk, if_neg (Ne.symm hk)]
      refine joinsOf_fixes trail rest fun items hitems => h items ?_
      rwa [Assoc.lookup_cons, if_neg (Ne.symm hk)]

theorem joinList_fixes (trail : Trail) : (j : Json) →
    (∀ items, j = .arr items → ∀ i ∈ items, i.isObj → Fixes V .join i) →
    joinList V trail j = .ok ((some j).filter Json.isArr)
  | .arr items, h => by
    rw [joinList, Except.map_eq_ok_iff]
    exact ⟨items, joins_fixes trail items (h items rfl), rfl⟩
  | .null, _ | .bool _, _ | .int _, _ | .double _, _ | .str _, _ | .obj _, _ => by
    simp only [joinList, Except.pure_eq_ok_iff, Option.filter_some, Json.isArr, Bool.false_eq_true,
      if_false]

theorem joins_fixes (trail : Trail) : (items : List Json) →
    (∀ i ∈ items, i.isObj → Fixes V .join i) → joins V trail items = .ok items
  | [], _ => by simp only [joins, Except.pure_eq_ok_iff]
  | j :: rest, h => by
    rw [joins, Except.bind_eq_ok_iff]
    refine ⟨j, join_fixes trail j (h j List.mem_cons_self), Except.bind_eq_ok_iff.2 ⟨rest, ?_, rfl⟩⟩
    exact joins_fixes trail rest fun i hi => h i (List.mem_cons_of_mem _ hi)

theorem join_fixes (trail : Trail) : (j : Json) → (j.isObj → Fixes V .join j) →
    join V trail j = .ok j
  | .obj members, h => by
    have hnested := nestedQuery_fixes (trail.push .join (titleOf "alias" members)) members
      fun q hq hobj l p hp => h rfl l p (.nested hq hobj hp)
    rw [join, Except.bind_eq_ok_iff]
    refine ⟨_, hnested, ?_⟩
    rw [putBack_lookup]
    exact h rfl _ _ (.refl _ _) rfl _ rfl
  | .null, _ | .bool _, _ | .int _, _ | .double _, _ | .str _, _ | .arr _, _ => by
    simp only [join, Except.pure_eq_ok_iff]

end

/-! ## Settings -/

theorem settings_fixes {trail : Trail} {s : Json}
    (series : ∀ v, s.member? "series_settings" = some v → v.isObj →
      V ((trail.push .visualizationSettings none).push .seriesSettings none) v = .ok v)
    (tableColumns : ∀ v, s.member? "table.columns" = some v → v.isArr →
      V ((trail.push .visualizationSettings none).push .tableColumns none) v = .ok v)
    (columns : ∀ v, s.member? "column_settings" = some v →
      v.onMembers (columnClick V (trail.push .visualizationSettings none)) = .ok v)
    (columnSettings : ∀ v, s.member? "column_settings" = some v → v.isObj →
      V ((trail.push .visualizationSettings none).push .columnSettings none) v = .ok v)
    (click : ∀ v, s.member? "click_behavior" = some v → v.isObj →
      V ((trail.push .visualizationSettings none).push .clickBehavior none) v = .ok v)
    (settings : V (trail.push .visualizationSettings none) s = .ok s) :
    Walk.settings V trail s = .ok s := by
  rw [Walk.settings, Except.bind_eq_ok_iff]
  refine ⟨s, Json.onMember_eq_ok_self_iff.2 fun v hv => Json.onObj_eq_ok_self (series v hv), ?_⟩
  refine Except.bind_eq_ok_iff.2 ⟨s, Json.onMember_eq_ok_self_iff.2 fun v hv => ?_, ?_⟩
  · exact Json.onArr_eq_ok_self (tableColumns v hv)
  refine Except.bind_eq_ok_iff.2 ⟨s, Json.onMember_eq_ok_self_iff.2 columns, ?_⟩
  refine Except.bind_eq_ok_iff.2 ⟨s, Json.onMember_eq_ok_self_iff.2 fun v hv => ?_, ?_⟩
  · exact Json.onObj_eq_ok_self (columnSettings v hv)
  refine Except.bind_eq_ok_iff.2 ⟨s, Json.onMember_eq_ok_self_iff.2 fun v hv => ?_, settings⟩
  exact Json.onObj_eq_ok_self (click v hv)

/-! ## Cards -/

theorem card_fixes {trail : Trail} {j : Json}
    (settings : ∀ v, j.member? "visualization_settings" = some v → v.isObj →
      Walk.settings V (trail.push .card (cardTitle j)) v = .ok v)
    (query : ∀ q, j.query? = some q → q.isObj → Walk.query V (trail.push .card (cardTitle j)) q = .ok q)
    (mappings : ∀ v, j.member? "parameter_mappings" = some v →
      v.onItems (Json.onObj (V ((trail.push .card (cardTitle j)).push .parameterMapping none))) = .ok v)
    (card : V (trail.push .card (cardTitle j)) j = .ok j) : Walk.card V trail j = .ok j := by
  rw [Walk.card, Except.bind_eq_ok_iff]
  refine ⟨j, Json.onMember_eq_ok_self_iff.2 fun v hv => Json.onObj_eq_ok_self (settings v hv), ?_⟩
  refine Except.bind_eq_ok_iff.2 ⟨j, Json.onMember_eq_ok_self_iff.2 fun v hv => ?_, ?_⟩
  · refine Json.onMember_eq_ok_self_iff.2 fun q hq => Json.onObj_eq_ok_self (query q ?_)
    rw [Json.query?, hv, Option.bind_some, hq]
  exact Except.bind_eq_ok_iff.2 ⟨j, Json.onMember_eq_ok_self_iff.2 mappings, card⟩

/-! ## Dashboards -/

theorem dashboard_fixes {trail : Trail} {j : Json}
    (dashcards : ∀ v, j.member? "dashcards" = some v →
      v.onItems (Json.onObj (Walk.card V (trail.push .dashboard (j.text? "name")))) = .ok v)
    (tabs : ∀ v, j.member? "tabs" = some v → v.isArr →
      V ((trail.push .dashboard (j.text? "name")).push .tabs none) v = .ok v)
    (parameters : ∀ v, j.member? "parameters" = some v →
      v.onItems (Json.onObj (parameter V (trail.push .dashboard (j.text? "name")))) = .ok v)
    (values : ∀ v, j.member? "param_values" = some v →
      v.unlessNull (V ((trail.push .dashboard (j.text? "name")).push .paramValues none)) = .ok v)
    (fields : ∀ v, j.member? "param_fields" = some v →
      v.unlessNull (V ((trail.push .dashboard (j.text? "name")).push .paramFields none)) = .ok v)
    (dashboard : V (trail.push .dashboard (j.text? "name")) j = .ok j) :
    Walk.dashboard V trail j = .ok j := by
  rw [Walk.dashboard, Except.bind_eq_ok_iff]
  refine ⟨j, Json.onMember_eq_ok_self_iff.2 dashcards, ?_⟩
  refine Except.bind_eq_ok_iff.2 ⟨j, Json.onMember_eq_ok_self_iff.2 fun v hv => ?_, ?_⟩
  · exact Json.onArr_eq_ok_self (tabs v hv)
  refine Except.bind_eq_ok_iff.2 ⟨j, Json.onMember_eq_ok_self_iff.2 parameters, ?_⟩
  refine Except.bind_eq_ok_iff.2 ⟨j, Json.onMember_eq_ok_self_iff.2 values, ?_⟩
  exact Except.bind_eq_ok_iff.2 ⟨j, Json.onMember_eq_ok_self_iff.2 fields, dashboard⟩

end Walk

/-! ## Keys of columns -/

/-- A text by which settings know a column. -/
inductive SettingsKey : Json → String → Prop
  /-- The columns of a table have keys. -/
  | tableColumn {s c : Json} {items : List Json} {key : String} :
    s.member? "table.columns" = some (.arr items) → c ∈ items → c.text? "key" = some key →
    SettingsKey s key
  /-- The settings of columns are keyed. -/
  | columnSettings {s : Json} {e : String × Json} {members : List (String × Json)} :
    s.member? "column_settings" = some (.obj members) → e ∈ members → SettingsKey s e.1

/-- A text by which the settings of a document know a column. -/
inductive ColumnKey : EntityKind → Json → String → Prop
  /-- Cards have settings. -/
  | card {j s : Json} {key : String} : j.member? "visualization_settings" = some s → SettingsKey s key →
    ColumnKey .card j key
  /-- Dashcards have settings. -/
  | dashcard {j i : Json} {items : List Json} {key : String} :
    j.member? "dashcards" = some (.arr items) → i ∈ items → ColumnKey .card i key →
    ColumnKey .dashboard j key

/-- The keys of columns that a place has itself are of a certain form. -/
def KeysAre (form : String → Prop) : PlaceKind → Json → Prop
  | .tableColumns, .arr items => ∀ c ∈ items, ∀ key, c.text? "key" = some key → form key
  | .columnSettings, .obj members => ∀ e ∈ members, form e.1
  | _, _ => True

/-! ## Visits that settle -/

theorem keysAre_of_ne {form : String → Prop} {k : PlaceKind}
    (hk : k ≠ .tableColumns ∧ k ≠ .columnSettings) (j : Json) : KeysAre form k j := by
  cases k with
  | tableColumns => exact absurd rfl hk.1
  | columnSettings => exact absurd rfl hk.2
  | _ => trivial

/-- What visits that may fail succeed with. -/
def Walk.successes (V : Trail → Json → Except ε Json) (trail : Trail) (j : Json) : Set Json :=
  {j' | V trail j = .ok j'}

/-- Visits that settle wherever the keys of columns are of a certain form, and do not undo what has been
made of the places inside a place. -/
structure Settling (V : Trail → Json → Except ε Json) (form : String → Prop) : Prop where
  settles {k : PlaceKind} {a b : Option String} {t t' : Trail} {j j' : Json} :
    t.hasKind .dashboard = t'.hasKind .dashboard → KeysAre form k j → V (t.push k a) j = .ok j' →
    V (t'.push k b) j' = .ok j'
  settlesQuery {k : PlaceKind} {t t' : Trail} {j j' : Json} : k = .queryPart ∨ k = .join →
    t.kind? = some k → t'.kind? = some k → V t j = .ok j' → V t' j' = .ok j'
  keepsQuery : Walk.KeepsInner (Walk.successes V)
  keepsSettings {t : Trail} {j j' : Json} {key : String} :
    V (t.push .visualizationSettings none) j = .ok j' →
    key ∈ ["series_settings", "table.columns", "column_settings", "click_behavior"] →
    j'.member? key = j.member? key
  keepsColumns {t : Trail} {j : Json} {members' : List (String × Json)} {e' : String × Json} :
    V (t.push .columnSettings none) j = .ok (.obj members') → e' ∈ members' →
    ∃ members e, j = .obj members ∧ e ∈ members ∧ e'.2 = e.2
  keepsCard {t : Trail} {a : Option String} {j j' : Json} : V (t.push .card a) j = .ok j' →
    j'.member? "visualization_settings" = j.member? "visualization_settings" ∧
    j'.query? = j.query? ∧ j'.member? "parameter_mappings" = j.member? "parameter_mappings"
  keepsDashboard {t : Trail} {a : Option String} {j j' : Json} :
    V (t.push .dashboard a) j = .ok j' → j' = j

namespace Settling

variable {V : Trail → Json → Except ε Json} {form : String → Prop} (hV : Settling V form)

include hV

theorem query {t t' : Trail} {q₀ q : Json} (hobj : q.isObj)
    (h : q ∈ Walk.query (Walk.successes V) t q₀) : Walk.query V t' q = .ok q := by
  refine Walk.query_fixes t' q fun l p hp _ trail htrail => ?_
  obtain ⟨t₀, p₀, hkind, hp₀⟩ := Walk.query_leaves hV.keepsQuery t q₀ hobj h hp
  exact hV.settlesQuery (hp.kind_cases (.inl rfl)) hkind htrail hp₀

/-- Places that hold no keys of columns. -/
theorem plain {k : PlaceKind} (hk : k ≠ .tableColumns ∧ k ≠ .columnSettings) {a b : Option String} {t t' : Trail}
    (ht : t.hasKind .dashboard = t'.hasKind .dashboard) {j j' : Json}
    (h : j' ∈ Walk.successes V (t.push k a) j) : V (t'.push k b) j' = .ok j' :=
  hV.settles ht (keysAre_of_ne hk j) h

theorem settings {t t' : Trail} (ht : t.hasKind .dashboard = t'.hasKind .dashboard) {s s' : Json}
    (hkeys : ∀ key, SettingsKey s key → form key) (h : s' ∈ Walk.settings (Walk.successes V) t s) :
    Walk.settings V t' s' = .ok s' := by
  obtain ⟨c, hc, hs⟩ := Walk.mem_settings h
  have hin := Trail.hasKind_push_congr (k := .visualizationSettings) ht none none
  refine Walk.settings_fixes (fun v hv hobj => ?_) (fun v hv harr => ?_) (fun v hv => ?_)
    (fun v hv hobj => ?_) (fun v hv hobj => ?_) ?settings
  case settings => exact hV.plain (by decide) ht hs
  · rw [hV.keepsSettings hs (by simp)] at hv
    obtain ⟨v₀, hv₀⟩ := hc.series hv
    exact hV.plain (by decide) hin (Json.mem_of_mem_onObj hv₀ hobj)
  · rw [hV.keepsSettings hs (by simp)] at hv
    obtain ⟨v₀, hmember, hv₀⟩ := hc.tableColumns hv
    refine hV.settles hin ?_ (Json.mem_of_mem_onArr hv₀ harr)
    cases v₀ with
    | arr items => exact fun c hc key hkey => hkeys key (.tableColumn hmember hc hkey)
    | _ => trivial
  · rw [hV.keepsSettings hs (by simp)] at hv
    obtain ⟨v₀, u, -, hu, hv⟩ := hc.columnSettings hv
    cases v with
    | obj members' =>
      refine Json.onMembers_eq_ok_self_iff.2 fun e' he' => Json.onMember_eq_ok_self_iff.2 fun w hw => ?_
      obtain ⟨members, e, rfl, he, hvalue⟩ := hV.keepsColumns (Json.mem_of_mem_onObj hv rfl) he'
      obtain ⟨-, e₀, -, -, -, hclick⟩ := Json.exists_of_mem_onMembers hu he
      rw [hvalue] at hw
      obtain ⟨w₀, -, hw⟩ := Json.mem_of_mem_onMember hclick hw
      refine Json.onObj_eq_ok_self fun hobj => ?_
      exact hV.plain (by decide) (Trail.hasKind_push_congr hin _ _) (Json.mem_of_mem_onObj hw hobj)
    | _ => rfl
  · rw [hV.keepsSettings hs (by simp)] at hv
    obtain ⟨v₀, u, hmember, hu, hv⟩ := hc.columnSettings hv
    refine hV.settles hin ?_ (Json.mem_of_mem_onObj hv hobj)
    cases u with
    | obj members =>
      intro e he
      obtain ⟨members₀, e₀, rfl, he₀, hkey, -⟩ := Json.exists_of_mem_onMembers hu he
      rw [hkey]
      exact hkeys e₀.1 (.columnSettings hmember he₀)
    | _ => trivial
  · rw [hV.keepsSettings hs (by simp)] at hv
    obtain ⟨v₀, hv₀⟩ := hc.click hv
    exact hV.plain (by decide) hin (Json.mem_of_mem_onObj hv₀ hobj)

theorem card {t t' : Trail} (ht : t.hasKind .dashboard = t'.hasKind .dashboard) {j j' : Json}
    (hkeys : ∀ key, ColumnKey .card j key → form key) (h : j' ∈ Walk.card (Walk.successes V) t j) :
    Walk.card V t' j' = .ok j' := by
  obtain ⟨title, c, hc, hj⟩ := Walk.mem_card h
  obtain ⟨hsettings, hquery, hmappings⟩ := hV.keepsCard hj
  have hin := Trail.hasKind_push_congr (k := .card) ht title (Walk.cardTitle j')
  refine Walk.card_fixes (fun v hv hobj => ?_) (fun q hq hobj => ?_) (fun v hv => ?_) ?card
  case card => exact hV.plain (by decide) ht hj
  · rw [hsettings] at hv
    obtain ⟨v₀, hmember, hv⟩ := hc.settings hv
    exact hV.settings hin (fun key hkey => hkeys key (.card hmember hkey)) (Json.mem_of_mem_onObj hv hobj)
  · rw [hquery] at hq
    obtain ⟨q₀, hq⟩ := hc.query hq
    exact hV.query hobj (Json.mem_of_mem_onObj hq hobj)
  · rw [hmappings] at hv
    obtain ⟨v₀, hv⟩ := hc.mappings hv
    exact Json.onItems_onObj_eq_ok_self hv fun _ _ _ _ _ _ hi => hV.plain (by decide) hin hi

theorem dashboard {t t' : Trail} (ht : t.hasKind .dashboard = t'.hasKind .dashboard) {j j' : Json}
    (hkeys : ∀ key, ColumnKey .dashboard j key → form key)
    (h : j' ∈ Walk.dashboard (Walk.successes V) t j) : Walk.dashboard V t' j' = .ok j' := by
  obtain ⟨title, d, hd, hj⟩ := Walk.mem_dashboard h
  obtain rfl := hV.keepsDashboard hj
  have hin := Trail.hasKind_push_congr (k := .dashboard) ht title (j'.text? "name")
  have hunlessNull : ∀ {k : PlaceKind}, k ≠ .tableColumns ∧ k ≠ .columnSettings → ∀ {v v' : Json},
      v' ∈ v.unlessNull (Walk.successes V ((t.push .dashboard title).push k none)) →
      v'.unlessNull (V ((t'.push .dashboard (j'.text? "name")).push k none)) = .ok v' := by
    intro k hk v v' hv
    obtain hv | ⟨-, rfl⟩ := Json.mem_unlessNull hv
    · exact Json.unlessNull_eq_ok_self (hV.plain hk hin hv)
    · rfl
  refine Walk.dashboard_fixes (fun v hv => ?_) (fun v hv harr => ?_) (fun v hv => ?_) (fun v hv => ?_)
    (fun v hv => ?_) ?dashboard
  case dashboard => exact hV.plain (by decide) ht hj
  · obtain ⟨v₀, hmember, hv⟩ := hd.dashcards hv
    refine Json.onItems_onObj_eq_ok_self hv fun items i i' hitems hi _ hcard => ?_
    refine hV.card hin (fun key hkey => hkeys key ?_) hcard
    exact .dashcard (hitems ▸ hmember) hi hkey
  · obtain ⟨v₀, hv⟩ := hd.tabs hv
    exact hV.plain (by decide) hin (Json.mem_of_mem_onArr hv harr)
  · obtain ⟨v₀, hv⟩ := hd.parameters hv
    exact Json.onItems_onObj_eq_ok_self hv fun _ _ _ _ _ _ hi => hV.plain (by decide) hin hi
  · obtain ⟨v₀, hv⟩ := hd.values hv
    exact hunlessNull (by decide) hv
  · obtain ⟨v₀, hv⟩ := hd.fields hv
    exact hunlessNull (by decide) hv

/-- A walk of a document settles if its visits do. -/
theorem document {kind : EntityKind} {j j' : Json} (hkeys : ∀ key, ColumnKey kind j key → form key)
    (h : Walk.document kind V [] j = .ok j') : Walk.document kind V [] j' = .ok j' := by
  have hsuccesses := Json.compatible_except.document (g := Walk.successes V) (fun _ _ => rfl) kind [] j
  have hmem : j' ∈ Walk.document kind (Walk.successes V) [] j := hsuccesses.subset h
  cases kind with
  | card => exact hV.card rfl hkeys hmem
  | dashboard => exact hV.dashboard rfl hkeys hmem

end Settling

end Rehome
