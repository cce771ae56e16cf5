import Rehome.Proofs.Query.Source
import Rehome.Proofs.Reference.Results

/-! # Cards that a renamed document is built on

A document is built on the cards that its queries read from, and a dashboard also on the cards it shows
and takes the values of parameters from. A renaming needs each of them: when all it needs are available,
every card that the renamed document is built on is available (`builtOn_available`). -/

namespace Rehome

attribute [local instance] Set.monad

/-! ## Built on -/

/-- A query part or join reads from a card. -/
def ReadsCard (j : Json) (c : CardId) : Prop :=
  ∃ v, j.member? "source-table" = some v ∧ Source.ofJson v = .card c

/-- The query of a card or dashcard reads from a card, at some depth. -/
def QueriesCard (j : Json) (c : CardId) : Prop :=
  ∃ q k p, j.query? = some q ∧ q.isObj ∧ Walk.Reaches .queryPart q k p ∧ ReadsCard p c

/-- The id of a card is the value of a member. -/
def HoldsCard (j : Json) (c : CardId) : Prop :=
  ∃ v, j.member? "card_id" = some v ∧ Ident.ofJson? v = some c

/-- `BuiltOn kind d c` holds when the card `c` must be there before the document `d` can be shown. -/
inductive BuiltOn : EntityKind → Json → CardId → Prop
  /-- A card is built on those its query reads from. -/
  | query {d : Json} {c : CardId} : QueriesCard d c → BuiltOn .card d c
  /-- A dashboard is built on those the queries of its dashcards read from. -/
  | dashcardQuery {d i : Json} {items : List Json} {c : CardId} :
    d.member? "dashcards" = some (.arr items) → i ∈ items → QueriesCard i c → BuiltOn .dashboard d c
  /-- A dashboard is built on those it shows. -/
  | dashcard {d i : Json} {items : List Json} {c : CardId} :
    d.member? "dashcards" = some (.arr items) → i ∈ items → HoldsCard i c → BuiltOn .dashboard d c
  /-- A dashboard is built on those that the values of its parameters come from. -/
  | parameter {d i config : Json} {items : List Json} {c : CardId} :
    d.member? "parameters" = some (.arr items) → i ∈ items →
    i.member? "values_source_config" = some config → HoldsCard config c → BuiltOn .dashboard d c

theorem QueriesCard.isObj {j : Json} {c : CardId} (h : QueriesCard j c) : j.isObj := by
  obtain ⟨q, -, -, hq, -⟩ := h
  obtain ⟨d, hd, -⟩ := Option.bind_eq_some_iff.1 hq
  exact Json.isObj_of_member? hd

theorem HoldsCard.isObj {j : Json} {c : CardId} (h : HoldsCard j c) : j.isObj := by
  obtain ⟨v, hv, -⟩ := h
  exact Json.isObj_of_member? hv

/-! ## Visits -/

/-- What the visit of a place may leave there: its references renamed, and any labels. -/
def Renaming.outcomes (available : Set CardId) (r : Renaming) (trail : Trail) (j : Json) : Set Json :=
  (r.place trail j).results available >>= Label.mapSlots (fun _ => Set.univ) trail

/-! ## Labels -/

namespace Label

variable {trail : Trail} {j j' : Json}

theorem member?_of_mem_mapSlots {accepts : String → Bool} (h : layoutAt trail = .members accepts)
    {key : String} (hkey : accepts key = false)
    (hj : j' ∈ mapSlots (fun _ => (Set.univ : Set String)) trail j) :
    j'.member? key = j.member? key := by
  rw [mapSlots, h, Layout.mapSlots] at hj
  refine Json.member?_of_mem_onMembers (fun v v' hv => ?_) hj
  simpa [hkey] using hv

theorem eq_of_mem_mapSlots (h : layoutAt trail = .none)
    (hj : j' ∈ mapSlots (fun _ => (Set.univ : Set String)) trail j) : j' = j := by
  rw [mapSlots, h] at hj
  exact hj

end Label

namespace Renaming

variable {r : Renaming} {available : Set CardId} {trail : Trail} {j j' : Json}

/-! ## Queries -/

/-- A place that has no labels. -/
theorem mem_results_place (h : Label.layoutAt trail = .none) (hj : j' ∈ r.outcomes available trail j) :
    j' ∈ (r.place trail j).results available := by
  obtain ⟨a, ha, hj⟩ := Json.mem_bind.1 hj
  rwa [Label.eq_of_mem_mapSlots h hj]

theorem keepsInner_outcomes : Walk.KeepsInner (r.outcomes available) where
  nested {trail j j'} h hj := by
    have hlayout : Label.layoutAt trail = .none := by
      rcases h with h | h <;> simp [Label.layoutAt, h, Label.layout]
    exact keepsInner_place.nested h (mem_results_place hlayout hj)
  joins {trail j j'} h hj :=
    keepsInner_place.joins h (mem_results_place (by simp [Label.layoutAt, h, Label.layout]) hj)

/-- A query part or join that reads from a card after its renaming needed the card for that. -/
theorem source_available {v' v : Json} {c : CardId} (hv : v' ∈ (r.source v).results available)
    (hc : Source.ofJson v' = .card c) : c ∈ available := by
  rw [source] at hv
  split at hv
  · obtain ⟨t, -, hv⟩ := Plan.mem_results_bind.1 hv
    obtain rfl : v' = t.toJson := by simpa using hv
    have htable : Source.ofJson t.toJson = .table t := Source.ofJson_toJson_table t
    simp [htable] at hc
  · obtain ⟨d, -, hv⟩ := Plan.mem_results_bind.1 hv
    obtain ⟨_, hneed, hv⟩ := Plan.mem_results_bind.1 hv
    obtain rfl : v' = (Source.card d).toJson := by simpa using hv
    obtain rfl : d = c := by simpa using hc
    exact Plan.mem_results_need.1 hneed
  · exact absurd (Plan.mem_results_ofExcept.1 hv) (by simp [malformed])

/-- The source of a query part or join that a visit leaves behind was renamed by the visit. -/
theorem exists_source_of_leaves {k : PlaceKind} {p v' : Json} (hk : k = .queryPart ∨ k = .join)
    (hp : Walk.Leaves (r.outcomes available) k p) (hv' : p.member? "source-table" = some v') :
    ∃ v, v' ∈ (r.source v).results available := by
  obtain ⟨trail, j, hkind, hp⟩ := hp
  rcases hk with rfl | rfl
  · have hplace := mem_results_place (by simp [Label.layoutAt, hkind, Label.layout]) hp
    obtain ⟨v, -, hv⟩ := Json.mem_of_mem_onMembers (mem_place_queryPart hkind hplace) hv'
    exact ⟨v, by simpa [queryMember] using hv⟩
  · have hplace := mem_results_place (by simp [Label.layoutAt, hkind, Label.layout]) hp
    obtain ⟨v, -, hv⟩ := Json.mem_of_mem_onMembers (mem_place_join hkind hplace) hv'
    exact ⟨v, by simpa [joinMember] using hv⟩

theorem readsCard_available {k : PlaceKind} {p : Json} {c : CardId}
    (hk : k = .queryPart ∨ k = .join) (hp : Walk.Leaves (r.outcomes available) k p)
    (hc : ReadsCard p c) : c ∈ available := by
  obtain ⟨v', hv', hc⟩ := hc
  obtain ⟨v, hv⟩ := exists_source_of_leaves hk hp hv'
  exact source_available hv hc

/-! ## Cards -/

theorem query?_congr (h : j'.member? "dataset_query" = j.member? "dataset_query") :
    j'.query? = j.query? := by
  rw [Json.query?, Json.query?, h]

theorem holdsCard_available {c : CardId}
    (hj : j' ∈ (j.onMember "card_id" (Json.unlessNull r.neededCardValue)).results available)
    (hc : HoldsCard j' c) : c ∈ available := by
  obtain ⟨v', hv', hc⟩ := hc
  rw [Plan.compatible_results.onMember _ (fun _ => rfl)] at hj
  obtain ⟨v, -, hv⟩ := Json.mem_of_mem_onMember hj hv'
  rw [Plan.compatible_results.unlessNull (fun _ => rfl)] at hv
  obtain hv | ⟨-, rfl⟩ := Json.mem_unlessNull hv
  · obtain ⟨d, -, hv⟩ := Plan.mem_results_bind.1 hv
    obtain ⟨_, hneed, hv⟩ := Plan.mem_results_bind.1 hv
    obtain rfl : v' = d.toJson := by simpa using hv
    obtain rfl : d = c := by simpa using hc
    exact Plan.mem_results_need.1 hneed
  · simp [Ident.ofJson?] at hc

variable {c : CardId}

theorem place_card (h : trail.kind? = some .card) (j : Json) : r.place trail j =
    if trail.hasKind .dashboard then r.dashcardNode j else Plan.ofExcept (r.cardNode j) := by
  rw [place, h]
  rfl

theorem mem_outcomes_card (h : trail.kind? = some .card) (hj : j' ∈ r.outcomes available trail j) :
    ∃ a, a ∈ (r.place trail j).results available ∧ j'.member? "dataset_query" = a.member? "dataset_query"
      ∧ j'.member? "card_id" = a.member? "card_id" := by
  obtain ⟨a, ha, hj⟩ := Json.mem_bind.1 hj
  have hlayout : Label.layoutAt trail = .members fun key => key == "name" || key == "description" := by
    simp [Label.layoutAt, h, Label.layout]
  exact ⟨a, ha, Label.member?_of_mem_mapSlots hlayout (by decide) hj,
    Label.member?_of_mem_mapSlots hlayout (by decide) hj⟩

/-- Every card that the query of a renamed card or dashcard reads from is available. -/
theorem queriesCard_available (hj : j' ∈ Walk.card (r.outcomes available) trail j)
    (hc : QueriesCard j' c) : c ∈ available := by
  obtain ⟨title, d, hwalked, hd⟩ := Walk.mem_card hj
  obtain ⟨a, ha, hquery, -⟩ := mem_outcomes_card rfl hd
  obtain ⟨q', k, p, hq', hobj, hreaches, hreads⟩ := hc
  rw [query?_congr hquery, (place_card_keeps rfl ((Plan.given_ok _).trans ha.1)).2.1] at hq'
  obtain ⟨q, hq⟩ := hwalked.query hq'
  exact readsCard_available (hreaches.kind_cases (.inl rfl))
    (Walk.query_leaves keepsInner_outcomes _ q hobj (Json.mem_of_mem_onObj hq hobj) hreaches) hreads

/-- The card that a renamed dashcard shows is available. -/
theorem dashcard_available (htrail : trail.hasKind .dashboard)
    (hj : j' ∈ Walk.card (r.outcomes available) trail j) (hc : HoldsCard j' c) : c ∈ available := by
  obtain ⟨title, d, -, hd⟩ := Walk.mem_card hj
  obtain ⟨a, ha, -, hcard⟩ := mem_outcomes_card rfl hd
  obtain ⟨v, hv, hc⟩ := hc
  have hkind : Trail.hasKind .dashboard (trail.push .card title) := by
    rw [Trail.hasKind, Trail.push, List.any_cons, ← Trail.hasKind, htrail, Bool.or_true]
  rw [place_card rfl, if_pos hkind] at ha
  obtain ⟨b, hb, ha⟩ := Plan.mem_results_bind.1 ha
  rw [Plan.compatible_results.onMember _ (fun _ => rfl)] at ha
  rw [hcard, Json.member?_of_mem_onMember (by decide) ha] at hv
  exact holdsCard_available hb ⟨v, hv, hc⟩

/-! ## Dashboards -/

/-- The card that the values of a renamed parameter come from is available. -/
theorem parameter_available {config : Json}
    (hj : j' ∈ Walk.parameter (r.outcomes available) trail j)
    (hconfig : j'.member? "values_source_config" = some config) (hc : HoldsCard config c) :
    c ∈ available := by
  obtain ⟨a, ha, hj⟩ := Json.mem_bind.1 hj
  have hlayout : Label.layoutAt (trail.push .parameter (j.text? "name")) =
      .members fun key => key == "name" := rfl
  rw [Label.member?_of_mem_mapSlots hlayout (by decide) hj] at hconfig
  have hparameter : a ∈ (r.parameter j).results available := ha
  rw [parameter, Plan.compatible_results.onMember _ (fun _ => rfl)] at hparameter
  obtain ⟨old, -, hold⟩ := Json.mem_of_mem_onMember hparameter hconfig
  obtain ⟨b, hb, hold⟩ := Plan.mem_results_bind.1 hold
  rw [Plan.compatible_results.onMember _ (fun _ => rfl)] at hold
  obtain ⟨v, hv, hc⟩ := hc
  rw [Json.member?_of_mem_onMember (by decide) hold] at hv
  exact holdsCard_available hb ⟨v, hv, hc⟩

theorem mem_outcomes_dashboard (h : trail.kind? = some .dashboard)
    (hj : j' ∈ r.outcomes available trail j) {key : String} (hkey : key ≠ "description") :
    j'.member? key = j.member? key := by
  obtain ⟨a, ha, hlabels⟩ := Json.mem_bind.1 hj
  have hlayout : Label.layoutAt trail = .members fun key => key == "description" := by
    simp [Label.layoutAt, h, Label.layout]
  have hplace : r.place trail j = pure j := by simp [place, h]
  rw [hplace, Plan.results_pure] at ha
  obtain rfl : a = j := ha
  exact Label.member?_of_mem_mapSlots hlayout (by simpa using hkey) hlabels

/-- Every card that a renamed document is built on is available. -/
theorem builtOn_available {kind : EntityKind} {d d' : Json}
    (hd : d' ∈ Walk.document kind (r.outcomes available) [] d) (hc : BuiltOn kind d' c) :
    c ∈ available := by
  cases kind with
  | card =>
    cases hc with
    | query hc => exact queriesCard_available hd hc
  | dashboard =>
    obtain ⟨title, b, hwalked, hb⟩ := Walk.mem_dashboard hd
    cases hc with
    | dashcardQuery hitems hi hc =>
      rw [mem_outcomes_dashboard rfl hb (by decide)] at hitems
      obtain ⟨items, -, hwalk⟩ := hwalked.dashcards hitems
      obtain ⟨-, i, -, -, hi'⟩ := Json.mem_of_mem_onItems hwalk hi
      exact queriesCard_available (Json.mem_of_mem_onObj hi' hc.isObj) hc
    | dashcard hitems hi hc =>
      rw [mem_outcomes_dashboard rfl hb (by decide)] at hitems
      obtain ⟨items, -, hwalk⟩ := hwalked.dashcards hitems
      obtain ⟨-, i, -, -, hi'⟩ := Json.mem_of_mem_onItems hwalk hi
      exact dashcard_available rfl (Json.mem_of_mem_onObj hi' hc.isObj) hc
    | parameter hitems hi hconfig hc =>
      rw [mem_outcomes_dashboard rfl hb (by decide)] at hitems
      obtain ⟨items, hwalk⟩ := hwalked.parameters hitems
      obtain ⟨-, i, -, -, hi'⟩ := Json.mem_of_mem_onItems hwalk hi
      exact parameter_available (Json.mem_of_mem_onObj hi' (Json.isObj_of_member? hconfig)) hconfig hc

end Renaming

end Rehome
