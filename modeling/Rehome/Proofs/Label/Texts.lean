import Rehome.Label.Document
import Rehome.Proofs.Label.Effects
import Rehome.Proofs.Label.Spots
import Rehome.Proofs.Place.Loop

/-! # Where the texts of a document are

The texts of a card, dashcard or dashboard are at the positions that `TextAt` lists. A walk that acts on the
text slots of each place acts on them, one after the other, and on nothing else (`document_mapSlots`). -/

namespace Rehome.Label

/-! ## Positions -/

/-- The positions of the texts of a card or dashcard. -/
inductive CardTextAt : Position → Prop
  | name : CardTextAt [.member "name"]
  | description : CardTextAt [.member "description"]
  | setting {key : String} : isTextSetting key → CardTextAt [.member "visualization_settings", .member key]
  | series (key : String) : CardTextAt
      [.member "visualization_settings", .member "series_settings", .member key, .member "title"]
  | column (key : String) : CardTextAt
      [.member "visualization_settings", .member "column_settings", .member key, .member "column_title"]

/-- The positions of the texts of a document, if there are strings there. -/
inductive TextAt : EntityKind → Position → Prop
  | card {p : Position} : CardTextAt p → TextAt .card p
  | dashcard (n : Nat) {p : Position} : CardTextAt p → TextAt .dashboard (.member "dashcards" :: .item n :: p)
  | tab (n : Nat) : TextAt .dashboard [.member "tabs", .item n, .member "name"]
  | parameter (n : Nat) : TextAt .dashboard [.member "parameters", .item n, .member "name"]
  | description : TextAt .dashboard [.member "description"]

/-! ## Schemes -/

/-- Where the texts of a layout are. -/
def Layout.scheme : Layout → Scheme
  | .members accepts => .members fun key => if accepts key then .text else .none
  | .ofMembers key => .members fun _ => .member key .text .none
  | .ofItems key => .items (.member key .text .none)
  | .none => .none

/-- Where the texts are that a place has itself. -/
def ownScheme (kind : PlaceKind) : Scheme := (layout kind).scheme

/-- The members of settings that hold places with texts. -/
def settingsInner : List (String × Scheme) :=
  [("series_settings", ownScheme .seriesSettings), ("column_settings", ownScheme .columnSettings)]

def settingsScheme : Scheme := .within settingsInner (ownScheme .visualizationSettings)

/-- The members of a card or dashcard that hold places with texts. -/
def cardInner : List (String × Scheme) := [("visualization_settings", settingsScheme)]

def cardScheme : Scheme := .within cardInner (ownScheme .card)

/-- The members of a dashboard that hold places with texts. -/
def dashboardInner : List (String × Scheme) :=
  [("dashcards", .items cardScheme), ("tabs", ownScheme .tabs), ("parameters", .items (ownScheme .parameter))]

def dashboardScheme : Scheme := .within dashboardInner (ownScheme .dashboard)

/-- The members of a place that hold places with texts. -/
def innerScheme : PlaceKind → List (String × Scheme)
  | .visualizationSettings => settingsInner
  | .card => cardInner
  | .dashboard => dashboardInner
  | _ => []

/-- Where the texts of a document are. -/
def documentScheme : EntityKind → Scheme
  | .card => cardScheme
  | .dashboard => dashboardScheme

theorem apart_scheme (l : Layout) : l.scheme.Apart := by
  cases l with
  | members accepts =>
    intro key
    dsimp only
    split <;> trivial
  | ofMembers key => exact fun _ => ⟨trivial, trivial, trivial⟩
  | ofItems key => exact ⟨trivial, trivial, trivial⟩
  | none => trivial

theorem ignores_of_not_accepted {accepts : String → Bool} {key : String} (h : accepts key = false) :
    (Layout.members accepts).scheme.Ignores key := by
  simp [Layout.scheme, Scheme.Ignores, h]

/-- The texts that a place has itself are not in the places inside of it. -/
theorem ignores_inner (kind : PlaceKind) : ∀ e ∈ innerScheme kind, (ownScheme kind).Ignores e.1 := by
  cases kind with
  | visualizationSettings =>
    simp only [innerScheme, settingsInner, List.forall_mem_cons]
    exact ⟨rfl, rfl, nofun⟩
  | card =>
    simp only [innerScheme, cardInner, List.forall_mem_cons]
    exact ⟨rfl, nofun⟩
  | dashboard =>
    simp only [innerScheme, dashboardInner, List.forall_mem_cons]
    exact ⟨rfl, rfl, rfl, nofun⟩
  | _ => nofun

theorem apart_settingsScheme : settingsScheme.Apart := by
  refine Scheme.apart_within (by decide) ?_ (apart_scheme _) (ignores_inner .visualizationSettings)
  simp only [settingsInner, List.forall_mem_cons]
  exact ⟨apart_scheme _, apart_scheme _, nofun⟩

theorem apart_cardScheme : cardScheme.Apart := by
  refine Scheme.apart_within (by decide) ?_ (apart_scheme _) (ignores_inner .card)
  simp only [cardInner, List.forall_mem_cons]
  exact ⟨apart_settingsScheme, nofun⟩

theorem apart_dashboardScheme : dashboardScheme.Apart := by
  refine Scheme.apart_within (by decide) ?_ (apart_scheme _) (ignores_inner .dashboard)
  simp only [dashboardInner, List.forall_mem_cons]
  exact ⟨apart_cardScheme, apart_scheme _, apart_scheme _, nofun⟩

/-- No text of a document comes twice. -/
theorem apart_documentScheme (kind : EntityKind) : (documentScheme kind).Apart := by
  cases kind with
  | card => exact apart_cardScheme
  | dashboard => exact apart_dashboardScheme

/-! ## The positions of a scheme -/

theorem hasText_accepted_iff {accepts : String → Bool} {p : Position} :
    (Layout.members accepts).scheme.hasText p ↔ ∃ key, p = [.member key] ∧ accepts key := by
  rw [Layout.scheme, Scheme.hasText_members_iff]
  constructor
  · rintro ⟨key, q, rfl, hq⟩
    split at hq
    · next hkey => exact ⟨key, by rw [Scheme.hasText_text_iff.1 hq], hkey⟩
    · cases q <;> cases hq
  · rintro ⟨key, rfl, hkey⟩
    exact ⟨key, [], rfl, by simp [hkey]⟩

theorem hasText_one_iff {key : String} {p : Position} :
    Scheme.hasText (.member key .text .none) p ↔ p = [.member key] := by
  rw [Scheme.hasText_member_iff]
  constructor
  · rintro (⟨q, rfl, hq⟩ | hp)
    · rw [Scheme.hasText_text_iff.1 hq]
    · cases p <;> cases hp
  · rintro rfl
    exact .inl ⟨[], rfl, rfl⟩

theorem hasText_settingsScheme_iff {p : Position} : settingsScheme.hasText p ↔
    (∃ key, p = [.member "series_settings", .member key, .member "title"]) ∨
    (∃ key, p = [.member "column_settings", .member key, .member "column_title"]) ∨
    ∃ key, p = [.member key] ∧ isTextSetting key := by
  have hof {outer key : String} {p : Position} :
      (∃ q, p = .member outer :: q ∧ (Layout.ofMembers key).scheme.hasText q) ↔
        ∃ k, p = [.member outer, .member k, .member key] := by
    simp only [Layout.scheme, Scheme.hasText_members_iff, hasText_one_iff]
    constructor
    · rintro ⟨q, rfl, k, r, rfl, rfl⟩
      exact ⟨k, rfl⟩
    · rintro ⟨k, rfl⟩
      exact ⟨_, rfl, k, _, rfl, rfl⟩
  rw [settingsScheme, settingsInner, Scheme.within_cons, Scheme.within_cons, Scheme.hasText_member_iff,
    Scheme.hasText_member_iff]
  exact or_congr hof (or_congr hof hasText_accepted_iff)

theorem hasText_cardScheme_iff {p : Position} : cardScheme.hasText p ↔ CardTextAt p := by
  rw [cardScheme, cardInner, Scheme.within_cons, Scheme.hasText_member_iff]
  constructor
  · rintro (⟨q, rfl, hq⟩ | hp)
    · rcases hasText_settingsScheme_iff.1 hq with ⟨key, rfl⟩ | ⟨key, rfl⟩ | ⟨key, rfl, hkey⟩
      · exact .series key
      · exact .column key
      · exact .setting hkey
    · obtain ⟨key, rfl, hkey⟩ := hasText_accepted_iff.1 hp
      obtain rfl | rfl : key = "name" ∨ key = "description" := by simpa using hkey
      · exact .name
      · exact .description
  · intro hp
    cases hp with
    | name => exact .inr (hasText_accepted_iff.2 ⟨"name", rfl, rfl⟩)
    | description => exact .inr (hasText_accepted_iff.2 ⟨"description", rfl, rfl⟩)
    | setting hkey => exact .inl ⟨_, rfl, hasText_settingsScheme_iff.2 (.inr (.inr ⟨_, rfl, hkey⟩))⟩
    | series key => exact .inl ⟨_, rfl, hasText_settingsScheme_iff.2 (.inl ⟨key, rfl⟩)⟩
    | column key => exact .inl ⟨_, rfl, hasText_settingsScheme_iff.2 (.inr (.inl ⟨key, rfl⟩))⟩

theorem hasText_dashboardScheme_iff {p : Position} : dashboardScheme.hasText p ↔ TextAt .dashboard p := by
  rw [dashboardScheme, dashboardInner, Scheme.within_cons, Scheme.within_cons, Scheme.within_cons,
    Scheme.hasText_member_iff, Scheme.hasText_member_iff, Scheme.hasText_member_iff]
  constructor
  · rintro (⟨q, rfl, hq⟩ | ⟨q, rfl, hq⟩ | ⟨q, rfl, hq⟩ | hp)
    · obtain ⟨n, r, rfl, hr⟩ := Scheme.hasText_items_iff.1 hq
      exact .dashcard n (hasText_cardScheme_iff.1 hr)
    · obtain ⟨n, r, rfl, hr⟩ := Scheme.hasText_items_iff.1 hq
      rw [hasText_one_iff.1 hr]
      exact .tab n
    · obtain ⟨n, r, rfl, hr⟩ := Scheme.hasText_items_iff.1 hq
      obtain ⟨key, rfl, hkey⟩ := hasText_accepted_iff.1 hr
      rw [beq_iff_eq.1 hkey]
      exact .parameter n
    · obtain ⟨key, rfl, hkey⟩ := hasText_accepted_iff.1 hp
      rw [beq_iff_eq.1 hkey]
      exact .description
  · intro hp
    cases hp with
    | dashcard n hp => exact .inl ⟨_, rfl, Scheme.hasText_items_iff.2 ⟨n, _, rfl, hasText_cardScheme_iff.2 hp⟩⟩
    | tab n => exact .inr (.inl ⟨_, rfl, Scheme.hasText_items_iff.2 ⟨n, _, rfl, hasText_one_iff.2 rfl⟩⟩)
    | parameter n =>
      refine .inr (.inr (.inl ⟨_, rfl, Scheme.hasText_items_iff.2 ⟨n, _, rfl, ?_⟩⟩))
      exact hasText_accepted_iff.2 ⟨"name", rfl, rfl⟩
    | description => exact .inr (.inr (.inr (hasText_accepted_iff.2 ⟨"description", rfl, rfl⟩)))

theorem hasText_documentScheme_iff {kind : EntityKind} {p : Position} :
    (documentScheme kind).hasText p ↔ TextAt kind p := by
  cases kind with
  | card =>
    refine hasText_cardScheme_iff.trans ⟨.card, fun hp => ?_⟩
    cases hp with
    | card hp => exact hp
  | dashboard => exact hasText_dashboardScheme_iff

/-! ## Walks of the text slots -/

section Walks

variable {m : Type → Type} [Monad m] [LawfulMonad m] {act : String → m String}

theorem Layout.mapSlots_eq (l : Layout) : l.mapSlots act = l.scheme.mapTexts act := by
  funext j
  cases l with
  | members accepts =>
    rw [mapSlots, scheme, Scheme.mapTexts]
    congr 1
    funext key value
    split <;> rfl
  | ofMembers key =>
    rw [mapSlots, scheme, Scheme.mapTexts]
    congr 1
    funext _ value
    exact (bind_pure (value.onMember key (Json.onStr act))).symm
  | ofItems key =>
    rw [mapSlots, scheme, Scheme.mapTexts]
    congr 1
    funext item
    exact (bind_pure (item.onMember key (Json.onStr act))).symm
  | none => rfl

theorem mapSlots_eq {trail : Trail} {kind : PlaceKind} (h : trail.kind? = some kind) :
    mapSlots act trail = (ownScheme kind).mapTexts act := by
  rw [ownScheme, ← Layout.mapSlots_eq]
  funext j
  rw [mapSlots, layoutAt, h]

/-- Text slots that are left alone. -/
theorem mapSlots_pure (trail : Trail) (j : Json) : mapSlots (pure : String → m String) trail j = pure j := by
  rw [mapSlots, Layout.mapSlots_eq, Scheme.mapTexts_pure]

theorem mapSlots_push (kind : PlaceKind) (title : Option String) (trail : Trail) :
    mapSlots act (trail.push kind title) = (ownScheme kind).mapTexts act :=
  mapSlots_eq rfl

/-- A place that has no texts itself is left alone. -/
theorem mapSlots_none {trail : Trail} {kind : PlaceKind} (h : trail.kind? = some kind)
    (hkind : layout kind = .none) : mapSlots act trail = pure := by
  rw [mapSlots_eq h, ownScheme, hkind]
  rfl

theorem onMember_id (key : String) : Json.onMember key (pure : Json → m Json) = pure :=
  funext (Json.onMember_pure key)

theorem onMembers_id : Json.onMembers (fun _ => (pure : Json → m Json)) = pure :=
  funext Json.onMembers_pure

theorem onItems_id : Json.onItems (pure : Json → m Json) = pure :=
  funext Json.onItems_pure

omit [LawfulMonad m] in
theorem onObj_id : Json.onObj (pure : Json → m Json) = pure := by
  funext j
  cases j <;> rfl

omit [LawfulMonad m] in
theorem onArr_id : Json.onArr (pure : Json → m Json) = pure := by
  funext j
  cases j <;> rfl

omit [LawfulMonad m] in
theorem unlessNull_id : Json.unlessNull (pure : Json → m Json) = pure := by
  funext j
  cases j <;> rfl

theorem ofObjects_ownScheme {kind : PlaceKind} (h : kind ≠ .tabs) : (ownScheme kind).OfObjects := by
  cases kind with
  | tabs => exact absurd rfl h
  | _ => trivial

/-- A place that is an object, or is none. -/
theorem onObj_mapSlots {trail : Trail} {kind : PlaceKind} (h : trail.kind? = some kind) (hkind : kind ≠ .tabs) :
    Json.onObj (mapSlots act trail) = (ownScheme kind).mapTexts act := by
  rw [mapSlots_eq h, Scheme.onObj_mapTexts (ofObjects_ownScheme hkind)]

/-- Queries hold no texts. -/
theorem query_mapSlots (trail : Trail) : Json.onObj (Walk.query (mapSlots act) trail) = pure := by
  funext q
  have hquery : Walk.query (mapSlots act) trail q = Walk.query (fun _ => pure) trail q := by
    refine Walk.compatible_eq.query_reached trail q fun k p hp t j ht _ => ?_
    rcases hp.kind_cases (.inl rfl) with rfl | rfl
    · rw [mapSlots_none ht rfl]
    · rw [mapSlots_none ht rfl]
  cases q with
  | obj ms => exact hquery.trans (((Walk.query_perform trail (.obj ms)).1 rfl).trans (Walk.perform_pure _ _))
  | _ => rfl

theorem settings_mapSlots (trail : Trail) :
    Json.onObj (Walk.settings (mapSlots act) trail) = settingsScheme.mapTexts act := by
  have hsettings : Walk.settings (mapSlots act) trail = settingsScheme.mapTexts act := by
    have hclicks : Walk.columnClick (mapSlots act) (trail.push .visualizationSettings none) =
        fun _ => (pure : Json → m Json) := by
      funext key column
      rw [Walk.columnClick, mapSlots_none rfl rfl, onObj_id, onMember_id]
    funext s
    rw [Walk.settings, hclicks, onObj_mapSlots rfl (by decide), mapSlots_none rfl rfl, onArr_id,
      onMembers_id, onObj_mapSlots rfl (by decide), mapSlots_none rfl rfl, onObj_id]
    simp only [onMember_id, pure_bind, mapSlots_push]
    rfl
  rw [hsettings]
  exact Scheme.onObj_mapTexts (Scheme.ofObjects_within (ofObjects_ownScheme (by decide))) act

theorem card_mapSlots (trail : Trail) :
    Walk.card (mapSlots act) trail = cardScheme.mapTexts act := by
  funext c
  rw [Walk.card, settings_mapSlots, query_mapSlots, mapSlots_none rfl rfl, onObj_id, onItems_id]
  simp only [onMember_id, pure_bind, mapSlots_push]
  rfl

theorem dashboard_mapSlots (trail : Trail) :
    Walk.dashboard (mapSlots act) trail = dashboardScheme.mapTexts act := by
  have hcard (t : Trail) : Json.onObj (Walk.card (mapSlots act) t) = cardScheme.mapTexts act := by
    rw [card_mapSlots]
    exact Scheme.onObj_mapTexts (Scheme.ofObjects_within (ofObjects_ownScheme (by decide))) act
  have hparameter (t : Trail) :
      Json.onObj (Walk.parameter (mapSlots act) t) = (ownScheme .parameter).mapTexts act := by
    rw [show Walk.parameter (mapSlots act) t = (ownScheme .parameter).mapTexts act from
      funext fun j => congrFun (mapSlots_push .parameter (j.text? "name") t) j]
    exact Scheme.onObj_mapTexts (ofObjects_ownScheme (by decide)) act
  have htabs (t : Trail) : Json.onArr (mapSlots act (t.push .tabs none)) = (ownScheme .tabs).mapTexts act := by
    rw [mapSlots_push]
    funext j
    cases j <;> rfl
  funext d
  rw [Walk.dashboard, hcard, hparameter, htabs, mapSlots_none rfl rfl, mapSlots_none rfl rfl, unlessNull_id]
  simp only [onMember_id, pure_bind, mapSlots_push]
  rfl

/-- A walk that acts on the text slots of each place acts on the texts of the document, and on nothing
else. -/
theorem document_mapSlots (kind : EntityKind) (trail : Trail) :
    Walk.document kind (mapSlots act) trail = (documentScheme kind).mapTexts act := by
  cases kind with
  | card => exact card_mapSlots trail
  | dashboard => exact dashboard_mapSlots trail

end Walks

end Rehome.Label
