import Rehome.Proofs.Place.Nesting

/-! # What the visits of a walk find

A walk visits every place of a document after the places inside of it, so a visit finds there what the document
has, whatever has become of those (`Walk.Keeps`). A property of computations that composition keeps holds of
the walk of a document as soon as it holds of the visits of its places (`Closed.document_visits`). -/

namespace Rehome

/-- The keys of a value, if it is an object. -/
def Json.keys : Json → List String
  | .obj members => members.map Prod.fst
  | _ => []

/-- The second value differs from the first in one member at most, whose values are related. -/
structure Json.ChangedAt (key : String) (Q : Json → Json → Prop) (j j' : Json) : Prop where
  others : ∀ k, k ≠ key → j'.member? k = j.member? k
  member : ∀ v', j'.member? key = some v' → ∃ v, j.member? key = some v ∧ Q v v'

/-! ## Places -/

namespace Walk

/-- Settings, and the places inside of them. -/
inductive SettingsPlace : Json → PlaceKind → Json → Prop
  | settings (s : Json) : SettingsPlace s .visualizationSettings s
  | series {s p : Json} : s.member? "series_settings" = some p → SettingsPlace s .seriesSettings p
  | tableColumns {s p : Json} : s.member? "table.columns" = some p → SettingsPlace s .tableColumns p
  | columns {s p : Json} : s.member? "column_settings" = some p → SettingsPlace s .columnSettings p
  | columnClick {s p : Json} {members : List (String × Json)} {e : String × Json} :
    s.member? "column_settings" = some (.obj members) → e ∈ members →
    e.2.member? "click_behavior" = some p → SettingsPlace s .clickBehavior p
  | click {s p : Json} : s.member? "click_behavior" = some p → SettingsPlace s .clickBehavior p

/-- A card or dashcard, and the places inside of it. -/
inductive CardPlace : Json → PlaceKind → Json → Prop
  | card (d : Json) : CardPlace d .card d
  | settings {d s p : Json} {k : PlaceKind} : d.member? "visualization_settings" = some s →
    SettingsPlace s k p → CardPlace d k p
  | query {d q p : Json} {k : PlaceKind} : d.query? = some q → Reaches .queryPart q k p → CardPlace d k p
  | mapping {d p : Json} {items : List Json} : d.member? "parameter_mappings" = some (.arr items) →
    p ∈ items → CardPlace d .parameterMapping p

/-- The places of a document. -/
inductive DocumentPlace : EntityKind → Json → PlaceKind → Json → Prop
  | card {d p : Json} {k : PlaceKind} : CardPlace d k p → DocumentPlace .card d k p
  | dashboard (d : Json) : DocumentPlace .dashboard d .dashboard d
  | dashcard {d i p : Json} {items : List Json} {k : PlaceKind} :
    d.member? "dashcards" = some (.arr items) → i ∈ items → CardPlace i k p → DocumentPlace .dashboard d k p
  | tabs {d p : Json} : d.member? "tabs" = some p → DocumentPlace .dashboard d .tabs p
  | parameter {d p : Json} {items : List Json} : d.member? "parameters" = some (.arr items) → p ∈ items →
    DocumentPlace .dashboard d .parameter p
  | values {d p : Json} : d.member? "param_values" = some p → DocumentPlace .dashboard d .paramValues p
  | fields {d p : Json} : d.member? "param_fields" = some p → DocumentPlace .dashboard d .paramFields p

/-- The members of a place that hold the places inside of it. -/
def innerKeys : PlaceKind → List String
  | .dashboard => ["dashcards", "tabs", "parameters", "param_values", "param_fields"]
  | .card => ["visualization_settings", "dataset_query", "parameter_mappings"]
  | .visualizationSettings => ["series_settings", "table.columns", "column_settings", "click_behavior"]
  | _ => []

/-- What a visit finds at a place `p`: what the document has there, but for the places inside of it. -/
def Keeps (k : PlaceKind) (p j : Json) : Prop :=
  match k with
  | .dashboard | .card | .visualizationSettings => ∀ key ∉ innerKeys k, j.member? key = p.member? key
  | .queryPart | .join => ownMembers j = ownMembers p
  | .columnSettings => j.keys = p.keys
  | _ => j = p

end Walk

variable {m : Type → Type} [Monad m] [LawfulMonad m] {α β : Type}

/-! ## What computations ensure -/

/-- What follows the computation may rely on a property of what it has come to. -/
def Ensures (K : (α : Type) → m α → Prop) (Q : α → Prop) (x : m α) : Prop :=
  ∀ (β : Type) (g : α → m β), (∀ a, Q a → K β (g a)) → K β (x >>= g)

section Ensures

variable {K : (α : Type) → m α → Prop}

theorem ensures_pure {Q : α → Prop} {a : α} (h : Q a) : Ensures K Q (pure a) := by
  intro β g hg
  rw [pure_bind]
  exact hg a h

theorem ensures_bind {P : α → Prop} {Q : β → Prop} {x : m α} {f : α → m β} (hx : Ensures K P x)
    (hf : ∀ a, P a → Ensures K Q (f a)) : Ensures K Q (x >>= f) := by
  intro γ g hg
  rw [bind_assoc]
  exact hx γ _ fun a ha => hf a ha γ g hg

theorem ensures_mapM {P : α → β → Prop} {f : α → m β} {as : List α} (h : ∀ a ∈ as, Ensures K (P a) (f a)) :
    Ensures K (List.Forall₂ P as) (as.mapM f) := by
  induction as with
  | nil =>
    rw [List.mapM_nil]
    exact ensures_pure .nil
  | cons a as ih =>
    obtain ⟨ha, has⟩ := List.forall_mem_cons.1 h
    rw [List.mapM_cons]
    exact ensures_bind ha fun b hb => ensures_bind (ih has) fun bs hbs => ensures_pure (.cons hb hbs)

theorem ensures_onMember {key : String} {f : Json → m Json} {Q : Json → Json → Prop} {j : Json}
    (h : ∀ v, j.member? key = some v → Ensures K (Q v) (f v)) :
    Ensures K (j.ChangedAt key Q) (j.onMember key f) := by
  cases j with
  | obj members =>
    rw [Json.onMember]
    split
    · next v hv =>
      refine ensures_bind (h v hv) fun v' hv' => ensures_pure ⟨fun k hk => ?_, fun w hw => ?_⟩
      · exact Assoc.lookup_put_of_ne hk v' members
      · obtain rfl := Option.some.inj ((Assoc.lookup_put_self key v' members).symm.trans hw)
        exact ⟨v, hv, hv'⟩
    · next hnone =>
      exact ensures_pure ⟨fun _ _ => rfl, fun w hw => by cases hnone.symm.trans hw⟩
  | _ => exact ensures_pure ⟨fun _ _ => rfl, fun w hw => by cases hw⟩

end Ensures

namespace Closed

variable {K : (α : Type) → m α → Prop} (hK : Closed K)

include hK

omit [LawfulMonad m] in
theorem ensures {x : m α} (h : K α x) : Ensures K (fun _ => True) x :=
  fun _ _ hg => hK.bind h fun a => hg a trivial

theorem of_ensures {Q : α → Prop} {x : m α} (h : Ensures K Q x) : K α x := by
  have hpure := h α Pure.pure fun a _ => hK.pure a
  rwa [bind_pure] at hpure

/-- Changing one member, whatever its value becomes. -/
theorem ensures_onMember_of {key : String} {f : Json → m Json} {j : Json}
    (h : ∀ v, j.member? key = some v → K _ (f v)) :
    Ensures K (j.ChangedAt key fun _ _ => True) (j.onMember key f) :=
  ensures_onMember fun v hv => hK.ensures (h v hv)

/-- Changing the values of members leaves their keys alone. -/
theorem ensures_onMembers {f : String → Json → m Json} {j : Json}
    (h : ∀ members, j = .obj members → ∀ e ∈ members, K _ (f e.1 e.2)) :
    Ensures K (fun j' => j'.keys = j.keys) (j.onMembers f) := by
  cases j with
  | obj members =>
    have hmembers : Ensures K (List.Forall₂ (fun e e' => e'.1 = e.1) members)
        (members.mapM fun e => do return (e.1, ← f e.1 e.2)) := by
      apply ensures_mapM
      intro e he
      exact ensures_bind (hK.ensures (h members rfl e he)) fun v _ => ensures_pure rfl
    refine ensures_bind hmembers fun members' hkeys => ensures_pure ?_
    have hsame : List.Forall₂ (· = ·) (members'.map Prod.fst) (members.map Prod.fst) :=
      List.forall₂_map_left_iff.2 (List.forall₂_map_right_iff.2 hkeys.flip)
    rwa [List.forall₂_eq_eq_eq] at hsame
  | _ => exact ensures_pure rfl

theorem onMembers_mem {f : String → Json → m Json} {j : Json}
    (h : ∀ members, j = .obj members → ∀ e ∈ members, K _ (f e.1 e.2)) : K _ (j.onMembers f) :=
  hK.of_ensures (hK.ensures_onMembers h)

theorem onItems_mem {f : Json → m Json} {j : Json} (h : ∀ items, j = .arr items → ∀ i ∈ items, K _ (f i)) :
    K _ (j.onItems f) := by
  cases j with
  | arr items => exact hK.bind (hK.mapM_mem (h items rfl)) fun items => hK.pure _
  | _ => exact hK.pure _

omit [LawfulMonad m] in
theorem onItem_self {i : Nat} {f : Json → m Json} {j : Json} (h : ∀ v, j.item? i = some v → K _ (f v)) :
    K _ (j.onItem i f) := by
  cases j with
  | arr items =>
    rw [Json.onItem]
    split
    · next v hv => exact hK.bind (h v hv) fun _ => hK.pure _
    · exact hK.pure _
  | _ => exact hK.pure _

omit [LawfulMonad m] in
theorem onObj {f : Json → m Json} {j : Json} (h : K _ (f j)) : K _ (j.onObj f) := by
  cases j with
  | obj members => exact h
  | _ => exact hK.pure _

omit [LawfulMonad m] in
theorem onArr {f : Json → m Json} {j : Json} (h : K _ (f j)) : K _ (j.onArr f) := by
  cases j with
  | arr items => exact h
  | _ => exact hK.pure _

omit [LawfulMonad m] in
theorem unlessNull_self {f : Json → m Json} {j : Json} (h : K _ (f j)) : K _ (j.unlessNull f) := by
  cases j with
  | null => exact hK.pure _
  | _ => exact h

end Closed

/-! ## Walks -/

/-- The visits of some places have a property, whatever the places inside of them have become; `inside` tells
whether the cards among them are dashcards. -/
def Visits (K : (α : Type) → m α → Prop) (f : Trail → Json → m Json) (inside : Bool)
    (places : PlaceKind → Json → Prop) : Prop :=
  ∀ k p trail j, places k p → trail.kind? = some k →
    (k = .card → trail.hasKind .dashboard = inside) → Walk.Keeps k p j → K Json (f trail j)

omit [Monad m] [LawfulMonad m] in
/-- The visit of a place that is no card. -/
theorem Visits.of_ne {K : (α : Type) → m α → Prop} {f : Trail → Json → m Json} {inside : Bool}
    {places : PlaceKind → Json → Prop} (h : Visits K f inside places) {k : PlaceKind} {p : Json} (hp : places k p)
    {trail : Trail} (hkind : trail.kind? = some k) (hk : k ≠ .card) {j : Json} (hj : Walk.Keeps k p j) :
    K Json (f trail j) :=
  h k p trail j hp hkind (fun hcard => absurd hcard hk) hj

namespace Closed

variable {K : (α : Type) → m α → Prop} (hK : Closed K) {f : Trail → Json → m Json} {inside : Bool}

include hK

theorem settings_visits {s : Json} (h : Visits K f inside (Walk.SettingsPlace s)) (trail : Trail) :
    K _ (Walk.settings f trail s) := by
  refine hK.ensures_onMember_of (fun v hv => ?_) _ _ fun a ha => ?_
  · exact hK.onObj (h.of_ne (.series hv) rfl (by decide) rfl)
  refine hK.ensures_onMember_of (fun v hv => ?_) _ _ fun b hb => ?_
  · rw [ha.others _ (by decide)] at hv
    exact hK.onArr (h.of_ne (.tableColumns hv) rfl (by decide) rfl)
  have hcolumns : b.member? "column_settings" = s.member? "column_settings" := by
    rw [hb.others _ (by decide), ha.others _ (by decide)]
  refine ensures_onMember (Q := fun v v' => v'.keys = v.keys) (fun v hv => ?_) _ _ fun c hc => ?_
  · refine hK.ensures_onMembers fun members hmembers e he => hK.of_ensures (hK.ensures_onMember_of fun p hp => ?_)
    rw [hcolumns, hmembers] at hv
    exact hK.onObj (h.of_ne (.columnClick hv he hp) rfl (by decide) rfl)
  refine hK.ensures_onMember_of (fun v' hv' => ?_) _ _ fun d hd => ?_
  · obtain ⟨v, hv, hkeys⟩ := hc.member v' hv'
    rw [hcolumns] at hv
    exact hK.onObj (h.of_ne (.columns hv) rfl (by decide) hkeys)
  refine hK.ensures_onMember_of (fun v hv => ?_) _ _ fun e he => ?_
  · rw [hd.others _ (by decide), hc.others _ (by decide), hb.others _ (by decide), ha.others _ (by decide)] at hv
    exact hK.onObj (h.of_ne (.click hv) rfl (by decide) rfl)
  apply h.of_ne (.settings s) rfl (by decide)
  intro key hkey
  simp only [Walk.innerKeys, List.mem_cons, List.not_mem_nil, or_false, not_or] at hkey
  obtain ⟨hseries, htable, hcolumn, hclick⟩ := hkey
  rw [he.others _ hclick, hd.others _ hcolumn, hc.others _ hcolumn, hb.others _ htable, ha.others _ hseries]

theorem query_visits {q : Json} (h : Visits K f inside (Walk.Reaches .queryPart q)) (trail : Trail) :
    K _ (Walk.query f trail q) := by
  apply hK.compatible.query_reached (g := f) trail q
  intro k p hp trail j hkind hj
  obtain rfl | rfl := hp.kind_cases (.inl rfl)
  · exact h.of_ne hp hkind (by decide) hj
  · exact h.of_ne hp hkind (by decide) hj

theorem card_visits {d : Json} (h : Visits K f inside (Walk.CardPlace d)) {trail : Trail}
    (htrail : trail.hasKind .dashboard = inside) : K _ (Walk.card f trail d) := by
  refine hK.ensures_onMember_of (fun s hs => ?_) _ _ fun a ha => ?_
  · exact hK.onObj (hK.settings_visits (fun k p trail j hp => h k p trail j (.settings hs hp)) _)
  refine hK.ensures_onMember_of (fun v hv => ?_) _ _ fun b hb => ?_
  · rw [ha.others _ (by decide)] at hv
    refine hK.of_ensures (hK.ensures_onMember_of fun q hq => hK.onObj ?_)
    have hquery : d.query? = some q := by
      rw [Json.query?, hv]
      exact hq
    exact hK.query_visits (fun k p trail j hp => h k p trail j (.query hquery hp)) _
  refine hK.ensures_onMember_of (fun v hv => ?_) _ _ fun c hc => ?_
  · rw [hb.others _ (by decide), ha.others _ (by decide)] at hv
    refine hK.onItems_mem fun items hitems i hi => hK.onObj ?_
    rw [hitems] at hv
    exact h.of_ne (.mapping hv hi) rfl (by decide) rfl
  refine h _ d _ c (.card d) rfl (fun _ => htrail) fun key hkey => ?_
  simp only [Walk.innerKeys, List.mem_cons, List.not_mem_nil, or_false, not_or] at hkey
  obtain ⟨hsettings, hquery, hmappings⟩ := hkey
  rw [hc.others _ hmappings, hb.others _ hquery, ha.others _ hsettings]

theorem dashboard_visits {d : Json} (h : Visits K f true (Walk.DocumentPlace .dashboard d)) (trail : Trail) :
    K _ (Walk.dashboard f trail d) := by
  refine hK.ensures_onMember_of (fun v hv => ?_) _ _ fun a ha => ?_
  · refine hK.onItems_mem fun items hitems i hi => hK.onObj ?_
    rw [hitems] at hv
    exact hK.card_visits (fun k p trail j hp => h k p trail j (.dashcard hv hi hp)) rfl
  refine hK.ensures_onMember_of (fun v hv => ?_) _ _ fun b hb => ?_
  · rw [ha.others _ (by decide)] at hv
    exact hK.onArr (h.of_ne (.tabs hv) rfl (by decide) rfl)
  refine hK.ensures_onMember_of (fun v hv => ?_) _ _ fun c hc => ?_
  · rw [hb.others _ (by decide), ha.others _ (by decide)] at hv
    refine hK.onItems_mem fun items hitems i hi => hK.onObj ?_
    rw [hitems] at hv
    exact h.of_ne (.parameter hv hi) rfl (by decide) rfl
  refine hK.ensures_onMember_of (fun v hv => ?_) _ _ fun e he => ?_
  · rw [hc.others _ (by decide), hb.others _ (by decide), ha.others _ (by decide)] at hv
    exact hK.unlessNull_self (h.of_ne (.values hv) rfl (by decide) rfl)
  refine hK.ensures_onMember_of (fun v hv => ?_) _ _ fun g hg => ?_
  · rw [he.others _ (by decide), hc.others _ (by decide), hb.others _ (by decide), ha.others _ (by decide)] at hv
    exact hK.unlessNull_self (h.of_ne (.fields hv) rfl (by decide) rfl)
  apply h.of_ne (.dashboard d) rfl (by decide)
  intro key hkey
  simp only [Walk.innerKeys, List.mem_cons, List.not_mem_nil, or_false, not_or] at hkey
  obtain ⟨hdashcards, htabs, hparameters, hvalues, hfields⟩ := hkey
  rw [hg.others _ hfields, he.others _ hvalues, hc.others _ hparameters, hb.others _ htabs, ha.others _ hdashcards]

/-- The walk of a document has a property if the visits of its places have it, whatever has become of the places
inside of these. -/
theorem document_visits {kind : EntityKind} {d : Json}
    (h : Visits K f (kind == .dashboard) (Walk.DocumentPlace kind d)) : K _ (Walk.document kind f [] d) := by
  cases kind with
  | card => exact hK.card_visits (fun k p trail j hp => h k p trail j (.card hp)) rfl
  | dashboard => exact hK.dashboard_visits h []

end Closed

end Rehome
