import Rehome.Proofs.Place.Visits
import Rehome.Proofs.Reference.Columns
import Rehome.Proofs.Reference.Needs
import Rehome.Proofs.Reference.Sources

/-! # What a document mentions

The references that a renaming looks up are at fixed positions of the places of a document: field references
(`FieldAt`), some of them in the text of a key, ids (`IdAt`), and the sources of queries. Whatever has become of
the places inside of a place, a visit finds the same references there (`MentionsAt.of_keeps`). -/

namespace Rehome

/-- What a document may refer to by its id. -/
inductive Reference where
  | table (table : TableId)
  | column (column : ColumnId)
  | card (card : CardId)
  | dashboard (dashboard : DashboardId)
deriving DecidableEq, Repr

/-- The mapping has nothing for an id, and does not lead to it either. -/
def Mapping.Lacks (m : Mapping) : Reference → Prop
  | .table t => m.tables.tables.lookup t = none ∧ ¬m.tables.isDestinationTable t
  | .column c => ¬m.tables.isSourceColumn c ∧ ¬m.tables.isDestinationColumn c ∧ ¬m.overrides.isReplacement c
  | .card c => m.moves.cards.lookup c = none ∧ ∀ p ∈ m.moves.cards, p.2 ≠ c
  | .dashboard d => m.moves.dashboards.lookup d = none ∧ ∀ p ∈ m.moves.dashboards, p.2 ≠ d

/-! ## Positions -/

/-- The text of a key holds `["ref", f]`. -/
def KeyHolds (key : String) (f : Json) : Prop :=
  ∃ j, Json.parse? key = some j ∧ j.item? 0 = some (.str "ref") ∧ j.item? 1 = some f

/-- `FieldAt kind k p f` holds when the place `p` of kind `k`, in a document of an entity of that kind, has `f`
where there may be a field reference. -/
inductive FieldAt : EntityKind → PlaceKind → Json → Json → Prop
  /-- A query part or join has it under any of its keys. -/
  | query {kind : EntityKind} {k : PlaceKind} {p f : Json} {e : String × Json} : e ∈ Walk.ownMembers p →
    RefersAt k (.obj [e]) f → FieldAt kind k p f
  | result {p i f : Json} {items : List Json} : p.member? "result_metadata" = some (.arr items) → i ∈ items →
    i.member? "field_ref" = some f → FieldAt .card .card p f
  | parameterMapping {kind : EntityKind} {p target f : Json} : p.member? "target" = some target →
    target.item? 0 = some (.str "dimension") → target.item? 1 = some f → FieldAt kind .parameterMapping p f
  | parameterValues {kind : EntityKind} {p config f : Json} : p.member? "values_source_config" = some config →
    config.member? "value_field" = some f → FieldAt kind .parameter p f
  | tableColumn {kind : EntityKind} {i f : Json} {items : List Json} : i ∈ items →
    i.member? "fieldRef" = some f → FieldAt kind .tableColumns (.arr items) f
  | tableColumnKey {kind : EntityKind} {i f : Json} {items : List Json} {key : String} : i ∈ items →
    i.member? "key" = some (.str key) → KeyHolds key f → FieldAt kind .tableColumns (.arr items) f
  | columnKey {kind : EntityKind} {p f : Json} {key : String} : key ∈ p.keys → KeyHolds key f →
    FieldAt kind .columnSettings p f
  | clickMapping {kind : EntityKind} {p dimension f : Json} {members : List (String × Json)}
    {e : String × Json} : p.member? "parameterMapping" = some (.obj members) → e ∈ members →
    Renaming.mappedDimension? e.2 = some dimension → dimension.item? 1 = some f →
    FieldAt kind .clickBehavior p f

/-- `IdAt kind k p ids v` holds when such a place has `v` where there may be an id of the kind `ids`. -/
inductive IdAt : EntityKind → PlaceKind → Json → IdentKind → Json → Prop
  | cardTable {p v : Json} : p.member? "table_id" = some v → IdAt .card .card p .table v
  | resultTable {p i v : Json} {items : List Json} : p.member? "result_metadata" = some (.arr items) →
    i ∈ items → i.member? "table_id" = some v → IdAt .card .card p .table v
  | summaryTable {p i v : Json} : p.member? "card" = some i → i.member? "table_id" = some v →
    IdAt .dashboard .card p .table v
  | dashcard {p v : Json} : p.member? "card_id" = some v → IdAt .dashboard .card p .card v
  | parameterMapping {kind : EntityKind} {p v : Json} : p.member? "card_id" = some v →
    IdAt kind .parameterMapping p .card v
  | parameterValues {kind : EntityKind} {p config v : Json} : p.member? "values_source_config" = some config →
    config.member? "card_id" = some v → IdAt kind .parameter p .card v
  | clickCard {kind : EntityKind} {p v : Json} : p.text? "linkType" ≠ some "dashboard" →
    p.member? "targetId" = some v → IdAt kind .clickBehavior p .card v
  | clickDashboard {kind : EntityKind} {p v : Json} : p.text? "linkType" = some "dashboard" →
    p.member? "targetId" = some v → IdAt kind .clickBehavior p .dashboard v

/-- The source of a query part or join. -/
def SourceAt (k : PlaceKind) (p v : Json) : Prop :=
  (k = .queryPart ∨ k = .join) ∧ ("source-table", v) ∈ Walk.ownMembers p

/-- `MentionsAt kind k p x` holds when such a place refers to `x`, outside of the places inside of it. -/
inductive MentionsAt (kind : EntityKind) (k : PlaceKind) (p : Json) : Reference → Prop
  | field {f : Json} {c : ColumnId} : FieldAt kind k p f → Clause.ofJson f = .fieldRef (.id c) →
    MentionsAt kind k p (.column c)
  | table {v : Json} {t : TableId} : IdAt kind k p .table v → Ident.ofJson? v = some t →
    MentionsAt kind k p (.table t)
  | card {v : Json} {c : CardId} : IdAt kind k p .card v → Ident.ofJson? v = some c →
    MentionsAt kind k p (.card c)
  | dashboard {v : Json} {d : DashboardId} : IdAt kind k p .dashboard v → Ident.ofJson? v = some d →
    MentionsAt kind k p (.dashboard d)
  | sourceTable {v : Json} {t : TableId} : SourceAt k p v → Source.ofJson v = .table t →
    MentionsAt kind k p (.table t)
  | sourceCard {v : Json} {c : CardId} : SourceAt k p v → Source.ofJson v = .card c →
    MentionsAt kind k p (.card c)

/-- A document refers to `x` at one of its places. -/
def Mentions (kind : EntityKind) (d : Json) (x : Reference) : Prop :=
  ∃ k p, Walk.DocumentPlace kind d k p ∧ MentionsAt kind k p x

/-- `NeedsAt kind k p c` holds when such a place cannot be renamed before the card `c` has been moved. -/
inductive NeedsAt : EntityKind → PlaceKind → Json → CardId → Prop
  | source {kind : EntityKind} {k : PlaceKind} {p : Json} {c : CardId} : k = .queryPart ∨ k = .join →
    c ∈ sourceCards p → NeedsAt kind k p c
  | dashcard {p : Json} {c : CardId} : HoldsCard p c → NeedsAt .dashboard .card p c
  | parameterValues {kind : EntityKind} {p config : Json} {c : CardId} :
    p.member? "values_source_config" = some config → HoldsCard config c → NeedsAt kind .parameter p c

/-- A card that a document needs: its queries read from it, a dashcard shows it, or the values of a parameter
come from it. -/
def NeedsCard (kind : EntityKind) (d : Json) (c : CardId) : Prop :=
  ∃ k p, Walk.DocumentPlace kind d k p ∧ NeedsAt kind k p c

/-! ## What a visit finds -/

variable {kind : EntityKind} {k : PlaceKind} {p j v f : Json}

/-- A visit of a card finds all members that hold no places. -/
theorem Walk.Keeps.member? {key : String} (h : Keeps .card p j) (hkey : key ∉ innerKeys .card) {v : Json}
    (hv : j.member? key = some v) : p.member? key = some v :=
  (h key hkey).symm.trans hv

theorem Walk.Keeps.ownMembers (h : Keeps k p j) (hk : k = .queryPart ∨ k = .join) :
    Walk.ownMembers j = Walk.ownMembers p := by
  rcases hk with rfl | rfl
  · exact h
  · exact h

theorem RefersAt.inQuery {x : Json} (h : RefersAt k p x) : k = .queryPart ∨ k = .join := by
  cases h with
  | filter | aggregation | fields | expression | breakout | ordering => exact .inl rfl
  | condition | joinFields => exact .inr rfl

theorem FieldAt.of_keeps (h : FieldAt kind k j f) (hj : Walk.Keeps k p j) : FieldAt kind k p f := by
  cases h with
  | query he hf => exact .query (hj.ownMembers hf.inQuery ▸ he) hf
  | result hitems hi hf => exact .result (hj.member? (by decide) hitems) hi hf
  | columnKey hkey hf =>
    have hkeys : j.keys = p.keys := hj
    exact .columnKey (hkeys ▸ hkey) hf
  | parameterMapping htarget hmark hf =>
    obtain rfl : j = p := hj
    exact .parameterMapping htarget hmark hf
  | parameterValues hconfig hf =>
    obtain rfl : j = p := hj
    exact .parameterValues hconfig hf
  | tableColumn hi hf =>
    obtain rfl : _ = p := hj
    exact .tableColumn hi hf
  | tableColumnKey hi hkey hf =>
    obtain rfl : _ = p := hj
    exact .tableColumnKey hi hkey hf
  | clickMapping hmembers he hdimension hf =>
    obtain rfl : j = p := hj
    exact .clickMapping hmembers he hdimension hf

theorem IdAt.of_keeps {ids : IdentKind} (h : IdAt kind k j ids v) (hj : Walk.Keeps k p j) :
    IdAt kind k p ids v := by
  cases h with
  | cardTable hv => exact .cardTable (hj.member? (by decide) hv)
  | resultTable hitems hi hv => exact .resultTable (hj.member? (by decide) hitems) hi hv
  | summaryTable hi hv => exact .summaryTable (hj.member? (by decide) hi) hv
  | dashcard hv => exact .dashcard (hj.member? (by decide) hv)
  | parameterMapping hv =>
    obtain rfl : j = p := hj
    exact .parameterMapping hv
  | parameterValues hconfig hv =>
    obtain rfl : j = p := hj
    exact .parameterValues hconfig hv
  | clickCard hlink hv =>
    obtain rfl : j = p := hj
    exact .clickCard hlink hv
  | clickDashboard hlink hv =>
    obtain rfl : j = p := hj
    exact .clickDashboard hlink hv

theorem SourceAt.of_keeps (h : SourceAt k j v) (hj : Walk.Keeps k p j) : SourceAt k p v :=
  ⟨h.1, hj.ownMembers h.1 ▸ h.2⟩

/-- What a visit finds mentioned at a place is mentioned there in the document. -/
theorem MentionsAt.of_keeps {x : Reference} (h : MentionsAt kind k j x) (hj : Walk.Keeps k p j) :
    MentionsAt kind k p x := by
  cases h with
  | field hf hc => exact .field (hf.of_keeps hj) hc
  | table hv ht => exact .table (hv.of_keeps hj) ht
  | card hv hc => exact .card (hv.of_keeps hj) hc
  | dashboard hv hd => exact .dashboard (hv.of_keeps hj) hd
  | sourceTable hv ht => exact .sourceTable (hv.of_keeps hj) ht
  | sourceCard hv hc => exact .sourceCard (hv.of_keeps hj) hc

theorem NeedsAt.of_keeps {c : CardId} (h : NeedsAt kind k j c) (hj : Walk.Keeps k p j) : NeedsAt kind k p c := by
  cases h with
  | source hk hc =>
    rw [sourceCards, hj.ownMembers hk, ← sourceCards] at hc
    exact .source hk hc
  | dashcard hc =>
    obtain ⟨v, hv, hc⟩ := hc
    exact .dashcard ⟨v, hj.member? (by decide) hv, hc⟩
  | parameterValues hconfig hc =>
    obtain rfl : j = p := hj
    exact .parameterValues hconfig hc

/-! ## What a renaming needs -/

namespace Renaming

variable {r : Renaming}

/-- Where the cards go that a place needs. -/
def neededAt (r : Renaming) (kind : EntityKind) (k : PlaceKind) (p : Json) : Set CardId :=
  {d | ∃ c, NeedsAt kind k p c ∧ r.mapping.moves.card? c = some d}

theorem ofJson?_of_readId {ids : IdentKind} {noun : String} {j : Json} {id : Ident ids}
    (h : r.readId noun j = .ok id) : Ident.ofJson? j = some id := by
  rw [readId] at h
  split at h
  · next hid => rw [hid, Except.ok.inj h]
  · cases h

theorem needsIn_neededCardValue_of {cards : Set CardId}
    (h : ∀ c d, Ident.ofJson? v = some c → r.mapping.moves.card? c = some d → d ∈ cards) :
    Plan.NeedsIn cards Json (r.neededCardValue v) := by
  apply Plan.needsIn_ofExcept_bind
  intro d hd
  refine (Plan.closed_needsIn _).bind (Plan.needsIn_need ?_) fun _ => (Plan.closed_needsIn _).pure _
  obtain ⟨c, hc, hd⟩ := Except.bind_eq_ok_iff.1 hd
  exact h c d (ofJson?_of_readId hc) (card_eq_ok_iff.1 hd)

/-- All that the renaming of a place needs is where the cards go that the place needs. -/
theorem needsIn_neededAt {trail : Trail} (hkind : trail.kind? = some k)
    (hcard : k = .card → trail.hasKind .dashboard = (kind == .dashboard)) (p : Json) :
    Plan.NeedsIn (r.neededAt kind k p) Json (r.place trail p) := by
  have hclosed := Plan.closed_needsIn (r.neededAt kind k p)
  have hquery (hk : k = .queryPart ∨ k = .join) : Plan.NeedsIn (r.neededAt kind k p) Json (r.place trail p) := by
    have hplace : trail.kind? = some .queryPart ∨ trail.kind? = some .join := by simpa [hkind] using hk
    refine (needsIn_place_query hplace p).mono ?_
    rintro d ⟨c, hc, hd⟩
    exact ⟨c, .source hk hc, hd⟩
  cases k with
  | queryPart => exact hquery (.inl rfl)
  | join => exact hquery (.inr rfl)
  | card =>
    rw [place, hkind]
    dsimp only
    rw [hcard rfl]
    cases kind with
    | card => exact Plan.needsIn_ofExcept (r.cardNode p)
    | dashboard =>
      refine hclosed.ensures_onMember_of (fun v hv => hclosed.unlessNull_self ?_) _ _ fun a _ => ?_
      · exact needsIn_neededCardValue_of fun c d hc hd => ⟨c, .dashcard ⟨v, hv, hc⟩, hd⟩
      · exact hclosed.onMember _ (fun i => Plan.needsIn_ofExcept (r.cardSummary i)) a
  | parameter =>
    rw [place, hkind]
    refine hclosed.of_ensures (hclosed.ensures_onMember_of fun config hconfig => ?_)
    refine hclosed.ensures_onMember_of (fun v hv => hclosed.unlessNull_self ?_) _ _ fun a _ => ?_
    · exact needsIn_neededCardValue_of fun c d hc hd => ⟨c, .parameterValues hconfig ⟨v, hv, hc⟩, hd⟩
    · exact hclosed.onMember _ (fun f => Plan.needsIn_ofExcept (r.fieldRef f)) a
  | _ =>
    rw [place, hkind]
    exact Plan.needsIn_ofExcept _

end Renaming

end Rehome
