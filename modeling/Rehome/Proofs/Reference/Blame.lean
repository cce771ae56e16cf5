import Rehome.Proofs.Data.Except
import Rehome.Proofs.Reference.Mentions

/-! # Whom errors of a renaming blame, and for what

Whatever goes wrong while a place is renamed is blamed on the owner of the document, and is either a shape that
is not known or a reference that the place mentions and that the mapping has nothing for (`faults_place`). So no
renaming ends like a migration may: with a request that fails, or with cards that need each other. -/

namespace Rehome

/-- The entity whose document an error was found in, for errors of renaming. -/
def MigrationError.owner? : MigrationError → Option Entity
  | .unresolvedReference owner _ | .malformed owner _ | .unknownCard owner _
  | .unknownDashboard owner _ => some owner
  | _ => none

/-- The error about a reference of an entity that the mapping has nothing for. -/
def Reference.missing (owner : Entity) : Reference → MigrationError
  | .table t => .unresolvedReference owner (.unresolvedTable t)
  | .column c => .unresolvedReference owner (.unresolvedColumn c)
  | .card c => .unknownCard owner c
  | .dashboard d => .unknownDashboard owner d

theorem Reference.owner?_missing (owner : Entity) (x : Reference) : (x.missing owner).owner? = some owner := by
  cases x <;> rfl

/-! ## What a mapping lacks -/

namespace Mapping

variable {m : Mapping}

theorem lacks_of_resolveTable {t : TableId} {e : MappingError} (h : m.resolveTable t = .error e) :
    e = .unresolvedTable t ∧ m.Lacks (.table t) := by
  rw [resolveTable, EquivalenceTable.resolveTable] at h
  split at h
  · cases h
  next hnone =>
  split at h
  · cases h
  next hnot =>
  exact ⟨(Except.error.inj h).symm, hnone, hnot⟩

theorem lacks_of_replaceColumn {c : ColumnId} {e : MappingError} (h : m.replaceColumn c = .error e) :
    e = .unresolvedColumn c ∧ m.Lacks (.column c) := by
  rw [replaceColumn, EquivalenceTable.resolveColumn] at h
  split at h
  · cases h
  next e' he' =>
  split at he'
  · cases he'
  next hnone =>
  split at h
  · cases h
  next hnot =>
  obtain rfl := Except.error.inj he'
  obtain ⟨hsource, hdestination⟩ := Option.or_eq_none_iff.1 hnone
  refine ⟨(Except.error.inj h).symm, ?_, ?_, hnot⟩
  · simp [EquivalenceTable.isSourceColumn, hsource]
  · simp [EquivalenceTable.isDestinationColumn, hdestination]

end Mapping

theorem Moves.lacks_of_find? {kind : IdentKind} {moves : List (Ident kind × Ident kind)} {id : Ident kind}
    (h : find? moves id = .none) : moves.lookup id = .none ∧ ∀ p ∈ moves, p.2 ≠ id := by
  rw [find?] at h
  split at h
  · cases h
  next hnone =>
  split at h
  · cases h
  next hany =>
  refine ⟨hnone, ?_⟩
  rintro p hp rfl
  exact hany (List.any_eq_true.2 ⟨p, hp, BEq.rfl⟩)

namespace Renaming

variable {r : Renaming} {refs : Set Reference} {α β : Type}

/-! ## Faults -/

/-- A failure is blamed on the owner of the document, for a shape that is not known, or for one of some references
that the mapping has nothing for. -/
def Faults (r : Renaming) (refs : Set Reference) (α : Type) (x : Except MigrationError α) : Prop :=
  ∀ e, x = .error e → (∃ detail, e = .malformed r.owner detail) ∨
    ∃ ref ∈ refs, r.mapping.Lacks ref ∧ e = ref.missing r.owner

theorem Faults.bind {x : Except MigrationError α} {f : α → Except MigrationError β} (hx : Faults r refs α x)
    (hf : ∀ a, x = .ok a → Faults r refs β (f a)) : Faults r refs β (x >>= f) := by
  intro e h
  cases x with
  | error e' =>
    obtain rfl := Except.error.inj h
    exact hx e' rfl
  | ok a => exact hf a rfl e h

theorem faults_ok (a : α) : Faults r refs α (.ok a) := fun _ h => by cases h

theorem closed_faults : Closed (Faults r refs) where
  pure a := faults_ok a
  bind hx hf := hx.bind fun a _ => hf a

theorem faults_malformed (detail : String) : Faults r refs α (r.malformed detail) := by
  intro e h
  exact .inl ⟨detail, (Except.error.inj h).symm⟩

theorem faults_missing {ref : Reference} (href : ref ∈ refs) (hlacks : r.mapping.Lacks ref) :
    Faults r refs α (.error (ref.missing r.owner)) := by
  intro e h
  exact .inr ⟨ref, href, hlacks, (Except.error.inj h).symm⟩

/-- The failure of a plan is one of its outcome. -/
theorem closed_faultsOutcome : Closed fun α (p : Plan α) => Faults r refs α p.outcome where
  pure a := faults_ok a
  bind {α β p f} hp hf := by
    cases h : p.outcome with
    | error e =>
      rw [Plan.bind_of_error h]
      rw [h] at hp
      exact fun e' he' => hp e' (congrArg _ (Except.error.inj he'))
    | ok a =>
      rw [Plan.bind_of_ok h]
      exact hf a

/-! ## Ids -/

theorem faults_table {t : TableId} (h : .table t ∈ refs) : Faults r refs TableId (r.table t) := by
  rw [table]
  cases hresolve : r.mapping.resolveTable t with
  | ok t' => exact faults_ok t'
  | error e =>
    obtain ⟨rfl, hlacks⟩ := Mapping.lacks_of_resolveTable hresolve
    exact faults_missing h hlacks

theorem faults_column {c : ColumnId} (h : .column c ∈ refs) : Faults r refs ColumnId (r.column c) := by
  rw [column]
  cases hreplace : r.mapping.replaceColumn c with
  | ok c' => exact faults_ok c'
  | error e =>
    obtain ⟨rfl, hlacks⟩ := Mapping.lacks_of_replaceColumn hreplace
    exact faults_missing h hlacks

theorem faults_card {c : CardId} (h : .card c ∈ refs) : Faults r refs CardId (r.card c) := by
  rw [card]
  split
  · exact faults_ok _
  · next hnone => exact faults_missing h (Moves.lacks_of_find? hnone)

theorem faults_dashboard {d : DashboardId} (h : .dashboard d ∈ refs) :
    Faults r refs DashboardId (r.dashboard d) := by
  rw [dashboard]
  split
  · exact faults_ok _
  · next hnone => exact faults_missing h (Moves.lacks_of_find? hnone)

theorem faults_readId {kind : IdentKind} (noun : String) (j : Json) :
    Faults r refs (Ident kind) (r.readId noun j) := by
  rw [readId]
  split
  · exact faults_ok _
  · exact faults_malformed _

theorem faults_tableValue {j : Json} (h : ∀ t, Ident.ofJson? j = some t → .table t ∈ refs) :
    Faults r refs Json (r.tableValue j) :=
  (faults_readId _ j).bind fun t ht =>
    (faults_table (h t (ofJson?_of_readId ht))).bind fun _ _ => faults_ok _

theorem faults_readCard {j : Json} (h : ∀ c, Ident.ofJson? j = some c → .card c ∈ refs) :
    Faults r refs CardId (r.readId "card" j >>= r.card) :=
  (faults_readId _ j).bind fun c hc => faults_card (h c (ofJson?_of_readId hc))

theorem faults_cardValue {j : Json} (h : ∀ c, Ident.ofJson? j = some c → .card c ∈ refs) :
    Faults r refs Json (r.cardValue j) :=
  (faults_readId _ j).bind fun c hc =>
    (faults_card (h c (ofJson?_of_readId hc))).bind fun _ _ => faults_ok _

theorem faults_dashboardValue {j : Json} (h : ∀ d, Ident.ofJson? j = some d → .dashboard d ∈ refs) :
    Faults r refs Json (r.dashboardValue j) :=
  (faults_readId _ j).bind fun d hd =>
    (faults_dashboard (h d (ofJson?_of_readId hd))).bind fun _ _ => faults_ok _

theorem faults_neededCardValue {j : Json} (h : ∀ c, Ident.ofJson? j = some c → .card c ∈ refs) :
    Faults r refs Json (r.neededCardValue j).outcome := by
  apply closed_faultsOutcome.bind (x := Plan.ofExcept _) (faults_readCard h)
  intro d
  exact closed_faultsOutcome.bind (x := Plan.need d) (faults_ok ()) fun _ => closed_faultsOutcome.pure _

/-! ## Field references -/

/-- The column is among some references, if the value refers to one by its id. -/
abbrev FieldIn (refs : Set Reference) (j : Json) : Prop := PointsTo (fun c => .column c ∈ refs) j

theorem faults_retarget {target : FieldTarget} (h : ∀ c, target = .id c → .column c ∈ refs) (j : Json) :
    Faults r refs Json (r.retarget target j) := by
  cases target with
  | id c => exact (faults_column (h c rfl)).bind fun _ _ => faults_ok _
  | name n => exact faults_ok _
  | unknown => exact faults_ok _

theorem faults_fieldRef? {j : Json} (h : FieldIn refs j) : Faults r refs (Option Json) (r.fieldRef? j) := by
  rw [fieldRef?]
  split
  · next target htarget =>
    have hretarget := faults_retarget (r := r) (fun c hc => h c (htarget.trans (congrArg _ hc))) j
    exact closed_faults.bind hretarget fun _ => faults_ok _
  · exact faults_ok _

theorem faults_fieldRef {j : Json} (h : FieldIn refs j) : Faults r refs Json (r.fieldRef j) :=
  (faults_fieldRef? h).bind fun _ _ => faults_ok _

mutual

theorem faults_nested : (j : Json) → (∀ f, ThroughLists j f → FieldIn refs f) → Faults r refs Json (r.nested j)
  | .arr items, h => by
    rw [nested]
    apply (faults_fieldRef? (h _ (.refl _))).bind
    intro renamed hrenamed
    cases renamed with
    | some j => exact faults_ok j
    | none =>
      have hnot : (Clause.ofJson (.arr items)).isFieldRef = false := fieldRef?_eq_none_iff.1 hrenamed
      refine (faults_nestedItems items fun i hi f hf => ?_).bind fun _ _ => faults_ok _
      exact h f (.item (by simp [hnot]) hi hf)
  | .null, _ | .bool _, _ | .int _, _ | .double _, _ | .str _, _ | .obj _, _ => faults_ok _

theorem faults_nestedItems : (items : List Json) → (∀ i ∈ items, ∀ f, ThroughLists i f → FieldIn refs f) →
    Faults r refs (List Json) (r.nestedItems items)
  | [], _ => faults_ok _
  | j :: rest, h => by
    obtain ⟨hj, hrest⟩ := List.forall_mem_cons.1 h
    rw [nestedItems]
    exact (faults_nested j hj).bind fun _ _ => (faults_nestedItems rest hrest).bind fun _ _ => faults_ok _

end

/-! ## Query parts and joins -/

mutual

theorem faults_filter : (j : Json) → (∀ f, ThroughClauses j f → FieldIn refs f) →
    Faults r refs Json (r.filter j)
  | .arr (operator :: operands), h => by
    have hoperands (hconstant : Clause.ofJson (.arr (operator :: operands)) ≠ .constant)
        (hnot : (Clause.ofJson (.arr (operator :: operands))).isFieldRef = false) :
        Faults r refs Json (do return .arr (operator :: (← r.filters operands))) := by
      obtain ⟨text, rest, heq⟩ := Clause.ofJson_ne_constant hconstant
      obtain ⟨rfl, rfl⟩ := List.cons.inj (Json.arr.inj heq)
      refine (faults_filters operands fun i hi f hf => ?_).bind fun _ _ => faults_ok _
      exact h f (.operand (by simp [hnot]) hi hf)
    rw [filter]
    split
    · exact faults_ok _
    · next target htarget => exact faults_retarget (fun c hc => h _ (.refl _) c (htarget.trans (congrArg _ hc))) _
    · next hclause =>
      split
      · exact faults_malformed _
      · exact hoperands (by simp [hclause]) (by simp [hclause, Clause.isFieldRef])
    · next hclause =>
      split
      · exact faults_malformed _
      · exact hoperands (by simp [hclause]) (by simp [hclause, Clause.isFieldRef])
    · exact faults_malformed _
    · exact faults_malformed _
  | .arr [], _ | .null, _ | .bool _, _ | .int _, _ | .double _, _ | .str _, _ | .obj _, _ => faults_ok _

theorem faults_filters : (items : List Json) → (∀ i ∈ items, ∀ f, ThroughClauses i f → FieldIn refs f) →
    Faults r refs (List Json) (r.filters items)
  | [], _ => faults_ok _
  | j :: rest, h => by
    obtain ⟨hj, hrest⟩ := List.forall_mem_cons.1 h
    rw [filters]
    exact (faults_filter j hj).bind fun _ _ => (faults_filters rest hrest).bind fun _ _ => faults_ok _

end

theorem faults_expressions {j : Json}
    (h : ∀ members, j = .obj members → ∀ e ∈ members, ∀ f, ThroughLists e.2 f → FieldIn refs f) :
    Faults r refs Json (r.expressions j) := by
  cases j with
  | obj members =>
    exact closed_faults.onMembers_mem (f := fun _ => r.nested) fun members' hmembers e he =>
      faults_nested e.2 (h members' hmembers e he)
  | _ => exact faults_malformed _

theorem faults_breakout {j : Json} (h : ∀ items, j = .arr items → ∀ f ∈ items, FieldIn refs f) :
    Faults r refs Json (r.breakout j) := by
  cases j with
  | arr items =>
    exact closed_faults.onItems_mem (f := r.fieldRef) fun items' hitems f hf => faults_fieldRef (h items' hitems f hf)
  | _ => exact faults_malformed _

theorem faults_orderings {j : Json}
    (h : ∀ items, j = .arr items → ∀ o ∈ items, ∀ f, o.item? 1 = some f → FieldIn refs f) :
    Faults r refs Json (r.orderings j) := by
  cases j with
  | arr items =>
    apply closed_faults.onItems_mem (f := r.ordering) (j := .arr items)
    intro items' hitems o ho
    rw [ordering]
    split
    · exact faults_malformed _
    · next f hf => exact (faults_fieldRef (h items' hitems o ho f hf)).bind fun _ _ => faults_ok _
  | _ => exact faults_malformed _

theorem faults_source {j : Json} (htable : ∀ t, Source.ofJson j = .table t → .table t ∈ refs)
    (hcard : ∀ c, Source.ofJson j = .card c → .card c ∈ refs) : Faults r refs Json (r.source j).outcome := by
  rw [source]
  split
  · next t ht =>
    exact closed_faultsOutcome.bind (x := Plan.ofExcept _) (faults_table (htable t ht)) fun _ =>
      closed_faultsOutcome.pure _
  · next c hc =>
    apply closed_faultsOutcome.bind (x := Plan.ofExcept _) (faults_card (hcard c hc))
    intro d
    exact closed_faultsOutcome.bind (x := Plan.need d) (faults_ok ()) fun _ => closed_faultsOutcome.pure _
  · exact faults_malformed _

/-- A member of a query part or join has faults at its own positions alone. -/
structure FaultsAt (r : Renaming) (k : PlaceKind) (f : String → Json → Plan Json) : Prop where
  member (refs : Set Reference) {key : String} {v : Json}
    (hfields : ∀ x, RefersAt k (.obj [(key, v)]) x → FieldIn refs x)
    (htable : ∀ t, key = "source-table" → Source.ofJson v = .table t → .table t ∈ refs)
    (hcard : ∀ c, key = "source-table" → Source.ofJson v = .card c → .card c ∈ refs) :
    Faults r refs Json (f key v).outcome
  inner {key : String} (h : key = "source-query" ∨ key = "joins") (v : Json) : f key v = pure v

theorem faultsAt_queryMember : FaultsAt r .queryPart r.queryMember where
  member refs {key v} hfields htable hcard := by
    have hmember {k : String} (hk : key = k) : (Json.obj [(key, v)]).member? k = some v := by
      rw [hk]
      exact List.lookup_cons_self
    rw [queryMember]
    split_ifs with hsource hfilter hlists hexpressions hbreakout horder
    · exact faults_source (fun t => htable t hsource) fun c => hcard c hsource
    · exact faults_filter v fun f hf => hfields f (.filter (hmember hfilter) hf)
    · refine faults_nested v fun f hf => hfields f ?_
      rcases hlists with hkey | hkey
      · exact .aggregation (hmember hkey) hf
      · exact .fields (hmember hkey) hf
    · refine faults_expressions fun members hmembers e he f hf => hfields f ?_
      exact .expression (hmembers ▸ hmember hexpressions) he hf
    · refine faults_breakout fun items hitems f hf => hfields f ?_
      exact .breakout (hitems ▸ hmember hbreakout) hf
    · refine faults_orderings fun items hitems o ho f hf => hfields f ?_
      exact .ordering (hitems ▸ hmember horder) ho hf
    · exact faults_ok v
  inner h v := by rcases h with rfl | rfl <;> rfl

theorem faultsAt_joinMember : FaultsAt r .join r.joinMember where
  member refs {key v} hfields htable hcard := by
    have hmember {k : String} (hk : key = k) : (Json.obj [(key, v)]).member? k = some v := by
      rw [hk]
      exact List.lookup_cons_self
    rw [joinMember]
    split_ifs with hsource hlists
    · exact faults_source (fun t => htable t hsource) fun c => hcard c hsource
    · refine faults_nested v fun f hf => hfields f ?_
      rcases hlists with hkey | hkey
      · exact .condition (hmember hkey) hf
      · exact .joinFields (hmember hkey) hf
    · exact faults_ok v
  inner h v := by rcases h with rfl | rfl <;> rfl

theorem faults_members {kind : EntityKind} {k : PlaceKind} (hk : k = .queryPart ∨ k = .join)
    {f : String → Json → Plan Json} (hf : FaultsAt r k f) (p : Json) :
    Faults r {x | MentionsAt kind k p x} Json (p.onMembers f).outcome := by
  apply closed_faultsOutcome.onMembers_mem (f := f)
  intro members hmembers e he
  obtain ⟨key, v⟩ := e
  by_cases hinner : key = "source-query" ∨ key = "joins"
  · rw [hf.inner hinner]
    exact faults_ok v
  · have hown : (key, v) ∈ Walk.ownMembers p := by
      rw [hmembers, Walk.ownMembers, List.mem_filter]
      simpa [not_or] using And.intro he hinner
    refine hf.member _ (fun x hx c hc => .field (.query hown hx) hc) (fun t hkey ht => ?_) fun c hkey hc => ?_
    · exact .sourceTable ⟨hk, hkey ▸ hown⟩ ht
    · exact .sourceCard ⟨hk, hkey ▸ hown⟩ hc

/-! ## Cards, dashcards and parameters -/

theorem faults_unlessNull {f : Json → Except MigrationError Json} {j : Json} (h : Faults r refs Json (f j)) :
    Faults r refs Json (j.unlessNull f) :=
  closed_faults.unlessNull_self h

theorem member?_metadataReference {column column' : Json} (h : r.metadataReference column = .ok column') :
    column'.member? "table_id" = column.member? "table_id" := by
  rw [metadataReference] at h
  split at h
  · rw [Except.ok.inj h]
  split at h
  · obtain ⟨c', -, h⟩ := Except.bind_eq_ok_iff.1 h
    obtain rfl := Except.ok.inj h
    rw [Json.member?_setMember_of_ne (by decide), Json.member?_setMember_of_ne (by decide)]
  · rw [Except.ok.inj h]

theorem faults_metadataColumn {column : Json}
    (hfield : ∀ f, column.member? "field_ref" = some f → FieldIn refs f)
    (htable : ∀ v t, column.member? "table_id" = some v → Ident.ofJson? v = some t → .table t ∈ refs) :
    Faults r refs Json (r.metadataColumn column) := by
  refine Faults.bind ?_ fun column' hcolumn => ?_
  · rw [metadataReference]
    split
    · exact faults_ok _
    next f hf =>
    split
    · next c hc => exact (faults_column (hfield f hf c hc)).bind fun _ _ => faults_ok _
    · exact faults_ok _
  · refine closed_faults.of_ensures (closed_faults.ensures_onMember_of fun v hv => faults_unlessNull ?_)
    rw [member?_metadataReference hcolumn] at hv
    exact faults_tableValue fun t => htable v t hv

theorem faults_cardNode (p : Json) : Faults r {x | MentionsAt .card .card p x} Json (r.cardNode p) := by
  have hclosed : Closed (Faults r {x | MentionsAt .card .card p x}) := closed_faults
  have hdatabase (v : Json) : Faults r {x | MentionsAt .card .card p x} Json
      (v.unlessNull fun _ => pure r.databaseValue) :=
    faults_unlessNull (faults_ok _)
  apply hclosed.ensures_onMember_of (fun v _ => hdatabase v) _ _
  intro a ha
  apply hclosed.ensures_onMember_of (fun v _ => hclosed.pure _) _ _
  intro b hb
  refine hclosed.ensures_onMember_of (fun v hv => faults_unlessNull ?_) _ _ fun c hc => ?_
  · rw [hb.others _ (by decide), ha.others _ (by decide)] at hv
    exact faults_tableValue fun t ht => .table (.cardTable hv) ht
  · refine hclosed.of_ensures (hclosed.ensures_onMember_of fun v hv => ?_)
    rw [hc.others _ (by decide), hb.others _ (by decide), ha.others _ (by decide)] at hv
    apply hclosed.onItems_mem
    intro items hitems i hi
    rw [hitems] at hv
    refine faults_metadataColumn (fun f hf c hc => ?_) fun w t hw ht => ?_
    · exact .field (.result hv hi hf) hc
    · exact .table (.resultTable hv hi hw) ht

theorem faults_dashcardNode (p : Json) :
    Faults r {x | MentionsAt .dashboard .card p x} Json (r.dashcardNode p).outcome := by
  have hclosed : Closed fun α (q : Plan α) => Faults r {x | MentionsAt .dashboard .card p x} α q.outcome :=
    closed_faultsOutcome
  have hfaults : Closed (Faults r {x | MentionsAt .dashboard .card p x}) := closed_faults
  refine hclosed.ensures_onMember_of (fun v hv => hclosed.unlessNull_self ?_) _ _ fun a ha => ?_
  · exact faults_neededCardValue fun c hc => .card (.dashcard hv) hc
  · refine hclosed.of_ensures (hclosed.ensures_onMember_of fun i hi => ?_)
    rw [ha.others _ (by decide)] at hi
    refine hfaults.ensures_onMember_of (fun v hv => faults_unlessNull ?_) _ _ fun b _ => ?_
    · exact faults_tableValue fun t ht => .table (.summaryTable hi hv) ht
    · exact hfaults.onMember _ (hfaults.unlessNull fun _ => faults_ok _) b

theorem faults_parameterMapping (kind : EntityKind) (p : Json) :
    Faults r {x | MentionsAt kind .parameterMapping p x} Json (r.parameterMapping p) := by
  have hclosed : Closed (Faults r {x | MentionsAt kind .parameterMapping p x}) := closed_faults
  refine hclosed.ensures_onMember_of (fun v hv => faults_unlessNull ?_) _ _ fun a ha => ?_
  · exact faults_cardValue fun c hc => .card (.parameterMapping hv) hc
  · refine hclosed.of_ensures (hclosed.ensures_onMember_of fun target htarget => ?_)
    rw [ha.others _ (by decide)] at htarget
    rw [dimensionTarget]
    split
    · next hmark =>
      refine hclosed.onItem_self fun f hf => faults_fieldRef fun c hc => ?_
      exact .field (.parameterMapping htarget hmark hf) hc
    · exact faults_ok _

theorem faults_parameter (kind : EntityKind) (p : Json) :
    Faults r {x | MentionsAt kind .parameter p x} Json (r.parameter p).outcome := by
  have hclosed : Closed fun α (q : Plan α) => Faults r {x | MentionsAt kind .parameter p x} α q.outcome :=
    closed_faultsOutcome
  refine hclosed.of_ensures (hclosed.ensures_onMember_of fun config hconfig => ?_)
  refine hclosed.ensures_onMember_of (fun v hv => hclosed.unlessNull_self ?_) _ _ fun a ha => ?_
  · exact faults_neededCardValue fun c hc => .card (.parameterValues hconfig hv) hc
  · refine hclosed.of_ensures (hclosed.ensures_onMember_of fun f hf => ?_)
    rw [ha.others _ (by decide)] at hf
    exact faults_fieldRef fun c hc => .field (.parameterValues hconfig hf) hc

/-! ## Settings -/

theorem faults_refKey {key : String} (h : ∀ f, KeyHolds key f → FieldIn refs f) :
    Faults r refs String (r.refKey key) := by
  rw [refKey]
  split
  · exact faults_ok _
  next j hj =>
  refine Faults.bind ?_ fun _ _ => faults_ok _
  rw [refValue?]
  split
  · next f hmark hf => exact (faults_fieldRef? (h f ⟨j, hj, hmark, hf⟩)).bind fun _ _ => faults_ok _
  · exact faults_ok _

theorem faults_tableColumns (kind : EntityKind) (p : Json) :
    Faults r {x | MentionsAt kind .tableColumns p x} Json (r.tableColumns p) := by
  have hclosed : Closed (Faults r {x | MentionsAt kind .tableColumns p x}) := closed_faults
  apply hclosed.onItems_mem
  intro items hitems i hi
  subst hitems
  refine hclosed.ensures_onMember_of (fun f hf => ?_) _ _ fun a ha => ?_
  · exact faults_fieldRef fun c hc => .field (.tableColumn hi hf) hc
  · refine hclosed.of_ensures (hclosed.ensures_onMember_of fun v hv => ?_)
    rw [ha.others _ (by decide)] at hv
    cases v with
    | str key =>
      have hkey : Faults r {x | MentionsAt kind .tableColumns (.arr items) x} String (r.refKey key) :=
        faults_refKey fun f hf c hc => .field (.tableColumnKey hi hv hf) hc
      exact hkey.bind fun _ _ => faults_ok _
    | _ => exact faults_ok _

theorem faults_columnSettings (kind : EntityKind) (p : Json) :
    Faults r {x | MentionsAt kind .columnSettings p x} Json (r.columnSettings p) := by
  have hclosed : Closed (Faults r {x | MentionsAt kind .columnSettings p x}) := closed_faults
  cases p with
  | obj members =>
    refine hclosed.bind (hclosed.mapM_mem fun e he => ?_) fun _ => faults_ok _
    have hkey : e.1 ∈ (Json.obj members).keys := List.mem_map_of_mem he
    refine hclosed.bind (faults_refKey fun f hf c hc => ?_) fun _ => faults_ok _
    exact .field (.columnKey hkey hf) hc
  | _ => exact faults_ok _

theorem faults_clickBehavior (kind : EntityKind) (p : Json) :
    Faults r {x | MentionsAt kind .clickBehavior p x} Json (r.clickBehavior p) := by
  have hclosed : Closed (Faults r {x | MentionsAt kind .clickBehavior p x}) := closed_faults
  refine hclosed.ensures_onMember_of (fun v hv => faults_unlessNull ?_) _ _ fun a ha => ?_
  · rw [clickTarget]
    split
    · next hlink => exact faults_dashboardValue fun d hd => .dashboard (.clickDashboard (eq_of_beq hlink) hv) hd
    · next hlink => exact faults_cardValue fun c hc => .card (.clickCard (fun h => hlink (beq_iff_eq.2 h)) hv) hc
  · refine hclosed.of_ensures (hclosed.ensures_onMember_of fun v hv => ?_)
    rw [ha.others _ (by decide)] at hv
    cases v with
    | obj members =>
      refine hclosed.bind (hclosed.mapM_mem fun e he => ?_) fun _ => faults_ok _
      rw [clickMapping]
      split
      · exact faults_ok _
      next dimension hdimension =>
      have hrenamed : Faults r {x | MentionsAt kind .clickBehavior p x} _ (r.dimension? dimension) := by
        rw [dimension?]
        split
        · exact faults_ok _
        next f hf =>
        refine (faults_fieldRef? fun c hc => ?_).bind fun _ _ => faults_ok _
        exact .field (.clickMapping hv he hdimension hf) hc
      apply hrenamed.bind
      intro renamed _
      cases renamed with
      | none => exact faults_ok _
      | some dimension => exact faults_ok _
    | _ => exact faults_ok _

/-! ## Places -/

/-- Whatever goes wrong while a place is renamed is blamed on the owner of the document, and if its shape is known,
the place mentions a reference that the mapping has nothing for. -/
theorem faults_place {kind : EntityKind} {k : PlaceKind} {trail : Trail} (hkind : trail.kind? = some k)
    (hcard : k = .card → trail.hasKind .dashboard = (kind == .dashboard)) (p : Json) :
    Faults r {x | MentionsAt kind k p x} Json (r.place trail p).outcome := by
  rw [place, hkind]
  cases k with
  | card =>
    cases kind with
    | card =>
      dsimp only
      rw [hcard rfl]
      exact faults_cardNode p
    | dashboard =>
      dsimp only
      rw [hcard rfl]
      exact faults_dashcardNode p
  | queryPart => exact faults_members (.inl rfl) faultsAt_queryMember p
  | join => exact faults_members (.inr rfl) faultsAt_joinMember p
  | tableColumns => exact faults_tableColumns kind p
  | columnSettings => exact faults_columnSettings kind p
  | clickBehavior => exact faults_clickBehavior kind p
  | parameterMapping => exact faults_parameterMapping kind p
  | parameter => exact faults_parameter kind p
  | dashboard | visualizationSettings | seriesSettings | tabs | paramValues | paramFields => exact faults_ok _

/-- Whatever goes wrong while a place is renamed is blamed on the owner of the document. -/
theorem blames_place (trail : Trail) (j : Json) (e : MigrationError) (h : (r.place trail j).outcome = .error e) :
    e.owner? = some r.owner := by
  cases hkind : trail.kind? with
  | none =>
    rw [place, hkind] at h
    cases h
  | some k =>
    have hinside (b : Bool) : b = ((if b then .dashboard else .card) == EntityKind.dashboard) := by
      cases b <;> rfl
    rcases faults_place hkind (fun _ => hinside _) j e h with ⟨detail, rfl⟩ | ⟨ref, -, -, rfl⟩
    · rfl
    · exact ref.owner?_missing r.owner

end Renaming

end Rehome
