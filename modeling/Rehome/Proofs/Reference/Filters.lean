import Rehome.Proofs.Reference.Blame
import Rehome.Proofs.Reference.Slots
import Rehome.Sample

/-! # Which filters are renamed, and why others are not

A filter is renamed exactly if it is generated by a grammar (`FilterTree`) and every column that one of its
references names by id can be replaced. Any other filter has nodes that offend (`Offends`), and the error is
that of the first of them, the nodes taken in preorder (`filter_eq_error_iff`). -/

namespace Rehome

/-! ## Operators -/

namespace Clause

theorem ne_field_of_comparison {operator : String} (h : operator ∈ comparisonOperators) : operator ≠ "field" := by
  rintro rfl
  exact absurd h (by decide)

theorem ne_field_of_logical {operator : String} (h : operator ∈ logicalOperators) : operator ≠ "field" := by
  rintro rfl
  exact absurd h (by decide)

theorem not_comparison_of_logical {operator : String} (h : operator ∈ logicalOperators) :
    operator ∉ comparisonOperators := by
  have hdisjoint : ∀ op ∈ logicalOperators, op ∉ comparisonOperators := by decide
  exact hdisjoint operator h

theorem ofOperator_of_comparison {operator : String} (h : operator ∈ comparisonOperators)
    (operands : List Json) : ofOperator operator operands = .comparison operator operands.length := by
  have haggregation : operator ≠ "aggregation" := by
    rintro rfl
    exact absurd h (by decide)
  rw [ofOperator, if_neg (ne_field_of_comparison h), if_neg haggregation,
    if_pos (List.contains_iff_mem.2 h)]

theorem ofOperator_of_logical {operator : String} (h : operator ∈ logicalOperators) (operands : List Json) :
    ofOperator operator operands = .logical operator operands.length := by
  have haggregation : operator ≠ "aggregation" := by
    rintro rfl
    exact absurd h (by decide)
  rw [ofOperator, if_neg (ne_field_of_logical h), if_neg haggregation,
    if_neg (mt List.contains_iff_mem.1 (not_comparison_of_logical h)), if_pos (List.contains_iff_mem.2 h)]

/-- An operator that combines filters, and a number of operands that it may have. -/
def Allows (operator : String) (arity : Nat) : Prop :=
  operator ∈ comparisonOperators ∧ arity = 2 ∨ operator ∈ logicalOperators ∧ 2 ≤ arity

theorem Allows.ne_field {operator : String} {arity : Nat} (h : Allows operator arity) : operator ≠ "field" := by
  obtain ⟨h, -⟩ | ⟨h, -⟩ := h
  · exact ne_field_of_comparison h
  · exact ne_field_of_logical h

end Clause

/-! ## The grammar -/

/-- The values that a filter may be: constants, field references, and clauses that combine filters. -/
inductive FilterTree : Json → Prop
  /-- What is not a list, and a list that does not start with a text. -/
  | constant {j : Json} : (∀ operator operands, j ≠ .arr (.str operator :: operands)) → FilterTree j
  | reference {operator : String} {operands : List Json} : Text.trim operator = "field" →
    FilterTree (.arr (.str operator :: operands))
  /-- A comparison of two filters, or a connective of at least two. -/
  | clause {operator : String} {operands : List Json} : Clause.Allows (Text.trim operator) operands.length →
    (∀ o ∈ operands, FilterTree o) → FilterTree (.arr (.str operator :: operands))

mutual

/-- The nodes of a filter in preorder. A clause has its operands below it, but for a field reference. -/
def filterNodes : Json → List Json
  | .arr (.str operator :: operands) =>
    .arr (.str operator :: operands) :: if Text.trim operator = "field" then [] else filterNodesOf operands
  | j => [j]

def filterNodesOf : List Json → List Json
  | [] => []
  | j :: rest => filterNodes j ++ filterNodesOf rest

end

theorem filterNodes_of_constant {j : Json} (h : ∀ operator operands, j ≠ .arr (.str operator :: operands)) :
    filterNodes j = [j] := by
  rw [filterNodes.eq_def]
  split
  · next operator operands => exact absurd rfl (h operator operands)
  · rfl

theorem filterNodes_of_field {operator : String} (h : Text.trim operator = "field") (operands : List Json) :
    filterNodes (.arr (.str operator :: operands)) = [.arr (.str operator :: operands)] := by
  rw [filterNodes, if_pos h]

theorem filterNodes_of_ne {operator : String} (h : Text.trim operator ≠ "field") (operands : List Json) :
    filterNodes (.arr (.str operator :: operands)) =
      .arr (.str operator :: operands) :: filterNodesOf operands := by
  rw [filterNodes, if_neg h]

theorem mem_filterNodesOf {node : Json} {items : List Json} :
    node ∈ filterNodesOf items ↔ ∃ i ∈ items, node ∈ filterNodes i := by
  induction items with
  | nil => simp [filterNodesOf]
  | cons j rest ih => rw [filterNodesOf, List.mem_append, ih, List.exists_mem_cons_iff]

theorem self_mem_filterNodes (j : Json) : j ∈ filterNodes j := by
  rw [filterNodes.eq_def]
  split
  · exact List.mem_cons_self
  · exact List.mem_singleton_self _

namespace Renaming

variable {r : Renaming}

/-! ## Offences -/

/-- `r.Offends node e` holds when `node` itself keeps `r` from renaming a filter, whatever is below it, and
`e` says so. -/
inductive Offends (r : Renaming) : Json → MigrationError → Prop
  | comparison {operator : String} {operands : List Json} : Text.trim operator ∈ comparisonOperators →
    operands.length ≠ 2 → Offends r (.arr (.str operator :: operands))
      (.malformed r.owner s!"'{Text.trim operator}' expects 2 operands, got {operands.length}")
  | connective {operator : String} {operands : List Json} : Text.trim operator ∈ logicalOperators →
    operands.length < 2 → Offends r (.arr (.str operator :: operands))
      (.malformed r.owner s!"'{Text.trim operator}' expects at least 2 operands, got {operands.length}")
  /-- An aggregation is known by its index, an integer in the range of ids. -/
  | aggregation {operator : String} {item : Json} {operands : List Json} {index : ColumnId} :
    Text.trim operator = "aggregation" → Ident.ofJson? item = some index →
    Offends r (.arr (.str operator :: item :: operands)) (.malformed r.owner "aggregation reference in filter")
  | unsupported {operator : String} {operands : List Json} : Text.trim operator ≠ "field" →
    Text.trim operator ∉ comparisonOperators → Text.trim operator ∉ logicalOperators →
    (Text.trim operator = "aggregation" → ∀ item, operands.head? = some item →
      (Ident.ofJson? item : Option ColumnId) = none) →
    Offends r (.arr (.str operator :: operands))
      (.malformed r.owner s!"unsupported filter operator '{Text.trim operator}'")
  | unresolved {node : Json} {c : ColumnId} : RefersById node c → (∀ c', r.mapping.replaceColumn c ≠ .ok c') →
    Offends r node (.unresolvedReference r.owner (.unresolvedColumn c))

/-- A node that does not offend. -/
def Sound (r : Renaming) (node : Json) : Prop := ∀ e, ¬r.Offends node e

/-- `e` is the error of the first node that offends. -/
def FirstOffence (r : Renaming) (nodes : List Json) (e : MigrationError) : Prop :=
  ∃ before node after, nodes = before ++ node :: after ∧ r.Offends node e ∧ ∀ n ∈ before, r.Sound n

theorem firstOffence_nil (e : MigrationError) : ¬r.FirstOffence [] e := by
  rintro ⟨before, node, after, h, -⟩
  cases before <;> cases h

theorem firstOffence_cons {node : Json} {nodes : List Json} {e : MigrationError} :
    r.FirstOffence (node :: nodes) e ↔ r.Offends node e ∨ r.Sound node ∧ r.FirstOffence nodes e := by
  constructor
  · rintro ⟨before, n, after, h, hn, hbefore⟩
    cases before with
    | nil =>
      obtain ⟨rfl, rfl⟩ := List.cons.inj h
      exact .inl hn
    | cons first before =>
      obtain ⟨rfl, rfl⟩ := List.cons.inj h
      obtain ⟨hnode, hbefore⟩ := List.forall_mem_cons.1 hbefore
      exact .inr ⟨hnode, before, n, after, rfl, hn, hbefore⟩
  · rintro (h | ⟨hnode, before, n, after, rfl, hn, hbefore⟩)
    · exact ⟨[], node, nodes, rfl, h, fun n hn => absurd hn List.not_mem_nil⟩
    · exact ⟨node :: before, n, after, rfl, hn, List.forall_mem_cons.2 ⟨hnode, hbefore⟩⟩

theorem firstOffence_append {nodes nodes' : List Json} {e : MigrationError} :
    r.FirstOffence (nodes ++ nodes') e ↔
      r.FirstOffence nodes e ∨ (∀ n ∈ nodes, r.Sound n) ∧ r.FirstOffence nodes' e := by
  induction nodes with
  | nil => simp [firstOffence_nil]
  | cons node nodes ih =>
    rw [List.cons_append, firstOffence_cons, firstOffence_cons, ih, List.forall_mem_cons,
      and_or_left, or_assoc, and_assoc]

/-- If no node offends first, none does. -/
theorem forall_sound_iff {nodes : List Json} :
    (∀ n ∈ nodes, r.Sound n) ↔ ∀ e, ¬r.FirstOffence nodes e := by
  induction nodes with
  | nil => simp [firstOffence_nil]
  | cons node nodes ih =>
    rw [List.forall_mem_cons, ih]
    simp only [firstOffence_cons, not_or, forall_and]
    refine and_congr_right fun hnode => ?_
    exact ⟨fun h e he => h e he.2, fun h e he => h e ⟨hnode, he⟩⟩

/-! ## Nodes that do not offend -/

theorem sound_constant {j : Json} (h : ∀ operator operands, j ≠ .arr (.str operator :: operands)) :
    r.Sound j := by
  intro e he
  cases he with
  | comparison | connective | aggregation | unsupported => exact h _ _ rfl
  | unresolved hc =>
    obtain ⟨-, -⟩ := hc
    exact h _ _ rfl

theorem sound_reference {operator : String} {operands : List Json} (hfield : Text.trim operator = "field")
    (h : ∀ c, RefersById (.arr (.str operator :: operands)) c → ∃ c', r.mapping.replaceColumn c = .ok c') :
    r.Sound (.arr (.str operator :: operands)) := by
  intro e he
  cases he with
  | comparison hop => exact Clause.ne_field_of_comparison hop hfield
  | connective hop => exact Clause.ne_field_of_logical hop hfield
  | aggregation hop =>
    rw [hfield] at hop
    exact absurd hop (by decide)
  | unsupported hop => exact hop hfield
  | unresolved hc hnot =>
    obtain ⟨c', hc'⟩ := h _ hc
    exact hnot c' hc'

theorem sound_clause {operator : String} {operands : List Json}
    (h : Clause.Allows (Text.trim operator) operands.length) : r.Sound (.arr (.str operator :: operands)) := by
  intro e he
  cases he with
  | comparison hop hne =>
    obtain ⟨-, hlength⟩ | ⟨hlogical, -⟩ := h
    · exact hne hlength
    · exact Clause.not_comparison_of_logical hlogical hop
  | connective hop hlt =>
    obtain ⟨hcomparison, -⟩ | ⟨-, hlength⟩ := h
    · exact Clause.not_comparison_of_logical hop hcomparison
    · omega
  | aggregation hop =>
    rw [hop] at h
    exact absurd h (by simp [Clause.Allows, comparisonOperators, logicalOperators])
  | unsupported _ hcomparison hlogical => exact h.elim (fun h => hcomparison h.1) fun h => hlogical h.1
  | unresolved hc =>
    obtain ⟨hfield, -⟩ := hc
    exact h.ne_field hfield

/-- A clause that does not offend is a field reference or combines others. -/
theorem offends_or_grammatical (r : Renaming) (operator : String) (operands : List Json) :
    (∃ e, r.Offends (.arr (.str operator :: operands)) e) ∨ Text.trim operator = "field" ∨
      Clause.Allows (Text.trim operator) operands.length := by
  by_cases hfield : Text.trim operator = "field"
  · exact .inr (.inl hfield)
  by_cases hcomparison : Text.trim operator ∈ comparisonOperators
  · by_cases hlength : operands.length = 2
    · exact .inr (.inr (.inl ⟨hcomparison, hlength⟩))
    · exact .inl ⟨_, .comparison hcomparison hlength⟩
  by_cases hlogical : Text.trim operator ∈ logicalOperators
  · by_cases hlength : 2 ≤ operands.length
    · exact .inr (.inr (.inr ⟨hlogical, hlength⟩))
    · exact .inl ⟨_, .connective hlogical (Nat.lt_of_not_le hlength)⟩
  by_cases haggregation : ∃ (item : Json) (rest : List Json) (index : ColumnId), operands = item :: rest ∧
      Ident.ofJson? item = some index ∧ Text.trim operator = "aggregation"
  · obtain ⟨item, rest, index, rfl, hitem, hop⟩ := haggregation
    exact .inl ⟨_, .aggregation hop hitem⟩
  · refine .inl ⟨_, .unsupported hfield hcomparison hlogical fun hop item hitem => ?_⟩
    obtain ⟨rest, rfl⟩ := List.head?_eq_some_iff.1 hitem
    rw [Option.eq_none_iff_forall_ne_some]
    exact fun index hindex => haggregation ⟨item, rest, index, rfl, hindex, hop⟩

/-! ## Filters are accepted by their grammar -/

/-- No node of a filter of the grammar offends, if the columns that it refers to can be replaced. -/
theorem sound_of_filterTree {f : Json} (h : FilterTree f) (hcolumns : ∀ node ∈ filterNodes f, ∀ c,
    RefersById node c → ∃ c', r.mapping.replaceColumn c = .ok c') : ∀ node ∈ filterNodes f, r.Sound node := by
  induction h with
  | @constant j hconstant =>
    rw [filterNodes_of_constant hconstant, List.forall_mem_singleton]
    exact sound_constant hconstant
  | @reference operator operands hfield =>
    rw [filterNodes_of_field hfield, List.forall_mem_singleton] at hcolumns ⊢
    exact sound_reference hfield hcolumns
  | @clause operator operands hallows _ ih =>
    rw [filterNodes_of_ne hallows.ne_field, List.forall_mem_cons] at hcolumns ⊢
    refine ⟨sound_clause hallows, fun node hnode => ?_⟩
    obtain ⟨o, ho, hnode⟩ := mem_filterNodesOf.1 hnode
    exact ih o ho (fun n hn => hcolumns.2 n (mem_filterNodesOf.2 ⟨o, ho, hn⟩)) node hnode

mutual

theorem filterTree_of_sound : (f : Json) → (∀ node ∈ filterNodes f, r.Sound node) → FilterTree f
  | .arr (.str operator :: operands), h => by
    obtain ⟨e, he⟩ | hfield | hallows := offends_or_grammatical r operator operands
    · exact absurd he (h _ (self_mem_filterNodes _) e)
    · exact .reference hfield
    · rw [filterNodes_of_ne hallows.ne_field, List.forall_mem_cons] at h
      exact .clause hallows (filterTrees_of_sound operands h.2)
  | .arr [], _ | .arr (.null :: _), _ | .arr (.bool _ :: _), _ | .arr (.int _ :: _), _ | .arr (.double _ :: _), _
  | .arr (.arr _ :: _), _ | .arr (.obj _ :: _), _ | .null, _ | .bool _, _ | .int _, _ | .double _, _ | .str _, _
  | .obj _, _ => .constant nofun

theorem filterTrees_of_sound : (items : List Json) → (∀ node ∈ filterNodesOf items, r.Sound node) →
    ∀ o ∈ items, FilterTree o
  | [], _ => fun o ho => absurd ho List.not_mem_nil
  | j :: rest, h => by
    rw [filterNodesOf, List.forall_mem_append] at h
    exact List.forall_mem_cons.2 ⟨filterTree_of_sound j h.1, filterTrees_of_sound rest h.2⟩

end

theorem forall_sound_filterNodes_iff {f : Json} : (∀ node ∈ filterNodes f, r.Sound node) ↔
    FilterTree f ∧ ∀ node ∈ filterNodes f, ∀ c, RefersById node c →
      ∃ c', r.mapping.replaceColumn c = .ok c' := by
  refine ⟨fun h => ⟨filterTree_of_sound f h, fun node hnode c hc => ?_⟩, fun h => sound_of_filterTree h.1 h.2⟩
  by_contra hnone
  exact h node hnode _ (.unresolved hc (not_exists.1 hnone))

/-! ## The first offence is reported -/

theorem column_eq_error_iff {c : ColumnId} {e : MigrationError} : r.column c = .error e ↔
    (∀ c', r.mapping.replaceColumn c ≠ .ok c') ∧ e = .unresolvedReference r.owner (.unresolvedColumn c) := by
  rw [column]
  cases hc : r.mapping.replaceColumn c with
  | ok c' => simp [Except.mapError]
  | error e' =>
    obtain ⟨rfl, -⟩ := Mapping.lacks_of_replaceColumn hc
    simp [Except.mapError, eq_comm]

theorem retarget_eq_error_iff {target : FieldTarget} {j : Json} {e : MigrationError} :
    r.retarget target j = .error e ↔ ∃ c, target = .id c ∧ r.column c = .error e := by
  cases target with
  | id c =>
    rw [retarget, bind_pure_comp, Except.map_eq_error_iff]
    simp
  | name n => simp [retarget]
  | unknown => simp [retarget]

theorem filter_of_field {operator : String} (h : Text.trim operator = "field") (operands : List Json) :
    r.filter (.arr (.str operator :: operands)) =
      r.retarget (.ofItem operands.head?) (.arr (.str operator :: operands)) := by
  rw [filter, Clause.ofJson_eq_fieldRef_iff.2 ⟨operator, operands, rfl, h, rfl⟩]

theorem filter_of_allows {operator : String} {operands : List Json}
    (h : Clause.Allows (Text.trim operator) operands.length) :
    r.filter (.arr (.str operator :: operands)) =
      (fun operands' => .arr (.str operator :: operands')) <$> r.filters operands := by
  rw [filter, Clause.ofJson]
  obtain ⟨hop, hlength⟩ | ⟨hop, hlength⟩ := h
  · rw [Clause.ofOperator_of_comparison hop]
    dsimp only
    rw [if_neg (not_not.2 hlength), map_eq_pure_bind]
  · rw [Clause.ofOperator_of_logical hop]
    dsimp only
    rw [if_neg (Nat.not_lt.2 hlength), map_eq_pure_bind]

/-- A node that offends is not renamed, whatever is below it. -/
theorem Offends.filter_eq_error {node : Json} {e : MigrationError} (h : r.Offends node e) :
    r.filter node = .error e := by
  cases h with
  | comparison hop hlength =>
    rw [filter, Clause.ofJson, Clause.ofOperator_of_comparison hop]
    dsimp only
    rw [if_pos hlength, malformed]
  | connective hop hlength =>
    rw [filter, Clause.ofJson, Clause.ofOperator_of_logical hop]
    dsimp only
    rw [if_pos hlength, malformed]
  | @aggregation operator item operands index hop hitem =>
    have hclause : Clause.ofJson (.arr (.str operator :: item :: operands)) = .aggregationRef index.val := by
      rw [Clause.ofJson, hop, Clause.ofOperator, if_neg (by decide), if_pos rfl, List.head?_cons,
        Option.bind_some, hitem]
    rw [filter, hclause, malformed]
  | @unsupported operator operands hfield hcomparison hlogical haggregation =>
    have hclause : Clause.ofJson (.arr (.str operator :: operands)) = .other (Text.trim operator) := by
      rw [Clause.ofJson, Clause.ofOperator, if_neg hfield]
      split
      · next hop =>
        have hnone : (operands.head?.bind Ident.ofJson? : Option ColumnId) = none :=
          Option.bind_eq_none_iff.2 (haggregation hop)
        rw [hnone]
      · rw [if_neg (mt List.contains_iff_mem.1 hcomparison), if_neg (mt List.contains_iff_mem.1 hlogical)]
    rw [filter, hclause]
    rfl
  | @unresolved _ c hc hnone =>
    obtain ⟨hfield, hitem⟩ := hc
    rw [filter_of_field hfield, List.head?_cons, ofItem_of_ofJson? hitem, retarget_eq_error_iff]
    exact ⟨c, rfl, column_eq_error_iff.2 ⟨hnone, rfl⟩⟩

/-- A field reference fails to be renamed only if it offends. -/
theorem offends_of_filter_field {operator : String} {operands : List Json} {e : MigrationError}
    (hfield : Text.trim operator = "field") (h : r.filter (.arr (.str operator :: operands)) = .error e) :
    r.Offends (.arr (.str operator :: operands)) e := by
  rw [filter_of_field hfield, retarget_eq_error_iff] at h
  obtain ⟨c, htarget, hc⟩ := h
  obtain ⟨hnone, rfl⟩ := column_eq_error_iff.1 hc
  obtain ⟨item, rest, rfl, hitem⟩ := ofItem_eq_id htarget
  exact .unresolved ⟨hfield, hitem⟩ hnone

/-- What has nothing below it fails to be renamed as it offends. -/
theorem filter_eq_error_iff_of_leaf {j : Json} {e : MigrationError} (hnodes : filterNodes j = [j])
    (h : r.filter j = .error e → r.Offends j e) :
    r.filter j = .error e ↔ r.FirstOffence (filterNodes j) e := by
  rw [hnodes, firstOffence_cons, or_iff_left fun hnil => firstOffence_nil e hnil.2]
  exact ⟨h, Offends.filter_eq_error⟩

theorem filter_eq_error_iff_of_offends {node : Json} {nodes : List Json} {e e' : MigrationError}
    (h : r.Offends node e') : r.filter node = .error e ↔ r.FirstOffence (node :: nodes) e := by
  rw [firstOffence_cons, or_iff_left fun hsound => hsound.1 e' h]
  refine ⟨fun he => ?_, Offends.filter_eq_error⟩
  obtain rfl := Except.error.inj (he.symm.trans h.filter_eq_error)
  exact h

/-- If the first offence says why there is no result, there is one if nothing offends. -/
theorem exists_ok_iff_sound {α : Type} {x : Except MigrationError α} {nodes : List Json}
    (h : ∀ e, x = .error e ↔ r.FirstOffence nodes e) : (∃ a, x = .ok a) ↔ ∀ n ∈ nodes, r.Sound n := by
  rw [Except.exists_ok_iff, forall_sound_iff]
  exact forall_congr' fun e => not_congr (h e)

mutual

theorem filter_eq_error_iff : (j : Json) → ∀ e, r.filter j = .error e ↔ r.FirstOffence (filterNodes j) e
  | .arr (.str operator :: operands), e => by
    obtain ⟨e', he'⟩ | hfield | hallows := offends_or_grammatical r operator operands
    · rw [filterNodes]
      exact filter_eq_error_iff_of_offends he'
    · exact filter_eq_error_iff_of_leaf (filterNodes_of_field hfield operands) (offends_of_filter_field hfield)
    · have hsound : r.Sound (.arr (.str operator :: operands)) := sound_clause hallows
      rw [filterNodes_of_ne hallows.ne_field, firstOffence_cons, or_iff_right (hsound e),
        and_iff_right hsound, filter_of_allows hallows, Except.map_eq_error_iff]
      exact filters_eq_error_iff operands e
  | .arr [], _ | .arr (.null :: _), _ | .arr (.bool _ :: _), _ | .arr (.int _ :: _), _ | .arr (.double _ :: _), _
  | .arr (.arr _ :: _), _ | .arr (.obj _ :: _), _ | .null, _ | .bool _, _ | .int _, _ | .double _, _ | .str _, _
  | .obj _, _ => filter_eq_error_iff_of_leaf rfl fun h => by cases h

theorem filters_eq_error_iff : (items : List Json) → ∀ e,
    r.filters items = .error e ↔ r.FirstOffence (filterNodesOf items) e
  | [], e => ⟨nofun, fun h => absurd h (firstOffence_nil e)⟩
  | j :: rest, e => by
    have hfirst := filter_eq_error_iff j
    rw [filters, Except.bind_eq_error_iff, filterNodesOf, firstOffence_append, hfirst e,
      ← exists_ok_iff_sound hfirst, ← filters_eq_error_iff rest e]
    refine or_congr_right ?_
    simp only [bind_pure_comp, Except.map_eq_error_iff, exists_and_right]

end

/-! ## Query parts with a filter -/

theorem queryPart_filter (f : Json) : r.queryPart (.obj [("filter", f)]) =
    .ofExcept ((fun f' => .obj [("filter", f')]) <$> r.filter f) := by
  have hmember : r.queryMember "filter" f = .ofExcept (r.filter f) := rfl
  rw [queryPart, Json.onMembers, List.mapM_cons, List.mapM_nil, hmember]
  cases r.filter f <;> rfl

/-- The renaming of a query part with a filter needs no card. It succeeds if and only if the filter is
generated by the grammar and all columns can be replaced that its references name by id. The result is then
the filter with the columns replaced at its references: by what their ids are replaced by, and their names by
what those are overridden with. Otherwise the error is that of the first node that offends, in preorder. -/
theorem filter_accepted_iff (r : Renaming) (f : Json) :
    (r.queryPart (.obj [("filter", f)])).needs = [] ∧
    ((∃ q, (r.queryPart (.obj [("filter", f)])).outcome = .ok q) ↔
      FilterTree f ∧ ∀ node ∈ filterNodes f, ∀ c, RefersById node c →
        ∃ c', r.mapping.replaceColumn c = .ok c') ∧
    (∀ q, (r.queryPart (.obj [("filter", f)])).outcome = .ok q → ∃ f', q = .obj [("filter", f')] ∧
      Substitutes (columnsAt (ClauseSlot f)) r.Image f f') ∧
    (∀ e, (r.queryPart (.obj [("filter", f)])).outcome = .error e ↔
      ∃ before node after, filterNodes f = before ++ node :: after ∧ r.Offends node e ∧
        ∀ n ∈ before, ∀ e', ¬r.Offends n e') := by
  have herror : ∀ e, (r.queryPart (.obj [("filter", f)])).outcome = .error e ↔
      r.FirstOffence (filterNodes f) e := by
    intro e
    rw [queryPart_filter]
    exact Except.map_eq_error_iff.trans (filter_eq_error_iff f e)
  refine ⟨by rw [queryPart_filter]; rfl, ?_, fun q hq => ?_, herror⟩
  · rw [← forall_sound_filterNodes_iff]
    exact exists_ok_iff_sound herror
  · rw [queryPart_filter] at hq
    obtain ⟨f', hf', rfl⟩ := Except.map_eq_ok_iff.1 hq
    exact ⟨f', rfl, filter_substitutes f hf'⟩

/-- A filter on a column that it refers to by name. -/
def namedFilter (name : String) : Json :=
  .arr [.str "=", .arr [.str "field", .str name, .null], .int 1]

/-- No reference of this filter is by id, and yet it changes: the name is overridden. -/
theorem filter_changes_names : ∃ m, Sample.mapping = .ok m ∧ FilterTree (namedFilter "TOTAL") ∧
    (∀ node ∈ filterNodes (namedFilter "TOTAL"), ∀ c, ¬RefersById node c) ∧
    (Renaming.queryPart ⟨m, .card ⟨7⟩⟩ (.obj [("filter", namedFilter "TOTAL")])).outcome =
      .ok (.obj [("filter", namedFilter "TOTAL_EUR")]) ∧
    namedFilter "TOTAL_EUR" ≠ namedFilter "TOTAL" := by
  refine ⟨_, rfl, ?_, ?_, rfl, by decide⟩
  · refine .clause (.inl ⟨by decide, rfl⟩) fun o ho => ?_
    rcases List.mem_pair.1 ho with rfl | rfl
    · exact .reference (by decide)
    · exact .constant nofun
  · have hnodes : filterNodes (namedFilter "TOTAL") =
        [namedFilter "TOTAL", .arr [.str "field", .str "TOTAL", .null], .int 1] := rfl
    rw [hnodes]
    simp only [List.forall_mem_cons]
    refine ⟨fun c hc => ?_, fun c hc => ?_, fun c hc => ?_, fun n hn => absurd hn List.not_mem_nil⟩
    · obtain ⟨hfield, -⟩ := hc
      exact absurd hfield (by decide)
    · obtain ⟨-, hitem⟩ := hc
      cases hitem
    · cases hc

end Renaming

end Rehome
