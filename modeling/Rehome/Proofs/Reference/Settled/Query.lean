import Rehome.Proofs.Mapping.Settled
import Rehome.Proofs.Reference.Clauses
import Rehome.Proofs.Reference.Results

/-! # Renaming the references of queries settles

What is renamed with a settled mapping, and renamed again, stays as it is: ids and field references first
(`Retargeted.self`), then lists, filters and the parts of queries. -/

namespace Rehome

namespace Renaming

variable {r : Renaming} (hr : r.mapping.Settled)

include hr

/-! ## Ids -/

theorem settles_table : Settles r.table := fun t t' h =>
  Except.mapError_eq_ok_iff.2 (hr.table t t' (Except.mapError_eq_ok_iff.1 h))

theorem settles_column : Settles r.column := fun c c' h =>
  Except.mapError_eq_ok_iff.2 (hr.column c c' (Except.mapError_eq_ok_iff.1 h))

theorem settles_card : Settles r.card := by
  intro c c' h
  rw [card] at h
  split at h
  · next hc =>
    obtain rfl := Except.ok.inj h
    rw [card, hr.card hc]
  · cases h

theorem settles_dashboard : Settles r.dashboard := by
  intro d d' h
  rw [dashboard] at h
  split at h
  · next hd =>
    obtain rfl := Except.ok.inj h
    rw [dashboard, hr.dashboard hd]
  · cases h

omit hr in
theorem readId_toJson {kind : IdentKind} (noun : String) (id : Ident kind) :
    r.readId noun id.toJson = .ok id := by
  rw [readId, Ident.ofJson?_toJson]

omit hr in
theorem settles_idValue {kind : IdentKind} {f : Ident kind → Except MigrationError (Ident kind)}
    (hf : Settles f) (noun : String) :
    Settles fun j => do return (← f (← r.readId noun j)).toJson := by
  intro j j' h
  obtain ⟨id, -, h⟩ := Except.bind_eq_ok_iff.1 h
  obtain ⟨id', hid, h⟩ := Except.bind_eq_ok_iff.1 h
  obtain rfl := Except.ok.inj h
  refine Except.bind_eq_ok_iff.2 ⟨id', readId_toJson noun id', ?_⟩
  exact Except.bind_eq_ok_iff.2 ⟨id', hf id id' hid, rfl⟩

theorem settles_tableValue : Settles r.tableValue := settles_idValue (settles_table hr) "table"

theorem settles_cardValue : Settles r.cardValue := settles_idValue (settles_card hr) "card"

/-- The card that a renamed id leads to is asked for again, and is answered as before. -/
theorem settles_givenCardValue (answer : CardId → Except MigrationError Unit) :
    Settles (r.givenCardValue answer) := by
  intro j j' h
  obtain ⟨c, -, h⟩ := Except.bind_eq_ok_iff.1 h
  obtain ⟨c', hc, h⟩ := Except.bind_eq_ok_iff.1 h
  obtain ⟨u, hanswer, h⟩ := Except.bind_eq_ok_iff.1 h
  obtain rfl := Except.ok.inj h
  refine Except.bind_eq_ok_iff.2 ⟨c', readId_toJson "card" c', ?_⟩
  refine Except.bind_eq_ok_iff.2 ⟨c', settles_card hr c c' hc, ?_⟩
  exact Except.bind_eq_ok_iff.2 ⟨u, hanswer, rfl⟩

theorem settles_dashboardValue : Settles r.dashboardValue :=
  settles_idValue (settles_dashboard hr) "dashboard"

/-! ## Field references -/

/-- A renamed field reference is renamed to itself. -/
theorem Retargeted.self {j j' : Json} (h : Retargeted r j j') : Retargeted r j' j' := by
  cases h with
  | @column _ _ _ c c' hfield _ hc =>
    exact .column hfield (Ident.ofJson?_toJson c') (settles_column hr c c' hc)
  | @name _ n n' operands hfield hn =>
    cases hn' : r.mapping.replaceName? n' with
    | none =>
      refine .kept hfield (fun c hc => ?_) fun m hm => ?_
      · cases hc
      · obtain rfl := FieldTarget.name.inj hm
        exact hn'
    | some n'' =>
      obtain rfl := hr.name hn hn'
      exact .name hfield hn'
  | kept hfield hid hname => exact .kept hfield hid hname

theorem settles_fieldRef : Settles r.fieldRef := by
  intro j j' h
  obtain h | ⟨hnot, rfl⟩ := fieldRef_eq_ok_iff.1 h
  · exact fieldRef_eq_ok_iff.2 (.inl (h.self hr))
  · exact h

omit hr in
theorem Retargeted.nested {j j' : Json} (h : Retargeted r j j') : r.nested j = .ok j' := by
  obtain ⟨operator, operands, rfl⟩ := Clause.ofJson_ne_constant (j := j) (by
    obtain ⟨target, htarget, -⟩ := retargeted_iff.1 h
    simp [htarget])
  exact nested_arr_eq_ok_iff.2 (.inl h)

omit hr in
mutual

/-- Renaming the field references in nested lists settles. -/
theorem settles_nested (hr : r.mapping.Settled) : (j : Json) → ∀ {j' : Json}, r.nested j = .ok j' →
    r.nested j' = .ok j'
  | .arr items, j', h => by
    obtain h | ⟨hnot, items', hitems, rfl⟩ := nested_arr_eq_ok_iff.1 h
    · exact (h.self hr).nested
    · refine nested_arr_eq_ok_iff.2 (.inr ⟨isFieldRef_nestedItems hitems hnot, items', ?_, rfl⟩)
      exact settles_nestedItems hr items hitems
  | .null, _, h | .bool _, _, h | .int _, _, h | .double _, _, h | .str _, _, h | .obj _, _, h => by
    obtain rfl := Except.ok.inj h
    exact h

theorem settles_nestedItems (hr : r.mapping.Settled) : (items : List Json) → ∀ {items' : List Json},
    r.nestedItems items = .ok items' → r.nestedItems items' = .ok items'
  | [], _, h => by
    obtain rfl := Except.ok.inj h
    exact h
  | i :: items, items', h => by
    obtain ⟨i', rest, hi, hrest, rfl⟩ := nestedItems_cons_eq_ok_iff.1 h
    exact nestedItems_cons_eq_ok_iff.2
      ⟨i', rest, settles_nested hr i hi, settles_nestedItems hr items hrest, rfl⟩

end

/-! ## Filters -/

omit hr in
theorem Retargeted.filter {j j' : Json} (h : Retargeted r j j') : r.filter j = .ok j' := by
  obtain ⟨operator, operands, rfl⟩ := Clause.ofJson_ne_constant (j := j) (by
    obtain ⟨target, htarget, -⟩ := retargeted_iff.1 h
    simp [htarget])
  exact filter_arr_eq_ok_iff.2 (.inr (.inl h))

omit hr in
theorem length_filters {items items' : List Json} (h : r.filters items = .ok items') :
    items'.length = items.length := by
  induction items generalizing items' with
  | nil => rw [← Except.ok.inj h]
  | cons i items ih =>
    obtain ⟨i', rest, -, hrest, rfl⟩ := filters_cons_eq_ok_iff.1 h
    rw [List.length_cons, List.length_cons, ih hrest]

omit hr in
mutual

/-- Renaming filters settles: the clauses stay in the grammar. -/
theorem settles_filter (hr : r.mapping.Settled) : (j : Json) → ∀ {j' : Json}, r.filter j = .ok j' →
    r.filter j' = .ok j'
  | .arr (operator :: operands), j', h => by
    obtain ⟨-, rfl⟩ | hfield | ⟨hcombines, operands', hoperands, rfl⟩ := filter_arr_eq_ok_iff.1 h
    · exact h
    · exact (hfield.self hr).filter
    · refine filter_arr_eq_ok_iff.2 (.inr (.inr ⟨?_, operands', settles_filters hr operands hoperands, rfl⟩))
      exact hcombines.of_length (length_filters hoperands)
  | .arr [], _, h | .null, _, h | .bool _, _, h | .int _, _, h | .double _, _, h | .str _, _, h
  | .obj _, _, h => by
    obtain rfl := Except.ok.inj h
    exact h

theorem settles_filters (hr : r.mapping.Settled) : (items : List Json) → ∀ {items' : List Json},
    r.filters items = .ok items' → r.filters items' = .ok items'
  | [], _, h => by
    obtain rfl := Except.ok.inj h
    exact h
  | i :: items, items', h => by
    obtain ⟨i', rest, hi, hrest, rfl⟩ := filters_cons_eq_ok_iff.1 h
    exact filters_cons_eq_ok_iff.2
      ⟨i', rest, settles_filter hr i hi, settles_filters hr items hrest, rfl⟩

end

/-! ## Parts of queries -/

variable {answer : CardId → Except MigrationError Unit}

theorem settles_source : Settles fun j => (r.source j).given answer := by
  intro j j' h
  dsimp only at h ⊢
  rw [source] at h
  split at h
  · next t _ =>
    obtain ⟨t', ht, h⟩ := Plan.given_bind_eq_ok_iff.1 h
    obtain rfl := Except.ok.inj h
    have hsource : Source.ofJson t'.toJson = .table t' := Source.ofJson_toJson_table t'
    rw [source, hsource]
    exact Plan.given_bind_eq_ok_iff.2 ⟨t', settles_table hr t t' ht, rfl⟩
  · next c _ =>
    obtain ⟨c', hc, h⟩ := Plan.given_bind_eq_ok_iff.1 h
    obtain ⟨u, hneed, h⟩ := Plan.given_bind_eq_ok_iff.1 h
    obtain rfl := Except.ok.inj h
    rw [source, Source.ofJson_toJson_card]
    refine Plan.given_bind_eq_ok_iff.2 ⟨c', settles_card hr c c' hc, ?_⟩
    exact Plan.given_bind_eq_ok_iff.2 ⟨u, hneed, rfl⟩
  · cases h

theorem settles_expressions : Settles r.expressions := by
  intro j j' h
  obtain ⟨hobj, h⟩ := expressions_eq_ok_iff.1 h
  refine expressions_eq_ok_iff.2 ⟨(Json.isObj_of_onMembers h).trans hobj, ?_⟩
  exact Json.settles_onMembers (fun _ j _ => settles_nested hr j) j j' h

theorem settles_breakout : Settles r.breakout := by
  intro j j' h
  obtain ⟨harr, h⟩ := breakout_eq_ok_iff.1 h
  refine breakout_eq_ok_iff.2 ⟨(Json.isArr_of_onItems h).trans harr, ?_⟩
  exact Json.settles_onItems (settles_fieldRef hr) j j' h

theorem settles_ordering : Settles r.ordering := by
  intro j j' h
  obtain ⟨reference, reference', hitem, href, rfl⟩ := ordering_eq_ok_iff.1 h
  refine ordering_eq_ok_iff.2 ⟨reference', reference', Json.item?_setItem hitem, ?_, ?_⟩
  · exact settles_fieldRef hr reference reference' href
  · exact (Json.setItem_setItem 1 reference' reference').symm

theorem settles_orderings : Settles r.orderings := by
  intro j j' h
  obtain ⟨harr, h⟩ := orderings_eq_ok_iff.1 h
  refine orderings_eq_ok_iff.2 ⟨(Json.isArr_of_onItems h).trans harr, ?_⟩
  exact Json.settles_onItems (settles_ordering hr) j j' h

theorem settles_queryMember (key : String) : Settles fun j => (r.queryMember key j).given answer := by
  have hnested : Settles r.nested := fun j _ => settles_nested hr j
  have hfilter : Settles r.filter := fun j _ => settles_filter hr j
  unfold queryMember
  split_ifs
  · exact settles_source hr
  · exact hfilter
  · exact hnested
  · exact settles_expressions hr
  · exact settles_breakout hr
  · exact settles_orderings hr
  · exact settles_pure

theorem settles_joinMember (key : String) : Settles fun j => (r.joinMember key j).given answer := by
  have hnested : Settles r.nested := fun j _ => settles_nested hr j
  unfold joinMember
  split_ifs
  · exact settles_source hr
  · exact hnested
  · exact settles_pure

theorem settles_queryPart : Settles fun j => (r.queryPart j).given answer := by
  have hmembers : (fun j => (r.queryPart j).given answer) =
      Json.onMembers fun key j => (r.queryMember key j).given answer :=
    funext (Plan.compatible_given.onMembers fun _ _ => rfl)
  rw [hmembers]
  exact Json.settles_onMembers (settles_queryMember hr)

theorem settles_join : Settles fun j => (r.join j).given answer := by
  have hmembers : (fun j => (r.join j).given answer) =
      Json.onMembers fun key j => (r.joinMember key j).given answer :=
    funext (Plan.compatible_given.onMembers fun _ _ => rfl)
  rw [hmembers]
  exact Json.settles_onMembers (settles_joinMember hr)

end Renaming

end Rehome
