import Rehome.Proofs.Json.Distinct
import Rehome.Proofs.Reference.Columns
import Rehome.Proofs.Reference.Frame

/-! # Mappings of a click

A mapping that leads to a dimension with a field reference has the text of the dimension as its key, as its id and
as the id of its target. Where the reference is renamed, all of them are replaced by the text of the new
dimension (`Rekeyed`), so they agree again whether or not they did before. No mapping is lost unless two come
to the same key. -/

namespace Rehome

/-- A mapping leads to a dimension whose second item is a field reference. -/
def LeadsToField (mapping dimension : Json) : Prop :=
  (∃ target, mapping.member? "target" = some target ∧ target.text? "type" = some "dimension" ∧
    target.member? "dimension" = some dimension) ∧
  ∃ f, dimension.item? 1 = some f ∧ (Clause.ofJson f).isFieldRef

theorem leadsToField_iff {mapping d : Json} : LeadsToField mapping d ↔
    Renaming.mappedDimension? mapping = some d ∧ ∃ f, d.item? 1 = some f ∧ (Clause.ofJson f).isFieldRef := by
  rw [LeadsToField, Renaming.mappedDimension?_eq_some_iff]

/-- A mapping leads to one dimension only. -/
theorem LeadsToField.unique {mapping d d' : Json} (h : LeadsToField mapping d) (h' : LeadsToField mapping d') :
    d = d' :=
  Option.some.inj ((leadsToField_iff.1 h).1.symm.trans (leadsToField_iff.1 h').1)

theorem LeadsToField.proper {mapping d : Json} (h : LeadsToField mapping d) (hmapping : mapping.Proper) : d.Proper := by
  obtain ⟨⟨target, htarget, -, hd⟩, -⟩ := h
  exact (hmapping.member? htarget).member? hd

/-- A mapping has the text of the dimension as its key, as its id and as the id of its target. -/
structure AgreesWith (dimension : Json) (key : String) (mapping : Json) : Prop where
  keyed : key = dimension.compact
  id : mapping.member? "id" = some (.str key)
  targetId : ∃ target, mapping.member? "target" = some target ∧ target.member? "id" = some (.str key)

namespace Renaming

variable {r : Renaming}

/-- The second item of a dimension is a field reference and is renamed. -/
def Redirects (r : Renaming) (dimension dimension' : Json) : Prop :=
  ∃ f f', dimension.item? 1 = some f ∧ (Clause.ofJson f).isFieldRef ∧ r.fieldRef f = .ok f' ∧
    dimension' = dimension.setItem 1 f'

/-- What becomes of a mapping with its key. -/
inductive Rekeyed (r : Renaming) (e : String × Json) : String × Json → Prop
  | dimension {d d' : Json} : LeadsToField e.2 d → r.Redirects d d' → Rekeyed r e (d'.compact, withDimension e.2 d')
  | other : (∀ d, ¬LeadsToField e.2 d) → Rekeyed r e e

/-- Mappings with field references are keyed by the texts of their dimensions, which stay apart from each other
and from the other keys when they are renamed. -/
structure KeyedByDimension (r : Renaming) (members : List (String × Json)) : Prop where
  key {e : String × Json} {d : Json} : e ∈ members → LeadsToField e.2 d → e.1 = d.compact
  other {e e' : String × Json} {d d' : Json} : e ∈ members → (∀ d, ¬LeadsToField e.2 d) → e' ∈ members →
    LeadsToField e'.2 d → r.Redirects d d' → e.1 ≠ d'.compact
  apart {e₁ e₂ : String × Json} {d₁ d₂ d' : Json} : e₁ ∈ members → e₂ ∈ members → LeadsToField e₁.2 d₁ →
    LeadsToField e₂.2 d₂ → r.Redirects d₁ d' → r.Redirects d₂ d' → d₁ = d₂

/-! ## One mapping -/

theorem redirects_iff {d d' : Json} : r.Redirects d d' ↔
    ∃ f f', d.item? 1 = some f ∧ Retargeted r f f' ∧ d' = d.setItem 1 f' := by
  constructor
  · rintro ⟨f, f', hf, href, hf', rfl⟩
    obtain hf' | ⟨hnot, -⟩ := fieldRef_eq_ok_iff.1 hf'
    · exact ⟨f, f', hf, hf', rfl⟩
    · rw [hnot] at href
      cases href
  · rintro ⟨f, f', hf, hf', rfl⟩
    exact ⟨f, f', hf, hf'.isFieldRef_source, fieldRef_eq_ok_iff.2 (.inl hf'), rfl⟩

theorem clickMapping_rekeyed {e e' : String × Json} (h : r.clickMapping e = .ok e') : Rekeyed r e e' := by
  rw [clickMapping] at h
  split at h
  · next hnone =>
    obtain rfl := Except.ok.inj h
    refine .other fun d hd => ?_
    rw [(leadsToField_iff.1 hd).1] at hnone
    cases hnone
  · next d hd =>
    obtain ⟨o, ho, h⟩ := Except.bind_eq_ok_iff.1 h
    rw [dimension?] at ho
    cases o with
    | none =>
      obtain rfl := Except.ok.inj h
      refine .other fun d' hd' => ?_
      obtain ⟨hmapped, f, hf, href⟩ := leadsToField_iff.1 hd'
      obtain rfl := Option.some.inj (hd.symm.trans hmapped)
      rw [hf] at ho
      obtain ⟨o', ho', hnone⟩ := Except.bind_eq_ok_iff.1 ho
      obtain rfl := Option.map_eq_none_iff.1 (Except.ok.inj hnone)
      rw [fieldRef?_eq_none_iff.1 ho'] at href
      cases href
    | some d' =>
      obtain rfl := Except.ok.inj h
      split at ho
      · cases ho
      · next f hf =>
        obtain ⟨f', hf', rfl⟩ := second_eq_some_iff.1 ho
        exact .dimension (leadsToField_iff.2 ⟨hd, f, hf, hf'.isFieldRef_source⟩) (redirects_iff.2 ⟨f, f', hf, hf', rfl⟩)

/-- Ids and names hold no doubles. -/
theorem Retargeted.proper {f f' : Json} (h : Retargeted r f f') (hf : f.Proper) : f'.Proper := by
  cases h with
  | column => exact hf.setItem (i := 1) fun x hx => absurd hx (Json.HoldsDouble.not_int _)
  | name => exact hf.setItem (i := 1) fun x hx => absurd hx (Json.HoldsDouble.not_str _)
  | kept => exact hf

theorem Redirects.proper {d d' : Json} (h : r.Redirects d d') (hd : d.Proper) : d'.Proper := by
  obtain ⟨f, f', hf, hf', rfl⟩ := redirects_iff.1 h
  exact hd.setItem (hf'.proper (hd.item? hf))

/-- A mapping that has been renamed agrees with its new dimension. -/
theorem Redirects.agrees {mapping d d' : Json} (hd : LeadsToField mapping d) (h : r.Redirects d d') :
    LeadsToField (withDimension mapping d') d' ∧ AgreesWith d' d'.compact (withDimension mapping d') := by
  obtain ⟨⟨target, htarget, htype, hdimension⟩, -⟩ := hd
  obtain ⟨hid, target', htarget', htype', hdimension', htargetId⟩ :=
    member?_withDimension d' htarget (Json.isObj_of_member? hdimension)
  obtain ⟨f, f', hf, hf', rfl⟩ := redirects_iff.1 h
  exact ⟨⟨⟨target', htarget', htype'.trans htype, hdimension'⟩, f', Json.item?_setItem hf, hf'.isFieldRef⟩,
    ⟨rfl, hid, target', htarget', htargetId⟩⟩

/-- After the renaming, the mappings that lead to field references are those that have been renamed. -/
theorem Rekeyed.leadsToField {e e' : String × Json} {d' : Json} (h : Rekeyed r e e') (hd' : LeadsToField e'.2 d') :
    AgreesWith d' e'.1 e'.2 ∧ ∃ d, LeadsToField e.2 d ∧ r.Redirects d d' := by
  cases h with
  | dimension hd hredirects =>
    obtain ⟨hleads, hagrees⟩ := hredirects.agrees hd
    obtain rfl := hleads.unique hd'
    exact ⟨hagrees, _, hd, hredirects⟩
  | other hnot => exact absurd hd' (hnot d')

theorem Rekeyed.eq_self {e e' : String × Json} (h : Rekeyed r e e') (hnot : ∀ d, ¬LeadsToField e'.2 d) : e' = e := by
  cases h with
  | dimension hd hredirects => exact absurd (hredirects.agrees hd).1 (hnot _)
  | other _ => rfl

/-- Mappings with distinct keys come to distinct keys. -/
theorem Rekeyed.ne {members : List (String × Json)} (hkeyed : KeyedByDimension r members)
    (hproper : ∀ e ∈ members, e.2.Proper) {e₁ e₂ e₁' e₂' : String × Json} (h₁ : e₁ ∈ members) (h₂ : e₂ ∈ members)
    (hne : e₁.1 ≠ e₂.1) (h₁' : Rekeyed r e₁ e₁') (h₂' : Rekeyed r e₂ e₂') : e₁'.1 ≠ e₂'.1 := by
  cases h₁' with
  | other hnot₁ =>
    cases h₂' with
    | other hnot₂ => exact hne
    | dimension hd₂ hr₂ => exact hkeyed.other h₁ hnot₁ h₂ hd₂ hr₂
  | dimension hd₁ hr₁ =>
    cases h₂' with
    | other hnot₂ => exact (hkeyed.other h₂ hnot₂ h₁ hd₁ hr₁).symm
    | dimension hd₂ hr₂ =>
      intro hsame
      have hproper₁ := hr₁.proper (hd₁.proper (hproper e₁ h₁))
      have hproper₂ := hr₂.proper (hd₂.proper (hproper e₂ h₂))
      obtain rfl := Json.compact_injective hproper₁ hproper₂ hsame
      refine hne ?_
      rw [hkeyed.key h₁ hd₁, hkeyed.key h₂ hd₂, hkeyed.apart h₁ h₂ hd₁ hd₂ hr₁ hr₂]

/-! ## All mappings -/

/-- What holds of any two elements holds of what is related to them. -/
theorem pairwise_forall₂ {α β : Type} {R : α → β → Prop} {S : α → α → Prop} {T : β → β → Prop} {as : List α}
    {bs : List β} (h : List.Forall₂ R as bs) (hpairs : as.Pairwise S)
    (himp : ∀ a ∈ as, ∀ a' ∈ as, ∀ b b', S a a' → R a b → R a' b' → T b b') : bs.Pairwise T := by
  induction h with
  | nil => exact .nil
  | @cons a b as bs hab hrest ih =>
    rw [List.pairwise_cons] at hpairs
    refine .cons (fun b' hb' => ?_) (ih hpairs.2 fun a₁ h₁ a₂ h₂ => ?_)
    · obtain ⟨a', ha', hab'⟩ := Json.exists_of_forall₂ hrest hb'
      exact himp a List.mem_cons_self a' (List.mem_cons_of_mem _ ha') b b' (hpairs.1 a' ha') hab hab'
    · exact himp a₁ (List.mem_cons_of_mem _ h₁) a₂ (List.mem_cons_of_mem _ h₂)

/-- Mappings that are keyed by their dimensions come to distinct keys. -/
theorem KeyedByDimension.nodup {members news : List (String × Json)} (hkeyed : KeyedByDimension r members)
    (hkeys : (members.map Prod.fst).Nodup) (hproper : ∀ e ∈ members, e.2.Proper)
    (hnews : List.Forall₂ (Rekeyed r) members news) : (news.map Prod.fst).Nodup := by
  rw [List.Nodup, List.pairwise_map] at hkeys ⊢
  exact pairwise_forall₂ hnews hkeys fun e₁ h₁ e₂ h₂ e₁' e₂' hne h₁' h₂' =>
    Rekeyed.ne hkeyed hproper h₁ h₂ hne h₁' h₂'

theorem exists_of_clickBehavior {click click' : Json} {members : List (String × Json)}
    (h : r.clickBehavior click = .ok click') (hmembers : click.member? "parameterMapping" = some (.obj members)) :
    ∃ news, List.Forall₂ (Rekeyed r) members news ∧
      click'.member? "parameterMapping" = some (.obj (Assoc.ofList news)) := by
  obtain ⟨clicked, hclicked, h⟩ := Except.bind_eq_ok_iff.1 h
  have hkept : clicked.member? "parameterMapping" = some (.obj members) :=
    (Json.keeps_onMember (by decide) _ _ hclicked).trans hmembers
  rw [Json.onMember_of_some hkept] at h
  obtain ⟨mappings, hmappings, h⟩ := Except.bind_eq_ok_iff.1 h
  obtain ⟨news, hnews, heq⟩ := Except.bind_eq_ok_iff.1 hmappings
  obtain rfl := Except.ok.inj heq
  obtain rfl := Except.ok.inj h
  refine ⟨news, (Except.mapM_eq_ok_iff.1 hnews).imp fun e e' he => clickMapping_rekeyed he, ?_⟩
  exact Json.member?_setMember_self (Json.isObj_of_member? hkept)

/-- Renaming a click keeps its mappings coherent. Each mapping comes to a new key, or stays with its old one
(`news`), and of those that come to one key the last is kept. Of what is kept, a mapping that leads to a
dimension with a field reference has the text of the dimension, which is an old one renamed, as its key, its id
and the id of its target; every other one is unchanged. If the new keys are distinct, all mappings are kept in
their order, and distinct they are if the click has been read from a text and the mappings were keyed by their
dimensions. -/
theorem clickBehavior_coherent {click click' : Json} {members : List (String × Json)}
    (h : r.clickBehavior click = .ok click') (hmembers : click.member? "parameterMapping" = some (.obj members)) :
    ∃ news entries, List.Forall₂ (Rekeyed r) members news ∧
      click'.member? "parameterMapping" = some (.obj entries) ∧
      (∀ e' ∈ entries, ∃ e ∈ members, Rekeyed r e e' ∧
        (∀ d', LeadsToField e'.2 d' → AgreesWith d' e'.1 e'.2 ∧ ∃ d, LeadsToField e.2 d ∧ r.Redirects d d') ∧
        ((∀ d', ¬LeadsToField e'.2 d') → e' = e)) ∧
      (∀ key mapping, (key, mapping) ∈ entries ↔
        ∃ before after, news = before ++ (key, mapping) :: after ∧ key ∉ after.map Prod.fst) ∧
      ((news.map Prod.fst).Nodup → entries = news) ∧
      (click.WellFormed → click.Proper → KeyedByDimension r members → (news.map Prod.fst).Nodup) := by
  obtain ⟨news, hnews, hmember⟩ := exists_of_clickBehavior h hmembers
  refine ⟨news, Assoc.ofList news, hnews, hmember, fun e' he' => ?_, fun key mapping => ?_, Assoc.ofList_eq_self,
    fun hwell hproper hkeyed => ?_⟩
  · obtain ⟨e, he, hrekeyed⟩ := Json.exists_of_forall₂ hnews (Assoc.mem_of_mem_ofList he')
    exact ⟨e, he, hrekeyed, fun d' => hrekeyed.leadsToField, hrekeyed.eq_self⟩
  · rw [← Assoc.lookup_eq_some_iff_mem (Assoc.nodup_keys_ofList _), Assoc.lookup_ofList_eq_some_iff]
  · exact hkeyed.nodup (hwell.member? hmembers).1 (hproper.member? hmembers).member hnews

/-- A click whose mappings lead to a column and to a parameter. -/
def linkedMappings (column : ColumnId) : List (String × Json) :=
  let dimension := Json.arr [.str "dimension", Sample.fieldRef column]
  [(dimension.compact, .obj [("id", .str dimension.compact),
      ("target", .obj [("type", .str "dimension"), ("id", .str dimension.compact), ("dimension", dimension)])]),
    ("count", .obj [("id", .str "count"), ("target", .obj [("type", .str "parameter"), ("id", .str "count")])])]

def linkedClick (column : ColumnId) : Json :=
  .obj [("type", .str "link"), ("parameterMapping", .obj (linkedMappings column))]

theorem keyedByDimension_linked : KeyedByDimension ⟨oneColumn, .card ⟨7⟩⟩ (linkedMappings ⟨100⟩) := by
  have hleads : ∀ e ∈ linkedMappings ⟨100⟩, ∀ d, LeadsToField e.2 d →
      d = .arr [.str "dimension", Sample.fieldRef ⟨100⟩] ∧ e.1 = d.compact := by
    intro e he d hd
    rcases List.mem_pair.1 he with rfl | rfl
    · obtain rfl := Option.some.inj (leadsToField_iff.1 hd).1
      exact ⟨rfl, rfl⟩
    · cases (leadsToField_iff.1 hd).1
  refine ⟨fun he hd => (hleads _ he _ hd).2, fun {e e' d d'} he hnot he' hd hr => ?_, ?_⟩
  · obtain ⟨rfl, -⟩ := hleads e' he' d hd
    obtain ⟨f, f', -, -, -, rfl⟩ := hr
    rcases List.mem_pair.1 he with rfl | rfl
    · exact absurd (leadsToField_iff.2 ⟨rfl, _, rfl, by decide⟩) (hnot (.arr [.str "dimension", Sample.fieldRef ⟨100⟩]))
    · intro hsame
      have hhead := congrArg (fun key : String => key.toList.head?) hsame
      simp [Json.compact, Json.chars, Json.setItem] at hhead
  · intro e₁ e₂ d₁ d₂ d' h₁ h₂ hd₁ hd₂ _ _
    rw [(hleads e₁ h₁ d₁ hd₁).1, (hleads e₂ h₂ d₂ hd₂).1]

theorem coherent_linked :
    clickBehavior ⟨oneColumn, .card ⟨7⟩⟩ (linkedClick ⟨100⟩) = .ok (linkedClick ⟨1100⟩) ∧
    KeyedByDimension ⟨oneColumn, .card ⟨7⟩⟩ (linkedMappings ⟨100⟩) ∧
    List.Forall₂ (Rekeyed ⟨oneColumn, .card ⟨7⟩⟩) (linkedMappings ⟨100⟩) (linkedMappings ⟨1100⟩) ∧
    ∀ e ∈ linkedMappings ⟨1100⟩, ∀ d, LeadsToField e.2 d → AgreesWith d e.1 e.2 := by
  have hclick : clickBehavior ⟨oneColumn, .card ⟨7⟩⟩ (linkedClick ⟨100⟩) = .ok (linkedClick ⟨1100⟩) := by
    decide +kernel
  have hkeys : (Json.arr [.str "dimension", Sample.fieldRef ⟨100⟩]).compact ≠ "count" := by decide +kernel
  have hreference : (Sample.fieldRef ⟨100⟩).WellFormed := by
    simp [Sample.fieldRef, Ident.toJson, Ident.toNat, Json.WellFormed, Json.WellFormedItems]
  have hwell : (linkedClick ⟨100⟩).WellFormed := by
    simp [linkedClick, linkedMappings, Json.WellFormed, Json.WellFormedItems, Json.WellFormedMembers, hkeys, hreference]
  have hproper : (linkedClick ⟨100⟩).Proper := by
    intro x hx
    simp [linkedClick, linkedMappings, Sample.fieldRef, Ident.toJson] at hx
  obtain ⟨news, entries, hnews, hentries, hmember, -, hself, hnodup⟩ := clickBehavior_coherent hclick rfl
  obtain rfl := Json.obj.inj (Option.some.inj hentries)
  rw [← hself (hnodup hwell hproper keyedByDimension_linked)] at hnews
  refine ⟨hclick, keyedByDimension_linked, hnews, fun e he d hd => ?_⟩
  obtain ⟨_, _, _, hagrees, _⟩ := hmember e he
  exact (hagrees d hd).1

end Renaming

end Rehome
