import Mathlib.Data.Set.Card
import Rehome.Proofs.Data.Assoc
import Rehome.Proofs.Label.Texts
import Rehome.Proofs.Place.Traversal
import Rehome.Proofs.Text.Blank

/-! # Labels that are collected and replaced

Labels are collected place by place, and replaced place by place. Both come to one pass over the texts of the
document: its labels are its texts, trimmed (`mem_ofDocument`), and replacing them rewords it
(`replace_eq`). -/

namespace Rehome.Label

/-- The labels among texts. -/
def labelsOf (texts : List String) : List String := (texts.map Text.trim).filter (· ≠ "")

theorem mem_labelsOf {l : String} {texts : List String} :
    l ∈ labelsOf texts ↔ l ≠ "" ∧ ∃ t ∈ texts, Text.trim t = l := by
  simp only [labelsOf, List.mem_filter, List.mem_map, decide_eq_true_eq]
  exact and_comm

theorem mem_labelsOf_append {l : String} {texts texts' : List String} :
    l ∈ labelsOf (texts ++ texts') ↔ l ∈ labelsOf texts ∨ l ∈ labelsOf texts' := by
  rw [labelsOf, List.map_append, List.filter_append, List.mem_append]
  rfl

/-! ## Places -/

theorem Layout.slots_eq (l : Layout) (j : Json) : l.slots j = l.scheme.texts j := by
  have hone (key : String) (v : Json) :
      Scheme.texts (.member key .text .none) v = (v.text? key).toList := by
    rw [Scheme.texts_member, Json.text?]
    cases v.member? key with
    | none => rfl
    | some w => cases w <;> rfl
  cases l with
  | members accepts =>
    cases j with
    | obj ms =>
      rw [slots, scheme, Scheme.texts_members_obj, List.filterMap_eq_flatMap_toList]
      refine List.flatMap_congr fun e _ => ?_
      split
      · cases e.2 <;> rfl
      · rfl
    | _ => rfl
  | ofMembers key =>
    cases j with
    | obj ms =>
      rw [slots, scheme, Scheme.texts_members_obj, List.filterMap_eq_flatMap_toList]
      simp only [hone]
    | _ => rfl
  | ofItems key =>
    cases j with
    | arr items =>
      rw [slots, scheme, Scheme.texts_items_arr, List.filterMap_eq_flatMap_toList, funext (hone key)]
    | _ => rfl
  | none => cases j <;> rfl

/-- The text slots of a place are changed in order, and a state with them. -/
theorem mapSlots_changing {σ : Type} {f : String → String} {update : σ → String → σ} (trail : Trail) (j : Json)
    (st : σ) : mapSlots (Scheme.changing f update) trail j st =
      ((layoutAt trail).scheme.reword f j, (slots trail j).foldl update st) := by
  rw [mapSlots, Layout.mapSlots_eq, Scheme.mapTexts_changing (apart_scheme _), slots, Layout.slots_eq]

/-! ## Collecting -/

/-- Tells texts. -/
def tell : String → StateM (List String) String := Scheme.changing id fun texts t => texts ++ [t]

theorem foldl_tell (texts told : List String) :
    told.foldl (fun texts t => texts ++ [t]) texts = texts ++ told := by
  rw [List.foldl_append_eq_append (f := fun t => [t])]
  induction told <;> simp_all

/-- What is collected are the labels among the texts that are told. -/
def Gathers (α : Type) (x : StateT TextSet Id α) (y : StateM (List String) α) : Prop :=
  ∀ set texts, (∀ l, l ∈ set.elements ↔ l ∈ labelsOf texts) →
    (x set).1 = (y texts).1 ∧ ∀ l, l ∈ (x set).2.elements ↔ l ∈ labelsOf (y texts).2

theorem compatible_gathers : Compatible Gathers where
  pure _ _ _ h := ⟨rfl, h⟩
  bind {α β x y f g} hx hf set texts h := by
    obtain ⟨hresult, hset⟩ := hx set texts h
    show (f (x set).1 (x set).2).1 = (g (y texts).1 (y texts).2).1 ∧ ∀ l,
      l ∈ (f (x set).1 (x set).2).2.elements ↔ l ∈ labelsOf (g (y texts).1 (y texts).2).2
    rw [hresult]
    exact hf _ _ _ hset

theorem visit_gathers (trail : Trail) (j : Json) :
    Gathers Json (Walk.collecting visit trail j) (mapSlots tell trail j) := by
  intro set texts h
  rw [tell, mapSlots_changing, Scheme.reword_id, foldl_tell]
  refine ⟨rfl, fun l => ?_⟩
  show l ∈ unionSorted set.elements (unionSorted [] (labelsOf (slots trail j))) ↔ _
  rw [mem_unionSorted, mem_unionSorted, h l, mem_labelsOf_append, or_iff_right List.not_mem_nil]

/-- The labels of a document are its texts, trimmed, without the blank ones. -/
theorem mem_ofDocument {kind : EntityKind} {d : Json} {l : String} :
    l ∈ (ofDocument kind d).elements ↔ l ∈ labelsOf ((documentScheme kind).texts d) := by
  have hstart : ∀ l, l ∈ (Mergeable.empty : TextSet).elements ↔ l ∈ labelsOf [] := fun l => Iff.rfl
  have hwalk := (compatible_gathers.document visit_gathers kind [] d Mergeable.empty [] hstart).2 l
  rw [document_mapSlots, tell, Scheme.mapTexts_changing (apart_documentScheme kind), foldl_tell] at hwalk
  rw [ofDocument, Traversal.runSurely_eq_collect]
  exact hwalk

/-! ## Replacing -/

section Replacing

variable {replacements : List (String × String)}

/-- What becomes of a text. -/
def replaced (replacements : List (String × String)) (text : String) : String :=
  match replacements.lookup (Text.trim text) with
  | some replacement => Text.withMargins text replacement
  | none => text

/-- Is a text replaced? -/
def isReplaced (replacements : List (String × String)) (text : String) : Bool :=
  (replacements.lookup (Text.trim text)).isSome

theorem replaceText_eq : replaceText replacements = Scheme.changing (replaced replacements)
    fun n t => if isReplaced replacements t then n + 1 else n := by
  funext t
  rw [replaceText]
  funext n
  show _ = (replaced replacements t, if isReplaced replacements t then n + 1 else n)
  rw [replaced, isReplaced]
  cases replacements.lookup (Text.trim t) <;> rfl

theorem foldl_count {α : Type} (p : α → Bool) (as : List α) (n : Nat) :
    as.foldl (fun n a => if p a then n + 1 else n) n = n + as.countP p := by
  induction as generalizing n with
  | nil => rfl
  | cons a as ih =>
    rw [List.foldl_cons, ih, List.countP_cons]
    split <;> omega

/-- Counting place by place is counting all along. -/
theorem collecting_replaceVisit : Walk.collecting (replaceVisit replacements) = mapSlots (replaceText replacements) := by
  have hvisit (trail : Trail) (j : Json) (n : Nat) : mapSlots (replaceText replacements) trail j n =
      ((layoutAt trail).scheme.reword (replaced replacements) j,
        n + (slots trail j).countP (isReplaced replacements)) := by
    rw [replaceText_eq, mapSlots_changing, foldl_count]
  funext trail j n
  show ((mapSlots (replaceText replacements) trail j 0).1, n + (mapSlots (replaceText replacements) trail j 0).2) =
    mapSlots (replaceText replacements) trail j n
  rw [hvisit, hvisit, Nat.zero_add]

/-- Replacing the labels of a document rewords it. -/
theorem replace_eq (kind : EntityKind) (d : Json) : replace replacements kind d =
    (((documentScheme kind).texts d).countP (isReplaced replacements),
      (documentScheme kind).reword (replaced replacements) d) := by
  have hwalk : Walk.document kind (Walk.collecting (replaceVisit replacements)) [] d 0 =
      ((documentScheme kind).reword (replaced replacements) d,
        0 + ((documentScheme kind).texts d).countP (isReplaced replacements)) := by
    rw [collecting_replaceVisit, document_mapSlots, replaceText_eq,
      Scheme.mapTexts_changing (apart_documentScheme kind), foldl_count]
  rw [replace, Traversal.runSurely_eq_collect]
  show ((Walk.document kind (Walk.collecting (replaceVisit replacements)) [] d 0).2,
    (Walk.document kind (Walk.collecting (replaceVisit replacements)) [] d 0).1) = _
  rw [hwalk, Nat.zero_add]

theorem trim_replaced (t : String) : Text.trim (replaced replacements t) =
    Text.trim ((replacements.lookup (Text.trim t)).getD (Text.trim t)) := by
  rw [replaced]
  cases replacements.lookup (Text.trim t) with
  | none => exact (Text.trim_trim t).symm
  | some r => exact Text.trim_withMargins t r

/-- The labels of what comes of a document are what comes of its labels. -/
theorem mem_ofDocument_reword (hempty : replacements.lookup "" = none) {kind : EntityKind} {d : Json}
    {l : String} :
    l ∈ (ofDocument kind ((documentScheme kind).reword (replaced replacements) d)).elements ↔
      l ≠ "" ∧ ∃ l₀ ∈ (ofDocument kind d).elements, Text.trim ((replacements.lookup l₀).getD l₀) = l := by
  rw [mem_ofDocument, Scheme.texts_reword (apart_documentScheme kind), mem_labelsOf]
  refine and_congr_right fun hl => ?_
  simp only [List.mem_map, mem_ofDocument, mem_labelsOf]
  constructor
  · rintro ⟨_, ⟨t, ht, rfl⟩, rfl⟩
    rw [trim_replaced] at hl
    have hne : Text.trim t ≠ "" := by
      intro hblank
      rw [hblank, hempty, Option.getD_none, ← hblank, Text.trim_trim, hblank] at hl
      exact hl rfl
    exact ⟨Text.trim t, ⟨hne, t, ht, rfl⟩, (trim_replaced t).symm⟩
  · rintro ⟨_, ⟨-, t, ht, rfl⟩, rfl⟩
    exact ⟨_, ⟨t, ht, rfl⟩, trim_replaced t⟩

/-- There is a text here that is replaced. -/
def ReplacedAt (replacements : List (String × String)) (kind : EntityKind) (d : Json) (p : Position) : Prop :=
  TextAt kind p ∧ ∃ t, d.at? p = some (.str t) ∧ isReplaced replacements t

/-- A text stands between blanks; there is another one in its place. -/
def ReplacedBy (replacements : List (String × String)) (v v' : Json) : Prop :=
  ∃ before label after replacement, Text.IsMargin before ∧ Text.IsMargin after ∧ Text.trim label = label ∧
    replacements.lookup label = some replacement ∧ v = .str (before ++ label ++ after) ∧
    v' = .str (before ++ replacement ++ after)

/-- As many texts are replaced as there are positions of such texts. -/
theorem countP_texts (kind : EntityKind) {d : Json} (hd : d.WellFormed) :
    ((documentScheme kind).texts d).countP (isReplaced replacements) =
      Set.ncard {p | ReplacedAt replacements kind d p} := by
  let spots := ((documentScheme kind).spots d).filter fun e => isReplaced replacements e.2
  have hnodup : (spots.map Prod.fst).Nodup :=
    (List.filter_sublist.map Prod.fst).nodup (Scheme.nodup_spots (apart_documentScheme kind) hd)
  have hpositions : {p | ReplacedAt replacements kind d p} = (spots.map Prod.fst).toFinset := by
    ext p
    simp only [Set.mem_ofPred_eq, List.coe_toFinset, List.mem_map, Prod.exists, exists_and_right, exists_eq_right,
      spots, List.mem_filter]
    constructor
    · rintro ⟨hp, t, ht, hreplaced⟩
      exact ⟨t, Scheme.mem_spots_of_at? (hasText_documentScheme_iff.2 hp) ht, hreplaced⟩
    · rintro ⟨t, hmem, hreplaced⟩
      obtain ⟨hp, ht⟩ := Scheme.at?_of_mem_spots hd hmem
      exact ⟨hasText_documentScheme_iff.1 hp, t, ht, hreplaced⟩
  rw [hpositions, Set.ncard_coe_finset, List.toFinset_card_of_nodup hnodup, List.length_map, Scheme.texts,
    List.countP_map, List.countP_eq_length_filter]
  rfl

theorem replaced_of_not {t : String} (h : ¬isReplaced replacements t) : replaced replacements t = t := by
  rw [replaced]
  cases hl : replacements.lookup (Text.trim t) with
  | none => rfl
  | some r => exact absurd (by rw [isReplaced, hl]; rfl) h

/-- Replacing the labels of a document is a substitution at the texts that are replaced. -/
theorem substitutes_replaced (kind : EntityKind) (d : Json) :
    Substitutes (fun (_ : Unit) => ReplacedAt replacements kind d) (fun _ => ReplacedBy replacements) d
      ((documentScheme kind).reword (replaced replacements) d) := by
  have hreword := Scheme.substitutes_reword (apart_documentScheme kind) (P := fun t => isReplaced replacements t)
    (fun t h => replaced_of_not h) d
  refine ⟨fun {_ p v} hslot hv => ?_, fun {p} hnot => hreword.rest fun _ hp => hnot () ?_⟩
  · obtain ⟨hp, hslot⟩ := hslot
    obtain ⟨v', hv', t, ht, rfl, rfl⟩ := hreword.slot (k := ()) ⟨hasText_documentScheme_iff.2 hp, hslot⟩ hv
    obtain ⟨r, hr⟩ := Option.isSome_iff_exists.1 ht
    obtain ⟨before, after, hbefore, hafter, htext, hwith⟩ := Text.exists_margins t
    refine ⟨_, hv', before, Text.trim t, after, r, hbefore, hafter, Text.trim_trim t, hr, ?_, ?_⟩
    · rw [← htext]
    · rw [replaced, hr, ← hwith]
  · exact ⟨hasText_documentScheme_iff.1 hp.1, hp.2⟩

/-- Where no replacement is replaced in turn, replacing labels again does nothing. -/
theorem replace_reword (h : ∀ l r, replacements.lookup l = some r → replacements.lookup (Text.trim r) = none)
    (kind : EntityKind) (d : Json) :
    replace replacements kind ((documentScheme kind).reword (replaced replacements) d) =
      (0, (documentScheme kind).reword (replaced replacements) d) := by
  have hnot (t : String) : ¬isReplaced replacements (replaced replacements t) := by
    rw [isReplaced, trim_replaced]
    cases hl : replacements.lookup (Text.trim t) with
    | none => simp [Text.trim_trim, hl]
    | some r => simp [h _ r hl]
  have htwice : replaced replacements ∘ replaced replacements = replaced replacements :=
    funext fun t => replaced_of_not (hnot t)
  have hcount (texts : List String) : texts.countP (isReplaced replacements ∘ replaced replacements) = 0 :=
    List.countP_eq_zero.2 fun t _ => hnot t
  rw [replace_eq, Scheme.reword_reword (apart_documentScheme kind), htwice,
    Scheme.texts_reword (apart_documentScheme kind), List.countP_map, hcount]

end Replacing

end Rehome.Label
