import Mathlib
import Rehome.Document.Terms
import Rehome.Proofs.Data.Sorted
import Rehome.Proofs.Translator.Terms

/-! # Which term a sentence is looked up as

Several entries of a dictionary may have a say in what a key leads to: a term, the spellings of others, and for each
of them several spellings of the key of a language. A term goes before spellings, of the terms that a key is a
spelling of the least one counts, and of the keys of a language the least one (`forLanguage_resolves`). That is the
key which further terms are given under, so these count. -/

namespace Rehome

namespace Language

theorem sameLetters_iff {s t : String} :
    sameLetters s t ↔ s.toList.map Char.toLower = t.toList.map Char.toLower := by
  rw [sameLetters, beq_iff_eq, ← String.toList_inj, String.toList_map, String.toList_map]

theorem toNat_toLower_of_isUpper {c : Char} (h : c.isUpper) : c.toLower.toNat = c.toNat + 32 := by
  have hcapital : 65 ≤ c.toNat ∧ c.toNat ≤ 90 := by simpa [Char.isUpper, UInt32.le_iff_toNat_le] using h
  have hvalid : (c.toNat + 32).isValidChar := .inl (by omega)
  rw [Char.toLower_eq_of_isUpper h, Char.toNat_ofNat, if_pos hvalid]

/-- A capital letter comes before the small one. -/
theorem le_of_toLower_eq {c d : Char} (hc : c.isUpper) (h : d.toLower = c.toLower) : c ≤ d := by
  have hlower := congrArg Char.toNat h
  rw [toNat_toLower_of_isUpper hc] at hlower
  rw [Char.le_def, UInt32.le_iff_toNat_le, Char.toNat_val, Char.toNat_val]
  by_cases hd : d.isUpper
  · rw [toNat_toLower_of_isUpper hd] at hlower
    exact (Nat.add_right_cancel hlower).ge
  · rw [Char.toLower_eq_of_not_isUpper hd] at hlower
    exact hlower ▸ Nat.le_add_right _ _

theorem not_lex_of_map_toLower_eq {cs ds : List Char} (hcs : ∀ c ∈ cs, c.isUpper)
    (h : ds.map Char.toLower = cs.map Char.toLower) : ¬List.Lex (· < ·) ds cs := by
  intro hlex
  induction hlex with
  | nil => cases h
  | cons _ ih => exact ih (List.forall_mem_cons.1 hcs).2 (List.cons.inj h).2
  | rel hlt => exact not_le_of_gt hlt (le_of_toLower_eq (List.forall_mem_cons.1 hcs).1 (List.cons.inj h).1)

/-- The key of a language is the least of its spellings. -/
theorem name_le_of_sameLetters {language : Language} {key : String} (h : sameLetters key language.name) :
    language.name ≤ key := by
  have hcapitals : ∀ c ∈ language.name.toList, c.isUpper := List.all_eq_true.1 (by cases language <;> rfl)
  refine not_lt.1 fun hlt => ?_
  exact not_lex_of_map_toLower_eq hcapitals (sameLetters_iff.1 h) (String.lt_iff_toList_lt.1 hlt)

end Language

namespace TermDictionary

variable {d : TermDictionary} {language : Language} {term key called : String}

/-! ## What a dictionary calls its terms -/

/-- Says what a term is called in a language: the entry of the term does, with the least key for that language. -/
def Calls (language : Language) (d : TermDictionary) (term called : String) : Prop :=
  ∃ names key, (term, names) ∈ d.entries ∧ (key, called) ∈ names ∧ Language.sameLetters key language.name ∧
    ∀ other ∈ names, Language.sameLetters other.1 language.name → key ≤ other.1

/-- Terms are sorted, and so are the keys of each. -/
structure WellSorted (d : TermDictionary) : Prop where
  entries : Assoc.Sorted d.entries
  names {e : String × List (String × String)} : e ∈ d.entries → Assoc.Sorted e.2

/-- Dictionaries that are read from a document, and those that have been given further terms. -/
inductive Built : TermDictionary → Prop where
  | parsed {text : String} {d : TermDictionary} (h : parse text = .ok d) : Built d
  | withTerm {d : TermDictionary} (h : Built d) (term : String) (language : Language) (called : String) :
      Built (d.withTerm term language called)

theorem wellSorted_ofEntries (entries : List (String × List (String × String))) : (ofEntries entries).WellSorted where
  entries := Assoc.sorted_sorted _
  names h := by
    obtain ⟨e, -, rfl⟩ := List.mem_map.1 (Assoc.mem_of_mem_sorted h)
    exact Assoc.sorted_sorted e.2

theorem WellSorted.withTerm (h : d.WellSorted) (term : String) (language : Language) (called : String) :
    (d.withTerm term language called).WellSorted where
  entries := h.entries.putSorted _ _
  names {e} he := by
    rcases Assoc.mem_putSorted he with rfl | he
    · refine Assoc.Sorted.putSorted ?_ _ _
      cases hterm : d.entries.lookup term with
      | none => exact List.Pairwise.nil
      | some names => exact h.names (Assoc.mem_of_lookup hterm)
    · exact h.names he

theorem exists_ofEntries_of_parse {text : String} (h : parse text = .ok d) : ∃ entries, d = ofEntries entries := by
  rw [parse] at h
  split at h
  · exact ⟨[], (Except.ok.inj h).symm⟩
  split at h
  · next d' hd' =>
    obtain ⟨n, -, hn⟩ := Option.bind_eq_some_iff.1 hd'
    obtain ⟨entries, -, rfl⟩ := Option.map_eq_some_iff.1 hn
    exact ⟨entries, (Except.ok.inj h).symm⟩
  · cases h

theorem Built.wellSorted (h : d.Built) : d.WellSorted := by
  induction h with
  | parsed h =>
    obtain ⟨entries, rfl⟩ := exists_ofEntries_of_parse h
    exact wellSorted_ofEntries entries
  | withTerm _ term language called ih => exact ih.withTerm term language called

theorem calledIn?_eq_some_iff {names : List (String × String)} (h : Assoc.Sorted names) :
    calledIn? language names = some called ↔ ∃ key, (key, called) ∈ names ∧ Language.sameLetters key language.name ∧
      ∀ other ∈ names, Language.sameLetters other.1 language.name → key ≤ other.1 := by
  rw [calledIn?, Option.map_eq_some_iff]
  constructor
  · rintro ⟨⟨key, called⟩, hfind, rfl⟩
    exact ⟨key, h.find?_eq_some_iff.1 hfind⟩
  · rintro ⟨key, hkey⟩
    exact ⟨(key, called), h.find?_eq_some_iff.2 hkey, rfl⟩

/-! ## What a key leads to -/

theorem mem_caseVariants_self (term : String) : term ∈ Text.caseVariants term :=
  List.mem_eraseDups.2 List.mem_cons_self

theorem lookup_map_spelling (spellings : List String) (called key : String) :
    (spellings.map fun spelling => (spelling, called)).lookup key =
      if key ∈ spellings then some called else none := by
  induction spellings with
  | nil => rfl
  | cons spelling rest ih =>
    rw [List.map_cons, Assoc.lookup_cons, ih]
    by_cases hkey : key = spelling <;> simp [hkey]

/-- Among the spellings of sorted terms, those of the first term that has the key among them count. -/
theorem lookup_spellings (terms : List (String × String)) (key : String) : (spellings terms).lookup key =
    (terms.find? fun e => decide (key ∈ Text.caseVariants e.1)).map Prod.snd := by
  induction terms with
  | nil => rfl
  | cons e rest ih =>
    have hcons : spellings (e :: rest) =
        (Text.caseVariants e.1).map (fun spelling => (spelling, e.2)) ++ spellings rest := List.flatMap_cons
    rw [hcons, List.lookup_append, lookup_map_spelling, ih, List.find?_cons]
    by_cases hkey : key ∈ Text.caseVariants e.1 <;> simp [hkey]

theorem lookup_forLanguage_widened (d : TermDictionary) (language : Language) (key : String) :
    (d.forLanguage language true).lookup key =
      ((d.terms language).lookup key).or ((spellings (d.terms language)).lookup key) := by
  rw [forLanguage, if_pos rfl, Assoc.lookup_foldl_putNew]

/-- What a key leads to: what it is called as a term or, if it is none, what the least term is called that it is a
spelling of. -/
inductive Resolves (language : Language) (d : TermDictionary) (key called : String) : Prop where
  | term (hterm : d.Calls language key called)
  | spelling {term : String} (hkey : ¬d.Has language key) (hterm : d.Calls language term called)
      (hspelling : key ∈ Text.caseVariants term)
      (hleast : ∀ other, d.Has language other → key ∈ Text.caseVariants other → term ≤ other)

namespace WellSorted

theorem mem_terms_iff (h : d.WellSorted) : (term, called) ∈ d.terms language ↔ d.Calls language term called := by
  rw [terms, List.mem_filterMap, Calls]
  constructor
  · rintro ⟨⟨term', names⟩, hmem, hcalled⟩
    obtain ⟨called', hcalled', heq⟩ := Option.map_eq_some_iff.1 hcalled
    obtain ⟨rfl, rfl⟩ := Prod.mk.inj heq
    obtain ⟨key, hkey⟩ := (calledIn?_eq_some_iff (h.names hmem)).1 hcalled'
    exact ⟨names, key, hmem, hkey⟩
  · rintro ⟨names, key, hmem, hkey⟩
    refine ⟨(term, names), hmem, ?_⟩
    rw [(calledIn?_eq_some_iff (h.names hmem)).2 ⟨key, hkey⟩]
    rfl

theorem sorted_terms (h : d.WellSorted) (language : Language) : Assoc.Sorted (d.terms language) := by
  refine List.Pairwise.filterMap _ ?_ h.entries
  intro e e' hlt p hp p' hp'
  obtain ⟨called, -, rfl⟩ := Option.map_eq_some_iff.1 hp
  obtain ⟨called', -, rfl⟩ := Option.map_eq_some_iff.1 hp'
  exact hlt

theorem has_iff_exists (h : d.WellSorted) : d.Has language term ↔ ∃ called, d.Calls language term called := by
  simp only [Has, Calls]
  constructor
  · rintro ⟨names, called, hmem, hcalled⟩
    obtain ⟨key, hkey⟩ := (calledIn?_eq_some_iff (h.names hmem)).1 hcalled
    exact ⟨called, names, key, hmem, hkey⟩
  · rintro ⟨called, names, key, hmem, hkey⟩
    exact ⟨names, called, hmem, (calledIn?_eq_some_iff (h.names hmem)).2 ⟨key, hkey⟩⟩

theorem lookup_terms_iff (h : d.WellSorted) :
    (d.terms language).lookup term = some called ↔ d.Calls language term called := by
  rw [Assoc.lookup_eq_some_iff_mem (h.sorted_terms language).nodup_keys, h.mem_terms_iff]

theorem lookup_terms_eq_none_iff (h : d.WellSorted) : (d.terms language).lookup key = none ↔ ¬d.Has language key := by
  rw [h.has_iff_exists, ← Option.not_isSome_iff_eq_none, Option.isSome_iff_exists]
  simp only [h.lookup_terms_iff]

theorem lookup_spellings_iff (h : d.WellSorted) : (spellings (d.terms language)).lookup key = some called ↔
    ∃ term, d.Calls language term called ∧ key ∈ Text.caseVariants term ∧
      ∀ other, d.Has language other → key ∈ Text.caseVariants other → term ≤ other := by
  rw [lookup_spellings, Option.map_eq_some_iff]
  constructor
  · rintro ⟨⟨term, called⟩, hfind, rfl⟩
    obtain ⟨hmem, hkey, hleast⟩ := (h.sorted_terms language).find?_eq_some_iff.1 hfind
    refine ⟨term, h.mem_terms_iff.1 hmem, of_decide_eq_true hkey, fun other hother hkey' => ?_⟩
    obtain ⟨called', hcalled'⟩ := h.has_iff_exists.1 hother
    exact hleast (other, called') (h.mem_terms_iff.2 hcalled') (decide_eq_true hkey')
  · rintro ⟨term, hterm, hkey, hleast⟩
    refine ⟨(term, called), (h.sorted_terms language).find?_eq_some_iff.2 ⟨h.mem_terms_iff.2 hterm, ?_, ?_⟩, rfl⟩
    · exact decide_eq_true hkey
    · intro e he hkey'
      exact hleast e.1 (h.has_iff_exists.2 ⟨e.2, h.mem_terms_iff.1 he⟩) (of_decide_eq_true hkey')

theorem lookup_widened_iff (h : d.WellSorted) :
    (d.forLanguage language true).lookup key = some called ↔ d.Resolves language key called := by
  rw [lookup_forLanguage_widened, Option.or_eq_some_iff, h.lookup_terms_iff, h.lookup_terms_eq_none_iff,
    h.lookup_spellings_iff]
  constructor
  · rintro (hterm | ⟨hkey, term, hterm, hspelling, hleast⟩)
    · exact .term hterm
    · exact .spelling hkey hterm hspelling hleast
  · intro hresolves
    cases hresolves with
    | term hterm => exact .inl hterm
    | spelling hkey hterm hspelling hleast => exact .inr ⟨hkey, _, hterm, hspelling, hleast⟩

/-- Without the spellings only the terms are left. -/
theorem lookup_plain_iff (h : d.WellSorted) : (d.forLanguage language false).lookup key = some called ↔
    (d.forLanguage language true).lookup key = some called ∧ d.Has language key := by
  rw [h.lookup_widened_iff, show d.forLanguage language false = d.terms language from rfl, h.lookup_terms_iff,
    h.has_iff_exists]
  constructor
  · intro hterm
    exact ⟨.term hterm, called, hterm⟩
  · rintro ⟨hresolves, called', hterm'⟩
    cases hresolves with
    | term hterm => exact hterm
    | spelling hkey _ _ _ => exact absurd (h.has_iff_exists.2 ⟨called', hterm'⟩) hkey

/-- The keys of a widened dictionary are the spellings of its terms. -/
theorem isSome_lookup_widened_iff (h : d.WellSorted) : ((d.forLanguage language true).lookup key).isSome ↔
    ∃ term, d.Has language term ∧ key ∈ Text.caseVariants term := by
  rw [lookup_forLanguage_widened, Option.isSome_or, lookup_spellings, Option.isSome_map, Bool.or_eq_true,
    List.find?_isSome]
  constructor
  · rintro (hterm | ⟨e, he, hkey⟩)
    · obtain ⟨called, hcalled⟩ := Option.isSome_iff_exists.1 hterm
      exact ⟨key, h.has_iff_exists.2 ⟨called, h.lookup_terms_iff.1 hcalled⟩, mem_caseVariants_self key⟩
    · exact ⟨e.1, h.has_iff_exists.2 ⟨e.2, h.mem_terms_iff.1 he⟩, of_decide_eq_true hkey⟩
  · rintro ⟨term, hterm, hkey⟩
    obtain ⟨called, hcalled⟩ := h.has_iff_exists.1 hterm
    exact .inr ⟨(term, called), h.mem_terms_iff.2 hcalled, decide_eq_true hkey⟩

/-- Each key comes once, so it makes no difference in which order they are read. -/
theorem nodup_forLanguage (h : d.WellSorted) (language : Language) (caseExpand : Bool) :
    ((d.forLanguage language caseExpand).map Prod.fst).Nodup := by
  have hterms := (h.sorted_terms language).nodup_keys
  cases caseExpand with
  | false => exact hterms
  | true => exact Assoc.nodup_keys_foldl_putNew _ hterms

end WellSorted

/-- What a term is given is what it is called from then on, whatever other keys it had for the language. -/
theorem calls_withTerm (d : TermDictionary) (term : String) (language : Language) (called : String) :
    (d.withTerm term language called).Calls language term called := by
  have hentry := Assoc.lookup_putSorted term term
    (Assoc.putSorted language.name called ((d.entries.lookup term).getD [])) d.entries
  have hname := Assoc.lookup_putSorted language.name language.name called ((d.entries.lookup term).getD [])
  rw [if_pos rfl] at hentry hname
  exact ⟨_, language.name, Assoc.mem_of_lookup hentry, Assoc.mem_of_lookup hname, Language.sameLetters_iff.2 rfl,
    fun other _ hother => Language.name_le_of_sameLetters hother⟩

/-- A key leads to what it is called as a term or, if it is none, to what the least term is called that it is a
spelling of; the keys are the spellings of terms. Without the spellings only the terms are left. Each key comes
once, and a term that is given leads to what it has been given. -/
theorem forLanguage_resolves (h : d.Built) (language : Language) :
    (∀ key called, (d.forLanguage language true).lookup key = some called ↔ d.Resolves language key called) ∧
    (∀ key, ((d.forLanguage language true).lookup key).isSome ↔
      ∃ term, d.Has language term ∧ key ∈ Text.caseVariants term) ∧
    (∀ key called, (d.forLanguage language false).lookup key = some called ↔
      (d.forLanguage language true).lookup key = some called ∧ d.Has language key) ∧
    (∀ caseExpand, ((d.forLanguage language caseExpand).map Prod.fst).Nodup) ∧
    ∀ term called caseExpand,
      ((d.withTerm term language called).forLanguage language caseExpand).lookup term = some called := by
  have hd := h.wellSorted
  refine ⟨fun key called => hd.lookup_widened_iff, fun key => hd.isSome_lookup_widened_iff,
    fun key called => hd.lookup_plain_iff, hd.nodup_forLanguage language, fun term called caseExpand => ?_⟩
  have hgiven := hd.withTerm term language called
  have hcalls := calls_withTerm d term language called
  cases caseExpand with
  | false => exact hgiven.lookup_terms_iff.2 hcalls
  | true => exact hgiven.lookup_widened_iff.2 (.term hcalls)

/-- A document with two spellings of one term, one of them with two keys for the same language. -/
def salesText : String := "Sales:\n  FR: Ventes\nsales:\n  fr: ventes\n  Fr: soldes\n"

theorem resolves_sales : ∃ d, parse salesText = .ok d ∧ d.Built ∧
    d.Resolves .fr "SALES" "Ventes" ∧ d.Resolves .fr "sales" "soldes" ∧
    ((d.withTerm "sales" .fr "produits").forLanguage .fr true).lookup "sales" = some "produits" := by
  obtain ⟨d, hd, hterms⟩ : ∃ d, parse salesText = .ok d ∧ d.terms .fr = [("Sales", "Ventes"), ("sales", "soldes")] := by
    have hkeys : ∀ key ∈ ["FR", "Fr"], Language.sameLetters key (Language.name .fr) := by
      simp only [Language.sameLetters_iff]
      decide
    refine ⟨⟨[("Sales", [("FR", "Ventes")]), ("sales", [("Fr", "soldes"), ("fr", "ventes")])]⟩, by decide +kernel, ?_⟩
    simp [terms, calledIn?, hkeys]
  have hupper : (d.forLanguage .fr true).lookup "SALES" = some "Ventes" := by
    rw [lookup_forLanguage_widened, hterms]
    decide +kernel
  have hlower : (d.forLanguage .fr true).lookup "sales" = some "soldes" := by
    rw [lookup_forLanguage_widened, hterms]
    rfl
  obtain ⟨hresolves, -, -, -, hgiven⟩ := forLanguage_resolves (.parsed hd) .fr
  exact ⟨d, hd, .parsed hd, (hresolves _ _).1 hupper, (hresolves _ _).1 hlower, hgiven "sales" "produits" true⟩

end TermDictionary

end Rehome
