import Rehome.Proofs.Data.Assoc
import Rehome.Proofs.Text.Casing
import Rehome.Proofs.Translator.Asking
import Rehome.Proofs.Translator.Terms
import Rehome.Translator.Scripted

/-! # Translating what has been translated

A translator recognizes its results by the sentences that it knows, but it lowers their tails before it gives
them away. So it recognizes them only if they are settled, that is trimmed and with their tails in lower case
already: what a provider is made to say always is, a term of a dictionary need not be
(`translate_revenue`). A text that a consistent translator has translated comes out of it a second time unchanged
(`translate_again`). -/

namespace Rehome.Translator

variable {μ : Type} {t t' : Translator μ} {text out core result : String}
  {answer : Except TranslateError String}

/-- A result that is given away as it is known. -/
structure SettledIn (language : Language) (result : String) : Prop where
  trim : Text.trim result = result
  lowercaseTail : language.usesSentenceCase → Text.lowercaseTail result = result

/-- All results of the dictionary are known, and all that are known are settled. -/
structure Consistent (t : Translator μ) : Prop where
  recorded {e : String × String} : e ∈ t.dictionary → e.2 ∈ t.known
  settled {v : String} : v ∈ t.known → SettledIn t.language v

/-! ## Translators that can be reached -/

theorem consistent_new (language : Language) (onMiss : OnMiss) : (new language onMiss : Translator μ).Consistent where
  recorded h := absurd h List.not_mem_nil
  settled h := absurd h List.not_mem_nil

theorem Consistent.withSentence (h : t.Consistent) (core : String) (hresult : SettledIn t.language result) :
    (t.withSentence core result).Consistent where
  recorded {e} he := by
    refine mem_insertSorted.2 ?_
    rcases Assoc.mem_put he with rfl | he
    · exact .inl rfl
    · exact .inr (h.recorded he)
  settled {v} hv := by
    rcases mem_insertSorted.1 hv with rfl | hv
    · exact hresult
    · exact h.settled hv

/-- Terms keep a translator consistent if what they are called is settled. -/
theorem Consistent.withTerms (h : t.Consistent) (d : TermDictionary) (caseExpand : Bool)
    (hterms : ∀ e ∈ d.forLanguage t.language caseExpand, SettledIn t.language e.2) :
    (t.withTerms d caseExpand).Consistent := by
  have hfold : ∀ sentences : List (String × String), (∀ e ∈ sentences, SettledIn t.language e.2) →
      ∀ u : Translator μ, u.Consistent → u.language = t.language →
        (sentences.foldl (fun t p => t.withSentence p.1 p.2) u).Consistent := by
    intro sentences
    induction sentences with
    | nil => exact fun _ u hu _ => hu
    | cons e sentences ih =>
      intro hsentences u hu hlanguage
      obtain ⟨he, hrest⟩ := List.forall_mem_cons.1 hsentences
      exact ih hrest (u.withSentence e.1 e.2) (hu.withSentence e.1 (hlanguage ▸ he)) hlanguage
  exact hfold _ hterms t h rfl

theorem Consistent.withProvider (h : t.Consistent) (provider : Option μ) : { t with provider }.Consistent :=
  ⟨h.recorded, h.settled⟩

/-- What a provider is made to say is settled, since it is put in sentence case. -/
theorem settledIn_recorded {language : Language} (h : language ≠ .en) (raw : String) :
    SettledIn language (recorded language raw) := by
  rw [recorded, if_pos (Language.usesSentenceCase_of_ne h)]
  exact ⟨Text.trim_sentenceCase raw, fun _ => Text.lowercaseTail_sentenceCase raw⟩

variable [Provider μ]

/-- The translator stays consistent. What comes out either is a known result, or nothing is known of the sentence
and it comes out itself. -/
theorem lookup_cases (ht : t.Consistent) (hlanguage : t.language ≠ .en) (h : lookup core t = (answer, t')) :
    t'.Consistent ∧ t'.language = t.language ∧ ∀ result, answer = .ok result → result ∈ t'.known ∨
      (result = core ∧ core ∉ t'.known ∧ t'.dictionary.lookup core = none) := by
  rw [lookup_apply] at h
  split at h
  · next hcore =>
    obtain ⟨rfl, rfl⟩ := Prod.mk.inj h
    refine ⟨ht, rfl, fun result hresult => .inl ?_⟩
    obtain rfl := Except.ok.inj hresult
    simpa using hcore
  next hcore =>
  have hcore : core ∉ t.known := by simpa using hcore
  cases hdictionary : t.dictionary.lookup core with
  | some r =>
    rw [hdictionary] at h
    obtain ⟨rfl, rfl⟩ := Prod.mk.inj h
    refine ⟨ht, rfl, fun result hresult => .inl ?_⟩
    obtain rfl := Except.ok.inj hresult
    exact ht.recorded (Assoc.mem_of_lookup hdictionary)
  | none =>
    rw [hdictionary] at h
    dsimp only at h
    rw [miss_apply] at h
    cases hpolicy : t.onMiss with
    | fail =>
      rw [hpolicy] at h
      obtain ⟨rfl, rfl⟩ := Prod.mk.inj h
      exact ⟨ht, rfl, fun result hresult => by cases hresult⟩
    | keep =>
      rw [hpolicy] at h
      obtain ⟨rfl, rfl⟩ := Prod.mk.inj h
      exact ⟨ht, rfl, fun result hresult => .inr ⟨(Except.ok.inj hresult).symm, hcore, hdictionary⟩⟩
    | askProvider =>
      rw [hpolicy] at h
      dsimp only at h
      rcases askProvider_cases core t with ⟨told, provider, hask, htold⟩ | ⟨raw, provider, hask⟩
      · rw [hask] at h
        obtain ⟨rfl, rfl⟩ := Prod.mk.inj h
        exact ⟨ht.withProvider provider, rfl, fun result hresult => .inr ⟨htold result hresult, hcore, hdictionary⟩⟩
      · rw [hask] at h
        obtain ⟨rfl, rfl⟩ := Prod.mk.inj h
        refine ⟨(ht.withProvider provider).withSentence core (settledIn_recorded hlanguage raw), rfl, ?_⟩
        exact fun result hresult => .inl (mem_insertSorted.2 (.inl (Except.ok.inj hresult).symm))

/-- A translator stays consistent, whatever becomes of the text. -/
theorem Consistent.translate (ht : t.Consistent) (text : String) : (translate text t).2.Consistent := by
  rw [translate_apply]
  split
  · exact ht
  next hplain =>
  rcases hlookup : lookup (Text.trim text) t with ⟨e | result, t₁⟩
  · exact (lookup_cases ht (fun hen => hplain (.inl hen)) hlookup).1
  · exact (lookup_cases ht (fun hen => hplain (.inl hen)) hlookup).1

theorem Consistent.after (ht : t.Consistent) (texts : List String) : (after texts t).Consistent := by
  induction texts generalizing t with
  | nil => exact ht
  | cons text texts ih => exact ih (ht.translate text)

/-! ## A second time -/

/-- A sentence that comes out as it is: it is known, or nothing is known of it and it is not translated. -/
def Passes (t : Translator μ) (core : String) : Prop :=
  core ∈ t.known ∨ (t.dictionary.lookup core = none ∧ match t.onMiss with
    | .fail => False
    | .keep => True
    | .askProvider => ∃ detected, (ask (Provider.detect core) t).1 = .ok detected ∧
        t.language.matchesCode detected)

theorem lookup_of_passes (h : t.Passes core) : (lookup core t).1 = .ok core := by
  rw [lookup_apply]
  split
  · rfl
  next hcore =>
  obtain ⟨hdictionary, hpolicy⟩ := h.resolve_left (by simpa using hcore)
  rw [hdictionary]
  dsimp only
  rw [miss_apply]
  cases honMiss : t.onMiss with
  | fail =>
    rw [honMiss] at hpolicy
    exact hpolicy.elim
  | keep => rfl
  | askProvider =>
    rw [honMiss] at hpolicy
    obtain ⟨detected, hdetected, hmatches⟩ := hpolicy
    dsimp only
    rw [askProvider_apply]
    rcases hask : ask (Provider.detect core) t with ⟨answer, t₁⟩
    rw [hask] at hdetected
    obtain rfl : answer = .ok detected := hdetected
    exact congrArg Prod.fst (if_pos hmatches)

/-- A text comes out unchanged if its sentence passes and is settled. -/
theorem translate_of_passes (h : t.Passes (Text.trim text)) (hsettled : SettledIn t.language (Text.trim text)) :
    (translate text t).1 = .ok text := by
  rw [fst_translate]
  split
  · rfl
  rw [lookup_of_passes h]
  refine congrArg Except.ok (Eq.trans ?_ (Text.withMargins_trim text))
  rw [finish]
  split
  · next hcase => rw [hsettled.lowercaseTail hcase]
  · rfl

/-- What a consistent translator, after any texts, makes of a text comes out of it unchanged. Where it had nothing
to make of the sentence, it also has to have nothing to make of the sentence with its tail in lower case. -/
theorem translate_again {texts : List String} (ht : t.Consistent) (h : translate text (after texts t) = (.ok out, t'))
    (hpassed : Text.trim text ∉ t'.known → t'.dictionary.lookup (Text.trim text) = none →
      t'.Passes (Text.lowercaseTail (Text.trim text))) : (translate out t').1 = .ok out := by
  have ht' := ht.after texts
  generalize after texts t = u at h ht'
  rw [translate_apply] at h
  split at h
  · next hplain =>
    obtain ⟨hout, rfl⟩ := Prod.mk.inj h
    obtain rfl := Except.ok.inj hout
    rw [fst_translate, if_pos hplain]
  next hplain =>
  have hlanguage : u.language ≠ .en := fun hen => hplain (.inl hen)
  rcases hlookup : lookup (Text.trim text) u with ⟨e | result, u₁⟩
  · rw [hlookup] at h
    cases (Prod.mk.inj h).1
  rw [hlookup] at h
  obtain ⟨hout, rfl⟩ := Prod.mk.inj h
  obtain rfl := Except.ok.inj hout
  obtain ⟨hu₁, hlanguage₁, hcases⟩ := lookup_cases ht' hlanguage hlookup
  have htrim : Text.trim (finish u.language text result) = Text.trim (Text.lowercaseTail result) := by
    rw [finish, if_pos (Language.usesSentenceCase_of_ne hlanguage), Text.trim_withMargins]
  rcases hcases result rfl with hknown | ⟨rfl, hcore, hdictionary⟩
  · have hsettled := hu₁.settled hknown
    rw [hsettled.lowercaseTail (hlanguage₁ ▸ Language.usesSentenceCase_of_ne hlanguage), hsettled.trim] at htrim
    refine translate_of_passes ?_ ?_ <;> rw [htrim]
    · exact .inl hknown
    · exact hsettled
  · rw [Text.trim_lowercaseTail (Text.trim_trim text)] at htrim
    refine translate_of_passes ?_ ?_ <;> rw [htrim]
    · exact hpassed hcore hdictionary
    · exact ⟨Text.trim_lowercaseTail (Text.trim_trim text), fun _ => Text.lowercaseTail_lowercaseTail _⟩

/-- A dictionary with one term. -/
def revenueTerms (called : String) : TermDictionary := .ofEntries [("Monthly revenue", [("FR", called)])]

/-- A translator into French that is given this term. -/
def revenue (onMiss : OnMiss) (called : String) : Translator TableProvider :=
  (new .fr onMiss).withTerms (revenueTerms called) false

theorem consistent_revenue : (revenue .keep "Revenu mensuel").Consistent := by
  refine (consistent_new .fr .keep).withTerms _ false fun e he => ?_
  have hterms : (revenueTerms "Revenu mensuel").forLanguage .fr false =
      [("Monthly revenue", "Revenu mensuel")] := by decide +kernel
  obtain rfl : e = ("Monthly revenue", "Revenu mensuel") := by
    rw [show (new .fr .keep : Translator TableProvider).language = .fr from rfl, hterms] at he
    exact List.mem_singleton.1 he
  exact ⟨by decide +kernel, fun _ => by decide +kernel⟩

theorem revenue_onMiss (onMiss : OnMiss) (called : String) : (revenue onMiss called).onMiss = onMiss :=
  withTerms_onMiss _ _ _

theorem translate_margin : (revenue .keep "Revenu mensuel").Consistent ∧
    translate " Gross Margin" (after ["Monthly revenue"] (revenue .keep "Revenu mensuel")) =
      (.ok " Gross margin", revenue .keep "Revenu mensuel") ∧
    (revenue .keep "Revenu mensuel").Passes (Text.lowercaseTail (Text.trim " Gross Margin")) ∧
    (translate " Gross margin" (revenue .keep "Revenu mensuel")).1 = .ok " Gross margin" := by
  have hpolicy : (revenue .keep "Revenu mensuel").onMiss ≠ .askProvider := by
    rw [revenue_onMiss]
    exact OnMiss.noConfusion
  have hafter : after ["Monthly revenue"] (revenue .keep "Revenu mensuel") = revenue .keep "Revenu mensuel" :=
    translate_state hpolicy "Monthly revenue"
  have hfirst : translate " Gross Margin" (after ["Monthly revenue"] (revenue .keep "Revenu mensuel")) =
      (.ok " Gross margin", revenue .keep "Revenu mensuel") := by
    rw [hafter]
    exact Prod.ext (by decide +kernel) (translate_state hpolicy _)
  have hpasses : (revenue .keep "Revenu mensuel").Passes (Text.lowercaseTail (Text.trim " Gross Margin")) := by
    refine .inr ⟨by decide +kernel, ?_⟩
    rw [revenue_onMiss]
    trivial
  exact ⟨consistent_revenue, hfirst, hpasses, translate_again consistent_revenue hfirst fun _ _ => hpasses⟩

/-- What a term is called is not recognized once its tail has been lowered. -/
theorem translate_revenue :
    (translate "Monthly revenue" (revenue .fail "Revenu Mensuel")).1 = .ok "Revenu mensuel" ∧
    (translate "Revenu mensuel" (translate "Monthly revenue" (revenue .fail "Revenu Mensuel")).2).1 =
      .error (.miss "Revenu mensuel") := by
  decide +kernel

end Rehome.Translator
