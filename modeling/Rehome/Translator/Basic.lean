import Rehome.Data.Assoc
import Rehome.Translator.Provider
import Rehome.Translator.Terms

/-! # Translators

A translator turns English sentences into sentences of its language. It knows the terms of a dictionary,
and remembers what a provider has translated. A sentence that is itself a known result is kept. The
blanks around a sentence always stay. -/

namespace Rehome

structure Translator (μ : Type) where
  language : Language
  onMiss : OnMiss
  /-- What a sentence becomes. -/
  dictionary : List (String × String)
  /-- The sentences that others become. -/
  known : List String
  provider : Option μ
  /-- The pause before a provider is asked again, in milliseconds. -/
  retryDelay : Nat

namespace Translator

variable {μ : Type}

def new (language : Language) (onMiss : OnMiss) : Translator μ := ⟨language, onMiss, [], [], none, 5000⟩

/-- Knows that a sentence becomes another. -/
def withSentence (sentence result : String) (t : Translator μ) : Translator μ :=
  { t with
    dictionary := Assoc.put sentence result t.dictionary
    known := insertSorted result t.known }

def withTerms (d : TermDictionary) (caseExpand : Bool) (t : Translator μ) : Translator μ :=
  (d.forLanguage t.language caseExpand).foldl (fun t p => t.withSentence p.1 p.2) t

def withProvider (provider : μ) (t : Translator μ) : Translator μ := { t with provider := some provider }

def withRetryDelay (milliseconds : Nat) (t : Translator μ) : Translator μ :=
  { t with retryDelay := milliseconds }

def knownSentences (t : Translator μ) : Nat := t.dictionary.length

/-- A duration as seconds with the needed places, as milliseconds, or as nothing. -/
def delayText (milliseconds : Nat) : String :=
  if milliseconds = 0 then "0ns"
  else if milliseconds < 1000 then s!"{milliseconds}ms"
  else
    let places := (toString (1000 + milliseconds % 1000)).toList.drop 1
    let places := (places.reverse.dropWhile (· == '0')).reverse
    if places.isEmpty then s!"{milliseconds / 1000}s"
    else s!"{milliseconds / 1000}.{String.ofList places}s"

/-- The translator in one line, for logs. -/
def summary (t : Translator μ) : String :=
  let language := match t.language with
    | .en => "En"
    | .fr => "Fr"
  s!"Translator \x7b language: {language}, on_miss: {t.onMiss.name}, "
    ++ s!"known_sentences: {t.knownSentences}, has_machine: {t.provider.isSome}, "
    ++ s!"retry_delay: {delayText t.retryDelay} \x7d"

end Translator

/-- Computations that use a translator and may fail; it is left as it is at the failure. -/
abbrev Translating (μ : Type) := ExceptT TranslateError (StateM (Translator μ))

namespace Translator

variable {μ : Type}

/-- Asks the provider, a second time if needed. -/
def ask {α : Type} (question : μ → Except TranslateError α × μ) : Translating μ α :=
  fun t => match t.provider with
    | none => (.error .noProvider, t)
    | some provider =>
      let (answer, provider) := Provider.retrying question provider
      (answer, { t with provider := some provider })

variable [Provider μ]

/-- Has a sentence translated by the provider, unless it is in the target language already. -/
def askProvider (core : String) : Translating μ String := do
  let language := (← get).language
  let detected ← ask (Provider.detect core)
  if language.matchesCode detected then return core
  if !Language.en.matchesCode detected then throw (.unexpectedLanguage core detected language)
  let raw ← ask (Provider.translate core .en language)
  let result := if language.usesSentenceCase then Text.sentenceCase raw else raw
  modify (·.withSentence core result)
  return result

/-- What becomes of a sentence that is not known. -/
def miss (core : String) : Translating μ String := do
  match (← get).onMiss with
  | .fail => throw (.miss core)
  | .keep => return core
  | .askProvider => askProvider core

/-- What a trimmed sentence becomes: itself if it is a known result, else what the dictionary says. -/
def lookup (core : String) : Translating μ String := do
  let t ← get
  if t.known.contains core then return core
  match t.dictionary.lookup core with
  | some result => return result
  | none => miss core

/-- Translates one sentence. -/
def translate (text : String) : Translating μ String := do
  let language := (← get).language
  let core := Text.trim text
  if language = .en ∨ core = "" then return text
  let result ← lookup core
  let result := if language.usesSentenceCase then Text.lowercaseTail result else result
  return Text.withMargins text result

end Translator

end Rehome
