import Rehome.Data.Assoc
import Rehome.Text.Casing
import Rehome.Translator.Language

/-! # Term dictionaries

A dictionary holds for every term what it is called in some languages, terms and language keys sorted.
Language keys are compared without regard to case; of several spellings the least one counts. A
dictionary may be widened by other spellings of its terms, which never displace a term. -/

namespace Rehome

structure TermDictionary where
  entries : List (String × List (String × String))
deriving DecidableEq, Repr

namespace TermDictionary

def empty : TermDictionary := ⟨[]⟩

/-- The dictionary of the given entries; the last one of a term counts, and of a language. -/
def ofEntries (entries : List (String × List (String × String))) : TermDictionary :=
  ⟨Assoc.sorted (entries.map fun p => (p.1, Assoc.sorted p.2))⟩

/-- Adds what a term is called in a language, under the key of that language. -/
def withTerm (term : String) (language : Language) (called : String) (d : TermDictionary) :
    TermDictionary :=
  let byLanguage := (d.entries.lookup term).getD []
  ⟨Assoc.putSorted term (Assoc.putSorted language.name called byLanguage) d.entries⟩

def size (d : TermDictionary) : Nat := d.entries.length

/-- What one entry calls its term in a language. -/
def calledIn? (language : Language) (byLanguage : List (String × String)) : Option String :=
  (byLanguage.find? fun p => Language.sameLetters p.1 language.name).map Prod.snd

/-- The terms that have an entry for a language, sorted. -/
def terms (language : Language) (d : TermDictionary) : List (String × String) :=
  d.entries.filterMap fun p => (calledIn? language p.2).map fun called => (p.1, called)

/-- The other spellings of the terms, each called what its term is called. -/
def spellings (terms : List (String × String)) : List (String × String) :=
  terms.flatMap fun p => (Text.caseVariants p.1).map fun spelling => (spelling, p.2)

/-- The terms of a language, if wanted with other spellings: a term goes before a spelling, and a
spelling of an earlier term before one of a later term. -/
def forLanguage (language : Language) (caseExpand : Bool) (d : TermDictionary) :
    List (String × String) :=
  let terms := d.terms language
  if caseExpand then (spellings terms).foldl (fun all p => Assoc.putNew p.1 p.2 all) terms else terms

end TermDictionary

end Rehome
