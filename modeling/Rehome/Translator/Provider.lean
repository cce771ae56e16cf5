import Rehome.Translator.Error

/-! # Providers

A provider detects the language of a text and translates it. It has a state of its own, so that it may
answer the same question differently each time. -/

namespace Rehome

class Provider (μ : Type) where
  /-- The code of the language of a text. -/
  detect (text : String) : μ → Except TranslateError String × μ
  translate (text : String) (source target : Language) : μ → Except TranslateError String × μ

namespace Provider

/-- Asks a second time if the first answer is an error. -/
def retrying {μ α : Type} (question : μ → Except TranslateError α × μ) (provider : μ) :
    Except TranslateError α × μ :=
  match question provider with
  | (.ok a, provider) => (.ok a, provider)
  | (.error _, provider) => question provider

end Provider

end Rehome
