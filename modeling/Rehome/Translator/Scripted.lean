import Rehome.Translator.Provider

/-! # Providers that answer from what they hold

For trying out translators: a provider with a fixed table, one with a script of answers, and one that
no request reaches. Each keeps what it was asked. -/

namespace Rehome

/-- A provider that detects one language always and translates by a table, after some failures. -/
structure TableProvider where
  detected : String
  table : List (String × String)
  failures : Nat
  /-- The texts it was asked to translate, the last one first. -/
  asked : List String

instance : Provider TableProvider where
  detect _ p := (.ok p.detected, p)
  translate text _ _ p :=
    let p := { p with asked := text :: p.asked }
    if 0 < p.failures then
      (.error (.provider "scripted failure"), { p with failures := p.failures - 1 })
    else match p.table.lookup text with
      | some result => (.ok result, p)
      | none => (.error (.provider s!"no stub translation for '{text}'"), p)

/-- What a scripted provider was asked. -/
inductive ProviderCall where
  | detect (text : String)
  | translate (text : String) (source target : Language)
deriving DecidableEq, Repr

/-- A provider that gives prepared answers, one after the other. -/
structure ScriptProvider where
  detections : List (Except String String)
  results : List (Except String String)
  /-- What it was asked, the last one first. -/
  asked : List ProviderCall

namespace ScriptProvider

/-- The next answer of a script, and the rest of it. -/
def next : List (Except String String) → Except TranslateError String × List (Except String String)
  | [] => (.error (.provider "script exhausted"), [])
  | answer :: rest => (answer.mapError .provider, rest)

end ScriptProvider

instance : Provider ScriptProvider where
  detect text p :=
    let (answer, rest) := ScriptProvider.next p.detections
    (answer, { p with detections := rest, asked := .detect text :: p.asked })
  translate text source target p :=
    let (answer, rest) := ScriptProvider.next p.results
    (answer, { p with results := rest, asked := .translate text source target :: p.asked })

end Rehome
