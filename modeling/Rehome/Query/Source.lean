import Rehome.Json.Parser
import Rehome.Json.Printer
import Rehome.Ident

/-! # Sources of a query

A query part reads from a table, given by its id, or from another card, written `card__` and its id. -/

namespace Rehome

inductive Source where
  | table (table : TableId)
  | card (card : CardId)
  /-- Anything else, as JSON text. -/
  | unknown (text : String)
deriving DecidableEq, Repr

namespace Source

def cardMark : List Char := "card__".toList

/-- The card that a text names. -/
def card? (s : String) : Option CardId :=
  if cardMark.isPrefixOf s.toList then
    Ident.parse? (String.ofList (s.toList.drop cardMark.length))
  else none

def ofJson (j : Json) : Source :=
  match Ident.ofJson? j with
  | some t => .table t
  | none => match j.str?.bind card? with
    | some c => .card c
    | none => .unknown j.compact

def toJson : Source → Json
  | .table t => t.toJson
  | .card c => .str (String.ofList cardMark ++ toString c)
  | .unknown text => (Json.parse? text).getD (.str text)

end Source

end Rehome
