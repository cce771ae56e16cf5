import Rehome.Json.Number

/-! # Compact JSON text

No spaces, members in document order; strings escape the quote, the backslash and the control
characters, and leave every other character as it is. -/

namespace Rehome.Json

def hexDigit (n : Nat) : Char := "0123456789abcdef".toList.getD n '0'

/-- The characters that stand for `c` inside a string. -/
def escapeChar (c : Char) : List Char :=
  if c = '"' then ['\\', '"']
  else if c = '\\' then ['\\', '\\']
  else if c = '\x08' then ['\\', 'b']
  else if c = '\x0c' then ['\\', 'f']
  else if c = '\n' then ['\\', 'n']
  else if c = '\r' then ['\\', 'r']
  else if c = '\t' then ['\\', 't']
  else if c.toNat < 0x20 then ['\\', 'u', '0', '0', hexDigit (c.toNat / 16), hexDigit (c.toNat % 16)]
  else [c]

def stringChars (s : String) : List Char := '"' :: s.toList.flatMap escapeChar ++ ['"']

mutual

def chars : Json → List Char
  | .null => "null".toList
  | .bool true => "true".toList
  | .bool false => "false".toList
  | .int n => intChars n
  | .double x => doubleChars x
  | .str s => stringChars s
  | .arr items => '[' :: itemChars items ++ [']']
  | .obj members => '{' :: memberChars members ++ ['}']

/-- Items with a comma between neighbours. -/
def itemChars : List Json → List Char
  | [] => []
  | j :: rest => chars j ++ itemsTail rest

def itemsTail : List Json → List Char
  | [] => []
  | j :: rest => ',' :: chars j ++ itemsTail rest

/-- Members with a comma between neighbours. -/
def memberChars : List (String × Json) → List Char
  | [] => []
  | (k, j) :: rest => stringChars k ++ ':' :: chars j ++ membersTail rest

def membersTail : List (String × Json) → List Char
  | [] => []
  | (k, j) :: rest => ',' :: stringChars k ++ ':' :: chars j ++ membersTail rest

end

/-- The compact text of a value. -/
def compact (j : Json) : String := String.ofList (chars j)

end Rehome.Json
