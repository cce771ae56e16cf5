/-! # Blank characters, trimming and words

A character is blank when it has the White_Space property of Unicode. Text is cut on lists of
characters; the versions on strings wrap those. -/

namespace Rehome.Text

/-- Blank characters, as pairs of a first and a last code point. -/
def blankRanges : List (Nat × Nat) :=
  [(0x09, 0x0D), (0x20, 0x20), (0x85, 0x85), (0xA0, 0xA0), (0x1680, 0x1680), (0x2000, 0x200A),
   (0x2028, 0x2029), (0x202F, 0x202F), (0x205F, 0x205F), (0x3000, 0x3000)]

def isBlank (c : Char) : Bool :=
  blankRanges.any fun r => r.1 ≤ c.toNat && c.toNat ≤ r.2

/-- The text without the blanks at its start. -/
def trimStart (cs : List Char) : List Char := cs.dropWhile isBlank

/-- The text without the blanks at its end. -/
def trimEnd (cs : List Char) : List Char := (cs.reverse.dropWhile isBlank).reverse

/-- The text without the blanks at either end. -/
def trimChars (cs : List Char) : List Char := trimEnd (trimStart cs)

/-- The blanks at the start of a text. -/
def leading (cs : List Char) : List Char := cs.takeWhile isBlank

/-- The blanks at the end of a text. -/
def trailing (cs : List Char) : List Char := (cs.reverse.takeWhile isBlank).reverse

def trim (s : String) : String := String.ofList (trimChars s.toList)

/-- Puts `core` in the place of the trimmed text, between the blanks that surrounded it. The blanks of a
blank text all go in front. -/
def withMargins (s core : String) : String :=
  String.ofList (leading s.toList) ++ core ++ String.ofList (trailing (trimStart s.toList))

/-- Puts a word in front of the words found so far, unless it is empty. -/
def consWord (word : List Char) (words : List (List Char)) : List (List Char) :=
  if word.isEmpty then words else word :: words

/-- The characters up to the first blank, and the words after it. -/
def wordSplit : List Char → List Char × List (List Char)
  | [] => ([], [])
  | c :: cs =>
    let rest := wordSplit cs
    if isBlank c then ([], consWord rest.1 rest.2) else (c :: rest.1, rest.2)

/-- The words of a text: its longest stretches without a blank. -/
def wordChars (cs : List Char) : List (List Char) :=
  consWord (wordSplit cs).1 (wordSplit cs).2

def words (s : String) : List String := (wordChars s.toList).map String.ofList

/-- The words with one space between neighbours. -/
def joinWords (ws : List String) : String := " ".intercalate ws

theorem leading_append_trimStart (cs : List Char) : leading cs ++ trimStart cs = cs :=
  List.takeWhile_append_dropWhile

theorem trimEnd_append_trailing (cs : List Char) : trimEnd cs ++ trailing cs = cs := by
  rw [trimEnd, trailing, ← List.reverse_append, List.takeWhile_append_dropWhile, List.reverse_reverse]

end Rehome.Text
