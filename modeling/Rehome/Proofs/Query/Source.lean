import Mathlib.Tactic.Positivity
import Rehome.Query.Source

/-! # Ids and sources read back

What is written for an id or for the source of a query is read as just that: as JSON, and in the case of
a card also as text. -/

namespace Rehome

/-! ## Digits -/

namespace Text

theorem not_isBlank_of_isDigit {c : Char} (h : c.isDigit) : isBlank c = false := by
  have hc : 48 ≤ c.toNat ∧ c.toNat ≤ 57 := by
    simpa [Char.isDigit, UInt32.le_iff_toNat_le] using h
  simp [isBlank, blankRanges]
  omega

theorem dropWhile_isBlank {cs : List Char} (h : ∀ c ∈ cs, c.isDigit) : cs.dropWhile isBlank = cs := by
  cases cs with
  | nil => rfl
  | cons c cs => simp [not_isBlank_of_isDigit (h c List.mem_cons_self)]

/-- There is nothing to trim from digits. -/
theorem trimChars_of_digits {cs : List Char} (h : ∀ c ∈ cs, c.isDigit) : trimChars cs = cs := by
  have hreverse : ∀ c ∈ cs.reverse, c.isDigit := fun c hc => h c (List.mem_reverse.1 hc)
  rw [trimChars, trimStart, dropWhile_isBlank h, trimEnd, dropWhile_isBlank hreverse,
    List.reverse_reverse]

end Text

theorem isDigit_of_mem_toDigits {n : Nat} {c : Char} (h : c ∈ Nat.toDigits 10 n) : c.isDigit :=
  Nat.isDigit_of_mem_toDigits (by decide) (by decide) h

/-! ## Ids -/

namespace Ident

variable {kind : IdentKind}

theorem toNat_lt (id : Ident kind) : id.toNat < 2 ^ 64 := id.val.toNat_lt

@[simp] theorem ofNat_toNat (id : Ident kind) : (⟨UInt64.ofNat id.toNat⟩ : Ident kind) = id := by
  simp [toNat]

@[simp] theorem ofJson?_toJson (id : Ident kind) : ofJson? id.toJson = some id := by
  have hlt : id.toNat < Nat.pow 2 64 := id.toNat_lt
  show ofNat? id.toNat = some id
  rw [ofNat?, if_pos hlt, ofNat_toNat]

@[simp] theorem isNull_toJson (id : Ident kind) : id.toJson.isNull = false := rfl

@[simp] theorem str?_toJson (id : Ident kind) : id.toJson.str? = none := rfl

theorem le_ofDigitChars (cs : List Char) (n : Nat) : n ≤ Nat.ofDigitChars 10 cs n := by
  rw [Nat.ofDigitChars_eq_ofDigitChars_zero]
  have : n ≤ 10 ^ cs.length * n := Nat.le_mul_of_pos_left n (by positivity)
  omega

theorem readDigits_of_lt {cs : List Char} {n : Nat} (hdigits : ∀ c ∈ cs, c.isDigit)
    (hlt : Nat.ofDigitChars 10 cs n < 2 ^ 64) : readDigits n cs = .ok (Nat.ofDigitChars 10 cs n) := by
  induction cs generalizing n with
  | nil => simp [readDigits]
  | cons c cs ih =>
    rw [Nat.ofDigitChars_cons] at hlt ⊢
    have hnext : 10 * n + (c.toNat - '0'.toNat) < Nat.pow 2 64 :=
      lt_of_le_of_lt (le_ofDigitChars cs _) hlt
    rw [readDigits, if_neg (by simp [hdigits c List.mem_cons_self])]
    dsimp only
    rw [if_pos hnext, ih (fun d hd => hdigits d (List.mem_cons_of_mem c hd)) hlt]

theorem readNat_toDigits {n : Nat} (h : n < 2 ^ 64) : readNat (Nat.toDigits 10 n) = .ok n := by
  have hread : readDigits 0 (Nat.toDigits 10 n) = .ok n := by
    rw [readDigits_of_lt (fun c => isDigit_of_mem_toDigits) (by simpa using h),
      Nat.ofDigitChars_ten_toDigits]
  rw [readNat.eq_def]
  split
  · next hnil => simp at hnil
  · next hplus =>
    have : ('+' : Char).isDigit := isDigit_of_mem_toDigits (hplus ▸ List.mem_cons_self)
    simp at this
  · exact hread

/-- An id is read from its own text. -/
theorem parse?_toString (id : Ident kind) : parse? (toString id) = some id := by
  have htrim : Text.trim (toString id) = String.ofList (Nat.toDigits 10 id.toNat) := by
    show Text.trim (toString id.toNat) = _
    rw [Nat.toString_eq_ofList_toDigits, Text.trim, String.toList_ofList,
      Text.trimChars_of_digits fun c => isDigit_of_mem_toDigits]
  rw [parse?, parse, parseExact, htrim, String.toList_ofList, readNat_toDigits id.toNat_lt]
  simp [Except.map, Except.toOption]

end Ident

/-! ## Sources -/

namespace Source

@[simp] theorem ofJson_toJson_table (t : TableId) : ofJson (table t).toJson = .table t := by
  rw [toJson, ofJson, Ident.ofJson?_toJson]

theorem card?_toString (c : CardId) : card? (String.ofList cardMark ++ toString c) = some c := by
  rw [card?, String.toList_append, String.toList_ofList, if_pos (by simp), List.drop_left,
    String.ofList_toList, Ident.parse?_toString]

@[simp] theorem ofJson_toJson_card (c : CardId) : ofJson (card c).toJson = .card c := by
  rw [toJson, ofJson]
  simp only [Ident.ofJson?, Json.str?, Option.bind_some, card?_toString]

end Source

end Rehome
