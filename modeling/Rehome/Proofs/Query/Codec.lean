import Rehome.Proofs.Query.Source

/-! # Sources written and read

A text that names a card does so by any digits of its id, after a plus sign or not and between blanks or not. Nothing
else is lost when the source of a query is read and written again (`toJson_ofJson_codec`): such a text comes out
with the digits that the id is written with, and every other value as it is. -/

namespace Rehome

/-! ## Numbers in texts -/

namespace Ident

variable {kind : IdentKind} {cs : List Char} {n m : Nat}

/-- Digits, at least one, that denote a number. -/
structure Digits (cs : List Char) (n : Nat) : Prop where
  ne_nil : cs ≠ []
  isDigit : ∀ c ∈ cs, c.isDigit
  value : Nat.ofDigitChars 10 cs 0 = n

/-- Digits of a number, after at most one plus sign. -/
def Numeral (cs : List Char) (n : Nat) : Prop :=
  ∃ digits, Digits digits n ∧ (cs = digits ∨ cs = '+' :: digits)

/-- Between blanks, if any, the text has a numeral of the number. -/
def Denotes (s : String) (n : Nat) : Prop := Numeral (Text.trim s).toList n

theorem toNat_ofNat (kind : IdentKind) (hn : n < 2 ^ 64) : (⟨UInt64.ofNat n⟩ : Ident kind).toNat = n :=
  UInt64.toNat_ofNat_of_lt' hn

theorem readDigits_eq_ok_iff (hn : n < 2 ^ 64) :
    readDigits n cs = .ok m ↔ (∀ c ∈ cs, c.isDigit) ∧ Nat.ofDigitChars 10 cs n = m ∧ m < 2 ^ 64 := by
  constructor
  · intro h
    induction cs generalizing n with
    | nil =>
      obtain rfl := Except.ok.inj h
      exact ⟨fun c hc => absurd hc List.not_mem_nil, rfl, hn⟩
    | cons c cs ih =>
      rw [readDigits] at h
      split at h
      · cases h
      next hc =>
      dsimp only at h
      split at h
      · next hnext =>
        obtain ⟨hcs, hvalue, hlt⟩ := ih hnext h
        exact ⟨List.forall_mem_cons.2 ⟨not_not.1 hc, hcs⟩, by rw [Nat.ofDigitChars_cons, hvalue], hlt⟩
      · cases h
  · rintro ⟨hcs, rfl, hlt⟩
    exact readDigits_of_lt hcs hlt

theorem readDigits_zero_eq_ok_iff (hcs : cs ≠ []) : readDigits 0 cs = .ok n ↔ n < 2 ^ 64 ∧ Digits cs n := by
  rw [readDigits_eq_ok_iff (by decide)]
  constructor
  · rintro ⟨hdigits, hvalue, hlt⟩
    exact ⟨hlt, hcs, hdigits, hvalue⟩
  · rintro ⟨hlt, hdigits⟩
    exact ⟨hdigits.isDigit, hdigits.value, hlt⟩

theorem Numeral.ne_nil (h : Numeral cs n) : cs ≠ [] := by
  obtain ⟨digits, hdigits, rfl | rfl⟩ := h
  · exact hdigits.ne_nil
  · exact List.cons_ne_nil _ _

theorem numeral_plus_iff : Numeral ('+' :: cs) n ↔ Digits cs n := by
  constructor
  · rintro ⟨digits, hdigits, rfl | hcs⟩
    · exact absurd (hdigits.isDigit '+' List.mem_cons_self) (by decide)
    · rwa [(List.cons.inj hcs).2]
  · intro h
    exact ⟨cs, h, .inr rfl⟩

theorem numeral_iff_digits (hplus : ∀ rest, cs ≠ '+' :: rest) : Numeral cs n ↔ Digits cs n := by
  constructor
  · rintro ⟨digits, hdigits, rfl | hcs⟩
    · exact hdigits
    · exact absurd hcs (hplus digits)
  · intro h
    exact ⟨cs, h, .inl rfl⟩

theorem readNat_eq_ok_iff : readNat cs = .ok n ↔ n < 2 ^ 64 ∧ Numeral cs n := by
  rw [readNat.eq_def]
  split
  · constructor
    · intro h
      cases h
    · rintro ⟨-, h⟩
      exact absurd rfl h.ne_nil
  · next rest =>
    rw [numeral_plus_iff]
    split
    · next hempty =>
      constructor
      · intro h
        cases h
      · rintro ⟨-, h⟩
        exact absurd (List.isEmpty_iff.1 hempty) h.ne_nil
    · next hne => exact readDigits_zero_eq_ok_iff (mt List.isEmpty_iff.2 hne)
  · next hne hplus =>
    rw [numeral_iff_digits hplus]
    exact readDigits_zero_eq_ok_iff hne

/-- An id is read just from the texts that denote its number. -/
theorem parse?_eq_some_iff {s : String} {id : Ident kind} : parse? s = some id ↔ Denotes s id.toNat := by
  rw [parse?, parse, parseExact]
  constructor
  · intro h
    cases hread : readNat (Text.trim s).toList with
    | error e =>
      rw [hread] at h
      cases h
    | ok m =>
      rw [hread] at h
      obtain rfl := Option.some.inj h
      obtain ⟨hlt, hdenotes⟩ := readNat_eq_ok_iff.1 hread
      have hid := toNat_ofNat kind hlt
      rwa [← hid] at hdenotes
  · intro h
    rw [readNat_eq_ok_iff.2 ⟨id.toNat_lt, h⟩]
    exact congrArg some (ofNat_toNat id)

theorem toJson_of_ofJson? {j : Json} {id : Ident kind} (h : ofJson? j = some id) : id.toJson = j := by
  rw [ofJson?.eq_def] at h
  split at h
  · next m =>
    rw [ofNat?] at h
    split at h
    · next hlt =>
      obtain rfl := Option.some.inj h
      rw [toJson, toNat_ofNat kind hlt]
      rfl
    · cases h
  · cases h

end Ident

/-! ## Sources -/

theorem Json.str?_eq_some_iff {j : Json} {s : String} : j.str? = some s ↔ j = .str s := by
  cases j <;> simp [Json.str?]

namespace Source

variable {j : Json} {n : Nat}

/-- A text that names a card, by its number. -/
def NamesCard (j : Json) (n : Nat) : Prop :=
  ∃ rest, j = .str ("card__" ++ rest) ∧ Ident.Denotes rest n ∧ n < 2 ^ 64

theorem toList_mark_append (rest : String) : ("card__" ++ rest).toList = cardMark ++ rest.toList :=
  String.toList_append

theorem card?_eq_some_iff {s : String} {c : CardId} :
    card? s = some c ↔ ∃ rest, s = "card__" ++ rest ∧ Ident.Denotes rest c.toNat := by
  rw [card?]
  constructor
  · intro h
    split at h
    · next hmark =>
      obtain ⟨rest, hrest⟩ := List.isPrefixOf_iff_prefix.1 hmark
      rw [← hrest, List.drop_left] at h
      refine ⟨String.ofList rest, ?_, Ident.parse?_eq_some_iff.1 h⟩
      rw [← String.toList_inj, toList_mark_append, String.toList_ofList, hrest]
    · cases h
  · rintro ⟨rest, rfl, hrest⟩
    rw [toList_mark_append, if_pos (by simp), List.drop_left, String.ofList_toList]
    exact Ident.parse?_eq_some_iff.2 hrest

theorem ofJson_eq_card_iff {c : CardId} : ofJson j = .card c ↔ ∃ s, j = .str s ∧ card? s = some c := by
  constructor
  · intro h
    rw [ofJson] at h
    split at h
    · cases h
    split at h
    · next hname =>
      obtain rfl := Source.card.inj h
      obtain ⟨s, hs, hcard⟩ := Option.bind_eq_some_iff.1 hname
      exact ⟨s, Json.str?_eq_some_iff.1 hs, hcard⟩
    · cases h
  · rintro ⟨s, rfl, hcard⟩
    simp only [ofJson, Ident.ofJson?, Json.str?, Option.bind_some, hcard]

/-- The texts that name a card are those that a card is read from. -/
theorem namesCard_iff : NamesCard j n ↔ ∃ c : CardId, ofJson j = .card c ∧ c.toNat = n := by
  simp only [NamesCard, ofJson_eq_card_iff, card?_eq_some_iff]
  constructor
  · rintro ⟨rest, rfl, hrest, hlt⟩
    have hn := Ident.toNat_ofNat .card hlt
    exact ⟨_, ⟨_, rfl, rest, rfl, hn.symm ▸ hrest⟩, hn⟩
  · rintro ⟨c, ⟨_, rfl, rest, rfl, hrest⟩, rfl⟩
    exact ⟨rest, rfl, hrest, c.toNat_lt⟩

/-- What does not name a card is written as it was read. -/
theorem toJson_ofJson (h : Json.parse? j.compact = some j) (hcard : ∀ c, ofJson j ≠ .card c) :
    (ofJson j).toJson = j := by
  rw [ofJson] at hcard ⊢
  cases htable : (Ident.ofJson? j : Option TableId) with
  | some t => exact Ident.toJson_of_ofJson? htable
  | none =>
    rw [htable] at hcard
    cases hname : j.str?.bind card? with
    | some c =>
      rw [hname] at hcard
      exact absurd rfl (hcard c)
    | none =>
      show (Json.parse? j.compact).getD _ = j
      rw [h]
      rfl

/-- Reading a source, writing it and reading it again makes no difference. What is written is what was read, save
for a text that names a card: that is written with the digits that its number is written with. -/
theorem toJson_ofJson_codec (h : Json.parse? j.compact = some j) :
    ofJson (ofJson j).toJson = ofJson j ∧
    (∀ n, NamesCard j n → (ofJson j).toJson = .str ("card__" ++ toString n)) ∧
    ((∀ n, ¬NamesCard j n) → (ofJson j).toJson = j) ∧
    (∀ t, ofJson (table t).toJson = .table t) ∧ ∀ c, ofJson (card c).toJson = .card c := by
  refine ⟨?_, fun n hn => ?_, fun hnone => ?_, ofJson_toJson_table, ofJson_toJson_card⟩
  · by_cases hcard : ∃ c, ofJson j = .card c
    · obtain ⟨c, hc⟩ := hcard
      rw [hc, ofJson_toJson_card]
    · rw [toJson_ofJson h (not_exists.1 hcard)]
  · obtain ⟨c, hc, rfl⟩ := namesCard_iff.1 hn
    rw [hc]
    rfl
  · exact toJson_ofJson h fun c hc => hnone c.toNat (namesCard_iff.2 ⟨c, hc, rfl⟩)

theorem toJson_ofJson_padded : Json.parse? (Json.str "card__\u3000+007").compact = some (.str "card__\u3000+007") ∧
    NamesCard (.str "card__\u3000+007") 7 ∧ ofJson (.str "card__\u3000+007") = .card ⟨7⟩ ∧
    (ofJson (.str "card__\u3000+007")).toJson = .str "card__7" ∧ ofJson (.str "card__7") = .card ⟨7⟩ := by
  have hread : Json.parse? (Json.str "card__\u3000+007").compact = some (.str "card__\u3000+007") := by decide +kernel
  have hname : NamesCard (.str "card__\u3000+007") 7 :=
    ⟨"\u3000+007", rfl, ⟨['0', '0', '7'], ⟨nofun, List.all_eq_true.1 rfl, rfl⟩, .inr (by decide +kernel)⟩, by decide⟩
  have hcard : ofJson (.str "card__\u3000+007") = .card ⟨7⟩ := by decide +kernel
  obtain ⟨hagain, hwritten, -⟩ := toJson_ofJson_codec hread
  have hwritten := hwritten 7 hname
  rw [hwritten, hcard] at hagain
  exact ⟨hread, hname, hcard, hwritten, hagain⟩

-- A number that is too large names no card.
example : (ofJson (.str "card__18446744073709551616")).toJson = .str "card__18446744073709551616" := by decide +kernel

end Source

end Rehome
