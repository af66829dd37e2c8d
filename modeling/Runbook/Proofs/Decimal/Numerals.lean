import Mathlib.Data.List.Induction
import Mathlib.Data.List.TakeWhile
import Mathlib.Data.Nat.Digits.Defs
import Runbook.Decimal.Reading

namespace Runbook.Decimal

/-!
# Numerals

An integer is written in decimal digits, at least one, behind a sign or none.  A text is read
as an integer exactly if it writes one.  Every integer in writing is a decimal too.  A decimal
begins with a digit, a sign, a point or the first letter of a number that is named in words, so
no word that begins otherwise is one.
-/

/-- The number that a digit stands for. -/
def digitOf (c : Char) : Nat := c.toNat - '0'.toNat

/-- The number that digits write, the last one for the ones. -/
def valueOf (digits : List Char) : Nat := Nat.ofDigits 10 (digits.reverse.map digitOf)

/-- A text is digits, at least one. -/
def IsNumeral (text : List Char) : Prop := text ≠ [] ∧ ∀ c ∈ text, c.isDigit = true

/-- A text writes an integer. -/
inductive WritesInteger : List Char → Int → Prop where
  | unsigned
      {digits : List Char}
      (isNumeral : IsNumeral digits) :
      WritesInteger digits (valueOf digits)
  | positive
      {digits : List Char}
      (isNumeral : IsNumeral digits) :
      WritesInteger ('+' :: digits) (valueOf digits)
  | negative
      {digits : List Char}
      (isNumeral : IsNumeral digits) :
      WritesInteger ('-' :: digits) (-(valueOf digits : Int))

theorem naturalOf_eq (digits : List Char) : naturalOf digits = valueOf digits := by
  induction digits using List.reverseRecOn with
  | nil =>
      rfl
  | append_singleton digits last inductionHypothesis =>
      rw [naturalOf, List.foldl_append, ← naturalOf, inductionHypothesis, valueOf, valueOf,
        List.reverse_append, List.reverse_singleton, List.singleton_append, List.map_cons,
        Nat.ofDigits_cons]
      simp only [List.foldl_cons, List.foldl_nil, digitOf]
      omega

section Reading

variable {text digits : List Char} {value : Int}

/-- The sign and what is behind it, of a text that begins with a digit. -/
theorem leadingSign_of_isNumeral
    (isNumeral : IsNumeral digits) :
    leadingSign digits = (false, digits) := by
  obtain ⟨someThere, allDigits⟩ := isNumeral
  obtain ⟨first, rest, rfl⟩ := List.exists_cons_of_ne_nil someThere
  have isDigit := allDigits first List.mem_cons_self
  unfold leadingSign
  split
  · next isMinus =>
      cases isMinus
      exact absurd isDigit (by decide)
  · next isPlus =>
      cases isPlus
      exact absurd isDigit (by decide)
  · rfl

/-- What is behind the sign is read as digits. -/
theorem integer?_of_isNumeral
    {negative : Bool}
    (isSplit : leadingSign text = (negative, digits))
    (isNumeral : IsNumeral digits) :
    integer? text =
      some (if negative then -(valueOf digits : Int) else valueOf digits) := by
  obtain ⟨someThere, allDigits⟩ := isNumeral
  obtain ⟨first, rest, rfl⟩ := List.exists_cons_of_ne_nil someThere
  have isLeading : leadingDigits (first :: rest) = (first :: rest, []) := by
    rw [leadingDigits, List.takeWhile_eq_self_iff.mpr allDigits,
      List.dropWhile_eq_nil_iff.mpr allDigits]
  rw [integer?, isSplit]
  dsimp only
  rw [isLeading]
  dsimp only
  rw [naturalOf_eq]

/-- Where no numeral is behind the sign, no integer is read. -/
theorem integer?_eq_none
    (notNumeral : ¬ IsNumeral (leadingSign text).2) :
    integer? text = none := by
  rw [integer?]
  generalize leadingSign text = sign at notNumeral
  obtain ⟨negative, rest⟩ := sign
  dsimp only at notNumeral ⊢
  split
  · rfl
  · next digits someThere isLeading =>
      rw [leadingDigits, Prod.mk.injEq] at isLeading
      refine absurd ⟨?_, List.dropWhile_eq_nil_iff.mp isLeading.2⟩ notNumeral
      rintro rfl
      exact someThere isLeading.1.symm
  · rfl

/-- A text is read as an integer exactly if it writes one. -/
theorem integer?_eq_some_iff : integer? text = some value ↔ WritesInteger text value := by
  constructor
  · intro isRead
    have isNumeral : IsNumeral (leadingSign text).2 := by
      by_contra notNumeral
      rw [integer?_eq_none notNumeral] at isRead
      cases isRead
    rw [integer?_of_isNumeral rfl isNumeral, Option.some.injEq] at isRead
    subst isRead
    revert isNumeral
    unfold leadingSign
    split
    · exact .negative
    · exact .positive
    · exact .unsigned
  · rintro (isNumeral | isNumeral | isNumeral)
    · exact integer?_of_isNumeral (leadingSign_of_isNumeral isNumeral) isNumeral
    · exact integer?_of_isNumeral rfl isNumeral
    · exact integer?_of_isNumeral rfl isNumeral

end Reading

/-! ## Decimals -/

/-- A character that a decimal may begin with. -/
def BeginsDecimal (c : Char) : Prop :=
  c.isDigit = true ∨ c ∈ ['+', '-', '.'] ∨ c.toLower ∈ ['i', 'n']

section Characters

variable {c : Char}

theorem toNat_of_isDigit
    (isDigit : c.isDigit = true) :
    48 ≤ c.toNat ∧ c.toNat ≤ 57 := by
  rw [Char.isDigit, Bool.and_eq_true, decide_eq_true_eq, decide_eq_true_eq, ge_iff_le,
    UInt32.le_iff_toNat_le, UInt32.le_iff_toNat_le] at isDigit
  exact isDigit

/-- A letter in upper case is an ASCII character, and so is its lower case. -/
theorem toLower_eq_or (c : Char) : c.toLower = c ∨ 65 ≤ c.toNat ∧ c.toNat ≤ 90 := by
  unfold Char.toLower
  split
  · next isCapital =>
      rw [ge_iff_le, UInt32.le_iff_toNat_le, UInt32.le_iff_toNat_le] at isCapital
      exact Or.inr isCapital
  · exact Or.inl rfl

theorem toLower_of_isDigit
    (isDigit : c.isDigit = true) :
    c.toLower = c := by
  obtain ⟨-, isSmall⟩ := toNat_of_isDigit isDigit
  rcases toLower_eq_or c with same | ⟨isLarge, -⟩
  · exact same
  · omega

/-- What a decimal may begin with is an ASCII character. -/
theorem BeginsDecimal.toNat_lt
    (begins : BeginsDecimal c) :
    c.toNat < 128 := by
  rcases begins with isDigit | isSign | isLetter
  · have := toNat_of_isDigit isDigit
    omega
  · have allSmall : ∀ c ∈ ['+', '-', '.'], c.toNat < 128 := by
      simp
    exact allSmall c isSign
  · have allSmall : ∀ c ∈ ['i', 'n'], c.toNat < 128 := by
      simp
    rcases toLower_eq_or c with same | ⟨-, isSmall⟩
    · rw [same] at isLetter
      exact allSmall c isLetter
    · omega

/-- What a decimal may begin with is in lower case none of the other letters. -/
theorem BeginsDecimal.toLower_not_mem
    (begins : BeginsDecimal c) :
    c.toLower ∉ ['t', 'f'] := by
  rcases begins with isDigit | isSign | isLetter
  · have noDigits : ∀ letter ∈ ['t', 'f'], letter.isDigit = false := by
      simp
    intro isOther
    rw [toLower_of_isDigit isDigit] at isOther
    rw [noDigits c isOther] at isDigit
    cases isDigit
  · have areOthers : ∀ c ∈ ['+', '-', '.'], c.toLower ∉ ['t', 'f'] := by
      simp
    exact areOthers c isSign
  · have areOthers : ∀ letter ∈ ['i', 'n'], letter ∉ ['t', 'f'] := by
      simp
    exact areOthers _ isLetter

end Characters

section Reading

variable {text rest : List Char} {negative : Bool} {number : Double} {float : Float}

theorem head?_of_asciiLower
    {word : String}
    (isWord : asciiLower text = word) :
    text.head?.map Char.toLower = word.toList.head? := by
  rw [← isWord, asciiLower, String.toList_ofList, List.head?_map]

/-- A number that is named in words begins with one of two letters. -/
theorem head?_of_named?
    (isNamed : named? text = some float) :
    ∃ letter ∈ ['i', 'n'], text.head?.map Char.toLower = some letter := by
  rw [named?] at isNamed
  split at isNamed
  · next isWord =>
      rcases isWord with isWord | isWord
      · exact ⟨'i', by simp, head?_of_asciiLower isWord⟩
      · exact ⟨'i', by simp, head?_of_asciiLower isWord⟩
  · split at isNamed
    · next isWord => exact ⟨'n', by simp, head?_of_asciiLower isWord⟩
    · cases isNamed

/-- Digits name no number in words. -/
theorem named?_of_isNumeral
    (isNumeral : IsNumeral text) :
    named? text = none := by
  have noDigits : ∀ letter ∈ ['i', 'n'], letter.isDigit = false := by
    simp
  obtain ⟨someThere, allDigits⟩ := isNumeral
  obtain ⟨c, rest, rfl⟩ := List.exists_cons_of_ne_nil someThere
  have isDigit : c.isDigit = true := allDigits c List.mem_cons_self
  cases isNamed : named? (c :: rest) with
  | none =>
      rfl
  | some float =>
      obtain ⟨letter, isLetter, isFirst⟩ := head?_of_named? isNamed
      cases isFirst
      rw [toLower_of_isDigit isDigit] at isLetter
      rw [noDigits c isLetter] at isDigit
      cases isDigit

/-- An integer in writing is a decimal. -/
theorem exists_double?_of_integer
    {whole : Int}
    (writes : WritesInteger text whole) :
    ∃ number, double? text = some number := by
  have ofNumeral {negative : Bool} {digits : List Char}
      (isSplit : leadingSign text = (negative, digits)) (isNumeral : IsNumeral digits) :
      ∃ number, double? text = some number := by
    have isLeading : leadingDigits digits = (digits, []) := by
      rw [leadingDigits, List.takeWhile_eq_self_iff.mpr isNumeral.2,
        List.dropWhile_eq_nil_iff.mpr isNumeral.2]
    rw [double?, isSplit]
    dsimp only
    rw [named?_of_isNumeral isNumeral]
    dsimp only
    rw [isLeading]
    dsimp only
    rw [if_neg (by simpa using isNumeral.1)]
    exact ⟨_, rfl⟩
  cases writes with
  | unsigned isNumeral => exact ofNumeral (leadingSign_of_isNumeral isNumeral) isNumeral
  | positive isNumeral => exact ofNumeral rfl isNumeral
  | negative isNumeral => exact ofNumeral rfl isNumeral

/-- What begins with no sign is all behind the sign. -/
theorem begins_of_leadingSign
    (isSplit : leadingSign text = (negative, rest)) :
    (∃ c rest, text = c :: rest ∧ BeginsDecimal c) ∨ rest = text := by
  unfold leadingSign at isSplit
  split at isSplit
  · exact Or.inl ⟨_, _, rfl, Or.inr (Or.inl (by decide))⟩
  · exact Or.inl ⟨_, _, rfl, Or.inr (Or.inl (by decide))⟩
  · cases isSplit
    exact Or.inr rfl

/-- A decimal begins in one of a few ways. -/
theorem begins_of_double?
    (isRead : double? text = some number) :
    ∃ c rest, text = c :: rest ∧ BeginsDecimal c := by
  cases isSplit : leadingSign text with
  | mk negative rest =>
      rcases begins_of_leadingSign isSplit with isSigned | rfl
      · exact isSigned
      · rw [double?, isSplit] at isRead
        dsimp only at isRead
        cases rest with
        | nil =>
            cases isRead
        | cons c rest =>
            refine ⟨c, rest, rfl, ?_⟩
            split at isRead
            · next isNamed =>
                obtain ⟨letter, isLetter, isFirst⟩ := head?_of_named? isNamed
                cases isFirst
                exact Or.inr (Or.inr isLetter)
            · by_contra notBegins
              rw [BeginsDecimal, not_or, not_or] at notBegins
              obtain ⟨notDigit, notSign, -⟩ := notBegins
              have notPoint : c ≠ '.' := by
                rintro rfl
                exact notSign (by decide)
              have isLeading : leadingDigits (c :: rest) = ([], c :: rest) := by
                simp [leadingDigits, notDigit]
              simp [isLeading, notPoint] at isRead

end Reading

end Runbook.Decimal
