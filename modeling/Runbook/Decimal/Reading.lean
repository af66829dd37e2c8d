import Runbook.Decimal.Shortest

namespace Runbook.Decimal

/-!
# Reading decimals

A decimal is read as the double nearest to it.  One that is far beyond the largest
double is infinite, one that is far below the smallest is zero, so no power of ten
is ever large.
-/

/-- The largest power of ten that the first digit of a double may stand for. -/
def greatestPower : Int := 310

/-- The least power of ten that the first digit of a double may stand for. -/
def leastPower : Int := -330

/-- The positive number nearest to `digits * 10 ^ exponent`. -/
def nearest (digits : Nat) (exponent : Int) : Float :=
  let power := (digitCount digits : Int) + exponent
  if digits = 0 then 0.0
  else if greatestPower < power then 1.0 / 0.0
  else if power < leastPower then 0.0
  else Float.ofScientific digits (exponent < 0) exponent.natAbs

/-- The double nearest to a decimal with a sign. -/
def nearestDouble (negative : Bool) (digits : Nat) (exponent : Int) : Double :=
  let number := nearest digits exponent
  .ofFloat (if negative then -number else number)

/-- The number that decimal digits write. -/
def naturalOf (digits : List Char) : Nat :=
  digits.foldl (fun value c => value * 10 + (c.toNat - '0'.toNat)) 0

/-- The digits at the start of a text, and the rest. -/
def leadingDigits (text : List Char) : List Char × List Char :=
  (text.takeWhile Char.isDigit, text.dropWhile Char.isDigit)

/-- A sign at the start of a text, and the rest. -/
def leadingSign : List Char → Bool × List Char
  | '-' :: rest => (true, rest)
  | '+' :: rest => (false, rest)
  | text => (false, text)

/-- The integer that a whole text writes: digits, with or without a sign. -/
def integer? (text : List Char) : Option Int :=
  let (negative, rest) := leadingSign text
  match leadingDigits rest with
  | ([], _) => none
  | (digits, []) => some (if negative then -(naturalOf digits : Int) else naturalOf digits)
  | _ => none

/-- The exponent that a whole text writes behind its mark. -/
def exponent? : List Char → Option Int
  | [] => some 0
  | c :: rest => if c = 'e' ∨ c = 'E' then integer? rest else none

/-- A text in lower case, of ASCII letters. -/
def asciiLower (text : List Char) : String := String.ofList (text.map Char.toLower)

/-- The double that a whole text without a sign names in words. -/
def named? (text : List Char) : Option Float :=
  let word := asciiLower text
  if word = "inf" ∨ word = "infinity" then some (1.0 / 0.0)
  else if word = "nan" then some (0.0 / 0.0)
  else none

/-- The double that a whole text writes: digits with or without a point among them,
with or without an exponent, or a number in words; with or without a sign. -/
def double? (text : List Char) : Option Double :=
  let (negative, rest) := leadingSign text
  match named? rest with
  | some number => some (.ofFloat (if negative then -number else number))
  | none =>
      let (whole, rest) := leadingDigits rest
      let (fraction, rest) :=
        match rest with
        | '.' :: rest => leadingDigits rest
        | rest => ([], rest)
      if whole.isEmpty ∧ fraction.isEmpty then none
      else
        (exponent? rest).map fun exponent =>
          nearestDouble negative (naturalOf (whole ++ fraction)) (exponent - fraction.length)

end Runbook.Decimal
