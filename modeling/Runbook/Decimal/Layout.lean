import Runbook.Decimal.Shortest

namespace Runbook.Decimal

/-!
# How a double is laid out

A `Layout` says which magnitudes are written out in full and how a whole
number ends.  The digits themselves come from `shortest`.
-/

/-- The choices of one written form of doubles. -/
structure Layout where
  /-- The largest number of digits before the point that are written out. -/
  mostWhole : Option Nat
  /-- The largest number of zeros after the point before the first digit. -/
  mostZeros : Option Nat
  /-- What a whole number written out in full ends with. -/
  wholeEnd : String
  /-- The text of a NaN, of infinity and of minus infinity. -/
  special : String × String × String

/-- Numbers in JSON text: written out from a hundred-thousandth to below ten
quadrillions, whole numbers end in `.0`, and what JSON cannot write is `null`. -/
def Layout.json : Layout := ⟨some 16, some 4, ".0", ("null", "null", "null")⟩

/-- Numbers in running text: always written out, whole numbers bare. -/
def Layout.plain : Layout := ⟨none, none, "", ("NaN", "inf", "-inf")⟩

/-- Whether a bound admits a count; no bound admits every count. -/
def admits (bound : Option Nat) (count : Nat) : Bool :=
  match bound with
  | none => true
  | some most => count ≤ most

/-- A row of zeros. -/
def zeros (count : Nat) : String := String.ofList (List.replicate count '0')

/-- The exponent mark with its sign. -/
def exponentText (exponent : Int) : String :=
  if exponent < 0 then "e-" ++ toString exponent.natAbs
  else "e+" ++ toString exponent.natAbs

/-- A positive decimal in the given layout. -/
def Layout.digits (layout : Layout) (decimal : Digits) : String :=
  let text := toString decimal.digits
  let count := text.length
  let point : Int := count + decimal.exponent
  if (0 < point ∧ admits layout.mostWhole point.toNat) then
    if count ≤ point.toNat then
      text ++ zeros (point.toNat - count) ++ layout.wholeEnd
    else
      (text.take point.toNat).toString ++ "." ++ (text.drop point.toNat).toString
  else if (point ≤ 0 ∧ admits layout.mostZeros (-point).toNat) then
    "0." ++ zeros (-point).toNat ++ text
  else
    (text.take 1).toString ++ (if count = 1 then "" else "." ++ (text.drop 1).toString) ++
      exponentText (point - 1)

/-- A double in the given layout; a zero keeps its sign. -/
def Layout.write (layout : Layout) (number : Double) : String :=
  let sign := if number.isNegative then "-" else ""
  if number.isFinite then
    if number.exponentField = 0 ∧ number.fractionField = 0 then
      sign ++ "0" ++ layout.wholeEnd
    else
      sign ++ layout.digits (shortest number)
  else if number.fractionField = 0 then
    if number.isNegative then layout.special.2.2 else layout.special.2.1
  else
    layout.special.1

end Runbook.Decimal
