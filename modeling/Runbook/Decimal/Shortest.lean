import Runbook.Json.Value

namespace Runbook.Decimal

/-!
# The shortest decimal of a double

A finite positive double is `m * 2 ^ q`.  The decimals that read back as it
form an interval around it, whose ends belong to it exactly when `m` is even.
`shortest` tries one digit, two digits, and so on up to seventeen, and on each
decimal grid tests the two points next to the value; all of it is exact
arithmetic on natural numbers.
-/

/-- A positive decimal `digits * 10 ^ exponent`. -/
structure Digits where
  digits : Nat
  exponent : Int
  deriving DecidableEq, Repr, Inhabited

/-- The number of decimal digits of a natural number; zero has one. -/
def digitCount (n : Nat) : Nat := (Nat.toDigits 10 n).length

/-- A quotient of natural numbers. -/
structure Ratio where
  numerator : Nat
  denominator : Nat
  deriving Repr

namespace Ratio

/-- `n * 2 ^ q`. -/
def scaledByTwo (n : Nat) (q : Int) : Ratio :=
  if 0 ≤ q then ⟨n * Nat.pow 2 q.toNat, 1⟩ else ⟨n, Nat.pow 2 (-q).toNat⟩

/-- `n * 10 ^ e`. -/
def scaledByTen (n : Nat) (e : Int) : Ratio :=
  if 0 ≤ e then ⟨n * Nat.pow 10 e.toNat, 1⟩ else ⟨n, Nat.pow 10 (-e).toNat⟩

/-- At most. -/
def le (a b : Ratio) : Bool :=
  a.numerator * b.denominator ≤ b.numerator * a.denominator

/-- Less than. -/
def lt (a b : Ratio) : Bool :=
  a.numerator * b.denominator < b.numerator * a.denominator

/-- The distance of two quotients. -/
def distance (a b : Ratio) : Ratio :=
  let left := a.numerator * b.denominator
  let right := b.numerator * a.denominator
  ⟨max left right - min left right, a.denominator * b.denominator⟩

/-- The exponent `e` with `10 ^ e ≤ a < 10 ^ (e + 1)`, of a positive quotient. -/
def magnitude (a : Ratio) : Int :=
  let guess : Int := (digitCount a.numerator : Int) - digitCount a.denominator
  if (scaledByTen 1 guess).le a then guess else guess - 1

/-- The integral part of `a / 10 ^ e`. -/
def floorAt (a : Ratio) (e : Int) : Nat :=
  if 0 ≤ e then a.numerator / (a.denominator * Nat.pow 10 e.toNat)
  else a.numerator * Nat.pow 10 (-e).toNat / a.denominator

end Ratio

/-- The decimals that read back as a double. -/
structure Neighbourhood where
  value : Ratio
  low : Ratio
  high : Ratio
  closed : Bool

/-- The decimals that read back as a finite positive double. -/
def neighbourhood (number : Double) : Neighbourhood :=
  let field := number.exponentField
  let fraction := number.fractionField
  let m := if field = 0 then fraction else fraction + Nat.pow 2 52
  let q : Int := (if field = 0 then 1 else (field : Int)) - 1075
  let below := if fraction = 0 ∧ 1 < field then 1 else 2
  { value := .scaledByTwo (4 * m) (q - 2)
    low := .scaledByTwo (4 * m - below) (q - 2)
    high := .scaledByTwo (4 * m + 2) (q - 2)
    closed := m % 2 = 0 }

/-- Whether a decimal reads back as the double of the neighbourhood. -/
def Neighbourhood.holds (around : Neighbourhood) (decimal : Digits) : Bool :=
  let point := Ratio.scaledByTen decimal.digits decimal.exponent
  if around.closed then around.low.le point && point.le around.high
  else around.low.lt point && point.lt around.high

/-- The point of the grid of `10 ^ e` that reads back and is nearest to the
value, the even one of two at the same distance. -/
def Neighbourhood.onGrid? (around : Neighbourhood) (e : Int) : Option Digits :=
  let below := around.value.floorAt e
  let left : Digits := ⟨below, e⟩
  let right : Digits := ⟨below + 1, e⟩
  match around.holds left, around.holds right with
  | false, false => none
  | true, false => some left
  | false, true => some right
  | true, true =>
      let toLeft := (Ratio.scaledByTen below e).distance around.value
      let toRight := (Ratio.scaledByTen (below + 1) e).distance around.value
      if toLeft.lt toRight then some left
      else if toRight.lt toLeft then some right
      else if below % 2 = 0 then some left
      else some right

/-- The first grid with a point, from `count` digits on. -/
def Neighbourhood.firstGrid (around : Neighbourhood) (magnitude : Int) :
    (count remaining : Nat) → Digits
  | count, 0 => ⟨around.value.floorAt (magnitude - count + 1), magnitude - count + 1⟩
  | count, remaining + 1 =>
      match around.onGrid? (magnitude - count + 1) with
      | some decimal => decimal
      | none => around.firstGrid magnitude (count + 1) remaining

/-- Digits without the zeros at their end. -/
def Digits.strip (decimal : Digits) : (fuel : Nat) → Digits
  | 0 => decimal
  | fuel + 1 =>
      if decimal.digits % 10 = 0 ∧ decimal.digits ≠ 0 then
        Digits.strip ⟨decimal.digits / 10, decimal.exponent + 1⟩ fuel
      else decimal

/-- The decimal with the fewest digits that reads back as a finite positive
double, and of those the nearest. -/
def shortest (number : Double) : Digits :=
  let around := neighbourhood number
  (around.firstGrid around.value.magnitude 1 17).strip 20

end Runbook.Decimal
