import Runbook.Decimal.Reading
import Runbook.Toml.Table

namespace Runbook.Toml

/-!
# Numbers and moments in TOML

Each reader takes what it reads from the start of a text and leaves the rest.  What
follows a value is not its business: a number that goes on in a wrong way ends early,
and the line is refused for what is left of it.
-/

/-- A reader that takes from the start of a text. -/
abbrev Take := StateT (List Char) Option

namespace Take

/-- Take one character that has a property. -/
def one (wanted : Char → Bool) : Take Char := fun text =>
  match text with
  | c :: rest => if wanted c then some (c, rest) else none
  | [] => none

/-- Take one given character. -/
def exactly (wanted : Char) : Take Unit := do let _ ← one (· == wanted)

/-- Take given characters. -/
def word : List Char → Take Unit
  | [] => pure ()
  | c :: rest => do exactly c; word rest

/-- Take nothing, or what a reader takes. -/
def orNothing {α : Type} (reader : Take α) : Take (Option α) := fun text =>
  match reader text with
  | some (value, rest) => some (some value, rest)
  | none => some (none, text)

/-- Take as many characters as have a property. -/
def many (wanted : Char → Bool) : Take (List Char) := fun text =>
  some (text.takeWhile wanted, text.dropWhile wanted)

/-- The digits behind a first one, where an underscore may stand between two. -/
def moreDigits (isDigit : Char → Bool) : List Char → List Char × List Char
  | '_' :: c :: rest =>
      if isDigit c then
        let (digits, rest) := moreDigits isDigit rest
        (c :: digits, rest)
      else ([], '_' :: c :: rest)
  | c :: rest =>
      if isDigit c then
        let (digits, rest) := moreDigits isDigit rest
        (c :: digits, rest)
      else ([], c :: rest)
  | [] => ([], [])

/-- Take digits, at least one. -/
def digits (isDigit : Char → Bool) : Take (List Char) := do
  let first ← one isDigit
  let more ← fun text => some (moreDigits isDigit text)
  return first :: more

/-- Take a sign, if there is one; whether it is a minus. -/
def sign : Take Bool := do
  return (← orNothing (one fun c => c == '+' || c == '-')) == some '-'

/-- Take the digits of a whole number: a zero stands alone. -/
def wholeDigits : Take (List Char) := do
  match ← orNothing (exactly '0') with
  | some _ => return ['0']
  | none => digits Char.isDigit

/-- The value of a digit in a base up to sixteen. -/
def digitValue (c : Char) : Nat :=
  if c.isDigit then c.toNat - '0'.toNat else c.toLower.toNat - 'a'.toNat + 10

/-- The number that digits write in a base. -/
def inBase (base : Nat) (digits : List Char) : Nat :=
  digits.foldl (fun value c => value * base + digitValue c) 0

/-- A whole number, if it has 64 signed bits. -/
def wholeOf (number : Int) : Option Toml :=
  if -9223372036854775808 ≤ number ∧ number ≤ 9223372036854775807 then some (.whole number)
  else none

/-- Take a whole number behind the mark of its base. -/
def marked (mark : Char) (base : Nat) (isDigit : Char → Bool) : Take Toml := do
  exactly '0'
  exactly mark
  let read ← digits isDigit
  fun text => (wholeOf (inBase base read)).map (·, text)

/-- Whether a character is a hexadecimal digit. -/
def isHexDigit (c : Char) : Bool :=
  c.isDigit || ('a' ≤ c && c ≤ 'f') || ('A' ≤ c && c ≤ 'F')

/-- Take an exponent. -/
def exponent : Take Int := do
  let _ ← one fun c => c == 'e' || c == 'E'
  let negative ← sign
  let value := Decimal.naturalOf (← digits Char.isDigit)
  return if negative then -(value : Int) else value

/-- Take what makes a number a real one: a fraction, an exponent or both. -/
def fractionAndExponent : Take (List Char × Int) := do
  match ← orNothing exponent with
  | some power => return ([], power)
  | none =>
      exactly '.'
      let fraction ← digits Char.isDigit
      return (fraction, (← orNothing exponent).getD 0)

/-- Take a real number; a positive one must not be beyond the largest double. -/
def real : Take Toml := do
  let negative ← sign
  let whole ← wholeDigits
  let (fraction, power) ← fractionAndExponent
  let number :=
    Decimal.nearestDouble negative (Decimal.naturalOf (whole ++ fraction))
      (power - fraction.length)
  if number.isFinite || number.isNegative then return .real number else failure

/-- Take a number in words. -/
def named : Take Toml := do
  let negative ← sign
  match ← orNothing (word ['i', 'n', 'f']) with
  | some _ => return .real (.ofFloat (if negative then -1.0 / 0.0 else 1.0 / 0.0))
  | none =>
      word ['n', 'a', 'n']
      return .real (.ofFloat (0.0 / 0.0))

/-- Take a whole number without a mark. -/
def whole : Take Toml := do
  let negative ← sign
  let value := Decimal.naturalOf (← wholeDigits)
  fun text => (wholeOf (if negative then -(value : Int) else value)).map (·, text)

/-- Take what the first reader takes, or else the second. -/
def either {α : Type} (first second : Take α) : Take α := fun text =>
  match first text with
  | some result => some result
  | none => second text

/-- Take a number. -/
def number : Take Toml := fun text =>
  match text with
  | '0' :: 'x' :: _ => marked 'x' 16 isHexDigit text
  | '0' :: 'o' :: _ => marked 'o' 8 (fun c => '0' ≤ c && c ≤ '7') text
  | '0' :: 'b' :: _ => marked 'b' 2 (fun c => c == '0' || c == '1') text
  | _ => either real (either named whole) text

/-- Take a number of so many digits within bounds. -/
def fixed (count low high : Nat) : Take (List Char) := do
  let read ← (List.range count).mapM fun _ => one Char.isDigit
  let value := Decimal.naturalOf read
  if low ≤ value ∧ value ≤ high then return read else failure

/-- The number of days of a month. -/
def daysIn (year month : Nat) : Nat :=
  if month = 2 then
    if year % 4 = 0 ∧ (year % 100 ≠ 0 ∨ year % 400 = 0) then 29 else 28
  else if month = 4 ∨ month = 6 ∨ month = 9 ∨ month = 11 then 30
  else 31

/-- Take a date. -/
def date : Take (List Char) := do
  let year ← fixed 4 0 9999
  exactly '-'
  let month ← fixed 2 1 12
  exactly '-'
  let day ← fixed 2 1 (daysIn (Decimal.naturalOf year) (Decimal.naturalOf month))
  return year ++ ['-'] ++ month ++ ['-'] ++ day

/-- The digits of a part of a second as they are kept: nine at most, and no zeros at
the end. -/
def secondPart (digits : List Char) : List Char :=
  match ((digits.take 9).reverse.dropWhile (· == '0')).reverse with
  | [] => []
  | kept => '.' :: kept

/-- Take a part of a second behind a point. -/
def fractionOfSecond : Take (List Char) := do
  exactly '.'
  let first ← one Char.isDigit
  return secondPart (first :: (← many Char.isDigit))

/-- Take a time of day. -/
def time : Take (List Char) := do
  let hour ← fixed 2 0 23
  exactly ':'
  let minute ← fixed 2 0 59
  exactly ':'
  let second ← fixed 2 0 60
  let part := (← orNothing fractionOfSecond).getD []
  return hour ++ [':'] ++ minute ++ [':'] ++ second ++ part

/-- Take the distance from universal time. -/
def offset : Take (List Char) := do
  let mark ← one fun c => c == 'Z' || c == 'z' || c == '+' || c == '-'
  if mark = 'Z' ∨ mark = 'z' then return ['Z']
  let hour ← fixed 2 0 23
  exactly ':'
  let minute ← fixed 2 0 59
  return mark :: hour ++ [':'] ++ minute

/-- Take a time of day behind a date. -/
def timeBehindDate : Take (List Char) := do
  let _ ← one fun c => c == 'T' || c == 't' || c == ' '
  let time ← time
  return 'T' :: time ++ (← orNothing offset).getD []

/-- Take a date, a time or both. -/
def moment : Take Toml := do
  match ← orNothing date with
  | some date => return .moment (String.ofList (date ++ (← orNothing timeBehindDate).getD []))
  | none => return .moment (String.ofList (← time))

end Take

end Runbook.Toml
