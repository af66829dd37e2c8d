import Runbook.Json.Cursor
import Runbook.Text.Search

namespace Runbook.Json

/-!
# Reading values

`Reader.value` reads one value and says what is wrong at the first flaw.  A
member whose value nobody wants is stepped over by `Reader.ignore`, which is
less strict: it does not look into numbers or escapes and knows no limit of
depth.  Both take an amount of fuel that the length of the text bounds.
-/

/-- The largest unsigned integer. -/
def maxUnsigned : Nat := 18446744073709551615

/-- The smallest signed integer. -/
def minSigned : Int := -9223372036854775808

/-- The depth at which a text is refused. -/
def depthLimit : Nat := 128

/-- The value of a hexadecimal digit. -/
def hexValue? (c : Char) : Option Nat :=
  if '0' ≤ c ∧ c ≤ '9' then some (c.toNat - 48)
  else if 'a' ≤ c ∧ c ≤ 'f' then some (c.toNat - 87)
  else if 'A' ≤ c ∧ c ≤ 'F' then some (c.toNat - 55)
  else none

/-- The value of four hexadecimal digits. -/
def hexFour? (a b c d : Char) : Option Nat := do
  let a ← hexValue? a
  let b ← hexValue? b
  let c ← hexValue? c
  let d ← hexValue? d
  return ((a * 16 + b) * 16 + c) * 16 + d

/-- A power of ten as a machine number. -/
def tenTo (exponent : Nat) : Float := Float.ofScientific 1 false exponent

/-- Scale a machine number by a power of ten in one step, or in several when
the power is too large for one; `none` when the result is out of range. -/
def scaleByTen (number : Float) (exponent : Int) : (fuel : Nat) → Option Float
  | 0 => some number
  | fuel + 1 =>
      if exponent.natAbs ≤ 308 then
        if 0 ≤ exponent then
          let scaled := number * tenTo exponent.toNat
          if scaled.isInf then none else some scaled
        else
          some (number / tenTo exponent.natAbs)
      else if number == 0.0 then some number
      else if 0 ≤ exponent then none
      else scaleByTen (number / tenTo 308) (exponent + 308) fuel

namespace Reader

/-- A decimal as a double: its digits as a machine number, scaled. -/
def scaled (negative : Bool) (digits : Nat) (exponent : Int) : Reader Json := do
  match scaleByTen (Float.ofNat digits) exponent (exponent.natAbs / 308 + 2) with
  | none => failHere .numberOutOfRange
  | some number =>
      return .double (.ofFloat (if negative then -number else number))

/-- The digits ahead. -/
def digitsAhead : Reader (List Char) := do
  return (← get).rest.takeWhile Char.isDigit

/-- Step over a number of characters. -/
def skipMany : Nat → Reader Unit
  | 0 => pure ()
  | count + 1 => do skip; skipMany count

/-- Take digits into a number while it stays within the unsigned integers, and
count the digits taken. -/
def takeDigits (value count : Nat) : List Char → Nat × Nat
  | [] => (value, count)
  | c :: rest =>
      let next := value * 10 + (c.toNat - 48)
      if next ≤ maxUnsigned then takeDigits next (count + 1) rest else (value, count)

/-- The number of digits read when an exponent leaves the 32-bit integers, if it
does. -/
def exponentOverflow (value : Nat) : List Char → Option Nat
  | [] => none
  | d :: rest =>
      let next := value * 10 + (d.toNat - 48)
      if next ≤ 2147483647 then (exponentOverflow next rest).map (· + 1) else some 1

/-- The exponent of a number, its mark ahead. -/
def exponent (negative : Bool) (digits : Nat) (power : Int) : Reader Json := do
  skip
  let sign ← peek
  let positive := sign != some '-'
  if sign == some '+' || sign == some '-' then skip
  match ← peek with
  | none => failHere .endInValue
  | some c =>
      if !c.isDigit then failNext .invalidNumber
      else
        let ahead ← digitsAhead
        match exponentOverflow 0 ahead with
        | none =>
            let value := ahead.foldl (fun sum d => sum * 10 + (d.toNat - 48)) 0
            skipMany ahead.length
            scaled negative digits
              (if positive then power + Int.ofNat value else power - Int.ofNat value)
        | some count =>
            if digits ≠ 0 ∧ positive then
              skipMany count
              failHere .numberOutOfRange
            else
              skipMany ahead.length
              return .double (.ofFloat (if negative then -0.0 else 0.0))

/-- A number whose whole and fractional digits are read. -/
def afterDigits (negative : Bool) (digits : Nat) (power : Int) : Reader Json := do
  match ← peek with
  | some 'e' => exponent negative digits power
  | some 'E' => exponent negative digits power
  | _ => scaled negative digits power

/-- The fraction of a number, its point ahead. -/
def fraction (negative : Bool) (digits : Nat) (power : Int) : Reader Json := do
  skip
  let ahead ← digitsAhead
  skipMany ahead.length
  let (value, taken) := takeDigits digits 0 ahead
  if ahead.isEmpty then failNextOr .endInValue .invalidNumber
  else afterDigits negative value (power - taken)

/-- A number, its sign read and its first digit ahead. -/
def number (negative : Bool) : Reader Json := do
  match ← peek with
  | none => failHere .endInValue
  | some first =>
      if !first.isDigit then failNext .invalidNumber
      else
        let ahead ← digitsAhead
        if first = '0' then
          skip
          if 1 < ahead.length then failNext .invalidNumber
        else
          skipMany ahead.length
        let (value, taken) := takeDigits 0 0 ahead
        let dropped := ahead.length - taken
        match ← peek with
        | some '.' => fraction negative value dropped
        | some 'e' => exponent negative value dropped
        | some 'E' => exponent negative value dropped
        | _ =>
            if dropped ≠ 0 then scaled negative value dropped
            else if !negative then return .int value
            else if value ≠ 0 ∧ minSigned ≤ -(value : Int) then return .int (-(value : Int))
            else return .double (.ofFloat (-(Float.ofNat value)))

/-- The number that four hexadecimal digits ahead write. -/
def hexEscape : Reader Nat := do
  let cursor ← get
  match cursor.rest with
  | a :: b :: c :: d :: _ =>
      match hexFour? a b c d with
      | some value =>
          skipMany 4
          return value
      | none => failAfter 4 .invalidEscape
  | short =>
      if Text.byteLength short < 4 then failAfter (Text.byteLength short) .endInString
      else failAfter 4 .invalidEscape

/-- The character that an escape by number writes; a character beyond the basic
plane is written as two surrogates. -/
def unicodeEscape : Reader Char := do
  let high ← hexEscape
  if 0xDC00 ≤ high ∧ high ≤ 0xDFFF then failHere .loneSurrogate
  else if high < 0xD800 ∨ 0xDBFF < high then return Char.ofNat high
  else
    match ← peek with
    | none => failHere .endInString
    | some '\\' => skip
    | some _ => failNext .unfinishedSurrogate
    match ← peek with
    | none => failHere .endInString
    | some 'u' => skip
    | some _ => failNext .unfinishedSurrogate
    let low ← hexEscape
    if low < 0xDC00 ∨ 0xDFFF < low then failHere .loneSurrogate
    else return Char.ofNat ((high - 0xD800) * 1024 + (low - 0xDC00) + 0x10000)

/-- The character that an escape writes, its backslash read. -/
def escaped : Reader Char := do
  match ← peek with
  | none => failHere .endInString
  | some 'u' =>
      skip
      unicodeEscape
  | some c =>
      let plain? : Option Char :=
        if c = '"' ∨ c = '\\' ∨ c = '/' then some c
        else if c = 'b' then some (Char.ofNat 8)
        else if c = 'f' then some (Char.ofNat 12)
        else if c = 'n' then some '\n'
        else if c = 'r' then some '\r'
        else if c = 't' then some '\t'
        else none
      match plain? with
      | some plain =>
          skip
          return plain
      | none => failNext .invalidEscape

/-- The rest of a string, its opening quote read. -/
def stringRest (done : List Char) : (fuel : Nat) → Reader String
  | 0 => failHere .endInString
  | fuel + 1 => do
      match ← peek with
      | none => failHere .endInString
      | some '"' =>
          skip
          return String.ofList done.reverse
      | some '\\' =>
          skip
          let c ← escaped
          stringRest (c :: done) fuel
      | some c =>
          if c.toNat < 32 then failNext .controlCharacter
          else
            skip
            stringRest (c :: done) fuel

/-- A string, its opening quote ahead. -/
def string : Reader String := do
  skip
  stringRest [] ((← get).rest.length + 1)

/-- The end of an array; `false` once it is passed, `true` when an item is ahead. -/
def itemAhead (first : Bool) : Reader Bool := do
  match ← skipGaps with
  | none => failHere .endInList
  | some c =>
      if c = ']' then return false
      else if first then return true
      else if c = ',' then
        skip
        match ← skipGaps with
        | none => failHere .endInValue
        | some ']' => failNext .trailingComma
        | some _ => return true
      else failNext .expectedCommaInList

/-- Whether a key is ahead, or the end of the object. -/
def keyAhead (first : Bool) : Reader Bool := do
  match ← skipGaps with
  | none => failHere .endInObject
  | some c =>
      if c = Char.ofNat 0x7D then return false
      else if first then
        if c = '"' then return true else failNext .keyNotString
      else if c = ',' then
        skip
        match ← skipGaps with
        | none => failHere .endInValue
        | some d =>
            if d = '"' then return true
            else if d = Char.ofNat 0x7D then failNext .trailingComma
            else failNext .keyNotString
      else failNext .expectedCommaInObject

/-- The colon behind a key. -/
def colon : Reader Unit := do
  match ← skipGaps with
  | some ':' => skip
  | none => failHere .endInObject
  | some _ => failNext .expectedColon

/-- The bracket that ends an array. -/
def endList : Reader Unit := do
  match ← skipGaps with
  | some ']' => skip
  | some ',' =>
      skip
      match ← skipGaps with
      | some ']' => failNext .trailingComma
      | _ => failNext .trailingCharacters
  | some _ => failNext .trailingCharacters
  | none => failHere .endInList

/-- The brace that ends an object. -/
def endObject : Reader Unit := do
  match ← skipGaps with
  | none => failHere .endInObject
  | some c =>
      if c = Char.ofNat 0x7D then skip
      else if c = ',' then failNext .trailingComma
      else failNext .trailingCharacters

/-- One level deeper, if the limit allows it. -/
def deeper (depth : Nat) : Reader Nat := do
  if depthLimit ≤ depth + 1 then failNext .tooDeep else return depth + 1

mutual

/-- One value; an object keeps its members as they are written. -/
def value (depth : Nat) : (fuel : Nat) → Reader Json
  | 0 => failHere .endInValue
  | fuel + 1 => do
      match ← skipGaps with
      | none => failHere .endInValue
      | some c =>
          if c = 'n' then
            skip
            word ['u', 'l', 'l']
            return .null
          else if c = 't' then
            skip
            word ['r', 'u', 'e']
            return .bool true
          else if c = 'f' then
            skip
            word ['a', 'l', 's', 'e']
            return .bool false
          else if c = '-' then
            skip
            number true
          else if c.isDigit then number false
          else if c = '"' then return .str (← string)
          else if c = '[' then
            let depth ← deeper depth
            skip
            let items ← items depth true [] fuel
            endList
            return .arr items
          else if c = Char.ofNat 0x7B then
            let depth ← deeper depth
            skip
            let members ← members depth true [] fuel
            endObject
            return .obj members
          else failNext .expectedValue

/-- The items of an array up to its bracket. -/
def items (depth : Nat) (first : Bool) (done : List Json) : (fuel : Nat) → Reader (List Json)
  | 0 => failHere .endInList
  | fuel + 1 => do
      if ← itemAhead first then
        let item ← value depth fuel
        items depth false (item :: done) fuel
      else return done.reverse

/-- The members of an object up to its brace, as they are written. -/
def members (depth : Nat) (first : Bool) (done : List (String × Json)) :
    (fuel : Nat) → Reader (List (String × Json))
  | 0 => failHere .endInObject
  | fuel + 1 => do
      if ← keyAhead first then
        let key ← string
        colon
        let member ← value depth fuel
        members depth false ((key, member) :: done) fuel
      else return done.reverse

end

/-- Step over the rest of a string without looking into its escapes. -/
def ignoreStringRest : (fuel : Nat) → Reader Unit
  | 0 => failHere .endInString
  | fuel + 1 => do
      match ← peek with
      | none => failHere .endInString
      | some '"' => skip
      | some '\\' =>
          skip
          match ← peek with
          | none => failHere .endInString
          | some 'u' =>
              skip
              let _ ← hexEscape
          | some c =>
              if c ∈ ['"', '\\', '/', 'b', 'f', 'n', 'r', 't'] then skip
              else failNext .invalidEscape
          ignoreStringRest fuel
      | some c =>
          if c.toNat < 32 then failHere .controlCharacter
          else
            skip
            ignoreStringRest fuel

/-- Step over a string, its opening quote ahead. -/
def ignoreString : Reader Unit := do
  skip
  ignoreStringRest ((← get).rest.length + 1)

/-- Step over an exponent, its mark ahead. -/
def ignoreExponent : Reader Unit := do
  skip
  let sign ← peek
  if sign == some '+' || sign == some '-' then skip
  let ahead ← digitsAhead
  if ahead.isEmpty then failNext .invalidNumber else skipMany ahead.length

/-- Step over an exponent, if its mark is ahead. -/
def ignorePower : Reader Unit := do
  match ← peek with
  | some 'e' => ignoreExponent
  | some 'E' => ignoreExponent
  | _ => pure ()

/-- Step over what may stand behind the whole digits of a number. -/
def ignorePlaces : Reader Unit := do
  match ← peek with
  | some '.' =>
      skip
      let places ← digitsAhead
      if places.isEmpty then failNext .invalidNumber
      else
        skipMany places.length
        ignorePower
  | _ => ignorePower

/-- Step over a number, its sign read, without looking at its size. -/
def ignoreNumber : Reader Unit := do
  let ahead ← digitsAhead
  match ahead with
  | [] => failNext .invalidNumber
  | first :: more =>
      if first = '0' then
        skip
        if more.isEmpty then ignorePlaces else failNext .invalidNumber
      else
        skipMany ahead.length
        ignorePlaces

mutual

/-- Step over one value. -/
def ignore : (fuel : Nat) → Reader Unit
  | 0 => failHere .endInValue
  | fuel + 1 => do
      match ← skipGaps with
      | none => failHere .endInValue
      | some c =>
          if c = 'n' then
            skip
            word ['u', 'l', 'l']
          else if c = 't' then
            skip
            word ['r', 'u', 'e']
          else if c = 'f' then
            skip
            word ['a', 'l', 's', 'e']
          else if c = '-' then
            skip
            ignoreNumber
          else if c.isDigit then ignoreNumber
          else if c = '"' then ignoreString
          else if c = '[' then
            skip
            match ← skipGaps with
            | some ']' => skip
            | none => failHere .endInList
            | some _ => ignoreItems fuel
          else if c = Char.ofNat 0x7B then
            skip
            match ← skipGaps with
            | none => failHere .endInObject
            | some d => if d = Char.ofNat 0x7D then skip else ignoreMembers fuel
          else failNext .expectedValue

/-- Step over the items of an array, one of them ahead. -/
def ignoreItems : (fuel : Nat) → Reader Unit
  | 0 => failHere .endInList
  | fuel + 1 => do
      ignore fuel
      match ← skipGaps with
      | some ',' =>
          skip
          ignoreItems fuel
      | some ']' => skip
      | some _ => failNext .expectedCommaInList
      | none => failHere .endInList

/-- Step over the members of an object, one of them ahead. -/
def ignoreMembers : (fuel : Nat) → Reader Unit
  | 0 => failHere .endInObject
  | fuel + 1 => do
      match ← skipGaps with
      | none => failHere .endInObject
      | some '"' => ignoreString
      | some _ => failNext .keyNotString
      colon
      ignore fuel
      match ← skipGaps with
      | none => failHere .endInObject
      | some c =>
          if c = ',' then
            skip
            ignoreMembers fuel
          else if c = Char.ofNat 0x7D then skip
          else failNext .expectedCommaInObject

end

/-- Nothing but blanks may follow. -/
def finish : Reader Unit := do
  match ← skipGaps with
  | none => pure ()
  | some _ => failNext .trailingCharacters

/-- Read a whole text, given the fuel that its length allows. -/
def run {α : Type} (reader : (fuel : Nat) → Reader α) (text : String) : Except Complaint α := do
  let chars := text.toList
  let read : Reader α := do
    let value ← reader (2 * chars.length + 8)
    finish
    return value
  let (value, _) ← read (.start chars)
  return value

end Reader

mutual

/-- A value with the members of its objects in order, the last of a repeated key
kept. -/
def normal : Json → Json
  | .arr items => .arr (normalItems items)
  | .obj members => .obj (orderMembers (normalMembers members))
  | .null => .null
  | .bool value => .bool value
  | .int value => .int value
  | .double value => .double value
  | .str text => .str text

/-- The items with their objects in order. -/
def normalItems : List Json → List Json
  | [] => []
  | item :: rest => normal item :: normalItems rest

/-- The members with their objects in order. -/
def normalMembers : List (String × Json) → List (String × Json)
  | [] => []
  | (key, value) :: rest => (key, normal value) :: normalMembers rest

end

/-- The value that a text writes. -/
def parse (text : String) : Except Complaint Json := do
  return normal (← Reader.run (Reader.value 0) text)

end Runbook.Json
