import Runbook.Settings.Basic
import Runbook.Settings.Place
import Runbook.Text.Visible

namespace Runbook

/-!
# Giving settings their types

An entry is read as what is wanted, not as what it was written as: numbers, truth
values and texts stand for each other where that makes sense, so that a setting from
the environment, which is a text to begin with, counts like any other.
-/

/-- What cannot stand for the number, truth value or text that is wanted. -/
inductive Unsuitable where
  | whole (number : Int)
  | large (number : Nat)
  | text (content : String)
  | nothing
  | list
  | table
  deriving DecidableEq, Repr

namespace Unsuitable

/-- The words for what is unsuitable. -/
def message : Unsuitable → String
  | whole number => "64-bit integer `" ++ toString number ++ "`"
  | large number => "64-bit unsigned integer `" ++ toString number ++ "`"
  | text content => "string " ++ Text.quoted content
  | nothing => "unit value"
  | list => "sequence"
  | table => "map"

end Unsuitable

/-- Why settings cannot be loaded. -/
inductive SettingsFlaw where
  /-- An entry cannot stand for what is wanted at its key. -/
  | unsuitable (found : Unsuitable) (expected : String) (key origin : Option String)
  /-- An entry has another structure than the one that is wanted. -/
  | misfit (found : String) (expected : String)
  /-- A file breaks the rules of its format. -/
  | unreadable (file : String)
  deriving DecidableEq, Repr

namespace SettingsFlaw

/-- The words for a flaw. -/
def message : SettingsFlaw → String
  | unsuitable found expected key origin =>
      "invalid type: " ++ found.message ++ ", expected " ++ expected ++
        (match key with
        | some key => " for key `" ++ key ++ "`"
        | none => "") ++
        (match origin with
        | some origin => " in " ++ origin
        | none => "")
  | misfit found expected => "invalid type: " ++ found ++ ", expected " ++ expected
  | unreadable file => "cannot read " ++ file

/-- The key that a step in front of a key makes; a bracket follows without a point. -/
def joinKey (first : String) (key : Option String) (withPoint : Bool) : String :=
  match key with
  | none => first
  | some key =>
      if key.isEmpty || key.startsWith "[" || !withPoint then first ++ key
      else first ++ "." ++ key

/-- The flaw below a name. -/
def under (name : String) : SettingsFlaw → SettingsFlaw
  | unsuitable found expected key origin =>
      unsuitable found expected (some (joinKey name key true)) origin
  | flaw => flaw

/-- The flaw below a position of a list. -/
def underIndex (index : Nat) : SettingsFlaw → SettingsFlaw
  | unsuitable found expected key origin =>
      let first := "[" ++ toString index ++ "]"
      unsuitable found expected (some (joinKey first key false)) origin
  | flaw => flaw

end SettingsFlaw

namespace Decimal

/-- Numbers in diagnostics: always written out, whole numbers end in `.0`. -/
def Layout.diagnostic : Layout := ⟨none, none, ".0", ("NaN", "inf", "-inf")⟩

end Decimal

namespace Entry

/-- What an entry is, in words. -/
def words : Entry → String
  | scalar .nothing _ => "unit value"
  | scalar (.truth value) _ => "boolean `" ++ toString value ++ "`"
  | scalar (.whole number) _ => "integer `" ++ toString number ++ "`"
  | scalar (.real number) _ =>
      "floating point `" ++ Decimal.Layout.diagnostic.write number ++ "`"
  | scalar (.text content) _ => "string " ++ Text.quoted content
  | list _ _ => "sequence"
  | table _ _ => "map"

/-- The result for an entry that cannot stand for what is wanted. -/
def refuse {α : Type} (entry : Entry) (found : Unsuitable) (expected : String) :
    Except SettingsFlaw α :=
  .error (.unsuitable found expected none entry.origin)

/-- The words that mean yes or no. -/
def yesOrNo? (content : String) : Option Bool :=
  let word := Text.lowercase content
  if word = "true" ∨ word = "on" ∨ word = "yes" then some true
  else if word = "false" ∨ word = "off" ∨ word = "no" then some false
  else none

/-- The entry as a truth value. -/
def asTruth (entry : Entry) : Except SettingsFlaw Bool :=
  let expected := "a boolean"
  match entry with
  | scalar (.truth value) _ => .ok value
  | scalar (.whole number) _ => .ok (number ≠ 0)
  | scalar (.real number) _ => .ok (number.toFloat != 0.0)
  | scalar (.text content) _ =>
      if content = "1" then .ok true
      else if content = "0" then .ok false
      else
        match yesOrNo? content with
        | some value => .ok value
        | none => entry.refuse (.text (Text.lowercase content)) expected
  | scalar .nothing _ => entry.refuse .nothing expected
  | list _ _ => entry.refuse .list expected
  | table _ _ => entry.refuse .table expected

/-- The first number beyond 64 unsigned bits. -/
def naturalBound : Nat := 18446744073709551616

/-- The number that digits write, with or without a plus in front, within 64 bits. -/
def natural? (content : String) : Option Nat :=
  match content.toList with
  | '-' :: _ => none
  | chars =>
      match Decimal.integer? chars with
      | some number => if number < naturalBound then some number.toNat else none
      | none => none

/-- The entry as a number that is not negative. -/
def asNatural (entry : Entry) : Except SettingsFlaw Nat :=
  let expected := "an integer"
  match entry with
  | scalar (.truth value) _ => .ok value.toNat
  | scalar (.whole number) _ =>
      if 0 ≤ number then .ok number.toNat
      else entry.refuse (.whole number) "an unsigned 64 bit or less integer"
  | scalar (.real number) _ => .ok number.toFloat.round.toUInt64.toNat
  | scalar (.text content) _ =>
      match yesOrNo? content, natural? content with
      | some value, _ => .ok value.toNat
      | none, some number => .ok number
      | none, none => entry.refuse (.text content) expected
  | scalar .nothing _ => entry.refuse .nothing expected
  | list _ _ => entry.refuse .list expected
  | table _ _ => entry.refuse .table expected

/-- The entry as a real number. -/
def asReal (entry : Entry) : Except SettingsFlaw Double :=
  let expected := "a floating point"
  match entry with
  | scalar (.truth value) _ => .ok (.ofFloat (if value then 1.0 else 0.0))
  | scalar (.whole number) _ => .ok (.ofFloat (Float.ofInt number))
  | scalar (.real number) _ => .ok number
  | scalar (.text content) _ =>
      match yesOrNo? content, Decimal.double? content.toList with
      | some value, _ => .ok (.ofFloat (if value then 1.0 else 0.0))
      | none, some number => .ok number
      | none, none => entry.refuse (.text content) expected
  | scalar .nothing _ => entry.refuse .nothing expected
  | list _ _ => entry.refuse .list expected
  | table _ _ => entry.refuse .table expected

/-- The entry as a text. -/
def asText (entry : Entry) : Except SettingsFlaw String :=
  let expected := "a string"
  match entry with
  | scalar (.truth value) _ => .ok (toString value)
  | scalar (.whole number) _ => .ok (toString number)
  | scalar (.real number) _ => .ok (Decimal.Layout.plain.write number)
  | scalar (.text content) _ => .ok content
  | scalar .nothing _ => entry.refuse .nothing expected
  | list _ _ => entry.refuse .list expected
  | table _ _ => entry.refuse .table expected

/-- The words for a number that is wanted below a bound. -/
def expectedBits (bound : Nat) : String :=
  "an unsigned " ++ toString bound.log2 ++ " bit integer"

/-- The entry as a number below a bound. -/
def asBounded (bound : Nat) (entry : Entry) : Except SettingsFlaw Nat := do
  let number ← entry.asNatural
  if number < bound then return number
  else throw (.unsuitable (.large number) (expectedBits bound) none none)

/-- Entries with their names or positions, so that a flaw can say where it is. -/
def located {α : Type} (result : Except SettingsFlaw α) (place : SettingsFlaw → SettingsFlaw) :
    Except SettingsFlaw α :=
  match result with
  | .ok value => .ok value
  | .error flaw => .error (place flaw)

open Json (Shape)

mutual

/-- Read an entry as a value of a shape, in full form. -/
def settle (shape : Shape) (entry : Entry) : (fuel : Nat) → Except SettingsFlaw Json
  | 0 => .error (.misfit entry.words shape.expected)
  | fuel + 1 =>
      match shape, entry with
      | .text, entry => entry.asText.map .str
      | .path, entry => entry.asText.map .str
      | .truth, entry => entry.asTruth.map .bool
      | .unsigned bound _, entry => (entry.asBounded bound).map fun number => .int number
      | .real, entry => entry.asReal.map .double
      | .optional _, scalar .nothing _ => .ok .null
      | .optional inner, entry => settle inner entry fuel
      | .list inner, list items _ => (settleItems inner 0 items fuel).map .arr
      | .record _ fields, list items _ => (settlePositions fields 0 items fuel).map .obj
      | .record _ fields, table members _ => (settleMembers fields members fuel).map .obj
      | shape, entry => .error (.misfit entry.words shape.expected)
termination_by structural fuel => fuel

/-- Read the items of a list. -/
def settleItems (inner : Shape) (index : Nat) :
    List Entry → (fuel : Nat) → Except SettingsFlaw (List Json)
  | [], _ => .ok []
  | _ :: _, 0 => .ok []
  | item :: rest, fuel + 1 => do
      let value ← located (settle inner item fuel) (·.underIndex index)
      return value :: (← settleItems inner (index + 1) rest fuel)
termination_by structural _ fuel => fuel

/-- Read the items of a record that is written as a list. -/
def settlePositions : List (String × Shape × Option Json) → (index : Nat) →
    List Entry → (fuel : Nat) → Except SettingsFlaw (List (String × Json))
  | [], _, _, _ => .ok []
  | _ :: _, _, _, 0 => .ok []
  | (field, _, default?) :: fields, index, [], fuel + 1 => do
      return (field, default?.getD .null) :: (← settlePositions fields index [] fuel)
  | (field, shape, _) :: fields, index, item :: items, fuel + 1 => do
      let value ← located (settle shape item fuel) (·.underIndex index)
      return (field, value) :: (← settlePositions fields (index + 1) items fuel)
termination_by structural _ _ _ fuel => fuel

/-- Read the members of a record; a field that is not set takes its default. -/
def settleMembers : List (String × Shape × Option Json) →
    List (String × Entry) → (fuel : Nat) → Except SettingsFlaw (List (String × Json))
  | [], _, _ => .ok []
  | _ :: _, _, 0 => .ok []
  | (field, shape, default?) :: fields, members, fuel + 1 => do
      let value ←
        match get? members field with
        | some entry => located (settle shape entry fuel) (·.under field)
        | none => pure (default?.getD .null)
      return (field, value) :: (← settleMembers fields members fuel)
termination_by structural _ _ fuel => fuel

end

mutual

/-- The size of an entry: how many entries it is made of. -/
def weight : Entry → Nat
  | scalar _ _ => 1
  | list items _ => 1 + weightItems items
  | table members _ => 1 + weightMembers members

/-- The size of items together. -/
def weightItems : List Entry → Nat
  | [] => 0
  | item :: rest => 1 + weight item + weightItems rest

/-- The size of members together. -/
def weightMembers : List (String × Entry) → Nat
  | [] => 0
  | (_, entry) :: rest => 1 + weight entry + weightMembers rest

end

end Entry

namespace Settings

/-- The settings that an entry holds. -/
def ofEntry (entry : Entry) : Except SettingsFlaw Settings :=
  (entry.settle shape (2 * entry.weight + 64)).map ofFull

end Settings

end Runbook
