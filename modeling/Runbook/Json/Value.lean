namespace Runbook

/-!
# JSON values

The dynamic values that calls take as input and that tools print.  A number is
an integer or a double; a double is held as its bits, so two values are equal
exactly when they print alike.  An object keeps its members in a list, and
`Json.record` is the constructor that orders them.
-/

/-- A double-precision number, held as its 64 bits. -/
structure Double where
  bits : UInt64
  deriving DecidableEq, Repr, Inhabited

namespace Double

/-- The double that a machine number denotes. -/
def ofFloat (number : Float) : Double := ⟨number.toBits⟩

/-- The machine number to compute with. -/
def toFloat (number : Double) : Float := Float.ofBits number.bits

/-- The sign bit, which a zero carries too. -/
def isNegative (number : Double) : Bool := number.bits >>> 63 == 1

/-- The biased exponent field. -/
def exponentField (number : Double) : Nat :=
  ((number.bits >>> 52) &&& 0x7FF).toNat

/-- The fraction field. -/
def fractionField (number : Double) : Nat :=
  (number.bits &&& 0xFFFFFFFFFFFFF).toNat

/-- Neither infinite nor a NaN. -/
def isFinite (number : Double) : Bool := number.exponentField < 2047

end Double

/-- A JSON value. -/
inductive Json where
  | null
  | bool (value : Bool)
  | int (value : Int)
  | double (value : Double)
  | str (text : String)
  | arr (items : List Json)
  | obj (members : List (String × Json))
  deriving Repr, Inhabited

namespace Json

mutual

/-- Structural equality of values. -/
def same : Json → Json → Bool
  | .null, .null => true
  | .bool a, .bool b => a == b
  | .int a, .int b => a == b
  | .double a, .double b => a == b
  | .str a, .str b => a == b
  | .arr a, .arr b => sameItems a b
  | .obj a, .obj b => sameMembers a b
  | _, _ => false

/-- Structural equality of item lists. -/
def sameItems : List Json → List Json → Bool
  | [], [] => true
  | a :: as, b :: bs => same a b && sameItems as bs
  | _, _ => false

/-- Structural equality of member lists. -/
def sameMembers : List (String × Json) → List (String × Json) → Bool
  | [], [] => true
  | (k, a) :: as, (l, b) :: bs => k == l && same a b && sameMembers as bs
  | _, _ => false

end

mutual

theorem same_iff : ∀ a b : Json, same a b = true ↔ a = b
  | .null, b => by cases b <;> simp [same]
  | .bool _, b => by cases b <;> simp [same]
  | .int _, b => by cases b <;> simp [same]
  | .double _, b => by cases b <;> simp [same]
  | .str _, b => by cases b <;> simp [same]
  | .arr as, b => by
      cases b <;> simp [same, sameItems_iff as]
  | .obj as, b => by
      cases b <;> simp [same, sameMembers_iff as]

theorem sameItems_iff : ∀ as bs : List Json, sameItems as bs = true ↔ as = bs
  | [], bs => by cases bs <;> simp [sameItems]
  | a :: as, bs => by
      cases bs <;> simp [sameItems, same_iff a, sameItems_iff as]

theorem sameMembers_iff :
    ∀ as bs : List (String × Json), sameMembers as bs = true ↔ as = bs
  | [], bs => by cases bs <;> simp [sameMembers]
  | (k, a) :: as, bs => by
      cases bs with
      | nil => simp [sameMembers]
      | cons head tail =>
          obtain ⟨l, b⟩ := head
          simp [sameMembers, same_iff a, sameMembers_iff as, and_assoc]

end

instance : DecidableEq Json := fun a b =>
  decidable_of_iff (same a b = true) (same_iff a b)

/-- Put a member at its place in the order of keys; a key that is there already
takes the new value. -/
def insertMember (key : String) (value : Json) :
    List (String × Json) → List (String × Json)
  | [] => [(key, value)]
  | (k, v) :: rest =>
      if key = k then
        (key, value) :: rest
      else if key < k then
        (key, value) :: (k, v) :: rest
      else
        (k, v) :: insertMember key value rest

/-- Members in the order of their keys, the last of a repeated key kept. -/
def orderMembers (members : List (String × Json)) : List (String × Json) :=
  members.foldl (fun done member => insertMember member.1 member.2 done) []

/-- The object with the given members, in the order of their keys. -/
def record (members : List (String × Json)) : Json := .obj (orderMembers members)

/-- The value of a member, of an object. -/
def member? (key : String) : Json → Option Json
  | .obj members => (members.find? (·.1 == key)).map (·.2)
  | _ => none

/-- The item at a position, of an array. -/
def item? (index : Nat) : Json → Option Json
  | .arr items => items[index]?
  | _ => none

/-- The value at the end of a path of keys. -/
def at? : List String → Json → Option Json
  | [], value => some value
  | key :: path, value => (value.member? key).bind (at? path)

/-- The text, of a string. -/
def text? : Json → Option String
  | .str text => some text
  | _ => none

/-- The integer, of an integer. -/
def int? : Json → Option Int
  | .int value => some value
  | _ => none

/-- The truth value, of a truth value. -/
def bool? : Json → Option Bool
  | .bool value => some value
  | _ => none

/-- The items, of an array. -/
def items? : Json → Option (List Json)
  | .arr items => some items
  | _ => none

/-- The members, of an object. -/
def members? : Json → Option (List (String × Json))
  | .obj members => some members
  | _ => none

/-- Whether the value is `null`. -/
def isNull : Json → Bool
  | .null => true
  | _ => false

/-- Whether the value is an object. -/
def isObject : Json → Bool
  | .obj _ => true
  | _ => false

/-- The text of a member. -/
def textAt (value : Json) (key : String) : String := ((value.member? key).bind text?).getD ""

/-- The text of a member that may be `null`. -/
def textAt? (value : Json) (key : String) : Option String := (value.member? key).bind text?

/-- The number of a member. -/
def naturalAt (value : Json) (key : String) : Nat :=
  (((value.member? key).bind int?).getD 0).toNat

/-- The truth value of a member. -/
def truthAt (value : Json) (key : String) : Bool := ((value.member? key).bind bool?).getD false

/-- The double of a member. -/
def doubleAt (value : Json) (key : String) : Double :=
  match value.member? key with
  | some (.double number) => number
  | _ => .ofFloat 0.0

/-- The value of a member, or `null`. -/
def memberAt (value : Json) (key : String) : Json := (value.member? key).getD .null

/-- A text or `null`. -/
def ofText? : Option String → Json
  | some text => .str text
  | none => .null

/-- The number of either kind, as a machine number. -/
def float? : Json → Option Float
  | .int value => some (Float.ofInt value)
  | .double value => some value.toFloat
  | _ => none

end Json

end Runbook
