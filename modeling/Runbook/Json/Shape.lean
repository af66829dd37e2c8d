import Runbook.Json.Reader

namespace Runbook.Json

/-!
# Shapes

A shape says what a value must look like: a string, a number within a range, a
list, a record with named fields.  Reading against a shape yields the value in
full form, with every field of a record present, in the order of declaration,
and absent ones at their defaults; or it says what does not fit.

There are two readings with one meaning: `Shape.read` goes along a text and
knows the place of a misfit, `Shape.check` looks at a value that is already
there and knows no place.
-/

/-- What a value must look like. -/
inductive Shape where
  /-- Any value. -/
  | any
  /-- A string. -/
  | text
  /-- A string that names a file. -/
  | path
  /-- A truth value. -/
  | truth
  /-- An unsigned integer below a bound; the name is for complaints. -/
  | unsigned (bound : Nat) (name : String)
  /-- A signed 64-bit integer. -/
  | signed
  /-- A double; integers count as doubles too. -/
  | real
  /-- A value or `null`. -/
  | optional (inner : Shape)
  /-- An array. -/
  | list (inner : Shape)
  /-- An object with any keys. -/
  | table (inner : Shape)
  /-- One of several names. -/
  | variant (names : List String)
  /-- One of several names, or an object whose only key is one of them, at `null`. -/
  | choice (names : List String)
  /-- An object with the given fields, or an array of them in order; a field
  without a default must be present. -/
  | record (name : String) (fields : List (String × Shape × Option Json))
  deriving Inhabited

namespace Shape

/-- Unsigned 16-bit integers. -/
def u16 : Shape := .unsigned 65536 "u16"

/-- Unsigned 32-bit integers. -/
def u32 : Shape := .unsigned 4294967296 "u32"

/-- Unsigned 64-bit integers. -/
def u64 : Shape := .unsigned 18446744073709551616 "u64"

/-- Sizes. -/
def size : Shape := .unsigned 18446744073709551616 "usize"

/-- A record whose fields may all be left out; `defaults` holds what they are then. -/
def withDefaults (name : String) (defaults : Json) (fields : List (String × Shape)) : Shape :=
  .record name (fields.map fun field => (field.1, field.2, some (defaults.memberAt field.1)))

/-- What a complaint says was expected. -/
def expected : Shape → String
  | .any => "any valid JSON value"
  | .text => "a string"
  | .path => "path string"
  | .truth => "a boolean"
  | .unsigned _ name => name
  | .signed => "i64"
  | .real => "f64"
  | .optional inner => inner.expected
  | .list _ => "a sequence"
  | .table _ => "a map"
  | .variant _ => "variant identifier"
  | .choice _ => "string or map"
  | .record name _ => name

/-- A count of things, in words. -/
def counted (count : Nat) (one many : String) : String :=
  toString count ++ " " ++ (if count = 1 then one else many)

/-- What a complaint about a record with too few items says was expected. -/
def expectedItems (name : String) (fields : Nat) : String :=
  name ++ " with " ++ counted fields "element" "elements"

/-- The complaint that a value is not of a shape. -/
def misfit (shape : Shape) (value : Json) : Complaint :=
  ⟨.invalidType (found value) shape.expected, none⟩

/-- A name that must be one of several. -/
def checkName (names : List String) (chosen : String) : Except Complaint Json :=
  if chosen ∈ names then .ok (.str chosen)
  else .error ⟨.unknownVariant chosen names, none⟩

/-- A choice that is written as an object. -/
def checkChoice (names : List String) : List (String × Json) → Except Complaint Json
  | [(chosen, value)] => do
      let name ← checkName names chosen
      if value.isNull then return name
      else throw ⟨.invalidType (found value) "unit", none⟩
  | _ => .error ⟨.invalidValue .record "map with a single key", none⟩

/-- A value that is looked at as a whole. -/
def checkLeaf (shape : Shape) (value : Json) : Except Complaint Json :=
  match shape, value with
  | .any, value => .ok value
  | .text, .str content => .ok (.str content)
  | .path, .str content => .ok (.str content)
  | .truth, .bool value => .ok (.bool value)
  | .unsigned bound name, .int value =>
      if 0 ≤ value ∧ value < bound then .ok (.int value)
      else .error ⟨.invalidValue (.whole value) name, none⟩
  | .signed, .int value =>
      if value ≤ 9223372036854775807 then .ok (.int value)
      else .error ⟨.invalidValue (.whole value) "i64", none⟩
  | .real, .int value => .ok (.double (.ofFloat (Float.ofInt value)))
  | .real, .double value => .ok (.double value)
  | .variant names, .str chosen => checkName names chosen
  | .choice names, .str chosen => checkName names chosen
  | .choice names, .obj members => checkChoice names members
  | shape, value => .error (misfit shape value)

/-- How a record treats items beyond its fields: by the words of the complaint. -/
inductive Surplus where
  /-- The value stands alone. -/
  | fewerElements
  /-- The value was set aside while its tag was looked for. -/
  | elementsInSequence
  deriving DecidableEq

/-- The complaint about items beyond the fields of a record. -/
def Surplus.complaint (surplus : Surplus) (fields count : Nat) : Complaint :=
  match surplus with
  | .fewerElements => ⟨.invalidLength count "fewer elements in array", none⟩
  | .elementsInSequence =>
      ⟨.invalidLength count (counted fields "element in sequence" "elements in sequence"), none⟩

/-- The defaults of the fields that a record leaves out, in full form. -/
def absent (name : String) (fields : Nat) (index : Nat) :
    List (String × Shape × Option Json) → Except Complaint (List (String × Json))
  | [] => .ok []
  | (field, _, default?) :: rest =>
      match default? with
      | none => .error ⟨.invalidLength index (expectedItems name fields), none⟩
      | some value => do return (field, value) :: (← absent name fields (index + 1) rest)

/-- The value that a field has: the one given, `null` for an optional field, or
its default. -/
def settle (field : String) (shape : Shape) (default? : Option Json)
    (given : Option Json) : Except Complaint (String × Json) :=
  match given, default?, shape with
  | some value, _, _ => .ok (field, value)
  | none, some value, _ => .ok (field, value)
  | none, none, .optional _ => .ok (field, .null)
  | none, none, _ => .error ⟨.missingField field, none⟩

/-- The fields of a record from the members that were given. -/
def settleAll (given : List (String × Json)) :
    List (String × Shape × Option Json) → Except Complaint (List (String × Json))
  | [] => .ok []
  | (field, shape, default?) :: rest => do
      let value ← settle field shape default? ((given.find? (·.1 == field)).map (·.2))
      return value :: (← settleAll given rest)

mutual

/-- Check a value against a shape. -/
def check (surplus : Surplus) (shape : Shape) (value : Json) : (fuel : Nat) →
    Except Complaint Json
  | 0 => .error (misfit shape value)
  | fuel + 1 =>
      match shape, value with
      | .any, value => .ok (normal value)
      | .optional _, .null => .ok .null
      | .optional inner, value => check surplus inner value fuel
      | .list inner, .arr items => do
          return .arr (← checkItems surplus inner items fuel)
      | .table inner, .obj members => do
          return Json.record (← checkTable surplus inner members fuel)
      | .record name fields, .arr items => do
          let values ← checkPositions surplus name fields.length 0 fields items fuel
          if fields.length < items.length then
            throw (surplus.complaint fields.length items.length)
          return .obj values
      | .record _ fields, .obj members => do
          let given ← checkMembers surplus fields [] members fuel
          return .obj (← settleAll given fields)
      | shape, value => checkLeaf shape value

/-- Check every item of a list. -/
def checkItems (surplus : Surplus) (inner : Shape) : List Json → (fuel : Nat) →
    Except Complaint (List Json)
  | [], _ => .ok []
  | _ :: _, 0 => .ok []
  | item :: rest, fuel + 1 => do
      return (← check surplus inner item fuel) :: (← checkItems surplus inner rest fuel)

/-- Check every member of a table. -/
def checkTable (surplus : Surplus) (inner : Shape) : List (String × Json) → (fuel : Nat) →
    Except Complaint (List (String × Json))
  | [], _ => .ok []
  | _ :: _, 0 => .ok []
  | (key, item) :: rest, fuel + 1 => do
      return (key, ← check surplus inner item fuel) :: (← checkTable surplus inner rest fuel)

/-- Check the items of a record that is written as an array. -/
def checkPositions (surplus : Surplus) (name : String) (count index : Nat) :
    List (String × Shape × Option Json) → List Json → (fuel : Nat) →
    Except Complaint (List (String × Json))
  | fields, [], _ => absent name count index fields
  | [], _ :: _, _ => .ok []
  | _ :: _, _ :: _, 0 => .ok []
  | (field, shape, _) :: fields, item :: items, fuel + 1 => do
      let value ← check surplus shape item fuel
      return (field, value) :: (← checkPositions surplus name count (index + 1) fields items fuel)

/-- Check the members of a record: a known field at most once, others passed over. -/
def checkMembers (surplus : Surplus) (fields : List (String × Shape × Option Json))
    (given : List (String × Json)) : List (String × Json) → (fuel : Nat) →
    Except Complaint (List (String × Json))
  | [], _ => .ok given
  | _ :: _, 0 => .ok given
  | (key, item) :: rest, fuel + 1 =>
      match fields.find? (·.1 == key) with
      | none => checkMembers surplus fields given rest fuel
      | some (_, shape, _) => do
          if given.any (·.1 == key) then throw ⟨.duplicateField key, none⟩
          let value ← check surplus shape item fuel
          checkMembers surplus fields ((key, value) :: given) rest fuel

end

mutual

/-- The size of a value: how many values and members it is made of. -/
def weight : Json → Nat
  | .arr items => 2 + weightItems items
  | .obj members => 2 + weightMembers members
  | .null => 1
  | .bool _ => 1
  | .int _ => 1
  | .double _ => 1
  | .str _ => 1

/-- The size of items together. -/
def weightItems : List Json → Nat
  | [] => 0
  | item :: rest => 2 + weight item + weightItems rest

/-- The size of members together. -/
def weightMembers : List (String × Json) → Nat
  | [] => 0
  | (_, value) :: rest => 2 + weight value + weightMembers rest

end

/-- How deep shapes nest. -/
def checkFuel (value : Json) : Nat := 4 * weight value + 64

/-- A value that stands alone, in the full form of a shape. -/
def ofValue (shape : Shape) (value : Json) : Except Complaint Json :=
  check .fewerElements shape value (checkFuel value)

open Reader

/-- Give a complaint without a place the place where the cursor stands. -/
def located {α : Type} (result : Except Complaint α) : Reader α := do
  match result with
  | .ok value => return value
  | .error complaint => throw (complaint.orAt (← get).place)

/-- Read a value that stands alone, or complain about what is ahead instead. -/
def readLeaf (shape : Shape) (c : Char) (fuel : Nat) : Reader Json := do
  if c = '[' then located (.error ⟨.invalidType .list shape.expected, none⟩)
  else if c = Char.ofNat 0x7B then
    located (.error ⟨.invalidType .record shape.expected, none⟩)
  else
    let value ← Reader.value 0 fuel
    located (checkLeaf shape value)

mutual

/-- Read a value of a shape. -/
def read (depth : Nat) (shape : Shape) : (fuel : Nat) → Reader Json
  | 0 => failHere .endInValue
  | fuel + 1 => do
      match ← skipGaps with
      | none => failHere .endInValue
      | some c =>
          match shape with
          | .any => return normal (← Reader.value depth fuel)
          | .optional inner =>
              if c = 'n' then Reader.value depth fuel else read depth inner fuel
          | .list inner =>
              if c = '[' then
                let depth ← deeper depth
                skip
                let items ← readItems depth inner true fuel
                endList
                return .arr items
              else readLeaf (.list inner) c fuel
          | .table inner =>
              if c = Char.ofNat 0x7B then
                let depth ← deeper depth
                skip
                let members ← readTable depth inner true fuel
                endObject
                return Json.record members
              else readLeaf (.table inner) c fuel
          | .record name fields =>
              if c = '[' then
                let depth ← deeper depth
                skip
                let values ← readPositions depth name fields.length 0 fields fuel
                endList
                return .obj values
              else if c = Char.ofNat 0x7B then
                let depth ← deeper depth
                skip
                let given ← readMembers depth fields true [] fuel
                endObject
                located (do return .obj (← settleAll given fields))
              else readLeaf (.record name fields) c fuel
          | .choice names => located (checkLeaf (.choice names) (← Reader.value depth fuel))
          | shape => readLeaf shape c fuel
termination_by structural fuel => fuel

/-- Read the items of a list. -/
def readItems (depth : Nat) (inner : Shape) (first : Bool) : (fuel : Nat) → Reader (List Json)
  | 0 => failHere .endInList
  | fuel + 1 => do
      if ← itemAhead first then
        let item ← read depth inner fuel
        return item :: (← readItems depth inner false fuel)
      else return []
termination_by structural fuel => fuel

/-- Read the members of a table. -/
def readTable (depth : Nat) (inner : Shape) (first : Bool) : (fuel : Nat) →
    Reader (List (String × Json))
  | 0 => failHere .endInObject
  | fuel + 1 => do
      if ← keyAhead first then
        let key ← string
        colon
        let item ← read depth inner fuel
        return (key, item) :: (← readTable depth inner false fuel)
      else return []
termination_by structural fuel => fuel

/-- Read the items of a record that is written as an array. -/
def readPositions (depth : Nat) (name : String) (count index : Nat) :
    List (String × Shape × Option Json) → (fuel : Nat) → Reader (List (String × Json))
  | [], _ => return []
  | _ :: _, 0 => failHere .endInList
  | (field, shape, default?) :: fields, fuel + 1 => do
      if ← itemAhead (index == 0) then
        let value ← read depth shape fuel
        return (field, value) :: (← readPositions depth name count (index + 1) fields fuel)
      else
        match absent name count index ((field, shape, default?) :: fields) with
        | .ok values => return values
        | .error complaint =>
            endList
            located (.error complaint)
termination_by structural _ fuel => fuel

/-- Read the members of a record: a known field at most once, others passed over. -/
def readMembers (depth : Nat) (fields : List (String × Shape × Option Json)) (first : Bool)
    (given : List (String × Json)) : (fuel : Nat) → Reader (List (String × Json))
  | 0 => failHere .endInObject
  | fuel + 1 => do
      if ← keyAhead first then
        let key ← string
        match fields.find? (·.1 == key) with
        | none =>
            colon
            ignore fuel
            readMembers depth fields false given fuel
        | some (_, shape, _) =>
            if given.any (·.1 == key) then
              let ahead ← skipGaps
              if ahead = some (Char.ofNat 0x7D) then skip
              located (.error ⟨.duplicateField key, none⟩)
            else
              colon
              let value ← read depth shape fuel
              readMembers depth fields false ((key, value) :: given) fuel
      else return given
termination_by structural fuel => fuel

end

/-- The value that a text writes, in the full form of a shape. -/
def ofText (shape : Shape) (text : String) : Except Complaint Json :=
  Reader.run (read 0 shape) text

end Shape

end Runbook.Json
