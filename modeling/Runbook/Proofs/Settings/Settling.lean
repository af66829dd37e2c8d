import Mathlib.Data.List.Basic
import Runbook.Proofs.Results
import Runbook.Settings.Typing

namespace Runbook

/-!
# What settles

An entry settles as a value of a shape: single values as what is wanted, lists item by item,
and tables field by field, where a field that is not in the table has its default.  Settings
are read with more than enough fuel, so what they are read as is what the entry settles as.
-/

open Json (Shape)

namespace Json.Shape

mutual

/-- How deep the fields of a shape lie, counted along the fields before them. -/
def depth : Shape → Nat
  | .optional inner => 1 + depth inner
  | .list inner => 1 + depth inner
  | .record _ fields => 1 + depthOfFields fields
  | _ => 1

/-- How deep fields lie. -/
def depthOfFields : List (String × Shape × Option Json) → Nat
  | [] => 0
  | (_, shape, _) :: rest => 1 + max (depth shape) (depthOfFields rest)

end

end Json.Shape

namespace Entry

mutual

/-- What an entry settles as where a shape is wanted. -/
inductive Settles : Shape → Entry → Json → Prop where
  | text
      {entry : Entry}
      {content : String}
      (isRead : entry.asText = .ok content) :
      Settles .text entry (.str content)
  | path
      {entry : Entry}
      {content : String}
      (isRead : entry.asText = .ok content) :
      Settles .path entry (.str content)
  | truth
      {entry : Entry}
      {value : Bool}
      (isRead : entry.asTruth = .ok value) :
      Settles .truth entry (.bool value)
  | unsigned
      {bound number : Nat}
      {name : String}
      {entry : Entry}
      (isRead : entry.asBounded bound = .ok number) :
      Settles (.unsigned bound name) entry (.int number)
  | real
      {entry : Entry}
      {number : Double}
      (isRead : entry.asReal = .ok number) :
      Settles .real entry (.double number)
  | nothing
      {inner : Shape}
      {origin : Option String} :
      Settles (.optional inner) (.scalar .nothing origin) .null
  | something
      {inner : Shape}
      {entry : Entry}
      {value : Json}
      (isThere : ∀ origin, entry ≠ .scalar .nothing origin)
      (settles : Settles inner entry value) :
      Settles (.optional inner) entry value
  | list
      {inner : Shape}
      {items : List Entry}
      {values : List Json}
      {origin : Option String}
      (settle : SettlesItems inner items values) :
      Settles (.list inner) (.list items origin) (.arr values)
  /-- The fields of a record take the items of a list in order. -/
  | positions
      {name : String}
      {fields : List (String × Shape × Option Json)}
      {items : List Entry}
      {values : List (String × Json)}
      {origin : Option String}
      (settle : SettlesPositions fields items values) :
      Settles (.record name fields) (.list items origin) (.obj values)
  /-- The fields of a record take the members of a table by name. -/
  | members
      {name : String}
      {fields : List (String × Shape × Option Json)}
      {members : List (String × Entry)}
      {values : List (String × Json)}
      {origin : Option String}
      (settle : SettlesMembers fields members values) :
      Settles (.record name fields) (.table members origin) (.obj values)

/-- What the items of a list settle as. -/
inductive SettlesItems : Shape → List Entry → List Json → Prop where
  | nil
      {inner : Shape} :
      SettlesItems inner [] []
  | cons
      {inner : Shape}
      {item : Entry}
      {items : List Entry}
      {value : Json}
      {values : List Json}
      (settles : Settles inner item value)
      (settle : SettlesItems inner items values) :
      SettlesItems inner (item :: items) (value :: values)

/-- What fields settle as that take items in order. -/
inductive SettlesPositions : List (String × Shape × Option Json) → List Entry →
    List (String × Json) → Prop where
  | nil
      {items : List Entry} :
      SettlesPositions [] items []
  | absent
      {field : String}
      {shape : Shape}
      {default? : Option Json}
      {fields : List (String × Shape × Option Json)}
      {values : List (String × Json)}
      (settle : SettlesPositions fields [] values) :
      SettlesPositions ((field, shape, default?) :: fields) []
        ((field, default?.getD .null) :: values)
  | present
      {field : String}
      {shape : Shape}
      {default? : Option Json}
      {fields : List (String × Shape × Option Json)}
      {item : Entry}
      {items : List Entry}
      {value : Json}
      {values : List (String × Json)}
      (settles : Settles shape item value)
      (settle : SettlesPositions fields items values) :
      SettlesPositions ((field, shape, default?) :: fields) (item :: items)
        ((field, value) :: values)

/-- What fields settle as that take members by name. -/
inductive SettlesMembers : List (String × Shape × Option Json) → List (String × Entry) →
    List (String × Json) → Prop where
  | nil
      {members : List (String × Entry)} :
      SettlesMembers [] members []
  | absent
      {field : String}
      {shape : Shape}
      {default? : Option Json}
      {fields : List (String × Shape × Option Json)}
      {members : List (String × Entry)}
      {values : List (String × Json)}
      (isAbsent : get? members field = none)
      (settle : SettlesMembers fields members values) :
      SettlesMembers ((field, shape, default?) :: fields) members
        ((field, default?.getD .null) :: values)
  | present
      {field : String}
      {shape : Shape}
      {default? : Option Json}
      {fields : List (String × Shape × Option Json)}
      {members : List (String × Entry)}
      {entry : Entry}
      {value : Json}
      {values : List (String × Json)}
      (isPresent : get? members field = some entry)
      (settles : Settles shape entry value)
      (settle : SettlesMembers fields members values) :
      SettlesMembers ((field, shape, default?) :: fields) members ((field, value) :: values)

end

/-! ## Fuel -/

theorem eq_ok_of_located
    {α : Type}
    {result : Except SettingsFlaw α}
    {place : SettingsFlaw → SettingsFlaw}
    {value : α}
    (isOk : located result place = .ok value) :
    result = .ok value := by
  cases result with
  | error flaw => cases isOk
  | ok first => exact isOk

theorem weight_lt_of_get?
    {members : List (String × Entry)}
    {name : String}
    {entry : Entry}
    (isThere : get? members name = some entry) :
    weight entry < weightMembers members := by
  induction members with
  | nil =>
      cases isThere
  | cons member rest inductionHypothesis =>
      obtain ⟨first, old⟩ := member
      rw [weightMembers]
      by_cases isFirst : first = name
      · have isOld : old = entry := by
          simpa [get?, isFirst] using isThere
        subst isOld
        omega
      · have isLater : get? rest name = some entry := by
          simpa [get?, isFirst] using isThere
        have := inductionHypothesis isLater
        omega

theorem depth_pos (shape : Shape) : 0 < shape.depth := by
  cases shape <;> simp only [Shape.depth] <;> omega

mutual

/-- With enough fuel, an entry is read as what it settles as. -/
theorem settles_of_settle
    (shape : Shape)
    (entry : Entry)
    (fuel : Nat)
    {value : Json}
    (enough : shape.depth + entry.weight ≤ fuel)
    (isRead : settle shape entry fuel = .ok value) :
    Settles shape entry value :=
  match fuel with
  | 0 => by
      have := depth_pos shape
      omega
  | fuel + 1 => by
      rw [settle.eq_def] at isRead
      dsimp only at isRead
      split at isRead
      · obtain ⟨content, isText, rfl⟩ := exists_of_map isRead
        exact .text isText
      · obtain ⟨content, isText, rfl⟩ := exists_of_map isRead
        exact .path isText
      · obtain ⟨content, isTruth, rfl⟩ := exists_of_map isRead
        exact .truth isTruth
      · obtain ⟨_, isWhole, rfl⟩ := exists_of_map isRead
        obtain ⟨number, isNumber, isSame⟩ := exists_of_bind isWhole
        cases isSame
        exact .unsigned isNumber
      · obtain ⟨number, isNumber, rfl⟩ := exists_of_map isRead
        exact .real isNumber
      · cases isRead
        exact .nothing
      · next inner notNothing =>
          rw [Shape.depth] at enough
          refine .something ?_ (settles_of_settle inner entry fuel (by omega) isRead)
          rintro origin rfl
          exact notNothing origin rfl
      · next inner items origin =>
          obtain ⟨values, isItems, rfl⟩ := exists_of_map isRead
          rw [Shape.depth, weight] at enough
          exact .list (settlesItems_of_settleItems inner 0 items fuel (by omega) isItems)
      · next name fields items origin =>
          obtain ⟨values, isItems, rfl⟩ := exists_of_map isRead
          rw [Shape.depth, weight] at enough
          exact .positions
            (settlesPositions_of_settlePositions fields 0 items fuel (by omega) isItems)
      · next name fields members origin =>
          obtain ⟨values, isMembers, rfl⟩ := exists_of_map isRead
          rw [Shape.depth, weight] at enough
          exact .members (settlesMembers_of_settleMembers fields members fuel (by omega) isMembers)
      · cases isRead

theorem settlesItems_of_settleItems
    (inner : Shape)
    (index : Nat)
    (items : List Entry)
    (fuel : Nat)
    {values : List Json}
    (enough : inner.depth + weightItems items ≤ fuel)
    (isRead : settleItems inner index items fuel = .ok values) :
    SettlesItems inner items values :=
  match items, fuel with
  | [], _ => by
      rw [settleItems.eq_def] at isRead
      cases isRead
      exact .nil
  | item :: items, 0 => by
      have := depth_pos inner
      omega
  | item :: items, fuel + 1 => by
      rw [settleItems.eq_def] at isRead
      obtain ⟨value, isValue, isRest⟩ := exists_of_bind isRead
      obtain ⟨values, isValues, isWhole⟩ := exists_of_bind isRest
      cases isWhole
      rw [weightItems] at enough
      exact .cons (settles_of_settle inner item fuel (by omega) (eq_ok_of_located isValue))
        (settlesItems_of_settleItems inner (index + 1) items fuel (by omega) isValues)

theorem settlesPositions_of_settlePositions
    (fields : List (String × Shape × Option Json))
    (index : Nat)
    (items : List Entry)
    (fuel : Nat)
    {values : List (String × Json)}
    (enough : Shape.depthOfFields fields + weightItems items ≤ fuel)
    (isRead : settlePositions fields index items fuel = .ok values) :
    SettlesPositions fields items values :=
  match fields, items, fuel with
  | [], _, _ => by
      rw [settlePositions.eq_def] at isRead
      cases isRead
      exact .nil
  | _ :: _, _, 0 => by
      rw [Shape.depthOfFields] at enough
      omega
  | (field, shape, default?) :: fields, [], fuel + 1 => by
      rw [settlePositions.eq_def] at isRead
      obtain ⟨values, isValues, isWhole⟩ := exists_of_bind isRead
      cases isWhole
      rw [Shape.depthOfFields] at enough
      exact .absent (settlesPositions_of_settlePositions fields index [] fuel (by omega) isValues)
  | (field, shape, default?) :: fields, item :: items, fuel + 1 => by
      rw [settlePositions.eq_def] at isRead
      obtain ⟨value, isValue, isRest⟩ := exists_of_bind isRead
      obtain ⟨values, isValues, isWhole⟩ := exists_of_bind isRest
      cases isWhole
      rw [Shape.depthOfFields, weightItems] at enough
      exact .present (settles_of_settle shape item fuel (by omega) (eq_ok_of_located isValue))
        (settlesPositions_of_settlePositions fields (index + 1) items fuel (by omega) isValues)

theorem settlesMembers_of_settleMembers
    (fields : List (String × Shape × Option Json))
    (members : List (String × Entry))
    (fuel : Nat)
    {values : List (String × Json)}
    (enough : Shape.depthOfFields fields + weightMembers members ≤ fuel)
    (isRead : settleMembers fields members fuel = .ok values) :
    SettlesMembers fields members values :=
  match fields, fuel with
  | [], _ => by
      rw [settleMembers.eq_def] at isRead
      cases isRead
      exact .nil
  | _ :: _, 0 => by
      rw [Shape.depthOfFields] at enough
      omega
  | (field, shape, default?) :: fields, fuel + 1 => by
      rw [settleMembers.eq_def] at isRead
      dsimp only at isRead
      rw [Shape.depthOfFields] at enough
      cases isThere : get? members field with
      | none =>
          rw [isThere] at isRead
          obtain ⟨value, isValue, isRest⟩ := exists_of_bind isRead
          obtain ⟨values, isValues, isWhole⟩ := exists_of_bind isRest
          cases isValue
          cases isWhole
          exact .absent isThere
            (settlesMembers_of_settleMembers fields members fuel (by omega) isValues)
      | some entry =>
          rw [isThere] at isRead
          obtain ⟨value, isValue, isRest⟩ := exists_of_bind isRead
          obtain ⟨values, isValues, isWhole⟩ := exists_of_bind isRest
          cases isWhole
          have := weight_lt_of_get? isThere
          exact .present isThere
            (settles_of_settle shape entry fuel (by omega) (eq_ok_of_located isValue))
            (settlesMembers_of_settleMembers fields members fuel (by omega) isValues)

end

end Entry

end Runbook
