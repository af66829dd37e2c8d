import Runbook.Proofs.Json.Passing

namespace Runbook.Json

/-!
# Reading fields out of what was written

Whoever wants some of the fields of records that were written reads them against a shape.  The
fields that the shape has are read, and whatever else a record holds is stepped over.
-/

open Reader

/-! ## What is ahead -/

section Ahead

variable {text gaps tail : List Char} {c : Char} {first : Bool}

/-- What stands in front of an item or a key: only what comes first has no comma in front. -/
inductive Leads : Bool → List Char → Prop where
  | first {gaps : List Char} (areGaps : AreGaps gaps) : Leads true gaps
  | more {gaps : List Char} (areGaps : AreGaps gaps) : Leads false (',' :: gaps)

theorem passes_itemAhead
    (leads : Leads first text)
    (isNext : tail.head? = some c)
    (notGap : isGap c = false)
    (notEnd : c ≠ ']') :
    (itemAhead first).Passes text tail true := by
  rw [itemAhead]
  cases leads with
  | first areGaps =>
      refine .overGaps areGaps isNext notGap ?_
      simp only [notEnd, if_false, if_true]
      exact passes_pure
  | more areGaps =>
      refine .lookAhead rfl rfl (.skip (.overGaps areGaps isNext notGap ?_))
      split
      · next isNone => cases isNone
      · next isEnd => exact absurd (Option.some.inj isEnd) notEnd
      · exact passes_pure

theorem passes_itemAhead_end
    (areGaps : AreGaps gaps) :
    (itemAhead first).Passes gaps (']' :: tail) false :=
  .overGaps areGaps rfl rfl passes_pure

theorem passes_keyAhead
    (leads : Leads first text) :
    (keyAhead first).Passes text ('"' :: tail) true := by
  rw [keyAhead]
  cases leads with
  | first areGaps => exact .overGaps areGaps rfl rfl passes_pure
  | more areGaps => exact .lookAhead rfl rfl (.skip (.overGaps areGaps rfl rfl passes_pure))

theorem passes_keyAhead_end
    (areGaps : AreGaps gaps) :
    (keyAhead first).Passes gaps ('\x7d' :: tail) false :=
  .overGaps areGaps rfl rfl passes_pure

theorem passes_deeper
    {level : Nat}
    (isShallow : level + 1 < depthLimit) :
    (deeper level).Passes [] tail (level + 1) := by
  rw [deeper, if_neg (Nat.not_le_of_lt isShallow)]
  exact passes_pure

end Ahead

/-! ## Shapes -/

namespace Shape

variable {inner shape : Shape} {level depth outer fuel : Nat} {gaps tail : List Char}

/-- A value that is written is read against a shape, wherever it stands. -/
def ReadsAs (shape : Shape) (level : Nat) (written result : Json) : Prop :=
  ∀ ⦃gaps tail : List Char⦄ (depth fuel : Nat), AreGaps gaps → EndsNumber tail →
    (prettyFrom depth written).toList.length + 8 ≤ fuel →
      (Shape.read level shape fuel).Passes (gaps ++ (prettyFrom depth written).toList) tail result

/-- A string is read as it is. -/
theorem readsAs_text (text : String) : ReadsAs .text level (.str text) (.str text) := by
  intro gaps tail depth fuel areGaps ends isEnough
  obtain ⟨fuel, rfl⟩ := Nat.exists_eq_add_of_le' (show 2 ≤ fuel by omega)
  have isRead := @passes_string tail text
  rw [prettyFrom]
  rw [toList_quote] at isRead ⊢
  have isValue :
      (Reader.value 0 (fuel + 1)).Passes ('"' :: (text.toList.flatMap escape ++ ['"'])) tail
        (.str text) := by
    rw [Reader.value]
    exact .lookAhead rfl rfl (.last isRead passes_pure)
  rw [Shape.read]
  exact .skipGaps areGaps rfl rfl (.last isValue passes_pure)

theorem endsNumber_items (depth outer : Nat) (items : List Json) :
    EndsNumber ((prettyItems depth items).toList ++ (newline outer).toList ++ tail) := by
  cases items with
  | nil =>
      rw [prettyItems]
      exact endsNumber_newline outer
  | cons item rest =>
      rw [toList_prettyItems]
      exact endsNumber_comma

theorem endsNumber_members (depth outer : Nat) (members : List (String × Json)) :
    EndsNumber ((prettyMembers depth members).toList ++ (newline outer).toList ++ tail) := by
  cases members with
  | nil =>
      rw [prettyMembers]
      exact endsNumber_newline outer
  | cons member rest =>
      rw [toList_prettyMembers]
      exact endsNumber_comma

/-- An item is read, and then the items that follow. -/
theorem passes_readItems_cons
    {item result : Json}
    {results : List Json}
    {first : Bool}
    {lead text : List Char}
    (reads : inner.ReadsAs level item result)
    (leads : Leads first lead)
    (ends : EndsNumber (text ++ tail))
    (isEnough : (prettyFrom depth item).toList.length + 8 ≤ fuel)
    (goesOn : (readItems level inner false fuel).Passes text tail results) :
    (Shape.readItems level inner first (fuel + 1)).Passes
      (lead ++ ((prettyFrom depth item).toList ++ text)) tail (result :: results) := by
  obtain ⟨c, rest, isItem, notGap, notEnd⟩ := begins_prettyFrom depth item
  have isNext : ((prettyFrom depth item).toList ++ text ++ tail).head? = some c := by
    rw [isItem]
    rfl
  have isRead := @reads [] _ depth fuel nofun ends isEnough
  rw [Shape.readItems]
  exact .bind (passes_itemAhead leads isNext notGap notEnd)
    (.bind isRead (.last goesOn passes_pure))

theorem passes_readItems
    {items results : List Json}
    (reads : List.Forall₂ (inner.ReadsAs level) items results)
    (depth outer : Nat)
    (isEnough : (prettyItems depth items).toList.length + 8 ≤ fuel) :
    (readItems level inner false fuel).Passes
      ((prettyItems depth items).toList ++ (newline outer).toList) (']' :: tail) results := by
  induction reads generalizing fuel with
  | nil =>
      obtain ⟨fuel, rfl⟩ := Nat.exists_eq_add_of_le' (show 1 ≤ fuel by omega)
      rw [Shape.readItems, prettyItems]
      exact .last (passes_itemAhead_end (areGaps_newline outer)) passes_pure
  | @cons item result items results isRead _ inductionHypothesis =>
      rw [toList_prettyItems] at isEnough ⊢
      simp only [List.length_cons, List.length_append] at isEnough
      obtain ⟨fuel, rfl⟩ := Nat.exists_eq_add_of_le' (show 1 ≤ fuel by omega)
      have goesOn := @inductionHypothesis fuel (by omega)
      have isLong : (prettyFrom depth item).toList.length + 8 ≤ fuel := by omega
      have passed := passes_readItems_cons isRead (.more (areGaps_newline depth))
        (endsNumber_items depth outer items) isLong goesOn
      simpa using passed

/-- A list is read, if each of its items is. -/
theorem readsAs_list
    {items results : List Json}
    (isShallow : level + 1 < depthLimit)
    (reads : List.Forall₂ (inner.ReadsAs (level + 1)) items results) :
    (Shape.list inner).ReadsAs level (.arr items) (.arr results) := by
  intro gaps tail depth fuel areGaps ends isEnough
  have isEnd : endList.Passes [']'] tail () := .lookAhead rfl rfl passes_skip
  cases reads with
  | nil =>
      obtain ⟨fuel, rfl⟩ := Nat.exists_eq_add_of_le' (show 2 ≤ fuel by omega)
      have noItems : (readItems (level + 1) inner true (fuel + 1)).Passes [] (']' :: tail) [] := by
        rw [Shape.readItems]
        exact .last (passes_itemAhead_end nofun) passes_pure
      have isText : "[]".toList = '[' :: ([] ++ [']']) := rfl
      rw [Shape.read, prettyFrom, isText]
      exact .skipGaps areGaps rfl rfl (.bind (passes_deeper isShallow)
        (.skip (.bind noItems (.last isEnd passes_pure))))
  | @cons item result items results isRead areRead =>
      have isText : (prettyFrom depth (.arr (item :: items))).toList =
          '[' :: ((newline (depth + 1)).toList ++ ((prettyFrom (depth + 1) item).toList ++
            ((prettyItems (depth + 1) items).toList ++ (newline depth).toList)) ++ [']']) := by
        simp [toList_prettyFrom_arr]
      rw [isText] at isEnough ⊢
      simp only [List.length_cons, List.length_append] at isEnough
      obtain ⟨fuel, rfl⟩ := Nat.exists_eq_add_of_le' (show 2 ≤ fuel by omega)
      have isLong : (prettyFrom (depth + 1) item).toList.length + 8 ≤ fuel := by omega
      have goesOn := @passes_readItems inner (level + 1) fuel tail items results areRead
        (depth + 1) depth (by omega)
      have areItems := passes_readItems_cons isRead (.first (areGaps_newline (depth + 1)))
        (endsNumber_items (depth + 1) depth items) isLong goesOn
      rw [Shape.read]
      exact .skipGaps areGaps rfl rfl (.bind (passes_deeper isShallow)
        (.skip (.bind areItems (.last isEnd passes_pure))))

/-! ## Records -/

/-- The fields that are read from members one by one: those that a shape has, each once. -/
inductive Picks (fields : List (String × Shape × Option Json)) (level : Nat) :
    List (String × Json) → List (String × Json) → List (String × Json) → Prop where
  | done {given : List (String × Json)} :
      Picks fields level given [] given
  | passedOver {given rest later : List (String × Json)} {key : String} {value : Json}
      (isUnknown : fields.find? (·.1 == key) = none)
      (goesOn : Picks fields level given rest later) :
      Picks fields level given ((key, value) :: rest) later
  | taken {given rest later : List (String × Json)} {key name : String} {value result : Json}
      {shape : Shape} {default? : Option Json}
      (isKnown : fields.find? (·.1 == key) = some (name, shape, default?))
      (isNew : given.any (·.1 == key) = false)
      (reads : shape.ReadsAs level value result)
      (goesOn : Picks fields level ((key, result) :: given) rest later) :
      Picks fields level given ((key, value) :: rest) later

variable {fields : List (String × Shape × Option Json)} {given later : List (String × Json)}
  {members : List (String × Json)}

theorem passes_keyAhead_quote
    {first : Bool}
    {lead : List Char}
    (leads : Leads first lead)
    (key : String) :
    (keyAhead first).Passes lead ((quote key).toList ++ tail) true := by
  rw [toList_quote]
  exact passes_keyAhead leads

/-- A member that the shape does not have is stepped over. -/
theorem passes_readMembers_unknown
    {key : String}
    {value : Json}
    {first : Bool}
    {lead text : List Char}
    (isUnknown : fields.find? (·.1 == key) = none)
    (leads : Leads first lead)
    (ends : EndsNumber (text ++ tail))
    (isEnough : (prettyFrom depth value).toList.length ≤ fuel)
    (goesOn : (readMembers level fields false given fuel).Passes text tail later) :
    (readMembers level fields first given (fuel + 1)).Passes
      (lead ++ (memberText depth key value ++ text)) tail later := by
  have isOver := isSteppedOver value depth fuel areGaps_blank ends isEnough
  rw [Shape.readMembers, memberText_append]
  refine .bind (by rw [List.append_assoc]; exact passes_keyAhead_quote leads key) ?_
  refine .bind (passes_string key) ?_
  rw [isUnknown]
  exact .bind passes_colon (.bind isOver goesOn)

/-- A member that the shape has is read. -/
theorem passes_readMembers_known
    {key name : String}
    {value result : Json}
    {default? : Option Json}
    {first : Bool}
    {lead text : List Char}
    (isKnown : fields.find? (·.1 == key) = some (name, shape, default?))
    (isNew : given.any (·.1 == key) = false)
    (reads : shape.ReadsAs level value result)
    (leads : Leads first lead)
    (ends : EndsNumber (text ++ tail))
    (isEnough : (prettyFrom depth value).toList.length + 8 ≤ fuel)
    (goesOn :
      (readMembers level fields false ((key, result) :: given) fuel).Passes text tail later) :
    (readMembers level fields first given (fuel + 1)).Passes
      (lead ++ (memberText depth key value ++ text)) tail later := by
  have isRead := reads depth fuel areGaps_blank ends isEnough
  rw [Shape.readMembers, memberText_append]
  refine .bind (by rw [List.append_assoc]; exact passes_keyAhead_quote leads key) ?_
  refine .bind (passes_string key) ?_
  simp only [isKnown, isNew]
  exact .bind passes_colon (.bind isRead goesOn)

theorem passes_readMembers
    (picks : Picks fields level given members later)
    (depth outer : Nat)
    (isEnough : (prettyMembers depth members).toList.length + 8 ≤ fuel) :
    (readMembers level fields false given fuel).Passes
      ((prettyMembers depth members).toList ++ (newline outer).toList) ('\x7d' :: tail) later := by
  induction picks generalizing fuel with
  | done =>
      obtain ⟨fuel, rfl⟩ := Nat.exists_eq_add_of_le' (show 1 ≤ fuel by omega)
      rw [Shape.readMembers, prettyMembers]
      exact .last (passes_keyAhead_end (areGaps_newline outer)) passes_pure
  | @passedOver given rest later key value isUnknown _ inductionHypothesis =>
      rw [toList_prettyMembers] at isEnough ⊢
      simp only [memberText, List.length_cons, List.length_append] at isEnough
      obtain ⟨fuel, rfl⟩ := Nat.exists_eq_add_of_le' (show 1 ≤ fuel by omega)
      have goesOn := @inductionHypothesis fuel (by omega)
      have isLong : (prettyFrom depth value).toList.length ≤ fuel := by omega
      have passed := passes_readMembers_unknown isUnknown (.more (areGaps_newline depth))
        (endsNumber_members depth outer rest) isLong goesOn
      simpa using passed
  | @taken given rest later key name value result shape default? isKnown isNew reads _
      inductionHypothesis =>
      rw [toList_prettyMembers] at isEnough ⊢
      simp only [memberText, List.length_cons, List.length_append] at isEnough
      obtain ⟨fuel, rfl⟩ := Nat.exists_eq_add_of_le' (show 1 ≤ fuel by omega)
      have goesOn := @inductionHypothesis fuel (by omega)
      have isLong : (prettyFrom depth value).toList.length + 8 ≤ fuel := by omega
      have passed := passes_readMembers_known isKnown isNew reads (.more (areGaps_newline depth))
        (endsNumber_members depth outer rest) isLong goesOn
      simpa using passed

/-- A record is read, if its members give all that it needs. -/
theorem readsAs_record
    {name : String}
    {result : List (String × Json)}
    (isShallow : level + 1 < depthLimit)
    (picks : Picks fields (level + 1) [] members later)
    (isSettled : settleAll later fields = .ok result) :
    (Shape.record name fields).ReadsAs level (.obj members) (.obj result) := by
  intro gaps tail depth fuel areGaps ends isEnough
  have isEnd : endObject.Passes ['\x7d'] tail () := .lookAhead rfl rfl passes_skip
  have isLast :
      (located (do return .obj (← settleAll later fields))).Passes [] tail (Json.obj result) := by
    rw [isSettled]
    exact passes_pure
  obtain ⟨fuel, rfl⟩ := Nat.exists_eq_add_of_le' (show 2 ≤ fuel by omega)
  rw [Shape.read]
  cases members with
  | nil =>
      cases picks
      have isText : "\x7b\x7d".toList = '\x7b' :: ([] ++ ['\x7d']) := rfl
      have noMembers :
          (readMembers (level + 1) fields true [] (fuel + 1)).Passes [] ('\x7d' :: tail) [] := by
        rw [Shape.readMembers]
        exact .last (passes_keyAhead_end nofun) passes_pure
      rw [prettyFrom, isText]
      exact .skipGaps areGaps rfl rfl (.bind (passes_deeper isShallow)
        (.skip (.bind noMembers (.last isEnd isLast))))
  | cons member rest =>
      obtain ⟨key, value⟩ := member
      have isText : (prettyFrom depth (.obj ((key, value) :: rest))).toList =
          '\x7b' :: ((newline (depth + 1)).toList ++ (memberText (depth + 1) key value ++
            ((prettyMembers (depth + 1) rest).toList ++ (newline depth).toList)) ++ ['\x7d']) := by
        simp [toList_prettyFrom_obj]
      rw [isText] at isEnough ⊢
      simp only [memberText, List.length_cons, List.length_append] at isEnough
      have ends := @endsNumber_members ('\x7d' :: tail) (depth + 1) depth rest
      have areRead :
          (readMembers (level + 1) fields true [] (fuel + 1)).Passes
            ((newline (depth + 1)).toList ++ (memberText (depth + 1) key value ++
              ((prettyMembers (depth + 1) rest).toList ++ (newline depth).toList)))
            ('\x7d' :: tail) later := by
        cases picks with
        | passedOver isUnknown goesOn =>
            exact passes_readMembers_unknown isUnknown (.first (areGaps_newline _)) ends (by omega)
              (passes_readMembers goesOn (depth + 1) depth (by omega))
        | taken isKnown isNew reads goesOn =>
            exact passes_readMembers_known isKnown isNew reads (.first (areGaps_newline _)) ends
              (by omega) (passes_readMembers goesOn (depth + 1) depth (by omega))
      exact .skipGaps areGaps rfl rfl (.bind (passes_deeper isShallow)
        (.skip (.bind areRead (.last isEnd isLast))))

/-- What is read against a shape wherever it is written is read from the text of it alone. -/
theorem ReadsAs.ofText_pretty
    {written result : Json}
    (reads : shape.ReadsAs 0 written result) :
    Shape.ofText shape written.pretty = .ok result := by
  have isEnough :
      (prettyFrom 0 written).toList.length + 8 ≤ 2 * (prettyFrom 0 written).toList.length + 8 := by
    omega
  have isFinished : finish.Passes [] [] () := fun place => ⟨place, rfl⟩
  have isWhole :
      (do
        let value ← Shape.read 0 shape (2 * (prettyFrom 0 written).toList.length + 8)
        finish
        return value : Reader Json).Passes ([] ++ (prettyFrom 0 written).toList) [] result :=
    .last (reads 0 _ nofun nofun isEnough) (.last isFinished passes_pure)
  obtain ⟨_, isRead⟩ := isWhole ⟨1, 0⟩
  rw [List.nil_append, List.append_nil] at isRead
  exact congrArg (fun read => read >>= fun (value, _) => pure value) isRead

end Shape

end Runbook.Json
