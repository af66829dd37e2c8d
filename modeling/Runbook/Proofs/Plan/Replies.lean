import Runbook.Plan.Decision
import Runbook.Proofs.Text.Parts

namespace Runbook

/-!
# Objects in replies

A model writes its object among prose, bare or in a block of code.  The marks of a block are
looked for in the whole reply, and so also within the strings of the object.  This module
says when the object is found again: exactly when it holds no mark that would be taken for
one of the reply.  Then the reply is read as the object alone is, by any reader.
-/

namespace Reply

open Text

/-- A text from an opening to a closing brace, as every object is. -/
def IsBraced (object : List Char) : Prop :=
  ∃ inside, object = openBrace :: inside ++ [closeBrace]

/-- A text with neither braces nor the character that marks are made of. -/
def IsProse (text : List Char) : Prop :=
  openBrace ∉ text ∧ closeBrace ∉ text ∧ '`' ∉ text

instance (text : List Char) : Decidable (IsProse text) :=
  inferInstanceAs (Decidable (_ ∧ _ ∧ _))

/-- An object as a block of code. -/
def blockOf (object : List Char) : List Char :=
  openMark ++ '\n' :: object ++ '\n' :: closeMark

theorem IsProse.of_sublist
    {text part : List Char}
    (prose : IsProse text)
    (isPart : part.Sublist text) :
    IsProse part :=
  ⟨fun member => prose.1 (isPart.subset member),
    fun member => prose.2.1 (isPart.subset member),
    fun member => prose.2.2 (isPart.subset member)⟩

section Braced

variable {object : List Char}

theorem IsBraced.getLast?_eq
    (braced : IsBraced object) :
    object.getLast? = some closeBrace := by
  obtain ⟨inside, rfl⟩ := braced
  exact List.getLast?_concat

theorem IsBraced.hasEnds
    (braced : IsBraced object) :
    HasEnds object := by
  refine ⟨?_, ⟨closeBrace, braced.getLast?_eq, by decide⟩⟩
  obtain ⟨inside, rfl⟩ := braced
  exact ⟨openBrace, rfl, by decide⟩

/-- A mark without a closing brace does not reach over the end of an object. -/
theorem IsBraced.noReach
    (braced : IsBraced object)
    {mark : List Char}
    (noBrace : closeBrace ∉ mark) :
    ∀ c ∈ object.getLast?, c ∉ mark := by
  intro c isLast
  rw [braced.getLast?_eq] at isLast
  cases isLast
  exact noBrace

theorem hasEnds_blockOf (object : List Char) : HasEnds (blockOf object) := by
  refine ⟨⟨'`', rfl, by decide⟩, ⟨'`', ?_, by decide⟩⟩
  have isBlock : blockOf object = (openMark ++ '\n' :: object ++ ['\n', '`', '`']) ++ ['`'] := by
    simp [blockOf, closeMark]
  rw [isBlock]
  exact List.getLast?_concat

variable {before after : List Char}

/-- Without an opening mark, what is taken reaches from the first brace to the last one. -/
theorem object?_bare
    (braced : IsBraced object)
    (proseBefore : IsProse before)
    (proseAfter : IsProse after)
    (noMark : ¬ openMark <:+: object) :
    object? (before ++ object ++ after) = some object := by
  have proseFront := proseBefore.of_sublist (trimStart_sublist before)
  have proseBack := proseAfter.of_sublist (trimEnd_sublist after)
  have noSplit :
      splitFirst? openMark (trimStart before ++ object ++ trimEnd after) = none := by
    rw [splitFirst?_eq_none_iff]
    exact fun occurs => noMark
      ((infix_append_iff proseFront.2.2 proseBack.2.2 (braced.noReach (by decide))).mp occurs)
  obtain ⟨inside, rfl⟩ := braced
  have dropped :
      (trimStart before ++ (openBrace :: inside ++ [closeBrace]) ++ trimEnd after).dropWhile
          (· != openBrace) =
        openBrace :: (inside ++ [closeBrace] ++ trimEnd after) := by
    rw [List.append_assoc, List.dropWhile_append_of_pos]
    · simp
    · intro c member
      simp only [bne_iff_ne, ne_eq]
      rintro rfl
      exact proseFront.1 member
  rw [object?, trim_append (IsBraced.hasEnds ⟨inside, rfl⟩)]
  simp only [noSplit, dropped, throughLast?_append proseBack.2.1]
  simp

/-- What is taken behind an opening mark is a part of what stands there. -/
theorem object?_sublist
    {reply front block : List Char}
    (isSplit : splitFirst? openMark (trim reply) = some (front, block)) :
    ∃ taken, object? reply = some taken ∧ taken.Sublist block := by
  rw [object?]
  simp only [isSplit]
  cases isClosed : splitFirst? closeMark block with
  | none =>
      exact ⟨_, rfl, trim_sublist block⟩
  | some parts =>
      obtain ⟨inside, rest⟩ := parts
      obtain ⟨isBlock, _⟩ := splitFirst?_eq_some isClosed
      refine ⟨_, rfl, (trim_sublist inside).trans ?_⟩
      rw [isBlock, List.append_assoc]
      exact List.sublist_append_left inside _

/-- An opening mark within a bare object is taken for one of the reply. -/
theorem object?_bare_ne
    (braced : IsBraced object)
    (proseBefore : IsProse before)
    (proseAfter : IsProse after)
    (hasMark : openMark <:+: object) :
    object? (before ++ object ++ after) ≠ some object := by
  have proseFront := proseBefore.of_sublist (trimStart_sublist before)
  have proseBack := proseAfter.of_sublist (trimEnd_sublist after)
  cases isSplit : splitFirst? openMark (trim (before ++ object ++ after)) with
  | none =>
      rw [trim_append braced.hasEnds] at isSplit
      exact absurd (hasMark.trans ⟨_, _, rfl⟩) (splitFirst?_eq_none_iff.mp isSplit)
  | some parts =>
      obtain ⟨front, block⟩ := parts
      obtain ⟨taken, isTaken, isPart⟩ := object?_sublist isSplit
      obtain ⟨occurs, _⟩ := splitFirst?_eq_some isSplit
      rw [trim_append braced.hasEnds] at occurs
      obtain ⟨left, right, _, isObject, isBlock⟩ :
          ∃ left right,
            front = trimStart before ++ left ∧
              object = left ++ openMark ++ right ∧ block = right ++ trimEnd after :=
        occurs_within proseFront.2.2 proseBack.2.2 (braced.noReach (by decide)) occurs
      -- The mark's own characters are missing in what is taken.
      have fewer : taken.count '`' < object.count '`' := by
        have atMost := isPart.count_le '`'
        have noneBehind : (trimEnd after).count '`' = 0 := List.count_eq_zero.mpr proseBack.2.2
        have marks : openMark.count '`' = 3 := by decide
        rw [isBlock, List.count_append] at atMost
        rw [isObject, List.count_append, List.count_append, marks]
        omega
      rw [isTaken]
      intro same
      cases same
      exact Nat.lt_irrefl _ fewer

/-- What is taken of an object in a block ends at the first closing mark behind the opening
one. -/
theorem object?_block
    (proseBefore : IsProse before)
    {inside rest : List Char}
    (isClosed :
      splitFirst? closeMark
          (['\n'] ++ object ++ ['\n'] ++ closeMark ++ trimEnd after) =
        some (inside, rest)) :
    object? (before ++ blockOf object ++ after) = some (trim inside) := by
  have proseFront := proseBefore.of_sublist (trimStart_sublist before)
  have isSplit :
      splitFirst? openMark (trim (before ++ blockOf object ++ after)) =
        some (trimStart before, ['\n'] ++ object ++ ['\n'] ++ closeMark ++ trimEnd after) := by
    have isText :
        trimStart before ++ blockOf object ++ trimEnd after =
          trimStart before ++ openMark ++
            (['\n'] ++ object ++ ['\n'] ++ closeMark ++ trimEnd after) := by
      simp [blockOf]
    rw [trim_append (hasEnds_blockOf object), isText]
    exact splitFirst?_append_of_notMem proseFront.2.2 _ _
  rw [object?]
  simp only [isSplit, isClosed]

/-- Without a closing mark within it, an object in a block is taken as it is. -/
theorem object?_block_eq
    (braced : IsBraced object)
    (proseBefore : IsProse before)
    (noMark : ¬ closeMark <:+: object) :
    object? (before ++ blockOf object ++ after) = some object := by
  have noMarkAround : ¬ closeMark <:+: ['\n'] ++ object ++ ['\n'] :=
    fun occurs => noMark
      ((infix_append_iff (by decide) (by decide) (braced.noReach (by decide))).mp occurs)
  have noReachAround : ∀ c ∈ (['\n'] ++ object ++ ['\n']).getLast?, c ∉ closeMark := by
    intro c isLast
    rw [List.getLast?_concat] at isLast
    cases isLast
    decide
  have isClosed :=
    splitFirst?_append noMarkAround noReachAround (trimEnd after)
  rw [object?_block proseBefore isClosed, trim_append braced.hasEnds]
  have isEmpty : trimStart ['\n'] = [] ∧ trimEnd ['\n'] = [] := by decide
  rw [isEmpty.1, isEmpty.2, List.nil_append, List.append_nil]

/-- A closing mark within an object in a block is taken for the one of the block. -/
theorem object?_block_ne
    (proseBefore : IsProse before)
    (hasMark : closeMark <:+: object) :
    object? (before ++ blockOf object ++ after) ≠ some object := by
  obtain ⟨left, right, isObject⟩ := hasMark
  let block := ['\n'] ++ object ++ ['\n'] ++ closeMark ++ trimEnd after
  have occurs :
      block = ('\n' :: left) ++ closeMark ++ (right ++ ['\n'] ++ closeMark ++ trimEnd after) := by
    simp [block, ← isObject]
  cases isClosed : splitFirst? closeMark block with
  | none =>
      exact absurd ⟨_, _, occurs.symm⟩ (splitFirst?_eq_none_iff.mp isClosed)
  | some parts =>
      obtain ⟨inside, rest⟩ := parts
      have isEarly := (splitFirst?_eq_some isClosed).2 _ _ occurs
      have isShort := (trim_sublist inside).length_le
      rw [object?_block proseBefore isClosed]
      intro same
      have sameLength : (trim inside).length = object.length :=
        congrArg List.length (Option.some.inj same)
      have marks : closeMark.length = 3 := rfl
      rw [← isObject, List.length_append, List.length_append] at sameLength
      rw [List.length_cons] at isEarly
      omega

end Braced

/-- An object as a block of code within a reply. -/
def inBlock (object : String) : String := "```json\n" ++ object ++ "\n```"

theorem toList_inBlock (object : String) :
    (inBlock object).toList = blockOf object.toList := by
  simp [inBlock, blockOf, openMark, closeMark]

/-- The text of an object is found where its characters are. -/
theorem objectText?_eq_some_iff
    {reply object : String} :
    objectText? reply = some object ↔ object? reply.toList = some object.toList := by
  rw [objectText?, Option.map_eq_some_iff]
  constructor
  · rintro ⟨characters, found, rfl⟩
    rw [found, String.toList_ofList]
  · intro found
    exact ⟨object.toList, found, String.ofList_toList⟩

/-- A reply is read as the object in it is when that stands alone. -/
structure ReadsAs (reply object : String) : Prop where
  value :
    ∀ {α : Type} (reader : String → Except Json.Complaint α) (value : α),
      reader object = .ok value → read reader reply = .ok value
  plan :
    Plan.ofReply reply = Plan.ofReply object
  proposal :
    Proposal.ofReply reply = Proposal.ofReply object

theorem readsAs_of_objectText?
    {reply object : String}
    (found : objectText? reply = some object)
    (alone : objectText? object = some object) :
    ReadsAs reply object := by
  have reads {α : Type} (reader : String → Except Json.Complaint α) :
      read reader reply = read reader object := by
    simp only [read, objectText, found, alone]
  refine ⟨?_, ?_, reads Proposal.ofText⟩
  · intro α reader value isValue
    simp only [read, objectText, found, bind, Except.bind, isValue]
    rfl
  · rw [Plan.ofReply, Plan.ofReply, reads]

/--
A bare object is found among prose exactly if it holds no opening mark, and one in a block
exactly if it holds no closing mark.  Where it is found, any reply around it is read as the
object alone is.
-/
theorem found_iff_of_isBraced
    {object before after : String}
    (braced : IsBraced object.toList)
    (proseBefore : IsProse before.toList)
    (proseAfter : IsProse after.toList) :
    (objectText? (before ++ object ++ after) = some object ↔
        ¬ openMark <:+: object.toList) ∧
      (objectText? (before ++ inBlock object ++ after) = some object ↔
        ¬ closeMark <:+: object.toList) ∧
        (¬ openMark <:+: object.toList → ReadsAs (before ++ object ++ after) object) ∧
          (¬ closeMark <:+: object.toList →
            ReadsAs (before ++ inBlock object ++ after) object) := by
  have bare :
      objectText? (before ++ object ++ after) = some object ↔
        ¬ openMark <:+: object.toList := by
    rw [objectText?_eq_some_iff, String.toList_append, String.toList_append]
    constructor
    · intro found hasMark
      exact object?_bare_ne braced proseBefore proseAfter hasMark found
    · exact object?_bare braced proseBefore proseAfter
  have inside :
      objectText? (before ++ inBlock object ++ after) = some object ↔
        ¬ closeMark <:+: object.toList := by
    rw [objectText?_eq_some_iff, String.toList_append, String.toList_append, toList_inBlock]
    constructor
    · intro found hasMark
      exact object?_block_ne proseBefore hasMark found
    · exact object?_block_eq braced proseBefore
  have alone (noMark : ¬ openMark <:+: object.toList) : objectText? object = some object := by
    have isProse : IsProse [] := by simp [IsProse]
    rw [objectText?_eq_some_iff]
    simpa using object?_bare braced isProse isProse noMark
  refine ⟨bare, inside, ?_, ?_⟩
  · intro noMark
    exact readsAs_of_objectText? (bare.mpr noMark) (alone noMark)
  · intro noMark
    -- The opening mark starts with the closing one.
    have noOpening : ¬ openMark <:+: object.toList :=
      fun hasMark => noMark (.trans ⟨[], ['j', 's', 'o', 'n'], rfl⟩ hasMark)
    exact readsAs_of_objectText? (inside.mpr noMark) (alone noOpening)

/-- An answer may hold braces and quote a code word; in a block or not, it is read. -/
theorem found_iff_of_isBraced_answer :
    let object := "\x7b\"action\":\"complete\",\"answer\":\"`f` gives \x7b\x7d\"\x7d"
    IsBraced object.toList ∧
      Proposal.ofReply ("So:\n" ++ object ++ " Done.") = .ok (.complete "`f` gives \x7b\x7d") ∧
        Proposal.ofReply ("So:\n" ++ inBlock object ++ " Done.") =
          .ok (.complete "`f` gives \x7b\x7d") := by
  intro object
  have braced : IsBraced object.toList := by
    refine ⟨(object.toList.drop 1).dropLast, ?_⟩
    decide +kernel
  have proseBefore : IsProse "So:\n".toList := by decide +kernel
  have proseAfter : IsProse " Done.".toList := by decide +kernel
  have isRead : Proposal.ofText object = .ok (.complete "`f` gives \x7b\x7d") := by
    decide +kernel
  obtain ⟨_, _, readsBare, readsInBlock⟩ :=
    found_iff_of_isBraced braced proseBefore proseAfter
  exact ⟨braced, (readsBare (by decide +kernel)).value Proposal.ofText _ isRead,
    (readsInBlock (by decide +kernel)).value Proposal.ofText _ isRead⟩

/-- A valid decision is lost bare if its answer quotes an opening mark, and lost in a block if
it quotes a closing one: what is read is a piece of it. -/
theorem lost_of_quoted_mark :
    let quotesOpening := "\x7b\"action\":\"complete\",\"answer\":\"```json\"\x7d"
    let quotesClosing := "\x7b\"action\":\"complete\",\"answer\":\"```\"\x7d"
    (IsBraced quotesOpening.toList ∧
      Proposal.ofText quotesOpening = .ok (.complete "```json") ∧
        objectText? quotesOpening = some "\"\x7d" ∧
          Proposal.ofReply quotesOpening =
            .error "EOF while parsing a string at line 1 column 2: \"\x7d") ∧
      IsBraced quotesClosing.toList ∧
        Proposal.ofText quotesClosing = .ok (.complete "```") ∧
          objectText? (inBlock quotesClosing) =
            some "\x7b\"action\":\"complete\",\"answer\":\"" ∧
            ∃ complaint, Proposal.ofReply (inBlock quotesClosing) = .error complaint := by
  intro quotesOpening quotesClosing
  refine ⟨⟨⟨(quotesOpening.toList.drop 1).dropLast, ?_⟩, ?_, ?_, ?_⟩,
    ⟨(quotesClosing.toList.drop 1).dropLast, ?_⟩, ?_, ?_,
    "EOF while parsing a string at line 1 column 31: \x7b\"action\":\"complete\",\"answer\":\"", ?_⟩
  all_goals decide +kernel

end Reply

end Runbook
