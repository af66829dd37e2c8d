import Runbook.Proofs.Decimal.Numerals
import Runbook.Proofs.Settings.Leaves
import Runbook.Proofs.Text.Lowercase
import Runbook.Proofs.Text.Parts
import Runbook.Settings.Layers

namespace Runbook.Settings

/-!
# Variables

A variable of the environment writes at the path that its name says, and what it writes is read
before it is known what is wanted: as a truth value if it is one, else as a number if it is one,
and only else as a text.  Where a text is wanted, the value is put into writing again, so the
text stays as it is only if it is spelled as it would be written.
-/

open Decimal (WritesInteger)
open Json (Shape)

/-- A text writes a truth value, in letters of either case. -/
def WritesTruth (content : String) (value : Bool) : Prop :=
  Text.lowercase content = toString value

/-- A text writes an integer of 64 bits. -/
def WritesWhole (content : String) (number : Int) : Prop :=
  WritesInteger content.toList number ∧
    -9223372036854775808 ≤ number ∧ number ≤ Entry.greatestWhole

/-- A text writes a decimal that is no integer of 64 bits. -/
def WritesReal (content : String) (number : Double) : Prop :=
  Decimal.double? content.toList = some number ∧ ∀ whole, ¬ WritesWhole content whole

/-- What a text is read as before it is known what is wanted. -/
inductive ReadsAs (content : String) : Scalar → Prop where
  | truth
      {value : Bool}
      (writes : WritesTruth content value) :
      ReadsAs content (.truth value)
  | whole
      {number : Int}
      (writes : WritesWhole content number) :
      ReadsAs content (.whole number)
  | real
      {number : Double}
      (writes : WritesReal content number) :
      ReadsAs content (.real number)
  | text
      (noTruth : ∀ value, ¬ WritesTruth content value)
      (noDecimal : Decimal.double? content.toList = none) :
      ReadsAs content (.text content)

/-- A text is spelled as what it is read as would be written. -/
structure KeepsSpelling (content : String) : Prop where
  truth :
    ∀ value, WritesTruth content value → content = toString value
  whole :
    ∀ number, WritesWhole content number → content = toString number
  real :
    ∀ number, WritesReal content number → content = Decimal.Layout.plain.write number

variable {content : String} {scalar : Scalar} {origin : Option String}

/-- No decimal writes a truth value. -/
theorem not_writesTruth_of_double?
    {number : Double}
    (isRead : Decimal.double? content.toList = some number)
    (value : Bool) :
    ¬ WritesTruth content value := by
  intro writes
  have begins : ∃ letter ∈ ['t', 'f'], (toString value).toList.head? = some letter := by
    cases value with
    | true => exact ⟨'t', by simp, rfl⟩
    | false => exact ⟨'f', by simp, rfl⟩
  obtain ⟨letter, isOther, isFirst⟩ := begins
  obtain ⟨c, rest, isText, begins⟩ := Decimal.begins_of_double? isRead
  rw [← writes, Text.lowercase, String.toList_ofList, isText,
    Text.lower_cons_of_ascii begins.toNat_lt, List.head?_cons, Option.some.injEq] at isFirst
  subst isFirst
  exact begins.toLower_not_mem isOther

/-- What does not write a truth value is read as a number or as a text. -/
theorem valueOf_of_not_writesTruth
    (noTruth : ∀ value, ¬ WritesTruth content value) :
    valueOf content =
      match Decimal.integer? content.toList with
      | some number =>
          if -9223372036854775808 ≤ number ∧ number ≤ Entry.greatestWhole then .whole number
          else .real ((Decimal.double? content.toList).getD (.ofFloat 0.0))
      | none =>
          match Decimal.double? content.toList with
          | some number => .real number
          | none => .text content := by
  have notTrue : Text.lowercase content ≠ "true" := noTruth true
  have notFalse : Text.lowercase content ≠ "false" := noTruth false
  exact (if_neg notTrue).trans (if_neg notFalse)

theorem valueOf_of_readsAs
    (reads : ReadsAs content scalar) :
    valueOf content = scalar := by
  cases reads with
  | @truth value writes =>
      cases value with
      | true =>
          have isTrue : Text.lowercase content = "true" := writes
          rw [valueOf, if_pos isTrue]
      | false =>
          have isFalse : Text.lowercase content = "false" := writes
          have notTrue : Text.lowercase content ≠ "true" := by
            rw [isFalse]
            decide
          rw [valueOf, if_neg notTrue, if_pos isFalse]
  | @whole number writes =>
      obtain ⟨real, isReal⟩ := Decimal.exists_double?_of_integer writes.1
      rw [valueOf_of_not_writesTruth (not_writesTruth_of_double? isReal),
        Decimal.integer?_eq_some_iff.mpr writes.1]
      exact if_pos writes.2
  | @real number writes =>
      obtain ⟨isReal, noWhole⟩ := writes
      rw [valueOf_of_not_writesTruth (not_writesTruth_of_double? isReal)]
      split
      · next whole isWhole =>
          have isWide := fun fits => noWhole whole ⟨Decimal.integer?_eq_some_iff.mp isWhole, fits⟩
          rw [if_neg isWide, isReal, Option.getD_some]
      · rw [isReal]
  | text noTruth noDecimal =>
      rw [valueOf_of_not_writesTruth noTruth]
      split
      · next whole isWhole =>
          obtain ⟨real, isReal⟩ :=
            Decimal.exists_double?_of_integer (Decimal.integer?_eq_some_iff.mp isWhole)
          cases noDecimal.symm.trans isReal
      · rw [noDecimal]

theorem readsAs_valueOf (content : String) : ReadsAs content (valueOf content) := by
  have hasOne : ∃ scalar, ReadsAs content scalar := by
    by_cases isTruth : ∃ value, WritesTruth content value
    · obtain ⟨value, writes⟩ := isTruth
      exact ⟨_, .truth writes⟩
    · by_cases isWhole : ∃ number, WritesWhole content number
      · obtain ⟨number, writes⟩ := isWhole
        exact ⟨_, .whole writes⟩
      · cases isReal : Decimal.double? content.toList with
        | some number => exact ⟨_, .real ⟨isReal, not_exists.mp isWhole⟩⟩
        | none => exact ⟨_, .text (not_exists.mp isTruth) isReal⟩
  obtain ⟨scalar, reads⟩ := hasOne
  rwa [valueOf_of_readsAs reads]

/-- A text stays as it is where a text is wanted exactly if it keeps its spelling. -/
theorem asText_valueOf_iff :
    (Entry.scalar (valueOf content) origin).asText = .ok content ↔ KeepsSpelling content := by
  constructor
  · intro isText
    refine { truth := ?_, whole := ?_, real := ?_ }
    · intro value writes
      rw [valueOf_of_readsAs (.truth writes)] at isText
      exact (Except.ok.inj isText).symm
    · intro number writes
      rw [valueOf_of_readsAs (.whole writes)] at isText
      exact (Except.ok.inj isText).symm
    · intro number writes
      rw [valueOf_of_readsAs (.real writes)] at isText
      exact (Except.ok.inj isText).symm
  · intro keeps
    have reads := readsAs_valueOf content
    generalize valueOf content = scalar at reads
    cases reads with
    | truth writes => exact congrArg Except.ok (keeps.truth _ writes).symm
    | whole writes => exact congrArg Except.ok (keeps.whole _ writes).symm
    | real writes => exact congrArg Except.ok (keeps.real _ writes).symm
    | text noTruth noDecimal => rfl

/-- Where a text is wanted, a variable gives the text that it holds exactly if that keeps its
spelling. -/
theorem eq_iff_keepsSpelling
    {kind : Shape}
    {scalar : Scalar}
    {value written : Json}
    (isRead : valueOf content = scalar)
    (settles : Entry.Settles kind (.scalar scalar origin) value)
    (isWritten : kind.asWritten? (.scalar (.text content) origin) = some written) :
    value = written ↔ KeepsSpelling content :=
  match settles, isRead with
  | .text isText, isRead => by
      cases isWritten
      rw [← @asText_valueOf_iff content origin, isRead, isText]
      simp
  | .path isText, isRead => by
      cases isWritten
      rw [← @asText_valueOf_iff content origin, isRead, isText]
      simp
  | .truth isTruth, isRead => by cases isWritten
  | .unsigned isNumber, isRead => by cases isWritten
  | .real isNumber, isRead => by cases isWritten
  | .nothing, isRead => by cases isRead ▸ readsAs_valueOf content
  | .something isThere settles, isRead => eq_iff_keepsSpelling isRead settles isWritten

/-! ## Where variables write -/

/-- The names on a path, joined as in the name of a variable. -/
def joinedNames (path : List String) : List Char :=
  ['_', '_'].intercalate (path.map String.toList)

/-- The name, in lower case, of the variable for the setting at a path. -/
def variableName (path : List String) : List Char := environmentMark ++ joinedNames path

example :
    String.ofList (variableName ["parallel", "max_concurrency"]) =
      "opsagent__parallel__max_concurrency" := by
  decide +kernel

/-- What the environment writes. -/
def environmentWritings (environment : Environment) : List Writing :=
  Entry.layerWritings (environmentLayer environment)

/-- A variable of the environment sets the setting at a path to a text, and none behind it bears
on that setting. -/
inductive SetTo (environment : Environment) (path : List String) (content : String) : Prop where
  | intro
      {before after : Environment}
      {name : String}
      (isSplit : environment = before ++ (name, content) :: after)
      (isNamed : Text.lower name.toList = variableName path)
      (isLast : Writing.last? path (environmentWritings after) = none)

/-- What a variable writes for the setting at a path. -/
def variableWriting (path : List String) (content : String) : Writing :=
  ⟨path.map .name, .scalar (valueOf content) (some environmentOrigin)⟩

variable {leaf : List String × Shape} {environment : Environment}

theorem environmentWritings_append (before after : Environment) :
    environmentWritings (before ++ after) =
      environmentWritings before ++ environmentWritings after := by
  rw [environmentWritings, environmentLayer, List.filterMap_append, Entry.layerWritings,
    List.flatMap_append]
  rfl

theorem bearing_map_name (path : List String) :
    Segment.bearing (path.map .name) path = .exact := by
  induction path with
  | nil =>
      rfl
  | cons name path inductionHypothesis =>
      rw [List.map_cons, Segment.bearing, if_pos rfl, inductionHypothesis]

/-- A single value at a path of names is written there, if the last name is in lower case. -/
theorem writingsAt_map_name
    {value : Scalar}
    (names : List String)
    (last : String)
    (isLower : Text.lowercase last = last) :
    Entry.writingsAt ((names ++ [last]).map .name) (.scalar value origin) =
      [⟨(names ++ [last]).map .name, .scalar value origin⟩] := by
  induction names with
  | nil =>
      simp [Entry.writingsAt, Entry.writingsIn, Entry.writings, Writing.below, isLower]
  | cons name names inductionHypothesis =>
      rw [List.cons_append, List.map_cons, Entry.writingsAt, inductionHypothesis]
      · rfl
      · simp

/-- The name of the variable for a setting says the place of that setting, whose last name is in
lower case. -/
theorem place_of_mem_leaves :
    ∀ leaf ∈ shape.leaves,
      Segment.place (String.ofList (Text.replaceIn ['_', '_'] ['.'] (joinedNames leaf.1))) =
          leaf.1.map .name ∧
        leaf.1.getLast?.map (fun last => decide (Text.lowercase last = last)) = some true := by
  simp only [Segment.place, String.toList_ofList]
  decide +kernel

theorem environmentLayer_variable
    {name : String}
    {path : List String}
    (isNamed : Text.lower name.toList = variableName path) :
    environmentLayer [(name, content)] =
      [(String.ofList (Text.replaceIn ['_', '_'] ['.'] (joinedNames path)),
        .scalar (valueOf content) (some environmentOrigin))] := by
  have isBehind : Text.after? environmentMark (Text.lower name.toList) = some (joinedNames path) :=
    Text.after?_eq_some_iff.mpr isNamed
  simp only [environmentLayer, List.filterMap_cons, List.filterMap_nil, isBehind, Option.map_some]

theorem environmentWritings_variable
    {name : String}
    (isLeaf : leaf ∈ shape.leaves)
    (isNamed : Text.lower name.toList = variableName leaf.1) :
    environmentWritings [(name, content)] = [variableWriting leaf.1 content] := by
  obtain ⟨isPlace, hasLast⟩ := place_of_mem_leaves leaf isLeaf
  obtain ⟨last, isLast, isLower⟩ := Option.map_eq_some_iff.mp hasLast
  obtain ⟨names, isPath⟩ := List.getLast?_eq_some_iff.mp isLast
  rw [environmentWritings, environmentLayer_variable isNamed, Entry.layerWritings,
    List.flatMap_singleton, isPlace, variableWriting, isPath]
  exact writingsAt_map_name names last (of_decide_eq_true isLower)

/-- What a variable sets is the last that the environment writes for that setting. -/
theorem last?_of_setTo
    (isLeaf : leaf ∈ shape.leaves)
    (isSet : SetTo environment leaf.1 content) :
    Writing.last? leaf.1 (environmentWritings environment) =
      some (variableWriting leaf.1 content) := by
  obtain @⟨before, after, name, isSplit, isNamed, isLast⟩ := isSet
  have isOwn : Writing.last? leaf.1 (environmentWritings [(name, content)]) =
      some (variableWriting leaf.1 content) := by
    rw [environmentWritings_variable isLeaf isNamed]
    simp [Writing.last?, Writing.bearing, variableWriting, bearing_map_name]
  rw [isSplit, ← List.singleton_append, environmentWritings_append, environmentWritings_append,
    Writing.last?_append, Writing.last?_append, isLast, isOwn]
  rfl

end Runbook.Settings
