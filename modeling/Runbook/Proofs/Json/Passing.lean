import Runbook.Json.Printer
import Runbook.Json.Shape
import Runbook.Proofs.Decimal.Written

namespace Runbook.Json

/-!
# Reading what was written

A value that is written with one item or member a line can be stepped over, however deep it
is, and a string that is written can be read back.  So whoever reads a list of records and
wants some of their fields finds these, whatever the other fields hold.
-/

/-- A reader passes over a text that stands in front of another one, and comes to a value. -/
def Reader.Passes {α : Type} (reader : Reader α) (text tail : List Char) (value : α) : Prop :=
  ∀ place, ∃ later, reader ⟨text ++ tail, place⟩ = .ok (value, ⟨tail, later⟩)

namespace Reader

section Steps

variable {α β : Type} {reader : Reader α} {text more gaps tail : List Char} {c : Char}
  {value : α} {result : β}

theorem Passes.bind
    {next : α → Reader β}
    (first : reader.Passes text (more ++ tail) value)
    (second : (next value).Passes more tail result) :
    (reader >>= next).Passes (text ++ more) tail result := by
  intro place
  obtain ⟨between, isFirst⟩ := first place
  obtain ⟨later, isSecond⟩ := second between
  refine ⟨later, ?_⟩
  have isBind :
      (reader >>= next) ⟨text ++ more ++ tail, place⟩ =
        (reader ⟨text ++ more ++ tail, place⟩ >>= fun read => next read.1 read.2) := rfl
  rw [isBind, List.append_assoc, isFirst]
  exact isSecond

/-- Nothing is left for what comes last. -/
theorem Passes.last
    {next : α → Reader β}
    (first : reader.Passes text tail value)
    (second : (next value).Passes [] tail result) :
    (reader >>= next).Passes text tail result :=
  List.append_nil text ▸ @Passes.bind _ _ _ _ [] _ _ _ next first second

theorem passes_pure : (pure value : Reader α).Passes [] tail value := fun place => ⟨place, rfl⟩

theorem passes_skip : skip.Passes [c] tail () := fun place => ⟨place.after c, rfl⟩

theorem Passes.peek
    {next : Option Char → Reader β}
    (goesOn : (next (some c)).Passes (c :: text) tail result) :
    (Reader.peek >>= next).Passes (c :: text) tail result :=
  goesOn

/-- Looking ahead where it is not known whether a text is left. -/
theorem Passes.peekAhead
    {next : Option Char → Reader β}
    (goesOn : (next (text ++ tail).head?).Passes text tail result) :
    (Reader.peek >>= next).Passes text tail result :=
  goesOn

theorem Passes.get
    {next : Cursor → Reader β}
    (goesOn : ∀ place, (next ⟨text ++ tail, place⟩).Passes text tail result) :
    ((MonadState.get : Reader Cursor) >>= next).Passes text tail result :=
  fun place => goesOn place place

theorem Passes.skip
    {next : Unit → Reader β}
    (goesOn : (next ()).Passes text tail result) :
    (Reader.skip >>= next).Passes (c :: text) tail result :=
  fun place => goesOn (place.after c)

theorem passes_skipMany (text : List Char) : (skipMany text.length).Passes text tail () := by
  induction text with
  | nil =>
      exact passes_pure
  | cons c text inductionHypothesis =>
      exact .skip inductionHypothesis

/-- Characters that are passed over in front of a value. -/
def AreGaps (text : List Char) : Prop := ∀ c ∈ text, isGap c = true

theorem areGaps_newline (depth : Nat) : AreGaps (newline depth).toList := by
  simp only [newline, String.toList_ofList, AreGaps, List.mem_cons, List.mem_replicate]
  rintro c (rfl | ⟨-, rfl⟩) <;> decide

theorem exists_overGaps
    (areGaps : AreGaps gaps)
    (notGap : isGap c = false)
    (place : Place) :
    ∃ later, Cursor.overGaps (gaps ++ c :: text) place = ⟨c :: text, later⟩ := by
  induction gaps generalizing place with
  | nil =>
      exact ⟨place, by simp [Cursor.overGaps, notGap]⟩
  | cons gap gaps inductionHypothesis =>
      obtain ⟨isGap, areRest⟩ := List.forall_mem_cons.mp areGaps
      obtain ⟨later, isOver⟩ := inductionHypothesis areRest (place.after gap)
      exact ⟨later, by rw [List.cons_append, Cursor.overGaps, if_pos isGap, isOver]⟩

/-- Gaps are stepped over, and the character behind them is looked at. -/
theorem Passes.skipGaps
    {next : Option Char → Reader β}
    (areGaps : AreGaps gaps)
    (isNext : (text ++ tail).head? = some c)
    (notGap : isGap c = false)
    (goesOn : (next (some c)).Passes text tail result) :
    (Reader.skipGaps >>= next).Passes (gaps ++ text) tail result := by
  intro place
  obtain ⟨rest, isText⟩ := List.head?_eq_some_iff.mp isNext
  obtain ⟨between, isOver⟩ := @exists_overGaps rest gaps c areGaps notGap place
  obtain ⟨later, isRead⟩ := goesOn between
  refine ⟨later, ?_⟩
  have isBind :
      (Reader.skipGaps >>= next) ⟨gaps ++ text ++ tail, place⟩ =
        next (Cursor.overGaps (gaps ++ text ++ tail) place).rest.head?
          (Cursor.overGaps (gaps ++ text ++ tail) place) := rfl
  rw [isBind, List.append_assoc, isText, isOver, List.head?_cons, ← isText]
  exact isRead

/-- The same where only gaps are stepped over. -/
theorem Passes.overGaps
    {next : Option Char → Reader β}
    (areGaps : AreGaps gaps)
    (isNext : tail.head? = some c)
    (notGap : isGap c = false)
    (goesOn : (next (some c)).Passes [] tail result) :
    (Reader.skipGaps >>= next).Passes gaps tail result :=
  List.append_nil gaps ▸ @Passes.skipGaps _ [] _ _ _ _ next areGaps isNext notGap goesOn

/-- The same where no gap is left. -/
theorem Passes.lookAhead
    {next : Option Char → Reader β}
    (isNext : (text ++ tail).head? = some c)
    (notGap : isGap c = false)
    (goesOn : (next (some c)).Passes text tail result) :
    (Reader.skipGaps >>= next).Passes text tail result :=
  @Passes.skipGaps _ _ [] _ _ _ next nofun isNext notGap goesOn

end Steps

/-! ## Strings -/

section Strings

variable {text tail : List Char}

/-- Digits that are written for a control character are read as its number. -/
theorem hexFour?_hexDigit :
    ∀ number < 32, hexFour? '0' '0' (hexDigit (number / 16)) (hexDigit (number % 16)) =
      some number := by
  decide

theorem passes_hexEscape
    {a b c d : Char}
    {number : Nat}
    (isNumber : hexFour? a b c d = some number) :
    hexEscape.Passes [a, b, c, d] tail number := by
  refine .get fun place => ?_
  simp only [List.cons_append, List.nil_append, isNumber]
  exact .last (passes_skipMany [a, b, c, d]) passes_pure

/-- The letters that stand behind a backslash, with the characters that they stand for. -/
def letters : List (Char × Char) :=
  [ ('"', '"'), ('\\', '\\'), ('b', Char.ofNat 8), ('f', Char.ofNat 12), ('n', '\n'),
    ('r', '\r'), ('t', '\t') ]

/-- What may be written for a character of a string. -/
inductive Escapes (c : Char) : List Char → Prop where
  | itself (notQuote : c ≠ '"') (notSlash : c ≠ '\\') (noControl : 32 ≤ c.toNat) : Escapes c [c]
  | letter {code : Char} (isLetter : (code, c) ∈ letters) : Escapes c ['\\', code]
  | number (isControl : c.toNat < 32) :
      Escapes c ['\\', 'u', '0', '0', hexDigit (c.toNat / 16), hexDigit (c.toNat % 16)]

theorem escapes_escape (c : Char) : Escapes c (escape c) := by
  have isNumbered (number : Nat) (isChar : c.toNat = number) : c = Char.ofNat number := by
    rw [← isChar, Char.ofNat_toNat]
  unfold escape
  split
  · next isChar => exact .letter (by simp [isChar, letters])
  split
  · next isChar => exact .letter (by simp [isChar, letters])
  split
  · next isChar => exact .letter (by simp [isNumbered 8 isChar, letters])
  split
  · next isChar => exact .letter (by simp [isNumbered 12 isChar, letters])
  split
  · next isChar => exact .letter (by simp [isChar, letters])
  split
  · next isChar => exact .letter (by simp [isChar, letters])
  split
  · next isChar => exact .letter (by simp [isChar, letters])
  split
  · next isControl => exact .number isControl
  · next notQuote notSlash _ _ _ _ _ noControl =>
      exact .itself notQuote notSlash (Nat.le_of_not_lt noControl)

/-- A letter behind a backslash is read as the character that it stands for. -/
theorem passes_escaped_letter
    {code c : Char}
    (isLetter : (code, c) ∈ letters) :
    escaped.Passes [code] tail c := by
  simp only [letters, List.mem_cons, Prod.mk.injEq, List.not_mem_nil, or_false] at isLetter
  rcases isLetter with ⟨rfl, rfl⟩ | ⟨rfl, rfl⟩ | ⟨rfl, rfl⟩ | ⟨rfl, rfl⟩ | ⟨rfl, rfl⟩ | ⟨rfl, rfl⟩ |
      ⟨rfl, rfl⟩ <;>
    exact fun place => ⟨_, rfl⟩

/-- The number of a control character is read as the character. -/
theorem passes_escaped_number
    {c : Char}
    (isControl : c.toNat < 32) :
    escaped.Passes ['u', '0', '0', hexDigit (c.toNat / 16), hexDigit (c.toNat % 16)] tail c := by
  have isRead := @passes_hexEscape tail _ _ _ _ _ (hexFour?_hexDigit c.toNat isControl)
  refine .peek (.skip (.last isRead ?_))
  rw [if_neg (by omega), if_pos (by omega), Char.ofNat_toNat]
  exact passes_pure

theorem Passes.stringRest
    {c : Char}
    {text done : List Char}
    {fuel : Nat}
    {result : String}
    (goesOn : (stringRest (c :: done) fuel).Passes text tail result) :
    (Reader.stringRest done (fuel + 1)).Passes (escape c ++ text) tail result := by
  have escapes := escapes_escape c
  generalize escape c = code at escapes
  rw [Reader.stringRest]
  cases escapes with
  | itself notQuote notSlash noControl =>
      refine .peek ?_
      split
      · next isNone => cases isNone
      · next isQuote => exact absurd (Option.some.inj isQuote) notQuote
      · next isSlash => exact absurd (Option.some.inj isSlash) notSlash
      · next isChar =>
          cases isChar
          rw [if_neg (Nat.not_lt_of_le noControl)]
          exact .skip goesOn
  | letter isLetter =>
      exact .peek (.skip (.bind (passes_escaped_letter isLetter) goesOn))
  | number isControl =>
      exact .peek (.skip (.bind (passes_escaped_number isControl) goesOn))

theorem passes_stringRest
    (chars done : List Char)
    {fuel : Nat}
    (isEnough : chars.length < fuel) :
    (stringRest done fuel).Passes (chars.flatMap escape ++ ['"']) tail
      (String.ofList (done.reverse ++ chars)) := by
  induction chars generalizing done fuel with
  | nil =>
      obtain ⟨fuel, rfl⟩ := Nat.exists_eq_add_one.mpr isEnough
      rw [stringRest, List.append_nil]
      exact .peek (.skip passes_pure)
  | cons c chars inductionHypothesis =>
      obtain ⟨fuel, rfl⟩ := Nat.exists_eq_add_one.mpr (Nat.zero_lt_of_lt isEnough)
      have goesOn := inductionHypothesis (c :: done) (Nat.lt_of_succ_lt_succ isEnough)
      rw [List.reverse_cons, List.append_assoc, List.singleton_append] at goesOn
      rw [List.flatMap_cons, List.append_assoc]
      exact goesOn.stringRest

/-- The same for a string that is stepped over. -/
theorem Passes.ignoreStringRest
    {c : Char}
    {text : List Char}
    {fuel : Nat}
    (goesOn : (ignoreStringRest fuel).Passes text tail ()) :
    (Reader.ignoreStringRest (fuel + 1)).Passes (escape c ++ text) tail () := by
  have escapes := escapes_escape c
  generalize escape c = code at escapes
  rw [Reader.ignoreStringRest]
  cases escapes with
  | itself notQuote notSlash noControl =>
      refine .peek ?_
      split
      · next isNone => cases isNone
      · next isQuote => exact absurd (Option.some.inj isQuote) notQuote
      · next isSlash => exact absurd (Option.some.inj isSlash) notSlash
      · next isChar =>
          cases isChar
          rw [if_neg (Nat.not_lt_of_le noControl)]
          exact .skip goesOn
  | letter isLetter =>
      refine .peek (.skip (.peek ?_))
      simp only [letters, List.mem_cons, Prod.mk.injEq, List.not_mem_nil, or_false] at isLetter
      rcases isLetter with ⟨rfl, rfl⟩ | ⟨rfl, rfl⟩ | ⟨rfl, rfl⟩ | ⟨rfl, rfl⟩ | ⟨rfl, rfl⟩ |
          ⟨rfl, rfl⟩ | ⟨rfl, rfl⟩ <;>
        exact .skip goesOn
  | number isControl =>
      have isNumber := hexFour?_hexDigit c.toNat isControl
      have isRead := @passes_hexEscape (text ++ tail) _ _ _ _ _ isNumber
      exact .peek (.skip (.peek (.skip (.bind isRead goesOn))))

theorem passes_ignoreStringRest
    (chars : List Char)
    {fuel : Nat}
    (isEnough : chars.length < fuel) :
    (ignoreStringRest fuel).Passes (chars.flatMap escape ++ ['"']) tail () := by
  induction chars generalizing fuel with
  | nil =>
      obtain ⟨fuel, rfl⟩ := Nat.exists_eq_add_one.mpr isEnough
      rw [ignoreStringRest]
      exact .peek passes_skip
  | cons c chars inductionHypothesis =>
      obtain ⟨fuel, rfl⟩ := Nat.exists_eq_add_one.mpr (Nat.zero_lt_of_lt isEnough)
      rw [List.flatMap_cons, List.append_assoc]
      exact (inductionHypothesis (Nat.lt_of_succ_lt_succ isEnough)).ignoreStringRest

theorem toList_quote (text : String) :
    (quote text).toList = '"' :: (text.toList.flatMap escape ++ ['"']) := by
  rw [quote, String.toList_ofList, List.cons_append]

theorem length_le_length_flatMap_escape (chars : List Char) :
    chars.length ≤ (chars.flatMap escape).length := by
  induction chars with
  | nil =>
      exact Nat.le_refl _
  | cons c chars inductionHypothesis =>
      have isSome : 0 < (escape c).length := by
        have escapes := escapes_escape c
        generalize escape c = code at escapes
        cases escapes <;> simp
      rw [List.flatMap_cons, List.length_append, List.length_cons]
      omega

/-- A string that is written is read back. -/
theorem passes_string (text : String) : string.Passes (quote text).toList tail text := by
  have isShort := length_le_length_flatMap_escape text.toList
  rw [toList_quote]
  refine .skip (.get fun place => ?_)
  have isEnough :
      text.toList.length < (text.toList.flatMap escape ++ ['"'] ++ tail).length + 1 := by
    simp only [List.length_append]
    omega
  have isRead := @passes_stringRest tail text.toList [] _ isEnough
  rwa [List.reverse_nil, List.nil_append, String.ofList_toList] at isRead

/-- A string that is written is stepped over. -/
theorem passes_ignoreString (text : String) : ignoreString.Passes (quote text).toList tail () := by
  have isShort := length_le_length_flatMap_escape text.toList
  rw [toList_quote]
  refine .skip (.get fun place => passes_ignoreStringRest _ ?_)
  simp only [List.length_append]
  omega

end Strings

/-! ## Numbers -/

section Numbers

open Decimal (AreDigits IsWhole IsPlaces IsPower IsNumber)

variable {α : Type} {text tail : List Char} {result : α}

/-- No digit comes next. -/
def NoDigit (text : List Char) : Prop := ∀ c, text.head? = some c → c.isDigit = false

/-- What comes next does not belong to a number. -/
def EndsNumber (text : List Char) : Prop :=
  ∀ c, text.head? = some c → c.isDigit = false ∧ c ≠ '.' ∧ c ≠ 'e' ∧ c ≠ 'E'

theorem Passes.digitsAhead
    {next : List Char → Reader α}
    {digits : List Char}
    (areDigits : ∀ c ∈ digits, c.isDigit = true)
    (noMore : NoDigit (text ++ tail))
    (goesOn : (next digits).Passes (digits ++ text) tail result) :
    (Reader.digitsAhead >>= next).Passes (digits ++ text) tail result := by
  have isAhead : (digits ++ text ++ tail).takeWhile Char.isDigit = digits := by
    rw [List.append_assoc, List.takeWhile_append_of_pos areDigits]
    cases isRest : text ++ tail with
    | nil =>
        rw [List.takeWhile_nil, List.append_nil]
    | cons c rest =>
        have notDigit := noMore c (by rw [isRest, List.head?_cons])
        rw [List.takeWhile_cons, notDigit]
        exact List.append_nil _
  intro place
  obtain ⟨later, isRead⟩ := goesOn place
  refine ⟨later, ?_⟩
  have isBind :
      (Reader.digitsAhead >>= next) ⟨digits ++ text ++ tail, place⟩ =
        next ((digits ++ text ++ tail).takeWhile Char.isDigit) ⟨digits ++ text ++ tail, place⟩ :=
    rfl
  rw [isBind, isAhead]
  exact isRead

/-- Digits are ahead, and they are stepped over. -/
theorem passes_ignoreExponent
    {sign : Char}
    (isSign : sign = '+' ∨ sign = '-')
    (areDigits : AreDigits text)
    (ends : EndsNumber tail) :
    ignoreExponent.Passes ('e' :: sign :: text) tail () := by
  have signed : (some sign == some '+' || some sign == some '-') = true := by
    rcases isSign with rfl | rfl <;> decide
  have noMore : NoDigit ([] ++ tail) := fun c isNext => (ends c isNext).1
  have someDigits : ¬ text.isEmpty = true := by
    rw [List.isEmpty_iff]
    exact areDigits.1
  refine .skip (.peek ?_)
  simp only [signed, if_true]
  rw [← List.append_nil text]
  refine .skip (.digitsAhead areDigits.2 noMore ?_)
  rw [if_neg someDigits, List.append_nil]
  exact passes_skipMany text

theorem passes_ignorePower
    (isPower : IsPower text)
    (ends : EndsNumber tail) :
    ignorePower.Passes text tail () := by
  cases isPower with
  | nothing =>
      refine .peekAhead ?_
      split
      · next isNext => exact absurd rfl (ends _ isNext).2.2.1
      · next isNext => exact absurd rfl (ends _ isNext).2.2.2
      · exact passes_pure
  | power isSign areDigits =>
      exact .peek (passes_ignoreExponent isSign areDigits ends)

theorem noDigit_power
    (isPower : IsPower text)
    (ends : EndsNumber tail) :
    NoDigit (text ++ tail) := by
  cases isPower with
  | nothing =>
      exact fun c isNext => (ends c isNext).1
  | power =>
      rintro c ⟨⟩
      decide

/-- No point is at the start of what may end a number. -/
theorem head?_ne_point
    (isPower : IsPower text)
    (ends : EndsNumber tail) :
    (text ++ tail).head? ≠ some '.' := by
  cases isPower with
  | nothing =>
      exact fun isNext => (ends _ isNext).2.1 rfl
  | power =>
      rintro ⟨⟩

theorem passes_ignorePlaces
    {places power : List Char}
    (arePlaces : IsPlaces places)
    (isPower : IsPower power)
    (ends : EndsNumber tail) :
    ignorePlaces.Passes (places ++ power) tail () := by
  have isOver := passes_ignorePower isPower ends
  cases arePlaces with
  | nothing =>
      refine .peekAhead ?_
      split
      · next isPoint => exact absurd isPoint (head?_ne_point isPower ends)
      · exact isOver
  | places areDigits =>
      have someDigits := mt List.isEmpty_iff.mp areDigits.1
      refine .peek (.skip (.digitsAhead areDigits.2 (noDigit_power isPower ends) ?_))
      rw [if_neg someDigits]
      exact .bind (passes_skipMany _) isOver

/-- A number is stepped over. -/
theorem passes_ignoreNumber
    (isNumber : IsNumber text)
    (ends : EndsNumber tail) :
    ignoreNumber.Passes text tail () := by
  obtain @⟨whole, places, power, isWhole, arePlaces, isPower⟩ := isNumber
  have isOver := passes_ignorePlaces arePlaces isPower ends
  have noMore : NoDigit (places ++ power ++ tail) := by
    cases arePlaces with
    | nothing =>
        exact noDigit_power isPower ends
    | places =>
        rintro c ⟨⟩
        decide
  obtain ⟨first, more, rfl⟩ := List.exists_cons_of_ne_nil isWhole.digits.1
  rw [List.append_assoc]
  refine .digitsAhead isWhole.digits.2 noMore ?_
  by_cases isZero : first = '0'
  · cases isWhole.zero (congrArg some isZero)
    exact .skip isOver
  · simp only [if_neg isZero]
    exact .bind (passes_skipMany (first :: more)) isOver

end Numbers

/-! ## Values -/

section Values

open Decimal (IsNumber isNumber_write isWhole_toDigits)

variable {text gaps tail : List Char} {depth fuel : Nat}

theorem passes_word (text : List Char) : (word text).Passes text tail () := by
  induction text with
  | nil =>
      exact passes_pure
  | cons c text inductionHypothesis =>
      refine .peek ?_
      simp only [if_true]
      exact .skip inductionHypothesis

/-- What is written for a value that holds no others. -/
inductive IsSimple : List Char → Prop where
  | null : IsSimple ['n', 'u', 'l', 'l']
  | true : IsSimple ['t', 'r', 'u', 'e']
  | false : IsSimple ['f', 'a', 'l', 's', 'e']
  | number {text : List Char} (isNumber : IsNumber text) : IsSimple text
  | negative {text : List Char} (isNumber : IsNumber text) : IsSimple ('-' :: text)
  | quoted (text : String) : IsSimple (quote text).toList

theorem isSimple_int (value : Int) : IsSimple (toString value).toList := by
  have isNumber (n : Nat) : IsNumber (toString n).toList := by
    have isText : (toString n).toList = Nat.toDigits 10 n ++ [] ++ [] := by simp
    rw [isText]
    exact .parts (isWhole_toDigits n) .nothing .nothing
  cases value with
  | ofNat n =>
      exact .number (isNumber n)
  | negSucc n =>
      have isText : toString (Int.negSucc n) = "-" ++ toString (n + 1) := rfl
      rw [isText, String.toList_append]
      exact .negative (isNumber (n + 1))

theorem isSimple_double (number : Double) :
    IsSimple (Decimal.Layout.json.write number).toList := by
  rcases isNumber_write number with isNull | ⟨text, isNumber, isText | isText⟩
  · rw [isNull]
    exact .null
  · rw [isText]
    exact .number isNumber
  · rw [isText]
    exact .negative isNumber

/-- What is written for a value that is neither a list nor an object. -/
theorem isSimple_prettyFrom
    {value : Json}
    (noList : ∀ items, value ≠ .arr items)
    (noObject : ∀ members, value ≠ .obj members)
    (depth : Nat) :
    IsSimple (prettyFrom depth value).toList := by
  cases value with
  | null =>
      rw [prettyFrom]
      exact .null
  | bool value =>
      rw [prettyFrom]
      cases value
      · exact .false
      · exact .true
  | int value =>
      rw [prettyFrom]
      exact isSimple_int value
  | double number =>
      rw [prettyFrom]
      exact isSimple_double number
  | str text =>
      rw [prettyFrom]
      exact .quoted text
  | arr items =>
      exact absurd rfl (noList items)
  | obj members =>
      exact absurd rfl (noObject members)

theorem ne_of_isDigit
    {c : Char}
    (isDigit : c.isDigit = true)
    (other : Char)
    (notDigit : other.isDigit = false) :
    c ≠ other := by
  rintro rfl
  rw [isDigit] at notDigit
  cases notDigit

theorem isGap_of_isDigit
    {c : Char}
    (isDigit : c.isDigit = true) :
    isGap c = false := by
  simp only [isGap, Bool.or_eq_false_iff, beq_eq_false_iff_ne]
  exact ⟨⟨⟨ne_of_isDigit isDigit ' ' rfl, ne_of_isDigit isDigit '\n' rfl⟩,
    ne_of_isDigit isDigit '\t' rfl⟩, ne_of_isDigit isDigit '\r' rfl⟩

/-- A number begins with a digit. -/
theorem exists_first_number
    (isNumber : IsNumber text) :
    ∃ c rest, text = c :: rest ∧ c.isDigit = true := by
  obtain ⟨isWhole, -, -⟩ := isNumber
  obtain ⟨c, rest, rfl⟩ := List.exists_cons_of_ne_nil isWhole.digits.1
  exact ⟨c, _, rfl, isWhole.digits.2 c List.mem_cons_self⟩

/-- A value that holds no others is stepped over. -/
theorem IsSimple.passes_ignore
    (isSimple : IsSimple text)
    (areGaps : AreGaps gaps)
    (ends : EndsNumber tail) :
    (ignore (fuel + 1)).Passes (gaps ++ text) tail () := by
  rw [ignore]
  cases isSimple with
  | null =>
      exact .skipGaps areGaps rfl rfl (.skip (passes_word ['u', 'l', 'l']))
  | true =>
      exact .skipGaps areGaps rfl rfl (.skip (passes_word ['r', 'u', 'e']))
  | false =>
      exact .skipGaps areGaps rfl rfl (.skip (passes_word ['a', 'l', 's', 'e']))
  | number isNumber =>
      have isOver := passes_ignoreNumber isNumber ends
      obtain ⟨c, rest, rfl, isDigit⟩ := exists_first_number isNumber
      refine .skipGaps areGaps rfl (isGap_of_isDigit isDigit) ?_
      simp only [ne_of_isDigit isDigit 'n' rfl, ne_of_isDigit isDigit 't' rfl,
        ne_of_isDigit isDigit 'f' rfl, ne_of_isDigit isDigit '-' rfl, isDigit, if_true, if_false]
      exact isOver
  | negative isNumber =>
      exact .skipGaps areGaps rfl rfl (.skip (passes_ignoreNumber isNumber ends))
  | quoted text =>
      have isOver := @passes_ignoreString tail text
      rw [toList_quote] at isOver ⊢
      exact .skipGaps areGaps rfl rfl isOver

/-! ### Lists and objects -/

/-- A member with its key. -/
def memberText (depth : Nat) (key : String) (value : Json) : List Char :=
  (quote key).toList ++ ([':'] ++ ([' '] ++ (prettyFrom depth value).toList))

theorem memberText_append
    (key : String)
    (value : Json)
    (text : List Char) :
    memberText depth key value ++ text =
      (quote key).toList ++ ([':'] ++ ([' '] ++ (prettyFrom depth value).toList ++ text)) := by
  simp [memberText]

theorem head?_memberText
    (key : String)
    (value : Json)
    (text : List Char) :
    (memberText depth key value ++ text).head? = some '"' := by
  rw [memberText_append, toList_quote]
  rfl

theorem toList_prettyItems
    (item : Json)
    (rest : List Json) :
    (prettyItems depth (item :: rest)).toList =
      ',' :: ((newline depth).toList ++ (prettyFrom depth item).toList ++
        (prettyItems depth rest).toList) := by
  simp [prettyItems]

theorem toList_prettyMembers
    (member : String × Json)
    (rest : List (String × Json)) :
    (prettyMembers depth (member :: rest)).toList =
      ',' :: ((newline depth).toList ++ (memberText depth member.1 member.2 ++
        (prettyMembers depth rest).toList)) := by
  have isColon : ": ".toList = [':', ' '] := rfl
  simp [prettyMembers, memberText, isColon]

theorem toList_prettyFrom_arr
    (item : Json)
    (rest : List Json) :
    (prettyFrom depth (.arr (item :: rest))).toList =
      '[' :: ((newline (depth + 1)).toList ++ ((prettyFrom (depth + 1) item).toList ++
        ((prettyItems (depth + 1) rest).toList ++ ((newline depth).toList ++ [']'])))) := by
  simp [prettyFrom]

theorem toList_prettyFrom_obj
    (member : String × Json)
    (rest : List (String × Json)) :
    (prettyFrom depth (.obj (member :: rest))).toList =
      '\x7b' :: ((newline (depth + 1)).toList ++ (memberText (depth + 1) member.1 member.2 ++
        ((prettyMembers (depth + 1) rest).toList ++ ((newline depth).toList ++ ['\x7d'])))) := by
  have isColon : ": ".toList = [':', ' '] := rfl
  simp [prettyFrom, memberText, isColon]

/-- A text begins with no gap, and not with what ends a list. -/
def Begins (text : List Char) : Prop :=
  ∃ c rest, text = c :: rest ∧ isGap c = false ∧ c ≠ ']'

theorem IsSimple.begins
    (isSimple : IsSimple text) :
    Begins text := by
  cases isSimple with
  | null => exact ⟨_, _, rfl, rfl, by decide⟩
  | true => exact ⟨_, _, rfl, rfl, by decide⟩
  | false => exact ⟨_, _, rfl, rfl, by decide⟩
  | number isNumber =>
      obtain ⟨c, rest, rfl, isDigit⟩ := exists_first_number isNumber
      exact ⟨c, rest, rfl, isGap_of_isDigit isDigit, ne_of_isDigit isDigit ']' rfl⟩
  | negative isNumber => exact ⟨_, _, rfl, rfl, by decide⟩
  | quoted text =>
      rw [toList_quote]
      exact ⟨_, _, rfl, rfl, by decide⟩

theorem begins_prettyFrom
    (depth : Nat)
    (value : Json) :
    Begins (prettyFrom depth value).toList := by
  cases value with
  | arr items =>
      cases items with
      | nil =>
          rw [prettyFrom]
          exact ⟨'[', _, rfl, rfl, by decide⟩
      | cons item rest =>
          rw [toList_prettyFrom_arr]
          exact ⟨'[', _, rfl, rfl, by decide⟩
  | obj members =>
      cases members with
      | nil =>
          rw [prettyFrom]
          exact ⟨'\x7b', _, rfl, rfl, by decide⟩
      | cons member rest =>
          rw [toList_prettyFrom_obj]
          exact ⟨'\x7b', _, rfl, rfl, by decide⟩
  | _ =>
      exact (isSimple_prettyFrom (by simp) (by simp) depth).begins

/-- A value can be stepped over wherever it is written. -/
def IsSteppedOver (value : Json) : Prop :=
  ∀ ⦃gaps tail : List Char⦄ (depth fuel : Nat), AreGaps gaps → EndsNumber tail →
    (prettyFrom depth value).toList.length ≤ fuel →
      (ignore fuel).Passes (gaps ++ (prettyFrom depth value).toList) tail ()

theorem endsNumber_newline (depth : Nat) : EndsNumber ((newline depth).toList ++ text) := by
  rw [newline, String.toList_ofList]
  rintro c ⟨⟩
  decide

theorem endsNumber_comma : EndsNumber (',' :: text) := by
  rintro c ⟨⟩
  decide

/-- What stands behind an item or a member: what ends them, or a comma and the others. -/
inductive Follows (others : Reader Unit) (close : Char) (tail : List Char) : List Char → Prop where
  | close (depth : Nat) : Follows others close tail ((newline depth).toList ++ [close])
  | comma {text : List Char} (goesOn : others.Passes text tail ()) :
      Follows others close tail (',' :: text)

theorem Follows.endsNumber
    {others : Reader Unit}
    {close : Char}
    (follows : Follows others close tail text) :
    EndsNumber (text ++ tail) := by
  cases follows with
  | close depth =>
      rw [List.append_assoc]
      exact endsNumber_newline depth
  | comma =>
      exact endsNumber_comma

/-- An item is stepped over with all that follows. -/
theorem passes_ignoreItems
    (depth : Nat)
    {item : Json}
    (isOver : IsSteppedOver item)
    (areGaps : AreGaps gaps)
    (isEnough : (prettyFrom depth item).toList.length ≤ fuel)
    (follows : Follows (ignoreItems fuel) ']' tail text) :
    (ignoreItems (fuel + 1)).Passes (gaps ++ (prettyFrom depth item).toList ++ text) tail () := by
  rw [ignoreItems]
  refine .bind (isOver depth fuel areGaps follows.endsNumber isEnough) ?_
  cases follows with
  | close outer => exact .skipGaps (areGaps_newline outer) rfl rfl passes_skip
  | comma goesOn => exact .lookAhead rfl rfl (.skip goesOn)

theorem passes_colon : colon.Passes [':'] tail () := .lookAhead rfl rfl passes_skip

theorem areGaps_blank : AreGaps [' '] := by simp [AreGaps, isGap]

/-- A member is stepped over with all that follows. -/
theorem passes_ignoreMembers
    (depth : Nat)
    {key : String}
    {value : Json}
    (isOver : IsSteppedOver value)
    (areGaps : AreGaps gaps)
    (isEnough : (prettyFrom depth value).toList.length ≤ fuel)
    (follows : Follows (ignoreMembers fuel) '\x7d' tail text) :
    (ignoreMembers (fuel + 1)).Passes (gaps ++ (memberText depth key value ++ text)) tail () := by
  have isFirst : (memberText depth key value ++ text ++ tail).head? = some '"' := by
    rw [List.append_assoc]
    exact head?_memberText key value _
  have passed := isOver depth fuel areGaps_blank follows.endsNumber isEnough
  rw [ignoreMembers]
  refine .skipGaps areGaps isFirst rfl ?_
  rw [memberText_append]
  refine .bind (passes_ignoreString key) (.bind passes_colon (.bind passed ?_))
  cases follows with
  | close outer => exact .skipGaps (areGaps_newline outer) rfl rfl passes_skip
  | comma goesOn => exact .lookAhead rfl rfl (.skip goesOn)

theorem isSteppedOver_of_isSimple
    {value : Json}
    (isSimple : ∀ depth, IsSimple (prettyFrom depth value).toList) :
    IsSteppedOver value := by
  intro gaps tail depth fuel areGaps ends isEnough
  obtain ⟨c, rest, isText, -⟩ := (isSimple depth).begins
  rw [isText] at isEnough
  obtain ⟨fuel, rfl⟩ := Nat.exists_eq_add_one.mpr (Nat.lt_of_lt_of_le (Nat.succ_pos _) isEnough)
  exact (isSimple depth).passes_ignore areGaps ends

theorem follows_items
    {items : List Json}
    (areOver : ∀ item ∈ items, IsSteppedOver item)
    (depth outer : Nat)
    (isEnough : (prettyItems depth items).toList.length ≤ fuel) :
    Follows (ignoreItems fuel) ']' tail
      ((prettyItems depth items).toList ++ ((newline outer).toList ++ [']'])) := by
  induction items generalizing fuel with
  | nil =>
      rw [prettyItems]
      exact .close outer
  | cons item rest inductionHypothesis =>
      -- The comma pays for the turn of fuel that the item takes.
      obtain ⟨isOver, areRest⟩ := List.forall_mem_cons.mp areOver
      rw [toList_prettyItems] at isEnough ⊢
      simp only [List.length_cons, List.length_append] at isEnough
      obtain ⟨fuel, rfl⟩ := Nat.exists_eq_add_one.mpr (show 0 < fuel by omega)
      have follows := @inductionHypothesis fuel areRest (by omega)
      rw [List.cons_append, List.append_assoc _ _ (_ ++ _)]
      exact .comma (passes_ignoreItems depth isOver (areGaps_newline depth) (by omega) follows)

theorem follows_members
    {members : List (String × Json)}
    (areOver : ∀ member ∈ members, IsSteppedOver member.2)
    (depth outer : Nat)
    (isEnough : (prettyMembers depth members).toList.length ≤ fuel) :
    Follows (ignoreMembers fuel) '\x7d' tail
      ((prettyMembers depth members).toList ++ ((newline outer).toList ++ ['\x7d'])) := by
  induction members generalizing fuel with
  | nil =>
      rw [prettyMembers]
      exact .close outer
  | cons member rest inductionHypothesis =>
      obtain ⟨isOver, areRest⟩ := List.forall_mem_cons.mp areOver
      rw [toList_prettyMembers] at isEnough ⊢
      simp only [memberText, List.length_cons, List.length_append] at isEnough
      obtain ⟨fuel, rfl⟩ := Nat.exists_eq_add_one.mpr (show 0 < fuel by omega)
      have follows := @inductionHypothesis fuel areRest (by omega)
      rw [List.cons_append, List.append_assoc, List.append_assoc]
      exact .comma (passes_ignoreMembers depth isOver (areGaps_newline depth) (by omega) follows)

/-- A list is stepped over, if each of its items is. -/
theorem isSteppedOver_arr
    {items : List Json}
    (areOver : ∀ item ∈ items, IsSteppedOver item) :
    IsSteppedOver (.arr items) := by
  intro gaps tail depth fuel areGaps ends isEnough
  cases items with
  | nil =>
      rw [prettyFrom] at isEnough ⊢
      obtain ⟨fuel, rfl⟩ := Nat.exists_eq_add_one.mpr (Nat.lt_of_lt_of_le (by decide) isEnough)
      rw [ignore]
      exact .skipGaps areGaps rfl rfl (.skip (.lookAhead rfl rfl passes_skip))
  | cons item rest =>
      obtain ⟨isOver, areRest⟩ := List.forall_mem_cons.mp areOver
      rw [toList_prettyFrom_arr] at isEnough ⊢
      simp only [List.length_cons, List.length_append] at isEnough
      obtain ⟨fuel, rfl⟩ := Nat.exists_eq_add_of_le' (show 2 ≤ fuel by omega)
      have follows := @follows_items tail fuel rest areRest (depth + 1) depth (by omega)
      have passed :=
        @passes_ignoreItems _ [] tail fuel (depth + 1) item isOver nofun (by omega) follows
      obtain ⟨c, more, isItem, notGap, notEnd⟩ := begins_prettyFrom (depth + 1) item
      rw [ignore]
      refine .skipGaps areGaps rfl rfl (.skip (.skipGaps (areGaps_newline _) ?_ notGap ?_))
      · rw [isItem]
        rfl
      · split
        · next isEnd => exact absurd (Option.some.inj isEnd) notEnd
        · next isNone => cases isNone
        · exact passed

/-- An object is stepped over, if the value of each of its members is. -/
theorem isSteppedOver_obj
    {members : List (String × Json)}
    (areOver : ∀ member ∈ members, IsSteppedOver member.2) :
    IsSteppedOver (.obj members) := by
  intro gaps tail depth fuel areGaps ends isEnough
  cases members with
  | nil =>
      rw [prettyFrom] at isEnough ⊢
      obtain ⟨fuel, rfl⟩ := Nat.exists_eq_add_one.mpr (Nat.lt_of_lt_of_le (by decide) isEnough)
      rw [ignore]
      exact .skipGaps areGaps rfl rfl (.skip (.lookAhead rfl rfl passes_skip))
  | cons member rest =>
      obtain ⟨key, value⟩ := member
      obtain ⟨isOver, areRest⟩ := List.forall_mem_cons.mp areOver
      rw [toList_prettyFrom_obj] at isEnough ⊢
      simp only [memberText, List.length_cons, List.length_append] at isEnough
      obtain ⟨fuel, rfl⟩ := Nat.exists_eq_add_of_le' (show 2 ≤ fuel by omega)
      have follows := @follows_members tail fuel rest areRest (depth + 1) depth (by omega)
      have passed :=
        @passes_ignoreMembers _ [] tail fuel (depth + 1) key value isOver nofun (by omega) follows
      have isNext :
          (memberText (depth + 1) key value ++ ((prettyMembers (depth + 1) rest).toList ++
            ((newline depth).toList ++ ['\x7d'])) ++ tail).head? = some '"' := by
        rw [List.append_assoc]
        exact head?_memberText key value _
      rw [ignore]
      refine .skipGaps areGaps rfl rfl (.skip (.skipGaps (areGaps_newline _) isNext rfl ?_))
      simp only [show '"' ≠ Char.ofNat 0x7D by decide, if_false]
      exact passed

mutual

/-- Every value is stepped over, however deep it is. -/
theorem isSteppedOver : ∀ value : Json, IsSteppedOver value
  | .null => isSteppedOver_of_isSimple (isSimple_prettyFrom (by simp) (by simp))
  | .bool _ => isSteppedOver_of_isSimple (isSimple_prettyFrom (by simp) (by simp))
  | .int _ => isSteppedOver_of_isSimple (isSimple_prettyFrom (by simp) (by simp))
  | .double _ => isSteppedOver_of_isSimple (isSimple_prettyFrom (by simp) (by simp))
  | .str _ => isSteppedOver_of_isSimple (isSimple_prettyFrom (by simp) (by simp))
  | .arr items => isSteppedOver_arr (isSteppedOver_items items)
  | .obj members => isSteppedOver_obj (isSteppedOver_members members)

theorem isSteppedOver_items : ∀ items : List Json, ∀ item ∈ items, IsSteppedOver item
  | [] => nofun
  | item :: rest => List.forall_mem_cons.mpr ⟨isSteppedOver item, isSteppedOver_items rest⟩

theorem isSteppedOver_members :
    ∀ members : List (String × Json), ∀ member ∈ members, IsSteppedOver member.2
  | [] => nofun
  | (_, value) :: rest =>
      List.forall_mem_cons.mpr ⟨isSteppedOver value, isSteppedOver_members rest⟩

end

end Values

end Reader

end Runbook.Json
