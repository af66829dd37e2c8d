import Mathlib.Data.List.Basic
import Runbook.Text.Utf8

namespace Runbook.Text

/-!
# Bytes that are texts

What is read from bytes without a flaw is the one text that has these bytes in UTF-8.  A first
byte says how many follow and bounds the next one; within these bounds what is read is a code
point of a character, and the bytes are those of that character.
-/

variable {value : Nat} {low high byte first : UInt8} {left count : Nat} {bytes rest : Bytes}

/-- The byte that carries six bits of a character is read as these. -/
theorem readFollowers_cons
    {part : Nat}
    (isPart : part < 64)
    (atLeast : low.toNat ≤ part + 128)
    (atMost : part + 128 ≤ high.toNat) :
    readFollowers value low high (left + 1) (UInt8.ofNat (part + 128) :: rest) =
      readFollowers (value * 64 + part) 0x80 0xBF left rest := by
  have toNat_byte : (UInt8.ofNat (part + 128)).toNat = part + 128 := by
    rw [UInt8.toNat_ofNat']
    omega
  have within : (low ≤ UInt8.ofNat (part + 128) && UInt8.ofNat (part + 128) ≤ high) = true := by
    simp only [UInt8.le_iff_toNat_le, toNat_byte, atLeast, atMost, decide_true, Bool.and_self]
  rw [readFollowers, within, if_pos rfl, toNat_byte]
  congr 1
  omega

/-- A character that is read from bytes that follow has the next one within the bounds. -/
theorem exists_of_readFollowers
    {c : Char}
    (isRead : readFollowers value low high (left + 1) bytes = ⟨some c, rest⟩) :
    ∃ byte tail, bytes = byte :: tail ∧ low.toNat ≤ byte.toNat ∧ byte.toNat ≤ high.toNat ∧
      readFollowers (value * 64 + byte.toNat % 64) 0x80 0xBF left tail = ⟨some c, rest⟩ := by
  cases bytes with
  | nil =>
      cases isRead
  | cons byte tail =>
      rw [readFollowers] at isRead
      by_cases within : (low ≤ byte && byte ≤ high) = true
      · rw [if_pos within] at isRead
        simp only [Bool.and_eq_true, decide_eq_true_eq, UInt8.le_iff_toNat_le] at within
        exact ⟨byte, tail, rfl, within.1, within.2, isRead⟩
      · rw [if_neg within] at isRead
        cases isRead

/-- The bounds of the byte behind a first byte, as numbers. -/
theorem secondBounds_cases (first : UInt8) :
    (first.toNat = 224 ∧ (secondBounds first).1.toNat = 160 ∨
        first.toNat = 240 ∧ (secondBounds first).1.toNat = 144 ∨
          first.toNat ≠ 224 ∧ first.toNat ≠ 240 ∧ (secondBounds first).1.toNat = 128) ∧
      (first.toNat = 237 ∧ (secondBounds first).2.toNat = 159 ∨
        first.toNat = 244 ∧ (secondBounds first).2.toNat = 143 ∨
          first.toNat ≠ 237 ∧ first.toNat ≠ 244 ∧ (secondBounds first).2.toNat = 191) := by
  have numbers :
      (0xE0 : UInt8).toNat = 224 ∧ (0xED : UInt8).toNat = 237 ∧ (0xF0 : UInt8).toNat = 240 ∧
        (0xF4 : UInt8).toNat = 244 := by
    decide
  simp only [secondBounds, ← UInt8.toNat_inj, numbers]
  split
  · next isFirst => simp [isFirst]
  · split
    · next isFirst => simp [isFirst]
    · split
      · next isFirst => simp [isFirst]
      · split
        · next isFirst => simp [isFirst]
        · simp [*]

/-- How many bytes follow a first byte, by its number. -/
theorem followers?_eq (first : UInt8) :
    followers? first =
      if first.toNat ≤ 127 then some 0
      else if first.toNat < 194 then none
      else if first.toNat ≤ 223 then some 1
      else if first.toNat ≤ 239 then some 2
      else if first.toNat ≤ 244 then some 3
      else none := by
  simp only [followers?, UInt8.le_iff_toNat_le, UInt8.lt_iff_toNat_lt]
  rfl

theorem lead_of_followers
    (isCount : followers? first = some count)
    (bytes : Bytes) :
    lead first bytes =
      readFollowers (firstBits first count) (secondBounds first).1 (secondBounds first).2 count
        bytes := by
  rw [lead, isCount]

/-- The bytes of a character are read as the character. -/
theorem lead_utf8EncodeChar
    (c : Char)
    (rest : Bytes) :
    ∃ first tail, String.utf8EncodeChar c = first :: tail ∧
      lead first (tail ++ rest) = ⟨some c, rest⟩ := by
  have isValid : c.toNat < 55296 ∨ 57343 < c.toNat ∧ c.toNat < 1114112 := c.valid
  have isPoint : Char.ofNat c.toNat = c := Char.ofNat_toNat c
  unfold String.utf8EncodeChar
  rw [show c.val.toNat = c.toNat from rfl]
  generalize c.toNat = point at isValid isPoint
  have toNat_first
      (value : Nat)
      (isByte : value < 256) :
      (UInt8.ofNat value).toNat = value := by
    rw [UInt8.toNat_ofNat']
    omega
  have anyLow : (0x80 : UInt8).toNat = 128 := rfl
  have anyHigh : (0xBF : UInt8).toNat = 191 := rfl
  dsimp only
  split
  case isTrue isOne =>
    refine ⟨_, _, rfl, ?_⟩
    have isFirst := toNat_first point (by omega)
    have isCount : followers? (UInt8.ofNat point) = some 0 := by
      rw [followers?_eq, isFirst, if_pos isOne]
    rw [lead_of_followers isCount, firstBits, isFirst, readFollowers, isPoint]
    rfl
  case isFalse isMore =>
    split
    case isTrue isTwo =>
      refine ⟨_, _, rfl, ?_⟩
      have isFirst := toNat_first (point / 64 % 32 + 192) (by omega)
      have isCount : followers? (UInt8.ofNat (point / 64 % 32 + 192)) = some 1 := by
        rw [followers?_eq, isFirst, if_neg (by omega), if_neg (by omega), if_pos (by omega)]
      obtain ⟨isLow, isHigh⟩ := secondBounds_cases (UInt8.ofNat (point / 64 % 32 + 192))
      rw [isFirst] at isLow isHigh
      have isSum : (point / 64 % 32 + 192) % 32 * 64 + point % 64 = point := by
        omega
      rw [lead_of_followers isCount, firstBits, isFirst, List.cons_append, List.nil_append,
        readFollowers_cons (by omega) (by omega) (by omega), readFollowers, isSum, isPoint]
    case isFalse isMore =>
      split
      case isTrue isThree =>
        refine ⟨_, _, rfl, ?_⟩
        have isFirst := toNat_first (point / 4096 % 16 + 224) (by omega)
        have isCount : followers? (UInt8.ofNat (point / 4096 % 16 + 224)) = some 2 := by
          rw [followers?_eq, isFirst, if_neg (by omega), if_neg (by omega), if_neg (by omega),
            if_pos (by omega)]
        obtain ⟨isLow, isHigh⟩ := secondBounds_cases (UInt8.ofNat (point / 4096 % 16 + 224))
        rw [isFirst] at isLow isHigh
        have isSum :
            ((point / 4096 % 16 + 224) % 16 * 64 + point / 64 % 64) * 64 + point % 64 = point := by
          omega
        rw [lead_of_followers isCount, firstBits, isFirst, List.cons_append, List.cons_append,
          List.nil_append, readFollowers_cons (by omega) (by omega) (by omega),
          readFollowers_cons (by omega) (by omega) (by omega), readFollowers, isSum, isPoint]
      case isFalse isMore =>
        refine ⟨_, _, rfl, ?_⟩
        have isFirst := toNat_first (point / 262144 % 8 + 240) (by omega)
        have isCount : followers? (UInt8.ofNat (point / 262144 % 8 + 240)) = some 3 := by
          rw [followers?_eq, isFirst, if_neg (by omega), if_neg (by omega), if_neg (by omega),
            if_neg (by omega), if_pos (by omega)]
        obtain ⟨isLow, isHigh⟩ := secondBounds_cases (UInt8.ofNat (point / 262144 % 8 + 240))
        rw [isFirst] at isLow isHigh
        have isSum :
            (((point / 262144 % 8 + 240) % 8 * 64 + point / 4096 % 64) * 64 +
              point / 64 % 64) * 64 + point % 64 = point := by
          omega
        have isBits :
            firstBits (UInt8.ofNat (point / 262144 % 8 + 240)) 3 =
              (point / 262144 % 8 + 240) % 8 := by
          exact congrArg (· % 8) isFirst
        rw [lead_of_followers isCount, isBits, List.cons_append, List.cons_append,
          List.cons_append, List.nil_append, readFollowers_cons (by omega) (by omega) (by omega),
          readFollowers_cons (by omega) (by omega) (by omega),
          readFollowers_cons (by omega) (by omega) (by omega), readFollowers, isSum, isPoint]

theorem toNat_val_ofNat
    (point : Nat)
    (isValid : point < 55296 ∨ 57343 < point ∧ point < 1114112) :
    (Char.ofNat point).val.toNat = point := by
  rw [Char.ofNat, dif_pos isValid]
  rfl

theorem ofNat_eq_of_toNat
    {number : Nat}
    (same : number = byte.toNat) :
    UInt8.ofNat number = byte := by
  rw [same, UInt8.ofNat_toNat]

/-- What is read as a character are the bytes of the character. -/
theorem eq_of_lead
    {c : Char}
    (isRead : lead first bytes = ⟨some c, rest⟩) :
    first :: bytes = String.utf8EncodeChar c ++ rest := by
  cases isCount : followers? first with
  | none =>
      rw [lead, isCount] at isRead
      cases isRead
  | some count =>
      rw [lead_of_followers isCount] at isRead
      obtain ⟨isLow, isHigh⟩ := secondBounds_cases first
      have anyLow : (0x80 : UInt8).toNat = 128 := rfl
      have anyHigh : (0xBF : UInt8).toNat = 191 := rfl
      rw [followers?_eq] at isCount
      split at isCount
      · next isOne =>
          cases isCount
          cases isRead
          have isPoint : (Char.ofNat first.toNat).val.toNat = first.toNat :=
            toNat_val_ofNat _ (by omega)
          rw [firstBits, String.utf8EncodeChar, isPoint, if_pos isOne, UInt8.ofNat_toNat]
          rfl
      · split at isCount
        · cases isCount
        · split at isCount
          · next isTwo =>
              cases isCount
              obtain ⟨second, tail, rfl, atLeast, atMost, isRead⟩ :=
                exists_of_readFollowers isRead
              cases isRead
              have isPoint := toNat_val_ofNat (first.toNat % 32 * 64 + second.toNat % 64)
                (by omega)
              rw [firstBits, String.utf8EncodeChar, isPoint, if_neg (by omega),
                if_pos (by omega), ofNat_eq_of_toNat (by omega : _ = first.toNat),
                ofNat_eq_of_toNat (by omega : _ = second.toNat)]
              rfl
          · split at isCount
            · next isThree =>
                cases isCount
                obtain ⟨second, _, rfl, atLeast, atMost, isRead⟩ := exists_of_readFollowers isRead
                obtain ⟨third, tail, rfl, thirdLow, thirdHigh, isRead⟩ :=
                  exists_of_readFollowers isRead
                cases isRead
                have isPoint := toNat_val_ofNat
                  ((first.toNat % 16 * 64 + second.toNat % 64) * 64 + third.toNat % 64) (by omega)
                rw [firstBits, String.utf8EncodeChar, isPoint, if_neg (by omega),
                  if_neg (by omega), if_pos (by omega),
                  ofNat_eq_of_toNat (by omega : _ = first.toNat),
                  ofNat_eq_of_toNat (by omega : _ = second.toNat),
                  ofNat_eq_of_toNat (by omega : _ = third.toNat)]
                rfl
            · split at isCount
              · next isFour =>
                  cases isCount
                  obtain ⟨second, _, rfl, atLeast, atMost, isRead⟩ :=
                    exists_of_readFollowers isRead
                  obtain ⟨third, _, rfl, thirdLow, thirdHigh, isRead⟩ :=
                    exists_of_readFollowers isRead
                  obtain ⟨fourth, tail, rfl, fourthLow, fourthHigh, isRead⟩ :=
                    exists_of_readFollowers isRead
                  cases isRead
                  have isPoint := toNat_val_ofNat
                    (((first.toNat % 8 * 64 + second.toNat % 64) * 64 + third.toNat % 64) * 64 +
                      fourth.toNat % 64) (by omega)
                  have isBits : firstBits first 3 = first.toNat % 8 := rfl
                  rw [isBits, String.utf8EncodeChar, isPoint, if_neg (by omega),
                    if_neg (by omega), if_neg (by omega),
                    ofNat_eq_of_toNat (by omega : _ = first.toNat),
                    ofNat_eq_of_toNat (by omega : _ = second.toNat),
                    ofNat_eq_of_toNat (by omega : _ = third.toNat),
                    ofNat_eq_of_toNat (by omega : _ = fourth.toNat)]
                  rfl
              · cases isCount

/-- The characters that are read from the bytes of characters are these. -/
theorem leads_flatMap (text : List Char) :
    leads (text.flatMap String.utf8EncodeChar) = text.map some := by
  induction text with
  | nil =>
      rw [List.flatMap_nil, leads, List.map_nil]
  | cons c text inductionHypothesis =>
      obtain ⟨first, tail, isChar, isRead⟩ :=
        lead_utf8EncodeChar c (text.flatMap String.utf8EncodeChar)
      rw [List.flatMap_cons, isChar, List.cons_append, leads, isRead, inductionHypothesis,
        List.map_cons]

/-- Bytes in which only characters are read are the bytes of these. -/
theorem eq_of_leads
    {text : List Char}
    (areRead : leads bytes = text.map some) :
    bytes = text.flatMap String.utf8EncodeChar := by
  induction text generalizing bytes with
  | nil =>
      cases bytes with
      | nil =>
          rfl
      | cons first rest =>
          rw [leads] at areRead
          cases areRead
  | cons c text inductionHypothesis =>
      cases bytes with
      | nil =>
          rw [leads] at areRead
          cases areRead
      | cons first rest =>
          rw [leads, List.map_cons, List.cons.injEq] at areRead
          obtain ⟨isChar, areRest⟩ := areRead
          have isRead : lead first rest = ⟨some c, (lead first rest).rest⟩ := by
            rw [← isChar]
          rw [eq_of_lead isRead, inductionHypothesis areRest, List.flatMap_cons]

theorem mapM_id_eq_some_iff
    {α : Type}
    {found : List (Option α)}
    {items : List α} :
    found.mapM id = some items ↔ found = items.map some := by
  induction found generalizing items with
  | nil =>
      cases items <;> simp
  | cons first rest inductionHypothesis =>
      rw [List.mapM_cons]
      cases first with
      | none =>
          cases items <;> simp
      | some first =>
          cases items <;> simp [Option.bind_eq_some_iff, inductionHypothesis, and_comm]

/-- A walk along bytes gathers those that are left. -/
theorem toList_loop_eq
    (array : ByteArray)
    (position : Nat)
    (gathered : List UInt8) :
    ByteArray.toList.loop array position gathered =
      gathered.reverse ++ array.data.toList.drop position := by
  fun_induction ByteArray.toList.loop array position gathered with
  | case1 position gathered within inductionHypothesis =>
      have isNext : position < array.data.toList.length := by
        simpa using within
      rw [inductionHypothesis, List.drop_eq_getElem_cons isNext]
      simp [ByteArray.get!, within]
  | case2 position gathered beyond =>
      have isOver : array.data.toList.length ≤ position := by
        simpa using Nat.le_of_not_lt beyond
      rw [List.drop_eq_nil_of_le isOver, List.append_nil]

/-- The bytes of a text are those of its characters, one after another. -/
theorem toBytes_ofList (text : List Char) :
    toBytes (String.ofList text) = text.flatMap String.utf8EncodeChar := by
  rw [toBytes, String.toUTF8, String.toByteArray_ofList, List.utf8Encode, ByteArray.toList,
    toList_loop_eq, List.toList_data_toByteArray]
  rfl

/-- The bytes of a text are read as the text, also where flaws would be replaced. -/
theorem decodeLossy_toBytes (text : String) : decodeLossy (toBytes text) = text.toList := by
  have isText := toBytes_ofList text.toList
  rw [String.ofList_toList] at isText
  rw [decodeLossy, isText, leads_flatMap, List.map_map]
  exact List.map_id _

/-- Bytes are read as a text exactly if they are its bytes. -/
theorem decode?_eq_some_iff
    {text : List Char} :
    decode? bytes = some text ↔ bytes = toBytes (String.ofList text) := by
  rw [decode?, mapM_id_eq_some_iff, toBytes_ofList]
  constructor
  · exact eq_of_leads
  · rintro rfl
    exact leads_flatMap text

end Runbook.Text
