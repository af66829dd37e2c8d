namespace Runbook.Text

/-!
# UTF-8

Bytes are read one character at a time.  A byte that begins no character, or begins
one that the bytes behind it do not finish, is a flaw; the flaw takes up the bytes
that could still have become a character, and at least one.
-/

/-- Bytes of a file or of a message. -/
abbrev Bytes := List UInt8

/-- The bytes of a text. -/
def toBytes (text : String) : Bytes := text.toUTF8.toList

/-- What stands at the start of bytes: a character or a flaw, and the bytes behind. -/
structure Lead where
  char : Option Char
  rest : Bytes

/-- Whether a byte continues a character. -/
def isContinuation (byte : UInt8) : Bool := 0x80 ≤ byte && byte ≤ 0xBF

/-- The smallest and the largest byte that may follow a first byte. -/
def secondBounds (first : UInt8) : UInt8 × UInt8 :=
  if first = 0xE0 then (0xA0, 0xBF)
  else if first = 0xED then (0x80, 0x9F)
  else if first = 0xF0 then (0x90, 0xBF)
  else if first = 0xF4 then (0x80, 0x8F)
  else (0x80, 0xBF)

/-- How many bytes follow a first byte; `none` if it begins no character. -/
def followers? (first : UInt8) : Option Nat :=
  if first ≤ 0x7F then some 0
  else if first < 0xC2 then none
  else if first ≤ 0xDF then some 1
  else if first ≤ 0xEF then some 2
  else if first ≤ 0xF4 then some 3
  else none

/-- The bits of a first byte that belong to the character. -/
def firstBits (first : UInt8) (followers : Nat) : Nat :=
  match followers with
  | 0 => first.toNat
  | 1 => first.toNat % 32
  | 2 => first.toNat % 16
  | _ => first.toNat % 8

/-- Read the bytes that follow, the next one within bounds. -/
def readFollowers (value : Nat) (low high : UInt8) : Nat → Bytes → Lead
  | 0, bytes => ⟨some (Char.ofNat value), bytes⟩
  | _ + 1, [] => ⟨none, []⟩
  | left + 1, byte :: rest =>
      if low ≤ byte && byte ≤ high then
        readFollowers (value * 64 + byte.toNat % 64) 0x80 0xBF left rest
      else ⟨none, byte :: rest⟩

/-- Read what stands behind a first byte. -/
def lead (first : UInt8) (rest : Bytes) : Lead :=
  match followers? first with
  | none => ⟨none, rest⟩
  | some count =>
      let bounds := secondBounds first
      readFollowers (firstBits first count) bounds.1 bounds.2 count rest

theorem length_readFollowers (value : Nat) (low high : UInt8) (left : Nat) (bytes : Bytes) :
    (readFollowers value low high left bytes).rest.length ≤ bytes.length := by
  induction left generalizing value low high bytes with
  | zero => simp [readFollowers]
  | succ left ih =>
      cases bytes with
      | nil => simp [readFollowers]
      | cons byte rest =>
          simp only [readFollowers]
          split
          · have := ih (value * 64 + byte.toNat % 64) 0x80 0xBF rest
            simp only [List.length_cons]
            omega
          · simp

theorem length_lead (first : UInt8) (rest : Bytes) :
    (lead first rest).rest.length ≤ rest.length := by
  unfold lead
  split
  · simp
  · exact length_readFollowers _ _ _ _ _

/-- The characters and flaws in bytes. -/
def leads (bytes : Bytes) : List (Option Char) :=
  match bytes with
  | [] => []
  | first :: rest => (lead first rest).char :: leads (lead first rest).rest
termination_by bytes.length
decreasing_by
  have := length_lead first rest
  simp only [List.length_cons]
  omega

/-- The text of bytes, if there is no flaw in them. -/
def decode? (bytes : Bytes) : Option (List Char) := (leads bytes).mapM id

/-- The character that stands for a flaw. -/
def replacement : Char := Char.ofNat 0xFFFD

/-- The text of bytes, with a replacement for each flaw. -/
def decodeLossy (bytes : Bytes) : List Char :=
  (leads bytes).map fun char => char.getD replacement

/-- The character that some texts begin with to mark their encoding. -/
def byteOrderMark : Char := Char.ofNat 0xFEFF

/-- A text without a mark at its start. -/
def dropMark : List Char → List Char
  | [] => []
  | c :: rest => if c = byteOrderMark then rest else c :: rest

end Runbook.Text
