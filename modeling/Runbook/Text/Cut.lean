import Runbook.Text.Search

namespace Runbook.Text

/-!
# Cutting texts by bytes

A cut at a number of bytes falls between two characters: it moves to the front if it
would fall within one.
-/

/-- The longest start of a text that has at most so many bytes. -/
def takeBytes (bytes : Nat) : List Char → List Char
  | [] => []
  | c :: rest =>
      if c.utf8Size ≤ bytes then c :: takeBytes (bytes - c.utf8Size) rest else []

/-- The text behind the longest start that has at most so many bytes. -/
def dropBytes (bytes : Nat) : List Char → List Char
  | [] => []
  | c :: rest =>
      if c.utf8Size ≤ bytes then dropBytes (bytes - c.utf8Size) rest else c :: rest

theorem takeBytes_append_dropBytes (bytes : Nat) (text : List Char) :
    takeBytes bytes text ++ dropBytes bytes text = text := by
  induction text generalizing bytes with
  | nil => rfl
  | cons c rest ih =>
      simp only [takeBytes, dropBytes]
      split <;> simp [ih]

theorem byteLength_takeBytes_le (bytes : Nat) (text : List Char) :
    byteLength (takeBytes bytes text) ≤ bytes := by
  induction text generalizing bytes with
  | nil => simp [takeBytes, byteLength]
  | cons c rest ih =>
      simp only [takeBytes]
      split
      · next h =>
          have := ih (bytes - c.utf8Size)
          simp only [byteLength]
          omega
      · simp [byteLength]

end Runbook.Text
