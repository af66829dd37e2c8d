import Runbook.Text.Blank

namespace Runbook.Text

/-!
# Search

Occurrences of one text in another, from left to right and without overlap.
-/

/-- The rest of a text after a text that it starts with. -/
def after? : (start text : List Char) → Option (List Char)
  | [], text => some text
  | _ :: _, [] => none
  | c :: start, d :: text => if c = d then after? start text else none

/-- Whether a text starts with another. -/
def startsWith (start text : List Char) : Bool := (after? start text).isSome

/-- The parts before and after the first occurrence. -/
def splitFirst? (wanted : List Char) : List Char → Option (List Char × List Char)
  | [] => if wanted.isEmpty then some ([], []) else none
  | c :: rest =>
      match after? wanted (c :: rest) with
      | some tail => some ([], tail)
      | none => (splitFirst? wanted rest).map fun parts => (c :: parts.1, parts.2)

/-- Whether a text occurs in another. -/
def occursIn (wanted text : List Char) : Bool := (splitFirst? wanted text).isSome

theorem length_after? {start text tail : List Char}
    (h : after? start text = some tail) :
    tail.length + start.length = text.length := by
  induction start generalizing text with
  | nil => simp_all [after?]
  | cons c start ih =>
      cases text with
      | nil => simp [after?] at h
      | cons d text =>
          simp only [after?] at h
          split at h
          · have := ih h
            simp only [List.length_cons]
            omega
          · simp at h

theorem length_splitFirst? {wanted text : List Char} {parts : List Char × List Char}
    (h : splitFirst? wanted text = some parts) :
    parts.1.length + wanted.length + parts.2.length = text.length := by
  induction text generalizing parts with
  | nil =>
      simp only [splitFirst?] at h
      split at h <;> simp_all
      subst h
      simp
  | cons c rest ih =>
      simp only [splitFirst?] at h
      split at h
      · next tail htail =>
          have := length_after? htail
          simp only [Option.some.injEq] at h
          subst h
          simp only [List.length_nil, List.length_cons] at *
          omega
      · simp only [Option.map_eq_some_iff] at h
        obtain ⟨inner, hinner, rfl⟩ := h
        have := ih hinner
        simp only [List.length_cons]
        omega

/-- The number of occurrences that do not overlap, counted from the left; a
text without characters is not counted. -/
def countIn (wanted text : List Char) : Nat :=
  if wanted = [] then 0
  else
    match _h : splitFirst? wanted text with
    | none => 0
    | some parts => 1 + countIn wanted parts.2
termination_by text.length
decreasing_by
  have := length_splitFirst? _h
  have : wanted.length ≠ 0 := by simp_all
  omega

/-- A text with every occurrence replaced. -/
def replaceIn (wanted new text : List Char) : List Char :=
  if wanted = [] then text
  else
    match _h : splitFirst? wanted text with
    | none => text
    | some parts => parts.1 ++ new ++ replaceIn wanted new parts.2
termination_by text.length
decreasing_by
  have := length_splitFirst? _h
  have : wanted.length ≠ 0 := by simp_all
  omega

/-- The text up to and with the last occurrence of a character. -/
def throughLast? (wanted : Char) (text : List Char) : Option (List Char) :=
  match text.reverse.dropWhile (· != wanted) with
  | [] => none
  | kept => some kept.reverse

/-- The number of bytes of a text in UTF-8. -/
def byteLength : List Char → Nat
  | [] => 0
  | c :: rest => c.utf8Size + byteLength rest

/-- The first `count` characters and, if some are left out, three dots. -/
def preview (count : Nat) (text : String) : String :=
  let chars := text.toList
  if chars.length ≤ count then text
  else String.ofList (chars.take count ++ ['.', '.', '.'])

end Runbook.Text
