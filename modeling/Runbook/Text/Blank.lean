namespace Runbook.Text

/-!
# Blanks

The white space of the Unicode standard, and text without it at either end.
-/

/-- A white-space character. -/
def isBlank (c : Char) : Bool :=
  let n := c.toNat
  (9 ≤ n && n ≤ 13) || n == 32 || n == 0x85 || n == 0xA0 || n == 0x1680 ||
    (0x2000 ≤ n && n ≤ 0x200A) || n == 0x2028 || n == 0x2029 || n == 0x202F ||
    n == 0x205F || n == 0x3000

/-- Text without the blanks before it. -/
def trimStart (text : List Char) : List Char := text.dropWhile isBlank

/-- Text without the blanks after it. -/
def trimEnd (text : List Char) : List Char :=
  (text.reverse.dropWhile isBlank).reverse

/-- Text without the blanks around it. -/
def trim (text : List Char) : List Char := trimEnd (trimStart text)

/-- A string without the blanks around it. -/
def trimmed (text : String) : String := String.ofList (trim text.toList)

/-- Whether a string holds blanks only. -/
def allBlank (text : String) : Bool := text.toList.all isBlank

end Runbook.Text
