import Runbook.Text.WordChar

namespace Runbook.Text

/-!
# Words

A word of a text is a run of characters of a kind that is as long as possible.  Words
are compared without regard to case: two letters are the same if they fold to the same
letter.
-/

/-- Put a character in front of the first run. -/
def extendFirst (c : Char) : List (List Char) → List (List Char)
  | [] => [[c]]
  | run :: others => (c :: run) :: others

/-- The runs of characters of a kind that cannot be extended. -/
def runs (kind : Char → Bool) : List Char → List (List Char)
  | [] => []
  | c :: rest =>
      if kind c then
        if rest.head?.any kind then extendFirst c (runs kind rest) else [c] :: runs kind rest
      else runs kind rest

/-- The words of a text. -/
def words (text : List Char) : List (List Char) := runs isWordChar text

/-- The small letter that an ASCII letter folds to; the long s and the sign of the
kelvin fold to ASCII letters too.  Every other character is left as it is, so this
decides equality with ASCII words only. -/
def foldLetter (c : Char) : Char :=
  if c = 'ſ' then 's' else if c.toNat = 0x212A then 'k' else c.toLower

/-- Whether one of some words in small ASCII letters is a word of a text. -/
def hasWord (wanted : List String) (text : List Char) : Bool :=
  (words text).any fun word => wanted.contains (String.ofList (word.map foldLetter))

end Runbook.Text
