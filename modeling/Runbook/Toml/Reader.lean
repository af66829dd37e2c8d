import Runbook.Toml.Scalar

namespace Runbook.Toml

/-!
# Reading TOML

A document is read line by line: blank ones, comments, headers of tables, and keys
with their values.  A text that breaks any rule is refused as a whole.
-/

namespace Take

/-- The blanks within a line. -/
def isSpace (c : Char) : Bool := c == ' ' || c == '\t'

/-- The characters that may stand in a comment. -/
def isPrintable (c : Char) : Bool :=
  c == '\t' || (0x20 ≤ c.toNat && c.toNat ≤ 0x7E) || 0x80 ≤ c.toNat

/-- The characters that a key may hold without quotes. -/
def isBare (c : Char) : Bool := c.isAlphanum || c == '_' || c == '-'

/-- Take the blanks ahead. -/
def spaces : Take Unit := do let _ ← many isSpace

/-- Take the end of a line. -/
def newline : Take Unit := either (exactly '\n') (word ['\r', '\n'])

/-- Take a comment. -/
def comment : Take Unit := do
  exactly '#'
  let _ ← many isPrintable

/-- Take the end of a line or of the text. -/
def lineEnd : Take Unit := fun text =>
  match text with
  | [] => some ((), [])
  | text => newline text

/-- Take what may stand behind the content of a line, and the end of the line. -/
def restOfLine : Take Unit := do
  spaces
  let _ ← orNothing comment
  lineEnd

/-- Take one blank, or the rest of a line. -/
def gap : Take Unit :=
  either (do let _ ← one isSpace) (do let _ ← orNothing comment; newline)

/-- Take blanks, comments and ends of lines. -/
def gaps : (fuel : Nat) → Take Unit
  | 0 => pure ()
  | fuel + 1 => do
      match ← orNothing gap with
      | some _ => gaps fuel
      | none => pure ()

/-- Take so many hexadecimal digits, and the character of that number. -/
def scalarValue (count : Nat) : Take Char := do
  let read ← (List.range count).mapM fun _ => one isHexDigit
  let value := inBase 16 read
  if value.isValidChar then return Char.ofNat value else failure

/-- Take what stands for a character behind a backslash. -/
def escape : Take Char := do
  let c ← one fun _ => true
  match c with
  | 'b' => return '\x08'
  | 't' => return '\t'
  | 'n' => return '\n'
  | 'f' => return '\x0c'
  | 'r' => return '\r'
  | '"' => return '"'
  | '\\' => return '\\'
  | 'u' => scalarValue 4
  | 'U' => scalarValue 8
  | _ => failure

/-- Take the rest of a string in double quotes. -/
def basicRest : (fuel : Nat) → Take (List Char)
  | 0 => failure
  | fuel + 1 => do
      let c ← one isPrintable
      if c = '"' then return []
      else if c = '\\' then return (← escape) :: (← basicRest fuel)
      else return c :: (← basicRest fuel)

/-- Take a string in double quotes. -/
def basic : Take (List Char) := do
  exactly '"'
  let length ← fun text => some (text.length, text)
  basicRest (length + 1)

/-- Take a string in single quotes. -/
def literal : Take (List Char) := do
  exactly '\''
  let content ← many fun c => isPrintable c && c != '\''
  exactly '\''
  return content

/-- Take quotes: fewer than three stand for themselves, and three end the string,
with up to two more in front of them. -/
def quotes (quote : Char) : Take (List Char × Bool) := fun text =>
  let count := (text.takeWhile (· == quote)).length
  if count = 0 then none
  else if count < 3 then some ((List.replicate count quote, false), text.drop count)
  else
    let taken := min count 5
    some ((List.replicate (taken - 3) quote, true), text.drop taken)

/-- Take a backslash at the end of a line with all blanks and line ends behind it. -/
def joinedLines (fuel : Nat) : Take Unit := do
  exactly '\\'
  spaces
  newline
  skipBlank fuel
where
  /-- Take blanks and ends of lines. -/
  skipBlank : (fuel : Nat) → Take Unit
    | 0 => pure ()
    | fuel + 1 => do
        match ← orNothing (either (do let _ ← one isSpace) newline) with
        | some _ => skipBlank fuel
        | none => pure ()

/-- Take the rest of a string of several lines.  Only within double quotes does a
backslash mean more than itself. -/
def linesRest (quote : Char) : (fuel : Nat) → Take (List Char)
  | 0 => failure
  | fuel + 1 => do
      match ← orNothing (quotes quote) with
      | some (kept, true) => return kept
      | some (kept, false) => return kept ++ (← linesRest quote fuel)
      | none =>
          match ← orNothing newline with
          | some _ => return '\n' :: (← linesRest quote fuel)
          | none =>
              match ← orNothing (if quote = '"' then joinedLines fuel else failure) with
              | some _ => linesRest quote fuel
              | none =>
                  let c ← one isPrintable
                  if c = '\\' ∧ quote = '"' then
                    return (← escape) :: (← linesRest quote fuel)
                  else return c :: (← linesRest quote fuel)

/-- Take a string of several lines; an end of line right behind the quotes is not a
part of it. -/
def lines (quote : Char) : Take (List Char) := do
  word [quote, quote, quote]
  let _ ← orNothing newline
  let length ← fun text => some (text.length, text)
  linesRest quote (length + 1)

/-- Take a string. -/
def string : Take (List Char) :=
  either (lines '"') (either (lines '\'') (either basic literal))

/-- Take one part of a key. -/
def keyPart : Take String := do
  spaces
  let part ← either basic (either literal (do
    let first ← one isBare
    return first :: (← many isBare)))
  spaces
  return String.ofList part

/-- Take the parts of a key behind the first. -/
def moreParts : (fuel : Nat) → Take (List String)
  | 0 => failure
  | fuel + 1 => do
      match ← orNothing (exactly '.') with
      | none => return []
      | some _ => return (← keyPart) :: (← moreParts fuel)

/-- Take a key: the parts before the last one, and the last one. -/
def key : Take (List String × String) := do
  let first ← keyPart
  let length ← fun text => some (text.length, text)
  let more ← moreParts (length + 1)
  match (first :: more).reverse with
  | [] => failure
  | last :: before => return (before.reverse, last)

/-- How many lists and tables may stand within each other. -/
def depthLimit : Nat := 80

/-- A list or a table within the given number of others. -/
def within (depth : Nat) : Take Unit :=
  if depth + 1 < depthLimit then pure () else failure

mutual

/-- Take a value within a number of lists and tables. -/
def value (depth : Nat) : (fuel : Nat) → Take Toml
  | 0 => failure
  | fuel + 1 => fun text =>
      match text with
      | [] => none
      | c :: _ =>
          if c = '"' ∨ c = '\'' then
            (do return Toml.text (String.ofList (← string)) : Take Toml) text
          else if c = '[' then
            (do
              within depth
              exactly '['
              return Toml.list (← items (depth + 1) true fuel) : Take Toml) text
          else if c = Char.ofNat 0x7B then
            (do
              within depth
              let _ ← one fun _ => true
              spaces
              let members ← members (depth + 1) true [] fuel
              return Toml.table .inline members : Take Toml) text
          else if c.isDigit ∨ c = '+' ∨ c = '-' then either moment number text
          else if c = 't' then (do word "true".toList; return Toml.truth true : Take Toml) text
          else if c = 'f' then
            (do word "false".toList; return Toml.truth false : Take Toml) text
          else if c = 'i' ∨ c = 'n' then named text
          else none
termination_by structural fuel => fuel

/-- Take the items of a list up to its bracket. -/
def items (depth : Nat) (first : Bool) : (fuel : Nat) → Take (List Toml)
  | 0 => failure
  | fuel + 1 => do
      gaps (fuel + 1)
      match ← orNothing (exactly ']') with
      | some _ => return []
      | none =>
          if !first then
            exactly ','
            gaps (fuel + 1)
          match ← orNothing (if first then failure else exactly ']') with
          | some _ => return []
          | none =>
              let item ← value depth fuel
              return item :: (← items depth false fuel)
termination_by structural fuel => fuel

/-- Take the members of an inline table up to its brace. -/
def members (depth : Nat) (first : Bool) (done : Members) : (fuel : Nat) → Take Members
  | 0 => failure
  | fuel + 1 => do
      match ← orNothing (exactly (Char.ofNat 0x7D)) with
      | some _ => return done
      | none =>
          if !first then exactly ','
          let (path, last) ← key
          exactly '='
          spaces
          let item ← value depth fuel
          spaces
          match insertAt path last item .inline done with
          | some (_, done) => members depth false done fuel
          | none => failure
termination_by structural fuel => fuel

end

end Take

/-- The tables that are there, and where the lines that follow belong. -/
structure Draft where
  members : Members := []
  header : List String := []

namespace Draft

/-- The draft with its tables changed. -/
def edit (draft : Draft) (change : Edit) : Option Draft :=
  (change .headed draft.members).map fun changed => { draft with members := changed.2 }

end Draft

namespace Take

/-- Take a header behind its first bracket. -/
def header (draft : Draft) : Take Draft := do
  match ← orNothing (exactly '[') with
  | some _ =>
      let (path, last) ← key
      exactly ']'
      exactly ']'
      restOfLine
      fun text => (draft.edit (beginItem path last)).map
        fun draft => ({ draft with header := path ++ [last] }, text)
  | none =>
      let (path, last) ← key
      exactly ']'
      restOfLine
      fun text => (draft.edit (beginTable path last)).map
        fun draft => ({ draft with header := path ++ [last] }, text)

/-- Take a key with its value. -/
def assignment (draft : Draft) : Take Draft := do
  let (path, last) ← key
  exactly '='
  spaces
  let length ← fun text => some (text.length, text)
  let item ← value 0 (2 * length + 2)
  restOfLine
  fun text => (draft.edit (assign draft.header path last item)).map (·, text)

/-- Take lines up to the end of the text. -/
def document (draft : Draft) : (fuel : Nat) → Take Draft
  | 0 => failure
  | fuel + 1 => do
      spaces
      let ahead ← fun text => some (text.head?, text)
      match ahead with
      | none => return draft
      | some '#' =>
          comment
          lineEnd
          document draft fuel
      | some '[' =>
          exactly '['
          document (← header draft) fuel
      | some c =>
          if c = '\n' ∨ c = '\r' then
            newline
            document draft fuel
          else document (← assignment draft) fuel

end Take

/-- The members of the document that a text writes. -/
def parse? (text : List Char) : Option Members :=
  ((Take.document {} (text.length + 1)).run text).map fun result => result.1.members

end Runbook.Toml
