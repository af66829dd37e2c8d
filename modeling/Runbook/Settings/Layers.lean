import Runbook.Files.Tree
import Runbook.Json.Reader
import Runbook.Settings.Typing
import Runbook.Text.Search
import Runbook.Toml.Reader

namespace Runbook

/-!
# Loading settings

Settings come in layers: a default file, then a file that was asked for, then the
environment.  A later layer counts more than an earlier one, name by name.

The layers are put together by a library.  What is taken of it as documented: the file that a
path stands for is looked for as `Settings.find?` says, and is left out if there is none; what
is laid over an entry replaces it, unless both are tables, which are joined name by name
(`Entry.putAll`); a variable of the environment is a truth value, a whole number or a decimal
if it reads as one, and else a text (`Settings.valueOf`); and a value is taken for what is
wanted in its place as `Entry.settle` says.  TOML and JSON are read here.  How the other formats
are read, and which format comes first where a path has no ending, is left to a `FileReader`.
-/

/-- Names and values of the environment. -/
abbrev Environment := List (String × String)

namespace Settings

/-- The formats of files of settings. -/
inductive Format where
  | toml
  | json
  | yaml
  | ini
  | ron
  | json5
  deriving DecidableEq, Repr

namespace Format

/-- Every format. -/
def all : List Format := [.toml, .json, .yaml, .ini, .ron, .json5]

/-- The endings that files of a format have. -/
def endings : Format → List String
  | .toml => ["toml"]
  | .json => ["json"]
  | .yaml => ["yaml", "yml"]
  | .ini => ["ini"]
  | .ron => ["ron"]
  | .json5 => ["json5"]

/-- The format of the files with an ending. -/
def ofEnding? (ending : FileName) : Option Format :=
  all.find? fun format => format.endings.any fun text => Text.toBytes text == ending

end Format

/-- What reads files of settings. -/
structure FileReader where
  /-- The formats, in the order in which their endings are tried. -/
  order : List Format := Format.all
  /-- Each of them has its place. -/
  isOrder : order.Perm Format.all := by decide
  /-- The entries that a text writes in a format other than TOML and JSON. -/
  foreign? : Format → (origin : String) → (text : List Char) →
    Option (List (String × Entry)) := fun _ _ _ => none

/-- The text of a file, without a mark at its start. -/
def textOf (content : Text.Bytes) : List Char := Text.dropMark (Text.decodeLossy content)

/-- The entries that a text writes. -/
def FileReader.parse? (reader : FileReader) (format : Format) (origin : String)
    (text : List Char) : Option (List (String × Entry)) :=
  match format with
  | .toml =>
      (Toml.parse? (Text.dropMark text)).map fun members =>
        Entry.ofTomlMembers (some origin) members
  | .json =>
      match Json.parse (String.ofList text) with
      | .ok (.obj members) => some (Entry.ofJsonMembers (some origin) members)
      | _ => none
  | _ => reader.foreign? format origin text

/-- A file whose name has an ending of a format attached. -/
def withEndingOf? (files : FileTree) (path : FilePath) (format : Format) :
    Option (FilePath × Format) :=
  (format.endings.find? fun ending => files.isFile (path.withEnding ending).direct).map
    fun ending => (path.withEnding ending, format)

/-- The file that a path stands for, and its format: the file at the path, if its
ending says which format it has, or else one whose name has an ending attached. -/
def find? (reader : FileReader) (files : FileTree) (path : FilePath) :
    Option (FilePath × Format) :=
  if files.isFile path.direct then
    (path.ending?.bind Format.ofEnding?).map fun format => (path, format)
  else reader.order.findSome? (withEndingOf? files path)

/-- Lay the file that a path stands for over what is there. -/
def layFile (reader : FileReader) (files : FileTree) (path : FilePath) (under : Entry) :
    Except SettingsFlaw Entry :=
  match find? reader files path with
  | none => .ok under
  | some (path, format) =>
      let origin := path.toText
      let text := textOf ((files.read? path.direct).getD [])
      match reader.parse? format origin text with
      | none => .error (.unreadable origin)
      | some layer => .ok (under.putAll layer)

/-- The files that are looked for when nobody asks for one, without their ending. -/
def defaultPaths : List FilePath :=
  [.ofNames ["config", "default"], .ofNames ["..", "config", "default"], .ofNames ["default"]]

/-- The first default file that is there. -/
def defaultPath? (files : FileTree) : Option FilePath :=
  defaultPaths.find? fun path => files.exists? (path.withEnding "toml").direct

/-- What the names of settings in the environment begin with. -/
def environmentMark : List Char := "opsagent__".toList

/-- The value of a setting in the environment: a truth value, a number or a text. -/
def valueOf (content : String) : Scalar :=
  let word := Text.lowercase content
  let chars := content.toList
  if word = "true" then .truth true
  else if word = "false" then .truth false
  else
    match Decimal.integer? chars with
    | some number =>
        if -9223372036854775808 ≤ number ∧ number ≤ Entry.greatestWhole then .whole number
        else .real ((Decimal.double? chars).getD (.ofFloat 0.0))
    | none =>
        match Decimal.double? chars with
        | some number => .real number
        | none => .text content

/-- Where the settings of the environment come from, in words. -/
def environmentOrigin : String := "the environment"

/-- The layer of the environment. -/
def environmentLayer (environment : Environment) : List (String × Entry) :=
  environment.filterMap fun (name, content) =>
    (Text.after? environmentMark (Text.lower name.toList)).map fun place =>
      (String.ofList (Text.replaceIn ['_', '_'] ['.'] place),
        .scalar (valueOf content) (some environmentOrigin))

/-- All layers over one another. -/
def layers (reader : FileReader) (files : FileTree) (asked : Option String)
    (environment : Environment) : Except SettingsFlaw Entry := do
  let entry ←
    match defaultPath? files with
    | some path => layFile reader files path .empty
    | none => pure .empty
  let entry ←
    match asked.map FilePath.names with
    | some path =>
        if (asked != some "") && files.exists? path.direct then layFile reader files path entry
        else pure entry
    | none => pure entry
  return entry.putAll (environmentLayer environment)

/-- Load the settings. -/
def load (reader : FileReader) (files : FileTree) (asked : Option String)
    (environment : Environment) : Except SettingsFlaw Settings := do
  ofEntry (← layers reader files asked environment)

end Settings

end Runbook
