import Runbook.Text.Utf8

namespace Runbook

/-!
# Trees of files

What a program finds below and beside the folder it runs in.  A path is a list of
names; the ones that lead out of a folder again are taken back, so every file and
folder has one path.  A name is a row of bytes, which need not be a text.
-/

/-- The name of a file or a folder. -/
abbrev FileName := Text.Bytes

/-- A path as the names on the way, from the folder of the program. -/
abbrev FilePath := List FileName

namespace FilePath

/-- The byte between two names of a written path. -/
def slash : UInt8 := 0x2F

/-- The byte in front of the ending of a name. -/
def point : UInt8 := 0x2E

/-- The path whose names are texts. -/
def ofNames (names : List String) : FilePath := names.map Text.toBytes

/-- The name of the folder above. -/
def above : FileName := [point, point]

/-- The names in a written path, without those that stay where they are. -/
def names (text : String) : FilePath :=
  .ofNames ((text.splitOn "/").filter fun name => !name.isEmpty && name != ".")

/-- Take a name into a path whose names stand in reverse. -/
def enter (reversed : FilePath) (name : FileName) : FilePath :=
  match reversed with
  | last :: before => if name = above ∧ last ≠ above then before else name :: last :: before
  | [] => [name]

/-- The path in which no name is taken back. -/
def direct (path : FilePath) : FilePath := (path.foldl enter []).reverse

/-- The path that a text writes. -/
def ofText (text : String) : FilePath := direct (names text)

/-- The path in writing, with a replacement for each flaw in a name that is no text. -/
def toText (path : FilePath) : String :=
  String.ofList (Text.decodeLossy ([slash].intercalate path))

/-- What stands behind the last point of a name, unless the name begins with it. -/
def endingOf? (name : FileName) : Option FileName :=
  match name.reverse.span (· != point) with
  | (_, []) => none
  | (_, [_]) => none
  | (ending, _ :: _) => some ending.reverse

/-- What stands behind the last point of the last name. -/
def ending? (path : FilePath) : Option FileName := path.getLast?.bind endingOf?

/-- The path whose last name has an ending attached. -/
def withEnding (path : FilePath) (ending : String) : FilePath :=
  match path.reverse with
  | [] => []
  | last :: before => ((last ++ point :: Text.toBytes ending) :: before).reverse

end FilePath

/-- The files and folders that there are. -/
structure FileTree where
  files : List (FilePath × Text.Bytes) := []
  /-- Folders, besides those on the way to a file. -/
  folders : List FilePath := []

namespace FileTree

/-- Add a file, or a folder if the written path ends with a slash. -/
def add (tree : FileTree) (path : String) (content : Text.Bytes) : FileTree :=
  if path.endsWith "/" then { tree with folders := tree.folders ++ [.ofText path] }
  else { tree with files := tree.files ++ [(.ofText path, content)] }

/-- The content of a file. -/
def read? (tree : FileTree) (path : FilePath) : Option Text.Bytes :=
  (tree.files.find? (·.1 == path)).map (·.2)

/-- Whether there is a file at a path. -/
def isFile (tree : FileTree) (path : FilePath) : Bool := (tree.read? path).isSome

/-- Whether there is a folder at a path. -/
def isFolder (tree : FileTree) (path : FilePath) : Bool :=
  path.isEmpty || tree.folders.any (path.isPrefixOf ·) ||
    tree.files.any fun file => path.isPrefixOf file.1 && path != file.1

/-- Whether there is anything at a path. -/
def exists? (tree : FileTree) (path : FilePath) : Bool :=
  tree.isFile path || tree.isFolder path

end FileTree

end Runbook
