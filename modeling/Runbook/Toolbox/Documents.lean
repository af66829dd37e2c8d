import Runbook.Files.Tree
import Runbook.Text.Cut
import Runbook.Text.Lowercase
import Runbook.Toolbox.Input

namespace Runbook.Toolbox.Documents

/-!
# The tool that searches documents

It looks for a phrase, without regard to case, in the documents below a folder: the
Markdown files, or the text files if there is no Markdown file at all.  Documents with
more occurrences come first; of each it shows the text around the first one.
-/

/-- How many documents the tool returns. -/
def mostHits : Nat := 8

/-- How many bytes a snippet has at most. -/
def snippetLength : Nat := 240

/-- How many bytes of a snippet stand in front of the occurrence, at most. -/
def leadLength : Nat := snippetLength / 3

/-- A document in which the phrase occurs. -/
structure Hit where
  path : String
  score : Nat
  snippet : String
  deriving DecidableEq, Repr

/-- A hit as JSON. -/
def Hit.toJson (hit : Hit) : Json :=
  .record
    [ ("path", .str hit.path), ("score", .int hit.score), ("snippet", .str hit.snippet) ]

/-- The carriage return and the line feed at the end of some lines. -/
def longLineEnd : List Char := ['\r', '\n']

/-- The text around a position in bytes. -/
def snippet (text : List Char) (position : Nat) : List Char :=
  let shown := Text.takeBytes snippetLength (Text.dropBytes (position - leadLength) text)
  Text.trim (Text.replaceIn longLineEnd ['\n'] shown)

/-- The text that a snippet is cut from: the document as it is, or its lower case if
the two differ in length, since positions are those of the lower case. -/
def source (text lower : List Char) : List Char :=
  if Text.byteLength lower = Text.byteLength text then text else lower

/-- What a document has to show for a phrase in lower case. -/
def hit? (phrase : List Char) (path : String) (text : List Char) : Option Hit :=
  let lower := Text.lower text
  (Text.splitFirst? phrase lower).map fun parts =>
    { path := path
      score := Text.countIn phrase lower
      snippet := String.ofList (snippet (source text lower) (Text.byteLength parts.1)) }

/-- A path before another one: name by name. -/
def pathBefore (a b : FilePath) : Bool := !decide (b < a)

/-- The path of a file below a root, in writing. -/
def written (root : String) (below : FilePath) : String :=
  if below.isEmpty then root
  else if root.endsWith "/" then root ++ below.toText
  else root ++ "/" ++ below.toText

/-- The path of a file as seen from a folder, if the file is in it. -/
def below? (folder path : FilePath) : Option FilePath :=
  if folder.isPrefixOf path then some (path.drop folder.length) else none

/-- The files below a root with an ending, with their written paths, in the order of
their paths. -/
def scan (files : FileTree) (root ending : String) : List (String × Text.Bytes) :=
  if root.isEmpty then []
  else
    let found := files.files.filterMap fun file =>
      if file.1.ending? = some (Text.toBytes ending) then
        (below? (FilePath.ofText root) file.1).map fun below => (below, file.2)
      else none
    (found.mergeSort fun a b => pathBefore a.1 b.1).map
      fun file => (written root file.1, file.2)

/-- The documents below a root. -/
def documents (files : FileTree) (root : String) : List (String × Text.Bytes) :=
  match scan files root "md" with
  | [] => scan files root "txt"
  | found => found

/-- The documents in which a phrase occurs, the ones with more occurrences first, and
at most so many. -/
def search (files : FileTree) (root query : String) (limit : Nat) : List Hit :=
  let phrase := Text.lower query.toList
  if phrase.isEmpty then []
  else
    let hits := (documents files root).filterMap fun document =>
      (Text.decode? document.2).bind (hit? phrase document.1)
    (hits.mergeSort fun a b => b.score ≤ a.score).take limit

/-- The input: what to look for. -/
def form : InputForm := ⟨"QueryDocsInput", [⟨"query", "在内部文档中检索的关键词或短语", .text, false⟩]⟩

/-- Search the documents. -/
def run (files : FileTree) (root : String) (input : Json) : ToolResult := do
  let fields ← form.parse input
  let query := Text.trimmed (fields.textAt "query")
  if query.isEmpty then return failureText "query is empty"
  let hits := search files root query mostHits
  return (Json.record
    [ ("success", .bool true), ("query", .str query), ("root", .str root),
      ("hits", .arr (hits.map Hit.toJson)) ]).pretty

end Runbook.Toolbox.Documents
