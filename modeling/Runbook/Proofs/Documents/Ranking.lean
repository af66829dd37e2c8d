import Mathlib
import Runbook.Proofs.Sorting
import Runbook.Proofs.Text.Encoding
import Runbook.Proofs.Text.Occurrences
import Runbook.Toolbox.Documents

namespace Runbook.Toolbox.Documents

/-!
# Which documents are found, and in which order

A search looks at the Markdown files below a folder, or at the text files if there is no Markdown
file at all, and finds those that are texts in which the phrase occurs.  Documents with more
occurrences come first, those with as many are in the order of their paths, and of all these
the first ones are returned.
-/

/-- Bytes are in the order of their numbers. -/
instance byteOrder : LinearOrder UInt8 where
  le_refl := UInt8.le_refl
  le_trans _ _ _ := UInt8.le_trans
  le_antisymm _ _ := UInt8.le_antisymm
  le_total := UInt8.le_total
  lt_iff_le_not_ge _ _ := by
    rw [UInt8.not_le]
    exact ⟨fun less => ⟨UInt8.le_of_lt less, less⟩, And.right⟩
  toDecidableLE := inferInstance
  toDecidableEq := inferInstance
  toDecidableLT := inferInstance

/-- The files of a tree are such as a file system can hold: one for each path, whose names are
not empty and have no slash. -/
structure IsDirectory (files : FileTree) : Prop where
  distinct :
    (files.files.map Prod.fst).Nodup
  named :
    ∀ file ∈ files.files, ∀ name ∈ file.1, name ≠ [] ∧ FilePath.slash ∉ name

/-- A file with some content is below a folder, at a path from there. -/
def InFolder (files : FileTree) (root : String) (below : FilePath) (content : Text.Bytes) :
    Prop :=
  root ≠ "" ∧ (FilePath.ofText root ++ below, content) ∈ files.files

/-- A file below a folder has an ending. -/
def HasEnding (root : String) (below : FilePath) (ending : String) : Prop :=
  (FilePath.ofText root ++ below).ending? = some (Text.toBytes ending)

/-- There is a Markdown file below a folder. -/
def HasMarkdown (files : FileTree) (root : String) : Prop :=
  ∃ below content, InFolder files root below content ∧ HasEnding root below "md"

/-- A text and the path of its file below a folder. -/
structure Document where
  path : FilePath
  text : List Char

/-- The documents that a search is to find. -/
structure Matches (files : FileTree) (root : String) (phrase : List Char)
    (document : Document) : Prop where
  isFile :
    InFolder files root document.path (Text.toBytes (String.ofList document.text))
  markdown :
    HasMarkdown files root → HasEnding root document.path "md"
  plain :
    ¬ HasMarkdown files root → HasEnding root document.path "txt"
  occurs :
    phrase <:+: Text.lower document.text

/-- How often a phrase occurs in a document. -/
def Document.score (phrase : List Char) (document : Document) : Nat :=
  Text.countIn phrase (Text.lower document.text)

/-- A document comes before another one: it has more occurrences, or as many and the path is
before the other's. -/
def RanksAbove (phrase : List Char) (first second : Document) : Prop :=
  second.score phrase < first.score phrase ∨
    first.score phrase = second.score phrase ∧ first.path < second.path

/-- A hit that shows a document: its path in writing, and how many occurrences of the phrase
there are that do not overlap. -/
structure IsHit (root : String) (phrase : List Char) (document : Document) (hit : Hit) :
    Prop where
  path :
    hit.path = written root document.path
  score :
    IsGreatest {count | Text.Holds phrase (Text.lower document.text) count} hit.score
  positive :
    1 ≤ hit.score

section Paths

variable {root : String} {first second : FilePath}

/-- The names of a path can be names of files. -/
def IsProper (path : FilePath) : Prop := ∀ name ∈ path, name ≠ [] ∧ FilePath.slash ∉ name

/-- The names of a path are texts. -/
def IsText (path : FilePath) : Prop := ∃ names, path = FilePath.ofNames names

theorem flatMap_intercalate
    {α β : Type}
    (write : α → List β)
    (gap : List α)
    (parts : List (List α)) :
    (gap.intercalate parts).flatMap write =
      (gap.flatMap write).intercalate (parts.map fun part => part.flatMap write) := by
  induction parts with
  | nil =>
      rfl
  | cons part rest inductionHypothesis =>
      cases rest with
      | nil =>
          simp
      | cons next rest =>
          simp only [List.map_cons, List.intercalate_cons_cons, List.flatMap_append] at *
          rw [inductionHypothesis]

/-- A path whose names are texts is written with them. -/
theorem toText_ofNames (names : List String) :
    (FilePath.ofNames names).toText = "/".intercalate names := by
  have bytes_eq (text : String) :
      Text.toBytes text = text.toList.flatMap String.utf8EncodeChar := by
    rw [← Text.toBytes_ofList, String.ofList_toList]
  have isJoined :
      [FilePath.slash].intercalate (FilePath.ofNames names) =
        Text.toBytes ("/".intercalate names) := by
    have isSlash : "/".toList.flatMap String.utf8EncodeChar = [FilePath.slash] := by
      decide
    rw [bytes_eq, String.toList_intercalate, flatMap_intercalate, isSlash, List.map_map]
    exact congrArg _ (List.map_congr_left fun name _ => bytes_eq name)
  rw [FilePath.toText, isJoined, Text.decodeLossy_toBytes, String.ofList_toList]

/-- Names that are texts are proper as texts if they are so as bytes. -/
theorem proper_of_ofNames
    {names : List String}
    (proper : IsProper (FilePath.ofNames names)) :
    ∀ name ∈ names, name ≠ "" ∧ '/' ∉ name.toList := by
  intro name isName
  obtain ⟨notEmpty, noSlash⟩ := proper (Text.toBytes name) (List.mem_map_of_mem isName)
  have isBytes := Text.toBytes_ofList name.toList
  rw [String.ofList_toList] at isBytes
  constructor
  · rintro rfl
    exact notEmpty isBytes
  · intro isSlash
    refine noSlash ?_
    rw [isBytes, List.mem_flatMap]
    exact ⟨'/', isSlash, by decide⟩

theorem toText_ne_empty
    (proper : IsProper first)
    (isText : IsText first)
    (someName : first ≠ []) :
    first.toText ≠ "" := by
  obtain ⟨names, rfl⟩ := isText
  have areProper := proper_of_ofNames proper
  cases names with
  | nil =>
      exact absurd rfl someName
  | cons name rest =>
      intro isEmpty
      have notEmpty := (areProper name List.mem_cons_self).1
      rw [toText_ofNames, ← String.toList_inj, String.toList_intercalate] at isEmpty
      cases rest with
      | nil =>
          refine notEmpty (String.toList_inj.mp ?_)
          simpa using isEmpty
      | cons next rest =>
          simp at isEmpty

/-- A path whose names are texts can be read from its writing. -/
theorem toText_inj
    (firstProper : IsProper first)
    (firstText : IsText first)
    (secondProper : IsProper second)
    (secondText : IsText second)
    (same : first.toText = second.toText) :
    first = second := by
  have ofNil : FilePath.toText [] = "" := toText_ofNames []
  by_cases firstNil : first = []
  · subst firstNil
    by_contra different
    exact toText_ne_empty secondProper secondText (Ne.symm different)
      (same.symm.trans ofNil)
  · by_cases secondNil : second = []
    · subst secondNil
      exact absurd (same.trans ofNil) (toText_ne_empty firstProper firstText firstNil)
    · obtain ⟨names, rfl⟩ := firstText
      obtain ⟨others, rfl⟩ := secondText
      rw [toText_ofNames, toText_ofNames, ← String.toList_inj, String.toList_intercalate,
        String.toList_intercalate] at same
      have noSlash
          {names : List String}
          (proper : IsProper (FilePath.ofNames names)) :
          ∀ name ∈ names.map String.toList, '/' ∉ name := by
        intro name isName
        obtain ⟨text, isText, rfl⟩ := List.mem_map.mp isName
        exact (proper_of_ofNames proper text isText).2
      have sameNames := congrArg (List.splitOn '/') same
      have isSlash : "/".toList = ['/'] := rfl
      have someNames
          {names : List String}
          (notNil : FilePath.ofNames names ≠ []) :
          names.map String.toList ≠ [] := by
        simpa [FilePath.ofNames] using notNil
      rw [isSlash, List.splitOn_intercalate _ (noSlash firstProper) (someNames firstNil),
        List.splitOn_intercalate _ (noSlash secondProper) (someNames secondNil)] at sameNames
      have areSame : names = others :=
        List.map_injective_iff.mpr (fun _ _ => String.toList_inj.mp) sameNames
      rw [areSame]

/-- A file in a folder is written as the folder and what has to be put behind it. -/
theorem exists_written (root : String) :
    ∃ gap : String, ∀ path : FilePath, path ≠ [] →
      written root path = root ++ (gap ++ path.toText) := by
  have someWritten
      {path : FilePath}
      (someName : path ≠ []) :
      written root path =
        if root.endsWith "/" then root ++ path.toText else root ++ "/" ++ path.toText := by
    rw [written, if_neg (by simpa using someName)]
  by_cases slashed : root.endsWith "/" = true
  · refine ⟨"", fun path someName => ?_⟩
    rw [someWritten someName, if_pos slashed, String.empty_append]
  · refine ⟨"/", fun path someName => ?_⟩
    rw [someWritten someName, if_neg slashed, String.append_assoc]

/-- A file in a folder is not written as the folder. -/
theorem written_ne_root
    (proper : IsProper first)
    (isText : IsText first)
    (someName : first ≠ []) :
    written root first ≠ root := by
  obtain ⟨gap, isWritten⟩ := exists_written root
  intro isRoot
  have sameLength :=
    congrArg (fun text => text.toList.length) ((isWritten first someName).symm.trans isRoot)
  simp only [String.toList_append, List.length_append] at sameLength
  have isNil : first.toText.toList = [] := List.length_eq_zero_iff.mp (by omega)
  exact toText_ne_empty proper isText someName (String.toList_inj.mp isNil)

/-- Different files below a folder are written differently if their names are texts. -/
theorem written_inj
    (firstProper : IsProper first)
    (firstText : IsText first)
    (secondProper : IsProper second)
    (secondText : IsText second)
    (same : written root first = written root second) :
    first = second := by
  have ofNil : written root [] = root := rfl
  by_cases firstNil : first = []
  · subst firstNil
    by_contra different
    exact written_ne_root secondProper secondText (Ne.symm different) (same.symm.trans ofNil)
  · by_cases secondNil : second = []
    · subst secondNil
      exact absurd (same.trans ofNil) (written_ne_root firstProper firstText firstNil)
    · obtain ⟨gap, isWritten⟩ := exists_written root
      rw [isWritten first firstNil, isWritten second secondNil, String.append_right_inj,
        String.append_right_inj] at same
      exact toText_inj firstProper firstText secondProper secondText same

end Paths

section Files

variable {files : FileTree} {root ending : String} {below : FilePath} {content : Text.Bytes}

theorem below?_eq_some_iff
    {folder path : FilePath} :
    below? folder path = some below ↔ path = folder ++ below := by
  rw [below?, Option.ite_none_right_eq_some, List.isPrefixOf_iff_prefix, Option.some.injEq]
  constructor
  · rintro ⟨isPrefix, rfl⟩
    exact (List.prefix_iff_eq_append.mp isPrefix).symm
  · rintro rfl
    exact ⟨List.prefix_append _ _, List.drop_left⟩

/-- A file as seen from a folder, if it is below and has an ending. -/
def seenFrom? (root ending : String) (file : FilePath × Text.Bytes) :
    Option (FilePath × Text.Bytes) :=
  if file.1.ending? = some (Text.toBytes ending) then
    (below? (FilePath.ofText root) file.1).map fun below => (below, file.2)
  else none

theorem seenFrom?_eq_some_iff
    {file : FilePath × Text.Bytes} :
    seenFrom? root ending file = some (below, content) ↔
      file = (FilePath.ofText root ++ below, content) ∧ HasEnding root below ending := by
  obtain ⟨path, bytes⟩ := file
  rw [seenFrom?, Option.ite_none_right_eq_some, Option.map_eq_some_iff]
  constructor
  · rintro ⟨hasEnding, _, isPath, samePair⟩
    cases samePair
    obtain rfl := below?_eq_some_iff.mp isPath
    exact ⟨rfl, hasEnding⟩
  · rintro ⟨samePair, hasEnding⟩
    cases samePair
    exact ⟨hasEnding, below, below?_eq_some_iff.mpr rfl, rfl⟩

/-- The files below a folder with an ending, in the order of their paths. -/
def sorted (files : FileTree) (root ending : String) : List (FilePath × Text.Bytes) :=
  if root.isEmpty then []
  else (files.files.filterMap (seenFrom? root ending)).mergeSort (notBehind Prod.fst)

theorem scan_eq (files : FileTree) (root ending : String) :
    scan files root ending =
      (sorted files root ending).map fun file => (written root file.1, file.2) := by
  have sameOrder :
      (fun a b : FilePath × Text.Bytes => pathBefore a.1 b.1) = notBehind Prod.fst := by
    funext a b
    rw [pathBefore, notBehind, ← decide_not]
    exact decide_eq_decide.mpr not_lt
  rw [scan, sorted, ← sameOrder]
  split <;> rfl

theorem mem_sorted_iff :
    (below, content) ∈ sorted files root ending ↔
      InFolder files root below content ∧ HasEnding root below ending := by
  rw [sorted, InFolder]
  by_cases isEmpty : root = ""
  · simp [isEmpty]
  · rw [if_neg (by simpa using isEmpty), List.mem_mergeSort, List.mem_filterMap]
    simp only [seenFrom?_eq_some_iff]
    constructor
    · rintro ⟨_, isFile, rfl, hasEnding⟩
      exact ⟨⟨isEmpty, isFile⟩, hasEnding⟩
    · rintro ⟨⟨_, isFile⟩, hasEnding⟩
      exact ⟨_, isFile, rfl, hasEnding⟩

/-- No path is there twice, so each is before those behind it. -/
theorem pairwise_sorted
    (isDirectory : IsDirectory files)
    (root ending : String) :
    (sorted files root ending).Pairwise fun first second => first.1 < second.1 := by
  have distinct :
      (files.files.filterMap (seenFrom? root ending)).Pairwise
        fun first second => first.1 ≠ second.1 := by
    rw [List.pairwise_filterMap]
    refine (List.pairwise_map.mp isDirectory.distinct).imp ?_
    rintro first second different ⟨below, content⟩ isFirst ⟨other, bytes⟩ isSecond same
    obtain ⟨rfl, -⟩ := seenFrom?_eq_some_iff.mp isFirst
    obtain ⟨rfl, -⟩ := seenFrom?_eq_some_iff.mp isSecond
    exact different (congrArg (FilePath.ofText root ++ ·) same)
  rw [sorted]
  split
  · exact .nil
  · refine (pairwise_mergeSort_of_pairwise distinct).imp ?_
    rintro first second (less | ⟨same, different⟩)
    · exact less
    · exact absurd same different

/-- The files that are searched, in the order of their paths. -/
def searched (files : FileTree) (root : String) : List (FilePath × Text.Bytes) :=
  match sorted files root "md" with
  | [] => sorted files root "txt"
  | found => found

theorem documents_eq (files : FileTree) (root : String) :
    documents files root =
      (searched files root).map fun file => (written root file.1, file.2) := by
  rw [documents, searched, scan_eq, scan_eq]
  cases sorted files root "md" <;> rfl

theorem sorted_eq_nil_iff : sorted files root "md" = [] ↔ ¬ HasMarkdown files root := by
  rw [List.eq_nil_iff_forall_not_mem, HasMarkdown]
  simp only [Prod.forall, mem_sorted_iff, not_exists]

/-- The files that are searched are in the order of their paths, with the ending of Markdown or,
where there is no such file, of text. -/
theorem searched_cases (files : FileTree) (root : String) :
    HasMarkdown files root ∧ searched files root = sorted files root "md" ∨
      ¬ HasMarkdown files root ∧ searched files root = sorted files root "txt" := by
  rw [searched]
  cases isSorted : sorted files root "md" with
  | nil =>
      exact Or.inr ⟨sorted_eq_nil_iff.mp isSorted, rfl⟩
  | cons first rest =>
      refine Or.inl ⟨?_, rfl⟩
      by_contra noMarkdown
      rw [sorted_eq_nil_iff.mpr noMarkdown] at isSorted
      cases isSorted

end Files

section Hits

variable {files : FileTree} {root : String} {phrase : List Char} {document : Document}

/-- What a document shows of a phrase that occurs in it. -/
def Document.hit (root : String) (phrase : List Char) (document : Document) : Hit :=
  let lower := Text.lower document.text
  let before := ((Text.splitFirst? phrase lower).map Prod.fst).getD []
  { path := written root document.path
    score := document.score phrase
    snippet := String.ofList (snippet (source document.text lower) (Text.byteLength before)) }

theorem hit?_of_occurs
    (root : String)
    (document : Document)
    (occurs : phrase <:+: Text.lower document.text) :
    hit? phrase (written root document.path) document.text = some (document.hit root phrase) := by
  rw [hit?, Document.hit]
  cases isSplit : Text.splitFirst? phrase (Text.lower document.text) with
  | none =>
      exact absurd occurs (Text.splitFirst?_eq_none_iff.mp isSplit)
  | some parts =>
      rfl

theorem hit?_of_not_occurs
    {path : String}
    {text : List Char}
    (notThere : ¬ phrase <:+: Text.lower text) :
    hit? phrase path text = none := by
  rw [hit?, Text.splitFirst?_eq_none_iff.mpr notThere]
  rfl

theorem isHit_hit
    (someWanted : phrase ≠ [])
    (occurs : phrase <:+: Text.lower document.text) :
    IsHit root phrase document (document.hit root phrase) :=
  ⟨rfl, Text.isGreatest_countIn someWanted _, Text.countIn_pos someWanted occurs⟩

/-- The document in a file, if it is a text in which a phrase occurs. -/
def found? (phrase : List Char) (file : FilePath × Text.Bytes) : Option Document :=
  ((Text.decode? file.2).map (Document.mk file.1)).filter fun document =>
    decide (phrase <:+: Text.lower document.text)

theorem found?_eq_some_iff
    {file : FilePath × Text.Bytes} :
    found? phrase file = some document ↔
      file = (document.path, Text.toBytes (String.ofList document.text)) ∧
        phrase <:+: Text.lower document.text := by
  obtain ⟨path, bytes⟩ := file
  rw [found?, Option.filter_eq_some_iff, Option.map_eq_some_iff, decide_eq_true_eq]
  refine and_congr_left fun _ => ?_
  constructor
  · rintro ⟨text, isText, rfl⟩
    exact congrArg (Prod.mk path) (Text.decode?_eq_some_iff.mp isText)
  · intro samePair
    cases samePair
    exact ⟨document.text, Text.decode?_eq_some_iff.mpr rfl, rfl⟩

/-- The documents that match, in the order of their paths. -/
def matching (files : FileTree) (root : String) (phrase : List Char) : List Document :=
  (searched files root).filterMap (found? phrase)

theorem mem_matching_iff :
    document ∈ matching files root phrase ↔ Matches files root phrase document := by
  rw [matching, List.mem_filterMap]
  simp only [found?_eq_some_iff]
  rcases searched_cases files root with ⟨markdown, isSearched⟩ | ⟨noMarkdown, isSearched⟩
  · rw [isSearched]
    constructor
    · rintro ⟨_, isFile, rfl, occurs⟩
      obtain ⟨inFolder, hasEnding⟩ := mem_sorted_iff.mp isFile
      exact ⟨inFolder, fun _ => hasEnding, fun noMarkdown => absurd markdown noMarkdown, occurs⟩
    · rintro ⟨isFile, hasEnding, -, occurs⟩
      exact ⟨_, mem_sorted_iff.mpr ⟨isFile, hasEnding markdown⟩, rfl, occurs⟩
  · rw [isSearched]
    constructor
    · rintro ⟨_, isFile, rfl, occurs⟩
      obtain ⟨inFolder, hasEnding⟩ := mem_sorted_iff.mp isFile
      exact ⟨inFolder, fun markdown => absurd markdown noMarkdown, fun _ => hasEnding, occurs⟩
    · rintro ⟨isFile, -, hasEnding, occurs⟩
      exact ⟨_, mem_sorted_iff.mpr ⟨isFile, hasEnding noMarkdown⟩, rfl, occurs⟩

theorem pairwise_matching
    (isDirectory : IsDirectory files)
    (root : String)
    (phrase : List Char) :
    (matching files root phrase).Pairwise fun first second => first.path < second.path := by
  have inOrder :
      (searched files root).Pairwise fun first second => first.1 < second.1 := by
    rcases searched_cases files root with ⟨-, isSearched⟩ | ⟨-, isSearched⟩
    · exact isSearched ▸ pairwise_sorted isDirectory root "md"
    · exact isSearched ▸ pairwise_sorted isDirectory root "txt"
  rw [matching, List.pairwise_filterMap]
  refine inOrder.imp ?_
  intro first second less found isFound other isOther
  obtain ⟨rfl, -⟩ := found?_eq_some_iff.mp isFound
  obtain ⟨rfl, -⟩ := found?_eq_some_iff.mp isOther
  exact less

/-- The hits of a search, before they are put in order. -/
theorem filterMap_documents (files : FileTree) (root : String) (phrase : List Char) :
    ((documents files root).filterMap fun document =>
        (Text.decode? document.2).bind (hit? phrase document.1)) =
      (matching files root phrase).map (Document.hit root phrase) := by
  rw [documents_eq, List.filterMap_map, matching, List.map_filterMap]
  congr 1
  funext file
  rw [Function.comp_apply, found?]
  cases Text.decode? file.2 with
  | none =>
      rfl
  | some text =>
      by_cases occurs : phrase <:+: Text.lower text
      · have isHit := hit?_of_occurs root ⟨file.1, text⟩ occurs
        simpa [Option.filter_some, occurs] using isHit
      · simp [Option.filter_some, occurs, hit?_of_not_occurs occurs]

end Hits

/-- The documents that match, as they are ranked. -/
def ranked (files : FileTree) (root : String) (phrase : List Char) : List Document :=
  (matching files root phrase).mergeSort
    (notBehind fun document => OrderDual.toDual (document.score phrase))

theorem search_eq
    {query : String}
    (someWanted : Text.lower query.toList ≠ [])
    (files : FileTree)
    (root : String)
    (limit : Nat) :
    search files root query limit =
      ((ranked files root (Text.lower query.toList)).take limit).map
        (Document.hit root (Text.lower query.toList)) := by
  have sameOrder :=
    List.map_mergeSort (f := Document.hit root (Text.lower query.toList))
      (r := notBehind fun document => OrderDual.toDual
        (document.score (Text.lower query.toList)))
      (s := fun a b => decide (b.score ≤ a.score))
      (l := matching files root (Text.lower query.toList)) fun _ _ _ _ => rfl
  rw [search, if_neg (by simpa using someWanted), filterMap_documents, ranked, List.map_take,
    sameOrder]

theorem pairwise_ranked
    {files : FileTree}
    (isDirectory : IsDirectory files)
    (root : String)
    (phrase : List Char) :
    (ranked files root phrase).Pairwise (RanksAbove phrase) := by
  refine (pairwise_mergeSort_of_pairwise (pairwise_matching isDirectory root phrase)).imp ?_
  rintro first second (less | ⟨same, less⟩)
  · exact Or.inl (OrderDual.toDual_lt_toDual.mp less)
  · exact Or.inr ⟨OrderDual.toDual_inj.mp same, less⟩

/--
A search returns the first documents, up to its limit, of those that match as they are ranked:
each with its path and with the number of its occurrences that do not overlap.  No path is there
twice, and none is written twice if the names of the files are texts.
-/
theorem search_ranked
    {files : FileTree}
    {query : String}
    (isDirectory : IsDirectory files)
    (someWanted : Text.lower query.toList ≠ [])
    (root : String)
    (limit : Nat) :
    ∃ ranking : List Document,
      (∀ document, document ∈ ranking ↔
        Matches files root (Text.lower query.toList) document) ∧
      ranking.Pairwise (RanksAbove (Text.lower query.toList)) ∧
      (ranking.map Document.path).Nodup ∧
      List.Forall₂ (IsHit root (Text.lower query.toList)) (ranking.take limit)
        (search files root query limit) ∧
      ((∀ document ∈ ranking.take limit, IsText document.path) →
        ((search files root query limit).map Hit.path).Nodup) := by
  have matches_of_mem :
      ∀ document, document ∈ ranked files root (Text.lower query.toList) ↔
        Matches files root (Text.lower query.toList) document := by
    intro document
    rw [ranked, List.mem_mergeSort, mem_matching_iff]
  have distinct :
      (ranked files root (Text.lower query.toList)).Pairwise
        fun first second => first.path ≠ second.path := by
    have inOrder := pairwise_matching isDirectory root (Text.lower query.toList)
    exact (List.mergeSort_perm _ _).symm.pairwise (inOrder.imp ne_of_lt) Ne.symm
  refine ⟨ranked files root (Text.lower query.toList), matches_of_mem,
    pairwise_ranked isDirectory root _, ?_, ?_, ?_⟩
  · rw [List.Nodup, List.pairwise_map]
    exact distinct
  · rw [search_eq someWanted, List.forall₂_map_right_iff, List.forall₂_same]
    intro document isThere
    have isMatch := (matches_of_mem document).mp (List.mem_of_mem_take isThere)
    exact isHit_hit someWanted isMatch.occurs
  · intro areTexts
    have proper :
        ∀ document ∈ ranked files root (Text.lower query.toList), IsProper document.path := by
      intro document isThere name isName
      have isFile := ((matches_of_mem document).mp isThere).isFile.2
      exact isDirectory.named _ isFile name (List.mem_append_right _ isName)
    rw [search_eq someWanted, List.map_map, List.Nodup, List.pairwise_map]
    refine (distinct.sublist (List.take_sublist limit _)).imp_of_mem ?_
    intro first second isFirst isSecond different same
    exact different (written_inj (proper _ (List.mem_of_mem_take isFirst)) (areTexts _ isFirst)
      (proper _ (List.mem_of_mem_take isSecond)) (areTexts _ isSecond) same)

theorem ofText_docs : FilePath.ofText "docs" = .ofNames ["docs"] := by
  cbv

/-- Pages, one of them in a folder below and one that is no text, and a note. -/
def pages : FileTree :=
  { files :=
      [ (.ofNames ["docs", "deep", "c.md"], Text.toBytes "redis"),
        (.ofNames ["docs", "b.md"], Text.toBytes "Redis, REDIS"),
        (.ofNames ["docs", "a.md"], Text.toBytes "one redis"),
        (.ofNames ["docs", "d.md"], [0xFF]),
        (.ofNames ["docs", "e.txt"], Text.toBytes "redis redis redis") ] }

/-- Of these pages the one with most occurrences is ranked with the others. -/
theorem search_ranked_pages :
    ∃ ranking : List Document,
      ⟨.ofNames ["b.md"], "Redis, REDIS".toList⟩ ∈ ranking ∧
      ranking.Pairwise (RanksAbove (Text.lower "Redis".toList)) ∧
      (ranking.map Document.path).Nodup ∧
      List.Forall₂ (IsHit "docs" (Text.lower "Redis".toList)) (ranking.take 2)
        (search pages "docs" "Redis" 2) := by
  have isDirectory : IsDirectory pages :=
    ⟨by decide +kernel, by decide +kernel⟩
  have hasEnding : HasEnding "docs" (.ofNames ["b.md"]) "md" := by
    rw [HasEnding, ofText_docs]
    decide +kernel
  have inFolder : InFolder pages "docs" (.ofNames ["b.md"]) (Text.toBytes "Redis, REDIS") := by
    rw [InFolder, ofText_docs]
    exact ⟨by decide, by simp [pages, FilePath.ofNames]⟩
  have isMatch :
      Matches pages "docs" (Text.lower "Redis".toList)
        ⟨.ofNames ["b.md"], "Redis, REDIS".toList⟩ := by
    constructor
    case isFile =>
      rwa [String.ofList_toList]
    case markdown =>
      exact fun _ => hasEnding
    case plain =>
      exact fun noMarkdown => absurd ⟨_, _, inFolder, hasEnding⟩ noMarkdown
    case occurs =>
      decide +kernel
  obtain ⟨ranking, isRanking, inOrder, noneTwice, areHits, -⟩ :=
    search_ranked isDirectory (show Text.lower "Redis".toList ≠ [] by decide +kernel) "docs" 2
  exact ⟨ranking, (isRanking _).mpr isMatch, inOrder, noneTwice, areHits⟩

/-- Two files whose names are no texts may be written alike. -/
theorem written_eq_of_flaws :
    written "docs" [0xFF :: Text.toBytes ".md"] = written "docs" [0xFE :: Text.toBytes ".md"] := by
  decide +kernel

end Runbook.Toolbox.Documents
