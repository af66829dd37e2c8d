import Runbook.Proofs.Documents.Ranking
import Runbook.Proofs.Text.Cuts
import Runbook.Proofs.Text.Lowered

namespace Runbook.Toolbox.Documents

/-!
# What a snippet shows

A snippet is a stretch of a text around a position, without the blanks around it.  Where the
occurrence of the phrase is at that position, the snippet shows it.  But the position is that
of the occurrence in lower case, and the stretch is cut from the text itself if its lower case
has as many bytes.  The occurrence may be elsewhere then, so that it is shown only if
it is in reach of the position; it always is if each character keeps its bytes in lower case.
A capital sigma in it may become another letter where the snippet ends early.
-/

variable {text wanted window piece : List Char} {position : Nat}

/-- The stretch of a text around a position: it begins at the last boundary that leaves the lead
before the position, and ends at the last one within the length of a snippet. -/
structure IsWindow (text : List Char) (position : Nat) (before window after : List Char) :
    Prop where
  parts :
    text = before ++ window ++ after
  start :
    IsGreatest
      {boundary | Text.IsBoundary text boundary ∧ boundary ≤ position - leadLength}
      (Text.byteLength before)
  finish :
    IsGreatest
      {boundary | Text.IsBoundary text boundary ∧
        boundary ≤ Text.byteLength before + snippetLength}
      (Text.byteLength (before ++ window))

/-- A stretch of a text as a snippet: with short line ends and without blanks around it. -/
def tidied (window : List Char) : List Char :=
  Text.trim (Text.replaceIn longLineEnd ['\n'] window)

/-- A snippet is a stretch of the text around a position, and no longer than a snippet may be. -/
structure IsSnippet (text : List Char) (position : Nat) (shown : List Char) : Prop where
  isCut :
    ∃ before window after, IsWindow text position before window after ∧ shown = tidied window
  notLong :
    Text.byteLength shown ≤ snippetLength

/-- A piece of a text is near enough to a position to be in the stretch around it, wherever the
cuts are moved to. -/
def InReach (text : List Char) (position : Nat) (piece : List Char) : Prop :=
  ∃ before after, text = before ++ piece ++ after ∧
    position ≤ Text.byteLength before + leadLength ∧
      Text.byteLength (before ++ piece) + leadLength + 3 ≤ position + snippetLength

section Window

/-- The stretch that a snippet is made of. -/
theorem exists_isWindow (text : List Char) (position : Nat) :
    ∃ before window after,
      IsWindow text position before window after ∧
        snippet text position = tidied window := by
  have startSplit := Text.takeBytes_append_dropBytes (position - leadLength) text
  have start := Text.isGreatest_takeBytes (position - leadLength) text
  generalize Text.takeBytes (position - leadLength) text = before at startSplit start
  generalize isRest : Text.dropBytes (position - leadLength) text = rest at startSplit
  have finishSplit := Text.takeBytes_append_dropBytes snippetLength rest
  have finish := Text.isGreatest_takeBytes_append snippetLength before rest
  rw [startSplit] at finish
  refine ⟨before, Text.takeBytes snippetLength rest, Text.dropBytes snippetLength rest,
    ⟨?_, start, finish⟩, ?_⟩
  · rw [List.append_assoc, finishSplit, startSplit]
  · rw [snippet, isRest, tidied]

theorem IsWindow.byteLength_le
    {before after : List Char}
    (isWindow : IsWindow text position before window after) :
    Text.byteLength window ≤ snippetLength := by
  have within := isWindow.finish.1.2
  rw [Text.byteLength_append] at within
  exact Nat.le_of_add_le_add_left within

/-- What is in reach of the position is in the stretch. -/
theorem IsWindow.infix_of_inReach
    {before after : List Char}
    (isWindow : IsWindow text position before window after)
    (inReach : InReach text position piece) :
    piece <:+: window := by
  obtain ⟨lead, rest, isText, notEarly, notLate⟩ := inReach
  have beforeStarts : before <+: text :=
    ⟨window ++ after, by rw [isWindow.parts, List.append_assoc]⟩
  have leadStarts : lead <+: text := ⟨piece ++ rest, by rw [isText, List.append_assoc]⟩
  have pieceStarts : lead ++ piece <+: text := ⟨rest, isText.symm⟩
  have windowStarts : before ++ window <+: text := ⟨after, isWindow.parts.symm⟩
  have startsBefore : Text.byteLength before ≤ Text.byteLength lead := by
    have isStart := isWindow.start.1.2
    omega
  -- The first cut is moved by three bytes at most, so the stretch goes on to the piece's end.
  have fits : Text.byteLength (lead ++ piece) ≤ Text.byteLength before + snippetLength := by
    by_cases atEnd : Text.byteLength before = Text.byteLength text
    · have notLonger := Text.byteLength_le_of_sublist pieceStarts.sublist
      omega
    · have near := Text.lt_add_four_of_isGreatest isWindow.start atEnd
      have room : leadLength + 3 ≤ snippetLength := by decide
      omega
  have endsBefore : Text.byteLength (lead ++ piece) ≤ Text.byteLength (before ++ window) :=
    isWindow.finish.2 ⟨⟨lead ++ piece, rest, isText, rfl⟩, fits⟩
  obtain ⟨gap, rfl⟩ := Text.prefix_of_byteLength_le beforeStarts leadStarts startsBefore
  have inside := Text.prefix_of_byteLength_le pieceStarts windowStarts endsBefore
  rw [List.append_assoc, List.prefix_append_right_inj] at inside
  exact (List.suffix_append gap piece).isInfix.trans inside.isInfix

end Window

section Tidy

theorem isBlank_of_mem_longLineEnd
    {mark : Char}
    (isMark : mark ∈ longLineEnd) :
    Text.isBlank mark = true := by
  have allBlank : longLineEnd.all Text.isBlank = true := by
    decide
  exact List.all_eq_true.mp allBlank mark isMark

theorem not_mem_longLineEnd
    {c : Char}
    (notBlank : Text.isBlank c = false) :
    c ∉ longLineEnd := by
  intro isMark
  rw [isBlank_of_mem_longLineEnd isMark] at notBlank
  cases notBlank

/-- A text without blanks at its ends that has no long line end in it does not reach
over one. -/
theorem infix_of_infix_lineEnd
    {first second : List Char}
    (ends : Text.HasEnds wanted)
    (noLineEnd : ¬ longLineEnd <:+: wanted)
    (occurs : wanted <:+: first ++ longLineEnd ++ second) :
    wanted <:+: first ∨ wanted <:+: second := by
  obtain ⟨c, isFirst, firstNotBlank⟩ := ends.first
  obtain ⟨d, isLast, lastNotBlank⟩ := ends.last
  have firstNotMark := not_mem_longLineEnd firstNotBlank
  have lastNotMark := not_mem_longLineEnd lastNotBlank
  rw [List.append_assoc] at occurs
  rcases List.infix_append_iff_ne_nil.mp occurs with
    inFirst | behind | ⟨left, right, someLeft, someRight, isWanted, -, starts⟩
  · exact Or.inl inFirst
  · rcases List.infix_append_iff_ne_nil.mp behind with
      inMark | inSecond | ⟨left, right, someLeft, -, isWanted, inMark, -⟩
    · exact absurd (inMark.subset (List.mem_of_mem_head? isFirst)) firstNotMark
    · exact Or.inr inSecond
    · rw [isWanted, List.head?_append_of_ne_nil left someLeft] at isFirst
      exact absurd (inMark.subset (List.mem_of_mem_head? isFirst)) firstNotMark
  · -- The wanted text would end between the two characters of the line end, or hold both.
    rw [isWanted, List.getLast?_append_of_ne_nil left someRight] at isLast
    obtain ⟨rest, sameText⟩ := starts
    rcases List.append_eq_append_iff.mp sameText with ⟨more, isMark, -⟩ | ⟨more, isRight, -⟩
    · refine absurd ?_ lastNotMark
      rw [isMark]
      exact List.mem_append_left more (List.mem_of_getLast? isLast)
    · exact absurd ⟨left, more, by rw [isWanted, isRight, List.append_assoc]⟩ noLineEnd

/-- Short line ends do not hide an occurrence. -/
theorem infix_lower_replaceIn
    (ends : Text.HasEnds wanted)
    (noLineEnd : ¬ longLineEnd <:+: wanted)
    (window : List Char)
    (occurs : wanted <:+: Text.lower window) :
    wanted <:+: Text.lower (Text.replaceIn longLineEnd ['\n'] window) := by
  have shortBlank : ∀ mark ∈ ['\n'], Text.isBlank mark = true := by
    rintro mark isMark
    rw [List.mem_singleton.mp isMark]
    rfl
  have someLineEnd : longLineEnd ≠ [] := by
    decide
  induction window using Text.occurrence_induction someLineEnd with
  | none window notThere =>
      rwa [Text.replaceIn_of_none notThere]
  | more first second isSplit behind =>
      rw [Text.lower_around_blanks someLineEnd fun _ => isBlank_of_mem_longLineEnd] at occurs
      rw [Text.replaceIn_of_split someLineEnd isSplit,
        Text.lower_around_blanks (by decide) shortBlank]
      rcases infix_of_infix_lineEnd ends noLineEnd occurs with inFirst | inSecond
      · rw [List.append_assoc]
        exact List.infix_append_of_infix_left inFirst
      · exact List.infix_append_of_infix_right (behind inSecond)

/-- Nor do the blanks that are taken away around it. -/
theorem infix_lower_tidied
    (ends : Text.HasEnds wanted)
    (noLineEnd : ¬ longLineEnd <:+: wanted)
    (occurs : wanted <:+: Text.lower window) :
    wanted <:+: Text.lower (tidied window) := by
  obtain ⟨before, after, isLower⟩ := infix_lower_replaceIn ends noLineEnd window occurs
  rw [tidied, Text.lower_trim, ← isLower, Text.trim_append ends]
  exact ⟨_, _, rfl⟩

end Tidy

section Occurrence

/-- No capital sigma of a text can be in the place of a wanted text. -/
def SigmaFree (text wanted : List Char) : Prop :=
  (∀ c ∈ text, c.toNat ≠ 0x3A3) ∨ ∀ d ∈ Text.smallSigmas, d ∉ wanted

/-- Where each character keeps its bytes, the occurrence is at its position in the text. -/
theorem inReach_of_keepsBytes
    {first rest : List Char}
    (isShort : Text.byteLength wanted ≤ 150)
    (keeps : Text.KeepsBytes text)
    (sigmaFree : SigmaFree text wanted)
    (isLower : Text.lower text = first ++ wanted ++ rest) :
    ∃ piece, InReach text (Text.byteLength first) piece ∧ Text.Shows piece wanted := by
  have kept := Text.forall₂_keptAs keeps []
  rw [← Text.lower, isLower] at kept
  obtain ⟨start, after, rfl, startKept, -⟩ := Text.exists_parts_of_keptAs kept
  obtain ⟨before, piece, rfl, beforeKept, pieceKept⟩ := Text.exists_parts_of_keptAs startKept
  have noSigma : ∀ c ∈ piece, c.toNat ≠ 0x3A3 := by
    rcases sigmaFree with noneThere | noneWanted
    · intro c isPart
      exact noneThere c (List.mem_append_left _ (List.mem_append_right _ isPart))
    · exact Text.not_sigma_of_keptAs pieceKept noneWanted
  have sameBefore := Text.byteLength_of_keptAs beforeKept
  have samePiece := Text.byteLength_of_keptAs pieceKept
  refine ⟨piece, ⟨before, after, rfl, ?_, ?_⟩, ?_⟩
  · rw [sameBefore]
    exact Nat.le_add_right _ _
  · rw [Text.byteLength_append, leadLength, snippetLength]
    omega
  · refine Text.shows_of_ordinary noSigma ?_
    rw [Text.flatMap_of_keptAs pieceKept noSigma]

/-- A text in lower case is in reach of its own position. -/
theorem inReach_of_lower
    {first rest : List Char}
    (isShort : Text.byteLength wanted ≤ 150)
    (isLower : Text.lower text = first ++ wanted ++ rest) :
    InReach (Text.lower text) (Text.byteLength first) wanted ∧ Text.Shows wanted wanted := by
  have steady : ∀ c ∈ wanted, Text.isSteady c = true := by
    intro c isPart
    have inLower : c ∈ Text.lower text := by
      rw [isLower]
      exact List.mem_append_left _ (List.mem_append_right _ isPart)
    exact Text.isSteady_of_mem_lowerFrom inLower
  have noSigma : ∀ c ∈ wanted, c.toNat ≠ 0x3A3 :=
    fun c isPart => (Text.isSteady_iff.mp (steady c isPart)).2
  refine ⟨⟨first, rest, isLower, Nat.le_add_right _ _, ?_⟩, ?_⟩
  · rw [Text.byteLength_append, leadLength, snippetLength]
    omega
  · refine Text.shows_of_ordinary noSigma ?_
    rw [← Text.lower_eq_flatMap noSigma, Text.lower_eq_self steady]

/-- What is in reach of the position is shown. -/
theorem infix_lower_snippet
    (ends : Text.HasEnds wanted)
    (noLineEnd : ¬ longLineEnd <:+: wanted)
    (inReach : InReach text position piece)
    (shows : Text.Shows piece wanted) :
    wanted <:+: Text.lower (snippet text position) := by
  obtain ⟨before, window, after, isWindow, isSnippet⟩ := exists_isWindow text position
  obtain ⟨lead, trail, isPart⟩ := isWindow.infix_of_inReach inReach
  rw [isSnippet]
  refine infix_lower_tidied ends noLineEnd ?_
  rw [← isPart]
  exact shows lead trail

theorem isSnippet_snippet (text : List Char) (position : Nat) :
    IsSnippet text position (snippet text position) := by
  obtain ⟨before, window, after, isWindow, same⟩ := exists_isWindow text position
  refine ⟨⟨before, window, after, isWindow, same⟩, ?_⟩
  have isPart : (tidied window).Sublist window :=
    (Text.trim_sublist _).trans (Text.replaceIn_sublist (by decide) (by decide) window)
  rw [same]
  exact Nat.le_trans (Text.byteLength_le_of_sublist isPart) isWindow.byteLength_le

end Occurrence

/-- What a hit shows of a text: a snippet around the position that the first occurrence has in
lower case, with the phrase in it wherever that position is near the occurrence. -/
structure Displays (wanted text shown first : List Char) : Prop where
  occurs :
    first ++ wanted <+: Text.lower text
  isFirst :
    ∀ earlier, earlier ++ wanted <+: Text.lower text → first.length ≤ earlier.length
  isSnippet :
    IsSnippet (source text (Text.lower text)) (Text.byteLength first) shown
  ofReach :
    ∀ piece, InReach (source text (Text.lower text)) (Text.byteLength first) piece →
      Text.Shows piece wanted → wanted <:+: Text.lower shown
  ofLength :
    Text.byteLength (Text.lower text) ≠ Text.byteLength text → wanted <:+: Text.lower shown
  ofBytes :
    Text.KeepsBytes text → SigmaFree text wanted → wanted <:+: Text.lower shown

theorem displays_snippet
    {first second : List Char}
    (ends : Text.HasEnds wanted)
    (isShort : Text.byteLength wanted ≤ 150)
    (noLineEnd : ¬ longLineEnd <:+: wanted)
    (isSplit : Text.splitFirst? wanted (Text.lower text) = some (first, second)) :
    Displays wanted text (snippet (source text (Text.lower text)) (Text.byteLength first))
      first := by
  obtain ⟨isLower, noneEarlier⟩ := Text.splitFirst?_eq_some isSplit
  have ofReach :
      ∀ piece, InReach (source text (Text.lower text)) (Text.byteLength first) piece →
        Text.Shows piece wanted →
          wanted <:+: Text.lower (snippet (source text (Text.lower text))
            (Text.byteLength first)) :=
    fun piece => infix_lower_snippet ends noLineEnd
  exact {
    occurs := ⟨second, isLower.symm⟩
    isFirst := by
      rintro earlier ⟨later, isLater⟩
      exact noneEarlier earlier later isLater.symm
    isSnippet := isSnippet_snippet _ _
    ofReach := ofReach
    ofLength := by
      intro different
      obtain ⟨inReach, shows⟩ := inReach_of_lower isShort isLower
      refine ofReach wanted ?_ shows
      rwa [source, if_neg different]
    ofBytes := by
      intro keeps sigmaFree
      obtain ⟨piece, inReach, shows⟩ :=
        inReach_of_keepsBytes isShort keeps sigmaFree isLower
      have sameLength : Text.byteLength (Text.lower text) = Text.byteLength text :=
        Text.byteLength_of_keptAs (Text.forall₂_keptAs keeps [])
      refine ofReach piece ?_ shows
      rwa [source, if_pos sameLength]
  }

/-- There are no more documents that match than there are files. -/
theorem length_matching_le (files : FileTree) (root : String) (phrase : List Char) :
    (matching files root phrase).length ≤ files.files.length := by
  have sortedLength (ending : String) : (sorted files root ending).length ≤ files.files.length := by
    rw [sorted]
    split
    · exact Nat.zero_le _
    · rw [List.length_mergeSort]
      exact List.length_filterMap_le _ _
  have searchedLength : (searched files root).length ≤ files.files.length := by
    rcases searched_cases files root with ⟨-, isSearched⟩ | ⟨-, isSearched⟩
    · exact isSearched ▸ sortedLength "md"
    · exact isSearched ▸ sortedLength "txt"
  exact Nat.le_trans (List.length_filterMap_le _ _) searchedLength

/--
A search whose limit is not below the number of files has a hit for each document that matches,
with a snippet of it that is cut between characters and is not too long.  The snippet shows the
phrase where it is in reach of the position in lower case: always if the lower case of the
document has another length, or if each character keeps its bytes and no sigma is in question.
-/
theorem search_displays
    {files : FileTree}
    {root query : String}
    {limit : Nat}
    {document : Document}
    (isTrimmed : Text.trim query.toList = query.toList)
    (someWanted : Text.lower query.toList ≠ [])
    (isShort : Text.byteLength (Text.lower query.toList) ≤ 150)
    (noLineEnd : ¬ longLineEnd <:+: Text.lower query.toList)
    (isMatch : Matches files root (Text.lower query.toList) document)
    (enough : files.files.length ≤ limit) :
    ∃ hit ∈ search files root query limit,
      hit.path = written root document.path ∧
        ∃ first, Displays (Text.lower query.toList) document.text hit.snippet.toList first := by
  have ends : Text.HasEnds (Text.lower query.toList) := by
    have someLeft : Text.trim query.toList ≠ [] := by
      intro isNil
      rw [isTrimmed] at isNil
      exact someWanted (by rw [isNil]; rfl)
    exact Text.hasEnds_lower (isTrimmed ▸ Text.hasEnds_trim someLeft)
  generalize isPhrase : Text.lower query.toList = phrase at *
  have isRanked : document ∈ ranked files root phrase :=
    List.mem_mergeSort.mpr (mem_matching_iff.mpr isMatch)
  have allTaken : (ranked files root phrase).take limit = ranked files root phrase := by
    refine List.take_of_length_le (Nat.le_trans ?_ enough)
    rw [ranked, List.length_mergeSort]
    exact length_matching_le files root phrase
  refine ⟨document.hit root phrase, ?_, rfl, ?_⟩
  · rw [search_eq (isPhrase ▸ someWanted), isPhrase, allTaken]
    exact List.mem_map_of_mem isRanked
  · cases isSplit : Text.splitFirst? phrase (Text.lower document.text) with
    | none =>
        exact absurd isMatch.occurs (Text.splitFirst?_eq_none_iff.mp isSplit)
    | some parts =>
        obtain ⟨first, second⟩ := parts
        refine ⟨first, ?_⟩
        rw [Document.hit, isSplit, String.toList_ofList]
        exact displays_snippet ends isShort noLineEnd isSplit

section OnePage

/-- The path of a page within its folder. -/
def pagePath : FilePath := .ofNames ["page.md"]

/-- A folder with one page. -/
def onePage (text : List Char) : FileTree :=
  { files := [(.ofNames ["docs"] ++ pagePath, text.flatMap String.utf8EncodeChar)] }

theorem hasEnding_page : HasEnding "docs" pagePath "md" := by
  rw [HasEnding, ofText_docs]
  decide +kernel

theorem matches_onePage
    {phrase : List Char}
    (occurs : phrase <:+: Text.lower text) :
    Matches (onePage text) "docs" phrase ⟨pagePath, text⟩ := by
  have inFolder :
      InFolder (onePage text) "docs" pagePath (Text.toBytes (String.ofList text)) := by
    refine ⟨by decide, ?_⟩
    rw [ofText_docs, Text.toBytes_ofList]
    exact List.mem_singleton_self _
  exact {
    isFile := inFolder
    markdown := fun _ => hasEnding_page
    plain := fun noMarkdown => absurd ⟨_, _, inFolder, hasEnding_page⟩ noMarkdown
    occurs := occurs
  }

/-- A search in the folder looks at the page only. -/
theorem search_onePage
    {query : String}
    (someWanted : Text.lower query.toList ≠ [])
    (text : List Char)
    (limit : Nat) :
    search (onePage text) "docs" query (limit + 1) =
      (hit? (Text.lower query.toList) "docs/page.md" text).toList := by
  have isWritten : written "docs" pagePath = "docs/page.md" := by
    decide +kernel
  have isBelow : below? (.ofNames ["docs"]) (.ofNames ["docs"] ++ pagePath) = some pagePath :=
    below?_eq_some_iff.mpr rfl
  have isDocument :
      documents (onePage text) "docs" =
        [("docs/page.md", text.flatMap String.utf8EncodeChar)] := by
    have hasEnding := hasEnding_page
    rw [HasEnding, ofText_docs] at hasEnding
    simp [documents, scan, onePage, ofText_docs, hasEnding, isBelow, isWritten]
  have isText : Text.decode? (text.flatMap String.utf8EncodeChar) = some text :=
    Text.decode?_eq_some_iff.mpr (Text.toBytes_ofList text).symm
  rw [search, if_neg (by simpa using someWanted), isDocument]
  cases isHit : hit? (Text.lower query.toList) "docs/page.md" text with
  | none =>
      simp [isText, isHit]
  | some hit =>
      simp [isText, isHit]

end OnePage

/-- A page with capital letters. -/
def capitals : List Char := "Restart REDIS first.".toList

/-- The word is shown as it is written there. -/
theorem search_displays_capitals :
    ∃ hit ∈ search (onePage capitals) "docs" "Redis" 8,
      hit.path = written "docs" pagePath ∧
        Text.lower "Redis".toList <:+: Text.lower hit.snippet.toList := by
  have keeps :
      (capitals.all fun c => Text.byteLength (Text.lowerChar c) == c.utf8Size) = true := by
    decide +kernel
  have noneWanted :
      (Text.smallSigmas.all fun d => !(Text.lower "Redis".toList).contains d) = true := by
    decide +kernel
  have isMatch : Matches (onePage capitals) "docs" (Text.lower "Redis".toList)
      ⟨pagePath, capitals⟩ :=
    matches_onePage (by decide +kernel)
  have enough : (onePage capitals).files.length ≤ 8 := by
    decide
  obtain ⟨hit, isHit, isPath, first, displays⟩ :=
    search_displays (by decide +kernel) (by decide +kernel) (by decide +kernel)
      (by decide +kernel) isMatch enough
  refine ⟨hit, isHit, isPath, displays.ofBytes ?_ (Or.inr ?_)⟩
  · exact fun c isPart => eq_of_beq (List.all_eq_true.mp keeps c isPart)
  · intro d isForm
    simpa using List.all_eq_true.mp noneWanted d isForm

/-- A page whose lower case has as many bytes, but other ones before the word: the kelvin sign
loses two bytes in lower case, and the capital I with a dot gains one. -/
def displaced : List Char :=
  List.replicate 79 (Char.ofNat 0x212A) ++ "redis".toList ++ List.replicate 158 (Char.ofNat 0x130)

/-- The word is found in this page, and the snippet ends within it. -/
theorem snippet_without_word :
    Text.trim "redis".toList = "redis".toList ∧
      Text.lower "redis".toList ≠ [] ∧
      Text.byteLength (Text.lower "redis".toList) ≤ 150 ∧
      ¬ longLineEnd <:+: Text.lower "redis".toList ∧
      Matches (onePage displaced) "docs" (Text.lower "redis".toList)
        ⟨pagePath, displaced⟩ ∧
      ∃ shown,
        search (onePage displaced) "docs" "redis" 8 = [⟨"docs/page.md", 1, String.ofList shown⟩] ∧
          ¬ Text.lower "redis".toList <:+: Text.lower shown := by
  have someWanted : Text.lower "redis".toList ≠ [] := by
    decide +kernel
  refine ⟨by decide +kernel, someWanted, by decide +kernel, by decide +kernel,
    matches_onePage (by decide +kernel),
    List.replicate 79 (Char.ofNat 0x212A) ++ "red".toList, ?_, by decide +kernel⟩
  have isHit :
      hit? (Text.lower "redis".toList) "docs/page.md" displaced =
        some ⟨"docs/page.md", 1,
          String.ofList (List.replicate 79 (Char.ofNat 0x212A) ++ "red".toList)⟩ := by
    decide +kernel
  rw [search_onePage someWanted, isHit]
  rfl

end Runbook.Toolbox.Documents
