import Runbook.Proofs.Settings.Variables

namespace Runbook.Settings

/-!
# Layers

Settings are taken from the environment, else from the file that was asked for, else from the
default file, each on its own: of all that the layers write, the last writing that bears on a
setting decides it, and where none does, what is built in holds.  A value that is written as it
is wanted counts as it is written.  A variable of the environment is an exception, since it is
read before it is known that a text is wanted.
-/

open Json (Shape)

/-- A path stands for a file of a format: for the file at the path, which has an ending of the
format, or if there is none for one whose name has such an ending attached. -/
inductive StandsFor (files : FileTree) (path : FilePath) : FilePath → Format → Prop where
  | itself
      {format : Format}
      {ending : String}
      (isFile : files.isFile path.direct = true)
      (hasEnding : path.ending? = some (Text.toBytes ending))
      (isEnding : ending ∈ format.endings) :
      StandsFor files path path format
  | completed
      {format : Format}
      {ending : String}
      (noFile : files.isFile path.direct = false)
      (isEnding : ending ∈ format.endings)
      (isFile : files.isFile (path.withEnding ending).direct = true) :
      StandsFor files path (path.withEnding ending) format

/-- What a file writes that a path stands for. -/
inductive FileWrites (reader : FileReader) (files : FileTree) (path : FilePath) :
    List (String × Entry) → Prop where
  | nothing
      (noFile : ∀ file format, ¬ StandsFor files path file format) :
      FileWrites reader files path []
  | layer
      {file : FilePath}
      {format : Format}
      {content : Text.Bytes}
      {layer : List (String × Entry)}
      (standsFor : StandsFor files path file format)
      (isThere : files.read? file.direct = some content)
      (isRead : reader.parse? format file.toText (textOf content) = some layer) :
      FileWrites reader files path layer

/-- What the default file writes: the first one that is there, of those that are looked for. -/
inductive DefaultWrites (reader : FileReader) (files : FileTree) :
    List (String × Entry) → Prop where
  | nothing
      (noneThere : defaultPath? files = none) :
      DefaultWrites reader files []
  | first
      {path : FilePath}
      {layer : List (String × Entry)}
      (isFirst : defaultPath? files = some path)
      (writes : FileWrites reader files path layer) :
      DefaultWrites reader files layer

/-- What the file writes that was asked for, if it is there. -/
inductive AskedWrites (reader : FileReader) (files : FileTree) (asked : Option String) :
    List (String × Entry) → Prop where
  | nothing
      (noneThere : ∀ text, asked = some text →
        text = "" ∨ files.exists? (FilePath.names text).direct = false) :
      AskedWrites reader files asked []
  | file
      {text : String}
      {layer : List (String × Entry)}
      (isAsked : asked = some text)
      (isNamed : text ≠ "")
      (isThere : files.exists? (FilePath.names text).direct = true)
      (writes : FileWrites reader files (FilePath.names text) layer) :
      AskedWrites reader files asked layer

/-- The writing that a setting is taken from: the last one that bears on it in the environment,
else in the file that was asked for, else in the default file. -/
def decisive? (default chosen : List (String × Entry)) (environment : Environment)
    (path : List String) : Option Writing :=
  (Writing.last? path (environmentWritings environment)).or
    ((Writing.last? path (Entry.layerWritings chosen)).or
      (Writing.last? path (Entry.layerWritings default)))

/-- What is built in for the setting at a path. -/
def builtIn? (path : List String) : Option Json := ({} : Settings).toJson.at? path

/-- A setting has the value that the writing has that it is taken from.  A list that is written
in place of its section gives its fields the items in order, until a table takes its place.
Nothing is said where an item of a list is written on its own. -/
structure IsTakenFrom (path : List String) (kind : Shape) (writing? : Option Writing)
    (value? : Option Json) : Prop where
  unwritten :
    writing? = none → value? = builtIn? path
  written :
    ∀ writing, writing? = some writing → writing.bearing path = .exact →
      ∃ value, value? = some value ∧
        ∀ other, Entry.Settles kind writing.entry other ↔ other = value
  asWritten :
    ∀ writing written, writing? = some writing → writing.bearing path = .exact →
      kind.asWritten? writing.entry = some written → value? = some written
  displaced :
    ∀ writing scalar origin, writing? = some writing → writing.bearing path = .above →
      writing.entry = .scalar scalar origin → value? = builtIn? path
  listed :
    ∀ writing items origin, writing? = some writing → writing.bearing path = .above →
      writing.entry = .list items origin → writing.entry.GivesPart kind (builtIn? path) value?
  notInside :
    ∀ writing, writing? = some writing → writing.bearing path ≠ .inside

/-- A setting has the value that a variable writes: a truth value or a number as it is written,
and a text unchanged exactly if it keeps its spelling. -/
structure IsSetBy (kind : Shape) (content : String) (value? : Option Json) : Prop where
  truth :
    ∀ value written, WritesTruth content value →
      kind.asWritten? (.scalar (.truth value) (some environmentOrigin)) = some written →
        value? = some written
  whole :
    ∀ number written, WritesWhole content number →
      kind.asWritten? (.scalar (.whole number) (some environmentOrigin)) = some written →
        value? = some written
  real :
    ∀ number written, WritesReal content number →
      kind.asWritten? (.scalar (.real number) (some environmentOrigin)) = some written →
        value? = some written
  text :
    ∀ written, kind.asWritten? (.scalar (.text content) (some environmentOrigin)) = some written →
      (value? = some written ↔ KeepsSpelling content)

variable {reader : FileReader} {files : FileTree} {asked : Option String}
  {environment : Environment} {settings : Settings} {path : List String} {kind : Shape}
  {leaf : List String × Shape}

/-! ## Laying the layers -/

/-- A file that a path stands for is there. -/
theorem StandsFor.isThere
    {path file : FilePath}
    {format : Format}
    (standsFor : StandsFor files path file format) :
    files.isFile file.direct = true := by
  cases standsFor with
  | itself isFile _ _ => exact isFile
  | completed _ _ isFile => exact isFile

/-- The format of an ending is one that has it. -/
theorem exists_of_ofEnding?
    {format : Format}
    {ending : FileName}
    (isFound : Format.ofEnding? ending = some format) :
    ∃ text ∈ format.endings, Text.toBytes text = ending := by
  have hasEnding := List.find?_some isFound
  simpa using hasEnding

/-- Every ending of a format belongs to some format. -/
theorem ofEnding?_ne_none
    {format : Format}
    {ending : String}
    (isEnding : ending ∈ format.endings) :
    Format.ofEnding? (Text.toBytes ending) ≠ none := by
  rw [Format.ofEnding?, ← Option.isSome_iff_ne_none, List.find?_isSome]
  exact ⟨format, by cases format <;> decide, List.any_eq_true.mpr ⟨ending, isEnding, by simp⟩⟩

theorem standsFor_of_find?
    {path file : FilePath}
    {format : Format}
    (isFound : find? reader files path = some (file, format)) :
    StandsFor files path file format := by
  rw [find?] at isFound
  split at isFound
  · next isFile =>
      obtain ⟨found, hasFormat, isSame⟩ := Option.map_eq_some_iff.mp isFound
      cases isSame
      obtain ⟨bytes, hasEnding, isFormat⟩ := Option.bind_eq_some_iff.mp hasFormat
      obtain ⟨ending, isEnding, rfl⟩ := exists_of_ofEnding? isFormat
      exact .itself isFile hasEnding isEnding
  · next noFile =>
      obtain ⟨tried, -, isFound⟩ := List.exists_of_findSome?_eq_some isFound
      obtain ⟨ending, isFirst, isSame⟩ := Option.map_eq_some_iff.mp isFound
      cases isSame
      have isFile := List.find?_some isFirst
      exact .completed (Bool.eq_false_iff.mpr noFile) (List.mem_of_find?_eq_some isFirst) isFile

/-- Where no file is found the path stands for none, since every format has its turn. -/
theorem not_standsFor_of_find?
    {path file : FilePath}
    {format : Format}
    (noneFound : find? reader files path = none) :
    ¬ StandsFor files path file format := by
  intro standsFor
  rw [find?] at noneFound
  cases standsFor with
  | itself isFile hasEnding isEnding =>
      rw [if_pos isFile, hasEnding] at noneFound
      exact ofEnding?_ne_none isEnding (Option.map_eq_none_iff.mp noneFound)
  | @completed _ ending noFile isEnding isFile =>
      rw [if_neg (Bool.eq_false_iff.mp noFile), List.findSome?_eq_none_iff] at noneFound
      have hasTurn : format ∈ reader.order :=
        reader.isOrder.mem_iff.mpr (by cases format <;> decide)
      have noneTried := Option.map_eq_none_iff.mp (noneFound format hasTurn)
      exact List.find?_eq_none.mp noneTried ending isEnding isFile

theorem exists_of_layFile
    {path : FilePath}
    {under laid : Entry}
    (isLaid : layFile reader files path under = .ok laid) :
    ∃ layer, FileWrites reader files path layer ∧ laid = Entry.putAll layer under := by
  rw [layFile] at isLaid
  split at isLaid
  · next noFile =>
      cases isLaid
      exact ⟨[], .nothing fun _ _ => not_standsFor_of_find? noFile, rfl⟩
  · next file format isFound =>
      have standsFor := standsFor_of_find? isFound
      obtain ⟨content, isThere⟩ := Option.isSome_iff_exists.mp standsFor.isThere
      rw [isThere, Option.getD_some] at isLaid
      dsimp only at isLaid
      split at isLaid
      · cases isLaid
      · next layer isRead =>
          cases isLaid
          exact ⟨layer, .layer standsFor isThere isRead, rfl⟩

/-- The default file, laid over nothing. -/
def layDefault (reader : FileReader) (files : FileTree) : Except SettingsFlaw Entry :=
  match defaultPath? files with
  | some path => layFile reader files path .empty
  | none => .ok .empty

/-- The file that was asked for, laid over what is there. -/
def layAsked (reader : FileReader) (files : FileTree) (asked : Option String) (under : Entry) :
    Except SettingsFlaw Entry :=
  match asked with
  | some text =>
      if text ≠ "" ∧ files.exists? (FilePath.names text).direct = true then
        layFile reader files (FilePath.names text) under
      else .ok under
  | none => .ok under

theorem layAsked_bind
    (under : Entry)
    (next : Entry → Except SettingsFlaw Entry) :
    (match asked.map FilePath.names with
      | some path =>
          if (asked != some "") && files.exists? path.direct then
            layFile reader files path under >>= next
          else pure under >>= next
      | none => pure under >>= next) =
      layAsked reader files asked under >>= next := by
  cases asked with
  | none =>
      rfl
  | some text =>
      by_cases isThere : text ≠ "" ∧ files.exists? (FilePath.names text).direct = true
      · simp [layAsked, isThere]
      · have notThere : ((some text != some "") && files.exists? (FilePath.names text).direct) =
            false := by
          simpa using isThere
        simp only [Option.map_some, notThere, layAsked, if_neg isThere]
        rfl

theorem layers_eq :
    layers reader files asked environment = do
      let default ← layDefault reader files
      let chosen ← layAsked reader files asked default
      return chosen.putAll (environmentLayer environment) := by
  unfold layers layDefault
  cases defaultPath? files with
  | none => exact layAsked_bind .empty _
  | some path =>
      exact congrArg (layFile reader files path .empty >>= ·)
        (funext fun under => layAsked_bind under _)

theorem exists_of_layDefault
    {laid : Entry}
    (isLaid : layDefault reader files = .ok laid) :
    ∃ default, DefaultWrites reader files default ∧ laid = Entry.putAll default .empty := by
  unfold layDefault at isLaid
  split at isLaid
  · next path isFirst =>
      obtain ⟨layer, writes, isSame⟩ := exists_of_layFile isLaid
      exact ⟨layer, .first isFirst writes, isSame⟩
  · next noneThere =>
      cases isLaid
      exact ⟨[], .nothing noneThere, rfl⟩

theorem exists_of_layAsked
    {under laid : Entry}
    (isLaid : layAsked reader files asked under = .ok laid) :
    ∃ chosen, AskedWrites reader files asked chosen ∧ laid = Entry.putAll chosen under := by
  unfold layAsked at isLaid
  split at isLaid
  · next text =>
      split at isLaid
      · next isThere =>
          obtain ⟨layer, writes, isSame⟩ := exists_of_layFile isLaid
          exact ⟨layer, .file rfl isThere.1 isThere.2 writes, isSame⟩
      · next notThere =>
          cases isLaid
          refine ⟨[], .nothing ?_, rfl⟩
          rintro _ ⟨⟩
          by_cases isNamed : text = ""
          · exact Or.inl isNamed
          · exact Or.inr (Bool.eq_false_iff.mpr fun isThere => notThere ⟨isNamed, isThere⟩)
  · cases isLaid
    exact ⟨[], .nothing (by simp), rfl⟩

/-- Three layers lie over one another. -/
theorem exists_of_layers
    {whole : Entry}
    (areLaid : layers reader files asked environment = .ok whole) :
    ∃ default chosen, DefaultWrites reader files default ∧ AskedWrites reader files asked chosen ∧
      whole = Entry.putAll (environmentLayer environment)
        (Entry.putAll chosen (Entry.putAll default .empty)) := by
  rw [layers_eq] at areLaid
  obtain ⟨under, isUnder, areLaid⟩ := exists_of_bind areLaid
  obtain ⟨laid, isLaid, isWhole⟩ := exists_of_bind areLaid
  cases isWhole
  obtain ⟨default, writesDefault, rfl⟩ := exists_of_layDefault isUnder
  obtain ⟨chosen, writesChosen, rfl⟩ := exists_of_layAsked isLaid
  exact ⟨default, chosen, writesDefault, writesChosen, rfl⟩

/-! ## Where settings are taken from -/

/-- What is seen at a path of names, of all that three layers write. -/
theorem leads_layers
    (default chosen : List (String × Entry))
    (environment : Environment)
    (name : String)
    (path : List String) :
    Sight.Leads (name :: path)
      (Entry.layerWritings default ++ Entry.layerWritings chosen ++
        environmentWritings environment)
      .missing
      (Entry.sight (name :: path) (some (Entry.putAll (environmentLayer environment)
        (Entry.putAll chosen (Entry.putAll default .empty))))) := by
  have nothingThere : Entry.sight (name :: path) (some .empty) = .missing :=
    Entry.sight_none path
  have ofDefault := Entry.leads_putAll default .empty (name :: path)
  rw [nothingThere] at ofDefault
  exact (ofDefault.append (Entry.leads_putAll chosen _ _)).append
    (Entry.leads_putAll (environmentLayer environment) _ _)

theorem last?_layers
    (default chosen : List (String × Entry))
    (environment : Environment)
    (path : List String) :
    Writing.last? path
        (Entry.layerWritings default ++ Entry.layerWritings chosen ++
          environmentWritings environment) =
      decisive? default chosen environment path := by
  rw [Writing.last?_append, Writing.last?_append, decisive?]

/-- What is seen at a single setting and what it has say where it is taken from. -/
theorem isTakenFrom_of_leads
    {writings : List Writing}
    {after : Sight}
    {value? : Option Json}
    (isSingle : kind.isSingle)
    (leads : Sight.Leads path writings .missing after)
    (gives : after.Gives kind (builtIn? path) value?) :
    IsTakenFrom path kind (Writing.last? path writings) value? := by
  cases leads with
  | tabled =>
      cases gives with
      | found isValue settles => exact (Entry.not_settles_table settles isSingle).elim
  | keeps noneThere keeps =>
      have isMissing : after = .missing := by
        rcases keeps with rfl | ⟨-, rfl⟩ <;> rfl
      subst isMissing
      rw [noneThere]
      cases gives with
      | missing isDefault =>
          exact {
            unwritten := fun _ => isDefault
            written := by rintro writing ⟨⟩
            asWritten := by rintro writing written ⟨⟩
            displaced := by rintro writing scalar origin ⟨⟩
            listed := by rintro writing items origin ⟨⟩
            notInside := by rintro writing ⟨⟩
          }
  | @shows writing _ isLast isShown =>
      rw [isLast]
      refine {
        unwritten := by rintro ⟨⟩
        written := ?written
        asWritten := ?asWritten
        displaced := ?displaced
        listed := ?listed
        notInside := ?notInside
      }
      case written =>
        rintro _ ⟨⟩ isExact
        rw [isShown.exact isExact] at gives
        cases gives with
        | @found _ value isValue settles =>
            refine ⟨value, isValue, fun other => ⟨fun alsoSettles => ?_, ?_⟩⟩
            · exact alsoSettles.unique settles isSingle
            · rintro rfl
              exact settles
      case asWritten =>
        rintro _ written ⟨⟩ isExact isWritten
        rw [isShown.exact isExact] at gives
        cases gives with
        | found isValue settles => rw [isValue, settles.eq_of_asWritten isWritten]
      case displaced =>
        rintro _ scalar origin ⟨⟩ isAbove isScalar
        have notTable : ∀ members origin, writing.entry ≠ .table members origin := by
          simp [isScalar]
        rcases isShown.above isAbove notTable with isBlocked | isMissing
        · rw [isBlocked, isScalar] at gives
          cases gives
        · rw [isMissing] at gives
          cases gives with
          | missing isDefault => exact isDefault
      case listed =>
        rintro _ items origin ⟨⟩ isAbove isList
        have notTable : ∀ members origin, writing.entry ≠ .table members origin := by
          simp [isList]
        rcases isShown.above isAbove notTable with isBlocked | isMissing
        · rw [isBlocked, isList] at gives
          cases gives with
          | listed givesPart =>
              rw [isList]
              exact givesPart
        · rw [isMissing] at gives
          cases gives with
          | missing isDefault => exact Or.inl isDefault
      case notInside =>
        rintro _ ⟨⟩
        exact isShown.notInside

/-- A setting that a variable decides has what the variable writes. -/
theorem isSetBy_of_settles
    {content : String}
    {value : Json}
    (settles : Entry.Settles kind (.scalar (valueOf content) (some environmentOrigin)) value) :
    IsSetBy kind content (some value) := by
  refine { truth := ?truth, whole := ?whole, real := ?real, text := ?text }
  case truth =>
    intro truth written writes isWritten
    rw [valueOf_of_readsAs (.truth writes)] at settles
    rw [settles.eq_of_asWritten isWritten]
  case whole =>
    intro number written writes isWritten
    rw [valueOf_of_readsAs (.whole writes)] at settles
    rw [settles.eq_of_asWritten isWritten]
  case real =>
    intro number written writes isWritten
    rw [valueOf_of_readsAs (.real writes)] at settles
    rw [settles.eq_of_asWritten isWritten]
  case text =>
    intro written isWritten
    rw [Option.some.injEq]
    exact eq_iff_keepsSpelling rfl settles isWritten

/-- Every setting is taken, on its own, from the environment, else from the file that was asked
for, else from the default file, else from what is built in; and what a variable sets has the
value that the variable writes. -/
theorem isTakenFrom_of_load
    (isLoaded : load reader files asked environment = .ok settings) :
    ∃ default chosen, DefaultWrites reader files default ∧ AskedWrites reader files asked chosen ∧
      ∀ leaf ∈ shape.leaves,
        IsTakenFrom leaf.1 leaf.2 (decisive? default chosen environment leaf.1)
            (settings.toJson.at? leaf.1) ∧
          ∀ content, SetTo environment leaf.1 content →
            IsSetBy leaf.2 content (settings.toJson.at? leaf.1) := by
  obtain ⟨whole, areLaid, isRead⟩ := exists_of_bind isLoaded
  obtain ⟨default, chosen, writesDefault, writesChosen, rfl⟩ := exists_of_layers areLaid
  refine ⟨default, chosen, writesDefault, writesChosen, fun leaf isLeaf => ?_⟩
  have isTaken : IsTakenFrom leaf.1 leaf.2 (decisive? default chosen environment leaf.1)
      (settings.toJson.at? leaf.1) := by
    obtain ⟨path, kind⟩ := leaf
    cases path with
    | nil =>
        cases leafAt?_of_mem_leaves _ isLeaf
    | cons name path =>
        rw [← last?_layers]
        exact isTakenFrom_of_leads (isSingle_of_mem_leaves _ isLeaf)
          (leads_layers default chosen environment name path) (gives_of_ofEntry isRead isLeaf)
  refine ⟨isTaken, fun content isSet => ?_⟩
  have isDecisive : decisive? default chosen environment leaf.1 =
      some (variableWriting leaf.1 content) := by
    rw [decisive?, last?_of_setTo isLeaf isSet, Option.some_or]
  obtain ⟨value, isValue, settles⟩ := isTaken.written _ isDecisive (bearing_map_name leaf.1)
  rw [isValue]
  exact isSetBy_of_settles ((settles value).mpr rfl)

/-- A default file. -/
def sampleFiles : FileTree :=
  { files :=
      [(.ofNames ["config", "default.toml"],
        "[app]\nname = \"ops\"\n[parallel]\nmax_concurrency = 5\ntimeout_secs = 30".toUTF8.toList)] }

/-- A variable for one of the settings in that file. -/
def sampleEnvironment : Environment := [("OPSAGENT__PARALLEL__MAX_CONCURRENCY", "8")]

theorem isTakenFrom_of_load_sample :
    ∃ settings default chosen,
      load {} sampleFiles none sampleEnvironment = .ok settings ∧
        settings.app = { name := some "ops", logLevel := "info" } ∧
          settings.batch = { maxConcurrency := 8, timeout := 30, pause := 100 } ∧
            DefaultWrites {} sampleFiles default ∧ AskedWrites {} sampleFiles none chosen ∧
              ∀ leaf ∈ shape.leaves,
                IsTakenFrom leaf.1 leaf.2 (decisive? default chosen sampleEnvironment leaf.1)
                    (settings.toJson.at? leaf.1) ∧
                  ∀ content, SetTo sampleEnvironment leaf.1 content →
                    IsSetBy leaf.2 content (settings.toJson.at? leaf.1) := by
  have isLoaded :
      load {} sampleFiles none sampleEnvironment =
        .ok { app := { name := some "ops" }, batch := { maxConcurrency := 8, timeout := 30 } } := by
    refine eq_ok_of_toOption ?_
    decide +kernel
  obtain ⟨default, chosen, writesDefault, writesChosen, areTaken⟩ := isTakenFrom_of_load isLoaded
  exact ⟨_, default, chosen, isLoaded, rfl, rfl, writesDefault, writesChosen, areTaken⟩

/-- A name that is a numeral is put into writing again. -/
theorem respelled_of_numeral :
    ∃ settings,
      load {} {} none [("OPSAGENT__APP__NAME", "007")] = .ok settings ∧
        SetTo [("OPSAGENT__APP__NAME", "007")] ["app", "name"] "007" ∧
          settings.app.name = some "7" ∧ settings.app.name ≠ some "007" := by
  have isLoaded :
      load {} {} none [("OPSAGENT__APP__NAME", "007")] = .ok { app := { name := some "7" } } := by
    refine eq_ok_of_toOption ?_
    decide +kernel
  have isNamed : Text.lower "OPSAGENT__APP__NAME".toList = variableName ["app", "name"] := by
    decide +kernel
  exact ⟨_, isLoaded, @SetTo.intro _ _ _ [] [] _ rfl isNamed rfl, rfl, by decide⟩

end Runbook.Settings
