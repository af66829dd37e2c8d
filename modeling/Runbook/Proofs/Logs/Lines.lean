import Mathlib.Data.List.Pairwise
import Runbook.Logs.Line
import Runbook.Proofs.Decimal.Numerals
import Runbook.Proofs.Sorting

namespace Runbook.Logs

/-!
# The lines of a response

Whatever a response is, its lines are its entries that begin with two texts, each once and with
the labels of its stream.  They are in the order of their times, and lines with the same time
are in the order of their places in the response.
-/

/-- Where an entry stands in a response: which stream, and which of its entries. -/
structure Place where
  stream : Nat
  entry : Nat
  deriving DecidableEq

namespace Place

/-- A place comes before another one: an earlier stream, or the same and an earlier entry. -/
def Before (first second : Place) : Prop :=
  first.stream < second.stream ∨
    first.stream = second.stream ∧ first.entry < second.entry

end Place

namespace Line

/-- A response has a stream at a position. -/
def HasStream (response : Json) (position : Nat) (stream : Json) : Prop :=
  ∃ data streams, response.member? "data" = some data ∧
    data.member? "result" = some (.arr streams) ∧ streams[position]? = some stream

/-- A line has the labels of a stream, which are an object, or none. -/
def HasLabels (stream : Json) (line : Line) : Prop :=
  ∀ labels, line.labels = some labels ↔
    stream.member? "stream" = some labels ∧ ∃ members, labels = .obj members

/-- The entry at a place of a response begins with two texts, and is a line. -/
def IsEntry (response : Json) (place : Place) (line : Line) : Prop :=
  ∃ stream entries rest, HasStream response place.stream stream ∧
    stream.member? "values" = some (.arr entries) ∧
    entries[place.entry]? = some (.arr (.str line.time :: .str line.text :: rest)) ∧
    HasLabels stream line

/-- A number that a time is read as: the integer that it writes, if 128 bits hold it, or zero. -/
structure IsStamp (time : String) (stamp : Int) : Prop where
  written :
    ∀ value, Decimal.WritesInteger time.toList value → -2 ^ 127 ≤ value → value < 2 ^ 127 →
      stamp = value
  otherwise :
    (¬ ∃ value, Decimal.WritesInteger time.toList value ∧ -2 ^ 127 ≤ value ∧ value < 2 ^ 127) →
      stamp = 0

theorem isStamp_stampOf (time : String) : IsStamp time (stampOf time) := by
  have isBound : stampBound = 2 ^ 127 := by
    decide
  constructor
  · intro value writes atLeast below
    rw [stampOf, Decimal.integer?_eq_some_iff.mpr writes]
    exact if_pos ⟨by rwa [isBound], by rwa [isBound]⟩
  · intro noValue
    rw [stampOf]
    cases isRead : Decimal.integer? time.toList with
    | none =>
        rfl
    | some value =>
        refine if_neg ?_
        rintro ⟨atLeast, below⟩
        rw [isBound] at atLeast below
        exact noValue ⟨value, Decimal.integer?_eq_some_iff.mp isRead, atLeast, below⟩

section Entries

variable {stream entry : Json} {line : Line}

theorem labelsOf_eq_iff
    {labels : Option Json} :
    labels = labelsOf stream ↔
      ∀ found, labels = some found ↔
        stream.member? "stream" = some found ∧ ∃ members, found = .obj members := by
  have isLabels :
      ∀ found, labelsOf stream = some found ↔
        stream.member? "stream" = some found ∧ ∃ members, found = .obj members := by
    intro found
    rw [labelsOf, Option.filter_eq_some_iff]
    refine and_congr_right fun _ => ?_
    cases found <;> simp [Json.isObject]
  constructor
  · rintro rfl
    exact isLabels
  · intro same
    ext found
    rw [same, isLabels]

theorem text?_eq_some_iff
    {value : Json}
    {text : String} :
    value.text? = some text ↔ value = .str text := by
  cases value <;> simp [Json.text?]

theorem items?_eq_some_iff
    {value : Json}
    {items : List Json} :
    value.items? = some items ↔ value = .arr items := by
  cases value <;> simp [Json.items?]

/-- What has a first and a second item is an array that begins with them. -/
theorem exists_of_items
    {first second : Json}
    (isFirst : entry.item? 0 = some first)
    (isSecond : entry.item? 1 = some second) :
    ∃ rest, entry = .arr (first :: second :: rest) := by
  cases entry with
  | arr items =>
      obtain ⟨more, rfl⟩ := List.head?_eq_some_iff.mp (List.head?_eq_getElem?.trans isFirst)
      obtain ⟨rest, rfl⟩ := List.head?_eq_some_iff.mp (List.head?_eq_getElem?.trans isSecond)
      exact ⟨rest, rfl⟩
  | _ =>
      cases isFirst

/-- An entry is a line if it begins with two texts. -/
theorem lineOf?_eq_some_iff :
    lineOf? (labelsOf stream) entry = some line ↔
      ∃ rest, entry = .arr (.str line.time :: .str line.text :: rest) ∧ HasLabels stream line := by
  rw [HasLabels, ← labelsOf_eq_iff]
  constructor
  · intro isLine
    simp only [lineOf?, Option.bind_eq_bind, Option.bind_eq_some_iff, Option.pure_def,
      Option.some.injEq] at isLine
    obtain ⟨time, ⟨first, isFirst, isTime⟩, text, ⟨second, isSecond, isText⟩, rfl⟩ := isLine
    obtain ⟨rest, rfl⟩ := exists_of_items isFirst isSecond
    rw [text?_eq_some_iff.mp isTime, text?_eq_some_iff.mp isText]
    exact ⟨rest, rfl, rfl⟩
  · rintro ⟨rest, rfl, sameLabels⟩
    rw [← sameLabels]
    rfl

end Entries

/-- A line and where its entry stands. -/
abbrev Placed := Place × Line

/-- The lines of a stream, each with its place. -/
def placedIn (position : Nat) (stream : Json) : List Placed :=
  (itemsAt ["values"] stream).zipIdx.filterMap fun entry =>
    (lineOf? (labelsOf stream) entry.1).map fun line => (⟨position, entry.2⟩, line)

/-- The lines of a response, each with its place. -/
def placedInResponse (response : Json) : List Placed :=
  (itemsAt ["data", "result"] response).zipIdx.flatMap fun stream => placedIn stream.2 stream.1

theorem map_snd_placedIn
    (position : Nat)
    (stream : Json) :
    (placedIn position stream).map Prod.snd = ofStream stream := by
  rw [placedIn, List.map_filterMap, ofStream]
  nth_rewrite 2 [← List.zipIdx_map_fst 0 (itemsAt ["values"] stream)]
  rw [List.filterMap_map]
  simp [Function.comp_def]

theorem map_snd_placedInResponse (response : Json) :
    (placedInResponse response).map Prod.snd = inResponse response := by
  rw [placedInResponse, List.map_flatMap, inResponse]
  nth_rewrite 2 [← List.zipIdx_map_fst 0 (itemsAt ["data", "result"] response)]
  rw [List.flatMap_map]
  simp only [map_snd_placedIn]

section Places

variable {response stream : Json} {place : Place} {line : Line}

theorem mem_itemsAt_zipIdx_iff
    {path : List String}
    {value item : Json}
    {position : Nat} :
    (item, position) ∈ (itemsAt path value).zipIdx ↔
      ∃ items, value.at? path = some (.arr items) ∧ items[position]? = some item := by
  rw [List.mem_zipIdx_iff_getElem?, itemsAt]
  cases isItems : (value.at? path).bind Json.items? with
  | none =>
      refine ⟨fun isItem => by simp at isItem, ?_⟩
      rintro ⟨items, isArray, _⟩
      rw [isArray] at isItems
      cases isItems
  | some found =>
      obtain ⟨array, isArray, isFound⟩ := Option.bind_eq_some_iff.mp isItems
      rw [items?_eq_some_iff.mp isFound] at isArray
      refine ⟨fun isItem => ⟨found, isArray, isItem⟩, ?_⟩
      rintro ⟨items, sameArray, isItem⟩
      rw [isArray] at sameArray
      cases sameArray
      exact isItem

theorem mem_placedIn_iff
    {position : Nat} :
    (place, line) ∈ placedIn position stream ↔
      place.stream = position ∧ ∃ entries rest,
        stream.member? "values" = some (.arr entries) ∧
        entries[place.entry]? = some (.arr (.str line.time :: .str line.text :: rest)) ∧
        HasLabels stream line := by
  have atValues : stream.at? ["values"] = stream.member? "values" := by
    cases isValues : stream.member? "values" <;> simp [Json.at?, isValues]
  rw [placedIn, List.mem_filterMap, ← atValues]
  constructor
  · rintro ⟨⟨entry, number⟩, isItem, isPlaced⟩
    obtain ⟨found, isFound, samePair⟩ := Option.map_eq_some_iff.mp isPlaced
    obtain ⟨rfl, rfl⟩ := Prod.mk.inj samePair
    obtain ⟨entries, isArray, isEntry⟩ := mem_itemsAt_zipIdx_iff.mp isItem
    obtain ⟨rest, rfl, hasLabels⟩ := lineOf?_eq_some_iff.mp isFound
    exact ⟨rfl, entries, rest, isArray, isEntry, hasLabels⟩
  · rintro ⟨rfl, entries, rest, isArray, isEntry, hasLabels⟩
    refine ⟨(_, place.entry), mem_itemsAt_zipIdx_iff.mpr ⟨entries, isArray, isEntry⟩, ?_⟩
    rw [lineOf?_eq_some_iff.mpr ⟨rest, rfl, hasLabels⟩]
    rfl

/-- The lines with their places are the entries of the response. -/
theorem mem_placedInResponse_iff :
    (place, line) ∈ placedInResponse response ↔ IsEntry response place line := by
  have atResult :
      ∀ streams, response.at? ["data", "result"] = some (.arr streams) ↔
        ∃ data, response.member? "data" = some data ∧
          data.member? "result" = some (.arr streams) := by
    intro streams
    simp [Json.at?, Option.bind_eq_some_iff]
  rw [placedInResponse, List.mem_flatMap]
  constructor
  · rintro ⟨⟨stream, number⟩, isItem, isPlaced⟩
    obtain ⟨streams, isArray, isStream⟩ := mem_itemsAt_zipIdx_iff.mp isItem
    obtain ⟨data, isData, isResult⟩ := (atResult streams).mp isArray
    obtain ⟨rfl, entries, rest, isEntry⟩ := mem_placedIn_iff.mp isPlaced
    exact ⟨stream, entries, rest, ⟨data, streams, isData, isResult, isStream⟩, isEntry⟩
  · rintro ⟨stream, entries, rest, ⟨data, streams, isData, isResult, isStream⟩, isEntry⟩
    have isArray := (atResult streams).mpr ⟨data, isData, isResult⟩
    exact ⟨(stream, place.stream), mem_itemsAt_zipIdx_iff.mpr ⟨streams, isArray, isStream⟩,
      mem_placedIn_iff.mpr ⟨rfl, entries, rest, isEntry⟩⟩

theorem pairwise_zipIdx
    {α : Type}
    (items : List α) :
    items.zipIdx.Pairwise fun first second => first.2 < second.2 := by
  have numbered := List.pairwise_lt_range' (s := 0) (n := items.length)
  rw [← List.zipIdx_map_snd, List.pairwise_map] at numbered
  exact numbered

/-- The places are in the order of the response. -/
theorem pairwise_placedInResponse (response : Json) :
    (placedInResponse response).Pairwise fun first second => first.1.Before second.1 := by
  rw [placedInResponse, List.pairwise_flatMap]
  constructor
  · intro stream _
    rw [placedIn, List.pairwise_filterMap]
    refine (pairwise_zipIdx _).imp ?_
    intro first second earlier placed isFirst later isSecond
    obtain ⟨_, -, rfl⟩ := Option.map_eq_some_iff.mp isFirst
    obtain ⟨_, -, rfl⟩ := Option.map_eq_some_iff.mp isSecond
    exact Or.inr ⟨rfl, earlier⟩
  · refine (pairwise_zipIdx _).imp ?_
    rintro ⟨first, number⟩ ⟨second, next⟩ earlier ⟨place, line⟩ isFirst ⟨later, _⟩ isSecond
    rw [Place.Before, (mem_placedIn_iff.mp isFirst).1, (mem_placedIn_iff.mp isSecond).1]
    exact Or.inl earlier

end Places

/-- A line comes before another one: by the numbers of their times, and by their places where
these are the same. -/
def Precedes (first second : Placed) : Prop :=
  ∃ early late, IsStamp first.2.time early ∧ IsStamp second.2.time late ∧
    (early < late ∨ early = late ∧ first.1.Before second.1)

/--
The lines of a response, whatever it is, are its entries that begin with two texts: each is one
line with the labels of its stream, and there are no others.  They are in the order of their
times, and those with the same time are in the order of the response.
-/
theorem ofResponse_entries (response : Json) :
    ∃ placed : List Placed,
      ofResponse response = placed.map Prod.snd ∧
        (∀ place line, (place, line) ∈ placed ↔ IsEntry response place line) ∧
        (placed.map Prod.fst).Nodup ∧ placed.Pairwise Precedes := by
  have permuted :=
    List.mergeSort_perm (placedInResponse response) (notBehind fun placed => placed.2.stamp)
  refine ⟨(placedInResponse response).mergeSort (notBehind fun placed => placed.2.stamp),
    ?_, ?_, ?_, ?_⟩
  · rw [ofResponse, ← map_snd_placedInResponse]
    exact (List.map_mergeSort (f := Prod.snd) fun _ _ _ _ => rfl).symm
  · intro place line
    rw [permuted.mem_iff, mem_placedInResponse_iff]
  · rw [(permuted.map Prod.fst).nodup_iff, List.Nodup, List.pairwise_map]
    refine (pairwise_placedInResponse response).imp ?_
    rintro first second (earlier | ⟨_, earlier⟩) same
    · rw [same] at earlier
      exact earlier.false
    · rw [same] at earlier
      exact earlier.false
  · refine (pairwise_mergeSort_of_pairwise (pairwise_placedInResponse response)).imp ?_
    intro first second ordered
    exact ⟨first.2.stamp, second.2.stamp, isStamp_stampOf _, isStamp_stampOf _, ordered⟩

end Line

end Runbook.Logs
