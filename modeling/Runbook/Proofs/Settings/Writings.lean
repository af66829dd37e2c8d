import Mathlib.Data.List.Basic
import Runbook.Settings.Place

namespace Runbook

/-!
# What layers write

A layer writes single values and lists at places; the tables in it only say where.  What is
seen at a path of names after a layer was laid over what was there depends on the writings that
bear on this path, and of those on the last one.  A writing at another name of the same section
does not bear on it, and a section without members writes nothing.
-/

/-- An entry and the place that it is written at. -/
structure Writing where
  place : List Segment
  entry : Entry

/-- How a place stands to a path of names. -/
inductive Bearing where
  /-- The two part at some name. -/
  | apart
  /-- The place is the path. -/
  | exact
  /-- The path leads on from the place. -/
  | above
  /-- Names of the place lead on from the path. -/
  | inside
  /-- The place leads into a list on the way or at the end. -/
  | indexed
  deriving DecidableEq, Repr

namespace Segment

/-- How a place stands to a path of names. -/
def bearing : List Segment → List String → Bearing
  | [], [] => .exact
  | [], _ :: _ => .above
  | .name _ :: _, [] => .inside
  | .index _ :: _, _ => .indexed
  | .name here :: place, there :: path => if here = there then bearing place path else .apart

end Segment

namespace Writing

/-- The writing below a segment. -/
def below (first : Segment) (writing : Writing) : Writing :=
  { writing with place := first :: writing.place }

/-- How a writing stands to a path of names. -/
def bearing (writing : Writing) (path : List String) : Bearing :=
  Segment.bearing writing.place path

/-- The last of some writings that bears on a path. -/
def last? (path : List String) (writings : List Writing) : Option Writing :=
  writings.reverse.find? fun writing => writing.bearing path != .apart

end Writing

namespace Entry

mutual

/-- What an entry writes. -/
def writings : Entry → List Writing
  | scalar value origin => [⟨[], scalar value origin⟩]
  | list items origin => [⟨[], list items origin⟩]
  | table members _ => writingsIn members

/-- What the members of a table write. -/
def writingsIn : List (String × Entry) → List Writing
  | [] => []
  | (name, entry) :: rest =>
      (writings entry).map (·.below (.name (Text.lowercase name))) ++ writingsIn rest

end

/-- What an entry writes that a layer has at a place.  What is put into a list is put there as
a whole. -/
def writingsAt : List Segment → Entry → List Writing
  | [.name name], entry => writingsIn [(name, entry)]
  | .name name :: more, entry => (writingsAt more entry).map (·.below (.name name))
  | place, entry => [⟨place, entry⟩]

/-- What a layer writes, from its first member to its last. -/
def layerWritings (layer : List (String × Entry)) : List Writing :=
  layer.flatMap fun member => writingsAt (Segment.place member.1) member.2

end Entry

/-- What is seen on the way to a path of names. -/
inductive Sight where
  /-- Some name on the way is not there. -/
  | missing
  /-- An entry without names stands on the way. -/
  | blocked (entry : Entry)
  /-- The entry at the end of the path. -/
  | found (entry : Entry)

namespace Entry

/-- What is seen on the way to a path of names. -/
def sight : List String → Option Entry → Sight
  | [], some entry => .found entry
  | name :: path, some (table members _) => sight path (get? members name)
  | _ :: _, some entry => .blocked entry
  | _, none => .missing

end Entry

namespace Sight

/-- The same is seen, unless what stood on the way has made room for a table. -/
def Keeps (before after : Sight) : Prop :=
  after = before ∨ (∃ entry, before = .blocked entry) ∧ after = .missing

/-- A writing is seen: at its own path as it is, and what has no names on the way to longer
paths, unless it has made room for a table.  One whose names lead on from the path is not seen,
since there is a table then. -/
structure Shows (writing : Writing) (path : List String) (after : Sight) : Prop where
  notInside :
    writing.bearing path ≠ .inside
  exact :
    writing.bearing path = .exact → after = .found writing.entry
  above :
    writing.bearing path = .above →
      (∀ members origin, writing.entry ≠ .table members origin) →
        after = .blocked writing.entry ∨ after = .missing

/-- What writings make of what is seen on the way to a path. -/
inductive Leads (path : List String) (writings : List Writing) (before : Sight) :
    Sight → Prop where
  /-- There is a table at the path, which holds no single value. -/
  | tabled {members : List (String × Entry)} {origin : Option String} :
      Leads path writings before (.found (.table members origin))
  /-- No writing bears on the path. -/
  | keeps {after : Sight} :
      Writing.last? path writings = none →
      Keeps before after →
      Leads path writings before after
  /-- The last writing that bears on the path is seen. -/
  | shows {writing : Writing} {after : Sight} :
      Writing.last? path writings = some writing →
      Shows writing path after →
      Leads path writings before after

end Sight

open Sight

variable {path : List String} {name other : String} {writing : Writing}
  {earlier later : List Writing} {members : List (String × Entry)}
  {before between after : Sight}

/-! ## The last writing -/

namespace Writing

theorem last?_append
    (earlier later : List Writing) :
    last? path (earlier ++ later) = (last? path later).or (last? path earlier) := by
  rw [last?, List.reverse_append, List.find?_append, ← last?, ← last?]

theorem bearing_below
    (here there : String)
    (writing : Writing) :
    (writing.below (.name here)).bearing (there :: path) =
      if here = there then writing.bearing path else .apart := by
  rw [bearing, below, Segment.bearing, ← bearing]

theorem last?_below_self
    (writings : List Writing) :
    last? (name :: path) (writings.map (·.below (.name name))) =
      (last? path writings).map (·.below (.name name)) := by
  simp only [last?, ← List.map_reverse, List.find?_map, Function.comp_def, bearing_below, if_true]

theorem last?_below_of_ne
    (isOther : name ≠ other)
    (writings : List Writing) :
    last? (other :: path) (writings.map (·.below (.name name))) = none := by
  simp [last?, bearing_below, isOther]

end Writing

/-! ## What is seen -/

namespace Sight

theorem Keeps.trans
    (first : Keeps before between)
    (second : Keeps between after) :
    Keeps before after := by
  rcases first with rfl | ⟨wasBlocked, rfl⟩
  · exact second
  · rcases second with rfl | ⟨⟨entry, isBlocked⟩, -⟩
    · exact Or.inr ⟨wasBlocked, rfl⟩
    · cases isBlocked

/-- A writing that is seen is still seen where the same is seen. -/
theorem Shows.keeps
    (isShown : Shows writing path between)
    (keeps : Keeps between after) :
    Shows writing path after := by
  rcases keeps with rfl | ⟨⟨entry, wasBlocked⟩, rfl⟩
  · exact isShown
  · exact {
      notInside := isShown.notInside
      exact := fun isExact => absurd (wasBlocked.symm.trans (isShown.exact isExact)) (by simp)
      above := fun _ _ => Or.inr rfl
    }

theorem Shows.below
    (isShown : Shows writing path after) :
    Shows (writing.below (.name name)) (name :: path) after := by
  have sameBearing : (writing.below (.name name)).bearing (name :: path) = writing.bearing path := by
    rw [Writing.bearing_below, if_pos rfl]
  exact {
    notInside := sameBearing ▸ isShown.notInside
    exact := fun isExact => isShown.exact (sameBearing ▸ isExact)
    above := fun isAbove => isShown.above (sameBearing ▸ isAbove)
  }

/-- Writings go on from where others have led. -/
theorem Leads.append
    (first : Leads path earlier before between)
    (second : Leads path later between after) :
    Leads path (earlier ++ later) before after := by
  cases second with
  | tabled =>
      exact .tabled
  | shows isLast isShown =>
      exact .shows (by rw [Writing.last?_append, isLast, Option.some_or]) isShown
  | keeps noneLater keeps =>
      have isLast : Writing.last? path (earlier ++ later) = Writing.last? path earlier := by
        rw [Writing.last?_append, noneLater, Option.none_or]
      cases first with
      | tabled =>
          rcases keeps with rfl | ⟨⟨entry, isBlocked⟩, -⟩
          · exact .tabled
          · cases isBlocked
      | keeps noneFirst keptFirst =>
          exact .keeps (isLast.trans noneFirst) (keptFirst.trans keeps)
      | shows isFirst isShown =>
          exact .shows (isLast.trans isFirst) (isShown.keeps keeps)

/-- What holds of writings at a path holds of the same below a name. -/
theorem Leads.below
    (leads : Leads path later before after)
    (name : String) :
    Leads (name :: path) (later.map (·.below (.name name))) before after := by
  cases leads with
  | tabled =>
      exact .tabled
  | keeps noneThere keeps =>
      exact .keeps (by rw [Writing.last?_below_self, noneThere, Option.map_none]) keeps
  | shows isLast isShown =>
      exact .shows (by rw [Writing.last?_below_self, isLast, Option.map_some]) isShown.below

/-- Without writings, the same is seen. -/
theorem Leads.of_keeps
    (keeps : Keeps before after) :
    Leads path [] before after :=
  .keeps rfl keeps

end Sight

/-! ## Laying one over the other -/

namespace Entry

theorem sight_none (path : List String) : sight path none = .missing := by
  cases path <;> rfl

theorem get?_set
    (name other : String)
    (entry : Entry)
    (members : List (String × Entry)) :
    get? (set name entry members) other =
      if name = other then some entry else get? members other := by
  induction members with
  | nil =>
      by_cases isName : name = other <;> simp [set, get?, isName]
  | cons member rest inductionHypothesis =>
      obtain ⟨first, old⟩ := member
      rw [set]
      by_cases isFirst : first = name
      · subst isFirst
        by_cases isOther : first = other <;> simp [get?, isOther]
      · rw [if_neg isFirst]
        by_cases isOther : first = other
        · subst isOther
          simp [get?, Ne.symm isFirst]
        · simpa [get?, isOther] using inductionHypothesis

/-- A table makes room for itself where an entry without names stood. -/
theorem keeps_members
    (under : Option Entry)
    (name : String)
    (path : List String) :
    Keeps (sight (name :: path) under)
      (sight path (get? ((under.map Entry.members).getD []) name)) := by
  cases under with
  | none =>
      exact Or.inl (sight_none path)
  | some entry =>
      cases entry with
      | table members origin => exact Or.inl rfl
      | scalar value origin => exact Or.inr ⟨⟨_, rfl⟩, sight_none path⟩
      | list items origin => exact Or.inr ⟨⟨_, rfl⟩, sight_none path⟩

/-- One entry is written at the end of its place. -/
theorem leads_whole
    (entry : Entry)
    (path : List String)
    (before : Sight) :
    Leads path [⟨[], entry⟩] before (sight path (some entry)) := by
  cases path with
  | nil =>
      refine .shows rfl { notInside := ?_, exact := fun _ => rfl, above := ?_ }
      · intro isInside
        cases isInside
      · intro isAbove
        cases isAbove
  | cons name path =>
      refine .shows rfl { notInside := ?_, exact := ?_, above := ?_ }
      · intro isInside
        cases isInside
      · intro isExact
        cases isExact
      · intro isAbove notTable
        cases entry with
        | table members origin => exact absurd rfl (notTable members origin)
        | _ => exact Or.inl rfl

/-- What is put into a list is not seen at a path of names. -/
theorem leads_item
    (entry : Entry)
    (index : Int)
    (more : List Segment)
    (path : List String)
    (before after : Sight) :
    Leads path [⟨.index index :: more, entry⟩] before after := by
  have isIndexed : Writing.bearing ⟨.index index :: more, entry⟩ path = .indexed := by
    cases path <;> rfl
  have isLast :
      Writing.last? path [⟨.index index :: more, entry⟩] = some ⟨.index index :: more, entry⟩ := by
    simp [Writing.last?, isIndexed]
  refine .shows isLast { notInside := ?_, exact := ?_, above := ?_ }
  · intro isInside
    cases isIndexed.symm.trans isInside
  · intro isExact
    cases isIndexed.symm.trans isExact
  · intro isAbove
    cases isIndexed.symm.trans isAbove

/-- What is done at a name is seen on the paths that lead there, and on no others. -/
theorem leads_set
    {entry : Entry}
    {origin : Option String}
    (leads : ∀ path, Leads path later (sight path (get? members name)) (sight path (some entry)))
    (path : List String) :
    Leads path (later.map (·.below (.name name))) (sight path (some (table members origin)))
      (sight path (some (table (set name entry members) none))) := by
  cases path with
  | nil =>
      exact .tabled
  | cons other path =>
      rw [sight, sight, get?_set]
      by_cases isName : name = other
      · subst isName
        rw [if_pos rfl]
        exact (leads path).below name
      · rw [if_neg isName]
        exact .keeps (Writing.last?_below_of_ne isName later) (Or.inl rfl)

/-- A section without members stays as it is. -/
theorem keeps_getD_empty
    (under : Option Entry)
    (path : List String) :
    Leads path [] (sight path under) (sight path (some (under.getD empty))) := by
  cases under with
  | some entry =>
      exact .of_keeps (Or.inl rfl)
  | none =>
      cases path with
      | nil => exact .tabled
      | cons name path => exact .of_keeps (Or.inl (sight_none path))

/-- Where a table is laid over what is there, there is a table before its members are laid. -/
theorem leads_members
    (under : Option Entry)
    (leads :
      ∀ path, Leads path later (sight path (some (table ((under.map Entry.members).getD []) none)))
        (sight path (some (table members none))))
    (path : List String) :
    Leads path later (sight path under) (sight path (some (table members none))) := by
  cases path with
  | nil =>
      exact .tabled
  | cons name path =>
      exact (Leads.of_keeps (keeps_members under name path)).append (leads (name :: path))

mutual

/-- An entry that is laid over what is there writes what it writes. -/
theorem leads_lay
    (above : Entry)
    (under : Option Entry)
    (path : List String) :
    Leads path (writings above) (sight path under) (sight path (some (lay above under))) :=
  match above with
  | scalar value origin => by
      rw [writings, lay]
      exact leads_whole (scalar value origin) path _
  | list items origin => by
      rw [writings, lay]
      exact leads_whole (list items origin) path _
  | table [] origin => by
      rw [writings, writingsIn, lay]
      exact keeps_getD_empty under path
  | table (member :: rest) origin => by
      rw [writings, lay]
      exact leads_members under (leads_layMembers (member :: rest) _) path

theorem leads_layMembers
    (above under : List (String × Entry))
    (path : List String) :
    Leads path (writingsIn above) (sight path (some (table under none)))
      (sight path (some (table (layMembers above under) none))) :=
  match above with
  | [] => by
      rw [writingsIn, layMembers]
      exact .of_keeps (Or.inl rfl)
  | (name, entry) :: rest => by
      rw [writingsIn, layMembers]
      refine Leads.append ?_ (leads_layMembers rest _ path)
      exact leads_set (leads_lay entry _) path

end

/-- An entry that is put at a place writes there. -/
theorem leads_put
    (entry : Entry)
    (place : List Segment)
    (under : Option Entry)
    (path : List String) :
    Leads path (writingsAt place entry) (sight path under)
      (sight path (some (put entry place under))) := by
  induction place, under using put.induct entry generalizing path with
  | case1 under =>
      rw [writingsAt, put]
      · exact leads_whole entry path _
      · rintro _ ⟨⟩
      · rintro _ _ ⟨⟩
  | case2 name under =>
      rw [writingsAt, put]
      exact leads_lay (table [(name, entry)] none) under path
  | case3 name more under isMore members inductionHypothesis =>
      rw [writingsAt, put]
      · exact leads_members under (leads_set inductionHypothesis) path
      · exact isMore
      · exact isMore
  | case4 index more under inductionHypothesis =>
      rw [writingsAt]
      · exact leads_item entry index more path _ _
      · rintro _ ⟨⟩
      · rintro _ _ ⟨⟩

/-- A layer writes what its members write, one after the other. -/
theorem leads_putAll
    (layer : List (String × Entry))
    (under : Entry)
    (path : List String) :
    Leads path (layerWritings layer) (sight path (some under))
      (sight path (some (putAll layer under))) := by
  induction layer generalizing under with
  | nil =>
      exact .of_keeps (Or.inl rfl)
  | cons member rest inductionHypothesis =>
      exact (leads_put member.2 (Segment.place member.1) (some under) path).append
        (inductionHypothesis _)

end Entry

end Runbook
