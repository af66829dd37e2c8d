import Runbook.Proofs.Breaker.Sharing

namespace Runbook

/-!
# Breakers on a shelf

A call gets at a breaker once and holds on to it, whatever is made meanwhile.  So breakers
are also kept on a shelf: each at the place where it was put when it was made, under its own
name, and a table says which place belongs to a name.  Calls cannot tell a shelf from a
roster, since a name never gets a second breaker.
-/

namespace Sharing

/-- Breakers in the order of their making, each with its own name, and the place of the
breaker of each name. -/
structure Shelf where
  config : BreakerConfig
  places : List (String × Nat) := []
  made : List (String × Breaker) := []
  deriving DecidableEq, Repr

namespace Shelf

/-- The place of the breaker of a name. -/
def place? (shelf : Shelf) (name : String) : Option Nat :=
  (shelf.places.find? (·.1 == name)).map (·.2)

/-- The breaker at a place, with its name. -/
def atPlace (shelf : Shelf) (place : Nat) : String × Breaker :=
  shelf.made[place]?.getD ("", .fresh)

/-- Change the breaker at a place. -/
def alter (shelf : Shelf) (place : Nat) (change : Breaker → Breaker) : Shelf :=
  { shelf with made := shelf.made.modify place fun entry => (entry.1, change entry.2) }

/-- Make a breaker and note its place. -/
def make (shelf : Shelf) (name : String) : Shelf :=
  { shelf with
    places := shelf.places ++ [(name, shelf.made.length)]
    made := shelf.made ++ [(name, .fresh)] }

/-- The gate of the breaker at a place. -/
def gate (place : Nat) (now : Instant) : Gate Shelf where
  ask shelf :=
    if (shelf.atPlace place).2.refuses now
    then (some (.circuitOpen (shelf.atPlace place).1), shelf)
    else (none, shelf.alter place Breaker.letThrough)
  succeed shelf := shelf.alter place (Breaker.succeed shelf.config)
  fail shelf :=
    ((shelf.atPlace place).2.failBreaksDown shelf.config now,
      shelf.alter place (Breaker.fail shelf.config now))

/-- A roster shows the breakers of a shelf. -/
structure Shows (shelf : Shelf) (roster : Roster) : Prop where
  config : shelf.config = roster.config
  missing : ∀ name, shelf.place? name = none → roster.breaker? name = none
  found : ∀ name place, shelf.place? name = some place →
    ∃ breaker, shelf.made[place]? = some (name, breaker) ∧ roster.breaker? name = some breaker

variable {shelf : Shelf} {roster : Roster} {name other : String} {place : Nat}
  {change : Breaker → Breaker}

theorem Shows.atPlace_eq
    (shows_ : shelf.Shows roster)
    (isPlace : shelf.place? name = some place) :
    shelf.atPlace place = (name, roster.get name) := by
  obtain ⟨breaker, isMade, isEntry⟩ := shows_.found name place isPlace
  rw [atPlace, isMade, Roster.get_eq_breaker?, isEntry]
  rfl

/-- No two names have their breaker at one place. -/
theorem Shows.name_eq
    (shows_ : shelf.Shows roster)
    (isPlace : shelf.place? name = some place)
    (isPlaceToo : shelf.place? other = some place) :
    name = other := by
  obtain ⟨_, isMade, _⟩ := shows_.found name place isPlace
  obtain ⟨_, isMadeToo, _⟩ := shows_.found other place isPlaceToo
  rw [isMade] at isMadeToo
  exact congrArg Prod.fst (Option.some.inj isMadeToo)

/-- The roster has the names that have a place. -/
theorem Shows.mem_names
    (shows_ : shelf.Shows roster) :
    name ∈ roster.names ↔ ∃ place, shelf.place? name = some place := by
  rw [Roster.mem_names_iff_breaker?]
  cases isPlace : shelf.place? name with
  | none =>
      simp [shows_.missing name isPlace]
  | some place =>
      obtain ⟨breaker, _, isEntry⟩ := shows_.found name place isPlace
      simp [isEntry]

/-- A change at the place of a name is one at that name. -/
theorem Shows.alter
    (shows_ : shelf.Shows roster)
    (isPlace : shelf.place? name = some place) :
    (shelf.alter place change).Shows (roster.update name change) := by
  refine ⟨shows_.config, fun other isMissing => ?_, fun other otherPlace isOther => ?_⟩
  · have notName : name ≠ other := by
      rintro rfl
      have isNone : shelf.place? name = none := isMissing
      rw [isPlace] at isNone
      cases isNone
    rw [Roster.breaker?_update, if_neg notName]
    exact shows_.missing other isMissing
  · obtain ⟨otherBreaker, otherMade, otherEntry⟩ := shows_.found other otherPlace isOther
    have modified :
        (shelf.alter place change).made[otherPlace]? =
          (fun entry => if place = otherPlace then (entry.1, change entry.2) else entry) <$>
            shelf.made[otherPlace]? :=
      List.getElem?_modify ..
    rw [modified, otherMade, Roster.breaker?_update]
    by_cases isName : name = other
    · subst isName
      have samePlace : place = otherPlace := by
        rw [show shelf.place? name = some otherPlace from isOther] at isPlace
        exact (Option.some.inj isPlace).symm
      rw [if_pos rfl, Roster.get_eq_breaker?, otherEntry]
      exact ⟨change otherBreaker, by simp [samePlace], rfl⟩
    · -- No two names share a place, so the breaker of another name is not touched.
      have otherThere : place ≠ otherPlace := by
        rintro rfl
        exact isName (shows_.name_eq isPlace isOther)
      rw [if_neg isName]
      exact ⟨otherBreaker, by simp [otherThere], otherEntry⟩

theorem place?_make
    (shelf : Shelf)
    (name other : String) :
    (shelf.make name).place? other =
      (shelf.place? other).or (if name = other then some shelf.made.length else none) := by
  unfold place? make
  cases isFound : shelf.places.find? (·.1 == other) with
  | some entry =>
      simp [List.find?_append, isFound]
  | none =>
      by_cases isOther : name = other <;> simp [List.find?_append, isFound, isOther]

/-- A name whose breaker is made for it has a fresh one. -/
theorem Shows.make
    (shows_ : shelf.Shows roster)
    (isMissing : shelf.place? name = none) :
    (shelf.make name).Shows (roster.touch name) := by
  have isFresh : roster.get name = .fresh := by
    rw [Roster.get_eq_breaker?, shows_.missing name isMissing]
    rfl
  refine ⟨shows_.config, fun other otherMissing => ?_, fun other place isPlace => ?_⟩
  · rw [place?_make, Option.or_eq_none_iff] at otherMissing
    obtain ⟨wasMissing, notName⟩ := otherMissing
    have isOther : name ≠ other := by
      rintro rfl
      simp at notName
    rw [Roster.touch, Roster.breaker?_update, if_neg isOther]
    exact shows_.missing other wasMissing
  · rw [place?_make] at isPlace
    rw [Roster.touch, Roster.breaker?_update]
    by_cases isName : name = other
    · subst isName
      rw [isMissing, if_pos rfl, Option.none_or] at isPlace
      cases isPlace
      rw [if_pos rfl, isFresh]
      exact ⟨.fresh, by simp [Shelf.make], rfl⟩
    · rw [if_neg isName, Option.or_none] at isPlace
      obtain ⟨breaker, isMade, isEntry⟩ := shows_.found other place isPlace
      rw [if_neg isName]
      refine ⟨breaker, ?_, isEntry⟩
      rw [Shelf.make, List.getElem?_append_left (List.getElem?_eq_some_iff.mp isMade).1, isMade]

/-- A name that has a breaker keeps it when it is asked for again. -/
theorem Shows.touch
    (shows_ : shelf.Shows roster)
    (isPlace : shelf.place? name = some place) :
    shelf.Shows (roster.touch name) := by
  have sameEntry (other : String) :
      (roster.touch name).breaker? other = roster.breaker? other := by
    obtain ⟨breaker, _, isEntry⟩ := shows_.found name place isPlace
    rw [Roster.touch, Roster.breaker?_update]
    split
    · rename_i isName
      rw [Roster.get_eq_breaker?, ← isName, isEntry]
      rfl
    · rfl
  refine ⟨shows_.config, fun other isMissing => ?_, fun other otherPlace isOther => ?_⟩
  · rw [sameEntry]
    exact shows_.missing other isMissing
  · rw [sameEntry]
    exact shows_.found other otherPlace isOther

end Shelf

variable {α : Type}

/-- How far a call has come, whichever breaker it holds. -/
def Stand.forget {π : Type} : Stand π → Stand Unit
  | outside => .outside
  | missing => .missing
  | holds _ => .holds ()
  | underway _ => .underway ()
  | left => .left

/-- The breaker that a call holds. -/
def Stand.breaker? {π : Type} : Stand π → Option π
  | holds breaker => some breaker
  | underway breaker => some breaker
  | _ => none

/-- What a call learns, whichever breaker it finds. -/
def Reply.forget {π : Type} : Reply π α → Reply Unit α
  | missing => .missing
  | found _ => .found ()
  | refused fault => .refused fault
  | passed => .passed
  | ended ending => .ended ending

theorem Reply.forget_eq_found
    {π : Type}
    {reply : Reply π α} :
    reply.forget = .found () ↔ ∃ breaker, reply = .found breaker := by
  cases reply <;> simp [forget]

/-- A note, whichever breaker was found. -/
def Note.forget {π : Type} (note : Note π α) : Note Unit α :=
  ⟨note.step, note.reply.map Reply.forget, note.snapshot⟩

namespace Keeper

/-- Breakers that are kept on a shelf. -/
def byPlace : Keeper Shelf Nat where
  look name shelf := shelf.place? name
  fetch name shelf :=
    match shelf.place? name with
    | some place => (place, shelf)
    | none => (shelf.made.length, shelf.make name)
  gate _ place now := Shelf.gate place now
  snapshot name shelf := (shelf.place? name).map fun place => (shelf.atPlace place).2

variable {name : String} {place : Nat} {shelf : Shelf} {roster : Roster}

theorem snapshot_of_shows
    (shows_ : shelf.Shows roster)
    (name : String) :
    byPlace.snapshot name shelf = byName.snapshot name roster := by
  simp only [byPlace, byName]
  cases isPlace : shelf.place? name with
  | none =>
      rw [Option.map_none, shows_.missing name isPlace]
  | some place =>
      obtain ⟨breaker, isMade, isEntry⟩ := shows_.found name place isPlace
      rw [Option.map_some, Shelf.atPlace, isMade, isEntry]
      rfl

/-- A call that asks on a shelf is answered as by the roster. -/
theorem ask_of_shows
    (shows_ : shelf.Shows roster)
    (isPlace : shelf.place? name = some place)
    (now : Instant) :
    ((byPlace.gate name place now).ask shelf).1 =
        ((byName.gate name () now).ask roster).1 ∧
      ((byPlace.gate name place now).ask shelf).2.Shows
          ((byName.gate name () now).ask roster).2 ∧
        ((byPlace.gate name place now).ask shelf).2.places = shelf.places := by
  simp only [byPlace, byName, Shelf.gate, Roster.ask, shows_.atPlace_eq isPlace]
  cases (roster.get name).refuses now with
  | true =>
      exact ⟨rfl, shows_.touch isPlace, rfl⟩
  | false =>
      exact ⟨rfl, shows_.alter isPlace, rfl⟩

theorem report_of_shows
    (shows_ : shelf.Shows roster)
    (isPlace : shelf.place? name = some place)
    (now : Instant)
    (ending : Ending α) :
    ((byPlace.gate name place now).report ending shelf).1 =
        ((byName.gate name () now).report ending roster).1 ∧
      ((byPlace.gate name place now).report ending shelf).2.Shows
          ((byName.gate name () now).report ending roster).2 ∧
        ((byPlace.gate name place now).report ending shelf).2.places = shelf.places := by
  simp only [Gate.report]
  cases Verdict.of ending with
  | success =>
      refine ⟨rfl, ?_, rfl⟩
      simp only [byPlace, byName, Shelf.gate, Roster.succeed, ← shows_.config]
      exact shows_.alter isPlace
  | failure =>
      simp only [byPlace, byName, Shelf.gate, Roster.fail, ← shows_.config,
        shows_.atPlace_eq isPlace]
      exact ⟨trivial, shows_.alter isPlace, rfl⟩
  | nothing =>
      exact ⟨rfl, shows_, rfl⟩

/-- What a move of a call on a shelf leads to: the roster still shows the breakers, the call
holds the breaker of its name, and no name but its own has got a place. -/
structure Keeps (name : String) (shelf : Shelf) (reply : Reply Nat α) (next : Stand Nat)
    (later : Shelf) (roster : Roster) : Prop where
  shows_ : later.Shows roster
  holds : ∀ place, next.breaker? = some place → later.place? name = some place
  places : ∀ other place, later.place? other = some place ↔
    shelf.place? other = some place ∨ other = name ∧ reply = .found place

theorem keeps_fetch
    (shows_ : shelf.Shows roster)
    (name : String) :
    Keeps name shelf (.found (byPlace.fetch name shelf).1 : Reply Nat α)
      (.holds (byPlace.fetch name shelf).1) (byPlace.fetch name shelf).2
      (roster.touch name) := by
  simp only [byPlace]
  cases isPlace : shelf.place? name with
  | some place =>
      refine ⟨shows_.touch isPlace, fun _ isHeld => ?_, fun other otherPlace => ?_⟩
      · cases isHeld
        exact isPlace
      · constructor
        · exact Or.inl
        · rintro (isOther | ⟨rfl, isFound⟩)
          · exact isOther
          · cases isFound
            exact isPlace
  | none =>
      refine ⟨shows_.make isPlace, fun _ isHeld => ?_, fun other otherPlace => ?_⟩
      · cases isHeld
        simp [Shelf.place?_make, isPlace]
      · rw [Shelf.place?_make]
        by_cases isName : name = other
        · subst isName
          simp [isPlace]
        · simp [isName, Ne.symm isName]

/-- A move that finds no breaker leaves the places as they are. -/
theorem keeps_of_places
    {reply : Reply Nat α}
    {next : Stand Nat}
    {later : Shelf}
    (shows_ : later.Shows roster)
    (samePlaces : later.places = shelf.places)
    (holds : ∀ place, next.breaker? = some place → shelf.place? name = some place)
    (findsNone : ∀ place, reply ≠ .found place) :
    Keeps name shelf reply next later roster := by
  have samePlace (other : String) : later.place? other = shelf.place? other := by
    rw [Shelf.place?, Shelf.place?, samePlaces]
  refine ⟨shows_, fun place isHeld => ?_, fun other place => ?_⟩
  · rw [samePlace]
    exact holds place isHeld
  · rw [samePlace]
    exact ⟨Or.inl, fun known => known.resolve_right fun found => findsNone place found.2⟩

theorem act_look_of_shows
    (shows_ : shelf.Shows roster) :
    ∃ reply next,
      byPlace.act name shelf (.look : Move α) .outside = some (reply, next, shelf) ∧
        byName.act name roster (.look : Move α) .outside =
            some (reply.forget, next.forget, roster) ∧
          Keeps name shelf reply next shelf roster := by
  cases isPlace : shelf.place? name with
  | none =>
      have isNone : byPlace.look name shelf = none := isPlace
      have isNoneToo : byName.look name roster = none := by
        simp [byName, shows_.missing name isPlace]
      refine ⟨.missing, .missing, ?_, ?_, ?_⟩
      · simp only [act, isNone]
      · simp only [act, isNoneToo, Reply.forget, Stand.forget]
      · exact keeps_of_places shows_ rfl (by simp [Stand.breaker?]) (by simp)
  | some place =>
      have isFound : byPlace.look name shelf = some place := isPlace
      have isFoundToo : byName.look name roster = some () := by
        obtain ⟨breaker, _, isEntry⟩ := shows_.found name place isPlace
        simp [byName, isEntry]
      refine ⟨.found place, .holds place, ?_, ?_, shows_, ?_, ?_⟩
      · simp only [act, isFound]
      · simp only [act, isFoundToo, Reply.forget, Stand.forget]
      · exact fun other isHeld => isHeld ▸ isPlace
      · refine fun other otherPlace => ⟨Or.inl, ?_⟩
        rintro (isOther | ⟨rfl, isReply⟩)
        · exact isOther
        · cases isReply
          exact isPlace

/-- A call on a shelf learns the same as with a roster that shows its breakers. -/
theorem act_of_shows
    (shows_ : shelf.Shows roster)
    {stand : Stand Nat}
    (holds : ∀ place, stand.breaker? = some place → shelf.place? name = some place)
    (move : Move α) :
    (byPlace.act name shelf move stand = none ∧
        byName.act name roster move stand.forget = none) ∨
      ∃ reply next later rosterLater,
        byPlace.act name shelf move stand = some (reply, next, later) ∧
          byName.act name roster move stand.forget =
            some (reply.forget, next.forget, rosterLater) ∧
            Keeps name shelf reply next later rosterLater := by
  cases move with
  | look =>
      cases stand
      case outside =>
        obtain ⟨reply, next, acts, actsToo, keeps⟩ := act_look_of_shows shows_
        exact Or.inr ⟨reply, next, shelf, roster, acts, actsToo, keeps⟩
      all_goals exact Or.inl ⟨rfl, rfl⟩
  | fetch =>
      cases stand
      case missing =>
        exact Or.inr ⟨_, _, _, _, rfl, rfl, keeps_fetch shows_ name⟩
      all_goals exact Or.inl ⟨rfl, rfl⟩
  | ask now =>
      cases stand
      case holds place =>
        obtain ⟨sameFault, showsLater, samePlaces⟩ :=
          ask_of_shows shows_ (holds place rfl) now
        refine Or.inr ?_
        simp only [act, Stand.forget, ← sameFault]
        cases ((byPlace.gate name place now).ask shelf).1 with
        | some fault =>
            exact ⟨.refused fault, .left, _, _, rfl, rfl,
              keeps_of_places showsLater samePlaces (by simp [Stand.breaker?]) (by simp)⟩
        | none =>
            exact ⟨.passed, .underway place, _, _, rfl, rfl,
              keeps_of_places showsLater samePlaces holds (by simp)⟩
      all_goals exact Or.inl ⟨rfl, rfl⟩
  | finish now ending =>
      cases stand
      case underway place =>
        obtain ⟨sameEnding, showsLater, samePlaces⟩ :=
          report_of_shows shows_ (holds place rfl) now ending
        refine Or.inr ?_
        simp only [act, Stand.forget, ← sameEnding]
        exact ⟨.ended _, .left, _, _, rfl, rfl,
          keeps_of_places showsLater samePlaces (by simp [Stand.breaker?]) (by simp)⟩
      all_goals exact Or.inl ⟨rfl, rfl⟩

end Keeper

end Sharing

end Runbook
