import Mathlib.Data.List.Basic
import Mathlib.Data.List.Induction
import Runbook.Tool.Catalogue

namespace Runbook

/-!
# Registrations that stand

What a catalogue holds under a name depends on the acts that concern this name, and of those
on the latest registration and what came after it.  An act that fails concerns no name.
-/

/-- An entry that is enabled or disabled. -/
def CatalogueEntry.withEnabled {β : Type} (entry : CatalogueEntry β) (enabled : Bool) :
    CatalogueEntry β :=
  { entry with metadata := { entry.metadata with enabled := enabled } }

namespace Catalogue

variable {β : Type}

/-- What is done with a catalogue. -/
inductive Act (β : Type) where
  | register (given : String) (tool : Tool β) (metadata : ToolMetadata)
  | unregister (name : String)
  | setEnabled (name : String) (enabled : Bool)

/-- Try an act. -/
def attempt (catalogue : Catalogue β) : Act β → Except CatalogueError (Catalogue β)
  | .register given tool metadata => catalogue.register given tool metadata
  | .unregister name => catalogue.unregister name
  | .setEnabled name enabled => catalogue.setEnabled name enabled

/-- The catalogue after an act, which is as before if the act fails. -/
def perform (catalogue : Catalogue β) (act : Act β) : Catalogue β :=
  match catalogue.attempt act with
  | .ok later => later
  | .error _ => catalogue

/-- An empty catalogue after acts, one after the other. -/
def after (acts : List (Act β)) : Catalogue β := acts.foldl perform {}

namespace Act

/-- What an act makes of the entry of a name. -/
def revise (name : String) (found : Option (CatalogueEntry β)) :
    Act β → Option (CatalogueEntry β)
  | .register given tool metadata =>
      let entry := entryFor given tool metadata
      if entry.key = name ∧ Text.allBlank name = false then some entry else found
  | .unregister other => if other = name then none else found
  | .setEnabled other enabled =>
      if other = name then found.map (·.withEnabled enabled) else found

/-- The act registers a name anew or takes it out. -/
def Supersedes (name : String) : Act β → Prop
  | .register given tool metadata => (entryFor given tool metadata).key = name
  | .unregister other => other = name
  | .setEnabled _ _ => False

/-- Whether a name is enabled after an act, if it was or was not before. -/
def toggle (name : String) (enabled : Bool) : Act β → Bool
  | .setEnabled other later => if other = name then later else enabled
  | _ => enabled

end Act

/-- A tool was registered under a name, and what came later has neither registered the name
anew nor taken it out. -/
structure Stands (acts : List (Act β)) (name given : String) (tool : Tool β)
    (metadata : ToolMetadata) (later : List (Act β)) : Prop where
  registered :
    ∃ earlier, acts = earlier ++ .register given tool metadata :: later
  underName :
    (entryFor given tool metadata).key = name
  accepted :
    Text.allBlank name = false
  latest :
    ∀ act ∈ later, ¬ act.Supersedes name

variable {catalogue : Catalogue β} {acts later : List (Act β)} {act : Act β}
  {name given : String} {tool : Tool β} {metadata : ToolMetadata}

theorem after_concat
    (acts : List (Act β))
    (act : Act β) :
    after (acts ++ [act]) = (after acts).perform act :=
  List.foldl_concat perform {} act acts

theorem key_of_find?
    {entry : CatalogueEntry β}
    (found : catalogue.find? name = some entry) :
    entry.key = name := by
  simpa using List.find?_some found

/-! ## The entry of a name -/

theorem find?_place
    (entry : CatalogueEntry β)
    (entries : List (CatalogueEntry β))
    (name : String) :
    (place entry entries).find? (·.key == name) =
      if entry.key = name then some entry else entries.find? (·.key == name) := by
  induction entries with
  | nil =>
      by_cases isKey : entry.key = name <;> simp [place, isKey]
  | cons other rest inductionHypothesis =>
      by_cases isSame : other.key = entry.key
      · by_cases isKey : entry.key = name <;> simp [place, isSame, isKey]
      · rw [place, if_neg isSame, List.find?_cons, List.find?_cons, inductionHypothesis]
        by_cases isOther : other.key = name
        · have notKey : entry.key ≠ name := fun isKey => isSame (isOther.trans isKey.symm)
          simp [isOther, notKey]
        · rw [beq_false_of_ne isOther]

theorem find?_filter_key
    (entries : List (CatalogueEntry β))
    (other name : String) :
    (entries.filter (·.key != other)).find? (·.key == name) =
      if other = name then none else entries.find? (·.key == name) := by
  rw [List.find?_filter]
  by_cases isName : other = name
  · simp [isName]
  · have sameTest :
        ∀ entry : CatalogueEntry β,
          decide ((entry.key != other) = true ∧ (entry.key == name) = true) =
            (entry.key == name) := by
      intro entry
      by_cases isKey : entry.key = name
      · simp [isKey, Ne.symm isName]
      · simp [isKey]
    simp only [sameTest, if_neg isName]

theorem key_ite_withEnabled
    (entry : CatalogueEntry β)
    (other : String)
    (enabled : Bool) :
    (if entry.key = other then entry.withEnabled enabled else entry).key = entry.key := by
  split <;> rfl

theorem find?_map_withEnabled
    (entries : List (CatalogueEntry β))
    (other name : String)
    (enabled : Bool) :
    (entries.map fun entry => if entry.key = other then entry.withEnabled enabled else entry).find?
        (·.key == name) =
      if other = name then (entries.find? (·.key == name)).map (·.withEnabled enabled)
      else entries.find? (·.key == name) := by
  simp only [List.find?_map, Function.comp_def, key_ite_withEnabled]
  cases found : entries.find? (·.key == name) with
  | none =>
      simp
  | some entry =>
      have isKey : entry.key = name := key_of_find? found
      by_cases isName : other = name <;> simp [isKey, isName, eq_comm]

/-- What an act does to the entry of each name. -/
theorem find?_perform
    (catalogue : Catalogue β)
    (act : Act β)
    (name : String) :
    (catalogue.perform act).find? name = act.revise name (catalogue.find? name) := by
  cases act with
  | register given tool metadata =>
      simp only [perform, attempt, register, Act.revise]
      cases isBlank : Text.allBlank (entryFor given tool metadata).key with
      | true =>
          have notName :
              ¬ ((entryFor given tool metadata).key = name ∧ Text.allBlank name = false) := by
            rintro ⟨rfl, notBlank⟩
            rw [isBlank] at notBlank
            cases notBlank
          rw [if_pos rfl, if_neg notName]
      | false =>
          have sameCondition :
              ((entryFor given tool metadata).key = name ∧ Text.allBlank name = false) ↔
                (entryFor given tool metadata).key = name :=
            and_iff_left_of_imp fun isName => isName ▸ isBlank
          simp only [sameCondition]
          exact find?_place _ _ name
  | unregister other =>
      cases found : catalogue.find? other with
      | none =>
          have nothing : other = name → catalogue.find? name = none := (· ▸ found)
          simp only [perform, attempt, unregister, found, Act.revise]
          split
          case isTrue isName => exact nothing isName
          case isFalse => rfl
      | some entry =>
          simp only [perform, attempt, unregister, found, Act.revise]
          exact find?_filter_key _ _ name
  | setEnabled other enabled =>
      cases found : catalogue.find? other with
      | none =>
          have nothing : other = name → catalogue.find? name = none := (· ▸ found)
          simp only [perform, attempt, setEnabled, found, Act.revise]
          split
          case isTrue isName => rw [nothing isName, Option.map_none]
          case isFalse => rfl
      | some entry =>
          simp only [perform, attempt, setEnabled, found, Act.revise]
          exact find?_map_withEnabled _ _ name enabled

/-! ## The latest registration -/

theorem Stands.concat
    (stands : Stands acts name given tool metadata later)
    (notSuperseded : ¬ act.Supersedes name) :
    Stands (acts ++ [act]) name given tool metadata (later ++ [act]) := by
  obtain ⟨earlier, rfl⟩ := stands.registered
  refine ⟨⟨earlier, by simp⟩, stands.underName, stands.accepted, fun other isLater => ?_⟩
  rcases List.mem_append.mp isLater with wasLater | isLast
  · exact stands.latest other wasLater
  · exact List.mem_singleton.mp isLast ▸ notSuperseded

/-- An act that does not supersede a name can at most enable or disable its entry. -/
theorem revise_eq_map
    (notSuperseded : ¬ act.Supersedes name)
    (found : Option (CatalogueEntry β)) :
    act.revise name found =
      found.map fun entry => entry.withEnabled (act.toggle name entry.metadata.enabled) := by
  cases act with
  | register given tool metadata =>
      exact (if_neg fun isName => notSuperseded isName.1).trans Option.map_id'.symm
  | unregister other =>
      exact (if_neg notSuperseded).trans Option.map_id'.symm
  | setEnabled other enabled =>
      by_cases isName : other = name
      · simp [Act.revise, Act.toggle, isName]
      · simp only [Act.revise, Act.toggle, isName, if_false]
        exact Option.map_id'.symm

/-- Acts that do not supersede a name leave its entry, enabled as they say. -/
theorem find?_foldl_perform
    (notSuperseded : ∀ act ∈ later, ¬ act.Supersedes name)
    {entry : CatalogueEntry β}
    {enabled : Bool}
    (found : catalogue.find? name = some (entry.withEnabled enabled)) :
    (later.foldl perform catalogue).find? name =
      some (entry.withEnabled (later.foldl (Act.toggle name) enabled)) := by
  induction later generalizing catalogue enabled with
  | nil =>
      exact found
  | cons act rest inductionHypothesis =>
      refine inductionHypothesis (fun other isRest =>
        notSuperseded other (List.mem_cons_of_mem act isRest)) ?_
      rw [find?_perform, found, revise_eq_map (notSuperseded act List.mem_cons_self)]
      rfl

/-- A registration that stands is what the catalogue has under the name, enabled as it was
last. -/
theorem Stands.find?_after
    (stands : Stands acts name given tool metadata later) :
    (after acts).find? name =
      some ((entryFor given tool metadata).withEnabled
        (later.foldl (Act.toggle name) metadata.enabled)) := by
  obtain ⟨earlier, rfl⟩ := stands.registered
  rw [after, List.foldl_append, List.foldl_cons]
  refine find?_foldl_perform stands.latest ?_
  rw [find?_perform, Act.revise]
  exact if_pos ⟨stands.underName, stands.accepted⟩

/-- What a catalogue has under a name comes from a registration that stands. -/
theorem exists_stands_of_find?
    {entry : CatalogueEntry β}
    (found : (after acts).find? name = some entry) :
    ∃ given tool metadata later, Stands acts name given tool metadata later := by
  induction acts using List.reverseRecOn generalizing entry with
  | nil =>
      cases found
  | append_singleton acts act inductionHypothesis =>
      rw [after_concat, find?_perform] at found
      by_cases superseded : act.Supersedes name
      · cases act with
        | register given tool metadata =>
            cases isBlank : Text.allBlank name with
            | true =>
                -- The act was refused, and so was any by which the name could have come before.
                obtain ⟨_, _, _, _, stands⟩ :=
                  inductionHypothesis (by simpa [Act.revise, isBlank] using found)
                cases isBlank.symm.trans stands.accepted
            | false =>
                exact ⟨given, tool, metadata, [], ⟨acts, rfl⟩, superseded, isBlank, nofun⟩
        | unregister other =>
            cases (if_pos superseded).symm.trans found
        | setEnabled other enabled =>
            exact superseded.elim
      · rw [revise_eq_map superseded, Option.map_eq_some_iff] at found
        obtain ⟨before, wasFound, _⟩ := found
        obtain ⟨given, tool, metadata, later, stands⟩ := inductionHypothesis wasFound
        exact ⟨given, tool, metadata, later ++ [act], stands.concat superseded⟩

/-- What `get?` gives for a name whose registration stands. -/
theorem Stands.get?_after
    (stands : Stands acts name given tool metadata later) :
    (after acts).get? name =
      if later.foldl (Act.toggle name) metadata.enabled then some tool else none := by
  rw [get?, stands.find?_after]
  rfl

theorem get?_after_of_noneStands
    (noneStands : ∀ given tool metadata later, ¬ Stands acts name given tool metadata later) :
    (after acts).get? name = none := by
  cases found : (after acts).find? name with
  | none =>
      rw [get?, found]
  | some entry =>
      obtain ⟨given, tool, metadata, later, stands⟩ := exists_stands_of_find? found
      exact absurd stands (noneStands given tool metadata later)

end Catalogue

end Runbook
