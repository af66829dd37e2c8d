import Runbook.Proofs.Catalogue.Registrations
import Runbook.Proofs.Dependency.Layers
import Runbook.Proofs.Json.Fields

namespace Runbook

/-!
# What a catalogue hands out

A catalogue hands out the enabled tools that a tag means in three ways: the tools, their names
with descriptions, and a text with their schemas, out of which the names can be read again.
Some go by the key of an entry and some by the name in its metadata, and each filters and sorts
for itself.  They agree since the key is that name, and no key comes twice.
-/

namespace Catalogue

variable {β : Type} {catalogue : Catalogue β} {acts : List (Act β)} {name tag : String}

/-! ## The entries -/

/-- No key comes twice, and the metadata has the key as its name. -/
structure Tidy (catalogue : Catalogue β) : Prop where
  nodup :
    (catalogue.entries.map (·.key)).Nodup
  named :
    ∀ entry ∈ catalogue.entries, entry.metadata.name = entry.key

theorem mem_place
    {entry other : CatalogueEntry β}
    {entries : List (CatalogueEntry β)}
    (isPlaced : other ∈ place entry entries) :
    other = entry ∨ other ∈ entries := by
  induction entries with
  | nil =>
      exact Or.inl (List.mem_singleton.mp isPlaced)
  | cons first rest inductionHypothesis =>
      rw [place] at isPlaced
      split at isPlaced
      · exact (List.mem_cons.mp isPlaced).imp_right (List.mem_cons_of_mem first)
      · rcases List.mem_cons.mp isPlaced with rfl | isRest
        · exact Or.inr List.mem_cons_self
        · exact (inductionHypothesis isRest).imp_right (List.mem_cons_of_mem first)

theorem nodup_map_key_place
    (entry : CatalogueEntry β)
    {entries : List (CatalogueEntry β)}
    (nodup : (entries.map (·.key)).Nodup) :
    ((place entry entries).map (·.key)).Nodup := by
  induction entries with
  | nil =>
      simp [place]
  | cons first rest inductionHypothesis =>
      rw [List.map_cons, List.nodup_cons] at nodup
      rw [place]
      split
      case isTrue isSame =>
        rw [List.map_cons, List.nodup_cons, ← isSame]
        exact nodup
      case isFalse isOther =>
        rw [List.map_cons, List.nodup_cons]
        refine ⟨fun isKey => ?_, inductionHypothesis nodup.2⟩
        obtain ⟨other, isPlaced, sameKey⟩ := List.mem_map.mp isKey
        rcases mem_place isPlaced with rfl | isRest
        · exact isOther sameKey.symm
        · exact nodup.1 (sameKey ▸ List.mem_map_of_mem isRest)

/-- Whatever is tried with a tidy catalogue, it stays tidy. -/
theorem Tidy.perform
    (tidy : catalogue.Tidy)
    (act : Act β) :
    (catalogue.perform act).Tidy := by
  rw [Catalogue.perform]
  cases outcome : catalogue.attempt act with
  | error _ =>
      exact tidy
  | ok later =>
      cases act with
      | register given tool metadata =>
          simp only [attempt, register] at outcome
          split at outcome
          · cases outcome
          · cases outcome
            refine ⟨nodup_map_key_place _ tidy.nodup, fun entry isPlaced => ?_⟩
            rcases mem_place isPlaced with rfl | wasThere
            · rfl
            · exact tidy.named entry wasThere
      | unregister other =>
          simp only [attempt, unregister] at outcome
          split at outcome
          · cases outcome
          · cases outcome
            exact ⟨(List.filter_sublist.map _).nodup tidy.nodup,
              fun entry isKept => tidy.named entry (List.mem_of_mem_filter isKept)⟩
      | setEnabled other enabled =>
          simp only [attempt, setEnabled] at outcome
          split at outcome
          · cases outcome
          · cases outcome
            refine ⟨?_, fun entry isEntry => ?_⟩
            · rw [List.map_map]
              exact (List.map_congr_left fun entry _ =>
                key_ite_withEnabled entry other enabled).symm ▸ tidy.nodup
            · obtain ⟨before, wasThere, rfl⟩ := List.mem_map.mp isEntry
              split <;> exact tidy.named before wasThere

theorem tidy_after
    (acts : List (Act β)) :
    (after acts).Tidy := by
  induction acts using List.reverseRecOn with
  | nil =>
      exact ⟨List.nodup_nil, nofun⟩
  | append_singleton acts act inductionHypothesis =>
      rw [after_concat]
      exact inductionHypothesis.perform act

/-- A name has an entry of a tidy catalogue if the entry is there under that key. -/
theorem Tidy.find?_eq_some_iff
    (tidy : catalogue.Tidy)
    {entry : CatalogueEntry β} :
    catalogue.find? name = some entry ↔ entry ∈ catalogue.entries ∧ entry.key = name := by
  constructor
  · intro found
    exact ⟨List.mem_of_find?_eq_some found, key_of_find? found⟩
  · rintro ⟨isEntry, rfl⟩
    cases found : catalogue.find? entry.key with
    | none =>
        have noKey := List.find?_eq_none.mp found entry isEntry
        simp at noKey
    | some other =>
        have isOther := List.mem_of_find?_eq_some found
        rw [List.inj_on_of_nodup_map tidy.nodup isOther isEntry (key_of_find? found)]

/-! ## Sorting by name -/

section Sorting

variable {γ : Type} (nameOf : γ → String)

theorem perm_insertBy
    (item : γ)
    (sorted : List γ) :
    (insertBy nameOf item sorted).Perm (item :: sorted) := by
  induction sorted with
  | nil =>
      exact .refl _
  | cons other rest inductionHypothesis =>
      rw [insertBy]
      split
      · exact .refl _
      · exact (inductionHypothesis.cons other).trans (.swap item other rest)

theorem perm_sortBy
    (items : List γ) :
    (sortBy nameOf items).Perm items := by
  induction items with
  | nil =>
      exact .refl _
  | cons item rest inductionHypothesis =>
      exact (perm_insertBy nameOf item _).trans (inductionHypothesis.cons item)

theorem map_insertBy
    (item : γ)
    (sorted : List γ) :
    (insertBy nameOf item sorted).map nameOf =
      DependencyGraph.insertName (nameOf item) (sorted.map nameOf) := by
  induction sorted with
  | nil =>
      rfl
  | cons other rest inductionHypothesis =>
      rw [insertBy, List.map_cons, DependencyGraph.insertName]
      split
      · rfl
      · rw [List.map_cons, inductionHypothesis]

/-- Sorting items by name sorts their names. -/
theorem map_sortBy
    (items : List γ) :
    (sortBy nameOf items).map nameOf = DependencyGraph.sortNames (items.map nameOf) := by
  induction items with
  | nil =>
      rfl
  | cons item rest inductionHypothesis =>
      rw [sortBy, List.foldr_cons, map_insertBy, ← sortBy, inductionHypothesis]
      rfl

/-- Items of which no two have the same name are strictly sorted by it. -/
theorem pairwise_map_sortBy
    {nameOf : γ → String}
    {items : List γ}
    (nodup : (items.map nameOf).Nodup) :
    ((sortBy nameOf items).map nameOf).Pairwise (· < ·) :=
  map_sortBy nameOf items ▸ DependencyGraph.pairwise_sortNames nodup

end Sorting

/-! ## The views -/

/-- A name has a tool to get, and the tag means that tool. -/
def Offers (catalogue : Catalogue β) (tag name : String) : Prop :=
  ∃ tool metadata, catalogue.get? name = some tool ∧ catalogue.metadata? name = some metadata ∧
    metadata.declares tag = true

theorem Tidy.offers_iff
    (tidy : catalogue.Tidy) :
    catalogue.Offers tag name ↔
      ∃ entry ∈ catalogue.entries, entry.key = name ∧
        (entry.metadata.enabled && entry.metadata.declares tag) = true := by
  simp only [Bool.and_eq_true]
  constructor
  · rintro ⟨tool, metadata, isTool, isMetadata, declares⟩
    obtain ⟨entry, found, rfl⟩ := Option.map_eq_some_iff.mp isMetadata
    obtain ⟨isEntry, isKey⟩ := tidy.find?_eq_some_iff.mp found
    rw [get?, found] at isTool
    by_cases enabled : entry.metadata.enabled = true
    · exact ⟨entry, isEntry, isKey, enabled, declares⟩
    · simp [enabled] at isTool
  · rintro ⟨entry, isEntry, isKey, enabled, declares⟩
    have found := tidy.find?_eq_some_iff.mpr ⟨isEntry, isKey⟩
    exact ⟨entry.tool, entry.metadata, by simp [get?, found, enabled],
      by simp [metadata?, found], declares⟩

/-- The names of the tools that are handed out for a tag. -/
theorem Tidy.mem_getAll_iff
    (tidy : catalogue.Tidy) :
    name ∈ (catalogue.getAll tag).map (·.key) ↔ catalogue.Offers tag name := by
  rw [tidy.offers_iff, List.mem_map]
  refine exists_congr fun entry => ?_
  rw [getAll, select, (perm_sortBy _ _).mem_iff, List.mem_filter]
  tauto

theorem Tidy.mem_descriptions_iff
    (tidy : catalogue.Tidy) :
    name ∈ (catalogue.descriptions tag).map (·.1) ↔ catalogue.Offers tag name := by
  simp only [tidy.offers_iff, descriptions, listMetadata, List.map_map, List.mem_map,
    List.mem_filter, (perm_sortBy _ _).mem_iff, Function.comp_apply]
  constructor
  · rintro ⟨_, ⟨⟨entry, isEntry, rfl⟩, isMeant⟩, rfl⟩
    exact ⟨entry, isEntry, (tidy.named entry isEntry).symm, isMeant⟩
  · rintro ⟨entry, isEntry, rfl, isMeant⟩
    exact ⟨entry.metadata, ⟨⟨entry, isEntry, rfl⟩, isMeant⟩, tidy.named entry isEntry⟩

theorem Tidy.pairwise_getAll
    (tidy : catalogue.Tidy)
    (tag : String) :
    ((catalogue.getAll tag).map (·.key)).Pairwise (· < ·) :=
  pairwise_map_sortBy ((List.filter_sublist.map _).nodup tidy.nodup)

theorem Tidy.pairwise_descriptions
    (tidy : catalogue.Tidy)
    (tag : String) :
    ((catalogue.descriptions tag).map (·.1)).Pairwise (· < ·) := by
  have sameNames :
      (catalogue.entries.map (·.metadata)).map (·.name) = catalogue.entries.map (·.key) := by
    rw [List.map_map]
    exact List.map_congr_left tidy.named
  have sorted : (catalogue.listMetadata.map (·.name)).Pairwise (· < ·) :=
    pairwise_map_sortBy (sameNames ▸ tidy.nodup)
  rw [descriptions, List.map_map]
  exact sorted.sublist (List.filter_sublist.map _)

/-- What the text with the schemas is read for: the name of each tool. -/
def namesShape : Json.Shape := .list (.record "ToolName" [("name", .text, none)])

/-- What is read for a name. -/
def nameRead (name : String) : Json := .obj [("name", .str name)]

theorem entrySchema_eq
    (entry : CatalogueEntry β) :
    entrySchema entry =
      .obj
        [ ("description", .str entry.metadata.description),
          ("name", .str entry.key),
          ("parameters", entry.tool.parameters) ] := by
  have inFront : "description" < "name" := by decide
  have notInFront : ¬ "parameters" < "description" ∧ ¬ "parameters" < "name" := by decide
  have areDistinct :
      "description" ≠ "name" ∧ "parameters" ≠ "description" ∧ "parameters" ≠ "name" := by decide
  simp only [entrySchema, Json.record, Json.orderMembers, List.foldl_cons, List.foldl_nil,
    Json.insertMember, inFront, notInFront, areDistinct, if_true, if_false]

/-- The name is read out of the schema of a tool, whatever its parameters are. -/
theorem readsAs_entrySchema
    (entry : CatalogueEntry β) :
    (Json.Shape.record "ToolName" [("name", .text, none)]).ReadsAs 1 (entrySchema entry)
      (nameRead entry.key) := by
  rw [entrySchema_eq]
  exact Json.Shape.readsAs_record (by decide)
    (.passedOver rfl (.taken rfl rfl (Json.Shape.readsAs_text entry.key) (.passedOver rfl .done)))
    rfl

/-- The names are read out of the text with the schemas. -/
theorem ofText_schemaText
    (catalogue : Catalogue β)
    (tag : String) :
    Json.Shape.ofText namesShape (catalogue.schemaText tag) =
      .ok (.arr (((catalogue.getAll tag).map (·.key)).map nameRead)) := by
  have areRead :
      List.Forall₂ ((Json.Shape.record "ToolName" [("name", .text, none)]).ReadsAs 1)
        ((catalogue.getAll tag).map entrySchema)
        (((catalogue.getAll tag).map (·.key)).map nameRead) := by
    rw [List.map_map, List.forall₂_map_left_iff, List.forall₂_map_right_iff, List.forall₂_same]
    exact fun entry _ => readsAs_entrySchema entry
  exact (Json.Shape.readsAs_list (by decide) areRead).ofText_pretty

/-- The views of a catalogue for a tag show the same names. -/
structure ViewsAgree (catalogue : Catalogue β) (tag : String) (names : List String) : Prop where
  tools :
    (catalogue.getAll tag).map (·.key) = names
  gets :
    ∀ entry ∈ catalogue.getAll tag, catalogue.get? entry.key = some entry.tool
  described :
    (catalogue.descriptions tag).map (·.1) = names
  written :
    Json.Shape.ofText namesShape (catalogue.schemaText tag) = .ok (.arr (names.map nameRead))
  sorted :
    names.Pairwise (· < ·)
  mem_iff :
    ∀ name, name ∈ names ↔ catalogue.Offers tag name

theorem Tidy.viewsAgree
    (tidy : catalogue.Tidy)
    (tag : String) :
    catalogue.ViewsAgree tag ((catalogue.getAll tag).map (·.key)) where
  tools := rfl
  gets := by
    intro entry isEntry
    rw [getAll, select, (perm_sortBy _ _).mem_iff, List.mem_filter, Bool.and_eq_true] at isEntry
    rw [get?, tidy.find?_eq_some_iff.mpr ⟨isEntry.1, rfl⟩]
    exact if_pos isEntry.2.1
  described :=
    (tidy.pairwise_descriptions tag).eq_of_mem_iff (tidy.pairwise_getAll tag) fun name => by
      rw [tidy.mem_descriptions_iff, tidy.mem_getAll_iff]
  written := ofText_schemaText catalogue tag
  sorted := tidy.pairwise_getAll tag
  mem_iff := fun _ => tidy.mem_getAll_iff

/-- What there is to get from a catalogue after some acts. -/
structure HandsOut (acts : List (Act β)) : Prop where
  views :
    ∀ tag, ∃ names, (after acts).ViewsAgree tag names
  gets :
    ∀ name given tool metadata later, Stands acts name given tool metadata later →
      (after acts).get? name =
        if later.foldl (Act.toggle name) metadata.enabled then some tool else none
  knows :
    ∀ name given tool metadata later, Stands acts name given tool metadata later →
      (after acts).metadata? name =
        some { (entryFor given tool metadata).metadata with
          enabled := later.foldl (Act.toggle name) metadata.enabled }
  getsNothing :
    ∀ name, (∀ given tool metadata later, ¬ Stands acts name given tool metadata later) →
      (after acts).get? name = none

/--
Whatever was tried with a catalogue, its views agree.  For each tag the names of the tools, of
the descriptions and those read out of the text with the schemas are one list, strictly sorted,
of the names that have a tool to get whose metadata the tag means.  The tool to get for a name
is the one of its latest registration that was accepted, unless the name was taken out since,
and there is none while that registration is disabled.
-/
theorem handsOut_after
    (acts : List (Act β)) :
    HandsOut acts where
  views := fun tag => ⟨_, (tidy_after acts).viewsAgree tag⟩
  gets := fun _ _ _ _ _ => Stands.get?_after
  knows := fun _ _ _ _ _ stands => by
    rw [metadata?, stands.find?_after]
    rfl
  getsNothing := fun _ => get?_after_of_noneStands

end Catalogue

end Runbook
