import Mathlib.Data.List.Basic
import Runbook.Proofs.Settings.Settling

namespace Runbook

/-!
# Full forms

A value is in the full form of a shape if every field of its records is there.  Whatever settles
is in full form, as long as the defaults of the fields are, and settings that are taken from a
value in full form have that value as their own full form: nothing is lost on the way from
entries to settings.
-/

open Json (Shape)

namespace Json.Shape

/-- A shape of single values, and of lists of them. -/
def isSingle : Shape → Bool
  | .text => true
  | .path => true
  | .truth => true
  | .unsigned _ _ => true
  | .real => true
  | .optional inner => isSingle inner
  | .list inner => isSingle inner
  | _ => false

mutual

/-- A value is in the full form of a shape. -/
def Full : Shape → Json → Prop
  | .text, value => ∃ content, value = .str content
  | .path, value => ∃ content, value = .str content
  | .truth, value => ∃ truth, value = .bool truth
  | .unsigned _ _, value => ∃ number : Nat, value = .int number
  | .real, value => ∃ number, value = .double number
  | .optional inner, value => value = .null ∨ Full inner value
  | .list inner, value => ∃ items, value = .arr items ∧ ∀ item ∈ items, Full inner item
  | .record _ fields, value => ∃ members, value = .obj members ∧ FullMembers fields members
  | _, _ => False

/-- Members are in the full form of fields. -/
def FullMembers : List (String × Shape × Option Json) → List (String × Json) → Prop
  | [], members => members = []
  | (field, shape, _) :: fields, members =>
      ∃ value rest, members = (field, value) :: rest ∧ Full shape value ∧ FullMembers fields rest

end

mutual

/-- A value is what a shape has where nothing is set. -/
def Defaults : Shape → Json → Prop
  | .record _ fields, value => ∃ members, value = .obj members ∧ DefaultsMembers fields members
  | shape, value => shape.isSingle ∧ Full shape value

/-- Members are what fields have where nothing is set. -/
def DefaultsMembers : List (String × Shape × Option Json) → List (String × Json) → Prop
  | [], members => members = []
  | (field, shape, default?) :: fields, members =>
      ∃ value rest, members = (field, value) :: rest ∧ default? = some value ∧
        Defaults shape value ∧ DefaultsMembers fields rest

end

mutual

theorem full_of_defaults
    (shape : Shape)
    {value : Json}
    (defaults : Defaults shape value) :
    Full shape value := by
  cases shape with
  | record name fields =>
      rw [Defaults] at defaults
      obtain ⟨members, isObject, areDefaults⟩ := defaults
      rw [Full]
      exact ⟨members, isObject, fullMembers_of_defaultsMembers fields areDefaults⟩
  | _ => exact defaults.2

theorem fullMembers_of_defaultsMembers
    (fields : List (String × Shape × Option Json))
    {members : List (String × Json)}
    (areDefaults : DefaultsMembers fields members) :
    FullMembers fields members := by
  cases fields with
  | nil =>
      exact areDefaults
  | cons field fields =>
      obtain ⟨name, shape, default?⟩ := field
      rw [DefaultsMembers] at areDefaults
      obtain ⟨value, rest, isThere, -, defaults, areRest⟩ := areDefaults
      rw [FullMembers]
      exact ⟨value, rest, isThere, full_of_defaults shape defaults,
        fullMembers_of_defaultsMembers fields areRest⟩

end

end Json.Shape

namespace Entry

open Json.Shape

mutual

/-- What settles as a single value is in full form. -/
theorem full_of_isSingle
    {shape : Shape}
    {entry : Entry}
    {value : Json}
    (isSingle : shape.isSingle)
    (settles : Settles shape entry value) :
    Full shape value := by
  cases settles with
  | text isRead => exact ⟨_, rfl⟩
  | path isRead => exact ⟨_, rfl⟩
  | truth isRead => exact ⟨_, rfl⟩
  | unsigned isRead => exact ⟨_, rfl⟩
  | real isRead => exact ⟨_, rfl⟩
  | nothing => exact Or.inl rfl
  | something isThere settles => exact Or.inr (full_of_isSingle isSingle settles)
  | list settle => exact ⟨_, rfl, fullItems_of_isSingle isSingle settle⟩
  | positions settle => cases isSingle
  | members settle => cases isSingle

theorem fullItems_of_isSingle
    {inner : Shape}
    {items : List Entry}
    {values : List Json}
    (isSingle : inner.isSingle)
    (settle : SettlesItems inner items values) :
    ∀ value ∈ values, Full inner value := by
  cases settle with
  | nil =>
      exact List.forall_mem_nil _
  | cons settles settle =>
      exact List.forall_mem_cons.mpr
        ⟨full_of_isSingle isSingle settles, fullItems_of_isSingle isSingle settle⟩

end

mutual

/-- What settles is in full form, if the defaults are. -/
theorem full_of_settles
    {shape : Shape}
    {entry : Entry}
    {value default : Json}
    (defaults : Defaults shape default)
    (settles : Settles shape entry value) :
    Full shape value := by
  cases shape with
  | record name fields =>
      obtain ⟨members, -, areDefaults⟩ := defaults
      cases settles with
      | positions settle => exact ⟨_, rfl, fullMembers_of_settlesPositions areDefaults settle⟩
      | members settle => exact ⟨_, rfl, fullMembers_of_settlesMembers areDefaults settle⟩
  | _ => exact full_of_isSingle defaults.1 settles

theorem fullMembers_of_settlesPositions
    {fields : List (String × Shape × Option Json)}
    {items : List Entry}
    {values defaults : List (String × Json)}
    (areDefaults : DefaultsMembers fields defaults)
    (settle : SettlesPositions fields items values) :
    FullMembers fields values := by
  cases settle with
  | nil => rfl
  | absent settle =>
      obtain ⟨default, rest, -, rfl, isDefault, areRest⟩ := areDefaults
      exact ⟨_, _, rfl, full_of_defaults _ isDefault,
        fullMembers_of_settlesPositions areRest settle⟩
  | present settles settle =>
      obtain ⟨default, rest, -, rfl, isDefault, areRest⟩ := areDefaults
      exact ⟨_, _, rfl, full_of_settles isDefault settles,
        fullMembers_of_settlesPositions areRest settle⟩

theorem fullMembers_of_settlesMembers
    {fields : List (String × Shape × Option Json)}
    {members : List (String × Entry)}
    {values defaults : List (String × Json)}
    (areDefaults : DefaultsMembers fields defaults)
    (settle : SettlesMembers fields members values) :
    FullMembers fields values := by
  cases settle with
  | nil => rfl
  | absent isAbsent settle =>
      obtain ⟨default, rest, -, rfl, isDefault, areRest⟩ := areDefaults
      exact ⟨_, _, rfl, full_of_defaults _ isDefault,
        fullMembers_of_settlesMembers areRest settle⟩
  | present isPresent settles settle =>
      obtain ⟨default, rest, -, rfl, isDefault, areRest⟩ := areDefaults
      exact ⟨_, _, rfl, full_of_settles isDefault settles,
        fullMembers_of_settlesMembers areRest settle⟩

end

end Entry

/-! ## Sections -/

section Sections

variable {value : Json}

open Json.Shape

theorem AppSettings.toJson_ofFull
    (isFull : Full shape value) :
    (ofFull value).toJson = value := by
  simp only [shape, withDefaults, List.map, Full, FullMembers] at isFull
  obtain ⟨_, rfl, name, _, rfl, isName, _, _, rfl, ⟨level, rfl⟩, rfl⟩ := isFull
  rcases isName with rfl | ⟨name, rfl⟩ <;> rfl

theorem ModelSettings.toJson_ofFull
    (isFull : Full shape value) :
    (ofFull value).toJson = value := by
  simp only [shape, withDefaults, List.map, Full, FullMembers, u64] at isFull
  obtain ⟨_, rfl, _, _, rfl, ⟨provider, rfl⟩, model, _, rfl, isModel, url, _, rfl, isUrl,
    _, _, rfl, ⟨timeout, rfl⟩, rfl⟩ := isFull
  rcases isModel with rfl | ⟨model, rfl⟩ <;> rcases isUrl with rfl | ⟨url, rfl⟩ <;> rfl

/-- Items that are texts are what is left of them as texts. -/
theorem map_filterMap_text
    {items : List Json}
    (areTexts : ∀ item ∈ items, ∃ content, item = .str content) :
    (items.filterMap Json.text?).map .str = items := by
  induction items with
  | nil =>
      rfl
  | cons item items inductionHypothesis =>
      obtain ⟨⟨content, rfl⟩, othersAre⟩ := List.forall_mem_cons.mp areTexts
      exact congrArg (.str content :: ·) (inductionHypothesis othersAre)

theorem ToolSettings.toJson_ofFull
    (isFull : Full shape value) :
    (ofFull value).toJson = value := by
  simp only [shape, withDefaults, List.map, Full, FullMembers, u64] at isFull
  obtain ⟨_, rfl, _, _, rfl, ⟨timeout, rfl⟩, _, _, rfl, ⟨docs, rfl⟩, _, _, rfl, ⟨loki, rfl⟩,
    _, _, rfl, ⟨prometheus, rfl⟩, database, _, rfl, isDatabase,
    _, _, rfl, ⟨tables, rfl, areTexts⟩, rfl⟩ := isFull
  rcases isDatabase with rfl | ⟨database, rfl⟩
  all_goals
    change Json.obj [_, _, _, _, _, (_, .arr ((tables.filterMap Json.text?).map .str))] = _
    rw [map_filterMap_text areTexts]
    rfl

theorem BatchSettings.toJson_ofFull
    (isFull : Full shape value) :
    (ofFull value).toJson = value := by
  simp only [shape, withDefaults, List.map, Full, FullMembers, u64, size] at isFull
  obtain ⟨_, rfl, _, _, rfl, ⟨concurrency, rfl⟩, _, _, rfl, ⟨timeout, rfl⟩,
    _, _, rfl, ⟨continues, rfl⟩, _, _, rfl, ⟨pause, rfl⟩, rfl⟩ := isFull
  rfl

theorem BreakerSettings.toJson_ofFull
    (isFull : Full shape value) :
    (ofFull value).toJson = value := by
  simp only [shape, withDefaults, List.map, Full, FullMembers, u32, u64] at isFull
  obtain ⟨_, rfl, _, _, rfl, ⟨failures, rfl⟩, _, _, rfl, ⟨reset, rfl⟩,
    _, _, rfl, ⟨attempts, rfl⟩, rfl⟩ := isFull
  rfl

theorem RetrySettings.toJson_ofFull
    (isFull : Full shape value) :
    (ofFull value).toJson = value := by
  simp only [shape, withDefaults, List.map, Full, FullMembers, u32, u64] at isFull
  obtain ⟨_, rfl, _, _, rfl, ⟨attempts, rfl⟩, _, _, rfl, ⟨base, rfl⟩, _, _, rfl, ⟨longest, rfl⟩,
    _, _, rfl, ⟨multiplier, rfl⟩, rfl⟩ := isFull
  rfl

theorem RunSettings.toJson_ofFull
    (isFull : Full shape value) :
    (ofFull value).toJson = value := by
  simp only [shape, withDefaults, List.map, Full, FullMembers, size] at isFull
  obtain ⟨_, rfl, _, _, rfl, ⟨iterations, rfl⟩, _, _, rfl, ⟨kind, rfl⟩, rfl⟩ := isFull
  rfl

/-- Settings that are taken from a value in full form have it as their own. -/
theorem Settings.toJson_ofFull
    (isFull : Full shape value) :
    (ofFull value).toJson = value := by
  simp only [shape, resilienceShape, withDefaults, List.map, Full, FullMembers] at isFull
  obtain ⟨_, rfl, app, _, rfl, isApp, model, _, rfl, isModel, tools, _, rfl, areTools,
    batch, _, rfl, isBatch, _, _, rfl,
    ⟨_, rfl, breaker, _, rfl, isBreaker, retry, _, rfl, isRetry, rfl⟩, run, _, rfl, isRun, rfl⟩ :=
    isFull
  simp only [toJson, resilienceJson, ofFull, Json.memberAt, Json.member?]
  simp [AppSettings.toJson_ofFull isApp, ModelSettings.toJson_ofFull isModel,
    ToolSettings.toJson_ofFull areTools, BatchSettings.toJson_ofFull isBatch,
    BreakerSettings.toJson_ofFull isBreaker, RetrySettings.toJson_ofFull isRetry,
    RunSettings.toJson_ofFull isRun]

/-- The settings where nothing is set hold the defaults of all fields. -/
theorem Settings.defaults_shape : Defaults shape (toJson {}) := by
  simp [shape, toJson, resilienceShape, resilienceJson, withDefaults,
    AppSettings.shape, AppSettings.toJson, ModelSettings.shape, ModelSettings.toJson,
    ToolSettings.shape, ToolSettings.toJson, BatchSettings.shape, BatchSettings.toJson,
    BreakerSettings.shape, BreakerSettings.toJson, RetrySettings.shape, RetrySettings.toJson,
    RunSettings.shape, RunSettings.toJson, u32, u64, size, Json.memberAt, Json.member?,
    Json.ofText?, Defaults, DefaultsMembers, isSingle, Full, Int.eq_ofNat_of_zero_le]

end Sections

end Runbook
