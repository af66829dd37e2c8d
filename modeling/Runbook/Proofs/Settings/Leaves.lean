import Mathlib.Data.List.Forall2
import Runbook.Proofs.Settings.Forms
import Runbook.Proofs.Settings.Writings

namespace Runbook

/-!
# Leaves

The leaves of a shape are the single settings in it, each at the path of the fields that lead
there.  What an entry settles as has at the path of a leaf what the entry that is seen there
settles as, and the default if there is none.  Nothing else of the entry counts for it.
-/

open Json (Shape)

namespace Json.Shape

mutual

/-- The single settings in a shape, with their paths. -/
def leaves : Shape → List (List String × Shape)
  | .record _ fields => leavesIn fields
  | shape => [([], shape)]

/-- The single settings in fields, with their paths. -/
def leavesIn : List (String × Shape × Option Json) → List (List String × Shape)
  | [] => []
  | (field, shape, _) :: rest =>
      (leaves shape).map (fun leaf => (field :: leaf.1, leaf.2)) ++ leavesIn rest

end

/-- The single setting at a path. -/
def leafAt? : List String → Shape → Option Shape
  | [], .record _ _ => none
  | [], shape => some shape
  | name :: names, .record _ fields =>
      (fields.find? (·.1 == name)).bind fun field => leafAt? names field.2.1
  | _ :: _, _ => none

/-- What an entry is, where it is written as the kind of value that is wanted.  A whole number
also writes a real one. -/
def asWritten? : Shape → Entry → Option Json
  | .text, .scalar (.text content) _ => some (.str content)
  | .path, .scalar (.text content) _ => some (.str content)
  | .truth, .scalar (.truth value) _ => some (.bool value)
  | .unsigned _ _, .scalar (.whole number) _ => some (.int number)
  | .real, .scalar (.real number) _ => some (.double number)
  | .real, .scalar (.whole number) _ => some (.double (.ofFloat (Float.ofInt number)))
  | .optional _, .scalar .nothing _ => some .null
  | .optional inner, entry => asWritten? inner entry
  | .list inner, .list items _ => (items.mapM (asWritten? inner)).map .arr
  | _, _ => none

end Json.Shape

namespace Entry

/-- An entry is a part of another, or the whole of it. -/
inductive Within (entry : Entry) : Entry → Prop where
  | whole :
      Within entry entry
  | item
      {items : List Entry}
      {item : Entry}
      {origin : Option String}
      (isItem : item ∈ items)
      (within : Within entry item) :
      Within entry (.list items origin)
  | member
      {members : List (String × Entry)}
      {name : String}
      {member : Entry}
      {origin : Option String}
      (isMember : get? members name = some member)
      (within : Within entry member) :
      Within entry (.table members origin)

/-- A leaf has its default, or what a part of an entry settles as. -/
def GivesPart (kind : Shape) (default? value? : Option Json) (entry : Entry) : Prop :=
  value? = default? ∨
    ∃ part value, Within part entry ∧ value? = some value ∧ Settles kind part value

end Entry

/-- What is seen on the way to a leaf says which value it has.  Where a list stands in place of
a record, the fields take its items in order. -/
inductive Sight.Gives (kind : Shape) (default? value? : Option Json) : Sight → Prop where
  | found
      {entry : Entry}
      {value : Json}
      (isValue : value? = some value)
      (settles : Entry.Settles kind entry value) :
      Gives kind default? value? (.found entry)
  | missing
      (isDefault : value? = default?) :
      Gives kind default? value? .missing
  | listed
      {items : List Entry}
      {origin : Option String}
      (givesPart : (Entry.list items origin).GivesPart kind default? value?) :
      Gives kind default? value? (.blocked (.list items origin))

namespace Entry

open Json.Shape

/-- What a field takes: what the member of its name settles as, or else its default. -/
def Takes (field : String × Shape × Option Json) (member? : Option Entry) (value : Json) : Prop :=
  match member? with
  | some entry => Settles field.2.1 entry value
  | none => value = field.2.2.getD .null

/-- What a field takes where items are given in order: what one of them settles as, or else its
default. -/
def TakesItem (items : List Entry) (field : String × Shape × Option Json) (value : Json) : Prop :=
  (∃ item ∈ items, Settles field.2.1 item value) ∨ value = field.2.2.getD .null

/-- A value is the default of a field. -/
def IsDefault (field : String × Shape × Option Json) (value : Json) : Prop :=
  field.2.2 = some value ∧ Defaults field.2.1 value

/-- Where a field of a record has its value from. -/
inductive Provides (name : String) (shape : Shape) (default value : Json) : Entry → Prop where
  | item
      {items : List Entry}
      {item : Entry}
      {origin : Option String}
      (isItem : item ∈ items)
      (settles : Settles shape item value) :
      Provides name shape default value (.list items origin)
  | unlisted
      {items : List Entry}
      {origin : Option String}
      (isDefault : value = default) :
      Provides name shape default value (.list items origin)
  | member
      {members : List (String × Entry)}
      {member : Entry}
      {origin : Option String}
      (isMember : get? members name = some member)
      (settles : Settles shape member value) :
      Provides name shape default value (.table members origin)
  | absent
      {members : List (String × Entry)}
      {origin : Option String}
      (isAbsent : get? members name = none)
      (isDefault : value = default) :
      Provides name shape default value (.table members origin)

/-! ## What a leaf is -/

section Reading

variable {fields : List (String × Shape × Option Json)} {name : String} {path : List String}
  {shape kind : Shape} {entry : Entry} {value default : Json}

/-- Each field of a record takes its value from the member of its name. -/
theorem forall₂_of_settlesMembers
    {members : List (String × Entry)}
    {values : List (String × Json)}
    (settle : SettlesMembers fields members values) :
    List.Forall₂
      (fun field value => value.1 = field.1 ∧ Takes field (get? members field.1) value.2)
      fields values := by
  induction fields generalizing values with
  | nil =>
      cases settle
      exact .nil
  | cons field fields inductionHypothesis =>
      cases settle with
      | absent isAbsent settle =>
          exact .cons ⟨rfl, by rw [isAbsent]; exact rfl⟩ (inductionHypothesis settle)
      | present isPresent settles settle =>
          exact .cons ⟨rfl, by rw [isPresent]; exact settles⟩ (inductionHypothesis settle)

/-- Each field of a record takes its value from an item. -/
theorem forall₂_of_settlesPositions
    {items : List Entry}
    {values : List (String × Json)}
    (settle : SettlesPositions fields items values) :
    List.Forall₂ (fun field value => value.1 = field.1 ∧ TakesItem items field value.2)
      fields values := by
  induction fields generalizing items values with
  | nil =>
      cases settle
      exact .nil
  | cons field fields inductionHypothesis =>
      cases settle with
      | absent settle =>
          exact .cons ⟨rfl, Or.inr rfl⟩ (inductionHypothesis settle)
      | @present _ _ _ _ item items _ _ settles settle =>
          refine .cons ⟨rfl, Or.inl ⟨item, List.mem_cons_self, settles⟩⟩ ?_
          refine (inductionHypothesis settle).imp fun field value => ?_
          rintro ⟨isNamed, ⟨other, isItem, settlesOther⟩ | isDefault⟩
          · exact ⟨isNamed, Or.inl ⟨other, List.mem_cons_of_mem item isItem, settlesOther⟩⟩
          · exact ⟨isNamed, Or.inr isDefault⟩

/-- Each field has the default of its name. -/
theorem forall₂_of_defaultsMembers
    {defaults : List (String × Json)}
    (areDefaults : DefaultsMembers fields defaults) :
    List.Forall₂
      (fun field value => value.1 = field.1 ∧ IsDefault field value.2) fields defaults := by
  induction fields generalizing defaults with
  | nil =>
      cases areDefaults
      exact .nil
  | cons field fields inductionHypothesis =>
      obtain ⟨default, rest, rfl, isDefault, defaults, areRest⟩ := areDefaults
      exact .cons ⟨rfl, isDefault, defaults⟩ (inductionHypothesis areRest)

/-- Where members have the names of fields, the member of a name belongs to the field. -/
theorem find?_of_forall₂
    {holds : String × Shape × Option Json → Json → Prop}
    {field : String × Shape × Option Json}
    {members : List (String × Json)}
    (belong : List.Forall₂ (fun field value => value.1 = field.1 ∧ holds field value.2)
      fields members)
    (isField : fields.find? (·.1 == name) = some field) :
    ∃ value, (Json.obj members).member? name = some value ∧ field.1 = name ∧ holds field value := by
  induction belong with
  | nil =>
      cases isField
  | @cons first member fields members belongs belong inductionHypothesis =>
      obtain ⟨memberName, value⟩ := member
      obtain ⟨rfl, isHeld⟩ := belongs
      by_cases isFirst : first.1 = name
      · subst isFirst
        have isField : first = field := by
          simpa using isField
        subst isField
        exact ⟨value, by simp [Json.member?], rfl, isHeld⟩
      · have isLater : fields.find? (·.1 == name) = some field := by
          simpa [isFirst] using isField
        obtain ⟨value, isThere, isNamed, isHeld⟩ := inductionHypothesis isLater
        exact ⟨value, by simpa [Json.member?, isFirst] using isThere, isNamed, isHeld⟩

/-- A record that settles provides each of its fields. -/
theorem provides_of_settles
    {title : String}
    {field : String × Shape × Option Json}
    (isField : fields.find? (·.1 == name) = some field)
    (defaults : Defaults (.record title fields) default)
    (settles : Settles (.record title fields) entry value) :
    ∃ fieldDefault fieldValue, default.member? name = some fieldDefault ∧
      value.member? name = some fieldValue ∧ Defaults field.2.1 fieldDefault ∧
        Provides name field.2.1 fieldDefault fieldValue entry := by
  obtain ⟨defaults, rfl, areDefaults⟩ := defaults
  obtain ⟨fieldDefault, hasDefault, rfl, isDefault, defaults⟩ :=
    find?_of_forall₂ (forall₂_of_defaultsMembers areDefaults) isField
  cases settles with
  | positions settle =>
      obtain ⟨fieldValue, hasValue, -, isTaken⟩ :=
        find?_of_forall₂ (forall₂_of_settlesPositions settle) isField
      refine ⟨fieldDefault, fieldValue, hasDefault, hasValue, defaults, ?_⟩
      rcases isTaken with ⟨item, isItem, settles⟩ | isUnlisted
      · exact .item isItem settles
      · rw [isDefault, Option.getD_some] at isUnlisted
        exact .unlisted isUnlisted
  | @members _ _ members _ _ settle =>
      obtain ⟨fieldValue, hasValue, -, isTaken⟩ :=
        find?_of_forall₂ (forall₂_of_settlesMembers settle) isField
      refine ⟨fieldDefault, fieldValue, hasDefault, hasValue, defaults, ?_⟩
      cases isThere : get? members field.1 with
      | some member =>
          rw [isThere] at isTaken
          exact .member isThere isTaken
      | none =>
          rw [isThere, Takes, isDefault, Option.getD_some] at isTaken
          exact .absent isThere isTaken

theorem eq_of_leafAt?_nil
    (isLeaf : shape.leafAt? [] = some kind) :
    shape = kind := by
  cases shape <;> first | cases isLeaf; rfl | cases isLeaf

/-- A leaf below a name is a leaf of a field. -/
theorem exists_of_leafAt?_cons
    (isLeaf : shape.leafAt? (name :: path) = some kind) :
    ∃ title fields field, shape = .record title fields ∧
      fields.find? (·.1 == name) = some field ∧ field.2.1.leafAt? path = some kind := by
  cases shape with
  | record title fields =>
      rw [leafAt?, Option.bind_eq_some_iff] at isLeaf
      obtain ⟨field, isField, isLeaf⟩ := isLeaf
      exact ⟨title, fields, field, rfl, isField, isLeaf⟩
  | _ => cases isLeaf

/-- A leaf has its default or comes from a part of what settles. -/
theorem givesPart_of_settles
    (isLeaf : shape.leafAt? path = some kind)
    (defaults : Defaults shape default)
    (settles : Settles shape entry value) :
    entry.GivesPart kind (default.at? path) (value.at? path) := by
  induction path generalizing shape entry value default with
  | nil =>
      rw [eq_of_leafAt?_nil isLeaf] at settles
      exact Or.inr ⟨entry, value, .whole, rfl, settles⟩
  | cons name path inductionHypothesis =>
      obtain ⟨title, fields, field, rfl, isField, isLeaf⟩ := exists_of_leafAt?_cons isLeaf
      obtain ⟨fieldDefault, fieldValue, hasDefault, hasValue, defaults, provides⟩ :=
        provides_of_settles isField defaults settles
      rw [Json.at?, Json.at?, hasDefault, hasValue, Option.bind_some, Option.bind_some]
      cases provides with
      | item isItem settlesItem =>
          rcases inductionHypothesis isLeaf defaults settlesItem with
            isDefault | ⟨part, leafValue, within, isValue, settlesPart⟩
          · exact Or.inl isDefault
          · exact Or.inr ⟨part, leafValue, .item isItem within, isValue, settlesPart⟩
      | unlisted isDefault => exact Or.inl (congrArg (Json.at? path) isDefault)
      | member isMember settlesMember =>
          rcases inductionHypothesis isLeaf defaults settlesMember with
            isDefault | ⟨part, leafValue, within, isValue, settlesPart⟩
          · exact Or.inl isDefault
          · exact Or.inr ⟨part, leafValue, .member isMember within, isValue, settlesPart⟩
      | absent isAbsent isDefault => exact Or.inl (congrArg (Json.at? path) isDefault)

/-- A leaf has what the entry that is seen there settles as, and its default if there is
none. -/
theorem gives_of_settles
    (isLeaf : shape.leafAt? path = some kind)
    (defaults : Defaults shape default)
    (settles : Settles shape entry value) :
    (sight path (some entry)).Gives kind (default.at? path) (value.at? path) := by
  induction path generalizing shape entry value default with
  | nil =>
      rw [eq_of_leafAt?_nil isLeaf] at settles
      exact .found rfl settles
  | cons name path inductionHypothesis =>
      have givesPart := givesPart_of_settles isLeaf defaults settles
      obtain ⟨title, fields, field, rfl, isField, isLeaf⟩ := exists_of_leafAt?_cons isLeaf
      obtain ⟨fieldDefault, fieldValue, hasDefault, hasValue, defaults, provides⟩ :=
        provides_of_settles isField defaults settles
      cases provides with
      | item isItem settlesItem => exact .listed givesPart
      | unlisted isDefault => exact .listed givesPart
      | member isMember settlesMember =>
          rw [Json.at?, Json.at?, hasDefault, hasValue, Option.bind_some, Option.bind_some, sight,
            isMember]
          exact inductionHypothesis isLeaf defaults settlesMember
      | absent isAbsent isDefault =>
          rw [Json.at?, Json.at?, hasDefault, hasValue, Option.bind_some, Option.bind_some, sight,
            isAbsent, sight_none, isDefault]
          exact .missing rfl

end Reading

/-! ## Single values -/

/-- A table is no single value. -/
theorem not_settles_table
    {shape : Shape}
    {value : Json}
    {members : List (String × Entry)}
    {origin : Option String}
    (settles : Settles shape (.table members origin) value)
    (isSingle : shape.isSingle) :
    False :=
  match settles with
  | .text isRead => by cases isRead
  | .path isRead => by cases isRead
  | .truth isRead => by cases isRead
  | .unsigned isRead => by cases isRead
  | .real isRead => by cases isRead
  | .something _ settles => not_settles_table settles isSingle
  | .members _ => by cases isSingle

mutual

/-- An entry settles as one single value. -/
theorem Settles.unique
    {shape : Shape}
    {entry : Entry}
    {value other : Json}
    (first : Settles shape entry value)
    (second : Settles shape entry other)
    (isSingle : shape.isSingle) :
    value = other := by
  cases first with
  | text isRead =>
      cases second with
      | text isAlso => rw [Except.ok.inj (isRead.symm.trans isAlso)]
  | path isRead =>
      cases second with
      | path isAlso => rw [Except.ok.inj (isRead.symm.trans isAlso)]
  | truth isRead =>
      cases second with
      | truth isAlso => rw [Except.ok.inj (isRead.symm.trans isAlso)]
  | unsigned isRead =>
      cases second with
      | unsigned isAlso => rw [Except.ok.inj (isRead.symm.trans isAlso)]
  | real isRead =>
      cases second with
      | real isAlso => rw [Except.ok.inj (isRead.symm.trans isAlso)]
  | nothing =>
      cases second with
      | nothing => rfl
      | something isThere settles => exact absurd rfl (isThere _)
  | something isThere settles =>
      cases second with
      | nothing => exact absurd rfl (isThere _)
      | something _ alsoSettles => exact settles.unique alsoSettles isSingle
  | list settle =>
      cases second with
      | list alsoSettle => rw [settle.unique alsoSettle isSingle]
  | positions settle => cases isSingle
  | members settle => cases isSingle

theorem SettlesItems.unique
    {inner : Shape}
    {items : List Entry}
    {values others : List Json}
    (first : SettlesItems inner items values)
    (second : SettlesItems inner items others)
    (isSingle : inner.isSingle) :
    values = others := by
  cases first with
  | nil =>
      cases second
      rfl
  | cons settles settle =>
      cases second with
      | cons alsoSettles alsoSettle =>
          rw [settles.unique alsoSettles isSingle, settle.unique alsoSettle isSingle]

end

/-- A whole number within the bounds is read as it is. -/
theorem natCast_eq_of_asBounded
    {bound number : Nat}
    {whole : Int}
    {origin : Option String}
    (isRead : (scalar (.whole whole) origin).asBounded bound = .ok number) :
    (number : Int) = whole := by
  obtain ⟨natural, isNatural, isBounded⟩ := exists_of_bind isRead
  have isNumber : natural = number := by
    split at isBounded <;> cases isBounded
    rfl
  subst isNumber
  dsimp only [asNatural] at isNatural
  split at isNatural <;> cases isNatural
  omega

mutual

/-- What is written as it is wanted settles as it is written. -/
theorem Settles.eq_of_asWritten
    {shape : Shape}
    {entry : Entry}
    {value written : Json}
    (settles : Settles shape entry value)
    (isWritten : shape.asWritten? entry = some written) :
    value = written := by
  cases settles with
  | @text entry content isRead =>
      rcases entry with ⟨_ | _ | _ | _ | _, origin⟩ | _ | _ <;> cases isWritten
      cases isRead
      rfl
  | @path entry content isRead =>
      rcases entry with ⟨_ | _ | _ | _ | _, origin⟩ | _ | _ <;> cases isWritten
      cases isRead
      rfl
  | @truth entry truth isRead =>
      rcases entry with ⟨_ | _ | _ | _ | _, origin⟩ | _ | _ <;> cases isWritten
      cases isRead
      rfl
  | @unsigned bound number name entry isRead =>
      rcases entry with ⟨_ | _ | _ | _ | _, origin⟩ | _ | _ <;> cases isWritten
      rw [natCast_eq_of_asBounded isRead]
  | @real entry number isRead =>
      rcases entry with ⟨_ | _ | _ | _ | _, origin⟩ | _ | _ <;> cases isWritten <;> cases isRead <;>
        rfl
  | nothing =>
      cases isWritten
      rfl
  | something isThere settles =>
      refine settles.eq_of_asWritten ?_
      rwa [asWritten?] at isWritten
      exact isThere
  | list settle =>
      rw [asWritten?, Option.map_eq_some_iff] at isWritten
      obtain ⟨others, areWritten, rfl⟩ := isWritten
      rw [settle.eq_of_asWritten areWritten]
  | positions settle =>
      cases isWritten
  | members settle =>
      cases isWritten

theorem SettlesItems.eq_of_asWritten
    {inner : Shape}
    {items : List Entry}
    {values others : List Json}
    (settle : SettlesItems inner items values)
    (areWritten : items.mapM (asWritten? inner) = some others) :
    values = others := by
  cases settle with
  | nil =>
      cases areWritten
      rfl
  | cons settles settle =>
      rw [List.mapM_cons, Option.bind_eq_bind, Option.bind_eq_some_iff] at areWritten
      obtain ⟨written, isWritten, isRest⟩ := areWritten
      rw [Option.bind_eq_bind, Option.bind_eq_some_iff] at isRest
      obtain ⟨others, areWritten, isWhole⟩ := isRest
      cases isWhole
      rw [settles.eq_of_asWritten isWritten, settle.eq_of_asWritten areWritten]

end

end Entry

namespace Settings

open Json.Shape

/-! ## The leaves of the settings -/

variable {leaf : List String × Shape} {entry : Entry} {settings : Settings}

theorem leafAt?_of_mem_leaves :
    ∀ leaf ∈ shape.leaves, shape.leafAt? leaf.1 = some leaf.2 := by
  simp [shape, resilienceShape, withDefaults, AppSettings.shape, ModelSettings.shape,
    ToolSettings.shape, BatchSettings.shape, BreakerSettings.shape, RetrySettings.shape,
    RunSettings.shape, leaves, leavesIn, leafAt?, u32, u64, size]

example :
    shape.leaves.map (fun leaf => ".".intercalate leaf.1) =
      [ "app.name", "app.log_level", "llm.provider", "llm.model", "llm.base_url",
        "llm.request_timeout_secs", "tools.tool_timeout_secs", "tools.docs_dir", "tools.loki_url",
        "tools.prometheus_url", "tools.database_path", "tools.allowed_tables",
        "parallel.max_concurrency", "parallel.timeout_secs", "parallel.continue_on_error",
        "parallel.batch_pause_ms", "resilience.circuit_breaker.max_failures",
        "resilience.circuit_breaker.reset_timeout_secs",
        "resilience.circuit_breaker.half_open_attempts", "resilience.retry.max_attempts",
        "resilience.retry.base_delay_ms", "resilience.retry.max_delay_ms",
        "resilience.retry.multiplier", "orchestrator.max_iterations", "orchestrator.agent_type" ] := by
  decide +kernel

theorem isSingle_of_mem_leaves : ∀ leaf ∈ shape.leaves, leaf.2.isSingle := by
  decide

/-- Settings are in full form what their entry settles as. -/
theorem settles_of_ofEntry
    (isRead : ofEntry entry = .ok settings) :
    Entry.Settles shape entry settings.toJson := by
  obtain ⟨value, isSettled, rfl⟩ := exists_of_map isRead
  have isShallow : shape.depth ≤ 64 := by
    decide
  have settles : Entry.Settles shape entry value :=
    Entry.settles_of_settle shape entry _ (by omega) isSettled
  rw [toJson_ofFull (Entry.full_of_settles defaults_shape settles)]
  exact settles

/-- What is seen on the way to a leaf says which value the settings have there. -/
theorem gives_of_ofEntry
    (isRead : ofEntry entry = .ok settings)
    (isLeaf : leaf ∈ shape.leaves) :
    (Entry.sight leaf.1 (some entry)).Gives leaf.2 (({} : Settings).toJson.at? leaf.1)
      (settings.toJson.at? leaf.1) :=
  Entry.gives_of_settles (leafAt?_of_mem_leaves leaf isLeaf) defaults_shape
    (settles_of_ofEntry isRead)

end Settings

end Runbook
