import Mathlib.Order.MinMax
import Runbook.Context
import Runbook.Proofs.Batch.Course

namespace Runbook

/-!
# How contexts end

A context that has ended stays so.  Being late may still turn into being cancelled, and
nothing else changes, whether time passes or the context is cancelled.
-/

/-- How a context stands may stay the same, or the context ends. -/
inductive ContextGoes : Option Fault → Option Fault → Prop where
  | stays {ended : Option Fault} :
      ContextGoes ended ended
  | ends {ended : Option Fault} {fault : Fault} :
      ContextEnds ended fault →
      ContextGoes ended (some fault)

namespace ContextTree

/-- The earlier of two instants has come if one of them has. -/
theorem hasCome_earliest
    (now : Instant)
    (first second : Option Instant) :
    hasCome now (earliest first second) = (hasCome now first || hasCome now second) := by
  cases first with
  | none =>
      simp [earliest, hasCome]
  | some firstInstant =>
      cases second with
      | none =>
          simp [earliest, hasCome]
      | some secondInstant =>
          rw [Bool.eq_iff_iff]
          simp only [earliest, hasCome, Bool.or_eq_true, decide_eq_true_eq]
          exact min_le_iff

/-- What has come does not go away. -/
theorem hasCome_of_le
    {now later : Instant}
    (passes : now ≤ later)
    {limit : Option Instant}
    (come : hasCome now limit = true) :
    hasCome later limit = true := by
  cases limit with
  | none =>
      cases come
  | some instant =>
      simp only [hasCome, decide_eq_true_eq] at come ⊢
      exact Nat.le_trans come passes

@[simp] theorem size_cancel
    (tree : ContextTree)
    (id : Nat)
    (from_ : Instant) :
    (tree.cancel id from_).size = tree.size := by
  simp [cancel, size]

/-- A context of the tree that is cancelled from now on has ended as cancelled. -/
theorem ended_cancel_self
    {tree : ContextTree}
    {id : Nat}
    (inTree : id < tree.size)
    (now : Instant) :
    (tree.cancel id now).ended id now = some .cancelled := by
  obtain ⟨context, found⟩ : ∃ context, tree.contexts[id]? = some context :=
    ⟨_, List.getElem?_eq_getElem inTree⟩
  have changed :
      (tree.cancel id now).contexts[id]? =
        some { context with
          cancelledFrom := earliest context.cancelledFrom (some now) } := by
    simp [cancel, found]
  have come :
      hasCome now (earliest context.cancelledFrom (some now)) = true := by
    rw [hasCome_earliest]
    simp [hasCome]
  have isCancelled : (tree.cancel id now).isCancelled id now = true := by
    rw [ContextTree.isCancelled, cancelledFrom?]
    simp only [changed]
    split
    · exact come
    · split
      · rw [hasCome_earliest, come]
        rfl
      · exact come
  rw [ended, if_pos isCancelled]

/-- As time passes, a context stands as before or ends. -/
theorem goes_of_le
    (tree : ContextTree)
    (id : Nat)
    {now later : Instant}
    (passes : now ≤ later) :
    ContextGoes (tree.ended id now) (tree.ended id later) := by
  unfold ended
  by_cases cancelled : tree.isCancelled id now = true
  · have stillCancelled : tree.isCancelled id later = true :=
      hasCome_of_le passes cancelled
    simpa [cancelled, stillCancelled] using ContextGoes.stays
  · by_cases late : hasCome now (tree.deadline? id) = true
    · have stillLate := hasCome_of_le passes late
      by_cases laterCancelled : tree.isCancelled id later = true
      · simpa [cancelled, late, laterCancelled] using ContextGoes.ends .overtaken
      · simpa [cancelled, late, laterCancelled, stillLate] using ContextGoes.stays
    · by_cases laterCancelled : tree.isCancelled id later = true
      · simpa [cancelled, late, laterCancelled] using
          ContextGoes.ends (ContextEnds.first rfl)
      · by_cases laterLate : hasCome later (tree.deadline? id) = true
        · simpa [cancelled, late, laterCancelled, laterLate] using
            ContextGoes.ends (ContextEnds.first rfl)
        · simpa [cancelled, late, laterCancelled, laterLate] using ContextGoes.stays

/-- Cancelling a context that has not ended ends it, and one that has ended is cancelled
at most. -/
theorem goes_cancel
    {tree : ContextTree}
    {id : Nat}
    (inTree : id < tree.size)
    (now : Instant) :
    ContextGoes (tree.ended id now) ((tree.cancel id now).ended id now) := by
  rw [ended_cancel_self inTree]
  unfold ended
  split
  · exact .stays
  · split
    · exact .ends .overtaken
    · exact .ends (.first rfl)

/-- A context has ended when the instant has come at which it does. -/
theorem ended_of_hasCome_endsAt?
    {tree : ContextTree}
    {id : Nat}
    {now : Instant}
    (come : hasCome now (tree.endsAt? id) = true) :
    tree.ended id now ≠ none := by
  rw [endsAt?, hasCome_earliest, Bool.or_eq_true] at come
  unfold ended
  by_cases cancelled : tree.isCancelled id now = true
  · simp [cancelled]
  · have late : hasCome now (tree.deadline? id) = true :=
      come.resolve_left cancelled
    simp [late, cancelled]

/-- A context that has ended has come to the instant at which it does. -/
theorem hasCome_endsAt?_of_ended
    {tree : ContextTree}
    {id : Nat}
    {now : Instant}
    (hasEnded : tree.ended id now ≠ none) :
    hasCome now (tree.endsAt? id) = true := by
  rw [endsAt?, hasCome_earliest, Bool.or_eq_true]
  unfold ended at hasEnded
  by_cases cancelled : tree.isCancelled id now = true
  · exact Or.inl cancelled
  · by_cases late : hasCome now (tree.deadline? id) = true
    · exact Or.inr late
    · simp [cancelled, late] at hasEnded

section Below

variable {tree : ContextTree} {id parent : Nat}

@[simp] theorem size_below
    (tree : ContextTree)
    (parent : Nat)
    (limit : Option Instant) :
    (tree.below parent limit).size = tree.size + 1 :=
  List.length_append

theorem getElem?_below
    (inTree : id < tree.size)
    (parent : Nat)
    (limit : Option Instant) :
    (tree.below parent limit).contexts[id]? = tree.contexts[id]? :=
  List.getElem?_append_left inTree

theorem getElem?_below_self
    (tree : ContextTree)
    (parent : Nat)
    (limit : Option Instant) :
    (tree.below parent limit).contexts[tree.size]? =
      some { parent := some parent, deadline := earliest limit (tree.deadline? parent) } :=
  List.getElem?_concat_length

/-- Contexts that are there already are cancelled as before when another one is added. -/
theorem cancelledFrom?_below
    (inTree : id < tree.size)
    (parent : Nat)
    (limit : Option Instant) :
    (tree.below parent limit).cancelledFrom? id = tree.cancelledFrom? id := by
  induction id using Nat.strongRecOn with
  | ind id inductionHypothesis =>
      rw [cancelledFrom?, cancelledFrom?]
      simp only [getElem?_below inTree]
      split
      · rfl
      · split
        · rfl
        · split
          · rename_i isBefore
            rw [inductionHypothesis _ isBefore (isBefore.trans inTree)]
          · rfl

theorem deadline?_below
    (inTree : id < tree.size)
    (parent : Nat)
    (limit : Option Instant) :
    (tree.below parent limit).deadline? id = tree.deadline? id := by
  rw [deadline?, getElem?_below inTree, deadline?]

/-- Contexts that are there already stand as before when another one is added. -/
theorem ended_below
    (inTree : id < tree.size)
    (parent : Nat)
    (limit : Option Instant)
    (now : Instant) :
    (tree.below parent limit).ended id now = tree.ended id now := by
  rw [ended, isCancelled, cancelledFrom?_below inTree, deadline?_below inTree, ended, isCancelled]

/-- Only a context of the tree ends. -/
theorem lt_size_of_ended
    {now : Instant}
    {fault : Fault}
    (hasEnded : tree.ended id now = some fault) :
    id < tree.size := by
  by_contra notInTree
  have isAbsent : tree.contexts[id]? = none :=
    List.getElem?_eq_none (Nat.le_of_not_lt notInTree)
  have notCancelled : tree.isCancelled id now = false := by
    rw [isCancelled, cancelledFrom?]
    simp only [isAbsent]
    rfl
  simp [ended, notCancelled, deadline?, isAbsent, hasCome] at hasEnded

/-- A context below one that has ended has ended for the same reason. -/
theorem ended_below_self
    {now : Instant}
    {fault : Fault}
    (hasEnded : tree.ended parent now = some fault)
    (limit : Option Instant) :
    (tree.below parent limit).ended tree.size now = some fault := by
  have inTree := lt_size_of_ended hasEnded
  have isLast := getElem?_below_self tree parent limit
  have sameCancelled :
      (tree.below parent limit).isCancelled tree.size now = tree.isCancelled parent now := by
    rw [isCancelled, cancelledFrom?]
    simp only [isLast, inTree, if_true, cancelledFrom?_below inTree]
    rfl
  have isDeadline :
      (tree.below parent limit).deadline? tree.size =
        earliest limit (tree.deadline? parent) := by
    rw [deadline?, isLast, Option.bind_some]
  unfold ended at hasEnded ⊢
  rw [sameCancelled, isDeadline, hasCome_earliest]
  by_cases cancelled : tree.isCancelled parent now = true
  · simpa [cancelled] using hasEnded
  · by_cases late : hasCome now (tree.deadline? parent) = true
    · simpa [cancelled, late] using hasEnded
    · simp [cancelled, late] at hasEnded

end Below

/-- Contexts end for reasons of contexts. -/
theorem endsContext_of_ended
    {tree : ContextTree}
    {id : Nat}
    {now : Instant}
    {fault : Fault}
    (hasEnded : tree.ended id now = some fault) :
    fault.endsContext = true := by
  unfold ended at hasEnded
  split at hasEnded
  · cases hasEnded
    rfl
  · split at hasEnded
    · cases hasEnded
      rfl
    · cases hasEnded

end ContextTree

end Runbook
