import Mathlib.Data.List.Sort
import Mathlib.Order.Basic

namespace Runbook

/-!
# Sorting that keeps the order of ties

A list is sorted by a key of its items, and items with the same key stay in the order in which
they were.  So a list whose items are in some order beforehand is sorted by the key first and
by that order second.
-/

variable {α κ : Type} [LinearOrder κ]

/-- An item is not behind another one by their keys. -/
def notBehind (key : α → κ) (first second : α) : Bool := decide (key first ≤ key second)

theorem notBehind_trans
    (key : α → κ)
    (first second third : α)
    (early : notBehind key first second = true)
    (late : notBehind key second third = true) :
    notBehind key first third = true :=
  decide_eq_true ((of_decide_eq_true early).trans (of_decide_eq_true late))

theorem notBehind_total
    (key : α → κ)
    (first second : α) :
    (notBehind key first second || notBehind key second first) = true := by
  simpa [notBehind] using le_total (key first) (key second)

variable {key : α → κ}

/-- The items with one key are the same after sorting, in the same order. -/
theorem filter_mergeSort
    (items : List α)
    (value : κ) :
    ((items.mergeSort (notBehind key)).filter fun item => key item = value) =
      items.filter fun item => key item = value := by
  have permuted := List.mergeSort_perm items (notBehind key)
  have tied :
      (items.filter fun item => key item = value).Pairwise
        fun first second => notBehind key first second = true := by
    rw [List.pairwise_filter]
    refine List.pairwise_of_forall ?_
    intro first second isFirst isSecond
    rw [decide_eq_true_eq] at isFirst isSecond
    exact decide_eq_true (isFirst.trans isSecond.symm).le
  have kept :
      (items.filter fun item => key item = value).Sublist
        ((items.mergeSort (notBehind key)).filter fun item => key item = value) := by
    have within :=
      (List.sublist_mergeSort (notBehind_trans key) (notBehind_total key) tied List.filter_sublist).filter
        fun item => decide (key item = value)
    simpa only [List.filter_filter, Bool.and_self] using within
  exact (kept.eq_of_length (permuted.filter _).length_eq.symm).symm

/-- A list in some order is sorted by the key, and items with the same key by that order. -/
theorem pairwise_mergeSort_of_pairwise
    {order : α → α → Prop}
    {items : List α}
    (ordered : items.Pairwise order) :
    (items.mergeSort (notBehind key)).Pairwise fun first second =>
      key first < key second ∨ key first = key second ∧ order first second := by
  have sorted := List.pairwise_mergeSort (notBehind_trans key) (notBehind_total key) items
  rw [List.pairwise_iff_forall_sublist] at sorted ordered ⊢
  intro first second within
  have atMost : key first ≤ key second := of_decide_eq_true (sorted within)
  rcases atMost.lt_or_eq with less | tied
  · exact Or.inl less
  · -- The two are among the items with their key, and these are as they were.
    have amongTied := within.filter fun item => decide (key item = key second)
    rw [filter_mergeSort] at amongTied
    have bothTied :
        [first, second].filter (fun item => decide (key item = key second)) = [first, second] := by
      simp [tied]
    rw [bothTied] at amongTied
    exact Or.inr ⟨tied, ordered (amongTied.trans List.filter_sublist)⟩

end Runbook
