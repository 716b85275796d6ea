import Mathlib.Algebra.BigOperators.Group.Finset.Piecewise
import Mathlib.Algebra.Order.Field.Basic
import Mathlib.Data.Rat.Cast.Order
import Mathlib.Tactic.NormNum
import Mathlib.Tactic.Positivity

/-! Counting the elements of a list into `n` buckets, one element after another, and the
share of some of them as a percentage. -/

namespace Histogram

variable {α : Type*} (n : ℕ) (bucket : α → ℕ)

/-- How many elements of the list fall into each bucket. -/
def histogram (l : List α) : List ℕ := (List.range n).map fun w => l.countP fun a => bucket a = w

theorem getElem?_histogram {w : ℕ} (hw : w < n) (l : List α) :
    (histogram n bucket l)[w]? = some (l.countP fun a => bucket a = w) := by
  simp [histogram, hw]

/-- The next element raises the counter of its bucket. -/
theorem histogram_snoc (l : List α) (a : α) :
    histogram n bucket (l ++ [a]) = (histogram n bucket l).modify (bucket a) (· + 1) := by
  refine List.ext_getElem? fun w => ?_
  rw [List.getElem?_modify]
  by_cases hw : w < n
  · rw [getElem?_histogram n bucket hw, getElem?_histogram n bucket hw]
    by_cases ha : bucket a = w <;> simp [ha]
  · simp [histogram, hw]

/-- Where every element has a bucket, the counters add up to the length of the list. -/
theorem sum_histogram {l : List α} (h : ∀ a ∈ l, bucket a < n) :
    (histogram n bucket l).sum = l.length := by
  induction l with
  | nil => simp [histogram]
  | cons a l ih =>
    rw [List.forall_mem_cons] at h
    have hone : ((List.range n).map fun w => if bucket a = w then 1 else 0).sum = 1 := by
      change ∑ w ∈ Finset.range n, (if bucket a = w then 1 else 0) = 1
      rw [Finset.sum_ite_eq, if_pos (Finset.mem_range.2 h.1)]
    have hrest := ih h.2
    simp only [histogram, List.countP_cons, List.sum_map_add, decide_eq_true_eq, hone] at hrest ⊢
    rw [hrest, List.length_cons]

end Histogram

/-- `part * 100 / whole`, a quotient that has no value when `whole` is zero -/
def percentage (part whole : ℕ) : Option ℚ :=
  if whole = 0 then none else some (part * 100 / whole)

theorem percentage_le {part whole : ℕ} (hpos : whole ≠ 0) (h : part ≤ whole) :
    ∃ y, percentage part whole = some y ∧ 0 ≤ y ∧ y ≤ 100 := by
  refine ⟨_, if_neg hpos, by positivity, ?_⟩
  have hwhole : (0 : ℚ) < whole := by exact_mod_cast Nat.pos_of_ne_zero hpos
  have hpart : (part : ℚ) ≤ whole := by exact_mod_cast h
  rw [div_le_iff₀ hwhole, mul_comm]
  exact mul_le_mul_of_nonneg_left hpart (by norm_num)
