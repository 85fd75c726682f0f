import Mathlib.Data.Fintype.Card
import Mathlib.Algebra.Order.BigOperators.Group.Finset

/-!
# Sums in which one summand changes

When one summand of a finite sum changes, the sum changes by as much (`sum_move`).  `threadsAt f p` is
the number of threads `t` whose state `f t` satisfies `p`.  When one thread moves, its own contribution
changes (`threadsAt_update`).
-/

namespace Skq.Lib

/-- Two sums that differ in one summand. -/
lemma sum_move {ι M : Type*} [DecidableEq ι] [AddCommMonoid M] {s : Finset ι} {f g : ι → M} {i : ι}
    (hi : i ∈ s) (h : ∀ j ∈ s, j ≠ i → g j = f j) :
    ∑ j ∈ s, g j + f i = ∑ j ∈ s, f j + g i := by
  have hrest : ∀ j ∈ s.erase i, g j = f j := fun j hj =>
    h j (Finset.mem_of_mem_erase hj) (Finset.ne_of_mem_erase hj)
  rw [← Finset.add_sum_erase _ _ hi, ← Finset.add_sum_erase _ f hi, Finset.sum_congr rfl hrest,
    add_comm (g i), add_right_comm, add_comm (f i), add_right_comm]

variable {τ α : Type*} [Fintype τ] [DecidableEq τ]

/-- The number of threads whose state satisfies `p`. -/
def threadsAt (f : τ → α) (p : α → Bool) : ℕ := ∑ t, if p (f t) then 1 else 0

omit [DecidableEq τ] in
lemma threadsAt_eq_zero {f : τ → α} {p : α → Bool} (h : ∀ t, p (f t) = false) :
    threadsAt f p = 0 :=
  Finset.sum_eq_zero fun t _ => by simp [h t]

/-- One thread moves. -/
lemma threadsAt_update (f : τ → α) (p : α → Bool) (t : τ) (x : α) :
    threadsAt (Function.update f t x) p + (if p (f t) then 1 else 0) =
      threadsAt f p + if p x then 1 else 0 := by
  have hsum := sum_move (f := fun u => if p (f u) then 1 else 0)
    (g := fun u => if p (Function.update f t x u) then 1 else 0) (Finset.mem_univ t)
    fun u _ hu => by simp only [Function.update_of_ne hu]
  rw [Function.update_self] at hsum
  exact hsum

/-- A thread at the point counts. -/
lemma threadsAt_pos {f : τ → α} {p : α → Bool} {t : τ} (h : p (f t) = true) :
    0 < threadsAt f p := by
  rw [threadsAt, ← Finset.add_sum_erase _ _ (Finset.mem_univ t), if_pos h]
  omega

omit [DecidableEq τ] in
/-- If as many threads are at the point as there are, all are. -/
lemma forall_of_card_le {f : τ → α} {p : α → Bool} (h : Fintype.card τ ≤ threadsAt f p) (t : τ) :
    p (f t) = true := by
  by_contra hnot
  have hlt : threadsAt f p < ∑ _u : τ, 1 := by
    refine Finset.sum_lt_sum (fun u _ => ?_) ⟨t, Finset.mem_univ t, ?_⟩
    · split <;> omega
    · simp [hnot]
  rw [← Finset.card_eq_sum_ones, Finset.card_univ] at hlt
  omega

end Skq.Lib
