import Mathlib.Algebra.BigOperators.Group.List.Basic
import Mathlib.Algebra.Order.BigOperators.Group.List
import Mathlib.Algebra.Order.Ring.Int

/-!
# Search in a row of intervals

`bisect` halves an index range until one index is left: a place where the test still holds and
where it does not hold any more one further on (`bisect_spec`).  Nothing is asked of the test
elsewhere, so that ties do not matter.

Weights in a row cut a line into intervals that begin at the sums of the weights before.  Intervals
of weight 0 are empty, and every point lies in one interval at most (`sum_take_unique`).
-/

namespace Skq.Lib

/-! ## Halving -/

/-- Halve the range from `lo` to `hi`; `none` without fuel, or where the test has no answer. -/
def bisect (right : ℕ → Option Bool) : ℕ → ℕ → ℕ → Option ℕ
  | 0, _, _ => none
  | fuel + 1, lo, hi =>
    if lo + 1 < hi then
      match right (lo + (hi - lo) / 2) with
      | none => none
      | some true => bisect right fuel (lo + (hi - lo) / 2) hi
      | some false => bisect right fuel lo (lo + (hi - lo) / 2)
    else some lo

/-- **The search ends where the test changes.**  At `lo` it holds; at `hi` it does not, unless this
is the end. -/
lemma bisect_spec {right : ℕ → Option Bool} {P : ℕ → Prop} {n : ℕ}
    (hright : ∀ i < n, ∃ b, right i = some b ∧ (b = true ↔ P i)) {fuel lo hi : ℕ} (hlt : lo < hi)
    (hfuel : hi - lo ≤ fuel) (hlo : P lo) (hn : hi ≤ n) (hhi : hi = n ∨ ¬ P hi) :
    ∃ i, bisect right fuel lo hi = some i ∧ i < n ∧ P i ∧ (i + 1 = n ∨ ¬ P (i + 1)) := by
  induction fuel generalizing lo hi with
  | zero => omega
  | succ fuel ih =>
    rw [bisect]
    split
    · next hwide =>
      obtain ⟨b, hb, hP⟩ := hright (lo + (hi - lo) / 2) (by omega)
      rw [hb]
      cases b with
      | true => exact ih (by omega) (by omega) (hP.1 rfl) hn hhi
      | false =>
        have hnot : ¬ P (lo + (hi - lo) / 2) := fun h => Bool.false_ne_true (hP.2 h)
        exact ih (by omega) (by omega) hlo (by omega) (.inr hnot)
    · next hnarrow =>
      obtain rfl : hi = lo + 1 := by omega
      exact ⟨lo, rfl, by omega, hlo, hhi⟩

/-! ## Weights in a row -/

variable {w : List ℤ} {i j : ℕ} {r x y : ℤ}

lemma sum_take_mono (hw : ∀ x ∈ w, 0 ≤ x) (hij : i ≤ j) : (w.take i).sum ≤ (w.take j).sum := by
  obtain ⟨d, rfl⟩ := Nat.exists_eq_add_of_le hij
  rw [List.take_add, List.sum_append]
  have hd : 0 ≤ ((w.drop i).take d).sum :=
    List.sum_nonneg fun x hx => hw x (List.mem_of_mem_drop (List.mem_of_mem_take hx))
  omega

lemma sum_take_succ (hx : w[i]? = some x) : (w.take (i + 1)).sum = (w.take i).sum + x := by
  obtain ⟨hi, rfl⟩ := List.getElem?_eq_some_iff.1 hx
  exact List.sum_take_succ w i hi

/-- Every point lies in one interval at most. -/
lemma sum_take_unique (hw : ∀ x ∈ w, 0 ≤ x) (hx : w[i]? = some x) (hy : w[j]? = some y)
    (hi : (w.take i).sum ≤ r ∧ r < (w.take i).sum + x)
    (hj : (w.take j).sum ≤ r ∧ r < (w.take j).sum + y) : i = j := by
  rcases Nat.lt_trichotomy i j with hlt | heq | hlt
  · have hle := sum_take_mono hw (show i + 1 ≤ j from hlt)
    rw [sum_take_succ hx] at hle
    omega
  · exact heq
  · have hle := sum_take_mono hw (show j + 1 ≤ i from hlt)
    rw [sum_take_succ hy] at hle
    omega

end Skq.Lib
