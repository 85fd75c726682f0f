import Mathlib.Algebra.Ring.Int.Parity
import SkqBench.Pingpong.Util

/-!
# `get_next_cpu`: the processors of the workers

`ppd`, the threads of `mem` and `scaled` have the same function: a cursor goes on by two and wraps
by remainder.  Call `k` returns `2 * k` modulo the number of processors (`nthCpu_eq`).  With an odd
number of them this is the order of the comment in the source, first every other processor and then
those between, but the last one of the first round has no successor; with an even number the second
round is the first one again (`inside_iff`, `once_iff`).
-/

namespace Skq.Pingpong

/-! ## The function -/

/-- The static variables `ncpu` and `cur`. -/
structure CpuCursor where
  ncpu : ℤ
  cur : ℤ

/-- Their initial values. -/
def CpuCursor.init : CpuCursor := ⟨0, 0⟩

/-- `get_next_cpu`; `numcpu` is the answer of `get_ncpu`. -/
def getNextCpu (numcpu : ℤ) (s : CpuCursor) : ℤ × CpuCursor :=
  let s := if s.ncpu = 0 then { s with ncpu := numcpu } else s
  if s.ncpu = 1 then (0, s)
  else
    let s := if s.cur ≥ s.ncpu then { s with cur := s.cur.tmod s.ncpu } else s
    (s.cur, { s with cur := toInt (s.cur + 2) })

/-- The static variables after `k` calls. -/
def cursorAfter (numcpu : ℤ) : ℕ → CpuCursor
  | 0 => .init
  | k + 1 => (getNextCpu numcpu (cursorAfter numcpu k)).2

/-- What call `k` returns, the first one being call 0. -/
def nthCpu (numcpu : ℤ) (k : ℕ) : ℤ := (getNextCpu numcpu (cursorAfter numcpu k)).1

/-- The processors `create_workers` puts into the set of worker `k`. -/
def cpuset (numcpu : ℤ) (k : ℕ) : List ℤ := [nthCpu numcpu k, nthCpu numcpu k + 1]

/-- What is asked of the calls.
* `inside`: the set of every worker has only processors that exist.
* `once`: the first calls, as many as there are processors, return each one at most once. -/
structure CpuOK (numcpu : ℤ) : Prop where
  inside : ∀ k, ∀ cpu ∈ cpuset numcpu k, 0 ≤ cpu ∧ cpu < numcpu
  once : ∀ i j : ℕ, i < numcpu → j < numcpu → nthCpu numcpu i = nthCpu numcpu j → i = j

/-! ## What it returns -/

variable {n : ℤ} {k : ℕ}

/-- A call with a cursor that is not negative. -/
lemma getNextCpu_eq {cur : ℤ} (hn : 2 ≤ n) (h0 : 0 ≤ cur) :
    getNextCpu n ⟨n, cur⟩ = (cur % n, ⟨n, toInt (cur % n + 2)⟩) := by
  have hmod : (if cur ≥ n then ({ ncpu := n, cur := cur.tmod n } : CpuCursor) else ⟨n, cur⟩) =
      ⟨n, cur % n⟩ := by
    split
    · rw [Int.tmod_eq_emod_of_nonneg h0]
    · rw [Int.emod_eq_of_lt h0 (by omega)]
  simp only [getNextCpu, if_neg (show ¬ n = 0 by omega), if_neg (show ¬ n = 1 by omega), hmod]

lemma getNextCpu_init (hn : 2 ≤ n) : getNextCpu n .init = getNextCpu n ⟨n, 0⟩ := by
  simp [getNextCpu, CpuCursor.init, show ¬ n = 0 by omega]

/-- Call `k`.  The sums before it fit: there are fewer processors than an `int` can count, or the
first round is not over. -/
lemma getNextCpu_after (hn : 2 ≤ n) (hfit : n + 1 < 2 ^ 31 ∨ 2 * (k : ℤ) < 2 ^ 31) :
    getNextCpu n (cursorAfter n k) = (2 * (k : ℤ) % n, ⟨n, toInt (2 * (k : ℤ) % n + 2)⟩) := by
  induction k with
  | zero =>
    rw [cursorAfter, getNextCpu_init hn, getNextCpu_eq hn (Int.le_refl 0)]
    simp
  | succ k ih =>
    have hpos := Int.emod_nonneg (2 * (k : ℤ)) (show n ≠ 0 by omega)
    have hsum : 2 * (k : ℤ) % n + 2 < 2 ^ 31 := by
      have hlt := Int.emod_lt_of_pos (2 * (k : ℤ)) (show 0 < n by omega)
      push_cast at hfit
      rcases Int.lt_or_le (2 * (k : ℤ)) n with hk | hk
      · rw [Int.emod_eq_of_lt (by omega) hk] at hlt ⊢
        omega
      · omega
    have hmod : (2 * (k : ℤ) % n + 2) % n = 2 * ((k + 1 : ℕ) : ℤ) % n := by
      rw [Int.emod_add_emod]
      congr 1
    rw [cursorAfter, ih (by push_cast at hfit; omega), toInt_of_lt (by omega) hsum,
      getNextCpu_eq hn (by omega), hmod]

/-- **What call `k` returns.** -/
lemma nthCpu_eq (hn : 2 ≤ n) (hfit : n + 1 < 2 ^ 31 ∨ 2 * (k : ℤ) < 2 ^ 31) :
    nthCpu n k = 2 * (k : ℤ) % n := by
  rw [nthCpu, getNextCpu_after hn hfit]

/-! ## What is wrong with it -/

/-- The sets have only processors that exist iff their number is even. -/
lemma inside_iff (hn : 2 ≤ n) (hint : n < 2 ^ 31) :
    (∀ k, ∀ cpu ∈ cpuset n k, 0 ≤ cpu ∧ cpu < n) ↔ Even n := by
  rw [Int.even_iff]
  constructor
  · intro h
    by_contra hodd
    -- the last call of the first round
    obtain ⟨k, hk⟩ : ∃ k : ℕ, n = 2 * k + 1 := ⟨((n - 1) / 2).toNat, by omega⟩
    have hret : nthCpu n k = 2 * (k : ℤ) := by
      rw [nthCpu_eq hn (.inr (by omega)), Int.emod_eq_of_lt (by omega) (by omega)]
    have hlt := (h k (nthCpu n k + 1) (by simp [cpuset])).2
    omega
  · intro heven k cpu hcpu
    have hret := nthCpu_eq (k := k) hn (.inl (by omega))
    have hpos := Int.emod_nonneg (2 * (k : ℤ)) (show n ≠ 0 by omega)
    have hlt := Int.emod_lt_of_pos (2 * (k : ℤ)) (show 0 < n by omega)
    have hparity : 2 * (k : ℤ) % n % 2 = 0 := by
      rw [Int.emod_emod_of_dvd _ (Int.dvd_of_emod_eq_zero heven), Int.mul_emod_right]
    simp only [cpuset, List.mem_cons, List.not_mem_nil, or_false] at hcpu
    omega

/-- The calls of the first `n` return different processors iff `n` is odd. -/
lemma once_iff (hn : 2 ≤ n) (hint : n + 1 < 2 ^ 31) :
    (∀ i j : ℕ, i < n → j < n → nthCpu n i = nthCpu n j → i = j) ↔ Odd n := by
  rw [← Int.not_even_iff_odd, Int.even_iff]
  constructor
  · intro h heven
    -- the second round begins as the first one
    obtain ⟨k, hk⟩ : ∃ k : ℕ, n = 2 * k := ⟨(n / 2).toNat, by omega⟩
    have hagain : nthCpu n 0 = nthCpu n k := by
      rw [nthCpu_eq hn (.inl hint), nthCpu_eq hn (.inl hint), ← hk, Int.emod_self]
      rfl
    have hzero := h 0 k (by omega) (by omega) hagain
    omega
  · intro hodd i j hi hj heq
    -- the second round has the odd numbers
    have hround : ∀ k : ℕ, k < n → 2 * (k : ℤ) % n =
        if 2 * (k : ℤ) < n then 2 * (k : ℤ) else 2 * (k : ℤ) - n := by
      intro k hk
      split
      · exact Int.emod_eq_of_lt (by omega) (by omega)
      · rw [← Int.sub_emod_right, Int.emod_eq_of_lt (by omega) (by omega)]
    rw [nthCpu_eq hn (.inl hint), nthCpu_eq hn (.inl hint), hround i hi, hround j hj] at heq
    split at heq <;> split at heq <;> omega

/-- **The calls are never as they should be**: with an odd number of processors a worker is given
one that does not exist, with an even number one is given twice while others are not given at all. -/
theorem not_cpuOK (hn : 2 ≤ n) (hint : n < 2 ^ 31) : ¬ CpuOK n := by
  intro h
  have heven := (inside_iff hn hint).1 h.inside
  have hodd := (once_iff hn (by rw [Int.even_iff] at heven; omega)).1 h.once
  exact Int.not_even_iff_odd.2 hodd heven

/-- Three processors: the second worker is to run on processor 3. -/
theorem not_cpuOK_three : ¬ CpuOK 3 := not_cpuOK (by decide) (by decide)

/-- Four processors: the third call returns 0 again. -/
theorem not_cpuOK_four : nthCpu 4 0 = 0 ∧ nthCpu 4 1 = 2 ∧ nthCpu 4 2 = 0 ∧ ¬ CpuOK 4 := by
  refine ⟨by decide, by decide, by decide, fun h => ?_⟩
  exact absurd (h.once 0 2 (by decide) (by decide) (by decide)) (by decide)

end Skq.Pingpong
