import Mathlib.Algebra.Group.Nat.Defs
import Mathlib.Data.List.Basic

/-!
# Numbers in a row of bytes, the most significant one first

`beBytes` depends on the number modulo what the bytes can hold (`beBytes_mod`).  On smaller numbers
the lexicographic order of the bytes is the order of the numbers (`beBytes_lt`), so that the bytes
determine the number.
-/

namespace Skq.Lib

/-- The `k` low bytes of `v`, the most significant one first. -/
def beBytes : ℕ → ℕ → List UInt8
  | 0, _ => []
  | k + 1, v => UInt8.ofNat (v / 256 ^ k) :: beBytes k v

variable (k v w : ℕ)

@[simp] lemma length_beBytes : (beBytes k v).length = k := by
  induction k with
  | zero => rfl
  | succ k ih => rw [beBytes, List.length_cons, ih]

lemma getElem?_beBytes {i : ℕ} (hi : i < k) :
    (beBytes k v)[i]? = some (UInt8.ofNat (v / 256 ^ (k - 1 - i))) := by
  induction k generalizing i with
  | zero => omega
  | succ k ih =>
    cases i with
    | zero => rfl
    | succ i =>
      rw [beBytes, List.getElem?_cons_succ, ih (by omega),
        show k + 1 - 1 - (i + 1) = k - 1 - i by omega]

/-- The higher digits do not matter. -/
lemma beBytes_mod {n : ℕ} (hn : k ≤ n) : beBytes k (v % 256 ^ n) = beBytes k v := by
  induction k with
  | zero => rfl
  | succ k ih =>
    have hdiv : v % 256 ^ n / 256 ^ k % 256 = v / 256 ^ k % 256 := by
      obtain ⟨d, rfl⟩ := Nat.exists_eq_add_of_le hn
      rw [Nat.add_assoc, Nat.pow_add, Nat.mod_mul_right_div_self, Nat.add_comm 1 d, Nat.pow_succ',
        Nat.mod_mul_right_mod]
    rw [beBytes, beBytes, ih (by omega)]
    congr 1
    refine UInt8.toNat_inj.1 ?_
    rw [UInt8.toNat_ofNat', UInt8.toNat_ofNat']
    exact hdiv

/-- Numbers are compared by their quotients, and then by their remainders. -/
lemma lt_iff_div_mod {b : ℕ} : v < w ↔ v / b < w / b ∨ v / b = w / b ∧ v % b < w % b := by
  have hdv := Nat.div_add_mod v b
  have hdw := Nat.div_add_mod w b
  constructor
  · intro hlt
    rcases Nat.lt_or_eq_of_le (Nat.div_le_div_right (c := b) (Nat.le_of_lt hlt)) with hdiv | hdiv
    · exact .inl hdiv
    · rw [hdiv] at hdv
      exact .inr ⟨hdiv, by omega⟩
  · rintro (hdiv | ⟨hdiv, hmod⟩)
    · exact Nat.lt_of_div_lt_div hdiv
    · rw [hdiv] at hdv
      omega

/-- **The order of the bytes is the order of the numbers.** -/
lemma beBytes_lt {v w : ℕ} (hv : v < 256 ^ k) (hw : w < 256 ^ k) :
    beBytes k v < beBytes k w ↔ v < w := by
  induction k generalizing v w with
  | zero =>
    rw [Nat.pow_zero] at hv hw
    simp [beBytes]
    omega
  | succ k ih =>
    have hpos : 0 < 256 ^ k := Nat.pow_pos (by decide)
    rw [Nat.pow_succ] at hv hw
    have hv' : v / 256 ^ k < 256 := (Nat.div_lt_iff_lt_mul hpos).2 (by rwa [Nat.mul_comm])
    have hw' : w / 256 ^ k < 256 := (Nat.div_lt_iff_lt_mul hpos).2 (by rwa [Nat.mul_comm])
    have hlow := ih (Nat.mod_lt v hpos) (Nat.mod_lt w hpos)
    rw [beBytes_mod k v (Nat.le_refl k), beBytes_mod k w (Nat.le_refl k)] at hlow
    rw [beBytes, beBytes, List.cons_lt_cons_iff, hlow, UInt8.lt_iff_toNat_lt, ← UInt8.toNat_inj,
      UInt8.toNat_ofNat', UInt8.toNat_ofNat', Nat.mod_eq_of_lt hv', Nat.mod_eq_of_lt hw']
    exact (lt_iff_div_mod v w).symm

/-- An end that is common to both does not matter. -/
lemma append_lt_append_right {a b : List UInt8} (p : List UInt8) (h : a.length = b.length) :
    a ++ p < b ++ p ↔ a < b := by
  induction a generalizing b with
  | nil =>
    obtain rfl := List.length_eq_zero_iff.1 h.symm
    simp [List.lt_irrefl]
  | cons x a ih =>
    cases b with
    | nil => cases h
    | cons y b =>
      rw [List.cons_append, List.cons_append, List.cons_lt_cons_iff, List.cons_lt_cons_iff,
        ih (Nat.succ.inj h)]

end Skq.Lib
