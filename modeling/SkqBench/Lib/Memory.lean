import Mathlib.Algebra.Group.Nat.Defs
import Mathlib.Data.List.Basic

/-!
# Memory cells in a row

A memory maps addresses to cells.  `read` takes the cells of a range, `write` stores a list of
cells, `move` copies a range onto another one that may overlap it.  What is written is read back
(`read_write`), what lies elsewhere is not changed (`read_write_of_disjoint`), and a write in two
parts is one write (`write_append`).

`leBytes` is a number in a row of bytes, the least significant one first.
-/

namespace Skq.Lib

variable {α : Type*}

/-- The content of a memory. -/
abbrev Mem (α : Type*) := ℕ → α

namespace Mem

/-- The `n` cells from address `a` on. -/
def read (m : Mem α) (a n : ℕ) : List α := (List.range n).map fun i => m (a + i)

/-- Store `l` from address `a` on. -/
def write (m : Mem α) (a : ℕ) (l : List α) : Mem α := fun x =>
  if a ≤ x then (l[x - a]?).getD (m x) else m x

/-- Copy `n` cells from `src` to `dst`; the ranges may overlap. -/
def move (m : Mem α) (dst src n : ℕ) : Mem α := m.write dst (m.read src n)

variable (m : Mem α) (a b n k : ℕ) (l l' : List α)

@[simp] lemma length_read : (m.read a n).length = n := by simp [read]

@[simp] lemma read_zero : m.read a 0 = [] := rfl

@[simp] lemma write_nil : m.write a [] = m := by
  funext x
  simp [write]

lemma read_add : m.read a (n + k) = m.read a n ++ m.read (a + n) k := by
  simp [read, List.range_add, Function.comp_def, Nat.add_assoc]

lemma read_congr {m' : Mem α} (h : ∀ i < n, m (a + i) = m' (a + i)) : m.read a n = m'.read a n :=
  List.map_congr_left fun i hi => h i (List.mem_range.1 hi)

/-- What is written is read back. -/
@[simp] lemma read_write : (m.write a l).read a l.length = l := by
  refine List.ext_getElem (by simp) fun i h₁ h₂ => ?_
  simp [read, write, h₂]

/-- What lies elsewhere is not changed. -/
lemma read_write_of_disjoint (h : b + n ≤ a ∨ a + l.length ≤ b) :
    (m.write a l).read b n = m.read b n := by
  refine read_congr _ _ _ fun i hi => ?_
  simp only [write]
  split
  · next hle =>
    rw [List.getElem?_eq_none (by omega)]
    rfl
  · rfl

/-- A write in two parts. -/
lemma write_append : m.write a (l ++ l') = (m.write a l).write (a + l.length) l' := by
  funext x
  simp only [write]
  by_cases ha : a ≤ x
  · by_cases hl : x - a < l.length
    · rw [if_pos ha, if_neg (by omega), if_pos ha, List.getElem?_append_left hl]
    · rw [if_pos ha, if_pos (by omega), if_pos ha, List.getElem?_append_right (by omega),
        List.getElem?_eq_none (show l.length ≤ x - a by omega), Nat.sub_add_eq]
      rfl
  · rw [if_neg ha, if_neg (by omega), if_neg ha]

end Mem

/-! ## Numbers in memory -/

/-- The `k` low bytes of `v`, the least significant one first. -/
def leBytes (k v : ℕ) : List UInt8 := (List.range k).map fun i => UInt8.ofNat (v / 256 ^ i)

/-- The number such bytes stand for. -/
def ofLeBytes : List UInt8 → ℕ
  | [] => 0
  | b :: l => b.toNat + 256 * ofLeBytes l

@[simp] lemma length_leBytes (k v : ℕ) : (leBytes k v).length = k := by simp [leBytes]

lemma leBytes_succ (k v : ℕ) : leBytes (k + 1) v = UInt8.ofNat v :: leBytes k (v / 256) := by
  simp [leBytes, List.range_succ_eq_map, Function.comp_def, Nat.pow_succ', Nat.div_div_eq_div_mul]

@[simp] lemma ofLeBytes_leBytes (k v : ℕ) : ofLeBytes (leBytes k v) = v % 256 ^ k := by
  induction k generalizing v with
  | zero => simp [leBytes, ofLeBytes, Nat.mod_one]
  | succ k ih =>
    rw [leBytes_succ, ofLeBytes, ih, Nat.pow_succ', Nat.mod_mul, UInt8.toNat_ofNat']

/-- Bytes are determined by their number. -/
lemma leBytes_ofLeBytes (l : List UInt8) : leBytes l.length (ofLeBytes l) = l := by
  induction l with
  | nil => rfl
  | cons b l ih =>
    have hb := b.toNat_lt
    have hdiv : (b.toNat + 256 * ofLeBytes l) / 256 = ofLeBytes l := by omega
    rw [List.length_cons, leBytes_succ, ofLeBytes, hdiv, ih]
    congr 1
    refine UInt8.toNat_inj.1 ?_
    rw [UInt8.toNat_ofNat']
    omega

end Skq.Lib
