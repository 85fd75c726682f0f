import Mathlib.Data.Int.Notation
import SkqBench.Lib.BigEndian
import SkqBench.Lib.Memory

/-!
# `GenerateKeyFromInt`: the keys of the RocksDB workload

A key is the big-endian encoding of a number in its first bytes, at most eight of them, and the
character `0` in the others.  Keys of eight bytes or more are ordered as the numbers are (`keyOK`).
-/

namespace Skq.Pingpong

open Lib

/-- `IS_LITTLE_ENDIAN`. -/
def isLittleEndian : Bool := true

/-- Byte `i` of the loop. -/
def keyByte (v : UInt64) (bytesToFill i : ℕ) : UInt8 :=
  ((v >>> UInt64.ofNat ((bytesToFill - i - 1) <<< 3)) &&& 0xFF).toUInt8

/-- `GenerateKeyFromInt` for a key at `start`; `num_keys` is not used. -/
def generateKeyFromInt (v : UInt64) (_numKeys keySize : ℤ) (start : ℕ) (m : Mem UInt8) : Mem UInt8 :=
  let pos := start
  let bytesToFill := (min (keySize - ((pos : ℤ) - start)) 8).toNat
  let m :=
    if isLittleEndian then
      (List.range bytesToFill).foldl (fun m i => m.write (pos + i) [keyByte v bytesToFill i]) m
    else m.write pos ((leBytes 8 v.toNat).take bytesToFill)
  let pos := pos + bytesToFill
  if keySize > (pos : ℤ) - start then
    m.write pos (List.replicate (keySize - ((pos : ℤ) - start)).toNat ('0' : Char).toUInt8)
  else m

/-- The key of `k` bytes that is generated for `v`. -/
def keyOf (k : ℕ) (v : UInt64) (numKeys : ℤ) (start : ℕ) (m : Mem UInt8) : List UInt8 :=
  (generateKeyFromInt v numKeys k start m).read start k

/-! ## The loop -/

variable {v w : UInt64} {n i k start : ℕ} {numKeys : ℤ} {m m' : Mem UInt8}

/-- A byte of the loop is a digit of the number. -/
lemma keyByte_eq (hn : n ≤ 8) : keyByte v n i = UInt8.ofNat (v.toNat / 256 ^ (n - 1 - i)) := by
  have hshift : n - i - 1 < 8 := by omega
  have hmask : (0xFF : UInt64).toNat = 2 ^ 8 - 1 := rfl
  have hpow : 2 ^ ((n - i - 1) * 2 ^ 3) = 256 ^ (n - 1 - i) := by
    rw [Nat.mul_comm, Nat.pow_mul, Nat.sub_right_comm, show 2 ^ 2 ^ 3 = 256 by decide]
  refine UInt8.toNat_inj.1 ?_
  rw [keyByte, UInt64.toNat_toUInt8, UInt64.toNat_and, UInt64.toNat_shiftRight, UInt8.toNat_ofNat',
    hmask, Nat.and_two_pow_sub_one_eq_mod, UInt64.toNat_ofNat', Nat.shiftLeft_eq,
    Nat.mod_eq_of_lt (show (n - i - 1) * 2 ^ 3 < 2 ^ 64 by omega),
    Nat.mod_eq_of_lt (show (n - i - 1) * 2 ^ 3 < 64 by omega), Nat.shiftRight_eq_div_pow, hpow]
  exact Nat.mod_mod _ _

/-- Bytes that are stored one after the other. -/
lemma write_foldl {α : Type*} (m : Mem α) (a : ℕ) (f : ℕ → α) (n : ℕ) :
    (List.range n).foldl (fun m i => m.write (a + i) [f i]) m =
      m.write a ((List.range n).map f) := by
  induction n with
  | zero => simp
  | succ n ih =>
    rw [List.range_succ, List.foldl_append, ih, List.map_append, Mem.write_append]
    simp

/-- **What is stored** is the number and then the padding. -/
lemma generateKeyFromInt_eq : generateKeyFromInt v numKeys k start m =
    m.write start (beBytes (min k 8) v.toNat ++ List.replicate (k - 8) ('0' : Char).toUInt8) := by
  have hfill : (min ((k : ℤ) - ((start : ℤ) - start)) 8).toNat = min k 8 := by omega
  have hbytes : (List.range (min k 8)).map (keyByte v (min k 8)) = beBytes (min k 8) v.toNat := by
    refine List.ext_getElem? fun i => ?_
    rcases Nat.lt_or_ge i (min k 8) with hi | hi
    · rw [List.getElem?_map, List.getElem?_range hi, Option.map_some, getElem?_beBytes _ _ hi,
        keyByte_eq (Nat.min_le_right k 8)]
    · rw [List.getElem?_eq_none (by simpa using hi), List.getElem?_eq_none (by simpa using hi)]
  simp only [generateKeyFromInt, isLittleEndian, if_true, hfill, write_foldl, hbytes]
  rw [Mem.write_append, length_beBytes]
  split
  · next hlong =>
    rw [show ((k : ℤ) - (((start + min k 8 : ℕ) : ℤ) - start)).toNat = k - 8 by omega]
  · next hshort =>
    rw [show k - 8 = 0 by omega]
    simp

/-- **The key.** -/
lemma keyOf_eq : keyOf k v numKeys start m =
    beBytes (min k 8) v.toNat ++ List.replicate (k - 8) ('0' : Char).toUInt8 := by
  have hlen : (beBytes (min k 8) v.toNat ++
      List.replicate (k - 8) ('0' : Char).toUInt8).length = k := by
    rw [List.length_append, length_beBytes, List.length_replicate]
    omega
  have hread := m.read_write start
    (beBytes (min k 8) v.toNat ++ List.replicate (k - 8) ('0' : Char).toUInt8)
  rwa [hlen, ← generateKeyFromInt_eq] at hread

/-! ## What is asked of the keys -/

/-- * `written`: the key does not depend on what was in the buffer.
* `injective`, `order`: with at least eight bytes the keys are ordered as the numbers.
* `short`: with fewer bytes they are the low digits of the number. -/
structure KeyOK (k : ℕ) (numKeys : ℤ) (start : ℕ) : Prop where
  written : ∀ v m m', keyOf k v numKeys start m = keyOf k v numKeys start m'
  injective : 8 ≤ k → ∀ v w m m',
    keyOf k v numKeys start m = keyOf k w numKeys start m' → v = w
  order : 8 ≤ k → ∀ v w m m',
    v < w ↔ keyOf k v numKeys start m < keyOf k w numKeys start m'
  short : k < 8 → ∀ v m,
    keyOf k v numKeys start m = beBytes k (v.toNat % 2 ^ (8 * k))

/-- **Keys are ordered as the numbers they are made of.** -/
theorem keyOK (k : ℕ) (numKeys : ℤ) (start : ℕ) : KeyOK k numKeys start := by
  have horder : 8 ≤ k → ∀ v w m m',
      v < w ↔ keyOf k v numKeys start m < keyOf k w numKeys start m' := by
    intro hk v w m m'
    rw [keyOf_eq, keyOf_eq, Nat.min_eq_right hk, append_lt_append_right _ (by simp),
      beBytes_lt 8 v.toNat_lt w.toNat_lt, UInt64.lt_iff_toNat_lt]
  refine ⟨fun v m m' => ?_, fun hk v w m m' heq => ?_, horder, fun hk v m => ?_⟩
  · rw [keyOf_eq, keyOf_eq]
  · have hle : ∀ v w m m', keyOf k v numKeys start m = keyOf k w numKeys start m' → w ≤ v := by
      intro v w m m' heq
      refine UInt64.not_lt.1 fun hlt => ?_
      have hkey := (horder hk v w m m').1 hlt
      rw [heq] at hkey
      exact List.lt_irrefl _ hkey
    exact UInt64.le_antisymm (hle w v m' m heq.symm) (hle v w m m' heq)
  · rw [keyOf_eq, Nat.min_eq_left (by omega), show k - 8 = 0 by omega, List.replicate_zero,
      List.append_nil, Nat.pow_mul]
    exact (beBytes_mod k v.toNat (Nat.le_refl k)).symm

end Skq.Pingpong
