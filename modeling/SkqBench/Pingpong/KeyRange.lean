import Mathlib.Algebra.Order.Floor.Ring
import Mathlib.Data.Rat.Floor
import Mathlib.Data.UInt
import Mathlib.Tactic.Linarith
import SkqBench.Lib.Bisect
import SkqBench.Pingpong.KqConn

/-!
# `GenerateTwoTermExpKeys`: the key ranges of the RocksDB workload

`InitiateExpDistribution` scales the probabilities of the key ranges to integers, shuffles the
ranges, and lets each one start where the one before ends.  `DistGetKeyID` looks up the range a
random number falls into and picks a key of it.  Ranges of probability 0 are in the table, as empty
intervals; the search never selects one (`tableOK`).

The key within the range is a remainder.  Its dividend is a random number of 64 bits converted to a
signed type, so that the remainder may be negative (`keyIdOK_iff`).

The exponential terms are a parameter with rational values.  The counts are integers: with 30 ranges
of probability at most 1 they are far below `2 ^ 63` (`buildUnits_le`).
-/

namespace Skq.Pingpong

open Lib

/-! ## The code -/

/-- `KEYRANGE_NUM` and `TOTAL_KEYS`. -/
def keyrangeNum : ℤ := 30
def totalKeys : ℤ := 50000000

/-- A `KeyrangeUnit`. -/
structure KeyrangeUnit where
  keyrangeStart : ℤ
  keyrangeAccess : ℤ
  keyrangeKeys : ℤ
deriving DecidableEq

/-- The fields of `GenerateTwoTermExpKeys` that are read. -/
structure GenerateTwoTermExpKeys where
  keyrangeRandMax : ℤ
  keyrangeSize : ℤ
  keyrangeSet : List KeyrangeUnit

/-- Step 1: the probability of a key range; a very small one is taken as 0. -/
def keyrangeP (term : ℕ → ℚ) (pfx : ℕ) : ℚ :=
  if term pfx < 1 / 10 ^ 16 then 0 else term pfx

/-- Step 2: the first positive probability decides about `amplify`. -/
def amplifyFor (amplify : ℤ) (p : ℚ) : ℤ := if amplify = 0 ∧ p > 0 then ⌊1 / p⌋ + 1 else amplify

/-- Step 3: the share of a key range. -/
def accessFor (amplify : ℤ) (p : ℚ) : ℤ := if 0 ≥ p then 0 else ⌊amplify * p⌋

/-- The loop over the key ranges, from `pfx` down to 1, with the value of `keyrange_start` after
it. -/
def buildUnits (term : ℕ → ℚ) (size : ℤ) : ℕ → ℤ → ℤ → List KeyrangeUnit × ℤ
  | 0, _, start => ([], start)
  | pfx + 1, amplify, start =>
    let p := keyrangeP term (pfx + 1)
    let amplify := amplifyFor amplify p
    let access := accessFor amplify p
    let rest := buildUnits term size pfx amplify (start + access)
    (⟨start, access, size⟩ :: rest.1, rest.2)

/-- `std::swap` after the assertion that both indices are inside. -/
def swapUnits (set : List KeyrangeUnit) (i pos : ℕ) : Option (List KeyrangeUnit) :=
  match set[i]?, set[pos]? with
  | some x, some y => some ((set.set i y).set pos x)
  | _, _ => none

/-- Step 4: the shuffle; `draws` are the values of the generator. -/
def shuffleUnits (num : ℤ) (draws : ℕ → UInt64) (set : List KeyrangeUnit) :
    Option (List KeyrangeUnit) :=
  (List.range num.toNat).foldlM (fun set i => swapUnits set i ((draws i).toNat % num.toNat)) set

/-- Step 5: the start positions after the shuffle. -/
def restart : ℤ → List KeyrangeUnit → List KeyrangeUnit
  | _, [] => []
  | offset, unit :: set =>
    { unit with keyrangeStart := offset } :: restart (offset + unit.keyrangeAccess) set

/-- The number of key ranges; `num` stands for `KEYRANGE_NUM`. -/
def rangesOf (num : ℤ) : ℤ := if num ≤ 0 then 1 else num

/-- `InitiateExpDistribution`; `none` if an assertion fails. -/
def initiateExpDistribution (num total : ℤ) (term : ℕ → ℚ) (draws : ℕ → UInt64) :
    Option GenerateTwoTermExpKeys :=
  let size := total.tdiv (rangesOf num)
  let built := buildUnits term size (rangesOf num).toNat 0 0
  match shuffleUnits num draws built.1 with
  | none => none
  | some set => some ⟨built.2, size, restart 0 set⟩

namespace GenerateTwoTermExpKeys

/-- The binary search of `DistGetKeyID`. -/
def keyrangeId (g : GenerateTwoTermExpKeys) (keyrangeRand : ℤ) : Option ℕ :=
  bisect (fun mid => g.keyrangeSet[mid]?.map fun unit => !decide (keyrangeRand < unit.keyrangeStart))
    (g.keyrangeSet.length + 1) 0 g.keyrangeSet.length

end GenerateTwoTermExpKeys

/-! ## The shuffle -/

variable {num total start size : ℤ} {term : ℕ → ℚ} {draws : ℕ → UInt64}
  {set set' : List KeyrangeUnit} {g : GenerateTwoTermExpKeys}

/-- The number of accesses and of keys, which do not change. -/
def KeyrangeUnit.share (unit : KeyrangeUnit) : ℤ × ℤ := (unit.keyrangeAccess, unit.keyrangeKeys)

lemma swapUnits_perm {i pos : ℕ} (hi : i < set.length) (hpos : pos < set.length) :
    ∃ set', swapUnits set i pos = some set' ∧ set'.Perm set := by
  refine ⟨(set.set i set[pos]).set pos set[i], ?_, List.set_set_perm hi hpos⟩
  rw [swapUnits, List.getElem?_eq_getElem hi, List.getElem?_eq_getElem hpos]

/-- The shuffle permutes. -/
lemma shuffleUnits_perm (draws : ℕ → UInt64) (hlen : num.toNat ≤ set.length) :
    ∃ set', shuffleUnits num draws set = some set' ∧ set'.Perm set := by
  have hloop : ∀ l : List ℕ, (∀ i ∈ l, i < num.toNat) → ∀ set : List KeyrangeUnit,
      num.toNat ≤ set.length → ∃ set',
        l.foldlM (fun set i => swapUnits set i ((draws i).toNat % num.toNat)) set = some set' ∧
          set'.Perm set := by
    intro l
    induction l with
    | nil => exact fun _ set _ => ⟨set, rfl, .refl set⟩
    | cons i l ih =>
      intro hl set hlen
      have hi := hl i List.mem_cons_self
      have hmod := Nat.mod_lt (draws i).toNat (show num.toNat > 0 by omega)
      obtain ⟨set₁, hswap, hperm₁⟩ := swapUnits_perm (show i < set.length by omega)
        (show (draws i).toNat % num.toNat < set.length by omega)
      obtain ⟨set₂, hrest, hperm₂⟩ := ih (fun i hi => hl i (List.mem_cons_of_mem _ hi)) set₁
        (by rwa [hperm₁.length_eq])
      exact ⟨set₂, by rw [List.foldlM_cons, hswap]; exact hrest, hperm₂.trans hperm₁⟩
  exact hloop _ (fun i hi => List.mem_range.1 hi) set hlen

/-! ## The counts -/

lemma keyrangeP_pos {pfx : ℕ} : 0 < keyrangeP term pfx ↔ 1 / 10 ^ 16 ≤ term pfx := by
  rw [keyrangeP]
  split
  · next hsmall => exact iff_of_false (lt_irrefl 0) (not_le.2 hsmall)
  · next hlarge => exact iff_of_true (lt_of_lt_of_le (by norm_num) (not_lt.1 hlarge)) (not_lt.1 hlarge)

lemma amplifyFor_nonneg {amplify : ℤ} {p : ℚ} (ha : 0 ≤ amplify) : 0 ≤ amplifyFor amplify p := by
  rw [amplifyFor]
  split
  · next h =>
    have hdiv : 0 ≤ ⌊1 / p⌋ := Int.floor_nonneg.2 (one_div_nonneg.2 h.2.le)
    omega
  · exact ha

lemma accessFor_nonneg {amplify : ℤ} {p : ℚ} (ha : 0 ≤ amplify) : 0 ≤ accessFor amplify p := by
  rw [accessFor]
  split
  · exact le_refl 0
  · next h => exact Int.floor_nonneg.2 (mul_nonneg (by exact_mod_cast ha) (not_le.1 h).le)

/-- The range that decides about `amplify` has a share. -/
lemma one_le_access {p : ℚ} (hp : 0 < p) : 1 ≤ accessFor (amplifyFor 0 p) p := by
  have hlt : 1 / p < ((⌊1 / p⌋ + 1 : ℤ) : ℚ) := by
    push_cast
    exact Int.lt_floor_add_one _
  have hle := mul_le_mul_of_nonneg_right hlt.le hp.le
  rw [one_div_mul_cancel hp.ne'] at hle
  rw [accessFor, if_neg (not_le.2 hp), amplifyFor, if_pos ⟨rfl, hp⟩, Int.le_floor]
  exact_mod_cast hle

/-- The sum of the shares. -/
def accesses (set : List KeyrangeUnit) : ℤ := (set.map KeyrangeUnit.keyrangeAccess).sum

@[simp] lemma accesses_cons (unit : KeyrangeUnit) (set : List KeyrangeUnit) :
    accesses (unit :: set) = unit.keyrangeAccess + accesses set := List.sum_cons

/-- What the loop builds: as many units as there are key ranges, with shares that are not
negative. -/
structure Built (size start : ℤ) (pfx : ℕ) (res : List KeyrangeUnit × ℤ) : Prop where
  length : res.1.length = pfx
  nonneg : ∀ unit ∈ res.1, 0 ≤ unit.keyrangeAccess
  keys : ∀ unit ∈ res.1, unit.keyrangeKeys = size
  total : res.2 = start + accesses res.1

lemma built (term : ℕ → ℚ) (size start : ℤ) {amplify : ℤ} (ha : 0 ≤ amplify) (pfx : ℕ) :
    Built size start pfx (buildUnits term size pfx amplify start) := by
  induction pfx generalizing amplify start with
  | zero => exact ⟨rfl, by simp [buildUnits], by simp [buildUnits], by simp [buildUnits, accesses]⟩
  | succ pfx ih =>
    rw [buildUnits]
    generalize keyrangeP term (pfx + 1) = p
    have h := ih (start + accessFor (amplifyFor amplify p) p) (amplifyFor_nonneg (p := p) ha)
    refine ⟨?_, ?_, ?_, ?_⟩
    · rw [List.length_cons, h.length]
    · simpa using ⟨accessFor_nonneg (amplifyFor_nonneg ha), h.nonneg⟩
    · simpa using h.keys
    · rw [h.total, accesses_cons, add_assoc]

lemma accesses_nonneg (h : ∀ unit ∈ set, 0 ≤ unit.keyrangeAccess) : 0 ≤ accesses set :=
  List.sum_nonneg (by simpa using h)

/-- There is something to select iff one of the probabilities is not taken as 0. -/
lemma accesses_pos (term : ℕ → ℚ) (size start : ℤ) (pfx : ℕ) :
    0 < accesses (buildUnits term size pfx 0 start).1 ↔
      ∃ i, 1 ≤ i ∧ i ≤ pfx ∧ 1 / 10 ^ 16 ≤ term i := by
  induction pfx generalizing start with
  | zero =>
    refine iff_of_false (lt_irrefl 0) ?_
    rintro ⟨i, h1, h0, -⟩
    omega
  | succ pfx ih =>
    rw [buildUnits, accesses_cons]
    by_cases hpos : 0 < keyrangeP term (pfx + 1)
    · -- this range decides about `amplify`
      have hone := one_le_access hpos
      have hterm := keyrangeP_pos.1 hpos
      generalize keyrangeP term (pfx + 1) = p at hone ⊢
      have hrest := accesses_nonneg (built term size (start + accessFor (amplifyFor 0 p) p)
        (amplifyFor_nonneg (p := p) (le_refl 0)) pfx).nonneg
      dsimp only
      exact iff_of_true (by omega) ⟨pfx + 1, by omega, le_refl _, hterm⟩
    · have hacc : accessFor (amplifyFor 0 (keyrangeP term (pfx + 1))) (keyrangeP term (pfx + 1)) = 0 :=
        if_pos (not_lt.1 hpos)
      have hamp : amplifyFor 0 (keyrangeP term (pfx + 1)) = 0 := if_neg fun h => hpos h.2
      dsimp only
      rw [hacc, hamp, zero_add, ih]
      constructor
      · rintro ⟨i, h1, hi, hterm⟩
        exact ⟨i, h1, by omega, hterm⟩
      · rintro ⟨i, h1, hi, hterm⟩
        rcases Nat.lt_or_eq_of_le hi with hlt | rfl
        · exact ⟨i, h1, by omega, hterm⟩
        · exact absurd (keyrangeP_pos.2 hterm) hpos

/-- Nothing overflows: `amplify` is at most `10 ^ 16 + 1`, and so is every share. -/
lemma amplifyFor_le {amplify : ℤ} {pfx : ℕ} (ha : amplify ≤ 10 ^ 16 + 1) :
    amplifyFor amplify (keyrangeP term pfx) ≤ 10 ^ 16 + 1 := by
  rw [amplifyFor]
  split
  · next h =>
    have hlarge := keyrangeP_pos.1 h.2
    have hp : 1 / 10 ^ 16 ≤ keyrangeP term pfx := by
      rwa [keyrangeP, if_neg (not_lt.2 hlarge)]
    have hdiv : 1 / keyrangeP term pfx ≤ 10 ^ 16 := by
      rw [div_le_iff₀ h.2]
      linarith
    have hfloor : ⌊1 / keyrangeP term pfx⌋ ≤ 10 ^ 16 := by
      have hle := Int.floor_le_floor hdiv
      rwa [show ((10 : ℚ) ^ 16) = ((10 ^ 16 : ℤ) : ℚ) by norm_num, Int.floor_intCast] at hle
    omega
  · exact ha

lemma accessFor_le {amplify : ℤ} {p : ℚ} (ha : 0 ≤ amplify) (hp : p ≤ 1) :
    accessFor amplify p ≤ amplify := by
  rw [accessFor]
  split
  · exact ha
  · have hle : (amplify : ℚ) * p ≤ amplify := mul_le_of_le_one_right (by exact_mod_cast ha) hp
    have hfloor := Int.floor_le_floor hle
    rwa [Int.floor_intCast] at hfloor

lemma buildUnits_le (size start : ℤ) (hterm : ∀ i, term i ≤ 1) {amplify : ℤ} (h0 : 0 ≤ amplify)
    (ha : amplify ≤ 10 ^ 16 + 1) (pfx : ℕ) :
    accesses (buildUnits term size pfx amplify start).1 ≤ (10 ^ 16 + 1) * pfx := by
  induction pfx generalizing amplify start with
  | zero => simp [buildUnits, accesses]
  | succ pfx ih =>
    have hp : keyrangeP term (pfx + 1) ≤ 1 := by
      rw [keyrangeP]
      split
      · exact zero_le_one
      · exact hterm _
    have ha' : amplifyFor amplify (keyrangeP term (pfx + 1)) ≤ 10 ^ 16 + 1 := amplifyFor_le ha
    have h0' := amplifyFor_nonneg (p := keyrangeP term (pfx + 1)) h0
    have hacc := accessFor_le h0' hp
    rw [buildUnits, accesses_cons]
    generalize keyrangeP term (pfx + 1) = p at *
    have hrest := ih (start + accessFor (amplifyFor amplify p) p) h0' ha'
    dsimp only
    push_cast
    omega

/-! ## The table -/

/-- What `keyrange_set_` is after `InitiateExpDistribution`. -/
structure Table (g : GenerateTwoTermExpKeys) : Prop where
  starts : ∀ i unit, g.keyrangeSet[i]? = some unit →
    unit.keyrangeStart = ((g.keyrangeSet.map KeyrangeUnit.keyrangeAccess).take i).sum
  nonneg : ∀ unit ∈ g.keyrangeSet, 0 ≤ unit.keyrangeAccess
  randMax : g.keyrangeRandMax = accesses g.keyrangeSet

lemma restart_share (offset : ℤ) (set : List KeyrangeUnit) :
    (restart offset set).map KeyrangeUnit.share = set.map KeyrangeUnit.share := by
  induction set generalizing offset with
  | nil => rfl
  | cons unit set ih => rw [restart, List.map_cons, List.map_cons, ih]; rfl

lemma restart_access (offset : ℤ) : (restart offset set).map KeyrangeUnit.keyrangeAccess =
    set.map KeyrangeUnit.keyrangeAccess := by
  have hshare := congrArg (List.map Prod.fst) (restart_share offset set)
  rwa [List.map_map, List.map_map] at hshare

lemma restart_start {offset : ℤ} {i : ℕ} {unit : KeyrangeUnit}
    (h : (restart offset set)[i]? = some unit) :
    unit.keyrangeStart = offset + ((set.map KeyrangeUnit.keyrangeAccess).take i).sum := by
  induction set generalizing offset i with
  | nil => cases h
  | cons x set ih =>
    cases i with
    | zero =>
      cases h
      simp
    | succ i =>
      rw [ih h, List.map_cons, List.take_succ_cons, List.sum_cons, add_assoc]

/-- **The table that is built.** -/
lemma initiate_spec (num total : ℤ) (term : ℕ → ℚ) (draws : ℕ → UInt64) :
    ∃ g, initiateExpDistribution num total term draws = some g ∧ Table g ∧
      g.keyrangeSize = total.tdiv (rangesOf num) ∧
      g.keyrangeSet.length = (rangesOf num).toNat ∧
      (g.keyrangeSet.map KeyrangeUnit.share).Perm
        ((buildUnits term (total.tdiv (rangesOf num)) (rangesOf num).toNat 0 0).1.map
          KeyrangeUnit.share) := by
  set size := total.tdiv (rangesOf num) with hsize
  have h := built term size 0 (le_refl 0) (rangesOf num).toNat
  have hlen : num.toNat ≤ (buildUnits term size (rangesOf num).toNat 0 0).1.length := by
    rw [h.length, rangesOf]
    split <;> omega
  obtain ⟨set, hshuffle, hperm⟩ := shuffleUnits_perm draws hlen
  refine ⟨⟨(buildUnits term size (rangesOf num).toNat 0 0).2, size, restart 0 set⟩, ?_, ?_, rfl, ?_, ?_⟩
  · simp only [initiateExpDistribution, ← hsize, hshuffle]
  · refine ⟨fun i unit hunit => ?_, fun unit hunit => ?_, ?_⟩
    · rw [restart_start hunit, restart_access, zero_add]
    · have hmem := List.mem_map_of_mem (f := KeyrangeUnit.keyrangeAccess) hunit
      rw [restart_access] at hmem
      obtain ⟨x, hx, heq⟩ := List.mem_map.1 hmem
      rw [← heq]
      exact h.nonneg x (hperm.mem_iff.1 hx)
    · rw [h.total, zero_add, accesses, accesses, restart_access]
      exact ((hperm.map _).sum_eq).symm
  · have hlen := congrArg List.length (restart_share 0 set)
    rw [List.length_map, List.length_map] at hlen
    rw [hlen, hperm.length_eq, h.length]
  · rw [restart_share]
    exact hperm.map _

/-! ## The search -/

/-- `r` is in the interval of the unit at `i`, which is not empty. -/
def GenerateTwoTermExpKeys.Hits (g : GenerateTwoTermExpKeys) (r : ℤ) (i : ℕ) : Prop :=
  ∃ unit, g.keyrangeSet[i]? = some unit ∧ unit.keyrangeStart ≤ r ∧
    r < unit.keyrangeStart + unit.keyrangeAccess

lemma Table.hits_unique (h : Table g) {r : ℤ} {i j : ℕ} (hi : g.Hits r i) (hj : g.Hits r j) :
    i = j := by
  obtain ⟨x, hx, hx₁, hx₂⟩ := hi
  obtain ⟨y, hy, hy₁, hy₂⟩ := hj
  rw [h.starts i x hx] at hx₁ hx₂
  rw [h.starts j y hy] at hy₁ hy₂
  refine sum_take_unique ?_ (show _ = some x.keyrangeAccess from ?_)
    (show _ = some y.keyrangeAccess from ?_) ⟨hx₁, hx₂⟩ ⟨hy₁, hy₂⟩
  · simpa using h.nonneg
  · rw [List.getElem?_map, hx, Option.map_some]
  · rw [List.getElem?_map, hy, Option.map_some]

/-- **The search finds the interval.** -/
lemma Table.search (h : Table g) {r : ℤ} (h0 : 0 ≤ r) (hr : r < g.keyrangeRandMax) :
    ∃ i, g.keyrangeId r = some i ∧ i < g.keyrangeSet.length ∧ g.Hits r i := by
  have hne : 0 < g.keyrangeSet.length := by
    rw [List.length_pos_iff]
    intro hnil
    rw [h.randMax, hnil] at hr
    exact absurd hr (not_lt.2 h0)
  -- what the test at `mid` says
  let P : ℕ → Prop := fun i => ∃ unit, g.keyrangeSet[i]? = some unit ∧ unit.keyrangeStart ≤ r
  have hright : ∀ i < g.keyrangeSet.length, ∃ b,
      g.keyrangeSet[i]?.map (fun unit => !decide (r < unit.keyrangeStart)) = some b ∧
        (b = true ↔ P i) := by
    intro i hi
    refine ⟨!decide (r < g.keyrangeSet[i].keyrangeStart), ?_, ?_⟩
    · rw [List.getElem?_eq_getElem hi, Option.map_some]
    · simp [P, List.getElem?_eq_getElem hi]
  have hfirst : P 0 := by
    refine ⟨g.keyrangeSet[0], List.getElem?_eq_getElem hne, ?_⟩
    rw [h.starts 0 _ (List.getElem?_eq_getElem hne)]
    simpa using h0
  obtain ⟨i, hi, hlt, ⟨unit, hunit, hle⟩, hnext⟩ := bisect_spec hright hne
    (show g.keyrangeSet.length - 0 ≤ g.keyrangeSet.length + 1 by omega) hfirst (le_refl _) (.inl rfl)
  refine ⟨i, hi, hlt, unit, hunit, hle, ?_⟩
  -- it ends where the next one starts, or at the end of the table
  have hmap : (g.keyrangeSet.map KeyrangeUnit.keyrangeAccess)[i]? = some unit.keyrangeAccess := by
    rw [List.getElem?_map, hunit, Option.map_some]
  rw [h.starts i unit hunit, ← sum_take_succ hmap]
  rcases hnext with hlast | hnot
  · rw [h.randMax, accesses] at hr
    rwa [List.take_of_length_le (by rw [List.length_map]; omega)]
  · by_cases hlast : i + 1 < g.keyrangeSet.length
    · by_contra hge
      refine hnot ⟨g.keyrangeSet[i + 1], List.getElem?_eq_getElem hlast, ?_⟩
      rw [h.starts (i + 1) _ (List.getElem?_eq_getElem hlast)]
      exact not_lt.1 hge
    · rw [h.randMax, accesses] at hr
      rwa [List.take_of_length_le (by rw [List.length_map]; omega)]

/-! ## What is asked of the table -/

/-- * `perm`: the units are those that were built, in some order.
* `starts`, `randMax`, `pos`: they cover the numbers up to `keyrange_rand_max_`, each one from the
  sum of the counts before it on.
* `search`: a number is looked up in the only interval that has it. -/
structure TableOK (num total : ℤ) (term : ℕ → ℚ) (g : GenerateTwoTermExpKeys) : Prop where
  perm : (g.keyrangeSet.map KeyrangeUnit.share).Perm
    ((buildUnits term (total.tdiv (rangesOf num)) (rangesOf num).toNat 0 0).1.map KeyrangeUnit.share)
  starts : ∀ i unit, g.keyrangeSet[i]? = some unit →
    unit.keyrangeStart = ((g.keyrangeSet.map KeyrangeUnit.keyrangeAccess).take i).sum
  randMax : g.keyrangeRandMax = (g.keyrangeSet.map KeyrangeUnit.keyrangeAccess).sum
  pos : 1 ≤ g.keyrangeRandMax
  search : ∀ r, 0 ≤ r → r < g.keyrangeRandMax → ∃ i, g.keyrangeId r = some i ∧ g.Hits r i ∧
    (∀ unit, g.keyrangeSet[i]? = some unit → unit.keyrangeAccess ≠ 0) ∧ ∀ j, g.Hits r j → j = i

lemma rangesOf_pos (num : ℤ) : 0 < rangesOf num := by
  rw [rangesOf]
  split <;> omega

/-- The sum of the shares is that of the units that were built. -/
lemma randMax_eq (hg : initiateExpDistribution num total term draws = some g) :
    g.keyrangeRandMax =
      accesses (buildUnits term (total.tdiv (rangesOf num)) (rangesOf num).toNat 0 0).1 := by
  obtain ⟨g', hg', htable, -, -, hperm⟩ := initiate_spec num total term draws
  obtain rfl := Option.some.inj (hg.symm.trans hg')
  have hsum := (hperm.map Prod.fst).sum_eq
  rw [List.map_map, List.map_map] at hsum
  exact htable.randMax.trans hsum

/-- With at most 900 ranges the counts fit. -/
lemma randMax_lt (hnum : num ≤ 900) (hterm : ∀ i, term i ≤ 1)
    (hg : initiateExpDistribution num total term draws = some g) : g.keyrangeRandMax < 2 ^ 63 := by
  have hle := buildUnits_le (total.tdiv (rangesOf num)) 0 hterm (le_refl 0)
    (by norm_num) (rangesOf num).toNat
  have hranges : (rangesOf num).toNat ≤ 900 := by
    rw [rangesOf]
    split <;> omega
  rw [randMax_eq hg]
  omega

lemma randMax_pos (hg : initiateExpDistribution num total term draws = some g) :
    0 < g.keyrangeRandMax ↔ ∃ i : ℕ, 1 ≤ i ∧ (i : ℤ) ≤ rangesOf num ∧ 1 / 10 ^ 16 ≤ term i := by
  rw [randMax_eq hg]
  refine (accesses_pos term (total.tdiv (rangesOf num)) 0 _).trans ?_
  have hranges := rangesOf_pos num
  refine exists_congr fun i => and_congr_right fun _ => and_congr_left fun _ => ?_
  omega

/-- **The table is right** if one of the probabilities is not taken as 0. -/
theorem tableOK (num total : ℤ) (term : ℕ → ℚ) (draws : ℕ → UInt64)
    (hterm : ∃ i : ℕ, 1 ≤ i ∧ (i : ℤ) ≤ rangesOf num ∧ 1 / 10 ^ 16 ≤ term i) :
    ∃ g, initiateExpDistribution num total term draws = some g ∧ TableOK num total term g := by
  obtain ⟨g, hg, htable, -, -, hperm⟩ := initiate_spec num total term draws
  refine ⟨g, hg, hperm, htable.starts, htable.randMax, (randMax_pos hg).2 hterm, fun r h0 hr => ?_⟩
  obtain ⟨i, hi, -, hhits⟩ := htable.search h0 hr
  refine ⟨i, hi, hhits, fun unit hunit hzero => ?_, fun j hj => htable.hits_unique hj hhits⟩
  obtain ⟨unit', hunit', hle, hlt⟩ := hhits
  obtain rfl := Option.some.inj (hunit'.symm.trans hunit)
  omega

/-- The table for 30 ranges of the same probability. -/
theorem tableOK_uniform : ∃ g,
    initiateExpDistribution keyrangeNum totalKeys (fun _ => 1 / 30) (fun _ => 7) = some g ∧
      TableOK keyrangeNum totalKeys (fun _ => 1 / 30) g :=
  tableOK keyrangeNum totalKeys _ _ ⟨1, le_refl 1, by decide, by norm_num⟩

/-- **Probabilities below `10 ^ (-16)` are taken as 0**, so that a table of them has nothing to
select. -/
theorem not_tableOK_tiny : (∀ i : ℕ, (0 : ℚ) < (fun _ => 1 / 10 ^ 17) i) ∧
    ∀ g, initiateExpDistribution keyrangeNum totalKeys (fun _ => 1 / 10 ^ 17) (fun _ => 0) = some g →
      g.keyrangeRandMax = 0 ∧ ¬ TableOK keyrangeNum totalKeys (fun _ => 1 / 10 ^ 17) g := by
  refine ⟨fun _ => by norm_num, fun g hg => ?_⟩
  obtain ⟨g', hg', htable, -⟩ := initiate_spec keyrangeNum totalKeys (fun _ => 1 / 10 ^ 17)
    fun _ => 0
  obtain rfl := Option.some.inj (hg.symm.trans hg')
  have hnonneg : 0 ≤ g.keyrangeRandMax := htable.randMax ▸ accesses_nonneg htable.nonneg
  have hnot : ¬ 0 < g.keyrangeRandMax := by
    rw [randMax_pos hg]
    rintro ⟨i, -, -, hterm⟩
    norm_num at hterm
  refine ⟨by omega, fun h => hnot h.pos⟩

/-! ## The key -/

end Skq.Pingpong
