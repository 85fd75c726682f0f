import Mathlib.Data.UInt
import SkqBench.Lib.Decimal

/-!
# Numbers in commands, replies and items

`itoa_ljust.c` writes numbers two digits at a time; `util.c` reads them with the functions of the C
library, but fails where these go on.  A number in an item is followed by what is in memory behind it.
-/

namespace Skq.Mem

open Lib

/-! ## Writing -/

/-- `lut`: the two digits of each number below a hundred. -/
def lut : List Char :=
  ("0001020304050607080910111213141516171819" ++
    "2021222324252627282930313233343536373839" ++
    "4041424344454647484950515253545556575859" ++
    "6061626364656667686970717273747576777879" ++
    "8081828384858687888990919293949596979899").toList

/-- `out2`. -/
def out2 (d : ℕ) : List Char := (lut.drop (2 * d)).take 2

/-- `out1('0' + d)`. -/
def out1 (d : ℕ) : List Char := [Char.ofNat ('0'.toNat + d)]

/-- The cases of the `switch` of `itoa` that fall through, from the one that divides by the first of
`ks` on. -/
def itoaCases : List UInt32 → UInt32 → List Char
  | [], _ => []
  | k :: ks, u => out2 (u / k).toNat ++ itoaCases ks (u - u / k * k)

/-- `itoa`: `n` digits of `u`, where `d` has already been written if `n` is odd. -/
def itoa (u d : UInt32) : ℕ → List Char
  | 10 => itoaCases [100000000, 1000000, 10000, 100, 1] u
  | 9 => itoaCases [1000000, 10000, 100, 1] (u - d * 100000000)
  | 8 => itoaCases [1000000, 10000, 100, 1] u
  | 7 => itoaCases [10000, 100, 1] (u - d * 1000000)
  | 6 => itoaCases [10000, 100, 1] u
  | 5 => itoaCases [100, 1] (u - d * 10000)
  | 4 => itoaCases [100, 1] u
  | 3 => itoaCases [1] (u - d * 100)
  | 2 => itoaCases [1] u
  | _ => []

/-- `digits` and then `itoa`: an odd first digit is written alone. -/
def itoaDigits (u k : UInt32) (n : ℕ) : List Char :=
  if u < k * 10 then out1 (u / k).toNat ++ itoa u (u / k) (n - 1) else itoa u 0 n

/-- `itoa_u32`. -/
def itoaU32 (u : UInt32) : List Char :=
  if u ≥ 100000000 then itoaDigits u 100000000 10
  else if u < 100 then itoaDigits u 1 2
  else if u < 10000 then itoaDigits u 100 4
  else if u < 1000000 then itoaDigits u 10000 6
  else itoaDigits u 1000000 8

/-- `itoa_32`. -/
def itoa32 (i : Int32) : List Char :=
  if i < 0 then '-' :: itoaU32 (-i.toUInt32) else itoaU32 i.toUInt32

/-- `itoa_u64`. -/
def itoaU64 (u : UInt64) : List Char :=
  if u.toUInt32.toUInt64 = u then itoaU32 u.toUInt32
  else
    let upper := u / 1000000000
    let lower := (u - upper * 1000000000).toUInt32
    let d := lower / 100000000
    itoaU64 upper ++ out1 d.toNat ++ itoa lower d 9
  termination_by u.toNat
  decreasing_by
    rename_i h
    have hne : u.toNat ≠ 0 := by
      intro hzero
      have hu : u = 0 := UInt64.toNat_inj.1 hzero
      exact h (by rw [hu]; rfl)
    rw [UInt64.toNat_div]
    exact Nat.div_lt_self (Nat.pos_of_ne_zero hne) (by decide)

/-- `itoa_64`. -/
def itoa64 (i : Int64) : List Char :=
  if i < 0 then '-' :: itoaU64 (-i.toUInt64) else itoaU64 i.toUInt64

/-! ## Reading -/

/-- What `strtoul` and its like find: whether there is a minus sign, the number, and where it ends. -/
def strtoNumber (s : List Char) : Option (Bool × ℕ × List Char) :=
  let t := scanSign (s.dropWhile isSpace)
  let digits := t.2.takeWhile Char.isDigit
  if digits = [] then none else some (t.1, digitsVal 10 digits, t.2.dropWhile Char.isDigit)

/-- Whether a number may end here: at the end of the string, or in front of a space. -/
def endsNumber : List Char → Bool
  | [] => true
  | c :: _ => isSpace c

/-- The `unsigned long long` that `strtoull` makes of a number that fits. -/
def strtoullValue (neg : Bool) (n : ℕ) : UInt64 := if neg then -UInt64.ofNat n else UInt64.ofNat n

/-- `safe_strtoull`, of the string that `str` points to. -/
def safeStrtoull (str : List Char) : Option UInt64 :=
  match strtoNumber str with
  | none => none
  | some (neg, n, rest) =>
    if 2 ^ 64 ≤ n then none
    else if endsNumber rest then
      if 2 ^ 63 ≤ (strtoullValue neg n).toNat ∧ '-' ∈ str then none else some (strtoullValue neg n)
    else none

/-! ## Numbers in items -/

/-- What `do_add_delta` makes of a value. -/
def deltaValue (incr : Bool) (delta value : UInt64) : UInt64 :=
  if incr then value + delta else if delta > value then 0 else value - delta

/-- The data of an item, in which a number is written over the old one: `memcpy` and `memset`. -/
def inPlace (data buf : List Char) : List Char :=
  buf ++ List.replicate (data.length - buf.length - 2) ' ' ++ data.drop (data.length - 2)

/-- The data of a new item. -/
def withCrlf (buf : List Char) : List Char := buf ++ ['\r', '\n']

/-! ## What is written -/

/-- The last `w` digits of a number. -/
def lastDigits : ℕ → ℕ → List Char
  | 0, _ => []
  | w + 1, n => lastDigits w (n / 10) ++ [(n % 10).digitChar]

/-- The digits of a number, those of a larger number and its last digits. -/
lemma toDigits_append_lastDigits {q : ℕ} (hq : 0 < q) :
    ∀ {w r : ℕ}, r < 10 ^ w → Nat.toDigits 10 (q * 10 ^ w + r) = Nat.toDigits 10 q ++ lastDigits w r
  | 0, r, hr => by
    have hzero : r = 0 := by simpa using hr
    simp [hzero, lastDigits]
  | w + 1, r, hr => by
    have hpow : q * 10 ^ (w + 1) = q * 10 ^ w * 10 := by rw [Nat.pow_succ, Nat.mul_assoc]
    have hpos : 0 < q * 10 ^ w := Nat.mul_pos hq (Nat.pow_pos (by decide))
    have hdiv : (q * 10 ^ (w + 1) + r) / 10 = q * 10 ^ w + r / 10 := by omega
    have hmod : (q * 10 ^ (w + 1) + r) % 10 = r % 10 := by omega
    have hlt : r / 10 < 10 ^ w := by
      rw [Nat.pow_succ] at hr
      omega
    rw [Nat.toDigits_of_base_le (by decide) (by omega), hdiv, hmod, toDigits_append_lastDigits hq hlt,
      List.append_assoc, lastDigits]

/-- Digits in two parts. -/
lemma lastDigits_add (v : ℕ) :
    ∀ (w n : ℕ), lastDigits (v + w) n = lastDigits v (n / 10 ^ w) ++ lastDigits w (n % 10 ^ w)
  | 0, n => by simp [lastDigits]
  | w + 1, n => by
    have hdiv : n / 10 / 10 ^ w = n / 10 ^ (w + 1) := by rw [Nat.div_div_eq_div_mul, Nat.pow_succ']
    have hmod : n / 10 % 10 ^ w = n % 10 ^ (w + 1) / 10 := by
      rw [Nat.pow_succ', Nat.mod_mul_right_div_self]
    have hlast : n % 10 ^ (w + 1) % 10 = n % 10 :=
      Nat.mod_mod_of_dvd n ⟨10 ^ w, Nat.pow_succ' ..⟩
    rw [← Nat.add_assoc, lastDigits, lastDigits_add v w (n / 10), lastDigits, hdiv, hmod, hlast,
      List.append_assoc]

lemma out1_eq {d : ℕ} (hd : d < 10) : out1 d = lastDigits 1 d := by
  have hall : ∀ d : Fin 10, out1 d = lastDigits 1 d := by decide
  exact hall ⟨d, hd⟩

lemma out2_eq {d : ℕ} (hd : d < 100) : out2 d = lastDigits 2 d := by
  have hall : ∀ d : Fin 100, out2 d = lastDigits 2 d := by decide +kernel
  exact hall ⟨d, hd⟩

/-- The divisors of the cases of a `switch`: the powers of a hundred down to one. -/
def Hundreds : List UInt32 → Prop
  | [] => True
  | k :: ks => k.toNat = 100 ^ ks.length ∧ Hundreds ks

/-- What is left when the part a divisor gives is taken away. -/
lemma toNat_rest {u k : UInt32} : (u - u / k * k).toNat = u.toNat % k.toNat := by
  have hle : u / k * k ≤ u := by
    rw [UInt32.le_iff_toNat_le, UInt32.toNat_mul, UInt32.toNat_div]
    exact (Nat.mod_le _ _).trans (Nat.div_mul_le_self _ _)
  have hmul : (u / k * k).toNat = u.toNat / k.toNat * k.toNat := by
    rw [UInt32.toNat_mul, UInt32.toNat_div]
    exact Nat.mod_eq_of_lt ((Nat.div_mul_le_self _ _).trans_lt u.toNat_lt)
  rw [UInt32.toNat_sub_of_le _ _ hle, hmul]
  exact (Nat.mod_eq_sub_div_mul).symm

lemma itoaCases_eq :
    ∀ {ks : List UInt32} {u : UInt32}, Hundreds ks → u.toNat < 100 ^ ks.length →
      itoaCases ks u = lastDigits (2 * ks.length) u.toNat
  | [], _, _, _ => rfl
  | k :: ks, u, ⟨hk, hks⟩, hu => by
    have hpow : 100 ^ ks.length = 10 ^ (2 * ks.length) := by rw [Nat.pow_mul]
    have hdiv : u.toNat / k.toNat < 100 := by
      rw [hk]
      exact Nat.div_lt_of_lt_mul (by rwa [List.length_cons, Nat.pow_succ] at hu)
    have hrest : (u - u / k * k).toNat < 100 ^ ks.length := by
      rw [toNat_rest, hk]
      exact Nat.mod_lt _ (Nat.pow_pos (by decide))
    have hsplit : 2 * (k :: ks).length = 2 + 2 * ks.length := by
      rw [List.length_cons]
      omega
    rw [itoaCases, itoaCases_eq hks hrest, UInt32.toNat_div, out2_eq hdiv, toNat_rest, hsplit,
      lastDigits_add, hk, hpow]

lemma toDigits_two {d : ℕ} (hlo : 10 ≤ d) (hhi : d < 100) : Nat.toDigits 10 d = lastDigits 2 d := by
  have hdiv : d / 10 % 10 = d / 10 := Nat.mod_eq_of_lt (by omega)
  rw [Nat.toDigits_of_base_le (by decide) hlo, Nat.toDigits_of_lt_base (by omega)]
  simp only [lastDigits, hdiv, List.nil_append]

/-- One way through `digits` and `itoa`: a number of at most as many digits as the cases write, and
more than those behind the first divisor. -/
lemma itoaDigits_eq {k : UInt32} {ks : List UInt32} {u : UInt32} {n : ℕ} (hks : Hundreds (k :: ks))
    (hten : (k * 10).toNat = k.toNat * 10) (hu : u.toNat < 100 ^ (ks.length + 1))
    (hfirst : k ≤ u ∨ ks = [])
    (heven : itoa u 0 n = itoaCases (k :: ks) u)
    (hodd : itoa u (u / k) (n - 1) = itoaCases ks (u - u / k * k)) :
    itoaDigits u k n = Nat.toDigits 10 u.toNat := by
  obtain ⟨hk, hrest⟩ := hks
  have hpow : 100 ^ ks.length = 10 ^ (2 * ks.length) := by rw [Nat.pow_mul]
  have hkpos : 0 < k.toNat := by
    rw [hk]
    exact Nat.pow_pos (by decide)
  have hmod : u.toNat % k.toNat < 10 ^ (2 * ks.length) := by
    rw [← hpow, ← hk]
    exact Nat.mod_lt _ hkpos
  have hsplit : u.toNat / k.toNat * 10 ^ (2 * ks.length) + u.toNat % k.toNat = u.toNat := by
    rw [← hpow, ← hk]
    exact Nat.div_add_mod' ..
  rw [itoaDigits]
  split
  · next hlt =>
    have hd : u.toNat / k.toNat < 10 := by
      rw [UInt32.lt_iff_toNat_lt, hten] at hlt
      exact Nat.div_lt_of_lt_mul hlt
    have hcases : itoaCases ks (u - u / k * k) = lastDigits (2 * ks.length) (u.toNat % k.toNat) := by
      have hlt : (u - u / k * k).toNat < 100 ^ ks.length := by
        rw [toNat_rest, hpow]
        exact hmod
      rw [itoaCases_eq hrest hlt, toNat_rest]
    rw [hodd, hcases, UInt32.toNat_div, out1_eq hd]
    rcases hfirst with hle | rfl
    · have hpos : 0 < u.toNat / k.toNat :=
        Nat.div_pos (UInt32.le_iff_toNat_le.1 hle) hkpos
      have hdigit : Nat.toDigits 10 (u.toNat / k.toNat) = lastDigits 1 (u.toNat / k.toNat) := by
        rw [Nat.toDigits_of_lt_base hd]
        simp [lastDigits, Nat.mod_eq_of_lt hd]
      rw [← hdigit, ← toDigits_append_lastDigits hpos hmod, hsplit]
    · have hone : k.toNat = 1 := hk
      rw [hone, Nat.div_one] at hd ⊢
      simp [lastDigits, Nat.mod_eq_of_lt hd, Nat.toDigits_of_lt_base hd]
  · next hge =>
    have hge : 10 * k.toNat ≤ u.toNat := by
      rw [UInt32.lt_iff_toNat_lt, hten] at hge
      omega
    have htwo : 10 ≤ u.toNat / k.toNat := (Nat.le_div_iff_mul_le hkpos).2 hge
    have hhundred : u.toNat / k.toNat < 100 := by
      rw [hk]
      exact Nat.div_lt_of_lt_mul (by rwa [Nat.pow_succ] at hu)
    have hlen : 2 * (k :: ks).length = 2 + 2 * ks.length := by
      rw [List.length_cons]
      omega
    have hdiv : u.toNat / 10 ^ (2 * ks.length) = u.toNat / k.toNat := by rw [hk, hpow]
    have hrem : u.toNat % 10 ^ (2 * ks.length) = u.toNat % k.toNat := by rw [hk, hpow]
    have hhks : Hundreds (k :: ks) := And.intro hk hrest
    rw [heven, itoaCases_eq hhks hu, hlen, lastDigits_add, hdiv, hrem, ← toDigits_two htwo hhundred,
      ← toDigits_append_lastDigits (by omega) hmod, hsplit]

/-- `itoa_u32`. -/
lemma itoaU32_eq (u : UInt32) : itoaU32 u = Nat.toDigits 10 u.toNat := by
  have hmax := u.toNat_lt
  have hks : Hundreds [100000000, 1000000, 10000, 100, 1] := by simp [Hundreds]
  simp only [itoaU32, UInt32.lt_iff_toNat_lt, ge_iff_le, UInt32.le_iff_toNat_le]
  split
  · next h => exact itoaDigits_eq hks rfl (by simp; omega) (.inl h) rfl rfl
  · split
    · next h => exact itoaDigits_eq hks.2.2.2.2 rfl h (.inr rfl) rfl rfl
    · split
      · next hlo h => exact itoaDigits_eq hks.2.2.2 rfl h (.inl (Nat.le_of_not_lt hlo)) rfl rfl
      · split
        · next hlo h => exact itoaDigits_eq hks.2.2 rfl h (.inl (Nat.le_of_not_lt hlo)) rfl rfl
        · next hhi _ _ hlo =>
          exact itoaDigits_eq hks.2 rfl (Nat.lt_of_not_le hhi) (.inl (Nat.le_of_not_lt hlo)) rfl rfl

/-- `itoa_u64`. -/
lemma itoaU64_eq (u : UInt64) : itoaU64 u = Nat.toDigits 10 u.toNat := by
  fun_induction itoaU64 u with
  | case1 u hlow =>
    rw [itoaU32_eq, ← UInt32.toNat_toUInt64, hlow]
  | case2 u hhigh upper lower d ih =>
    have hlarge : 2 ^ 32 ≤ u.toNat := by
      by_contra hlt
      refine hhigh (UInt64.toNat_inj.1 ?_)
      rw [UInt32.toNat_toUInt64, UInt64.toNat_toUInt32]
      exact Nat.mod_eq_of_lt (Nat.lt_of_not_le hlt)
    have hmod : u.toNat % 1000000000 < 10 ^ 9 := Nat.mod_lt _ (by decide)
    have hupper : upper.toNat = u.toNat / 1000000000 := UInt64.toNat_div ..
    have hpos : 0 < u.toNat / 1000000000 := Nat.div_pos (by omega) (by decide)
    have hle : upper * 1000000000 ≤ u := by
      rw [UInt64.le_iff_toNat_le, UInt64.toNat_mul, hupper]
      exact (Nat.mod_le _ _).trans (Nat.div_mul_le_self _ _)
    have hmul : (upper * 1000000000).toNat = u.toNat / 1000000000 * 1000000000 := by
      rw [UInt64.toNat_mul, hupper]
      exact Nat.mod_eq_of_lt ((Nat.div_mul_le_self _ _).trans_lt u.toNat_lt)
    have hlower : lower.toNat = u.toNat % 1000000000 := by
      rw [UInt64.toNat_toUInt32, UInt64.toNat_sub_of_le _ _ hle, hmul, ← Nat.mod_eq_sub_div_mul]
      exact Nat.mod_eq_of_lt (by omega)
    have hks : Hundreds [1000000, 10000, 100, 1] := by simp [Hundreds]
    have hd : d.toNat = u.toNat % 1000000000 / 10 ^ 8 := by
      rw [UInt32.toNat_div, hlower]
      rfl
    have hrest : (lower - d * 100000000).toNat = u.toNat % 1000000000 % 10 ^ 8 := by
      rw [toNat_rest, hlower]
      rfl
    have hcases : itoa lower d 9 = lastDigits 8 (u.toNat % 1000000000 % 10 ^ 8) := by
      rw [← hrest]
      exact itoaCases_eq hks (by rw [hrest]; exact Nat.mod_lt _ (by decide))
    have hone : d.toNat < 10 := by
      rw [hd]
      omega
    have htail : out1 d.toNat ++ itoa lower d 9 = lastDigits 9 (u.toNat % 1000000000) := by
      rw [hcases, out1_eq hone, hd]
      exact (lastDigits_add 1 8 _).symm
    rw [ih, List.append_assoc, htail, hupper, ← toDigits_append_lastDigits hpos hmod]
    exact congrArg _ (Nat.div_add_mod' ..)

lemma int32_neg_iff {i : Int32} : i < 0 ↔ i.toInt < 0 := Int32.lt_iff_toInt_lt

lemma int64_neg_iff {i : Int64} : i < 0 ↔ i.toInt < 0 := Int64.lt_iff_toInt_lt

/-- The number without its sign. -/
lemma itoa32_magnitude (i : Int32) :
    (if i < 0 then -i.toUInt32 else i.toUInt32).toNat = i.toInt.natAbs := by
  have hint : i.toInt = i.toBitVec.toInt := rfl
  have hnat : i.toUInt32.toNat = i.toBitVec.toNat := rfl
  have hsize : UInt32.size = 2 ^ 32 := rfl
  have hcond := i.toBitVec.toInt_eq_toNat_cond
  have hbound := i.toBitVec.isLt
  simp only [int32_neg_iff]
  split
  · rw [UInt32.toNat_neg, hsize, hnat]
    split at hcond <;> omega
  · rw [hnat]
    split at hcond <;> omega

lemma itoa64_magnitude (i : Int64) :
    (if i < 0 then -i.toUInt64 else i.toUInt64).toNat = i.toInt.natAbs := by
  have hint : i.toInt = i.toBitVec.toInt := rfl
  have hnat : i.toUInt64.toNat = i.toBitVec.toNat := rfl
  have hsize : UInt64.size = 2 ^ 64 := rfl
  have hcond := i.toBitVec.toInt_eq_toNat_cond
  have hbound := i.toBitVec.isLt
  simp only [int64_neg_iff]
  split
  · rw [UInt64.toNat_neg, hsize, hnat]
    split at hcond <;> omega
  · rw [hnat]
    split at hcond <;> omega

/-- The decimal number. -/
def decimalText (i : ℤ) : List Char := (if i < 0 then ['-'] else []) ++ Nat.toDigits 10 i.natAbs

/-- **Every number is written in decimal**, without leading zeros and with a sign if it is negative,
by all four functions. -/
theorem itoa_decimal :
    (∀ u, itoaU32 u = decimalText u.toNat) ∧ (∀ u, itoaU64 u = decimalText u.toNat) ∧
      (∀ i, itoa32 i = decimalText i.toInt) ∧ ∀ i, itoa64 i = decimalText i.toInt := by
  refine ⟨fun u => ?_, fun u => ?_, fun i => ?_, fun i => ?_⟩
  · rw [itoaU32_eq, decimalText, if_neg (by omega)]
    rfl
  · rw [itoaU64_eq, decimalText, if_neg (by omega)]
    rfl
  · have hmag := itoa32_magnitude i
    simp only [itoa32, decimalText, itoaU32_eq, int32_neg_iff] at hmag ⊢
    split at hmag
    · next h => rw [if_pos h, if_pos h, hmag, List.singleton_append]
    · next h => rw [if_neg h, if_neg h, hmag, List.nil_append]
  · have hmag := itoa64_magnitude i
    simp only [itoa64, decimalText, itoaU64_eq, int64_neg_iff] at hmag ⊢
    split at hmag
    · next h => rw [if_pos h, if_pos h, hmag, List.singleton_append]
    · next h => rw [if_neg h, if_neg h, hmag, List.nil_append]

/-! ## What is read -/

/-- The spellings of a number: spaces, a sign or none, digits, and what does not go on with a digit. -/
structure Spelled (s : List Char) (neg : Bool) (n : ℕ) (rest : List Char) : Prop where
  split : ∃ spaces sign digits, s = spaces ++ sign ++ digits ++ rest ∧
    (∀ c ∈ spaces, isSpace c = true) ∧ (if neg then sign = ['-'] else sign = [] ∨ sign = ['+']) ∧
    digits ≠ [] ∧ (∀ c ∈ digits, c.isDigit = true) ∧ digitsVal 10 digits = n
  ends : ∀ c r, rest = c :: r → c.isDigit = false

/-- `scanSign` of a sign or none, in front of a digit. -/
lemma scanSign_append {neg : Bool} {sign digits rest : List Char} (hne : digits ≠ [])
    (hdigits : ∀ c ∈ digits, c.isDigit = true)
    (hsign : if neg then sign = ['-'] else sign = [] ∨ sign = ['+']) :
    scanSign ((sign ++ digits ++ rest).dropWhile isSpace) = (neg, digits ++ rest) := by
  obtain ⟨d, ds, rfl⟩ := List.exists_cons_of_ne_nil hne
  have hd := hdigits d List.mem_cons_self
  cases neg with
  | true =>
    rw [if_pos rfl] at hsign
    subst hsign
    rfl
  | false =>
    rcases hsign with rfl | rfl
    · exact scanSign_of_isDigit hd
    · rfl

/-- What `scanSign` takes off is a sign or nothing. -/
lemma scanSign_spec (s : List Char) :
    ∃ sign, s = sign ++ (scanSign s).2 ∧
      if (scanSign s).1 then sign = ['-'] else sign = [] ∨ sign = ['+'] := by
  cases s with
  | nil => exact ⟨[], rfl, .inl rfl⟩
  | cons c s =>
    rw [scanSign]
    split
    · next h => exact ⟨['-'], by rw [h]; rfl, rfl⟩
    · split
      · next h => exact ⟨['+'], by rw [h]; rfl, .inr rfl⟩
      · exact ⟨[], rfl, .inl rfl⟩

/-- `strtoul` and its like read the spellings. -/
lemma strtoNumber_iff {s : List Char} {neg : Bool} {n : ℕ} {rest : List Char} :
    strtoNumber s = some (neg, n, rest) ↔ Spelled s neg n rest := by
  constructor
  · intro h
    simp only [strtoNumber] at h
    split at h
    · cases h
    · next hne =>
      simp only [Option.some.injEq, Prod.mk.injEq] at h
      obtain ⟨rfl, rfl, rfl⟩ := h
      obtain ⟨sign, hsplit, hsign⟩ := scanSign_spec (s.dropWhile isSpace)
      refine ⟨⟨s.takeWhile isSpace, sign, _, ?_, fun c hc => List.mem_takeWhile_imp hc, hsign, hne,
        fun c hc => List.mem_takeWhile_imp hc, rfl⟩, fun c r hr => ?_⟩
      · rw [List.append_assoc, List.takeWhile_append_dropWhile, List.append_assoc, ← hsplit,
          List.takeWhile_append_dropWhile]
      · have hhead := List.head?_dropWhile_not Char.isDigit (scanSign (s.dropWhile isSpace)).2
        rw [hr] at hhead
        exact hhead
  · rintro ⟨⟨spaces, sign, digits, rfl, hspaces, hsign, hne, hdigits, rfl⟩, hends⟩
    have htake : rest.takeWhile Char.isDigit = [] := by
      cases rest with
      | nil => rfl
      | cons c r => rw [List.takeWhile_cons_of_neg (by simp [hends c r rfl])]
    have hdrop : rest.dropWhile Char.isDigit = rest := by
      cases rest with
      | nil => rfl
      | cons c r => rw [List.dropWhile_cons_of_neg (by simp [hends c r rfl])]
    have hscan : scanSign ((spaces ++ sign ++ digits ++ rest).dropWhile isSpace) =
        (neg, digits ++ rest) := by
      rw [List.append_assoc, List.append_assoc, List.dropWhile_append_of_pos hspaces,
        ← List.append_assoc]
      exact scanSign_append hne hdigits hsign
    have hread : (digits ++ rest).takeWhile Char.isDigit = digits := by
      rw [List.takeWhile_append_of_pos hdigits, htake, List.append_nil]
    have hleft : (digits ++ rest).dropWhile Char.isDigit = rest := by
      rw [List.dropWhile_append_of_pos hdigits, hdrop]
    simp only [strtoNumber, hscan, hread, hleft, if_neg hne]

/-- A number ends in front of a space. -/
lemma not_isDigit_of_endsNumber {rest : List Char} (h : endsNumber rest = true) :
    ∀ c r, rest = c :: r → c.isDigit = false := by
  rintro c r rfl
  refine Bool.eq_false_iff.2 fun hdigit => ?_
  rw [endsNumber, isSpace_of_isDigit hdigit] at h
  cases h

/-- Where a minus sign can be. -/
lemma Spelled.minus_mem {s : List Char} {neg : Bool} {n : ℕ} {rest : List Char}
    (h : Spelled s neg n rest) : '-' ∈ s ↔ neg = true ∨ '-' ∈ rest := by
  obtain ⟨spaces, sign, digits, rfl, hspaces, hsign, _, hdigits, _⟩ := h.split
  have hspace : '-' ∉ spaces := fun hm => absurd (hspaces _ hm) (by decide)
  have hdigit : '-' ∉ digits := fun hm => absurd (hdigits _ hm) (by decide)
  have hmem : '-' ∈ sign ↔ neg = true := by
    cases neg with
    | true =>
      rw [if_pos rfl] at hsign
      simp [hsign]
    | false => rcases hsign with rfl | rfl <;> simp
  simp [hspace, hdigit, hmem]

lemma toNat_strtoullValue {neg : Bool} {n : ℕ} (hn : n < 2 ^ 64) :
    (strtoullValue neg n).toNat = if neg ∧ n ≠ 0 then 2 ^ 64 - n else n := by
  have hsize : UInt64.size = 2 ^ 64 := rfl
  have hpos : (UInt64.ofNat n).toNat = n := Nat.mod_eq_of_lt hn
  cases neg with
  | true =>
    rw [strtoullValue, if_pos rfl, UInt64.toNat_neg, hpos, hsize]
    split
    · exact Nat.mod_eq_of_lt (by omega)
    · next hzero =>
      have hzero : n = 0 := by simpa using hzero
      rw [hzero]
      rfl
  | false => exact hpos

/-- `safe_strtoull` of a number that is followed by a space or nothing. -/
lemma Spelled.safeStrtoull {s : List Char} {neg : Bool} {n : ℕ} {rest : List Char}
    (h : Spelled s neg n rest) (hends : endsNumber rest = true) (hn : n < 2 ^ 64) :
    safeStrtoull s = if 2 ^ 63 ≤ (strtoullValue neg n).toNat ∧ (neg = true ∨ '-' ∈ rest) then none
      else some (strtoullValue neg n) := by
  simp only [Mem.safeStrtoull, strtoNumber_iff.2 h, if_neg (Nat.not_le_of_lt hn), hends, if_true,
    h.minus_mem]

/-- **What `safe_strtoull` accepts**: a number below `2 ^ 64` with a space or nothing behind it.  One of
more than 63 bits must have no minus sign anywhere behind it, and a negative one is read modulo `2 ^ 64`
if that gives at most 63 bits. -/
theorem safeStrtoull_iff {s : List Char} {v : UInt64} :
    safeStrtoull s = some v ↔ ∃ neg n rest, Spelled s neg n rest ∧ endsNumber rest = true ∧ n < 2 ^ 64 ∧
      v.toNat = (if neg ∧ n ≠ 0 then 2 ^ 64 - n else n) ∧
        (2 ^ 63 ≤ v.toNat → neg = false ∧ '-' ∉ rest) := by
  constructor
  · intro h
    cases hn : strtoNumber s with
    | none =>
      rw [safeStrtoull, hn] at h
      cases h
    | some r =>
      obtain ⟨neg, n, rest⟩ := r
      have hspell := strtoNumber_iff.1 hn
      have hlt : n < 2 ^ 64 := by
        by_contra hge
        rw [safeStrtoull, hn] at h
        simp only [if_pos (Nat.le_of_not_lt hge)] at h
        cases h
      have hends : endsNumber rest = true := by
        by_contra hnot
        rw [safeStrtoull, hn] at h
        simp only [if_neg (Nat.not_le_of_lt hlt), if_neg hnot] at h
        cases h
      rw [hspell.safeStrtoull hends hlt] at h
      split at h
      · cases h
      · next hminus =>
        cases h
        refine ⟨neg, n, rest, hspell, hends, hlt, toNat_strtoullValue hlt, fun hbig => ?_⟩
        rw [not_and_or, not_or, Bool.not_eq_true] at hminus
        exact hminus.resolve_left (not_not_intro hbig)
  · rintro ⟨neg, n, rest, hspell, hends, hlt, hv, hminus⟩
    have hvalue : strtoullValue neg n = v := UInt64.toNat_inj.1 (by rw [toNat_strtoullValue hlt, hv])
    rw [hspell.safeStrtoull hends hlt, hvalue, if_neg]
    rintro ⟨hbig, rfl | hrest⟩
    · cases (hminus hbig).1
    · exact (hminus hbig).2 hrest

/-! ## Numbers in items -/

/-- What `itoa_u64` has written is read, whatever is behind it. -/
lemma safeStrtoull_itoaU64 (v : UInt64) {rest : List Char} (hends : endsNumber rest = true) :
    safeStrtoull (itoaU64 v ++ rest) = if 2 ^ 63 ≤ v.toNat ∧ '-' ∈ rest then none else some v := by
  have hdigits : ∀ c ∈ Nat.toDigits 10 v.toNat, c.isDigit = true := fun c hc =>
    Nat.isDigit_of_mem_toDigits (by decide) (by decide) hc
  have hspell : Spelled (itoaU64 v ++ rest) false v.toNat rest := by
    refine ⟨⟨[], [], Nat.toDigits 10 v.toNat, ?_, by simp, .inl rfl, Nat.toDigits_ne_nil, hdigits, ?_⟩,
      not_isDigit_of_endsNumber hends⟩
    · rw [itoaU64_eq, List.nil_append, List.nil_append]
    · rw [digitsVal_eq_ofDigitChars hdigits, Nat.ofDigitChars_ten_toDigits]
  have hvalue : strtoullValue false v.toNat = v := UInt64.ofNat_toNat
  rw [hspell.safeStrtoull hends v.toNat_lt, hvalue]
  simp only [Bool.false_eq_true, false_or]

/-- What is behind the number in the data of an item that ends with a line break. -/
lemma safeStrtoull_padded (v : UInt64) (n : ℕ) (behind : List Char) :
    safeStrtoull (itoaU64 v ++ (List.replicate n ' ' ++ ['\r', '\n'] ++ behind)) =
      if 2 ^ 63 ≤ v.toNat ∧ '-' ∈ behind then none else some v := by
  have hends : endsNumber (List.replicate n ' ' ++ ['\r', '\n'] ++ behind) = true := by
    cases n with
    | zero => rfl
    | succ n => rfl
  have hmem : '-' ∈ List.replicate n ' ' ++ ['\r', '\n'] ++ behind ↔ '-' ∈ behind := by
    simp [List.mem_replicate]
  rw [safeStrtoull_itoaU64 v hends]
  simp only [hmem]

/-- **A number stays a number** when it is incremented or decremented: from the item as it is then,
whether it has been overwritten in place, with spaces up to the line break, or is a new one, the new
value is read; only if that has 64 bits, and there is a minus sign somewhere in the memory behind the
item, is nothing.  The item keeps its size in place. -/
theorem delta_read_back (text behind : List Char) (v : UInt64) :
    ((itoaU64 v).length ≤ text.length →
      (inPlace (withCrlf text) (itoaU64 v)).length = (withCrlf text).length ∧
        safeStrtoull (inPlace (withCrlf text) (itoaU64 v) ++ behind) =
          if 2 ^ 63 ≤ v.toNat ∧ '-' ∈ behind then none else some v) ∧
      safeStrtoull (withCrlf (itoaU64 v) ++ behind) =
        if 2 ^ 63 ≤ v.toNat ∧ '-' ∈ behind then none else some v := by
  refine ⟨fun hlen => ?_, ?_⟩
  · have hsub : (withCrlf text).length - 2 = text.length := by simp [withCrlf]
    have hdata : inPlace (withCrlf text) (itoaU64 v) =
        itoaU64 v ++ (List.replicate (text.length - (itoaU64 v).length) ' ' ++ ['\r', '\n']) := by
      rw [inPlace, Nat.sub_right_comm, hsub, withCrlf, List.drop_left, List.append_assoc]
    refine ⟨?_, ?_⟩
    · rw [hdata]
      simp only [withCrlf, List.length_append, List.length_replicate, List.length_cons, List.length_nil]
      omega
    · rw [hdata, List.append_assoc]
      exact safeStrtoull_padded v _ behind
  · rw [withCrlf, List.append_assoc]
    exact safeStrtoull_padded v 0 behind

end Skq.Mem
