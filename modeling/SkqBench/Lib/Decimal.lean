import Mathlib.Algebra.Field.Rat
import Mathlib.Data.List.Basic
import Mathlib.Data.List.TakeWhile
import Mathlib.Tactic.IntervalCases

/-!
# Numbers in texts

`scanNumber` reads the longest number at the beginning of a text: digits with at most one point
among them, and an exponent.  `strtod` and `strtol` are the functions of the C library, with
rational numbers for the values; `strtod` reads hexadecimal numbers, infinities and NaNs as well.

`Literal` is a decimal number without sign and exponent.  Nothing of it is lost when it is read
(`scanNumber_text`).
-/

namespace Skq.Lib

/-! ## Digits -/

def isHexDigit (c : Char) : Bool := c.isDigit || ('a' ≤ c.toLower && c.toLower ≤ 'f')

/-- The value of a digit. -/
def digitVal (c : Char) : ℕ :=
  if c.isDigit then c.toNat - '0'.toNat else c.toLower.toNat - 'a'.toNat + 10

/-- The value of a run of digits. -/
def digitsVal (base : ℕ) (s : List Char) : ℕ := s.foldl (fun n c => base * n + digitVal c) 0

/-- The two ways to write a number.  The exponent is always decimal. -/
structure Radix where
  base : ℕ
  isDigit : Char → Bool
  expChar : Char
  expBase : ℕ

def decimal : Radix := ⟨10, Char.isDigit, 'e', 10⟩
def hexadecimal : Radix := ⟨16, isHexDigit, 'p', 2⟩

/-! ## Reading -/

/-- Whether there is a minus sign, and what is behind the sign. -/
def scanSign : List Char → Bool × List Char
  | [] => (false, [])
  | c :: s => if c = '-' then (true, s) else if c = '+' then (false, s) else (false, c :: s)

/-- The digits behind the point, and the rest. -/
def scanFrac (r : Radix) : List Char → List Char × List Char
  | [] => ([], [])
  | c :: s => if c = '.' then (s.takeWhile r.isDigit, s.dropWhile r.isDigit) else ([], c :: s)

/-- The exponent, and the rest; without a digit there is none. -/
def scanExp (r : Radix) : List Char → ℤ × List Char
  | [] => (0, [])
  | c :: s =>
    let t := scanSign s
    let digits := t.2.takeWhile Char.isDigit
    if c.toLower = r.expChar ∧ digits ≠ [] then
      (if t.1 then -digitsVal 10 digits else digitsVal 10 digits, t.2.dropWhile Char.isDigit)
    else (0, c :: s)

/-- The number a text begins with, and the rest. -/
def scanNumber (r : Radix) (s : List Char) : Option (ℚ × List Char) :=
  let int := s.takeWhile r.isDigit
  let frac := scanFrac r (s.dropWhile r.isDigit)
  let exp := scanExp r frac.2
  if int ++ frac.1 = [] then none
  else
    some (digitsVal r.base (int ++ frac.1) / (r.base : ℚ) ^ frac.1.length * (r.expBase : ℚ) ^ exp.1,
      exp.2)

/-- Whether a text begins with `word`, upper or lower case. -/
def startsWith (word s : List Char) : Bool := word.isPrefixOf (s.map Char.toLower)

/-- The values of a `double`. -/
inductive Double
  | nan
  | inf (neg : Bool)
  | fin (value : ℚ)
deriving DecidableEq

/-- What `float` and `strtod` make of a number behind a sign. -/
def Double.ofSigned (neg : Bool) (value : ℚ) : Double := .fin (if neg then -value else value)

/-- `isspace`. -/
def isSpace (c : Char) : Bool := c == ' ' || ('\t' ≤ c && c ≤ '\r')

/-- `strtod`, with a null pointer for `endptr`. -/
def strtod (s : List Char) : Double :=
  let t := scanSign (s.dropWhile isSpace)
  if startsWith ['i', 'n', 'f'] t.2 then .inf t.1
  else if startsWith ['n', 'a', 'n'] t.2 then .nan
  else
    let hex := if startsWith ['0', 'x'] t.2 then scanNumber hexadecimal (t.2.drop 2) else none
    match hex.or (scanNumber decimal t.2) with
    | none => .fin 0
    | some n => .ofSigned t.1 n.1

/-- `strtol` with base 10 for a `long` of 64 bits, with a null pointer for `endptr`. -/
def strtol (s : List Char) : ℤ :=
  let t := scanSign (s.dropWhile isSpace)
  let n : ℤ := digitsVal 10 (t.2.takeWhile Char.isDigit)
  max (-2 ^ 63) (min (2 ^ 63 - 1) (if t.1 then -n else n))

/-- `atof`. -/
def atof (s : List Char) : Double := strtod s

/-! ## Digits are no letters -/

variable {c : Char} {s : List Char}

lemma digitsVal_eq_ofDigitChars (h : ∀ c ∈ s, c.isDigit = true) :
    digitsVal 10 s = Nat.ofDigitChars 10 s 0 := by
  refine List.foldl_ext _ _ 0 fun n c hc => ?_
  rw [digitVal, if_pos (h c hc)]

lemma mem_digits (h : c.isDigit = true) : c ∈ "0123456789".toList := by
  obtain ⟨hlo, hhi⟩ : 48 ≤ c.toNat ∧ c.toNat ≤ 57 := Char.isDigit_iff_toNat.1 h
  rw [← Char.ofNat_toNat c]
  generalize c.toNat = n at hlo hhi
  interval_cases n <;> decide

/-- How to see that the characters of a given text have a property. -/
lemma forall_mem_of_all {p : Char → Prop} [DecidablePred p] (h : s.all (fun c => decide (p c)) = true) :
    ∀ c ∈ s, p c := fun c hc => of_decide_eq_true (List.all_eq_true.1 h c hc)

lemma isSpace_of_isDigit (h : c.isDigit = true) : isSpace c = false := by
  have hall : ∀ c ∈ "0123456789".toList, isSpace c = false := forall_mem_of_all (by decide)
  exact hall c (mem_digits h)

lemma toLower_of_isDigit (h : c.isDigit = true) : c.toLower = c := by
  have hall : ∀ c ∈ "0123456789".toList, c.toLower = c := forall_mem_of_all (by decide)
  exact hall c (mem_digits h)

/-- A text without a sign. -/
lemma scanSign_cons (hspace : isSpace c = false) (hminus : c ≠ '-') (hplus : c ≠ '+') :
    scanSign ((c :: s).dropWhile isSpace) = (false, c :: s) := by
  rw [List.dropWhile_cons_of_neg (by simp [hspace]), scanSign, if_neg hminus, if_neg hplus]

lemma scanSign_of_isDigit (h : c.isDigit = true) :
    scanSign ((c :: s).dropWhile isSpace) = (false, c :: s) := by
  refine scanSign_cons (isSpace_of_isDigit h) ?_ ?_ <;> rintro rfl <;> exact absurd h (by decide)

/-- A text that does not begin with a number. -/
lemma strtol_cons (hspace : isSpace c = false) (hminus : c ≠ '-') (hplus : c ≠ '+')
    (hdigit : c.isDigit = false) : strtol (c :: s) = 0 := by
  rw [strtol, scanSign_cons hspace hminus hplus]
  simp [hdigit, digitsVal]

/-! ## Literals -/

/-- A decimal number: digits, and a point with more digits if there are any. -/
structure Literal where
  int : List Char
  frac : List Char
  int_ne_nil : int ≠ []
  int_digits : ∀ c ∈ int, c.isDigit = true
  frac_digits : ∀ c ∈ frac, c.isDigit = true

namespace Literal

/-- How it is written. -/
def text (v : Literal) : List Char := v.int ++ if v.frac = [] then [] else '.' :: v.frac

/-- The number. -/
def value (v : Literal) : ℚ := digitsVal 10 (v.int ++ v.frac) / 10 ^ v.frac.length

variable (v : Literal)

lemma text_ne_nil : v.text ≠ [] := List.append_ne_nil_of_left_ne_nil v.int_ne_nil _

/-- A literal has digits and a point. -/
lemma of_mem_text {c : Char} (h : c ∈ v.text) : c.isDigit = true ∨ c = '.' := by
  rcases List.mem_append.1 h with hint | hfrac
  · exact .inl (v.int_digits c hint)
  · split at hfrac
    · simp at hfrac
    · rcases List.mem_cons.1 hfrac with rfl | hfrac
      · exact .inr rfl
      · exact .inl (v.frac_digits c hfrac)

/-- It begins with a digit. -/
lemma exists_text_eq_cons : ∃ c s, v.text = c :: s ∧ c.isDigit = true := by
  obtain ⟨c, s, hint⟩ := List.exists_cons_of_ne_nil v.int_ne_nil
  refine ⟨c, s ++ if v.frac = [] then [] else '.' :: v.frac, by rw [text, hint]; rfl, ?_⟩
  exact v.int_digits c (hint ▸ List.mem_cons_self)

/-- The digits in front of the point, and the rest. -/
lemma takeWhile_text : v.text.takeWhile Char.isDigit = v.int := by
  rw [text, List.takeWhile_append_of_pos v.int_digits]
  split <;> simp

lemma dropWhile_text :
    v.text.dropWhile Char.isDigit = if v.frac = [] then [] else '.' :: v.frac := by
  rw [text, List.dropWhile_append_of_pos v.int_digits]
  split <;> simp

/-- **A literal is read** as the number it is written for. -/
lemma scanNumber_text : scanNumber decimal v.text = some (v.value, []) := by
  have hfrac : scanFrac decimal (v.text.dropWhile Char.isDigit) = (v.frac, []) := by
    rw [dropWhile_text]
    split
    · next hnil => simp [scanFrac, hnil]
    · simp only [scanFrac, if_true, decimal, List.takeWhile_eq_self_iff.2 v.frac_digits,
        List.dropWhile_eq_nil_iff.2 v.frac_digits]
  have hint : v.text.takeWhile decimal.isDigit = v.int := v.takeWhile_text
  have hne : v.int ++ v.frac ≠ [] := List.append_ne_nil_of_left_ne_nil v.int_ne_nil _
  have hdigit : decimal.isDigit = Char.isDigit := rfl
  rw [scanNumber, hint, hdigit, hfrac, if_neg hne]
  simp [scanExp, decimal, value]

/-- In lower case too. -/
lemma of_mem_map_toLower {c : Char} (h : c ∈ v.text.map Char.toLower) :
    c.isDigit = true ∨ c = '.' := by
  obtain ⟨d, hd, rfl⟩ := List.mem_map.1 h
  rcases v.of_mem_text hd with hd | rfl
  · rw [toLower_of_isDigit hd]
    exact .inl hd
  · exact .inr rfl

/-- It does not begin with a word that has an `n` or an `x`. -/
lemma startsWith_text {word : List Char} (h : 'n' ∈ word ∨ 'x' ∈ word) :
    startsWith word v.text = false := by
  refine Bool.eq_false_iff.2 fun hpre => ?_
  have hsub := (List.isPrefixOf_iff_prefix.1 hpre).subset
  rcases h with h | h <;> exact absurd (v.of_mem_map_toLower (hsub h)) (by decide)

/-- **`strtod` of a literal**. -/
lemma strtod_text : strtod v.text = .fin v.value := by
  obtain ⟨c, s, htext, hdigit⟩ := v.exists_text_eq_cons
  have hsign : scanSign (v.text.dropWhile isSpace) = (false, v.text) := by
    rw [htext]
    exact scanSign_of_isDigit hdigit
  have hinf : startsWith ['i', 'n', 'f'] v.text = false := v.startsWith_text (by decide)
  have hnan : startsWith ['n', 'a', 'n'] v.text = false := v.startsWith_text (by decide)
  have hhex : startsWith ['0', 'x'] v.text = false := v.startsWith_text (by decide)
  simp [strtod, hsign, hinf, hnan, hhex, scanNumber_text, Double.ofSigned]

end Literal

end Skq.Lib
