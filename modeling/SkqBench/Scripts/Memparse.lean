import Mathlib.Algebra.Order.Floor.Semiring
import Mathlib.Algebra.Order.Ring.Rat
import Mathlib.Data.List.Infix
import Mathlib.Data.NNRat.Floor
import Mathlib.Tactic.Linarith
import SkqBench.Lib.Decimal
import SkqBench.Lib.Words

/-!
# `build_memparse` and `parse_mut_output`: the result files of the scripts

`build_memparse` writes the latencies in columns of eight characters, and `parse_mut_output` splits
the line at white space.  It knows the layout by the number of fields, and takes nine of them for an
older one without `50th`.  A value of eight characters leaves no space in front of it
(`roundTrip_iff`).

Texts are lists of characters.  Numbers are rational.
-/

namespace Skq.Scripts

open Lib

/-! ## Strings and numbers of Python -/

/-- `str.isspace` for a character. -/
def isSpaceChar (c : Char) : Bool :=
  ('\t' ≤ c && c ≤ '\r') || ('\x1c' ≤ c && c ≤ ' ') || c == '\x85' || c == '\xa0' ||
    c == '\u1680' || ('\u2000' ≤ c && c ≤ '\u200a') || c == '\u2028' || c == '\u2029' ||
    c == '\u202f' || c == '\u205f' || c == '\u3000'

/-- The characters that end a line. -/
def isLineBreak (c : Char) : Bool :=
  ('\n' ≤ c && c ≤ '\r') || ('\x1c' ≤ c && c ≤ '\x1e') || c == '\x85' || c == '\u2028' ||
    c == '\u2029'

/-- `str.splitlines`. -/
def splitlines : List Char → List (List Char)
  | [] => []
  | '\r' :: '\n' :: s => [] :: splitlines s
  | c :: s =>
    if isLineBreak c then [] :: splitlines s
    else
      match splitlines s with
      | [] => [[c]]
      | line :: lines => (c :: line) :: lines

/-- `str.split`. -/
def split (s : List Char) : List (List Char) := words isSpaceChar s

/-- Formats `<` and `>`: `s` in a column, at the left or at the right. -/
def ljust (width : ℕ) (s : List Char) : List Char := s ++ List.replicate (width - s.length) ' '
def rjust (width : ℕ) (s : List Char) : List Char := padLeft ' ' width s

/-- How many tenths are nearest; of two that are, the even one. -/
def tenths (x : ℚ≥0) : ℕ :=
  let y : ℚ := 10 * x
  let n := ⌊y⌋₊
  if y < n + 1 / 2 ∨ y = n + 1 / 2 ∧ Even n then n else n + 1

/-- Format `.1f`. -/
def fixed1 (x : ℚ≥0) : List Char :=
  Nat.toDigits 10 (tenths x / 10) ++ '.' :: Nat.toDigits 10 (tenths x % 10)

/-- The underscores between digits; there may be no others. -/
def dropUnderscores : Char → List Char → Option (List Char)
  | prev, [] => if prev = '_' then none else some []
  | prev, c :: s =>
    if c = '_' then if prev.isDigit then dropUnderscores c s else none
    else if prev = '_' ∧ c.isDigit = false then none
    else (dropUnderscores c s).map (c :: ·)

/-- `str.strip`. -/
def strip (s : List Char) : List Char :=
  ((s.dropWhile isSpaceChar).reverse.dropWhile isSpaceChar).reverse

/-- `float`; `none` for the exception. -/
def pyFloat (s : List Char) : Option Double :=
  match dropUnderscores ' ' (strip s) with
  | none => none
  | some s =>
    let t := scanSign s
    let word := t.2.map Char.toLower
    if word = "inf".toList ∨ word = "infinity".toList then some (.inf t.1)
    else if word = "nan".toList then some .nan
    else
      match scanNumber decimal t.2 with
      | some (x, []) => some (.ofSigned t.1 x)
      | _ => none

/-- A dictionary, in the order of insertion. -/
abbrev Dict := List (String × Double)

/-- `d[key] = value`. -/
def Dict.set (d : Dict) (key : String) (value : Double) : Dict :=
  if ∃ p ∈ d, p.1 = key then d.map fun p => if p.1 = key then (key, value) else p
  else d ++ [(key, value)]

/-! ## The writer -/

/-- What is written. -/
structure Latencies where
  avg : ℚ≥0
  std : ℚ≥0
  min : ℚ≥0
  p5 : ℚ≥0
  p10 : ℚ≥0
  p50 : ℚ≥0
  p90 : ℚ≥0
  p95 : ℚ≥0
  p99 : ℚ≥0

/-- The values behind the first one. -/
def Latencies.others (lat : Latencies) : List ℚ≥0 :=
  [lat.std, lat.min, lat.p5, lat.p10, lat.p50, lat.p90, lat.p95, lat.p99]

/-- The values from left to right. -/
def Latencies.values (lat : Latencies) : List ℚ≥0 := lat.avg :: lat.others

/-- The first line. -/
def headerLine : List Char :=
  ljust 10 "#type".toList ++ rjust 8 "avg".toList ++ rjust 8 "std".toList ++
    rjust 8 "min".toList ++ rjust 8 "5th".toList ++ rjust 8 "10th".toList ++
    rjust 8 "50th".toList ++ rjust 8 "90th".toList ++ rjust 8 "95th".toList ++
    rjust 8 "99th".toList

/-- The line of the latencies. -/
def readLine (lat : Latencies) : List Char :=
  ljust 10 "read".toList ++ lat.values.flatMap fun x => rjust 8 (fixed1 x)

/-- The line of the throughput. -/
def qpsLine (qps : ℚ≥0) : List Char :=
  "Total QPS = ".toList ++ fixed1 qps ++ " (0 / 0s)".toList

/-- `build_memparse`. -/
def buildMemparse (lat : Latencies) (qps : ℚ≥0) : List Char :=
  headerLine ++ ['\n'] ++ readLine lat ++ ['\n'] ++ ['\n'] ++ qpsLine qps

/-! ## The reader -/

/-- `memdata`. -/
structure Memdata where
  dat : Dict
  qps : Double
deriving DecidableEq

/-- The exceptions of `float`, and of `parse_mut_output` itself. -/
inductive ParseError
  | valueError
  | failed
deriving DecidableEq

/-- The variables of the loop. -/
structure ParseState where
  ret : Memdata
  succQps : Bool
  succRead : Bool
deriving DecidableEq

/-- `table` and `table_legacy`, without their first entry, which is `None`. -/
def table : List String := ["avg", "std", "min", "5th", "10th", "50th", "90th", "95th", "99th"]
def tableLegacy : List String := ["avg", "std", "min", "5th", "10th", "90th", "95th", "99th"]

/-- The loop over the fields of a line, from the second one on. -/
def readFields (names : List String) (fields : List (List Char)) (dat : Dict) :
    Except ParseError Dict :=
  (names.zip fields).foldlM (fun dat p =>
    match pyFloat p.2 with
    | none => .error .valueError
    | some x => .ok (dat.set p.1 x)) dat

/-- The body of the loop over the lines; `done` is `break`. -/
def parseLine (line : List Char) (st : ParseState) : Except ParseError (ForInStep ParseState) :=
  if "Total QPS".toList <:+: line then
    let spl := split line
    if spl.length = 7 then
      match pyFloat (spl.getD 3 []) with
      | none => .error .valueError
      | some x => .ok (.yield { st with ret := { st.ret with qps := x }, succQps := true })
    else .ok (.done st)
  else if "read".toList <:+: line then
    let spl := split line
    if spl.length = 10 then
      (readFields table spl.tail st.ret.dat).map fun dat =>
        .yield { st with ret := { st.ret with dat := dat }, succRead := true }
    else if spl.length = 9 then
      (readFields tableLegacy spl.tail st.ret.dat).map fun dat =>
        .yield { st with ret := { st.ret with dat := dat }, succRead := true }
    else .ok (.done st)
  else .ok (.yield st)

/-- `parse_mut_output`. -/
def parseMutOutput (output : List Char) : Except ParseError Memdata := do
  let st ← forIn (splitlines output) ⟨⟨[], .fin 0⟩, false, false⟩ parseLine
  if st.succQps && st.succRead then pure st.ret else .error .failed

/-! ## What is asked of them -/

/-- A value, rounded to one decimal. -/
def rounded (x : ℚ≥0) : Double := .fin (tenths x / 10)

/-- What was written is read again. -/
def RoundTrip (lat : Latencies) (qps : ℚ≥0) : Prop :=
  parseMutOutput (buildMemparse lat qps) = .ok ⟨table.zip (lat.values.map rounded), rounded qps⟩

/-! ## Numbers -/

variable {x qps : ℚ≥0} {lat : Latencies} {st : ParseState} {line rest : List Char}

/-- When a number has at most five digits in front of the point. -/
lemma tenths_lt_iff : tenths x < 10 ^ 6 ↔ (x : ℚ) < 99999.95 := by
  have hle := Nat.floor_le (show (0 : ℚ) ≤ 10 * x by positivity)
  have hlt := Nat.lt_floor_add_one (10 * (x : ℚ))
  simp only [tenths]
  generalize ⌊10 * (x : ℚ)⌋₊ = n at *
  have hle' : n ≤ 999999 ↔ (n : ℚ) ≤ 999999 := by norm_cast
  have hge' : 999999 ≤ n ↔ (999999 : ℚ) ≤ n := by norm_cast
  split
  · next hdown =>
    constructor
    · intro hn
      have hn' := hle'.1 (by omega)
      rcases hdown with hdown | ⟨hhalf, heven⟩
      · linarith
      · -- the largest one is odd
        have hodd : n ≠ 999999 := by
          rintro rfl
          exact absurd heven (by decide)
        have hn'' : (n : ℚ) ≤ 999998 := by exact_mod_cast (show n ≤ 999998 by omega)
        linarith
    · intro hx
      have hn : (n : ℚ) < (10 ^ 6 : ℕ) := by
        push_cast
        linarith
      exact_mod_cast hn
  · next hup =>
    constructor
    · intro hn
      have hn' : (n : ℚ) ≤ 999998 := by exact_mod_cast (show n ≤ 999998 by omega)
      linarith
    · intro hx
      by_contra hn
      have hn' := hge'.1 (by omega)
      exact hup (.inl (by linarith))

/-- The number that is written. -/
def tenthsLiteral (x : ℚ≥0) : Literal where
  int := Nat.toDigits 10 (tenths x / 10)
  frac := Nat.toDigits 10 (tenths x % 10)
  int_ne_nil := Nat.toDigits_ne_nil
  int_digits := fun _ hc => Nat.isDigit_of_mem_toDigits (by decide) (by decide) hc
  frac_digits := fun _ hc => Nat.isDigit_of_mem_toDigits (by decide) (by decide) hc

lemma fixed1_eq_text : fixed1 x = (tenthsLiteral x).text := by
  rw [fixed1, Literal.text, if_neg]
  · rfl
  · exact Nat.toDigits_ne_nil

lemma value_tenthsLiteral : (tenthsLiteral x).value = tenths x / 10 := by
  have hlast : (tenthsLiteral x).frac = [(tenths x % 10).digitChar] :=
    Nat.toDigits_of_lt_base (Nat.mod_lt _ (by decide))
  have hdigits : ∀ c ∈ (tenthsLiteral x).int ++ (tenthsLiteral x).frac, c.isDigit = true := by
    intro c hc
    exact (List.mem_append.1 hc).elim ((tenthsLiteral x).int_digits c)
      ((tenthsLiteral x).frac_digits c)
  have hvalue : digitsVal 10 ((tenthsLiteral x).int ++ (tenthsLiteral x).frac) = tenths x := by
    rw [digitsVal_eq_ofDigitChars hdigits, hlast, tenthsLiteral, Nat.ofDigitChars_append,
      Nat.ofDigitChars_ten_toDigits,
      Nat.ofDigitChars_cons_digitChar_of_lt_ten (Nat.mod_lt _ (by decide)), Nat.ofDigitChars_nil]
    exact Nat.div_add_mod _ _
  rw [Literal.value, hvalue, hlast, List.length_singleton, pow_one]

/-- A literal has no white space. -/
lemma isSpaceChar_of_mem_text {v : Literal} {c : Char} (h : c ∈ v.text) :
    isSpaceChar c = false := by
  have hall : ∀ c ∈ "0123456789".toList, isSpaceChar c = false := forall_mem_of_all (by decide)
  rcases v.of_mem_text h with h | rfl
  · exact hall c (mem_digits h)
  · decide

lemma strip_of_forall {s : List Char} (h : ∀ c ∈ s, isSpaceChar c = false) : strip s = s := by
  have hdrop : ∀ t : List Char, (∀ c ∈ t, isSpaceChar c = false) → t.dropWhile isSpaceChar = t :=
    fun t ht => List.dropWhile_eq_self_iff.2 fun hpos => by simp [ht _ (List.getElem_mem hpos)]
  rw [strip, hdrop s h, hdrop s.reverse fun c hc => h c (List.mem_reverse.1 hc), List.reverse_reverse]

lemma dropUnderscores_of_notMem {s : List Char} (h : '_' ∉ s) {prev : Char} (hprev : prev ≠ '_') :
    dropUnderscores prev s = some s := by
  induction s generalizing prev with
  | nil => rw [dropUnderscores, if_neg hprev]
  | cons c s ih =>
    have hc : c ≠ '_' := fun heq => h (heq ▸ List.mem_cons_self)
    rw [dropUnderscores, if_neg hc, if_neg fun hand => hprev hand.1,
      ih (fun hmem => h (List.mem_cons_of_mem c hmem)) hc, Option.map_some]

/-- **`float` of a literal.** -/
lemma pyFloat_text (v : Literal) : pyFloat v.text = some (.fin v.value) := by
  obtain ⟨c, s, htext, hdigit⟩ := v.exists_text_eq_cons
  have hspace : v.text.dropWhile isSpace = v.text := by
    rw [htext, List.dropWhile_cons_of_neg (by simp [isSpace_of_isDigit hdigit])]
  have hsign : scanSign v.text = (false, v.text) := by
    rw [htext, ← scanSign_of_isDigit hdigit, ← htext, hspace]
  have hunder : '_' ∉ v.text := fun h => absurd (v.of_mem_text h) (by decide)
  have hword : ∀ word : List Char, 'n' ∈ word → v.text.map Char.toLower ≠ word := by
    rintro word hn rfl
    exact absurd (v.of_mem_map_toLower hn) (by decide)
  rw [pyFloat, strip_of_forall fun c hc => isSpaceChar_of_mem_text hc,
    dropUnderscores_of_notMem hunder (by decide)]
  simp [hsign, hword _ (show 'n' ∈ ['i', 'n', 'f'] by decide),
    hword _ (show 'n' ∈ ['n', 'a', 'n'] by decide),
    hword _ (show 'n' ∈ ['i', 'n', 'f', 'i', 'n', 'i', 't', 'y'] by decide), v.scanNumber_text,
    Double.ofSigned]

/-- A number is a word. -/
lemma isWord_fixed1 : IsWord isSpaceChar (fixed1 x) := by
  rw [fixed1_eq_text]
  exact ⟨Literal.text_ne_nil _, fun c hc => isSpaceChar_of_mem_text hc⟩

lemma length_fixed1_lt : (fixed1 x).length < 8 ↔ (x : ℚ) < 99999.95 := by
  have hlast : Nat.toDigits 10 (tenths x % 10) = [(tenths x % 10).digitChar] :=
    Nat.toDigits_of_lt_base (Nat.mod_lt _ (by decide))
  have hdigits := Nat.length_toDigits_le_iff (b := 10) (n := tenths x / 10) (k := 5) (by decide)
    (by decide)
  rw [← tenths_lt_iff, fixed1, hlast, List.length_append, List.length_cons, List.length_singleton]
  omega

/-! ## Lines -/

/-- A line with a line break behind it. -/
lemma splitlines_append (h : ∀ c ∈ line, isLineBreak c = false) :
    splitlines (line ++ '\n' :: rest) = line :: splitlines rest := by
  induction line with
  | nil => rfl
  | cons c line ih =>
    have hc := h c List.mem_cons_self
    have hcr : c ≠ '\r' := by
      rintro rfl
      exact absurd hc (by decide)
    rw [List.cons_append, splitlines, ih fun d hd => h d (List.mem_cons_of_mem c hd)]
    · simp [hc]
    · simp [hcr]

/-- The last line. -/
lemma splitlines_self (h : ∀ c ∈ line, isLineBreak c = false) (hne : line ≠ []) :
    splitlines line = [line] := by
  induction line with
  | nil => exact absurd rfl hne
  | cons c line ih =>
    have hc := h c List.mem_cons_self
    have hcr : c ≠ '\r' := by
      rintro rfl
      exact absurd hc (by decide)
    have hrest : splitlines line = if line = [] then [] else [line] := by
      split
      · next hnil => rw [hnil, splitlines]
      · next hline => exact ih (fun d hd => h d (List.mem_cons_of_mem c hd)) hline
    rw [splitlines, hrest]
    · by_cases hnil : line = [] <;> simp [hc, hnil]
    · simp [hcr]

/-- The characters of a number. -/
lemma of_mem_fixed1 {c : Char} (h : c ∈ fixed1 x) : c.isDigit = true ∨ c = '.' :=
  (tenthsLiteral x).of_mem_text (fixed1_eq_text ▸ h)

/-- The characters of the line of the latencies. -/
lemma of_mem_readLine {c : Char} (h : c ∈ readLine lat) :
    c ∈ "read ".toList ∨ c.isDigit = true ∨ c = '.' := by
  rcases List.mem_append.1 h with h | h
  · have hall : ∀ c ∈ ljust 10 "read".toList, c ∈ "read ".toList :=
      forall_mem_of_all (by decide +kernel)
    exact .inl (hall c h)
  · obtain ⟨x, -, h⟩ := List.mem_flatMap.1 h
    rcases List.mem_append.1 h with h | h
    · rw [List.eq_of_mem_replicate h]
      exact .inl (by decide)
    · exact .inr (of_mem_fixed1 h)

lemma isLineBreak_of_isDigit {c : Char} (h : c.isDigit = true) : isLineBreak c = false := by
  have hall : ∀ c ∈ "0123456789".toList, isLineBreak c = false := forall_mem_of_all (by decide)
  exact hall c (mem_digits h)

/-- **The lines of the file.** -/
lemma splitlines_buildMemparse :
    splitlines (buildMemparse lat qps) = [headerLine, readLine lat, [], qpsLine qps] := by
  have hheader : ∀ c ∈ headerLine, isLineBreak c = false := forall_mem_of_all (by decide +kernel)
  have hread : ∀ c ∈ readLine lat, isLineBreak c = false := by
    intro c hc
    have hall : ∀ c ∈ "read ".toList, isLineBreak c = false := forall_mem_of_all (by decide)
    rcases of_mem_readLine hc with hc | hc | rfl
    · exact hall c hc
    · exact isLineBreak_of_isDigit hc
    · decide
  have hqps : ∀ c ∈ qpsLine qps, isLineBreak c = false := by
    intro c hc
    have hleft : ∀ c ∈ "Total QPS = ".toList, isLineBreak c = false :=
      forall_mem_of_all (by decide)
    have hright : ∀ c ∈ " (0 / 0s)".toList, isLineBreak c = false := forall_mem_of_all (by decide)
    unfold qpsLine at hc
    rw [List.mem_append, List.mem_append] at hc
    rcases hc with (hc | hc) | hc
    · exact hleft c hc
    · rcases of_mem_fixed1 hc with hc | rfl
      · exact isLineBreak_of_isDigit hc
      · decide
    · exact hright c hc
  have hempty : splitlines ('\n' :: qpsLine qps) = [] :: splitlines (qpsLine qps) := by
    refine @splitlines_append [] (qpsLine qps) fun c hc => ?_
    cases hc
  have hne : qpsLine qps ≠ [] := by
    unfold qpsLine
    exact List.append_ne_nil_of_right_ne_nil _ (by decide)
  simp only [buildMemparse, List.append_assoc, List.cons_append, List.nil_append]
  rw [splitlines_append hheader, splitlines_append hread, hempty, splitlines_self hqps hne]

/-! ## Fields -/

/-- The columns behind the name. -/
lemma words_readLine : split (readLine lat) = "read".toList ::
    split (fixed1 lat.avg ++ columns ' ' 8 (lat.others.map fixed1)) := by
  have hline : readLine lat = "read".toList ++ ' ' :: (List.replicate 5 ' ' ++
      (List.replicate (8 - (fixed1 lat.avg).length) ' ' ++
        (fixed1 lat.avg ++ columns ' ' 8 (lat.others.map fixed1)))) := by
    simp only [readLine, Latencies.values, List.flatMap_cons, rjust, padLeft, columns,
      List.flatMap_map, List.append_assoc]
    rfl
  rw [split, hline, words_append (isWord_of_all (by decide)) (by decide),
    words_replicate_append (by decide), words_replicate_append (by decide)]
  rfl

/-- Where every column but the first has a space in front, these are all values. -/
lemma split_readLine (h : ∀ x ∈ lat.others, (x : ℚ) < 99999.95) :
    split (readLine lat) = "read".toList :: lat.values.map fixed1 := by
  have hwords : ∀ w ∈ lat.others.map fixed1, IsWord isSpaceChar w ∧ w.length < 8 := by
    intro w hw
    obtain ⟨x, hx, rfl⟩ := List.mem_map.1 hw
    exact ⟨isWord_fixed1, length_fixed1_lt.2 (h x hx)⟩
  rw [words_readLine, split, words_columns (by decide) hwords, words_self isWord_fixed1]
  rfl

/-- Otherwise there are less than ten fields. -/
lemma length_split_readLine (h : ¬ ∀ x ∈ lat.others, (x : ℚ) < 99999.95) :
    (split (readLine lat)).length < 10 := by
  have hwords : ∀ w ∈ lat.others.map fixed1, IsWord isSpaceChar w := by
    intro w hw
    obtain ⟨x, -, rfl⟩ := List.mem_map.1 hw
    exact isWord_fixed1
  have hwide : ∃ w ∈ lat.others.map fixed1, 8 ≤ w.length := by
    obtain ⟨x, hx, hle⟩ := not_forall₂.1 h
    refine ⟨fixed1 x, List.mem_map_of_mem hx, ?_⟩
    by_contra hlen
    exact hle (length_fixed1_lt.1 (by omega))
  obtain ⟨hne, hchars⟩ := isWord_fixed1 (x := lat.avg)
  have hone := words_self ⟨hne, hchars⟩
  rw [words_readLine, List.length_cons, split]
  rw [← List.dropLast_concat_getLast hne] at hone ⊢
  have hlt := length_words_columns_lt (show isSpaceChar ' ' = true by decide) hwords hwide
    (hchars _ (List.getLast_mem hne)) (fixed1 lat.avg).dropLast
  rw [hone] at hlt
  rw [List.append_assoc, List.singleton_append]
  exact Nat.succ_lt_succ hlt

/-- The line of the throughput has seven fields. -/
lemma split_qpsLine : split (qpsLine qps) = ["Total".toList, "QPS".toList, "=".toList, fixed1 qps,
    "(0".toList, "/".toList, "0s)".toList] := by
  have hline : qpsLine qps = "Total".toList ++ ' ' :: ("QPS".toList ++ ' ' :: ("=".toList ++ ' ' ::
      (fixed1 qps ++ ' ' :: ("(0".toList ++ ' ' :: ("/".toList ++ ' ' :: "0s)".toList))))) := by
    have hleft : "Total QPS = ".toList =
        "Total".toList ++ ' ' :: ("QPS".toList ++ ' ' :: ("=".toList ++ [' '])) := by decide +kernel
    have hright : " (0 / 0s)".toList =
        ' ' :: ("(0".toList ++ ' ' :: ("/".toList ++ ' ' :: "0s)".toList)) := by decide +kernel
    unfold qpsLine
    rw [hleft, hright]
    simp only [List.append_assoc, List.cons_append, List.nil_append]
  rw [split, hline, words_append (isWord_of_all (by decide)) (by decide),
    words_append (isWord_of_all (by decide)) (by decide),
    words_append (isWord_of_all (by decide)) (by decide),
    words_append isWord_fixed1 (by decide),
    words_append (isWord_of_all (by decide)) (by decide),
    words_append (isWord_of_all (by decide)) (by decide), words_self (isWord_of_all (by decide))]

/-! ## The dictionary -/

lemma pyFloat_fixed1 : pyFloat (fixed1 x) = some (rounded x) := by
  rw [fixed1_eq_text, pyFloat_text, value_tenthsLiteral]
  rfl

/-- A new key. -/
lemma Dict.set_of_notMem {d : Dict} {key : String} (h : ∀ p ∈ d, p.1 ≠ key) (value : Double) :
    d.set key value = d ++ [(key, value)] := by
  rw [Dict.set, if_neg]
  rintro ⟨p, hp, heq⟩
  exact h p hp heq

lemma Dict.length_set_le (d : Dict) (key : String) (value : Double) :
    (d.set key value).length ≤ d.length + 1 := by
  rw [Dict.set]
  split <;> simp

/-- The fields of a table. -/
lemma readFields_fixed1 {names : List String} (hnames : names.Nodup) (xs : List ℚ≥0) {d : Dict}
    (hd : ∀ p ∈ d, p.1 ∉ names) : readFields names (xs.map fixed1) d =
      .ok (d ++ names.zip (xs.map rounded)) := by
  induction names generalizing xs d with
  | nil => simp [readFields, pure, Except.pure]
  | cons name names ih =>
    cases xs with
    | nil => simp [readFields, pure, Except.pure]
    | cons x xs =>
      obtain ⟨hname, hnames⟩ := List.nodup_cons.1 hnames
      have hset := Dict.set_of_notMem (fun p hp heq => hd p hp (heq ▸ List.mem_cons_self))
        (rounded x)
      have hd' : ∀ p ∈ d ++ [(name, rounded x)], p.1 ∉ names := by
        intro p hp hmem
        rcases List.mem_append.1 hp with hp | hp
        · exact hd p hp (List.mem_cons_of_mem name hmem)
        · rw [List.mem_singleton.1 hp] at hmem
          exact hname hmem
      have hrest := ih hnames xs hd'
      rw [readFields] at hrest ⊢
      rw [List.map_cons, List.zip_cons_cons, List.foldlM_cons]
      simp only [pyFloat_fixed1, hset]
      refine hrest.trans ?_
      simp

/-- There are no more entries than names. -/
lemma length_readFields_le {names : List String} {fields : List (List Char)} {d d' : Dict}
    (h : readFields names fields d = .ok d') : d'.length ≤ d.length + names.length := by
  induction names generalizing fields d with
  | nil =>
    cases h
    exact Nat.le_refl _
  | cons name names ih =>
    cases fields with
    | nil =>
      cases h
      exact Nat.le_add_right _ _
    | cons field fields =>
      rw [readFields, List.zip_cons_cons, List.foldlM_cons] at h
      cases hfloat : pyFloat field with
      | none =>
        simp only [hfloat] at h
        cases h
      | some x =>
        simp only [hfloat] at h
        have hread : readFields names fields (d.set name x) = .ok d' := h
        have hrest := ih hread
        have hset := d.length_set_le name x
        rw [List.length_cons]
        omega

/-! ## The loop -/

lemma not_infix_of_notMem {w : List Char} {c : Char} (hc : c ∈ w) (h : c ∉ line) : ¬ w <:+: line :=
  fun hinf => h (hinf.subset hc)

/-- A line that is passed over. -/
lemma parseLine_other (hq : 'Q' ∉ line) (hr : 'r' ∉ line) : parseLine line st = .ok (.yield st) := by
  unfold parseLine
  rw [if_neg (not_infix_of_notMem (by decide) hq),
    if_neg (not_infix_of_notMem (by decide) hr)]

lemma parseLine_qpsLine : parseLine (qpsLine qps) st =
    .ok (.yield { st with ret := { st.ret with qps := rounded qps }, succQps := true }) := by
  have hfound : "Total QPS".toList <:+: qpsLine qps := by
    have hleft : "Total QPS".toList <:+: "Total QPS = ".toList := by decide +kernel
    unfold qpsLine
    exact hleft.trans (List.infix_append_left.trans List.infix_append_left)
  unfold parseLine
  rw [if_pos hfound]
  simp [split_qpsLine, pyFloat_fixed1]

lemma parseLine_readLine {spl : List (List Char)} (hspl : split (readLine lat) = spl) :
    parseLine (readLine lat) st =
      if spl.length = 10 then
        (readFields table spl.tail st.ret.dat).map fun dat =>
          .yield { st with ret := { st.ret with dat := dat }, succRead := true }
      else if spl.length = 9 then
        (readFields tableLegacy spl.tail st.ret.dat).map fun dat =>
          .yield { st with ret := { st.ret with dat := dat }, succRead := true }
      else .ok (.done st) := by
  have hq : 'Q' ∉ readLine lat := by
    intro h
    exact absurd (of_mem_readLine h) (by decide)
  have hfound : "read".toList <:+: readLine lat :=
    List.infix_append_left.trans List.infix_append_left
  subst hspl
  unfold parseLine
  rw [if_neg (not_infix_of_notMem (by decide) hq), if_pos hfound]

/-- What is returned, from what the line of the latencies does. -/
def afterRead (qps : ℚ≥0) : Except ParseError (ForInStep ParseState) → Except ParseError Memdata
  | .ok (.yield st) =>
    if st.succRead then .ok { st.ret with qps := rounded qps } else .error .failed
  | .ok (.done st) => if st.succQps && st.succRead then .ok st.ret else .error .failed
  | .error e => .error e

lemma parseMutOutput_eq_afterRead : parseMutOutput (buildMemparse lat qps) =
    afterRead qps (parseLine (readLine lat) ⟨⟨[], .fin 0⟩, false, false⟩) := by
  have hheader : parseLine headerLine ⟨⟨[], .fin 0⟩, false, false⟩ =
      .ok (.yield ⟨⟨[], .fin 0⟩, false, false⟩) :=
    parseLine_other (by decide +kernel) (by decide +kernel)
  have hempty : ∀ st, parseLine [] st = .ok (.yield st) := fun st =>
    parseLine_other (by decide) (by decide)
  rw [parseMutOutput, splitlines_buildMemparse, List.forIn_cons, hheader]
  simp only [bind, Except.bind, List.forIn_cons]
  cases parseLine (readLine lat) ⟨⟨[], .fin 0⟩, false, false⟩ with
  | error e => rfl
  | ok step =>
    cases step with
    | done st => rfl
    | yield st =>
      simp [hempty, parseLine_qpsLine, afterRead, pure, Except.pure]

/-- **The file is read** as one with ten fields, as an older one, or not at all. -/
lemma parseMutOutput_eq {spl : List (List Char)} (hspl : split (readLine lat) = spl) :
    parseMutOutput (buildMemparse lat qps) =
      if spl.length = 10 then (readFields table spl.tail []).map (⟨·, rounded qps⟩)
      else if spl.length = 9 then (readFields tableLegacy spl.tail []).map (⟨·, rounded qps⟩)
      else .error .failed := by
  rw [parseMutOutput_eq_afterRead, parseLine_readLine hspl]
  by_cases hten : spl.length = 10
  · rw [if_pos hten, if_pos hten]
    cases readFields table spl.tail [] <;> rfl
  · rw [if_neg hten, if_neg hten]
    by_cases hnine : spl.length = 9
    · rw [if_pos hnine, if_pos hnine]
      cases readFields tableLegacy spl.tail [] <;> rfl
    · rw [if_neg hnine, if_neg hnine]
      rfl

/-- **What was written is read again** iff every value but the first one is less than `99999.95`, so
that it has a space in front. -/
theorem roundTrip_iff (lat : Latencies) (qps : ℚ≥0) :
    RoundTrip lat qps ↔ ∀ x ∈ lat.others, (x : ℚ) < 99999.95 := by
  rw [RoundTrip]
  constructor
  · intro h
    by_contra hwide
    have hlen := length_split_readLine hwide
    obtain ⟨spl, hspl⟩ : ∃ spl, split (readLine lat) = spl := ⟨_, rfl⟩
    rw [hspl] at hlen
    rw [parseMutOutput_eq hspl, if_neg (by omega)] at h
    split at h
    · -- the older layout has eight values
      cases hread : readFields tableLegacy spl.tail [] with
      | error e =>
        rw [hread] at h
        cases h
      | ok dat =>
        have hle := length_readFields_le hread
        rw [hread] at h
        have hdat : dat = table.zip (lat.values.map rounded) :=
          congrArg Memdata.dat (Except.ok.inj h)
        simp [hdat, table, tableLegacy, Latencies.values, Latencies.others] at hle
    · cases h
  · intro hnarrow
    have hnames : table.Nodup := by decide
    have hlen : ("read".toList :: lat.values.map fixed1).length = 10 := by
      simp [Latencies.values, Latencies.others]
    rw [parseMutOutput_eq (split_readLine hnarrow), if_pos hlen, List.tail_cons,
      readFields_fixed1 hnames _ fun p hp => absurd hp List.not_mem_nil]
    rfl

/-- A latency of `100000.0`. -/
theorem not_roundTrip_wide : ¬ RoundTrip ⟨1, 1, 1, 1, 1, 1, 1, 1, 100000⟩ 1 := by
  unfold RoundTrip
  decide +kernel

end Skq.Scripts
