import Mathlib.Data.List.Forall2
import Mathlib.Data.List.Induction
import SkqBench.Lib.CString

/-!
# `parse_mode_params` and `parse_rgen_params`: the arguments of `-O`

`ppd` and `dismember` copy each argument of `-O` to the next row of an array, and later take every
row apart at the character `=`.  The rows are not counted, the copy is cut off at the end of the
row, and the tokenizer merges and splits at every `=`.  `paramsOK_iff` says for which arguments the
map has what was written on the command line.
-/

namespace Skq.Pingpong

open Lib

/-! ## The code -/

/-- `MAX_MODE_PARAMS`, `MAX_MODE_PARAMS_LEN`, `MAX_GEN_PARAMS` and `MAX_GEN_PARAMS_LEN`. -/
def maxModeParams : ℕ := 8
def maxModeParamsLen : ℕ := 64
def maxGenParams : ℕ := 8
def maxGenParamsLen : ℕ := 31

/-- The programs that have the option `-O`. -/
inductive ParamProgram
  | ppd
  | dismember
deriving DecidableEq

/-- The number of rows of the array. -/
def ParamProgram.maxParams : ParamProgram → ℕ
  | ppd => maxModeParams
  | dismember => maxGenParams

/-- The length of a row, without the character that ends the string. -/
def ParamProgram.maxLen : ParamProgram → ℕ
  | ppd => maxModeParamsLen
  | dismember => maxGenParamsLen

/-- `mode_params` with `num_mode_params`, or `gen_params` with `num_gen_params`. -/
structure ParamOptions where
  params : List (List Char)
  numParams : ℕ
deriving DecidableEq

/-- What must not happen: an access outside of the array, and a `std::string` of a null pointer. -/
inductive ParamFault
  | outside
  | null
deriving DecidableEq

/-- The initial values of the options. -/
def ParamOptions.init (prog : ParamProgram) : ParamOptions :=
  ⟨List.replicate prog.maxParams (List.replicate (prog.maxLen + 1) nul), 0⟩

/-- The case `'O'` in `main`. -/
def setParam (prog : ParamProgram) (options : ParamOptions) (optarg : CStr) :
    Except ParamFault ParamOptions :=
  match options.params[options.numParams]? with
  | none => .error .outside
  | some row =>
    .ok ⟨options.params.set options.numParams (strncpy row optarg.chars prog.maxLen),
      options.numParams + 1⟩

/-- The map of the parameters. -/
abbrev ParamMap := List Char → Option (List Char)

/-- `unordered_map::insert` does nothing if there is the key. -/
def ParamMap.insert (m : ParamMap) (p : List Char × List Char) : ParamMap :=
  if (m p.1).isSome then m else fun key => if key = p.1 then some p.2 else m key

/-- The two calls of `strtok_r`, and the strings that are made of their results. -/
def parseParam (row : List Char) : Except ParamFault (List Char × List Char) :=
  let key := strtokR (some (cstr row)) '=' none
  let val := strtokR none '=' key.2
  match key.1, val.1 with
  | some key, some val => .ok (key, val)
  | _, _ => .error .null

/-- The body of the loop. -/
def insertParam (options : ParamOptions) (m : ParamMap) (i : ℕ) : Except ParamFault ParamMap :=
  match options.params[i]? with
  | none => .error .outside
  | some row => (parseParam row).map m.insert

/-- The loop. -/
def parseParams (options : ParamOptions) : Except ParamFault ParamMap :=
  (List.range options.numParams).foldlM (insertParam options) fun _ => none

/-- `parse_mode_params` of `ppd`. -/
def parseModeParams (options : ParamOptions) : Except ParamFault ParamMap := parseParams options

/-- `parse_rgen_params` of `dismember`. -/
def parseRgenParams (options : ParamOptions) : Except ParamFault ParamMap := parseParams options

/-- What `main` calls. -/
def ParamProgram.parse : ParamProgram → ParamOptions → Except ParamFault ParamMap
  | ppd => parseModeParams
  | dismember => parseRgenParams

/-- The map `main` has for the arguments of `-O`. -/
def paramsOf (prog : ParamProgram) (args : List CStr) : Except ParamFault ParamMap :=
  args.foldlM (setParam prog) (.init prog) >>= prog.parse

/-! ## What is asked of it -/

/-- The text before the first `=`. -/
def paramKey (arg : List Char) : List Char := arg.takeWhile (· ≠ '=')

/-- The text after the first `=`. -/
def paramValue (arg : List Char) : List Char := (arg.dropWhile (· ≠ '=')).tail

/-- The map that is written on the command line. -/
def writtenParams (args : List CStr) (key : List Char) : Option (List Char) :=
  (args.map fun arg => (paramKey arg.chars, paramValue arg.chars)).lookup key

/-- Nothing bad happens, and the map is the one that is written. -/
def ParamsOK (prog : ParamProgram) (args : List CStr) : Prop :=
  ∃ m, paramsOf prog args = .ok m ∧ ∀ key, m key = writtenParams args key

/-- The arguments for which that is so.
* `count`: there is a row for each argument.
* `key`, `value`: each one has a key, and more than `=` behind the first `=` in the row.
* `whole`: where the key is new, there is no other `=` and the row has all of the argument. -/
structure ParamsFit (prog : ParamProgram) (args : List CStr) : Prop where
  count : args.length ≤ prog.maxParams
  key : ∀ arg ∈ args, paramKey arg.chars ≠ []
  value : ∀ arg ∈ args, ∃ c ∈ paramValue (arg.chars.take prog.maxLen), c ≠ '='
  whole : ∀ pre arg post, args = pre ++ arg :: post →
    (∃ a ∈ pre, paramKey a.chars = paramKey arg.chars) ∨
      ('=' ∉ paramValue arg.chars ∧ arg.chars.length ≤ prog.maxLen)

/-! ## The array -/

variable {prog : ParamProgram} {args : List CStr} {options : ParamOptions}
  {s key val : List Char} {m : ParamMap}

/-- The row of an argument. -/
def ParamProgram.row (prog : ParamProgram) (arg : CStr) : List Char :=
  strncpy (List.replicate (prog.maxLen + 1) nul) arg.chars prog.maxLen

/-- The options after `args`. -/
def ParamProgram.stored (prog : ParamProgram) (args : List CStr) : ParamOptions :=
  ⟨args.map prog.row ++
    List.replicate (prog.maxParams - args.length) (List.replicate (prog.maxLen + 1) nul),
    args.length⟩

/-- The next row. -/
lemma getElem?_stored : (prog.stored args).params[args.length]? =
    if args.length < prog.maxParams then some (List.replicate (prog.maxLen + 1) nul) else none := by
  rw [ParamProgram.stored, List.getElem?_append_right (by simp), List.length_map, Nat.sub_self,
    List.getElem?_replicate]
  exact if_congr Nat.sub_pos_iff_lt rfl rfl

/-- One more argument. -/
lemma setParam_stored (arg : CStr) : setParam prog (prog.stored args) arg =
    if args.length < prog.maxParams then .ok (prog.stored (args ++ [arg])) else .error .outside := by
  have hnum : (prog.stored args).numParams = args.length := rfl
  rw [setParam, hnum, getElem?_stored]
  by_cases hroom : args.length < prog.maxParams
  · have hmore : prog.maxParams - args.length = prog.maxParams - (args.length + 1) + 1 := by omega
    have hset : (prog.stored args).params.set args.length (prog.row arg) =
        (prog.stored (args ++ [arg])).params := by
      rw [ParamProgram.stored, List.set_append_right _ _ (by simp), List.length_map, Nat.sub_self,
        hmore, List.replicate_succ, List.set_cons_zero]
      simp [ParamProgram.stored]
    rw [if_pos hroom, if_pos hroom]
    simp only
    rw [← ParamProgram.row, hset]
    simp [ParamProgram.stored]
  · rw [if_neg hroom, if_neg hroom]

/-- **All arguments.** -/
lemma setParam_foldlM : args.foldlM (setParam prog) (.init prog) =
    if args.length ≤ prog.maxParams then .ok (prog.stored args) else .error .outside := by
  induction args using List.reverseRecOn with
  | nil => simp [ParamProgram.stored, ParamOptions.init, pure, Except.pure]
  | append_singleton args arg ih =>
    rw [List.foldlM_append, ih, List.length_append, List.length_singleton]
    by_cases hroom : args.length < prog.maxParams
    · rw [if_pos (by omega), if_pos (by omega)]
      simp [bind, Except.bind, pure, Except.pure, setParam_stored, hroom]
    · split
      · rw [if_neg (by omega)]
        simp [bind, Except.bind, setParam_stored, hroom]
      · rw [if_neg (by omega)]
        rfl

/-! ## The map -/

/-- Only the first value of a key is kept. -/
lemma insert_foldl (pairs : List (List Char × List Char)) (m : ParamMap) (key : List Char) :
    pairs.foldl ParamMap.insert m key = (m key).or (pairs.lookup key) := by
  induction pairs generalizing m with
  | nil => simp
  | cons p pairs ih =>
    rw [List.foldl_cons, ih, ParamMap.insert, List.lookup_cons]
    by_cases hkey : key = p.1
    · subst hkey
      cases hm : m p.1 <;> simp [hm]
    · have hbeq : (key == p.1) = false := beq_false_of_ne hkey
      split <;> simp [hkey, hbeq]

/-- The key and the value of row `i`. -/
def RowParsed (options : ParamOptions) (i : ℕ) (p : List Char × List Char) : Prop :=
  ∃ row, options.params[i]? = some row ∧ parseParam row = .ok p

/-- One pass of the loop. -/
lemma insertParam_eq_ok {m' : ParamMap} {i : ℕ} :
    insertParam options m i = .ok m' ↔ ∃ p, RowParsed options i p ∧ m' = m.insert p := by
  rw [insertParam]
  cases hrow : options.params[i]? with
  | none => simp [RowParsed, hrow]
  | some row =>
    cases hparse : parseParam row with
    | error e => simp [RowParsed, hrow, hparse, Except.map]
    | ok p => simp [RowParsed, hrow, hparse, Except.map, eq_comm]

/-- The loop ends iff there are a key and a value in every row. -/
lemma insertParam_foldlM {is : List ℕ} {m₀ : ParamMap} :
    is.foldlM (insertParam options) m₀ = .ok m ↔
      ∃ pairs, List.Forall₂ (RowParsed options) is pairs ∧
        m = pairs.foldl ParamMap.insert m₀ := by
  induction is generalizing m₀ with
  | nil => simp [pure, Except.pure, eq_comm]
  | cons i is ih =>
    rw [List.foldlM_cons]
    constructor
    · intro h
      cases hbody : insertParam options m₀ i with
      | error e =>
        rw [hbody] at h
        cases h
      | ok m₁ =>
        rw [hbody] at h
        obtain ⟨p, hp, rfl⟩ := insertParam_eq_ok.1 hbody
        obtain ⟨pairs, hpairs, rfl⟩ := ih.1 h
        exact ⟨p :: pairs, .cons hp hpairs, rfl⟩
    · rintro ⟨_, hpairs, rfl⟩
      obtain _ | ⟨hp, hrest⟩ := hpairs
      rw [insertParam_eq_ok.2 ⟨_, hp, rfl⟩]
      exact ih.2 ⟨_, hrest, rfl⟩

/-! ## The rows -/

/-- The text of a row is the beginning of the argument. -/
lemma cstr_row (arg : CStr) : cstr (prog.row arg) = arg.chars.take prog.maxLen := by
  have hend : (List.replicate (prog.maxLen + 1) nul).drop prog.maxLen = [nul] := by
    rw [List.drop_replicate, Nat.add_sub_cancel_left, List.replicate_one]
  exact cstr_strncpy hend

lemma paramKey_append (h : '=' ∉ key) : paramKey (key ++ '=' :: val) = key :=
  takeWhile_ne_append h val

lemma paramValue_append (h : '=' ∉ key) : paramValue (key ++ '=' :: val) = val := by
  rw [paramValue, dropWhile_ne_append h, List.tail_cons]

lemma notMem_paramKey : '=' ∉ paramKey s := fun h => by simpa using List.mem_takeWhile_imp h

/-- A text with a value is the key, `=` and the value. -/
lemma paramKey_cons_paramValue (h : paramValue s ≠ []) :
    paramKey s ++ '=' :: paramValue s = s := by
  have hdrop : s.dropWhile (· ≠ '=') ≠ [] := fun hnil => h (by rw [paramValue, hnil, List.tail_nil])
  have hhead : (s.dropWhile (· ≠ '=')).head hdrop = '=' := by
    simpa using List.head_dropWhile_not (· ≠ '=') hdrop
  have htail := List.cons_head_tail hdrop
  rw [hhead] at htail
  rw [paramKey, paramValue, htail, List.takeWhile_append_dropWhile]

/-- The row of an argument, where it has a value. -/
lemma take_eq_append {n : ℕ} (h : paramValue (s.take n) ≠ []) :
    paramKey (s.take n) = paramKey s ∧ s.length = (paramKey s).length + 1 + (paramValue s).length ∧
      paramValue (s.take n) = (paramValue s).take (n - (paramKey s).length - 1) := by
  have hrow := paramKey_cons_paramValue h
  have hall : paramKey (s.take n) ++ '=' :: (paramValue (s.take n) ++ s.drop n) = s := by
    rw [← List.cons_append, ← List.append_assoc, hrow, List.take_append_drop]
  have hkey : paramKey s = paramKey (s.take n) := by
    conv_lhs => rw [← hall]
    exact paramKey_append notMem_paramKey
  have hval : paramValue s = paramValue (s.take n) ++ s.drop n := by
    conv_lhs => rw [← hall]
    exact paramValue_append notMem_paramKey
  have hlen := congrArg List.length hrow
  have hlens := congrArg List.length hall
  simp only [List.length_append, List.length_cons, List.length_take, List.length_drop] at hlen hlens
  refine ⟨hkey.symm, ?_, ?_⟩
  · rw [hval, List.length_append, List.length_drop, hkey]
    omega
  · rw [hval, hkey]
    rcases Nat.le_total n s.length with hn | hn
    · rw [List.take_append_of_le_length (by omega)]
      exact (List.take_of_length_le (by omega)).symm
    · rw [List.drop_of_length_le hn, List.append_nil]
      exact (List.take_of_length_le (by omega)).symm

/-- The value of a row. -/
def rowValue (s : List Char) : List Char :=
  ((paramValue s).dropWhile (· = '=')).takeWhile (· ≠ '=')

/-- The tokens of the row of an argument that has a key. -/
lemma parseParam_row {arg : CStr} {p : List Char × List Char} (h : paramKey arg.chars ≠ []) :
    parseParam (prog.row arg) = .ok p ↔
      (∃ c ∈ paramValue (arg.chars.take prog.maxLen), c ≠ '=') ∧
        p = (paramKey arg.chars, rowValue (arg.chars.take prog.maxLen)) := by
  have hpos : 0 < prog.maxLen := by cases prog <;> decide
  have hex : ∃ c s, c ≠ '=' ∧ arg.chars.take prog.maxLen = c :: s := by
    cases hs : arg.chars with
    | nil => exact absurd (by rw [hs]; rfl) h
    | cons c s =>
      refine ⟨c, s.take (prog.maxLen - 1), fun heq => h ?_, List.take_cons hpos⟩
      rw [hs, heq]
      simp [paramKey]
  obtain ⟨c, s, hc, hs⟩ := hex
  have hval : ((c :: s).dropWhile (· ≠ '=')).tail = paramValue (c :: s) := rfl
  rw [parseParam, cstr_row, hs, strtokR_cons hc, hval]
  by_cases hmem : '=' ∈ s
  · have hnull : strtokR none '=' (some (paramValue (c :: s))) =
        strtokR (some (paramValue (c :: s))) '=' none := rfl
    rw [if_pos hmem, hnull]
    by_cases hchar : ∃ x ∈ paramValue (c :: s), x ≠ '='
    · have hkey : paramKey (arg.chars.take prog.maxLen) = paramKey arg.chars := by
        obtain ⟨x, hx, -⟩ := hchar
        exact (take_eq_append (hs.symm ▸ List.ne_nil_of_mem hx)).1
      rw [strtokR_fst hchar, ← hkey, hs]
      simp only [Except.ok.injEq, and_iff_right hchar]
      exact eq_comm
    · rw [strtokR_of_all (by simpa using hchar)]
      exact iff_of_false nofun fun h => hchar h.1
  · have hnil : paramValue (c :: s) = [] := by
      rw [paramValue, List.dropWhile_eq_nil_iff.2, List.tail_nil]
      intro x hx
      exact decide_eq_true fun heq => (List.mem_cons.1 (heq ▸ hx)).elim (fun h => hc h.symm) hmem
    rw [if_neg hmem, hnil]
    exact iff_of_false nofun (by simp)

/-- There is no empty key. -/
lemma parseParam_ne_nil {row : List Char} {p : List Char × List Char}
    (h : parseParam row = .ok p) : p.1 ≠ [] := by
  rw [parseParam] at h
  split at h
  · next key _ hkey _ =>
    cases h
    exact strtokR_ne_nil hkey
  · cases h

/-- When the value of the row is the one that is written. -/
lemma rowValue_take {n : ℕ} (h : ∃ c ∈ paramValue (s.take n), c ≠ '=') :
    rowValue (s.take n) = paramValue s ↔ '=' ∉ paramValue s ∧ s.length ≤ n := by
  obtain ⟨c, hc, hne⟩ := h
  obtain ⟨-, hlen, hval⟩ := take_eq_append (List.ne_nil_of_mem hc)
  rw [rowValue, hval]
  constructor
  · intro heq
    have hfree : '=' ∉ paramValue s := by
      rw [← heq]
      intro hmem
      simpa using List.mem_takeWhile_imp hmem
    have hle : (paramValue s).length ≤ n - (paramKey s).length - 1 := by
      conv_lhs => rw [← heq]
      exact ((List.takeWhile_prefix _).length_le.trans
        (List.dropWhile_suffix _).length_le).trans (List.length_take_le _ _)
    have hpos := List.length_pos_of_mem (hval ▸ hc)
    rw [List.length_take] at hpos
    exact ⟨hfree, by omega⟩
  · rintro ⟨hfree, hle⟩
    rw [List.take_of_length_le (by omega), List.dropWhile_eq_self_iff.2, List.takeWhile_eq_self_iff.2]
    · exact fun x hx => decide_eq_true fun heq => hfree (heq ▸ hx)
    · intro hpos heq
      exact hfree (of_decide_eq_true heq ▸ List.getElem_mem hpos)

/-! ## The result -/

/-- Two maps with the same keys agree iff the values agree where a key is new. -/
lemma lookup_map_congr_iff {α κ β : Type*} [BEq κ] [LawfulBEq κ] {key : α → κ} {f g : α → β}
    {l : List α} :
    (∀ k, (l.map fun a => (key a, f a)).lookup k = (l.map fun a => (key a, g a)).lookup k) ↔
      ∀ pre a post, l = pre ++ a :: post → (∃ b ∈ pre, key b = key a) ∨ f a = g a := by
  have hmiss : ∀ (h : α → β) (pre rest : List α) (k : κ), (∀ b ∈ pre, key b ≠ k) →
      ((pre ++ rest).map fun a => (key a, h a)).lookup k =
        (rest.map fun a => (key a, h a)).lookup k := by
    intro h pre rest k hpre
    induction pre with
    | nil => rfl
    | cons b pre ih =>
      have hbeq : (k == key b) = false := beq_false_of_ne (hpre b List.mem_cons_self).symm
      rw [List.cons_append, List.map_cons, List.lookup_cons, hbeq]
      exact ih fun b hb => hpre b (List.mem_cons_of_mem _ hb)
  constructor
  · rintro h pre a post rfl
    by_cases hnew : ∃ b ∈ pre, key b = key a
    · exact .inl hnew
    · have hpre : ∀ b ∈ pre, key b ≠ key a := fun b hb heq => hnew ⟨b, hb, heq⟩
      have ha := h (key a)
      rw [hmiss f pre _ _ hpre, hmiss g pre _ _ hpre] at ha
      exact .inr (by simpa using ha)
  · intro h k
    by_cases hk : k ∈ l.map key
    · obtain ⟨keys, keys', hmap, hnew⟩ := List.eq_append_cons_of_mem hk
      obtain ⟨pre, rest, rfl, rfl, hrest⟩ := List.map_eq_append_iff.1 hmap
      obtain ⟨a, post, rfl, rfl, -⟩ := List.map_eq_cons_iff.1 hrest
      have hpre : ∀ b ∈ pre, key b ≠ key a := fun b hb heq =>
        hnew (heq ▸ List.mem_map_of_mem hb)
      have ha : f a = g a := (h pre a post rfl).resolve_left fun ⟨b, hb, heq⟩ => hpre b hb heq
      rw [hmiss f pre _ _ hpre, hmiss g pre _ _ hpre]
      simp [ha]
    · have hl : ∀ b ∈ l, key b ≠ k := fun b hb heq => hk (heq ▸ List.mem_map_of_mem hb)
      have hf := hmiss f l [] k hl
      have hg := hmiss g l [] k hl
      rw [List.append_nil] at hf hg
      rw [hf, hg]
      rfl

/-- The rows that are taken apart. -/
lemma rowParsed_stored {pairs : List (List Char × List Char)} :
    List.Forall₂ (RowParsed (prog.stored args)) (List.range args.length) pairs ↔
      List.Forall₂ (fun arg p => parseParam (prog.row arg) = .ok p) args pairs := by
  have hrow : ∀ (i : ℕ) (hi : i < args.length) p,
      RowParsed (prog.stored args) i p ↔ parseParam (prog.row args[i]) = .ok p := by
    intro i hi p
    have hget : (prog.stored args).params[i]? = some (prog.row args[i]) := by
      rw [ParamProgram.stored, List.getElem?_append_left (by simpa using hi), List.getElem?_map,
        List.getElem?_eq_getElem hi, Option.map_some]
    simp [RowParsed, hget]
  simp only [List.forall₂_iff_get, List.get_eq_getElem, List.getElem_range, List.length_range]
  exact and_congr_right fun _ => forall₃_congr fun i hi hp => hrow i hi _

/-- The map, if there are not too many arguments. -/
lemma paramsOf_eq_ok : paramsOf prog args = .ok m ↔
    args.length ≤ prog.maxParams ∧
      ∃ pairs, List.Forall₂ (fun arg p => parseParam (prog.row arg) = .ok p) args pairs ∧
        m = fun key => pairs.lookup key := by
  have hparse : prog.parse = parseParams := by cases prog <;> rfl
  have hmap : ∀ pairs : List (List Char × List Char),
      pairs.foldl ParamMap.insert (fun _ => none) = fun key => pairs.lookup key := fun pairs =>
    funext fun key => by rw [insert_foldl, Option.none_or]
  rw [paramsOf, setParam_foldlM, hparse]
  by_cases hcount : args.length ≤ prog.maxParams
  · rw [if_pos hcount]
    have hnum : (prog.stored args).numParams = args.length := rfl
    simp only [bind, Except.bind, parseParams, hnum, insertParam_foldlM, rowParsed_stored, hmap]
    exact (and_iff_right hcount).symm
  · rw [if_neg hcount]
    refine iff_of_false (fun h => ?_) fun h => hcount h.1
    cases h

/-- What the loop finds in the row of an argument. -/
def ParamProgram.pair (prog : ParamProgram) (arg : CStr) : List Char × List Char :=
  (paramKey arg.chars, rowValue (arg.chars.take prog.maxLen))

/-- Every argument has a pair, and every pair an argument. -/
lemma exists_of_forall₂ {α β : Type*} {R : α → β → Prop} {l : List α} {l' : List β}
    (h : List.Forall₂ R l l') : (∀ a ∈ l, ∃ b, R a b) ∧ ∀ b ∈ l', ∃ a, R a b := by
  induction h with
  | nil => simp
  | cons hab _ ih =>
    simp only [List.mem_cons, forall_eq_or_imp]
    exact ⟨⟨⟨_, hab⟩, ih.1⟩, ⟨_, hab⟩, ih.2⟩

/-- The map of the rows is the one that is written. -/
lemma lookup_pair_iff
    (hvalue : ∀ arg ∈ args, ∃ c ∈ paramValue (arg.chars.take prog.maxLen), c ≠ '=') :
    (∀ key, (args.map prog.pair).lookup key = writtenParams args key) ↔
      ∀ pre arg post, args = pre ++ arg :: post →
        (∃ a ∈ pre, paramKey a.chars = paramKey arg.chars) ∨
          ('=' ∉ paramValue arg.chars ∧ arg.chars.length ≤ prog.maxLen) := by
  refine lookup_map_congr_iff.trans <| forall₃_congr fun pre arg post => ?_
  refine forall_congr' fun hargs => or_congr_right ?_
  exact rowValue_take (hvalue arg (by simp [hargs]))

/-- **The map is the one that is written** iff there are not too many arguments, each one has a key
and a value within its row, and where the key is new, the value has no `=` and fits. -/
theorem paramsOK_iff (prog : ParamProgram) (args : List CStr) :
    ParamsOK prog args ↔ ParamsFit prog args := by
  constructor
  · rintro ⟨m, hm, hwritten⟩
    obtain ⟨hcount, pairs, hpairs, rfl⟩ := paramsOf_eq_ok.1 hm
    have hkey : ∀ arg ∈ args, paramKey arg.chars ≠ [] := by
      intro arg harg hnil
      -- no row has an empty key
      have hnone : pairs.lookup [] = none := by
        refine List.lookup_eq_none_iff.2 fun p hp => bne_iff_ne.2 fun heq => ?_
        obtain ⟨_, hparse⟩ := (exists_of_forall₂ hpairs).2 p hp
        exact parseParam_ne_nil hparse heq.symm
      have hsome : (writtenParams args []).isSome :=
        List.lookup_isSome_iff.2 ⟨_, List.mem_map_of_mem harg, beq_iff_eq.2 hnil.symm⟩
      rw [← hwritten []] at hsome
      simp [hnone] at hsome
    have hpair : ∀ arg ∈ args, ∀ p, parseParam (prog.row arg) = .ok p →
        (∃ c ∈ paramValue (arg.chars.take prog.maxLen), c ≠ '=') ∧ p = prog.pair arg :=
      fun arg harg p => (parseParam_row (hkey arg harg)).1
    have hvalue : ∀ arg ∈ args, ∃ c ∈ paramValue (arg.chars.take prog.maxLen), c ≠ '=' := by
      intro arg harg
      obtain ⟨p, hp⟩ := (exists_of_forall₂ hpairs).1 arg harg
      exact (hpair arg harg p hp).1
    have hmap : args.map prog.pair = pairs := by
      have hall := (List.forall₂_and_left _ _).2 ⟨fun arg harg => harg, hpairs⟩
      rw [← List.forall₂_eq_eq_eq, List.forall₂_map_left_iff]
      exact hall.imp fun arg p ⟨harg, hp⟩ => (hpair arg harg p hp).2.symm
    exact ⟨hcount, hkey, hvalue, (lookup_pair_iff hvalue).1 (hmap.symm ▸ hwritten)⟩
  · intro h
    refine ⟨fun key => (args.map prog.pair).lookup key, ?_, (lookup_pair_iff h.value).2 h.whole⟩
    refine paramsOf_eq_ok.2 ⟨h.count, args.map prog.pair, ?_, rfl⟩
    refine List.forall₂_map_right_iff.2 (List.forall₂_same.2 fun arg harg => ?_)
    exact (parseParam_row (h.key arg harg)).2 ⟨h.value arg harg, rfl⟩

/-- `k=a=b` binds `k` to `a`. -/
theorem not_paramsOK_eq : ¬ ParamsOK .ppd [⟨['k', '=', 'a', '=', 'b'], by decide⟩] := by
  rintro ⟨m, hm, hwritten⟩
  have hvalue : (paramsOf .ppd [⟨['k', '=', 'a', '=', 'b'], by decide⟩]).map (· ['k']) =
      .ok (some ['a']) := by decide
  have hbound := hwritten ['k']
  rw [hm] at hvalue
  rw [show m ['k'] = some ['a'] from Except.ok.inj hvalue] at hbound
  exact absurd hbound (by decide)

end Skq.Pingpong
