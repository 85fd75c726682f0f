import Mathlib.Data.List.TakeWhile

/-!
# Strings of the C library

A `CStr` is the content of a string, without the character that ends it.  `strncpy` and `cstr` are
about the array of characters a string is stored in.  `strtokR` is `strtok_r`: the runs of
characters that are no delimiters, one after the other, with what is left of the string saved
between the calls; a saved null pointer gives no more tokens.
-/

namespace Skq.Lib

/-- The character that ends a string. -/
def nul : Char := '\x00'

/-- The content of a string. -/
structure CStr where
  chars : List Char
  nul_notMem : nul ∉ chars
deriving DecidableEq

/-! ## Strings in arrays -/

/-- The string that begins an array. -/
def cstr (row : List Char) : List Char := row.takeWhile (· ≠ nul)

/-- `strncpy(row, src, n)`: at most `n` characters, and null characters up to `n` of them. -/
def strncpy (row src : List Char) (n : ℕ) : List Char :=
  src.take n ++ List.replicate (n - src.length) nul ++ row.drop n

variable {n : ℕ}

/-- A copy into an array that ends with a null character is cut off. -/
lemma cstr_strncpy {row rest : List Char} {src : CStr} (h : row.drop n = nul :: rest) :
    cstr (strncpy row src.chars n) = src.chars.take n := by
  have htake : ∀ c ∈ src.chars.take n, decide (c ≠ nul) = true := by
    intro c hc
    exact decide_eq_true fun heq => src.nul_notMem (heq ▸ List.mem_of_mem_take hc)
  have hend : ∀ k, (List.replicate k nul ++ nul :: rest).takeWhile (· ≠ nul) = [] := by
    intro k
    cases k with
    | zero => simp
    | succ k => simp [List.replicate_succ]
  rw [cstr, strncpy, h, List.append_assoc, List.takeWhile_append_of_pos htake, hend, List.append_nil]

/-! ## The text before a character -/

lemma takeWhile_ne_append {c : Char} {s : List Char} (h : c ∉ s) (t : List Char) :
    (s ++ c :: t).takeWhile (· ≠ c) = s := by
  have hall : ∀ x ∈ s, decide (x ≠ c) = true := fun x hx => decide_eq_true fun hc => h (hc ▸ hx)
  rw [List.takeWhile_append_of_pos hall]
  simp

lemma dropWhile_ne_append {c : Char} {s : List Char} (h : c ∉ s) (t : List Char) :
    (s ++ c :: t).dropWhile (· ≠ c) = c :: t := by
  have hall : ∀ x ∈ s, decide (x ≠ c) = true := fun x hx => decide_eq_true fun hc => h (hc ▸ hx)
  rw [List.dropWhile_append_of_pos hall]
  simp

/-! ## Tokens -/

/-- `strtok_r` on `s`, or where that is a null pointer on what was saved, with what it saves. -/
def strtokR (s : Option (List Char)) (delim : Char) (saved : Option (List Char)) :
    Option (List Char) × Option (List Char) :=
  match s.or saved with
  | none => (none, none)
  | some s =>
    match s.dropWhile (· = delim) with
    | [] => (none, none)
    | c :: s =>
      match (c :: s).dropWhile (· ≠ delim) with
      | [] => (some ((c :: s).takeWhile (· ≠ delim)), none)
      | _ :: rest => (some ((c :: s).takeWhile (· ≠ delim)), some rest)

variable {c delim : Char} {s tok : List Char} {saved : Option (List Char)}

/-- A token begins at the first character that is no delimiter, and ends before the next delimiter;
what is behind that one is saved. -/
lemma strtokR_cons (hc : c ≠ delim) :
    strtokR (some (c :: s)) delim saved =
      (some ((c :: s).takeWhile (· ≠ delim)),
        if delim ∈ s then some ((c :: s).dropWhile (· ≠ delim)).tail else none) := by
  have hskip : (c :: s).dropWhile (· = delim) = c :: s := by simp [hc]
  simp only [strtokR, Option.some_or, hskip]
  split
  · rename_i hnil
    have hall := List.dropWhile_eq_nil_iff.1 hnil
    have hno : delim ∉ s := fun hmem => by simpa using hall delim (List.mem_cons_of_mem c hmem)
    rw [if_neg hno]
  · rename_i d rest hrest
    have hmem : delim ∈ s := by
      by_contra hno
      have hnil : (c :: s).dropWhile (· ≠ delim) = [] := List.dropWhile_eq_nil_iff.2 fun x hx =>
        decide_eq_true fun hd => (List.mem_cons.1 (hd ▸ hx)).elim (fun h => hc h.symm) hno
      rw [hnil] at hrest
      cases hrest
    rw [if_pos hmem, hrest, List.tail_cons]

/-- A token with a delimiter behind it. -/
lemma strtokR_append (htok : tok ≠ []) (hfree : delim ∉ tok) (rest : List Char) :
    strtokR (some (tok ++ delim :: rest)) delim saved = (some tok, some rest) := by
  have htake := takeWhile_ne_append hfree rest
  have hdrop := dropWhile_ne_append hfree rest
  obtain ⟨c, tok, rfl⟩ := List.exists_cons_of_ne_nil htok
  have hc : c ≠ delim := fun h => hfree (h ▸ List.mem_cons_self)
  rw [List.cons_append] at htake hdrop ⊢
  rw [strtokR_cons hc, htake, hdrop, if_pos (by simp),
    List.tail_cons]

/-- The last token. -/
lemma strtokR_self (htok : tok ≠ []) (hfree : delim ∉ tok) :
    strtokR (some tok) delim saved = (some tok, none) := by
  have hall : ∀ x ∈ tok, decide (x ≠ delim) = true := fun x hx =>
    decide_eq_true fun h => hfree (h ▸ hx)
  have htake : tok.takeWhile (· ≠ delim) = tok := List.takeWhile_eq_self_iff.2 hall
  obtain ⟨c, tok, rfl⟩ := List.exists_cons_of_ne_nil htok
  have hc : c ≠ delim := fun h => hfree (h ▸ List.mem_cons_self)
  rw [strtokR_cons hc, htake, if_neg fun h => hfree (List.mem_cons_of_mem c h)]

/-- What was saved is used like a string. -/
lemma strtokR_saved {s : Option (List Char)} :
    strtokR s delim saved = strtokR (s.or saved) delim none := by
  rw [strtokR, strtokR, Option.or_none]

/-- Delimiters in front are skipped. -/
@[simp] lemma strtokR_skip :
    strtokR (some (delim :: s)) delim saved = strtokR (some s) delim saved := by
  simp [strtokR]

/-- There is no token in a string of delimiters. -/
lemma strtokR_of_all (h : ∀ c ∈ s, c = delim) : strtokR (some s) delim saved = (none, none) := by
  have hnil : s.dropWhile (· = delim) = [] := List.dropWhile_eq_nil_iff.2 (by simpa using h)
  simp [strtokR, hnil]

/-- The first token of a string that has one. -/
lemma strtokR_fst (h : ∃ c ∈ s, c ≠ delim) : (strtokR (some s) delim saved).1 =
    some ((s.dropWhile (· = delim)).takeWhile (· ≠ delim)) := by
  induction s with
  | nil => simp at h
  | cons c s ih =>
    by_cases hc : c = delim
    · subst hc
      rw [strtokR_skip, ih (by simpa using h)]
      simp
    · rw [strtokR_cons hc]
      simp [hc]

/-- A token is a text without delimiters, and not the empty one. -/
lemma strtokR_ne_nil (h : (strtokR (some s) delim saved).1 = some tok) : tok ≠ [] := by
  induction s with
  | nil => simp [strtokR] at h
  | cons c s ih =>
    by_cases hc : c = delim
    · subst hc
      exact ih (by rwa [strtokR_skip] at h)
    · rw [strtokR_cons hc] at h
      obtain rfl := Option.some.inj h
      simp [hc]

/-! ## Occurrences -/

/-- `strcasestr(s, find)` finds something: upper and lower case are the same. -/
def strcasestr (s find : List Char) : Prop := find.map Char.toLower <:+: s.map Char.toLower

instance : DecidableRel strcasestr := fun _ _ => inferInstanceAs (Decidable (_ <:+: _))

/-- A text without `c` that occurs in another one is on one side of each `c`. -/
lemma infix_append_cons {α : Type*} {c : α} {find s t : List α} (hc : c ∉ find)
    (h : find <:+: s ++ c :: t) : find <:+: s ∨ find <:+: t := by
  have hbegin : ∀ s : List α, find <+: s ++ c :: t → find <+: s := by
    intro s h
    rcases Nat.le_total find.length s.length with hlen | hlen
    · exact List.prefix_of_prefix_length_le h (List.prefix_append s _) hlen
    · obtain ⟨u, hu⟩ := List.prefix_of_prefix_length_le (List.prefix_append s _) h hlen
      cases u with
      | nil => exact ⟨[], by rw [← hu]; simp⟩
      | cons x u =>
        obtain ⟨v, hv⟩ := h
        rw [← hu, List.append_assoc, List.append_cancel_left_eq] at hv
        exact absurd (hu ▸ by simp [(List.cons.inj hv).1]) hc
  induction s with
  | nil =>
    rcases List.infix_cons_iff.1 h with hpre | hinf
    · exact .inl (hbegin [] hpre).isInfix
    · exact .inr hinf
  | cons x s ih =>
    rcases List.infix_cons_iff.1 h with hpre | hinf
    · exact .inl (hbegin (x :: s) hpre).isInfix
    · exact (ih hinf).imp_left List.infix_cons

end Skq.Lib
