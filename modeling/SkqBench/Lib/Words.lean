import Mathlib.Data.List.Basic

/-!
# The words of a text

`words` splits a text at runs of separators.  Texts that are written one after the other have at
most the words of both (`length_words_append_le`), and one less where there is no separator between
them (`length_words_append`).

`columns` puts words into columns of one width, at the right.  They are found again if they are
narrower than the columns (`words_columns`); otherwise there are less of them
(`length_words_columns_lt`).
-/

namespace Skq.Lib

variable {α : Type*}

/-- A text without separators that is not empty. -/
def IsWord (sep : α → Bool) (w : List α) : Prop := w ≠ [] ∧ ∀ c ∈ w, sep c = false

/-- What is between the separators, if it is not empty. -/
def words (sep : α → Bool) (s : List α) : List (List α) := (s.splitOnP sep).filter (· ≠ [])

variable {sep : α → Bool} {c x y : α} {s t w : List α}

@[simp] lemma words_nil : words sep ([] : List α) = [] := by simp [words]

/-- Nothing goes across a separator. -/
lemma words_append_cons (hc : sep c = true) (s t : List α) :
    words sep (s ++ c :: t) = words sep s ++ words sep t := by
  rw [words, List.splitOnP_append_cons s t hc, List.filter_append]
  rfl

lemma words_cons_of_sep (hc : sep c = true) (s : List α) : words sep (c :: s) = words sep s := by
  simpa using words_append_cons hc [] s

/-- Separators in front. -/
lemma words_replicate_append (hc : sep c = true) (n : ℕ) (s : List α) :
    words sep (List.replicate n c ++ s) = words sep s := by
  induction n with
  | zero => rfl
  | succ n ih => rw [List.replicate_succ, List.cons_append, words_cons_of_sep hc, ih]

/-- How to see that a given text is a word. -/
lemma isWord_of_all (h : (!w.isEmpty && w.all (!sep ·)) = true) : IsWord sep w := by
  simpa [IsWord] using h

lemma words_self (hw : IsWord sep w) : words sep w = [w] := by
  rw [words, List.splitOnP_eq_singleton hw.2]
  simp [hw.1]

/-- The first word. -/
lemma words_append (hw : IsWord sep w) (hc : sep c = true) (s : List α) :
    words sep (w ++ c :: s) = w :: words sep s := by
  rw [words_append_cons hc, words_self hw, List.singleton_append]

/-! ## How many there are -/

/-- A character is a new word if it is no separator and no word follows. -/
lemma length_words_cons (c : α) (s : List α) : (words sep (c :: s)).length =
    (words sep s).length + (!sep c && s.head?.all sep).toNat := by
  by_cases hc : sep c = true
  · simp [words_cons_of_sep hc, hc]
  · have hone : IsWord sep [c] := ⟨by simp, by simpa using hc⟩
    cases s with
    | nil => simp [words_self hone, hc]
    | cons d s =>
      by_cases hd : sep d = true
      · have hsplit := words_append hone hd s
        rw [List.singleton_append] at hsplit
        simp [hsplit, words_cons_of_sep hd, hc, hd]
      · obtain ⟨w, ws, hs⟩ := List.exists_cons_of_ne_nil (List.splitOnP_ne_nil sep s)
        have hrest : (d :: s).splitOnP sep = (d :: w) :: ws := by
          simp [List.splitOnP_cons_eq_if_modifyHead, hd, hs]
        have htwo : (c :: d :: s).splitOnP sep = (c :: d :: w) :: ws := by
          rw [List.splitOnP_cons_eq_if_modifyHead, hrest]
          simp [hc]
        simp [words, hrest, htwo, hd]

/-- Two texts have at most the words of both. -/
lemma length_words_append_le (s t : List α) :
    (words sep (s ++ t)).length ≤ (words sep s).length + (words sep t).length := by
  induction s with
  | nil => simp
  | cons c s ih =>
    rw [List.cons_append, length_words_cons, length_words_cons]
    cases s with
    | nil =>
      have hle := Bool.toNat_le (t.head?.all sep)
      cases hc : sep c with
      | true => simp
      | false =>
        simp only [Bool.not_false, Bool.true_and, List.nil_append, words_nil, List.length_nil,
          List.head?_nil, Option.all_none, Bool.toNat_true]
        omega
    | cons d s =>
      simp only [List.cons_append, List.head?_cons] at ih ⊢
      omega

/-- A word at the end of the first text and one at the beginning of the second one are one. -/
lemma length_words_append (hx : sep x = false) (hy : sep y = false) (s t : List α) :
    (words sep (s ++ x :: y :: t)).length + 1 =
      (words sep (s ++ [x])).length + (words sep (y :: t)).length := by
  induction s with
  | nil => simp [length_words_cons x, hx, hy, Nat.add_comm]
  | cons c s ih =>
    rw [List.cons_append, List.cons_append, length_words_cons c, length_words_cons c]
    cases s with
    | nil =>
      simp only [List.nil_append, List.head?_cons] at ih ⊢
      omega
    | cons d s =>
      simp only [List.cons_append, List.head?_cons] at ih ⊢
      omega

/-! ## Columns -/

/-- `s` at the right of a column. -/
def padLeft (fill : α) (width : ℕ) (s : List α) : List α :=
  List.replicate (width - s.length) fill ++ s

/-- Words in columns. -/
def columns (fill : α) (width : ℕ) (ws : List (List α)) : List α := ws.flatMap (padLeft fill width)

variable {fill : α} {width : ℕ} {ws : List (List α)}

lemma words_padLeft (hfill : sep fill = true) (hw : IsWord sep w) :
    words sep (padLeft fill width w) = [w] := by
  rw [padLeft, words_replicate_append hfill, words_self hw]

/-- Words that are narrower than their columns. -/
lemma words_columns (hfill : sep fill = true) (hws : ∀ w ∈ ws, IsWord sep w ∧ w.length < width)
    (s : List α) : words sep (s ++ columns fill width ws) = words sep s ++ ws := by
  induction ws generalizing s with
  | nil => simp [columns]
  | cons w ws ih =>
    obtain ⟨hw, hlen⟩ := hws w List.mem_cons_self
    have hpad : padLeft fill width w = fill :: List.replicate (width - w.length - 1) fill ++ w := by
      rw [padLeft, ← List.replicate_succ, Nat.sub_add_cancel (by omega)]
    have hcolumns : columns fill width (w :: ws) =
        fill :: (List.replicate (width - w.length - 1) fill ++ (w ++ columns fill width ws)) := by
      rw [columns, List.flatMap_cons, hpad, List.cons_append, List.cons_append, List.append_assoc]
      rfl
    rw [hcolumns, words_append_cons hfill, words_replicate_append hfill,
      ih (fun w' hw' => hws w' (List.mem_cons_of_mem w hw')), words_self hw,
      List.singleton_append]

/-- There are no more words than columns. -/
lemma length_words_columns_le (hfill : sep fill = true) (hws : ∀ w ∈ ws, IsWord sep w)
    (s : List α) :
    (words sep (s ++ columns fill width ws)).length ≤ (words sep s).length + ws.length := by
  induction ws generalizing s with
  | nil => simp [columns]
  | cons w ws ih =>
    have hfirst : (words sep (s ++ padLeft fill width w)).length ≤
        (words sep s).length + (words sep (padLeft fill width w)).length :=
      length_words_append_le s _
    have hrest := ih (fun w' hw' => hws w' (List.mem_cons_of_mem w hw')) (s ++ padLeft fill width w)
    rw [words_padLeft hfill (hws w List.mem_cons_self)] at hfirst
    rw [columns, List.flatMap_cons, ← List.append_assoc, List.length_cons]
    rw [columns] at hrest
    simp only [List.length_singleton] at hfirst
    omega

/-- A word that fills its column is one word with the one in front. -/
lemma length_words_columns_lt (hfill : sep fill = true) (hws : ∀ w ∈ ws, IsWord sep w)
    (hwide : ∃ w ∈ ws, width ≤ w.length) (hx : sep x = false) (s : List α) :
    (words sep (s ++ x :: columns fill width ws)).length <
      (words sep (s ++ [x])).length + ws.length := by
  induction ws generalizing s x with
  | nil => simp at hwide
  | cons w ws ih =>
    have hw := hws w List.mem_cons_self
    have ⟨hne, hchars⟩ := hw
    have hrest : ∀ w' ∈ ws, IsWord sep w' := fun w' hw' => hws w' (List.mem_cons_of_mem w hw')
    rw [columns, List.flatMap_cons, ← columns, List.length_cons]
    by_cases hlen : width ≤ w.length
    · obtain ⟨y, t, rfl⟩ := List.exists_cons_of_ne_nil hne
      have hy := hchars y List.mem_cons_self
      have hjoin := length_words_append hx hy s (t ++ columns fill width ws)
      have hle : (words sep (y :: t ++ columns fill width ws)).length ≤
          (words sep (y :: t)).length + ws.length := length_words_columns_le hfill hrest (y :: t)
      rw [words_self hw] at hle
      rw [padLeft, Nat.sub_eq_zero_of_le hlen, List.replicate_zero, List.nil_append]
      simp only [List.cons_append, List.length_singleton] at hle ⊢
      omega
    · have hwide' : ∃ w' ∈ ws, width ≤ w'.length := by
        obtain ⟨w', hw', hlen'⟩ := hwide
        rcases List.mem_cons.1 hw' with rfl | hw'
        · exact absurd hlen' hlen
        · exact ⟨w', hw', hlen'⟩
      obtain ⟨t, y, rfl⟩ : ∃ t y, w = t ++ [y] :=
        ⟨w.dropLast, w.getLast hne, (List.dropLast_concat_getLast hne).symm⟩
      have hy := hchars y (by simp)
      have hlast := ih hrest hwide' hy
        (s ++ x :: (List.replicate (width - (t ++ [y]).length) fill ++ t))
      have hfirst : (words sep (s ++ [x] ++ padLeft fill width (t ++ [y]))).length ≤
          (words sep (s ++ [x])).length + (words sep (padLeft fill width (t ++ [y]))).length :=
        length_words_append_le _ _
      rw [words_padLeft hfill hw] at hfirst
      simp only [padLeft, List.append_assoc, List.cons_append, List.nil_append,
        List.length_singleton] at hlast hfirst ⊢
      omega

end Skq.Lib
