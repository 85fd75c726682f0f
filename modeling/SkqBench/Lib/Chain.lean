import Mathlib.Data.List.Basic
import Mathlib.Logic.Function.Basic

/-!
# Lists threaded through next pointers

`Chain next head l` says that the cells reached from `head` by the pointers `next` are those of `l`,
in order, up to a null pointer.  The operations on such a list change one or two pointers: a cell is
put in front (`chain_push`), taken from the front (`chain_pop`), or appended behind the last one
(`chain_snoc`); writes to other cells do not matter (`chain_congr`).  `chain_block` is a list of cells
that are linked in a row, in front of another list.
-/

namespace Skq.Lib

variable {α : Type*} {next next' : α → Option α} {head : Option α} {l l' : List α} {a b : α}

/-- The cells of `l` hang together, from `head` on. -/
def Chain (next : α → Option α) : Option α → List α → Prop
  | head, [] => head = none
  | head, a :: l => head = some a ∧ Chain next (next a) l

/-- A cell that is reached from `head`. -/
inductive Reached (next : α → Option α) : Option α → α → Prop
  | head (a : α) : Reached next (some a) a
  | next {a b : α} : Reached next (next a) b → Reached next (some a) b

@[simp] lemma chain_nil : Chain next head [] ↔ head = none := Iff.rfl

@[simp] lemma chain_cons : Chain next head (a :: l) ↔ head = some a ∧ Chain next (next a) l := Iff.rfl

/-- An empty list. -/
lemma chain_none (h : Chain next none l) : l = [] := by
  cases l with
  | nil => rfl
  | cons a l => cases h.1

/-- The first cell. -/
lemma chain_pop (h : Chain next (some a) l) : ∃ l', l = a :: l' ∧ Chain next (next a) l' := by
  cases l with
  | nil => cases h
  | cons b l =>
    obtain ⟨hb, hl⟩ := h
    cases hb
    exact ⟨l, rfl, hl⟩

/-- Only the pointers of the cells in the list matter. -/
lemma chain_congr (h : Chain next head l) (heq : ∀ a ∈ l, next' a = next a) :
    Chain next' head l := by
  induction l generalizing head with
  | nil => exact h
  | cons a l ih =>
    refine ⟨h.1, ?_⟩
    rw [heq a List.mem_cons_self]
    exact ih h.2 fun b hb => heq b (List.mem_cons_of_mem _ hb)

/-- The members are the cells reached. -/
lemma chain_mem (h : Chain next head l) : a ∈ l ↔ Reached next head a := by
  induction l generalizing head with
  | nil =>
    obtain rfl : head = none := h
    constructor
    · intro hmem
      cases hmem
    · intro hr
      cases hr
  | cons b l ih =>
    obtain ⟨rfl, hl⟩ := h
    rw [List.mem_cons, ih hl]
    constructor
    · rintro (rfl | hr)
      · exact .head _
      · exact .next hr
    · intro hr
      cases hr with
      | head => exact .inl rfl
      | next hr => exact .inr hr

/-- A list is determined by its pointers. -/
lemma chain_unique (h : Chain next head l) (h' : Chain next head l') : l = l' := by
  induction l generalizing head l' with
  | nil =>
    obtain rfl : head = none := h
    exact (chain_none h').symm
  | cons a l ih =>
    obtain ⟨rfl, hl⟩ := h
    obtain ⟨m, rfl, hm⟩ := chain_pop h'
    rw [ih hl hm]

/-- The rest of a list, from one of its cells on. -/
lemma chain_drop {m : List α} (h : Chain next head (l ++ a :: m)) : Chain next (some a) (a :: m) := by
  induction l generalizing head with
  | nil =>
    obtain ⟨rfl, hm⟩ := h
    exact ⟨rfl, hm⟩
  | cons b l ih => exact ih h.2

/-- No cell occurs twice: the pointers would go round for ever. -/
lemma chain_nodup (h : Chain next head l) : l.Nodup := by
  induction l generalizing head with
  | nil => exact List.nodup_nil
  | cons a l ih =>
    obtain ⟨rfl, hl⟩ := h
    refine List.nodup_cons.2 ⟨fun hmem => ?_, ih hl⟩
    obtain ⟨l₁, l₂, rfl⟩ := List.append_of_mem hmem
    have heq : a :: (l₁ ++ a :: l₂) = a :: l₂ := chain_unique ⟨rfl, hl⟩ (chain_drop hl)
    have hlen := congrArg List.length heq
    simp at hlen
    omega

/-! ## Segments -/

/-- The cells of `l` hang together, from `head` on, and the pointer of the last one is `tail`. -/
def Seg (next : α → Option α) : Option α → List α → Option α → Prop
  | head, [], tail => head = tail
  | head, a :: l, tail => head = some a ∧ Seg next (next a) l tail

/-- A list is a segment in front of the rest of the list. -/
lemma chain_append : Chain next head (l ++ l') ↔ ∃ tail, Seg next head l tail ∧ Chain next tail l' := by
  induction l generalizing head with
  | nil =>
    constructor
    · intro h
      exact ⟨head, rfl, h⟩
    · rintro ⟨_, rfl, h⟩
      exact h
  | cons a l ih =>
    rw [List.cons_append, chain_cons, ih]
    constructor
    · rintro ⟨rfl, tail, hseg, h⟩
      exact ⟨tail, ⟨rfl, hseg⟩, h⟩
    · rintro ⟨tail, ⟨rfl, hseg⟩, h⟩
      exact ⟨rfl, tail, hseg, h⟩

/-- Only the pointers of the cells in the segment matter. -/
lemma seg_congr {tail : Option α} (h : Seg next head l tail) (heq : ∀ a ∈ l, next' a = next a) :
    Seg next' head l tail := by
  induction l generalizing head with
  | nil => exact h
  | cons a l ih =>
    refine ⟨h.1, ?_⟩
    rw [heq a List.mem_cons_self]
    exact ih h.2 fun b hb => heq b (List.mem_cons_of_mem _ hb)

/-- A segment that goes one cell on. -/
lemma seg_snoc {tail : Option α} :
    Seg next head (l ++ [a]) tail ↔ Seg next head l (some a) ∧ next a = tail := by
  induction l generalizing head with
  | nil => rfl
  | cons b l ih => rw [List.cons_append, Seg, Seg, ih, and_assoc]

/-- The last pointer of a segment is written. -/
lemma seg_set_last [DecidableEq α] {tail tail' : Option α} (h : Seg next head (l ++ [a]) tail)
    (ha : a ∉ l) : Seg (Function.update next a tail') head (l ++ [a]) tail' := by
  rw [seg_snoc] at h ⊢
  refine ⟨seg_congr h.1 fun b hb => Function.update_of_ne ?_ .., Function.update_self ..⟩
  rintro rfl
  exact ha hb

section Edit

variable [DecidableEq α]

/-- A cell is put in front. -/
lemma chain_push (h : Chain next head l) (ha : a ∉ l) :
    Chain (Function.update next a head) (some a) (a :: l) := by
  refine ⟨rfl, ?_⟩
  rw [Function.update_self]
  refine chain_congr h fun b hb => Function.update_of_ne ?_ ..
  rintro rfl
  exact ha hb

/-- A cell with a null pointer is appended behind the last one. -/
lemma chain_snoc (h : Chain next head l) (hlast : l.getLast? = some b) (ha : a ∉ l)
    (hnull : next a = none) : Chain (Function.update next b (some a)) head (l ++ [a]) := by
  have hnodup := chain_nodup h
  induction l generalizing head with
  | nil => cases hlast
  | cons c l ih =>
    obtain ⟨rfl, hl⟩ := h
    obtain ⟨hc, hnodup⟩ := List.nodup_cons.1 hnodup
    have hac : a ≠ c := fun heq => ha (heq ▸ List.mem_cons_self)
    refine ⟨rfl, ?_⟩
    cases l with
    | nil =>
      obtain rfl : c = b := by simpa using hlast
      rw [Function.update_self]
      exact ⟨rfl, (Function.update_of_ne hac ..).trans hnull⟩
    | cons d l =>
      have hlast' : (d :: l).getLast? = some b := by simpa using hlast
      have hb : b ∈ d :: l := List.mem_of_getLast? hlast'
      have hcb : c ≠ b := by
        rintro rfl
        exact hc hb
      rw [Function.update_of_ne hcb]
      exact ih hl hlast' (fun hmem => ha (List.mem_cons_of_mem _ hmem)) hnodup

end Edit

/-- A block of cells in a row, in front of a list. -/
lemma chain_block (base : ℕ → α) (k : ℕ) (h : Chain next head l)
    (hrow : ∀ i, i + 1 < k → next (base i) = some (base (i + 1)))
    (hend : 0 < k → next (base (k - 1)) = head) :
    Chain next (if k = 0 then head else some (base 0)) ((List.range k).map base ++ l) := by
  induction k generalizing base with
  | zero => simpa using h
  | succ k ih =>
    have ih' := ih (fun i => base (i + 1)) (fun i hi => hrow (i + 1) (by omega)) fun hk => by
      have hlast := hend (Nat.succ_pos _)
      rwa [show k + 1 - 1 = k - 1 + 1 by omega] at hlast
    rw [List.range_succ_eq_map, List.map_cons, List.map_map, List.cons_append,
      if_neg (Nat.succ_ne_zero _)]
    refine ⟨rfl, ?_⟩
    have hnext : next (base 0) = if k = 0 then head else some (base 1) := by
      split
      · next hk =>
        have hlast := hend (Nat.succ_pos _)
        rwa [hk] at hlast
      · next hk => exact hrow 0 (by omega)
    rw [hnext]
    exact ih'

end Skq.Lib
