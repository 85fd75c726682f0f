import Mathlib.Data.List.Nodup
import SkqBench.Lib.Chain

/-!
# Doubly linked queues

Queues of cells that carry the pointers to their neighbours themselves: there is a head and a tail for
each key, and a cell is in one queue at most.  `Queues.Holds q L` says that the queue of each key is the
list that `L` has for it, forwards and backwards.  The operations are those of an intrusive list, as
they are usually written; each is an edit of one list (`Holds.pushFront`, `Holds.pushBack`,
`Holds.unlink`, `Holds.advance`), and backwards it is the same edit of the reversed list.
-/

namespace Skq.Lib

variable {κ α : Type*}

/-- Heads and tails of the queues, and the pointers of the cells. -/
structure Queues (κ α : Type*) where
  head : κ → Option α
  tail : κ → Option α
  next : α → Option α
  prev : α → Option α

/-- `if (p) p->f = x`. -/
def setAt [DecidableEq α] (f : α → Option α) (p x : Option α) : α → Option α :=
  match p with
  | none => f
  | some a => Function.update f a x

namespace Queues

/-- The queues, seen from their tails. -/
def mirror (q : Queues κ α) : Queues κ α := ⟨q.tail, q.head, q.prev, q.next⟩

variable [DecidableEq κ] [DecidableEq α]

/-- A cell becomes the head of a queue. -/
def pushFront (q : Queues κ α) (k : κ) (a : α) : Queues κ α where
  head := Function.update q.head k (some a)
  tail := if q.tail k = none then Function.update q.tail k (some a) else q.tail
  next := Function.update q.next a (q.head k)
  prev := setAt (Function.update q.prev a none) (q.head k) (some a)

/-- A cell becomes the tail of a queue. -/
def pushBack (q : Queues κ α) (k : κ) (a : α) : Queues κ α where
  head := if q.head k = none then Function.update q.head k (some a) else q.head
  tail := Function.update q.tail k (some a)
  next := setAt (Function.update q.next a none) (q.tail k) (some a)
  prev := Function.update q.prev a (q.tail k)

/-- A cell is taken out of its queue. -/
def unlink (q : Queues κ α) (k : κ) (a : α) : Queues κ α where
  head := if q.head k = some a then Function.update q.head k (q.next a) else q.head
  tail := if q.tail k = some a then Function.update q.tail k (q.prev a) else q.tail
  next := setAt q.next (q.prev a) (q.next a)
  prev := setAt q.prev (q.next a) (q.prev a)

/-- A cell changes places with its predecessor `b`. -/
def advance (q : Queues κ α) (k : κ) (a b : α) : Queues κ α :=
  let next₁ := Function.update q.next b (q.next a)
  let prev₁ := setAt q.prev (q.next a) (some b)
  let next₂ := Function.update next₁ a (some b)
  let prev₂ := Function.update prev₁ a (prev₁ b)
  { head := if q.head k = some b then Function.update q.head k (some a) else q.head
    tail := if q.tail k = some a then Function.update q.tail k (some b) else q.tail
    next := setAt next₂ (prev₂ a) (some a)
    prev := Function.update prev₂ b (some a) }

/-- The head of a queue leaves it, with its own pointers as they are; alone, it stays. -/
def popFront (q : Queues κ α) (k : κ) (a : α) : Queues κ α :=
  match q.next a with
  | none => q
  | some c =>
    { q with
      head := Function.update q.head k (some c)
      prev := Function.update q.prev c none }

end Queues

/-! ## One list -/

/-- A list, forwards and backwards. -/
def Linked (next prev : α → Option α) (head tail : Option α) (l : List α) : Prop :=
  Chain next head l ∧ Chain prev tail l.reverse

section Lists

variable {next prev next' prev' : α → Option α} {head tail p : Option α} {l m : List α} {a b : α}

/-- The head pointer. -/
lemma chain_head (h : Chain next head l) : head = l.head? := by
  cases l with
  | nil => exact h
  | cons a l => exact h.1

/-- The pointer of a cell in the list. -/
lemma chain_next (h : Chain next head (l ++ a :: m)) : next a = m.head? := by
  obtain ⟨_, _, _, hm⟩ := chain_append.1 h
  exact chain_head hm

lemma Linked.symm (h : Linked next prev head tail l) : Linked prev next tail head l.reverse :=
  ⟨h.2, by rw [List.reverse_reverse]; exact h.1⟩

lemma Linked.nodup (h : Linked next prev head tail l) : l.Nodup := chain_nodup h.1

/-- Only the pointers of the cells in the list matter. -/
lemma Linked.congr (h : Linked next prev head tail l) (hn : ∀ a ∈ l, next' a = next a)
    (hp : ∀ a ∈ l, prev' a = prev a) : Linked next' prev' head tail l :=
  ⟨chain_congr h.1 hn, chain_congr h.2 fun a ha => hp a (List.mem_reverse.1 ha)⟩

lemma Linked.prev_eq (h : Linked next prev head tail (l ++ a :: m)) : prev a = l.getLast? := by
  have hrev := h.2
  rw [List.reverse_append, List.reverse_cons, List.append_assoc, List.singleton_append] at hrev
  rw [chain_next hrev, List.head?_reverse]

lemma Linked.tail_eq (h : Linked next prev head tail l) : tail = l.getLast? := by
  rw [chain_head h.2, List.head?_reverse]

variable [DecidableEq α]

lemma setAt_of_notMem {f : α → Option α} {x : Option α} (hp : ∀ b, p = some b → a ≠ b) :
    setAt f p x a = f a := by
  cases p with
  | none => rfl
  | some b => exact Function.update_of_ne (hp b rfl) ..

lemma setAt_update {f : α → Option α} {x y : Option α} (hp : p ≠ some a) :
    setAt (Function.update f a x) p y = Function.update (setAt f p y) a x := by
  cases p with
  | none => rfl
  | some b => exact Function.update_comm (fun heq => hp (by rw [heq])) ..

/-- The pointer that leads out of a segment is written: that of its last cell, or the head. -/
lemma seg_retarget (h : Seg next head l p) (hl : l.Nodup) (x : Option α) :
    Seg (setAt next l.getLast? x) (if l = [] then x else head) l x := by
  rcases List.eq_nil_or_concat l with rfl | ⟨l, b, rfl⟩
  · rfl
  · rw [List.concat_eq_append] at h hl ⊢
    rw [List.getLast?_concat, if_neg (by simp)]
    refine seg_set_last h fun hb => ?_
    exact (List.nodup_append.1 hl).2.2 b hb b (by simp) rfl

/-- A cell is left out. -/
lemma chain_erase (h : Chain next head (l ++ a :: m)) :
    Chain (setAt next l.getLast? (next a)) (if l = [] then next a else head) (l ++ m) := by
  have hnodup := chain_nodup h
  obtain ⟨tail, hseg, rfl, hm⟩ := chain_append.1 h
  obtain ⟨hl, hrest, hdisj⟩ := List.nodup_append.1 hnodup
  refine chain_append.2 ⟨next a, seg_retarget hseg hl _, chain_congr hm fun c hc => ?_⟩
  refine setAt_of_notMem ?_
  rintro b hb rfl
  exact hdisj c (List.mem_of_getLast? hb) c (List.mem_cons_of_mem _ hc) rfl

/-- Two neighbours change places. -/
lemma chain_swap (h : Chain next head (l ++ b :: a :: m)) :
    Chain (setAt (Function.update (Function.update next b (next a)) a (some b)) l.getLast? (some a))
      (if l = [] then some a else head) (l ++ a :: b :: m) := by
  have hnodup := chain_nodup h
  obtain ⟨tail, hseg, rfl, hba, hm⟩ := chain_append.1 h
  obtain ⟨hl, hrest, hdisj⟩ := List.nodup_append.1 hnodup
  obtain ⟨hbm, ham⟩ := List.nodup_cons.1 hrest
  obtain ⟨ham, _⟩ := List.nodup_cons.1 ham
  have hab : a ≠ b := fun heq => hbm (heq ▸ List.mem_cons_self)
  set next₂ := Function.update (Function.update next b (next a)) a (some b) with hnext₂
  have hself : next₂ a = some b := by rw [hnext₂, Function.update_self]
  have hback : next₂ b = next a := by
    rw [hnext₂, Function.update_of_ne hab.symm, Function.update_self]
  have hother : ∀ c, c ≠ a → c ≠ b → next₂ c = next c := fun c hca hcb => by
    rw [hnext₂, Function.update_of_ne hca, Function.update_of_ne hcb]
  have hseg₂ : Seg next₂ head l (some b) :=
    seg_congr hseg fun c hc => hother c (hdisj c hc a (by simp)) (hdisj c hc b List.mem_cons_self)
  have hout : ∀ c ∈ b :: a :: m, setAt next₂ l.getLast? (some a) c = next₂ c := by
    intro c hc
    refine setAt_of_notMem ?_
    rintro d hd rfl
    exact hdisj c (List.mem_of_getLast? hd) c hc rfl
  refine chain_append.2 ⟨some a, seg_retarget hseg₂ hl _, rfl, ?_, ?_⟩
  · rw [hout a (by simp), hself]
  · rw [hout b (by simp), hback]
    refine chain_congr hm fun c hc => ?_
    rw [hout c (by simp [hc])]
    refine hother c ?_ ?_
    · rintro rfl
      exact ham hc
    · rintro rfl
      exact hbm (List.mem_cons_of_mem _ hc)

end Lists

/-! ## All queues -/

namespace Queues

/-- The queues are the lists of `L`, and no cell is in two of them. -/
structure Holds (q : Queues κ α) (L : κ → List α) : Prop where
  linked : ∀ k, Linked q.next q.prev (q.head k) (q.tail k) (L k)
  apart : ∀ k k' a, a ∈ L k → a ∈ L k' → k = k'

variable {q : Queues κ α} {L : κ → List α} {k : κ} {l m : List α} {a b : α}

/-- No queue has a cell. -/
lemma holds_nil (next prev : α → Option α) :
    Holds (κ := κ) ⟨fun _ => none, fun _ => none, next, prev⟩ fun _ => [] :=
  ⟨fun _ => ⟨rfl, rfl⟩, fun _ _ _ h => nomatch h⟩

lemma Holds.mirror (h : q.Holds L) : q.mirror.Holds fun k => (L k).reverse :=
  ⟨fun k => (h.linked k).symm, fun k k' a ha ha' =>
    h.apart k k' a (List.mem_reverse.1 ha) (List.mem_reverse.1 ha')⟩

/-- The predecessor of a cell. -/
lemma Holds.prev_eq (h : q.Holds L) (hk : L k = l ++ a :: m) : q.prev a = l.getLast? := by
  have hl := h.linked k
  rw [hk] at hl
  exact hl.prev_eq

/-- Its successor. -/
lemma Holds.next_eq (h : q.Holds L) (hk : L k = l ++ a :: m) : q.next a = m.head? := by
  have hl := (h.linked k).1
  rw [hk] at hl
  exact chain_next hl

lemma Holds.head_eq (h : q.Holds L) : q.head k = (L k).head? := chain_head (h.linked k).1

lemma Holds.tail_eq (h : q.Holds L) : q.tail k = (L k).getLast? := (h.linked k).tail_eq

variable [DecidableEq κ]

/-- An edit of one queue: its new list hangs together, and only pointers of its cells are written. -/
lemma Holds.edit {q' : Queues κ α} (h : q.Holds L) {l' : List α}
    (hlinked : Linked q'.next q'.prev (q'.head k) (q'.tail k) l')
    (hnew : ∀ a ∈ l', ∀ k', k' ≠ k → a ∉ L k')
    (hhead : ∀ k', k' ≠ k → q'.head k' = q.head k') (htail : ∀ k', k' ≠ k → q'.tail k' = q.tail k')
    (hnext : ∀ k', k' ≠ k → ∀ a ∈ L k', q'.next a = q.next a)
    (hprev : ∀ k', k' ≠ k → ∀ a ∈ L k', q'.prev a = q.prev a) :
    q'.Holds (Function.update L k l') := by
  refine ⟨fun k' => ?_, fun k₁ k₂ a h₁ h₂ => ?_⟩
  · by_cases hk : k' = k
    · subst hk
      rwa [Function.update_self]
    · rw [Function.update_of_ne hk, hhead k' hk, htail k' hk]
      exact (h.linked k').congr (hnext k' hk) (hprev k' hk)
  · by_cases hk₁ : k₁ = k <;> by_cases hk₂ : k₂ = k
    · rw [hk₁, hk₂]
    · subst hk₁
      rw [Function.update_self] at h₁
      rw [Function.update_of_ne hk₂] at h₂
      exact absurd h₂ (hnew a h₁ k₂ hk₂)
    · subst hk₂
      rw [Function.update_of_ne hk₁] at h₁
      rw [Function.update_self] at h₂
      exact absurd h₁ (hnew a h₂ k₁ hk₁)
    · rw [Function.update_of_ne hk₁] at h₁
      rw [Function.update_of_ne hk₂] at h₂
      exact h.apart k₁ k₂ a h₁ h₂

variable [DecidableEq α]

lemma Holds.pushFront (h : q.Holds L) (ha : ∀ k, a ∉ L k) :
    (q.pushFront k a).Holds (Function.update L k (a :: L k)) := by
  have hl := h.linked k
  have hhead := h.head_eq (k := k)
  refine h.edit ⟨?_, ?_⟩ ?_ ?_ ?_ ?_ ?_
  · refine ⟨Function.update_self .., ?_⟩
    have hself : (q.pushFront k a).next a = q.head k := Function.update_self ..
    rw [hself]
    exact chain_congr hl.1 fun c hc => Function.update_of_ne (ne_of_mem_of_not_mem hc (ha k)) ..
  · have hchain := hl.2
    cases hk : L k with
    | nil =>
      rw [hk] at hchain hhead
      have htail : q.tail k = none := hchain
      simp only [Queues.pushFront, htail, hhead, setAt, List.head?_nil, if_true,
        Function.update_self, List.reverse_cons, List.reverse_nil, List.nil_append]
      exact ⟨rfl, Function.update_self ..⟩
    | cons b l =>
      rw [hk, List.reverse_cons] at hchain
      rw [hk] at hhead
      obtain ⟨hnot, hab⟩ : a ∉ l ∧ a ≠ b := by
        have hak := ha k
        rw [hk] at hak
        simp only [List.mem_cons, not_or] at hak
        exact ⟨hak.2, hak.1⟩
      have hbl : b ∉ l.reverse := by
        have hnodup := hl.nodup
        rw [hk] at hnodup
        simpa using (List.nodup_cons.1 hnodup).1
      have htail : q.tail k ≠ none := by
        rw [h.tail_eq, hk]
        simp
      simp only [Queues.pushFront, htail, hhead, setAt, List.head?_cons, if_false, List.reverse_cons]
      obtain ⟨_, hseg, hnone⟩ := chain_append.1 hchain
      have hseg' : Seg (Function.update q.prev a none) (q.tail k) (l.reverse ++ [b]) none := by
        refine seg_congr (seg_snoc.2 ⟨?_, hnone.2⟩) fun c hc => Function.update_of_ne ?_ ..
        · rw [← hnone.1]
          exact hseg
        · rintro rfl
          simp only [List.mem_append, List.mem_reverse, List.mem_singleton] at hc
          exact hc.elim hnot hab
      refine chain_append.2 ⟨some a, seg_set_last hseg' hbl, rfl, ?_⟩
      rw [Function.update_of_ne hab]
      exact Function.update_self ..
  · intro c hc k' hk'
    rcases List.mem_cons.1 hc with rfl | hc
    · exact ha k'
    · exact fun hc' => hk' (h.apart k' k c hc' hc)
  · exact fun k' hk' => Function.update_of_ne hk' ..
  · intro k' hk'
    simp only [Queues.pushFront]
    split
    · exact Function.update_of_ne hk' ..
    · rfl
  · exact fun k' _ c hc => Function.update_of_ne (ne_of_mem_of_not_mem hc (ha k')) ..
  · intro k' hk' c hc
    simp only [Queues.pushFront]
    rw [setAt_of_notMem, Function.update_of_ne (ne_of_mem_of_not_mem hc (ha k'))]
    rintro b hb rfl
    rw [hhead] at hb
    exact hk' (h.apart k' k c hc (List.mem_of_head? hb))

lemma Holds.pushBack (h : q.Holds L) (ha : ∀ k, a ∉ L k) :
    (q.pushBack k a).Holds (Function.update L k (L k ++ [a])) := by
  have hfront := (h.mirror.pushFront (k := k) (a := a) fun k' => by simpa using ha k').mirror
  have hlists : (fun k' => (Function.update (fun k => (L k).reverse) k (a :: (L k).reverse) k').reverse) =
      Function.update L k (L k ++ [a]) := by
    funext k'
    by_cases hk : k' = k
    · subst hk
      simp
    · simp [Function.update_of_ne hk]
  rw [hlists] at hfront
  exact hfront

lemma Holds.unlink (h : q.Holds L) (hk : L k = l ++ a :: m) :
    (q.unlink k a).Holds (Function.update L k (l ++ m)) := by
  have hl := h.linked k
  have hprev := h.prev_eq hk
  have hnext := h.next_eq hk
  have hhead := h.head_eq (k := k)
  have htail := h.tail_eq (k := k)
  have hnodup := hl.nodup
  rw [hk] at hl hhead htail hnodup
  have hout : ∀ c, c ∈ l ++ m → c ∈ L k := by
    intro c hc
    rw [hk]
    simp only [List.mem_append, List.mem_cons] at hc ⊢
    tauto
  have hal : a ∉ l ++ m := (List.nodup_cons.1 (List.nodup_middle.1 hnodup)).1
  have hfirst : (q.unlink k a).head k = if l = [] then q.next a else q.head k := by
    simp only [Queues.unlink]
    cases l with
    | nil => simp [hhead]
    | cons b l =>
      have hba : b ≠ a := fun heq => hal (by simp [heq])
      simp [hhead, hba]
  have hlast : (q.unlink k a).tail k = if m.reverse = [] then q.prev a else q.tail k := by
    simp only [Queues.unlink]
    rcases List.eq_nil_or_concat' m with rfl | ⟨m, b, rfl⟩
    · simp [htail]
    · have hba : b ≠ a := fun heq => hal (by simp [heq])
      have hlast : q.tail k = some b := by
        rw [htail, ← List.cons_append, ← List.append_assoc, List.getLast?_concat]
      simp [hlast, hba]
  refine h.edit ⟨?_, ?_⟩ (fun c hc k' hk' hc' => hk' (h.apart k' k c hc' (hout c hc))) ?_ ?_ ?_ ?_
  · rw [hfirst]
    have herase := chain_erase hl.1
    rw [← hprev] at herase
    exact herase
  · rw [hlast]
    have hback := hl.2
    rw [List.reverse_append, List.reverse_cons, List.append_assoc, List.singleton_append] at hback
    have herase := chain_erase hback
    rw [List.getLast?_reverse, ← hnext] at herase
    rw [List.reverse_append]
    exact herase
  · intro k' hk'
    simp only [Queues.unlink]
    split
    · exact Function.update_of_ne hk' ..
    · rfl
  · intro k' hk'
    simp only [Queues.unlink]
    split
    · exact Function.update_of_ne hk' ..
    · rfl
  · intro k' hk' c hc
    refine setAt_of_notMem ?_
    rintro b hb rfl
    rw [hprev] at hb
    exact hk' (h.apart k' k c hc (hout c (by simp [List.mem_of_getLast? hb])))
  · intro k' hk' c hc
    refine setAt_of_notMem ?_
    rintro b hb rfl
    rw [hnext] at hb
    exact hk' (h.apart k' k c hc (hout c (by simp [List.mem_of_head? hb])))

lemma Holds.advance (h : q.Holds L) (hk : L k = l ++ b :: a :: m) :
    (q.advance k a b).Holds (Function.update L k (l ++ a :: b :: m)) := by
  have hk' : L k = (l ++ [b]) ++ a :: m := by rw [hk, List.append_assoc, List.singleton_append]
  have hl := h.linked k
  have hprev := h.prev_eq hk
  have hnext := h.next_eq hk'
  have hhead := h.head_eq (k := k)
  have htail := h.tail_eq (k := k)
  have hnodup := hl.nodup
  rw [hk] at hl hhead htail hnodup
  obtain ⟨_, hrest, hdisj⟩ := List.nodup_append.1 hnodup
  obtain ⟨hbm, ham⟩ := List.nodup_cons.1 hrest
  obtain ⟨ham, _⟩ := List.nodup_cons.1 ham
  have hab : a ≠ b := fun heq => hbm (heq ▸ List.mem_cons_self)
  have hnb : q.next a ≠ some b := fun heq => by
    rw [hnext] at heq
    exact hbm (List.mem_cons_of_mem _ (List.mem_of_head? heq))
  have hna : q.next a ≠ some a := fun heq => by
    rw [hnext] at heq
    exact ham (List.mem_of_head? heq)
  have hback : setAt q.prev (q.next a) (some b) b = q.prev b :=
    setAt_of_notMem fun c hc heq => hnb (heq ▸ hc)
  have hfirst : (q.advance k a b).head k = if l = [] then some a else q.head k := by
    simp only [Queues.advance]
    cases l with
    | nil => simp [hhead]
    | cons c l =>
      have hcb : c ≠ b := hdisj c (by simp) b (by simp)
      simp [hhead, hcb]
  have hlast : (q.advance k a b).tail k = if m.reverse = [] then some b else q.tail k := by
    simp only [Queues.advance]
    rcases List.eq_nil_or_concat' m with rfl | ⟨m, c, rfl⟩
    · simp [htail]
    · have hca : c ≠ a := fun heq => ham (by simp [heq])
      have hlast : q.tail k = some c := by
        rw [htail, ← List.cons_append, ← List.cons_append, ← List.append_assoc, List.getLast?_concat]
      simp [hlast, hca]
  have hcell : ∀ c, c ∈ l ++ a :: b :: m → c ∈ L k := by
    intro c hc
    rw [hk]
    simp only [List.mem_append, List.mem_cons] at hc ⊢
    tauto
  have hother : ∀ k', k' ≠ k → ∀ c ∈ L k', c ∉ L k := fun k' hk' c hc hc' =>
    hk' (h.apart k' k c hc hc')
  refine h.edit ⟨?_, ?_⟩ (fun c hc k' hk' hc' => hother k' hk' c hc' (hcell c hc)) ?_ ?_ ?_ ?_
  · rw [hfirst]
    have hswap := chain_swap hl.1
    simp only [Queues.advance, Function.update_self, hback]
    rw [hprev]
    exact hswap
  · rw [hlast]
    have hrev := hl.2
    rw [List.reverse_append, List.reverse_cons, List.reverse_cons, List.append_assoc,
      List.append_assoc, List.singleton_append, List.singleton_append] at hrev
    have hswap := chain_swap hrev
    rw [List.getLast?_reverse, ← hnext, setAt_update hnb, setAt_update hna] at hswap
    simp only [Queues.advance, hback]
    rw [List.reverse_append, List.reverse_cons, List.reverse_cons, List.append_assoc,
      List.append_assoc, List.singleton_append, List.singleton_append]
    exact hswap
  · intro k' hk'
    simp only [Queues.advance]
    split
    · exact Function.update_of_ne hk' ..
    · rfl
  · intro k' hk'
    simp only [Queues.advance]
    split
    · exact Function.update_of_ne hk' ..
    · rfl
  · intro k' hk' c hc
    have hck := hother k' hk' c hc
    have hca : c ≠ a := fun heq => hck (by simp [hk, heq])
    have hcb : c ≠ b := fun heq => hck (by simp [hk, heq])
    simp only [Queues.advance, Function.update_self, hback]
    rw [setAt_of_notMem, Function.update_of_ne hca, Function.update_of_ne hcb]
    rintro d hd rfl
    rw [hprev] at hd
    exact hck (by simp [hk, List.mem_of_getLast? hd])
  · intro k' hk' c hc
    have hck := hother k' hk' c hc
    have hca : c ≠ a := fun heq => hck (by simp [hk, heq])
    have hcb : c ≠ b := fun heq => hck (by simp [hk, heq])
    simp only [Queues.advance]
    rw [Function.update_of_ne hcb, Function.update_of_ne hca, setAt_of_notMem]
    rintro d hd rfl
    rw [hnext] at hd
    exact hck (by simp [hk, List.mem_of_head? hd])

/-- The head of a queue leaves it, and is taken out. -/
lemma Holds.popFront (h : q.Holds L) (hk : L k = a :: m) :
    ((q.popFront k a).unlink k a).Holds (Function.update L k m) := by
  have hnext : q.next a = m.head? := h.next_eq (l := []) hk
  have hprev : q.prev a = none := h.prev_eq (l := []) hk
  cases m with
  | nil =>
    have hpop : q.popFront k a = q := by simp [Queues.popFront, hnext]
    rw [hpop]
    exact h.unlink (l := []) hk
  | cons c m =>
    -- what is left to do afterwards has been done
    have hca : c ≠ a := by
      have hnodup := (h.linked k).nodup
      rw [hk] at hnodup
      rintro rfl
      exact (List.nodup_cons.1 hnodup).1 List.mem_cons_self
    have hhead : q.head k = some a := by rw [h.head_eq, hk, List.head?_cons]
    have htail : q.tail k ≠ some a := by
      rw [h.tail_eq, hk, List.getLast?_cons_cons]
      intro hlast
      have hnodup := (h.linked k).nodup
      rw [hk] at hnodup
      exact (List.nodup_cons.1 hnodup).1 (List.mem_of_getLast? hlast)
    have heq : (q.popFront k a).unlink k a = q.unlink k a := by
      simp only [Queues.popFront, hnext, List.head?_cons, Queues.unlink, Function.update_self,
        Option.some.injEq, hca, if_false, hhead, htail, if_true, Function.update_of_ne hca.symm, hprev,
        setAt, Function.update_idem]
    rw [heq]
    exact h.unlink (l := []) hk

end Queues

end Skq.Lib
