import SkqBench.Mem.ConnQueue

/-!
# No item is lost, and none is in two places

The invariant names the place of every item: `home` is a ghost function, and the free list, the
queues and the threads hold exactly the items it sends to them.  A step moves one item, or the items
of one block.  An item is lost in one branch only, the early return of `dispatch_conn_new` after a
failed `getpeername`: `conserved_iff`.
-/

namespace Skq.Mem

open Lib Evcompat

/-- What the invariant knows of an item. -/
inductive Home (τ : Type)
  | unborn
  | lost
  | kept (pl : Place τ)

namespace Pool

variable {τ : Type} {s s' : Pool τ} {home home' : ℕ → Home τ} {fl fl' : List ℕ}
  {qs qs' : ℕ → List ℕ} {tr o : List PoolObs} {t : τ} {i : ℕ} {tid : ℕ} {pc : Pc}

/-- Threads that have pushed an item and not written their `'c'` yet. -/
def notifying (tid : ℕ) : Pc → Bool := fun pc => pc == .notify tid

/-- The lists in memory hold the items that are at home there. -/
structure Linked (s : Pool τ) (home : ℕ → Home τ) (fl : List ℕ) (qs : ℕ → List ℕ) :
    Prop where
  unborn : ∀ i, home i = .unborn ↔ s.allocated ≤ i
  freelist : Chain s.next s.freelist fl
  mem_freelist : ∀ i, i ∈ fl ↔ home i = .kept .freelist
  queue : ∀ tid, Chain s.next (s.newConnQueue tid).head (qs tid)
  tail : ∀ tid, (s.newConnQueue tid).tail = (qs tid).getLast?
  mem_queue : ∀ tid i, i ∈ qs tid ↔ home i = .kept (.queue tid)

/-- The threads hold the items that are at home with them; the items of a new block are linked in a
row, and an item about to be pushed has a null pointer. -/
structure Manned (s : Pool τ) (home : ℕ → Home τ) : Prop where
  holds : ∀ t i, (s.threads t).holds i ↔ home i = .kept (.hands t)
  row : ∀ t call base, s.threads t = .link call base →
    ∀ i, base + 1 ≤ i → i + 1 < base + itemsPerAlloc → s.next i = some (i + 1)
  null : ∀ t i tid, s.threads t = .push i tid → s.next i = none

/-- Every item in a queue has one `'c'` that is to be written, to be read or to be acted on. -/
def Due [Fintype τ] (s : Pool τ) (qs : ℕ → List ℕ) : Prop :=
  ∀ tid, (s.pipe tid).count .c + threadsAt s.threads (acting tid) +
    threadsAt s.threads (notifying tid) = (qs tid).length

/-- The queues hold what was pushed and not popped; a lost item had its `getpeername` fail. -/
structure Told (s : Pool τ) (home : ℕ → Home τ) (qs : ℕ → List ℕ) (tr : List PoolObs) :
    Prop where
  fifo : ∀ tid, pushedOn tid tr = poppedOn tid tr ++ (qs tid).map fun i => (i, s.item i)
  lost : (∃ i, home i = .lost) ↔ ∃ sfd, .getpeernameFailed sfd ∈ tr

/-- The invariant. -/
structure Inv [Fintype τ] (s : Pool τ) (tr : List PoolObs) (home : ℕ → Home τ) (fl : List ℕ)
    (qs : ℕ → List ℕ) : Prop where
  linked : s.Linked home fl qs
  manned : s.Manned home
  due : s.Due qs
  told : s.Told home qs tr

lemma pushedOn_append : pushedOn tid (tr ++ o) = pushedOn tid tr ++ pushedOn tid o :=
  List.filterMap_append ..

lemma poppedOn_append : poppedOn tid (tr ++ o) = poppedOn tid tr ++ poppedOn tid o :=
  List.filterMap_append ..

/-- The place of an item is its home. -/
lemma has_iff [Fintype τ] (h : s.Inv tr home fl qs) (i : ℕ) (pl : Place τ) :
    s.Has i pl ↔ home i = .kept pl := by
  cases pl with
  | freelist => exact (chain_mem h.linked.freelist).symm.trans (h.linked.mem_freelist i)
  | queue tid => exact (chain_mem (h.linked.queue tid)).symm.trans (h.linked.mem_queue tid i)
  | hands t => exact h.manned.holds t i

/-! ## One item moves -/

section Update

variable {j : ℕ} {l : List ℕ} {x y : Home τ}

/-- A list that the item neither leaves nor enters. -/
lemma mem_update (h : ∀ j, j ∈ l ↔ home j = y) (hi : home i ≠ y) (hx : x ≠ y) (j : ℕ) :
    j ∈ l ↔ Function.update home i x j = y := by
  by_cases hj : j = i
  · subst hj
    rw [Function.update_self, h]
    exact iff_of_false hi hx
  · rw [Function.update_of_ne hj, h]

/-- The list that the item enters. -/
lemma mem_update_cons (h : ∀ j, j ∈ l ↔ home j = y) (j : ℕ) :
    j ∈ i :: l ↔ Function.update home i y j = y := by
  by_cases hj : j = i
  · subst hj
    simp
  · rw [Function.update_of_ne hj, ← h]
    simp [hj]

/-- The list that the item leaves. -/
lemma mem_update_tail (h : ∀ j, j ∈ i :: l ↔ home j = y) (hl : (i :: l).Nodup) (hx : x ≠ y)
    (j : ℕ) : j ∈ l ↔ Function.update home i x j = y := by
  by_cases hj : j = i
  · subst hj
    rw [Function.update_self]
    exact iff_of_false (List.nodup_cons.1 hl).1 hx
  · rw [Function.update_of_ne hj, ← h]
    simp [hj]

/-- What an item that is born and stays so means for a property of the others. -/
lemma update_iff {n : ℕ} (h : ∀ j, home j = y ↔ n ≤ j) (hi : home i ≠ y) (hx : x ≠ y) (j : ℕ) :
    Function.update home i x j = y ↔ n ≤ j := by
  by_cases hj : j = i
  · subst hj
    rw [Function.update_self, ← h]
    exact iff_of_false hx hi
  · rw [Function.update_of_ne hj, h]

/-- The items of the other threads. -/
lemma hands_update {u : τ} (hi : home i ≠ .kept (.hands u)) (hx : x ≠ .kept (.hands u)) :
    Function.update home i x j = .kept (.hands u) ↔ home j = .kept (.hands u) := by
  by_cases hj : j = i
  · subst hj
    rw [Function.update_self]
    exact iff_of_false hx hi
  · rw [Function.update_of_ne hj]

/-- The lost items. -/
lemma lost_update (hi : home i ≠ .lost) (hx : x ≠ .lost) :
    (∃ j, Function.update home i x j = .lost) ↔ ∃ j, home j = .lost := by
  refine exists_congr fun j => ?_
  by_cases hj : j = i
  · subst hj
    rw [Function.update_self]
    exact iff_of_false hx hi
  · rw [Function.update_of_ne hj]

end Update

/-! ## Steps that move no item -/

/-- Only the pointers of the listed items matter to the lists. -/
lemma linked_congr (h : s.Linked home fl qs) (ha : s'.allocated = s.allocated)
    (hf : s'.freelist = s.freelist) (hq : s'.newConnQueue = s.newConnQueue)
    (hnext : ∀ i, home i = .kept .freelist ∨ (∃ tid, home i = .kept (.queue tid)) →
      s'.next i = s.next i) : s'.Linked home fl qs where
  unborn i := by rw [ha, h.unborn]
  freelist := by
    rw [hf]
    exact chain_congr h.freelist fun i hi => hnext i (.inl ((h.mem_freelist i).1 hi))
  mem_freelist := h.mem_freelist
  queue tid := by
    rw [hq]
    exact chain_congr (h.queue tid) fun i hi => hnext i (.inr ⟨tid, (h.mem_queue tid i).1 hi⟩)
  tail tid := by rw [hq, h.tail]
  mem_queue := h.mem_queue

/-- A thread with nothing in its hands. -/
lemma not_hands (h : s.Manned home) (hpc : ∀ i, ¬ (s.threads t).holds i) (i : ℕ) :
    home i ≠ .kept (.hands t) := fun hi => hpc i ((h.holds t i).2 hi)

/-- The only item of a thread leaves its hands. -/
lemma released (h : s.Manned home) (hpc : ∀ j, (s.threads t).holds j ↔ j = i) {x : Home τ}
    (hx : x ≠ .kept (.hands t)) (j : ℕ) : Function.update home i x j ≠ .kept (.hands t) := by
  by_cases hj : j = i
  · subst hj
    rwa [Function.update_self]
  · rw [Function.update_of_ne hj]
    intro hhome
    exact hj ((hpc j).1 ((h.holds t j).2 hhome))

/-- An item comes into the hands of a thread that has none. -/
lemma taken (h : ∀ j, home j ≠ .kept (.hands t)) (j : ℕ) :
    j = i ↔ Function.update home i (.kept (.hands t)) j = .kept (.hands t) := by
  by_cases hj : j = i
  · subst hj
    simp
  · rw [Function.update_of_ne hj]
    exact iff_of_false hj (h j)

/-- The history after observations that tell nothing of the queues. -/
lemma told_append (h : s.Told home qs tr) (ho : ∀ x ∈ o, ∃ sfd, x = .close sfd) :
    s.Told home qs (tr ++ o) := by
  have hpush : ∀ tid, pushedOn tid o = [] := fun tid => by
    refine List.filterMap_eq_nil_iff.2 fun x hx => ?_
    obtain ⟨sfd, rfl⟩ := ho x hx
    rfl
  have hpop : ∀ tid, poppedOn tid o = [] := fun tid => by
    refine List.filterMap_eq_nil_iff.2 fun x hx => ?_
    obtain ⟨sfd, rfl⟩ := ho x hx
    rfl
  have hlost : ∀ sfd, PoolObs.getpeernameFailed sfd ∉ o := fun sfd hmem => by
    obtain ⟨sfd', heq⟩ := ho _ hmem
    cases heq
  refine ⟨fun tid => ?_, ?_⟩
  · rw [pushedOn_append, poppedOn_append, hpush, hpop, List.append_nil, List.append_nil, h.fifo]
  · rw [h.lost]
    refine exists_congr fun sfd => ?_
    rw [List.mem_append]
    exact ⟨.inl, fun hmem => hmem.resolve_right (hlost sfd)⟩

/-- A store to an item that is in no queue. -/
lemma setItem_inv [Fintype τ] (h : s.Inv tr home fl qs) (hi : (s.threads t).holds i) (x : CqItem) :
    (s.setItem i x).Inv tr home fl qs where
  linked := linked_congr h.linked rfl rfl rfl fun _ _ => rfl
  manned := ⟨h.manned.holds, h.manned.row, h.manned.null⟩
  due := h.due
  told := by
    refine ⟨fun tid => ?_, h.told.lost⟩
    have hmap : (qs tid).map (fun j => (j, (s.setItem i x).item j)) =
        (qs tid).map fun j => (j, s.item j) := by
      refine List.map_congr_left fun j hj => ?_
      have hji : j ≠ i := by
        rintro rfl
        have hqueue := (h.linked.mem_queue tid j).1 hj
        rw [(h.manned.holds t j).1 hi] at hqueue
        cases hqueue
      rw [show (s.setItem i x).item j = s.item j from Function.update_of_ne hji ..]
    rw [h.told.fifo, hmap]

/-- A `'p'` is written or read. -/
lemma pauseByte_inv [Fintype τ] (h : s.Inv tr home fl qs) {pipe : ℕ → List NotifyByte}
    (hcount : ∀ tid, (pipe tid).count .c = (s.pipe tid).count .c) :
    Inv { s with pipe := pipe } tr home fl qs where
  linked := linked_congr h.linked rfl rfl rfl fun _ _ => rfl
  manned := ⟨h.manned.holds, h.manned.row, h.manned.null⟩
  due tid := by
    rw [← h.due tid, ← hcount tid]
  told := ⟨h.told.fifo, h.told.lost⟩

/-! ## The lists after `cq_push` and `cq_pop` -/

/-- An item is appended. -/
lemma push_linked (hl : s.Linked home fl qs) (hi : home i = .kept (.hands t)) (hnull : s.next i = none) :
    (s.cqPush tid i).Linked (Function.update home i (.kept (.queue tid))) fl
      (Function.update qs tid (qs tid ++ [i])) := by
  have hnot : i ∉ qs tid := fun hmem => by
    rw [hl.mem_queue, hi] at hmem
    cases hmem
  have hmemQueue : ∀ tid' j, j ∈ Function.update qs tid (qs tid ++ [i]) tid' ↔
      Function.update home i (.kept (.queue tid)) j = .kept (.queue tid') := by
    intro tid' j
    by_cases htid : tid' = tid
    · subst htid
      rw [Function.update_self, List.mem_append, List.mem_singleton, or_comm, ← List.mem_cons]
      exact mem_update_cons (hl.mem_queue tid') j
    · rw [Function.update_of_ne htid]
      exact mem_update (hl.mem_queue tid') (by simp [hi]) (by simpa using Ne.symm htid) j
  have htail := hl.tail tid
  rw [cqPush]
  split
  · next hnone =>
    have hempty : qs tid = [] := List.getLast?_eq_none_iff.1 (htail ▸ hnone)
    refine ⟨update_iff hl.unborn (by simp [hi]) (by simp), hl.freelist,
      mem_update hl.mem_freelist (by simp [hi]) (by simp), fun tid' => ?_, fun tid' => ?_, hmemQueue⟩
    · by_cases htid : tid' = tid
      · subst htid
        simp only [Function.update_self, hempty]
        exact ⟨rfl, hnull⟩
      · simp only [Function.update_of_ne htid]
        exact hl.queue tid'
    · by_cases htid : tid' = tid
      · subst htid
        simp
      · simp only [Function.update_of_ne htid]
        exact hl.tail tid'
  · next j hj =>
    have hlast : (qs tid).getLast? = some j := htail ▸ hj
    have hjhome : home j = .kept (.queue tid) :=
      (hl.mem_queue tid j).1 (List.mem_of_getLast? hlast)
    have hother : ∀ j', home j' ≠ .kept (.queue tid) →
        Function.update s.next j (some i) j' = s.next j' := by
      intro j' hj'
      refine Function.update_of_ne ?_ ..
      rintro rfl
      exact hj' hjhome
    refine ⟨update_iff hl.unborn (by simp [hi]) (by simp), ?_,
      mem_update hl.mem_freelist (by simp [hi]) (by simp), fun tid' => ?_, fun tid' => ?_, hmemQueue⟩
    · exact chain_congr hl.freelist fun j' hj' =>
        hother j' (by simp [(hl.mem_freelist j').1 hj'])
    · by_cases htid : tid' = tid
      · subst htid
        simp only [Function.update_self]
        exact chain_snoc (hl.queue tid') hlast hnot hnull
      · simp only [Function.update_of_ne htid]
        exact chain_congr (hl.queue tid') fun j' hj' =>
          hother j' (by simpa [(hl.mem_queue tid' j').1 hj'] using htid)
    · by_cases htid : tid' = tid
      · subst htid
        simp
      · simp only [Function.update_of_ne htid]
        exact hl.tail tid'

/-- What `cq_push` leaves as it is. -/
@[simp] lemma cqPush_threads : (s.cqPush tid i).threads = s.threads := by
  rw [cqPush]
  split <;> rfl

@[simp] lemma cqPush_pipe : (s.cqPush tid i).pipe = s.pipe := by
  rw [cqPush]
  split <;> rfl

@[simp] lemma cqPush_item : (s.cqPush tid i).item = s.item := by
  rw [cqPush]
  split <;> rfl

/-- `cq_push` writes to the last item of the queue only. -/
lemma cqPush_next (hl : s.Linked home fl qs) {j : ℕ} (hj : ∀ tid, home j ≠ .kept (.queue tid)) :
    (s.cqPush tid i).next j = s.next j := by
  rw [cqPush]
  split
  · rfl
  · next k hk =>
    refine Function.update_of_ne ?_ ..
    rintro rfl
    rw [hl.tail] at hk
    exact hj tid ((hl.mem_queue tid j).1 (List.mem_of_getLast? hk))

/-- The first item is taken. -/
lemma pop_linked (hl : s.Linked home fl qs) (hhead : (s.newConnQueue tid).head = some i) :
    ∃ q, qs tid = i :: q ∧ (s.cqPop tid).Linked (Function.update home i (.kept (.hands t))) fl
      (Function.update qs tid q) := by
  have hchain := hl.queue tid
  rw [hhead] at hchain
  obtain ⟨q, hq, hchain'⟩ := chain_pop hchain
  have hi : home i = .kept (.queue tid) := (hl.mem_queue tid i).1 (by simp [hq])
  refine ⟨q, hq, ?_⟩
  rw [cqPop, hhead]
  refine ⟨update_iff hl.unborn (by simp [hi]) (by simp), hl.freelist,
    mem_update hl.mem_freelist (by simp [hi]) (by simp), fun tid' => ?_, fun tid' => ?_,
    fun tid' => ?_⟩
  · by_cases htid : tid' = tid
    · subst htid
      simpa only [Function.update_self] using hchain'
    · simp only [Function.update_of_ne htid]
      exact hl.queue tid'
  · by_cases htid : tid' = tid
    · subst htid
      simp only [Function.update_self]
      split
      · next hnext =>
        rw [hnext] at hchain'
        rw [chain_none hchain']
        rfl
      · next hnext =>
        rw [hl.tail, hq]
        cases q with
        | nil => exact absurd hchain' hnext
        | cons j q => exact List.getLast?_cons_cons
    · simp only [Function.update_of_ne htid]
      exact hl.tail tid'
  · by_cases htid : tid' = tid
    · subst htid
      have hmem := hl.mem_queue tid'
      rw [hq] at hmem
      simp only [Function.update_self]
      exact mem_update_tail hmem (chain_nodup (hq ▸ hchain)) (by simp)
    · simp only [Function.update_of_ne htid]
      exact mem_update (hl.mem_queue tid') (by simpa [hi] using Ne.symm htid) (by simp)

/-! ## The threads -/

variable [DecidableEq τ]

/-- One thread goes on at `pc`; the items of the others stay with them, and so do their pointers. -/
lemma manned_goto (h : s.Manned home) (ht : s'.threads = Function.update s.threads t pc)
    (hself : ∀ i, pc.holds i ↔ home' i = .kept (.hands t))
    (hother : ∀ u i, u ≠ t → (home' i = .kept (.hands u) ↔ home i = .kept (.hands u)))
    (hnext : ∀ u i, u ≠ t → home i = .kept (.hands u) → s'.next i = s.next i)
    (hrow : ∀ call base, pc = .link call base →
      ∀ i, base + 1 ≤ i → i + 1 < base + itemsPerAlloc → s'.next i = some (i + 1))
    (hnull : ∀ i tid, pc = .push i tid → s'.next i = none) : s'.Manned home' := by
  refine ⟨fun u i => ?_, fun u call base hu i hlo hhi => ?_, fun u i tid hu => ?_⟩
  · by_cases hut : u = t
    · subst hut
      rw [ht, Function.update_self, hself]
    · rw [ht, Function.update_of_ne hut, h.holds, hother u i hut]
  · by_cases hut : u = t
    · subst hut
      rw [ht, Function.update_self] at hu
      exact hrow call base hu i hlo hhi
    · rw [ht, Function.update_of_ne hut] at hu
      have hholds : (s.threads u).holds i := by
        rw [hu]
        show base ≤ i ∧ i < base + itemsPerAlloc
        omega
      rw [hnext u i hut ((h.holds u i).1 hholds)]
      exact h.row u call base hu i hlo hhi
  · by_cases hut : u = t
    · subst hut
      rw [ht, Function.update_self] at hu
      exact hnull i tid hu
    · rw [ht, Function.update_of_ne hut] at hu
      have hholds : (s.threads u).holds i := by
        rw [hu]
        rfl
      rw [hnext u i hut ((h.holds u i).1 hholds)]
      exact h.null u i tid hu

/-- A thread goes on with the same items in its hands. -/
lemma manned_same (h : s.Manned home) (hholds : ∀ i, pc.holds i ↔ (s.threads t).holds i)
    (hlink : ∀ call base, pc ≠ .link call base) (hpush : ∀ i tid, pc ≠ .push i tid) :
    (s.goto t pc).Manned home :=
  manned_goto h rfl (fun i => (hholds i).trans (h.holds t i)) (fun _ _ _ => Iff.rfl)
    (fun _ _ _ _ => rfl) (fun call base hpc => absurd hpc (hlink call base))
    (fun i tid hpc => absurd hpc (hpush i tid))

/-- The balance of one step of one thread. -/
lemma due_goto [Fintype τ] (h : s.Due qs) (ht : s'.threads = Function.update s.threads t pc)
    (hbal : ∀ tid, (s'.pipe tid).count .c + (if acting tid pc then 1 else 0) +
        (if notifying tid pc then 1 else 0) + (qs tid).length =
      (s.pipe tid).count .c + (if acting tid (s.threads t) then 1 else 0) +
        (if notifying tid (s.threads t) then 1 else 0) + (qs' tid).length) : s'.Due qs' := by
  intro tid
  have hdue := h tid
  have hact := threadsAt_update s.threads (acting tid) t pc
  have hnot := threadsAt_update s.threads (notifying tid) t pc
  have hstep := hbal tid
  rw [ht]
  omega

/-- A step that moves no item and no `'c'`. -/
lemma due_same [Fintype τ] (h : s.Due qs) (hact : ∀ tid, acting tid pc = acting tid (s.threads t))
    (hnot : ∀ tid, notifying tid pc = notifying tid (s.threads t)) : (s.goto t pc).Due qs :=
  due_goto h rfl fun tid => by
    rw [hact, hnot]
    rfl

/-- At `pc` a thread has the same in its hands as at `old`, and nothing that is half done. -/
structure Alike (old pc : Pc) : Prop where
  holds : ∀ i, pc.holds i ↔ old.holds i
  link : ∀ call base, pc ≠ .link call base
  push : ∀ i tid, pc ≠ .push i tid
  acting : ∀ tid, acting tid pc = acting tid old
  notifying : ∀ tid, notifying tid pc = notifying tid old

/-- A thread goes on with the same items in its hands. -/
lemma goto_inv [Fintype τ] {old : Pc} (h : s.Inv tr home fl qs) (hpc : s.threads t = old)
    (ha : Alike old pc) (ho : ∀ x ∈ o, ∃ sfd, x = .close sfd) :
    (s.goto t pc).Inv (tr ++ o) home fl qs where
  linked := linked_congr h.linked rfl rfl rfl fun _ _ => rfl
  manned := manned_same h.manned (hpc ▸ ha.holds) ha.link ha.push
  due := due_same h.due (hpc ▸ ha.acting) (hpc ▸ ha.notifying)
  told := ⟨(told_append h.told ho).fifo, (told_append h.told ho).lost⟩

/-! ## `cqi_new` and `cqi_free` -/

/-- The first item of the free list is taken. -/
lemma take_inv [Fintype τ] {call : HandOver} (h : s.Inv tr home fl qs)
    (hpc : s.threads t = .cqiNew call) (hf : s.freelist = some i) :
    ∃ fl', (goto { s with freelist := s.next i } t (.prepare call i)).Inv tr
      (Function.update home i (.kept (.hands t))) fl' qs := by
  obtain ⟨hl, hm, hd, ht⟩ := h
  have hchain := hl.freelist
  rw [hf] at hchain
  obtain ⟨fl', rfl, hchain'⟩ := chain_pop hchain
  have hi : home i = .kept .freelist := (hl.mem_freelist i).1 List.mem_cons_self
  have hempty := not_hands hm (t := t) (fun i => by simp [hpc, Pc.holds])
  refine ⟨fl', ⟨?_, hchain', ?_, hl.queue, hl.tail, ?_⟩, ?_, ?_, ht.fifo, ?_⟩
  · exact update_iff hl.unborn (by simp [hi]) (by simp)
  · exact mem_update_tail hl.mem_freelist (chain_nodup hchain) (by simp)
  · exact fun tid => mem_update (hl.mem_queue tid) (by simp [hi]) (by simp)
  · refine manned_goto hm rfl (fun j => ?_) (fun u j hu => ?_) (fun _ _ _ _ => rfl) (by simp) (by simp)
    · exact taken hempty j
    · exact hands_update (by simp [hi]) (by simpa using Ne.symm hu)
  · exact due_goto hd rfl fun tid => by simp [hpc, goto, acting, notifying]
  · rw [lost_update (by simp [hi]) (by simp), ht.lost]

/-- An item goes back to the free list. -/
lemma free_inv [Fintype τ] (h : s.Inv tr home fl qs) (hpc : s.threads t = .free i) :
    ((s.cqiFree i).goto t .idle).Inv tr (Function.update home i (.kept .freelist)) (i :: fl) qs := by
  obtain ⟨hl, hm, hd, ht⟩ := h
  have hi : home i = .kept (.hands t) := (hm.holds t i).1 (by simp [hpc, Pc.holds])
  have hfree : i ∉ fl := fun hmem => by
    rw [hl.mem_freelist, hi] at hmem
    cases hmem
  have hqueue : ∀ tid, i ∉ qs tid := fun tid hmem => by
    rw [hl.mem_queue, hi] at hmem
    cases hmem
  refine ⟨⟨?_, chain_push hl.freelist hfree, ?_, fun tid => ?_, hl.tail, ?_⟩, ?_, ?_, ht.fifo, ?_⟩
  · exact update_iff hl.unborn (by simp [hi]) (by simp)
  · exact mem_update_cons hl.mem_freelist
  · refine chain_congr (hl.queue tid) fun j hj => Function.update_of_ne ?_ ..
    rintro rfl
    exact hqueue tid hj
  · exact fun tid => mem_update (hl.mem_queue tid) (by simp [hi]) (by simp)
  · refine manned_goto hm rfl (fun j => ?_) (fun u j hu => ?_) (fun u j hu hj => ?_) (by simp) (by simp)
    · exact iff_of_false (by simp [Pc.holds]) (released hm (by simp [hpc, Pc.holds]) (by simp) j)
    · exact hands_update (by simpa [hi] using Ne.symm hu) (by simp)
    · refine Function.update_of_ne ?_ ..
      rintro rfl
      rw [hi] at hj
      simp only [Home.kept.injEq, Place.hands.injEq] at hj
      exact hu hj.symm
  · exact due_goto hd rfl fun tid => by simp [hpc, cqiFree, goto, acting, notifying]
  · rw [lost_update (by simp [hi]) (by simp), ht.lost]

/-- A block of new items comes into the hands of the thread that allocates it. -/
lemma alloc_inv [Fintype τ] {call : HandOver} (h : s.Inv tr home fl qs)
    (hpc : s.threads t = .malloc call) :
    (s.allocBlock.goto t (.link call s.allocated)).Inv tr
      (fun j => if s.allocated ≤ j ∧ j < s.allocated + itemsPerAlloc then .kept (.hands t) else home j)
      fl qs := by
  obtain ⟨hl, hm, hd, ht⟩ := h
  have hempty := not_hands hm (t := t) (fun i => by simp [hpc, Pc.holds])
  have hborn : ∀ j, s.allocated ≤ j ∧ j < s.allocated + itemsPerAlloc → home j = .unborn :=
    fun j hj => (hl.unborn j).2 hj.1
  -- at the other items, the pointers stay as they are
  have hnext : ∀ j, home j ≠ .unborn → s.allocBlock.next j = s.next j := by
    intro j hj
    refine if_neg fun hrange => hj (hborn j ?_)
    simp only [itemsPerAlloc] at hrange ⊢
    omega
  refine ⟨⟨fun j => ?_, ?_, fun j => ?_, fun tid => ?_, hl.tail, fun tid j => ?_⟩, ?_, ?_,
    ht.fifo, ?_⟩
  · have hunborn := hl.unborn j
    have halloc : (s.allocBlock.goto t (.link call s.allocated)).allocated =
        s.allocated + itemsPerAlloc := rfl
    rw [halloc]
    split
    · next hj => exact iff_of_false (by simp) (by omega)
    · next hj =>
      rw [hunborn]
      simp only [itemsPerAlloc] at hj ⊢
      omega
  · refine chain_congr hl.freelist fun j hj => hnext j ?_
    simp [(hl.mem_freelist j).1 hj]
  · rw [hl.mem_freelist]
    split
    · next hj => simp [hborn j hj]
    · rfl
  · refine chain_congr (hl.queue tid) fun j hj => hnext j ?_
    simp [(hl.mem_queue tid j).1 hj]
  · rw [hl.mem_queue]
    split
    · next hj => simp [hborn j hj]
    · rfl
  · refine manned_goto hm rfl (fun j => ?_) (fun u j hu => ?_) (fun u j hu hj => hnext j (by simp [hj]))
      (fun call' base heq j hlo hhi => ?_) (by simp)
    · show s.allocated ≤ j ∧ j < s.allocated + itemsPerAlloc ↔ _
      split
      · next hj => simpa using hj
      · next hj => exact iff_of_false hj (hempty j)
    · split
      · next hj => simp [hborn j hj, Ne.symm hu]
      · rfl
    · cases heq
      exact if_pos ⟨hlo, hhi⟩
  · exact due_goto hd rfl fun tid => by simp [hpc, goto, allocBlock, acting, notifying]
  · rw [← ht.lost]
    refine exists_congr fun j => ?_
    split
    · next hj => simp [hborn j hj]
    · rfl

/-- The items of the block, except the first one, are put on the free list. -/
lemma link_inv [Fintype τ] {call : HandOver} {base : ℕ} (h : s.Inv tr home fl qs)
    (hpc : s.threads t = .link call base) :
    ((s.linkBlock base).goto t (.prepare call base)).Inv tr
      (fun j => if base + 1 ≤ j ∧ j < base + itemsPerAlloc then .kept .freelist else home j)
      ((List.range (itemsPerAlloc - 1)).map (fun k => base + 1 + k) ++ fl) qs := by
  obtain ⟨hl, hm, hd, ht⟩ := h
  have hhome : ∀ j, home j = .kept (.hands t) ↔ base ≤ j ∧ j < base + itemsPerAlloc := fun j => by
    rw [← hm.holds, hpc]
    rfl
  have hblock : ∀ j, base + 1 ≤ j ∧ j < base + itemsPerAlloc → home j = .kept (.hands t) :=
    fun j hj => (hhome j).2 ⟨by omega, hj.2⟩
  have hlast : home (base + itemsPerAlloc - 1) = .kept (.hands t) :=
    (hhome _).2 (by simp only [itemsPerAlloc]; omega)
  have hnext : ∀ j, home j ≠ .kept (.hands t) → (s.linkBlock base).next j = s.next j := by
    intro j hj
    refine Function.update_of_ne ?_ ..
    rintro rfl
    exact hj hlast
  refine ⟨⟨fun j => ?_, ?_, fun j => ?_, fun tid => ?_, hl.tail, fun tid j => ?_⟩, ?_, ?_,
    ht.fifo, ?_⟩
  · have hunborn := hl.unborn j
    split
    · next hj =>
      rw [hblock j hj] at hunborn
      exact iff_of_false (by simp) fun hle => by simpa using hunborn.2 hle
    · exact hunborn
  · have hfl : Chain (s.linkBlock base).next s.freelist fl :=
      chain_congr hl.freelist fun j hj => hnext j (by simp [(hl.mem_freelist j).1 hj])
    refine chain_block (fun k => base + 1 + k) (itemsPerAlloc - 1) hfl (fun k hk => ?_) (fun _ => ?_)
    · have hrow := hm.row t call base hpc (base + 1 + k) (by omega) (by omega)
      refine (Function.update_of_ne ?_ ..).trans hrow
      omega
    · exact Function.update_self ..
  · rw [List.mem_append, hl.mem_freelist, List.mem_map]
    split
    · next hj =>
      refine iff_of_true (.inl ⟨j - (base + 1), List.mem_range.2 ?_, ?_⟩) rfl
      · omega
      · omega
    · next hj =>
      refine or_iff_right ?_
      rintro ⟨k, hk, rfl⟩
      rw [List.mem_range] at hk
      omega
  · exact chain_congr (hl.queue tid) fun j hj => hnext j (by simp [(hl.mem_queue tid j).1 hj])
  · rw [hl.mem_queue]
    split
    · next hj => simp [hblock j hj]
    · rfl
  · refine manned_goto hm rfl (fun j => ?_) (fun u j hu => ?_)
      (fun u j hu hj => hnext j (by simp [hj, hu])) (by simp) (by simp)
    · show j = base ↔ _
      split
      · next hj => exact iff_of_false (by omega) (by simp)
      · next hj =>
        rw [hhome]
        simp only [itemsPerAlloc] at hj ⊢
        omega
    · split
      · next hj => simp [hblock j hj, Ne.symm hu]
      · rfl
  · exact due_goto hd rfl fun tid => by simp [hpc, goto, linkBlock, acting, notifying]
  · rw [← ht.lost]
    refine exists_congr fun j => ?_
    split
    · next hj => simp [hblock j hj]
    · rfl

/-! ## `dispatch_conn_new` and `redispatch_conn` -/

/-- **The early return.**  The item is lost. -/
lemma lose_inv [Fintype τ] {call : HandOver} (h : s.Inv tr home fl qs)
    (hpc : s.threads t = .prepare call i) (x : CqItem) (sfd : ℤ) :
    ((s.setItem i x).goto t .idle).Inv (tr ++ [.close sfd, .getpeernameFailed sfd])
      (Function.update home i .lost) fl qs := by
  have hi : home i = .kept (.hands t) := (h.manned.holds t i).1 (by simp [hpc, Pc.holds])
  have hset := setItem_inv h (t := t) (i := i) (by simp [hpc, Pc.holds]) x
  obtain ⟨hl, hm, hd, ht⟩ := hset
  refine ⟨⟨?_, hl.freelist, ?_, hl.queue, hl.tail, ?_⟩, ?_, ?_, fun tid => ?_, ?_⟩
  · exact update_iff hl.unborn (by simp [hi]) (by simp)
  · exact mem_update hl.mem_freelist (by simp [hi]) (by simp)
  · exact fun tid => mem_update (hl.mem_queue tid) (by simp [hi]) (by simp)
  · refine manned_goto hm rfl (fun j => ?_) (fun u j hu => ?_) (fun _ _ _ _ => rfl) (by simp) (by simp)
    · exact iff_of_false (by simp [Pc.holds])
        (released hm (fun j => by simp [setItem, hpc, Pc.holds]) (by simp) j)
    · exact hands_update (by simpa [hi] using Ne.symm hu) (by simp)
  · exact due_goto hd rfl fun tid => by simp [hpc, goto, setItem, acting, notifying]
  · rw [pushedOn_append, poppedOn_append, ht.fifo]
    simp [pushedOn, poppedOn, goto]
  · exact iff_of_true ⟨i, Function.update_self ..⟩ ⟨sfd, by simp⟩

/-- What `dispatch_conn_new` and `redispatch_conn` store before `cq_push`. -/
lemma store_inv [Fintype τ] {call : HandOver} (h : s.Inv tr home fl qs)
    (hpc : s.threads t = .store call i tid) (x : CqItem) (last : ℤ) :
    (goto { s.setItem i x with lastThread := last, next := Function.update s.next i none } t
      (.push i tid)).Inv tr home fl qs := by
  have hi : home i = .kept (.hands t) := (h.manned.holds t i).1 (by simp [hpc, Pc.holds])
  obtain ⟨hl, hm, hd, ht⟩ := setItem_inv h (t := t) (i := i) (by simp [hpc, Pc.holds]) x
  refine ⟨linked_congr hl rfl rfl rfl fun j hj => ?_, ?_, ?_, ht.fifo, ht.lost⟩
  · refine Function.update_of_ne ?_ ..
    rintro rfl
    simp [hi] at hj
  · refine manned_goto hm rfl (fun j => ?_) (fun _ _ _ => Iff.rfl) (fun u j hu hj => ?_) (by simp) ?_
    · rw [← hm.holds]
      simp [setItem, hpc, Pc.holds]
    · refine Function.update_of_ne ?_ ..
      rintro rfl
      rw [hi] at hj
      simp only [Home.kept.injEq, Place.hands.injEq] at hj
      exact hu hj.symm
    · intro j tid' heq
      cases heq
      exact Function.update_self ..
  · exact due_goto hd rfl fun tid => by simp [hpc, goto, setItem, acting, notifying]

/-- An item is pushed. -/
lemma push_inv [Fintype τ] (h : s.Inv tr home fl qs) (hpc : s.threads t = .push i tid) :
    ((s.cqPush tid i).goto t (.notify tid)).Inv (tr ++ [.pushed tid i (s.item i)])
      (Function.update home i (.kept (.queue tid))) fl (Function.update qs tid (qs tid ++ [i])) := by
  obtain ⟨hl, hm, hd, ht⟩ := h
  have hi : home i = .kept (.hands t) := (hm.holds t i).1 (by simp [hpc, Pc.holds])
  have hlinked : (s.cqPush tid i).Linked (Function.update home i (.kept (.queue tid))) fl
      (Function.update qs tid (qs tid ++ [i])) := push_linked hl hi (hm.null t i tid hpc)
  have hgoto : ((s.cqPush tid i).goto t (.notify tid)).threads =
      Function.update s.threads t (.notify tid) := by
    rw [goto, cqPush_threads]
  refine ⟨linked_congr hlinked rfl rfl rfl fun _ _ => rfl, ?_, ?_, fun tid' => ?_, ?_⟩
  · refine manned_goto hm hgoto (fun j => ?_) (fun u j hu => ?_) (fun u j hu hj => ?_)
      (by simp) (by simp)
    · exact iff_of_false (by simp [Pc.holds]) (released hm (by simp [hpc, Pc.holds]) (by simp) j)
    · exact hands_update (by simpa [hi] using Ne.symm hu) (by simp)
    · exact cqPush_next hl (by simp [hj])
  · refine due_goto hd hgoto fun tid' => ?_
    by_cases htid : tid' = tid
    · subst htid
      simp [hpc, goto, acting, notifying]
      omega
    · simp [hpc, goto, acting, notifying, htid, Ne.symm htid]
  · have hitem : ((s.cqPush tid i).goto t (.notify tid)).item = s.item := cqPush_item
    rw [pushedOn_append, poppedOn_append, ht.fifo, hitem]
    by_cases htid : tid' = tid
    · subst htid
      simp [pushedOn, poppedOn]
    · simp [pushedOn, poppedOn, htid, Ne.symm htid]
  · rw [lost_update (by simp [hi]) (by simp), ht.lost]
    simp

/-! ## `thread_libevent_process` -/

/-- A thread that acts on a `'c'` finds an item. -/
lemma acting_finds [Fintype τ] (h : s.Inv tr home fl qs) (hpc : s.threads t = .pop tid) :
    (s.newConnQueue tid).head ≠ none := by
  intro hhead
  have hchain := h.linked.queue tid
  rw [hhead] at hchain
  have hdue := h.due tid
  have hpos : 0 < threadsAt s.threads (acting tid) := threadsAt_pos (t := t) (by simp [hpc, acting])
  rw [chain_none hchain] at hdue
  simp at hdue
  omega

/-- An item is popped. -/
lemma pop_inv [Fintype τ] (h : s.Inv tr home fl qs) (hpc : s.threads t = .pop tid)
    (hhead : (s.newConnQueue tid).head = some i) :
    ∃ qs', ((s.cqPop tid).goto t (.serve i)).Inv (tr ++ [.popped tid i (s.item i)])
      (Function.update home i (.kept (.hands t))) fl qs' := by
  obtain ⟨hl, hm, hd, ht⟩ := h
  obtain ⟨q, hq, hlinked⟩ := pop_linked (t := t) hl hhead
  have hi : home i = .kept (.queue tid) := (hl.mem_queue tid i).1 (by simp [hq])
  have hempty := not_hands hm (t := t) (fun i => by simp [hpc, Pc.holds])
  have hpop : s.cqPop tid =
      { s with
        newConnQueue := Function.update s.newConnQueue tid
          ⟨s.next i, if s.next i = none then none else (s.newConnQueue tid).tail⟩ } := by
    rw [cqPop, hhead]
  rw [hpop] at hlinked ⊢
  refine ⟨Function.update qs tid q, linked_congr hlinked rfl rfl rfl fun _ _ => rfl, ?_, ?_,
    fun tid' => ?_, ?_⟩
  · refine manned_goto hm rfl (fun j => ?_) (fun u j hu => ?_) (fun _ _ _ _ => rfl) (by simp) (by simp)
    · exact taken hempty j
    · exact hands_update (by simp [hi]) (by simpa using Ne.symm hu)
  · refine due_goto hd rfl fun tid' => ?_
    by_cases htid : tid' = tid
    · subst htid
      simp [hpc, goto, acting, notifying, hq]
      omega
    · simp [hpc, goto, acting, notifying, htid, Ne.symm htid]
  · rw [pushedOn_append, poppedOn_append, ht.fifo]
    by_cases htid : tid' = tid
    · subst htid
      simp [pushedOn, poppedOn, hq, goto]
    · simp [pushedOn, poppedOn, htid, Ne.symm htid, goto]
  · rw [lost_update (by simp [hi]) (by simp), ht.lost]
    simp

/-- A thread reads or writes a byte of a pipe, with nothing in its hands. -/
lemma pipe_inv [Fintype τ] (h : s.Inv tr home fl qs) (hpc : ∀ i, ¬ (s.threads t).holds i)
    (hidle : ∀ i, ¬ pc.holds i) {pipe : ℕ → List NotifyByte}
    (hbal : ∀ tid, (pipe tid).count .c + (if acting tid pc then 1 else 0) +
        (if notifying tid pc then 1 else 0) =
      (s.pipe tid).count .c + (if acting tid (s.threads t) then 1 else 0) +
        (if notifying tid (s.threads t) then 1 else 0)) :
    (goto { s with pipe := pipe } t pc).Inv tr home fl qs where
  linked := linked_congr h.linked rfl rfl rfl fun _ _ => rfl
  manned := by
    refine manned_goto h.manned rfl (fun i => iff_of_false (hidle i) (not_hands h.manned hpc i))
      (fun _ _ _ => Iff.rfl) (fun _ _ _ _ => rfl) ?_ ?_
    · rintro call base rfl
      exact absurd ⟨le_refl _, by simp [itemsPerAlloc]⟩ (hidle base)
    · rintro i tid rfl
      exact absurd rfl (hidle i)
  due := due_goto h.due rfl fun tid => congrArg (· + (qs tid).length) (hbal tid)
  told := ⟨h.told.fifo, h.told.lost⟩

/-! ## Steps and runs -/

variable {cfg : Settings} {l : PoolLabel τ}

/-- The early part of `dispatch_conn_new` keeps the item, or loses it. -/
lemma prepareItem_inv [Fintype τ] {call : HandOver} (cfg : Settings) (peer : Option (List Char))
    (h : s.Inv tr home fl qs) (hpc : s.threads t = .prepare call i) :
    ∃ home', (s.prepareItem cfg t call i peer).1.Inv (tr ++ (s.prepareItem cfg t call i peer).2)
      home' fl qs := by
  have hkeep : ∀ x, ((s.setItem i x).goto t (.choose call i)).Inv (tr ++ []) home fl qs := fun x => by
    have hset := setItem_inv h (t := t) (i := i) (by simp [hpc, Pc.holds]) x
    exact goto_inv hset hpc (by constructor <;> simp [Pc.holds, acting, notifying]) (by simp)
  simp only [prepareItem]
  split
  · exact ⟨home, goto_inv h hpc (by constructor <;> simp [Pc.holds, acting, notifying]) (by simp)⟩
  · split
    · exact ⟨home, hkeep _⟩
    · split
      · exact ⟨_, lose_inv h hpc _ _⟩
      · split
        · exact ⟨home, hkeep _⟩
        · exact ⟨home, hkeep _⟩

/-- The branch `'c'` ends with the item in the hands of the thread, or with the process. -/
lemma serveItem_inv [Fintype τ] (ok : Bool) (h : s.Inv tr home fl qs)
    (hpc : s.threads t = .serve i) :
    (s.serveItem t i ok).1.Inv (tr ++ (s.serveItem t i ok).2) home fl qs := by
  have hgo : ∀ o, (∀ x ∈ o, ∃ sfd, x = PoolObs.close sfd) →
      (s.goto t (.free i)).Inv (tr ++ o) home fl qs := fun o ho =>
    goto_inv h hpc (by constructor <;> simp [Pc.holds, acting, notifying]) ho
  simp only [serveItem]
  split
  · split
    · rw [List.append_nil]
      exact ⟨linked_congr h.linked rfl rfl rfl fun _ _ => rfl,
        ⟨h.manned.holds, h.manned.row, h.manned.null⟩, h.due, ⟨h.told.fifo, h.told.lost⟩⟩
    · exact hgo _ (by simp)
  · exact hgo _ (by simp)

/-- **One step.** -/
lemma step_inv [Fintype τ] (h : s.Inv tr home fl qs) (hs : s.step cfg l = some (s', o)) :
    ∃ home' fl' qs', s'.Inv (tr ++ o) home' fl' qs' := by
  simp only [step] at hs
  split at hs
  · cases hs
  · cases l with
    | call t call =>
      simp only [Option.ite_none_right_eq_some] at hs
      obtain ⟨hpc, hs⟩ := hs
      cases hs
      refine ⟨home, fl, qs, goto_inv h hpc ?_ (by simp)⟩
      constructor <;> simp [Pc.holds, acting, notifying]
    | cqiNew t =>
      dsimp only at hs
      split at hs
      · next call hpc =>
        split at hs
        · cases hs
          refine ⟨home, fl, qs, goto_inv h hpc ?_ (by simp)⟩
          constructor <;> simp [Pc.holds, acting, notifying]
        · next i hf =>
          cases hs
          obtain ⟨fl', h'⟩ := take_inv h hpc hf
          exact ⟨_, fl', qs, by rwa [List.append_nil]⟩
      · cases hs
    | malloc t ok =>
      dsimp only at hs
      split at hs
      · next call hpc =>
        split at hs
        · cases hs
          exact ⟨_, fl, qs, by rw [List.append_nil]; exact alloc_inv h hpc⟩
        · cases hs
          refine ⟨home, fl, qs, goto_inv h hpc ?_ (by simp)⟩
          constructor <;> simp [Pc.holds, acting, notifying]
      · cases hs
    | link t =>
      dsimp only at hs
      split at hs
      · next call base hpc =>
        cases hs
        exact ⟨_, _, qs, by rw [List.append_nil]; exact link_inv h hpc⟩
      · cases hs
    | prepare t peer =>
      dsimp only at hs
      split at hs
      · next call i hpc =>
        obtain ⟨home', h'⟩ := prepareItem_inv cfg peer h hpc
        rw [Option.some.inj hs] at h'
        exact ⟨home', fl, qs, h'⟩
      · cases hs
    | choose t =>
      dsimp only at hs
      split at hs
      · next call i hpc =>
        cases hs
        refine ⟨home, fl, qs, goto_inv h hpc ?_ (by simp)⟩
        constructor <;> simp [Pc.holds, acting, notifying]
      · cases hs
    | store t =>
      dsimp only at hs
      split at hs
      · next call i tid hpc =>
        cases hs
        exact ⟨home, fl, qs, by rw [List.append_nil]; exact store_inv h hpc _ _⟩
      · cases hs
    | push t =>
      dsimp only at hs
      split at hs
      · next i tid hpc =>
        cases hs
        exact ⟨_, fl, _, push_inv h hpc⟩
      · cases hs
    | notify t =>
      dsimp only at hs
      split at hs
      · next tid hpc =>
        cases hs
        refine ⟨home, fl, qs, ?_⟩
        rw [List.append_nil]
        refine pipe_inv h (by simp [hpc, Pc.holds]) (by simp [Pc.holds]) fun tid' => ?_
        by_cases htid : tid' = tid
        · subst htid
          simp [hpc, acting, notifying]
        · simp [hpc, acting, notifying, htid, Ne.symm htid]
      · cases hs
    | pause tid =>
      cases hs
      refine ⟨home, fl, qs, ?_⟩
      rw [List.append_nil]
      refine pauseByte_inv h fun tid' => ?_
      by_cases htid : tid' = tid
      · subst htid
        simp
      · simp [htid]
    | read t tid =>
      dsimp only at hs
      split at hs
      · next hpc =>
        split at hs
        · cases hs
          exact ⟨home, fl, qs, by rwa [List.append_nil]⟩
        · next b rest hpipe =>
          have hcount : ∀ tid', (Function.update s.pipe tid rest tid').count .c +
              (if tid' = tid ∧ b = .c then 1 else 0) = (s.pipe tid').count .c := fun tid' => by
            by_cases htid : tid' = tid
            · subst htid
              cases b <;> simp [hpipe]
            · simp [htid]
          cases b with
          | c =>
            cases hs
            refine ⟨home, fl, qs, ?_⟩
            rw [List.append_nil]
            refine pipe_inv h (by simp [hpc, Pc.holds]) (by simp [Pc.holds]) fun tid' => ?_
            rw [← hcount tid']
            by_cases htid : tid' = tid
            · subst htid
              simp [hpc, acting, notifying]
            · simp [hpc, acting, notifying, htid, Ne.symm htid]
          | p =>
            cases hs
            refine ⟨home, fl, qs, ?_⟩
            rw [List.append_nil]
            exact pauseByte_inv h fun tid' => by simpa using hcount tid'
      · cases hs
    | pop t =>
      dsimp only at hs
      split at hs
      · next tid hpc =>
        split at hs
        · next hhead => exact absurd hhead (acting_finds h hpc)
        · next i hhead =>
          cases hs
          obtain ⟨qs', h'⟩ := pop_inv h hpc hhead
          exact ⟨_, fl, qs', h'⟩
      · cases hs
    | serve t ok =>
      dsimp only at hs
      split at hs
      · next i hpc =>
        have h' := serveItem_inv ok h hpc
        rw [Option.some.inj hs] at h'
        exact ⟨home, fl, qs, h'⟩
      · cases hs
    | free t =>
      dsimp only at hs
      split at hs
      · next i hpc =>
        cases hs
        exact ⟨_, _, qs, by rw [List.append_nil]; exact free_inv h hpc⟩
      · cases hs

variable {next : ℕ → Option ℕ} {item : ℕ → CqItem}

/-- The invariant holds at the end of every run. -/
lemma inv_of_run [Fintype τ] (hr : Run (step cfg) anyStep (init next item) tr s) :
    ∃ home fl qs, s.Inv tr home fl qs := by
  refine hr.inv_trace (fun tr s => ∃ home fl qs, Inv s tr home fl qs) ?_ ?_
  · refine ⟨fun _ => .unborn, [], fun _ => [], ?_, ?_, fun tid => ?_, fun tid => rfl, ?_⟩
    · exact ⟨fun i => by simp [init], rfl, by simp, fun _ => rfl, fun _ => rfl, by simp⟩
    · exact ⟨by simp [init, Pc.holds], by simp [init], by simp [init]⟩
    · have hact : threadsAt (init next item : Pool τ).threads (acting tid) = 0 :=
        threadsAt_eq_zero fun _ => rfl
      have hnot : threadsAt (init next item : Pool τ).threads (notifying tid) = 0 :=
        threadsAt_eq_zero fun _ => rfl
      rw [hact, hnot]
      rfl
    · simp
  · rintro tr s l s' o ⟨home, fl, qs, h⟩ - hs
    exact step_inv h hs

/-- An item whose `getpeername` failed is nowhere. -/
lemma not_conserved [Fintype τ] {sfd : ℤ} (hr : Run (step cfg) anyStep (init next item) tr s)
    (hmem : .getpeernameFailed sfd ∈ tr) : ¬ s.Conserved tr := by
  obtain ⟨home, fl, qs, h⟩ := inv_of_run hr
  obtain ⟨i, hlost⟩ := h.told.lost.2 ⟨sfd, hmem⟩
  intro hcons
  have hborn : i < s.allocated := by
    by_contra hge
    rw [(h.linked.unborn i).2 (by omega)] at hlost
    cases hlost
  obtain ⟨pl, hpl, -⟩ := hcons.place i hborn
  rw [has_iff h, hlost] at hpl
  cases hpl

/-- **Conservation of the items.**  Every item is in one place, every queue is first in, first out and
has an item for every `'c'`, if and only if `getpeername` has not failed in `dispatch_conn_new`. -/
theorem conserved_iff [Fintype τ] (hr : Run (step cfg) anyStep (init next item) tr s) :
    s.Conserved tr ↔ ∀ sfd, .getpeernameFailed sfd ∉ tr := by
  constructor
  · intro hcons sfd hmem
    exact not_conserved hr hmem hcons
  · intro hnone
    obtain ⟨home, fl, qs, h⟩ := inv_of_run hr
    refine ⟨fun i hi => ?_, fun tid => ⟨qs tid, h.linked.queue tid, h.told.fifo tid, ?_⟩⟩
    · cases hhome : home i with
      | unborn =>
        have hle := (h.linked.unborn i).1 hhome
        omega
      | lost =>
        obtain ⟨sfd, hmem⟩ := h.told.lost.1 ⟨i, hhome⟩
        exact absurd hmem (hnone sfd)
      | kept pl =>
        refine ⟨pl, (has_iff h i pl).2 hhome, fun pl' hpl' => ?_⟩
        have hhome' : home i = .kept pl' := (has_iff h i pl').1 hpl'
        rw [hhome] at hhome'
        exact (Home.kept.inj hhome').symm
    · have hdue := h.due tid
      omega

/-! ## Two runs -/

/-- Two workers, and a priority client. -/
def twoWorkers : Settings where
  numThreads := 2
  numThreads_pos := by decide
  priorityClient := 1
  priorityIp := ['1', '0', '.', '0', '.', '0', '.', '1']

/-- Memory as `malloc` may find it. -/
def junk : CqItem := ⟨-1, .closed, 0, 5, 0, .udp, .redispatch, 9, none⟩

/-- The main thread dispatches a connection of the given peer, and a worker serves it. -/
def dispatchRun (peer : Option (List Char)) : List (PoolLabel (Fin 2)) :=
  [.call 0 (.dispatch 7 .newCmd (evRead ||| evPersist) 2048 .tcp none), .cqiNew 0, .malloc 0 true,
    .link 0, .prepare 0 peer]

/-- Up to `cqi_free`. -/
def servedRun : List (PoolLabel (Fin 2)) :=
  dispatchRun (some twoWorkers.priorityIp) ++
    [.choose 0, .store 0, .push 0, .notify 0, .read 1 0, .pop 1, .serve 1 true, .free 1]

/-- **A lost item.**  `getpeername` fails, and the item is neither pushed nor freed. -/
theorem not_conserved_earlyReturn : ∃ (s : Pool (Fin 2)) (tr : List PoolObs),
    Run (step twoWorkers) anyStep (init (fun _ => none) fun _ => junk) tr s ∧
      s.allocated = itemsPerAlloc ∧ ¬ s.Conserved tr := by
  obtain ⟨s, tr, hr, hs⟩ := Run.exists_of_exec (step twoWorkers)
    (init (τ := Fin 2) (fun _ => none) fun _ => junk) (dispatchRun none)
    (fun r => (r.1.allocated, r.2)) (itemsPerAlloc, [.close 7, .getpeernameFailed 7])
    (by decide +kernel) guarded_anyStep
  simp only [Prod.mk.injEq] at hs
  obtain ⟨halloc, rfl⟩ := hs
  exact ⟨s, _, hr, halloc, not_conserved hr (show PoolObs.getpeernameFailed 7 ∈ _ by simp)⟩

/-- The run that serves a connection of the priority client loses nothing. -/
theorem conserved_servedRun : ∃ (s : Pool (Fin 2)) (tr : List PoolObs),
    Run (step twoWorkers) anyStep (init (fun _ => none) fun _ => junk) tr s ∧
      (poppedOn 0 tr).length = 1 ∧ s.Conserved tr := by
  obtain ⟨s, tr, hr, hs⟩ := Run.exists_of_exec (step twoWorkers)
    (init (τ := Fin 2) (fun _ => none) fun _ => junk) servedRun
    (fun r => ((poppedOn 0 r.2).length, r.2.any fun | .getpeernameFailed _ => true | _ => false))
    (1, false) (by decide +kernel) guarded_anyStep
  simp only [Prod.mk.injEq] at hs
  obtain ⟨hpop, hfail⟩ := hs
  refine ⟨s, tr, hr, hpop, (conserved_iff hr).2 fun sfd hmem => ?_⟩
  have hall := List.any_eq_false.1 hfail _ hmem
  simp at hall

end Pool

end Skq.Mem
