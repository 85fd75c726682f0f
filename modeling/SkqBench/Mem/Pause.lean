import Mathlib.Algebra.BigOperators.Group.Finset.Piecewise
import Mathlib.Algebra.BigOperators.Group.Finset.Sigma
import SkqBench.Mem.ConnQueue

/-!
# Pausing the workers

`pause_threads`, `register_thread_initialized` and the workers of memcached, which all loop on `g_evb`.
There are as many notify pipes as workers, and any worker may be given the event of any pipe: `kevent()`
returns a batch of up to `NEVENT` events, whose handlers the worker calls one after the other, and no
event is returned to another worker before the batch is finished.

One thread pauses the workers, the maintenance thread of the hash table; before that, the main thread
waits in `memcached_thread_init` for all workers to register.  A step is what one thread does up to the
next point where it can be interrupted.
-/

namespace Skq.Mem

open Lib

/-- `NEVENT`. -/
def nevent : ℕ := 128

/-- An event of `g_evb`: a notify pipe, or a connection. -/
inductive BaseEvent (n : ℕ)
  | pipe (i : Fin n)
  | conn (fd : ℕ)
  deriving DecidableEq, Repr

/-- Where a worker is; `todo` are the events whose handlers it has not called yet.
* `loop`: before `kevent()`.
* `calling`: between two handlers.
* `handler`: in the handler of a connection, or in the branch `'c'` of `thread_libevent_process`.
* `notified`: at the start of `thread_libevent_process`.
* `register`, `hang`, `passing`: in `register_thread_initialized`, before `init_count++`, before
  `worker_hang_lock` is taken, and with it. -/
inductive WorkerAt (n : ℕ)
  | loop
  | calling (todo : List (BaseEvent n))
  | handler (todo : List (BaseEvent n))
  | notified (i : Fin n) (todo : List (BaseEvent n))
  | register (todo : List (BaseEvent n))
  | hang (todo : List (BaseEvent n))
  | passing (todo : List (BaseEvent n))
  deriving DecidableEq, Repr

/-- A worker, with the events of its unfinished batch. -/
structure Worker (n : ℕ) where
  pc : WorkerAt n
  batch : List (BaseEvent n)
  deriving DecidableEq, Repr

/-- Where the thread that pauses the workers is.
* `boot`: the main thread is in `wait_for_thread_registration`.
* `idle`: outside of `pause_threads`.
* `locked`: it has taken `worker_hang_lock`.
* `writing i`: it holds `init_lock`, too, and is before the write to pipe `i`.
* `waiting`: in `wait_for_thread_registration`.
* `paused`: `pause_threads` has returned. -/
inductive PauserAt
  | boot
  | idle
  | locked
  | writing (i : ℕ)
  | waiting
  | paused
  deriving DecidableEq, Repr

/-- The workers, the notify pipes, the thread that pauses, and `init_count`. -/
structure Pausing (n : ℕ) where
  workers : Fin n → Worker n
  pipe : Fin n → List NotifyByte
  pauser : PauserAt
  initCount : ℕ

/-- Who does something next.
* `pauser`: the thread that pauses; at `paused`, it resumes the workers.
* `fetch t evs`: `kevent()` of a worker returns `evs`.
* `call`, `leave`: a worker calls its next handler, or leaves one.
* `read`: the `read()` of `thread_libevent_process`.
* `register`, `hang`, `pass`: the steps of `register_thread_initialized`.
* `finish`: a worker ends its batch.
* `dispatch i`: a `'c'` is written to pipe `i`. -/
inductive PauseLabel (n : ℕ)
  | pauser
  | fetch (t : Fin n) (evs : List (BaseEvent n))
  | call (t : Fin n)
  | leave (t : Fin n)
  | read (t : Fin n)
  | register (t : Fin n)
  | hang (t : Fin n)
  | pass (t : Fin n)
  | finish (t : Fin n)
  | dispatch (i : Fin n)

/-- The pipe it is about to read. -/
def WorkerAt.notifiedBy {n : ℕ} : WorkerAt n → Option (Fin n)
  | notified i _ => some i
  | _ => none

/-- In `register_thread_initialized`. -/
def WorkerAt.registering {n : ℕ} : WorkerAt n → Bool
  | register _ => true
  | hang _ => true
  | passing _ => true
  | _ => false

/-- It has been counted and has not got `worker_hang_lock`. -/
def WorkerAt.hanging {n : ℕ} : WorkerAt n → Bool
  | hang _ => true
  | _ => false

/-- It has got `worker_hang_lock`. -/
def WorkerAt.isPassing {n : ℕ} : WorkerAt n → Bool
  | passing _ => true
  | _ => false

namespace Pausing

variable {n : ℕ} (s : Pausing n)

/-- `worker_hang_lock` is held by `pause_threads`. -/
def pauserLocks : Bool :=
  match s.pauser with
  | .boot => false
  | .idle => false
  | _ => true

/-- `worker_hang_lock` is held by a worker. -/
def workerLocks : Prop := ∃ t, (s.workers t).pc.isPassing = true

instance : Decidable s.workerLocks :=
  inferInstanceAs (Decidable (∃ t, (s.workers t).pc.isPassing = true))

/-- `init_lock` is held by `pause_threads`. -/
def initLocked : Bool :=
  match s.pauser with
  | .writing _ => true
  | _ => false

/-- A worker goes on. -/
def goto (t : Fin n) (pc : WorkerAt n) : Pausing n :=
  { s with workers := Function.update s.workers t { s.workers t with pc := pc } }

/-- The event is in the batch of no worker, and a pipe has something to read. -/
def Deliverable (ev : BaseEvent n) : Prop :=
  (∀ t, ev ∉ (s.workers t).batch) ∧
    match ev with
    | .pipe i => s.pipe i ≠ []
    | .conn _ => True

instance (ev : BaseEvent n) : Decidable (s.Deliverable ev) :=
  match ev with
  | .pipe i => inferInstanceAs (Decidable ((∀ t, BaseEvent.pipe i ∉ (s.workers t).batch) ∧ s.pipe i ≠ []))
  | .conn fd => inferInstanceAs (Decidable ((∀ t, BaseEvent.conn fd ∉ (s.workers t).batch) ∧ True))

/-- `pause_threads` and `wait_for_thread_registration`, up to the next step. -/
def stepPauser : Option (Pausing n) :=
  match s.pauser with
  | .boot => if s.initCount < n then none else some { s with pauser := .idle }
  | .idle => if s.workerLocks then none else some { s with pauser := .locked }
  | .locked => some { s with pauser := .writing 0, initCount := 0 }
  | .writing i =>
    if h : i < n then
      some { s with
        pipe := Function.update s.pipe ⟨i, h⟩ (s.pipe ⟨i, h⟩ ++ [.p])
        pauser := .writing (i + 1) }
    else some { s with pauser := .waiting }
  | .waiting => if s.initCount < n then none else some { s with pauser := .paused }
  | .paused => some { s with pauser := .idle }

/-- One step. -/
def step : PauseLabel n → Option (Pausing n × List Empty)
  | .pauser => s.stepPauser.map fun s => (s, [])
  | .fetch t evs =>
    if (s.workers t).pc = .loop ∧ evs.length ≤ nevent ∧ evs.Nodup ∧ ∀ ev ∈ evs, s.Deliverable ev then
      some ({ s with workers := Function.update s.workers t ⟨.calling evs, evs⟩ }, [])
    else none
  | .call t =>
    match (s.workers t).pc with
    | .calling (.pipe i :: todo) => some (s.goto t (.notified i todo), [])
    | .calling (.conn _ :: todo) => some (s.goto t (.handler todo), [])
    | _ => none
  | .leave t =>
    match (s.workers t).pc with
    | .handler todo => some (s.goto t (.calling todo), [])
    | _ => none
  | .read t =>
    match (s.workers t).pc with
    | .notified i todo =>
      match s.pipe i with
      | [] => some (s.goto t (.calling todo), [])
      | b :: rest =>
        let s := { s with pipe := Function.update s.pipe i rest }
        match b with
        | .c => some (s.goto t (.handler todo), [])
        | .p => some (s.goto t (.register todo), [])
    | _ => none
  | .register t =>
    match (s.workers t).pc with
    | .register todo =>
      if s.initLocked then none
      else some (goto { s with initCount := s.initCount + 1 } t (.hang todo), [])
    | _ => none
  | .hang t =>
    match (s.workers t).pc with
    | .hang todo =>
      if s.pauserLocks ∨ s.workerLocks then none else some (s.goto t (.passing todo), [])
    | _ => none
  | .pass t =>
    match (s.workers t).pc with
    | .passing todo => some (s.goto t (.calling todo), [])
    | _ => none
  | .finish t =>
    if (s.workers t).pc = .calling [] then
      some ({ s with workers := Function.update s.workers t ⟨.loop, []⟩ }, [])
    else none
  | .dispatch i => some ({ s with pipe := Function.update s.pipe i (s.pipe i ++ [.c]) }, [])

/-- The workers are created, and register before their first `kevent()`. -/
def init (n : ℕ) : Pausing n where
  workers := fun _ => ⟨.register [], []⟩
  pipe := fun _ => []
  pauser := .boot
  initCount := 0

/-! ## What is asked of a pause -/

/-- `pause_threads` waits for a worker to register, and every `'p'` that could make one do so is in a
pipe whose event is in the unfinished batch of a worker that waits for `worker_hang_lock`. -/
def Stuck : Prop :=
  s.pauser = .waiting ∧ s.initCount < n ∧ (∃ i, .p ∈ s.pipe i) ∧
    ∀ i, .p ∈ s.pipe i → ∃ t, .pipe i ∈ (s.workers t).batch ∧ (s.workers t).pc.hanging = true

/-- When `pause_threads` has returned, all workers wait for `worker_hang_lock`; and it is not stuck
before. -/
structure PauseOK : Prop where
  paused : s.pauser = .paused → ∀ t, (s.workers t).pc.hanging = true
  notStuck : ¬ s.Stuck

/-- A worker that reads a `'p'` has no other pipe in its batch, and `pause_threads` takes
`worker_hang_lock` when no worker is in `register_thread_initialized` any more. -/
def OnePipe : PauseLabel n → Prop
  | .read t => ∀ i, (s.workers t).pc.notifiedBy = some i → (s.pipe i).head? = some .p →
      ∀ j, .pipe j ∈ (s.workers t).batch → j = i
  | .pauser => s.pauser = .idle → ∀ t, (s.workers t).pc.registering = false
  | _ => True

instance (l : PauseLabel n) : Decidable (s.OnePipe l) :=
  match l with
  | .read t => inferInstanceAs (Decidable (∀ i, (s.workers t).pc.notifiedBy = some i →
      (s.pipe i).head? = some .p → ∀ j, .pipe j ∈ (s.workers t).batch → j = i))
  | .pauser =>
    inferInstanceAs (Decidable (s.pauser = .idle → ∀ t, (s.workers t).pc.registering = false))
  | .fetch .. => isTrue trivial
  | .call _ => isTrue trivial
  | .leave _ => isTrue trivial
  | .register _ => isTrue trivial
  | .hang _ => isTrue trivial
  | .pass _ => isTrue trivial
  | .finish _ => isTrue trivial
  | .dispatch _ => isTrue trivial

instance : Decidable s.Stuck :=
  inferInstanceAs (Decidable (s.pauser = .waiting ∧ s.initCount < n ∧ (∃ i, .p ∈ s.pipe i) ∧
    ∀ i, .p ∈ s.pipe i → ∃ t, .pipe i ∈ (s.workers t).batch ∧ (s.workers t).pc.hanging = true))

/-! ## Counting the workers -/

/-- A worker that has read a `'p'` of the pipe and has not left `register_thread_initialized`. -/
def readsOf (i : Fin n) (w : Worker n) : Bool := w.pc.registering && decide (.pipe i ∈ w.batch)

/-- A worker that waits for `worker_hang_lock`. -/
def hangs (w : Worker n) : Bool := w.pc.hanging

/-- A round of `pause_threads` in which `k` pipes have been written to: every `'p'` is unread or its
reader is in `register_thread_initialized`, with no other pipe in its batch, and all that are counted
wait for `worker_hang_lock`. -/
structure Round (k : ℕ) : Prop where
  balance : ∀ i : Fin n, (s.pipe i).count .p + threadsAt s.workers (readsOf i) = if i < k then 1 else 0
  onePipe : ∀ t, (s.workers t).pc.registering = true →
    ∃ j, ∀ i, .pipe i ∈ (s.workers t).batch ↔ i = j
  passing : ∀ t, (s.workers t).pc.isPassing = false

/-- No `'p'` is unread. -/
def Drained : Prop := ∀ i, (s.pipe i).count .p = 0

/-- The invariant, for each place of the thread that pauses. -/
def PhaseOK : Prop :=
  match s.pauser with
  | .boot => s.Drained
  | .idle => s.Drained
  | .locked => s.Drained ∧ ∀ t, (s.workers t).pc.registering = false
  | .writing k => k ≤ n ∧ s.Round k
  | .waiting => s.Round n
  | .paused => s.Round n

/-- Those counted since `init_count` was reset wait for `worker_hang_lock`. -/
def CountOK : Prop :=
  match s.pauser with
  | .writing _ => s.initCount ≤ threadsAt s.workers hangs
  | .waiting => s.initCount ≤ threadsAt s.workers hangs
  | .paused => n ≤ s.initCount ∧ s.initCount ≤ threadsAt s.workers hangs
  | _ => True

/-- The pipe whose handler a worker has entered is in its batch, and so is what it has to do. -/
def WorkerOK (w : Worker n) : Prop :=
  match w.pc with
  | .loop => w.batch = []
  | .calling todo => ∀ ev ∈ todo, ev ∈ w.batch
  | .handler todo => ∀ ev ∈ todo, ev ∈ w.batch
  | .notified i todo => .pipe i ∈ w.batch ∧ ∀ ev ∈ todo, ev ∈ w.batch
  | .register todo => ∀ ev ∈ todo, ev ∈ w.batch
  | .hang todo => ∀ ev ∈ todo, ev ∈ w.batch
  | .passing todo => ∀ ev ∈ todo, ev ∈ w.batch

variable {s s' : Pausing n} {t : Fin n} {w : Worker n} {pc : WorkerAt n} {l : PauseLabel n}
  {o : List Empty} {k : ℕ}

/-- A worker that hangs is in `register_thread_initialized`. -/
lemma registering_of_hanging (h : pc.hanging = true) : pc.registering = true := by
  cases pc <;> first | rfl | cases h

/-- So is one that has got the lock. -/
lemma registering_of_passing (h : pc.isPassing = true) : pc.registering = true := by
  cases pc <;> first | rfl | cases h

/-- If as many workers hang as there are, all do. -/
lemma all_hang (h : n ≤ threadsAt s.workers hangs) (t : Fin n) : (s.workers t).pc.hanging = true := by
  exact forall_of_card_le (f := s.workers) (p := hangs) (by rwa [Fintype.card_fin]) t

/-- What is unread when all workers hang: nothing. -/
lemma Round.drained (h : s.Round n) (hall : ∀ t, (s.workers t).pc.hanging = true) : s.Drained := by
  -- each worker has read from one pipe
  have hreaders : ∑ i : Fin n, threadsAt s.workers (readsOf i) = n := by
    rw [show (∑ i : Fin n, threadsAt s.workers (readsOf i)) =
      ∑ t : Fin n, ∑ i : Fin n, if readsOf i (s.workers t) then 1 else 0 from Finset.sum_comm]
    have hone : ∀ t, (∑ i : Fin n, if readsOf i (s.workers t) then 1 else 0) = 1 := by
      intro t
      have hreg := registering_of_hanging (hall t)
      obtain ⟨j, hj⟩ := h.onePipe t hreg
      have hcond : ∀ i, readsOf i (s.workers t) = decide (i = j) := fun i => by
        simp [readsOf, hreg, hj i]
      simp [hcond]
    simp [hone]
  have hsum : ∑ i : Fin n, ((s.pipe i).count .p + threadsAt s.workers (readsOf i)) = n := by
    have hterm : ∀ i : Fin n, (s.pipe i).count .p + threadsAt s.workers (readsOf i) = 1 := fun i => by
      rw [h.balance i, if_pos i.isLt]
    simp [hterm]
  rw [Finset.sum_add_distrib, hreaders] at hsum
  have hzero : ∑ i : Fin n, (s.pipe i).count .p = 0 := by omega
  intro i
  exact Finset.sum_eq_zero_iff.1 hzero i (Finset.mem_univ i)

/-! ## One step -/

/-- A step of a worker that does not give it `worker_hang_lock`. -/
lemma count_move (h : s.CountOK) (hw : s'.workers = Function.update s.workers t w)
    (hpauser : s'.pauser = s.pauser) (hcount : s'.initCount = s.initCount)
    (hhang : (s.workers t).pc.hanging = true → w.pc.hanging = true) : s'.CountOK := by
  have hle : threadsAt s.workers hangs ≤ threadsAt s'.workers hangs := by
    have hupd := threadsAt_update s.workers hangs t w
    have hone : (if hangs (s.workers t) then 1 else 0) ≤ if hangs w then 1 else 0 := by
      by_cases hold : hangs (s.workers t) = true
      · rw [if_pos hold, if_pos (show hangs w = true from hhang hold)]
      · rw [if_neg hold]
        exact Nat.zero_le _
    rw [hw]
    omega
  simp only [CountOK, hpauser, hcount] at h ⊢
  split at h
  · exact h.trans hle
  · exact h.trans hle
  · exact ⟨h.1, h.2.trans hle⟩
  · trivial

/-- Nothing is counted while no thread pauses. -/
lemma count_unlocked (hfree : s.pauserLocks = false) : s.CountOK := by
  cases hp : s.pauser with
  | boot => simp only [CountOK, hp]
  | idle => simp only [CountOK, hp]
  | _ => simp [pauserLocks, hp] at hfree

/-- A worker is counted, and waits for `worker_hang_lock` then. -/
lemma count_register {todo : List (BaseEvent n)} (h : s.CountOK)
    (hpc : (s.workers t).pc = .register todo) (hfree : s.initLocked = false) :
    (goto { s with initCount := s.initCount + 1 } t (.hang todo)).CountOK := by
  have hhangs : threadsAt (goto { s with initCount := s.initCount + 1 } t (.hang todo)).workers hangs
      = threadsAt s.workers hangs + 1 := by
    have hupd := threadsAt_update s.workers hangs t ⟨.hang todo, (s.workers t).batch⟩
    simp only [hangs, hpc, WorkerAt.hanging, Bool.false_eq_true, if_false, if_true, add_zero] at hupd
    exact hupd
  simp only [CountOK] at h ⊢
  rw [hhangs]
  simp only [goto]
  cases hp : s.pauser with
  | writing k => simp [initLocked, hp] at hfree
  | waiting => simp only [hp] at h ⊢; omega
  | paused => simp only [hp] at h ⊢; omega
  | _ => trivial

/-- **All that are counted wait for `worker_hang_lock`**, whatever the steps are. -/
lemma count_step (h : s.CountOK) (hs : s.step l = some (s', o)) : s'.CountOK := by
  cases l with
  | pauser =>
    simp only [step, stepPauser, Option.map_eq_some_iff, Prod.mk.injEq] at hs
    obtain ⟨s₁, hs, rfl, -⟩ := hs
    split at hs
    case h_1 => split at hs <;> cases hs; trivial
    case h_2 => split at hs <;> cases hs; trivial
    case h_3 => cases hs; exact Nat.zero_le _
    case h_4 hp =>
      simp only [CountOK, hp] at h
      split at hs <;> cases hs <;> exact h
    case h_5 hp =>
      simp only [CountOK, hp] at h
      split at hs
      · cases hs
      · rename_i hn
        cases hs
        exact ⟨Nat.not_lt.1 hn, h⟩
    case h_6 => cases hs; trivial
  | fetch t evs =>
    simp only [step] at hs
    split at hs
    · rename_i hf
      cases hs
      exact count_move h rfl rfl rfl fun hhang => by rw [hf.1] at hhang; cases hhang
    · cases hs
  | register t =>
    simp only [step] at hs
    split at hs
    · rename_i todo hpc
      split at hs
      · cases hs
      · rename_i hfree
        cases hs
        exact count_register h hpc (by simpa using hfree)
    · cases hs
  | hang t =>
    simp only [step] at hs
    split at hs
    · split at hs
      · cases hs
      · rename_i hfree
        cases hs
        exact count_unlocked (by simpa [goto, pauserLocks] using fun hl => hfree (.inl hl))
    · cases hs
  | finish t =>
    simp only [step] at hs
    split at hs
    · rename_i hpc
      cases hs
      exact count_move h rfl rfl rfl fun hhang => by rw [hpc] at hhang; cases hhang
    · cases hs
  | dispatch i =>
    cases hs
    exact h
  | read t =>
    simp only [step] at hs
    split at hs
    · rename_i i todo hpc
      have hno : ∀ {pc : WorkerAt n}, (s.workers t).pc.hanging = true → pc.hanging = true :=
        fun hhang => by rw [hpc] at hhang; cases hhang
      split at hs
      case h_1 => cases hs; exact count_move h rfl rfl rfl hno
      case h_2 b rest hp => cases b <;> cases hs <;> exact count_move h rfl rfl rfl hno
    · cases hs
  | call t =>
    simp only [step] at hs
    split at hs
    case h_3 => cases hs
    all_goals
      rename_i hpc
      cases hs
      exact count_move h rfl rfl rfl fun hhang => by rw [hpc] at hhang; cases hhang
  | _ t =>
    simp only [step] at hs
    split at hs
    · rename_i hpc
      cases hs
      exact count_move h rfl rfl rfl fun hhang => by rw [hpc] at hhang; cases hhang
    · cases hs

/-- The invariant. -/
structure Inv (s : Pausing n) : Prop where
  worker : ∀ t, WorkerOK (s.workers t)
  phase : s.PhaseOK
  count : s.CountOK

/-- A worker outside of `register_thread_initialized` stays outside. -/
lemma round_move (h : s.Round k) (hw : s'.workers = Function.update s.workers t w)
    (hpipe : ∀ i, (s'.pipe i).count .p = (s.pipe i).count .p)
    (hout : (s.workers t).pc.registering = false) (hin : w.pc.registering = false) : s'.Round k := by
  have hmove : ∀ i, threadsAt s'.workers (readsOf i) = threadsAt s.workers (readsOf i) := fun i => by
    have hupd := threadsAt_update s.workers (readsOf i) t w
    simp only [readsOf, hout, hin, Bool.false_and, Bool.false_eq_true, if_false, add_zero] at hupd
    rw [hw]
    exact hupd
  refine ⟨fun i => ?_, fun u hu => ?_, fun u => ?_⟩
  · rw [hpipe, hmove, h.balance]
  · by_cases hut : u = t
    · subst hut
      rw [hw, Function.update_self, hin] at hu
      cases hu
    · rw [hw, Function.update_of_ne hut] at hu ⊢
      exact h.onePipe u hu
  · by_cases hut : u = t
    · subst hut
      rw [hw, Function.update_self]
      by_contra hpass
      rw [registering_of_passing (by simpa using hpass)] at hin
      cases hin
    · rw [hw, Function.update_of_ne hut]
      exact h.passing u

/-- A step of a worker outside of `register_thread_initialized`. -/
lemma inv_move (h : s.Inv) (hw : s'.workers = Function.update s.workers t w)
    (hpipe : ∀ i, (s'.pipe i).count .p = (s.pipe i).count .p) (hpauser : s'.pauser = s.pauser)
    (hcount : s'.CountOK) (hout : (s.workers t).pc.registering = false)
    (hin : w.pc.registering = false) (hok : WorkerOK w) : s'.Inv := by
  have hdrained : s.Drained → s'.Drained := fun hd i => by rw [hpipe, hd i]
  have hquiet : (∀ u, (s.workers u).pc.registering = false) →
      ∀ u, (s'.workers u).pc.registering = false := fun hq u => by
    by_cases hut : u = t
    · subst hut
      rwa [hw, Function.update_self]
    · rw [hw, Function.update_of_ne hut]
      exact hq u
  refine ⟨fun u => ?_, ?_, hcount⟩
  · by_cases hut : u = t
    · subst hut
      rwa [hw, Function.update_self]
    · rw [hw, Function.update_of_ne hut]
      exact h.worker u
  · have hphase := h.phase
    simp only [PhaseOK, hpauser] at hphase ⊢
    split at hphase
    · exact hdrained hphase
    · exact hdrained hphase
    · exact ⟨hdrained hphase.1, hquiet hphase.2⟩
    · exact ⟨hphase.1, round_move hphase.2 hw hpipe hout hin⟩
    · exact round_move hphase hw hpipe hout hin
    · exact round_move hphase hw hpipe hout hin

/-- The workers stay where they are, and the pipes get no `'p'`. -/
lemma inv_pipes {pipe : Fin n → List NotifyByte} (h : s.Inv)
    (hcount : ∀ i, (pipe i).count .p = (s.pipe i).count .p) : ({ s with pipe := pipe } : Pausing n).Inv := by
  have hdrained : s.Drained → ({ s with pipe := pipe } : Pausing n).Drained := fun hd i =>
    (hcount i).trans (hd i)
  have hround : ∀ k, s.Round k → ({ s with pipe := pipe } : Pausing n).Round k := fun k hr =>
    ⟨fun i => by rw [hcount, hr.balance], hr.onePipe, hr.passing⟩
  refine ⟨h.worker, ?_, h.count⟩
  have hphase := h.phase
  simp only [PhaseOK] at hphase ⊢
  split at hphase
  · exact hdrained hphase
  · exact hdrained hphase
  · exact ⟨hdrained hphase.1, hphase.2⟩
  · exact ⟨hphase.1, hround _ hphase.2⟩
  · exact hround _ hphase
  · exact hround _ hphase

/-- A worker reads a `'p'`. -/
lemma inv_read {i : Fin n} {todo : List (BaseEvent n)} {rest : List NotifyByte} (h : s.Inv)
    (hcount : (goto { s with pipe := Function.update s.pipe i rest } t (.register todo)).CountOK)
    (hpc : (s.workers t).pc = .notified i todo) (hp : s.pipe i = .p :: rest)
    (hone : ∀ j, .pipe j ∈ (s.workers t).batch → j = i) :
    (goto { s with pipe := Function.update s.pipe i rest } t (.register todo)).Inv := by
  have hwork := h.worker t
  simp only [WorkerOK, hpc] at hwork
  have hout : (s.workers t).pc.registering = false := by rw [hpc]; rfl
  have hunread : 0 < (s.pipe i).count .p := by simp [hp]
  -- a `'p'` is unread in a round only
  have hround : ∀ k, s.Round k →
      (goto { s with pipe := Function.update s.pipe i rest } t (.register todo)).Round k := by
    intro k hr
    refine ⟨fun j => ?_, fun u hu => ?_, fun u => ?_⟩
    · have hbal := hr.balance j
      have hupd := threadsAt_update s.workers (readsOf j) t ⟨.register todo, (s.workers t).batch⟩
      have hnot : readsOf j (s.workers t) = false := by simp [readsOf, hout]
      simp only [goto]
      by_cases hji : j = i
      · subst hji
        have hreads : readsOf j ⟨.register todo, (s.workers t).batch⟩ = true := by
          simp [readsOf, WorkerAt.registering, hwork.1]
        rw [hnot, hreads] at hupd
        simp only [Bool.false_eq_true, if_false, if_true, add_zero] at hupd
        rw [hp, List.count_cons_self] at hbal
        rw [Function.update_self]
        omega
      · have hreads : readsOf j ⟨.register todo, (s.workers t).batch⟩ = false := by
          have hmem : .pipe j ∉ (s.workers t).batch := fun hmem => hji (hone j hmem)
          simp [readsOf, hmem]
        rw [hnot, hreads] at hupd
        simp only [Bool.false_eq_true, if_false, add_zero] at hupd
        rw [Function.update_of_ne hji]
        omega
    · by_cases hut : u = t
      · subst hut
        simp only [goto, Function.update_self]
        refine ⟨i, fun j => ⟨hone j, ?_⟩⟩
        rintro rfl
        exact hwork.1
      · simp only [goto, Function.update_of_ne hut] at hu ⊢
        exact hr.onePipe u hu
    · by_cases hut : u = t
      · subst hut
        simp [goto, WorkerAt.isPassing]
      · simp only [goto, Function.update_of_ne hut]
        exact hr.passing u
  refine ⟨fun u => ?_, ?_, hcount⟩
  · by_cases hut : u = t
    · subst hut
      simp only [goto, Function.update_self]
      exact hwork.2
    · simp only [goto, Function.update_of_ne hut]
      exact h.worker u
  · have hphase := h.phase
    simp only [PhaseOK, goto] at hphase hround ⊢
    split at hphase
    · exact absurd (hphase i) hunread.ne'
    · exact absurd (hphase i) hunread.ne'
    · exact absurd (hphase.1 i) hunread.ne'
    · exact ⟨hphase.1, hround _ hphase.2⟩
    · exact hround _ hphase
    · exact hround _ hphase

/-- A worker is counted. -/
lemma inv_register {todo : List (BaseEvent n)} (h : s.Inv)
    (hcount : (goto { s with initCount := s.initCount + 1 } t (.hang todo)).CountOK)
    (hpc : (s.workers t).pc = .register todo) :
    (goto { s with initCount := s.initCount + 1 } t (.hang todo)).Inv := by
  have hwork := h.worker t
  simp only [WorkerOK, hpc] at hwork
  have hreg : (s.workers t).pc.registering = true := by rw [hpc]; rfl
  have hround : ∀ k, s.Round k →
      (goto { s with initCount := s.initCount + 1 } t (.hang todo)).Round k := by
    intro k hr
    refine ⟨fun i => ?_, fun u hu => ?_, fun u => ?_⟩
    · have hsame : readsOf i ⟨.hang todo, (s.workers t).batch⟩ = readsOf i (s.workers t) := by
        simp only [readsOf, hreg]
        rfl
      have hupd := threadsAt_update s.workers (readsOf i) t ⟨.hang todo, (s.workers t).batch⟩
      rw [hsame, add_left_inj] at hupd
      exact hupd.symm ▸ hr.balance i
    · by_cases hut : u = t
      · subst hut
        simp only [goto, Function.update_self]
        exact hr.onePipe u hreg
      · simp only [goto, Function.update_of_ne hut] at hu ⊢
        exact hr.onePipe u hu
    · by_cases hut : u = t
      · subst hut
        simp [goto, WorkerAt.isPassing]
      · simp only [goto, Function.update_of_ne hut]
        exact hr.passing u
  refine ⟨fun u => ?_, ?_, hcount⟩
  · by_cases hut : u = t
    · subst hut
      simp only [goto, Function.update_self]
      exact hwork
    · simp only [goto, Function.update_of_ne hut]
      exact h.worker u
  · have hphase := h.phase
    simp only [PhaseOK, goto] at hphase hround ⊢
    split at hphase
    · exact hphase
    · exact hphase
    · rw [hphase.2 t] at hreg
      cases hreg
    · exact ⟨hphase.1, hround _ hphase.2⟩
    · exact hround _ hphase
    · exact hround _ hphase

/-- While no thread pauses, no `'p'` is unread. -/
lemma drained_of_unlocked (h : s.Inv) (hfree : s.pauserLocks = false) : s.Drained := by
  have hphase := h.phase
  cases hp : s.pauser with
  | boot => simpa only [PhaseOK, hp] using hphase
  | idle => simpa only [PhaseOK, hp] using hphase
  | _ => simp [pauserLocks, hp] at hfree

/-- What has to be shown while no thread pauses. -/
lemma inv_unlocked (hwork : ∀ t, WorkerOK (s.workers t)) (hfree : s.pauserLocks = false)
    (hdrained : s.Drained) : s.Inv := by
  cases hp : s.pauser with
  | boot => exact ⟨hwork, by simpa only [PhaseOK, hp], count_unlocked hfree⟩
  | idle => exact ⟨hwork, by simpa only [PhaseOK, hp], count_unlocked hfree⟩
  | _ => simp [pauserLocks, hp] at hfree

/-- A worker has `worker_hang_lock` only while no thread pauses. -/
lemma unlocked_of_passing (h : s.Inv) (hpass : (s.workers t).pc.isPassing = true) :
    s.pauserLocks = false := by
  have hround : ∀ k, ¬ s.Round k := fun k hr => by rw [hr.passing t] at hpass; cases hpass
  have hphase := h.phase
  cases hp : s.pauser with
  | boot => simp only [pauserLocks, hp]
  | idle => simp only [pauserLocks, hp]
  | locked =>
    simp only [PhaseOK, hp] at hphase
    have hreg := registering_of_passing hpass
    rw [hphase.2 t] at hreg
    cases hreg
  | writing k => simp only [PhaseOK, hp] at hphase; exact absurd hphase.2 (hround k)
  | waiting => simp only [PhaseOK, hp] at hphase; exact absurd hphase (hround n)
  | paused => simp only [PhaseOK, hp] at hphase; exact absurd hphase (hround n)

/-- A step of a worker while no thread pauses. -/
lemma inv_goto (h : s.Inv) (hfree : s.pauserLocks = false) (hok : WorkerOK ⟨pc, (s.workers t).batch⟩) :
    (s.goto t pc).Inv := by
  have hpipes := drained_of_unlocked h hfree
  have hdrained : (s.goto t pc).Drained := hpipes
  refine inv_unlocked (fun u => ?_) hfree hdrained
  by_cases hut : u = t
  · subst hut
    simpa only [goto, Function.update_self] using hok
  · simpa only [goto, Function.update_of_ne hut] using h.worker u

/-- The thread that pauses. -/
lemma inv_pauser (h : s.Inv) (hok : s.OnePipe .pauser) (hs : s.stepPauser = some s')
    (hcount : s'.CountOK) : s'.Inv := by
  have hphase := h.phase
  simp only [stepPauser] at hs
  split at hs
  case h_1 hp =>
    split at hs
    · cases hs
    · cases hs
      simp only [PhaseOK, hp] at hphase
      exact inv_unlocked h.worker rfl hphase
  case h_2 hp =>
    split at hs
    · cases hs
    · cases hs
      simp only [PhaseOK, hp] at hphase
      exact ⟨h.worker, ⟨hphase, hok hp⟩, hcount⟩
  case h_3 hp =>
    cases hs
    simp only [PhaseOK, hp] at hphase
    obtain ⟨hdrained, hquiet⟩ := hphase
    -- nothing has been written, and nobody is there who would have read it
    have hround : s.Round 0 := by
      refine ⟨fun i => ?_, fun t ht => ?_, fun t => ?_⟩
      · rw [hdrained i, threadsAt_eq_zero fun t => by simp [readsOf, hquiet t]]
        rfl
      · rw [hquiet t] at ht
        cases ht
      · by_contra hpass
        rw [Bool.not_eq_false] at hpass
        have hreg := registering_of_passing hpass
        rw [hquiet t] at hreg
        cases hreg
    exact ⟨h.worker, ⟨Nat.zero_le n, hround.balance, hround.onePipe, hround.passing⟩, hcount⟩
  case h_4 k hp =>
    simp only [PhaseOK, hp] at hphase
    obtain ⟨hkn, hround⟩ := hphase
    split at hs
    · rename_i hk
      cases hs
      refine ⟨h.worker, ⟨hk, fun i => ?_, hround.onePipe, hround.passing⟩, hcount⟩
      have hbal := hround.balance i
      by_cases hi : i = ⟨k, hk⟩
      · subst hi
        rw [if_neg (lt_irrefl k)] at hbal
        simp only [Function.update_self, List.count_append, List.count_singleton_self]
        rw [if_pos (Nat.lt_succ_self k)]
        omega
      · have hne : i.val ≠ k := fun he => hi (Fin.ext he)
        have hiff : (i.val < k + 1) = (i.val < k) := by
          rw [eq_iff_iff]
          omega
        simp only [Function.update_of_ne hi, hiff]
        exact hbal
    · cases hs
      have hkn : k = n := by omega
      subst hkn
      exact ⟨h.worker, ⟨hround.balance, hround.onePipe, hround.passing⟩, hcount⟩
  case h_5 hp =>
    simp only [PhaseOK, hp] at hphase
    split at hs
    · cases hs
    · cases hs
      exact ⟨h.worker, ⟨hphase.balance, hphase.onePipe, hphase.passing⟩, hcount⟩
  case h_6 hp =>
    have hc := h.count
    simp only [CountOK, hp] at hc
    simp only [PhaseOK, hp] at hphase
    cases hs
    exact inv_unlocked h.worker rfl (hphase.drained (all_hang (hc.1.trans hc.2)))

/-- **The invariant is kept.** -/
lemma inv_step (h : s.Inv) (hok : s.OnePipe l) (hs : s.step l = some (s', o)) : s'.Inv := by
  have hcount := count_step h.count hs
  cases l with
  | pauser =>
    simp only [step, Option.map_eq_some_iff, Prod.mk.injEq] at hs
    obtain ⟨s₁, hs, rfl, -⟩ := hs
    exact inv_pauser h hok hs hcount
  | fetch t evs =>
    simp only [step] at hs
    split at hs
    · rename_i hf
      cases hs
      exact inv_move h rfl (fun _ => rfl) rfl hcount (by rw [hf.1]; rfl) rfl fun _ hev => hev
    · cases hs
  | call t =>
    have hwork := h.worker t
    simp only [step] at hs
    split at hs
    case h_1 i todo hpc =>
      cases hs
      simp only [WorkerOK, hpc] at hwork
      exact inv_move h rfl (fun _ => rfl) rfl hcount (by rw [hpc]; rfl) rfl
        ⟨hwork _ (by simp), fun ev hev => hwork ev (by simp [hev])⟩
    case h_2 fd todo hpc =>
      cases hs
      simp only [WorkerOK, hpc] at hwork
      exact inv_move h rfl (fun _ => rfl) rfl hcount (by rw [hpc]; rfl) rfl
        fun ev hev => hwork ev (by simp [hev])
    case h_3 => cases hs
  | leave t =>
    have hwork := h.worker t
    simp only [step] at hs
    split at hs
    · rename_i todo hpc
      cases hs
      simp only [WorkerOK, hpc] at hwork
      exact inv_move h rfl (fun _ => rfl) rfl hcount (by rw [hpc]; rfl) rfl hwork
    · cases hs
  | read t =>
    have hwork := h.worker t
    simp only [step] at hs
    split at hs
    · rename_i i todo hpc
      simp only [WorkerOK, hpc] at hwork
      split at hs
      case h_1 =>
        cases hs
        exact inv_move h rfl (fun _ => rfl) rfl hcount (by rw [hpc]; rfl) rfl hwork.2
      case h_2 b rest hp =>
        cases b with
        | c =>
          cases hs
          refine inv_move h rfl (fun j => ?_) rfl hcount (by rw [hpc]; rfl) rfl hwork.2
          by_cases hj : j = i
          · subst hj
            simp [goto, hp]
          · simp [goto, Function.update_of_ne hj]
        | p =>
          cases hs
          exact inv_read h hcount hpc hp (hok i (by rw [hpc]; rfl) (by rw [hp]; rfl))
    · cases hs
  | register t =>
    simp only [step] at hs
    split at hs
    · rename_i todo hpc
      split at hs
      · cases hs
      · cases hs
        exact inv_register h hcount hpc
    · cases hs
  | hang t =>
    have hwork := h.worker t
    simp only [step] at hs
    split at hs
    · rename_i todo hpc
      split at hs
      · cases hs
      · rename_i hfree
        cases hs
        simp only [WorkerOK, hpc] at hwork
        exact inv_goto h (by simpa using fun hl => hfree (.inl hl)) hwork
    · cases hs
  | pass t =>
    have hwork := h.worker t
    simp only [step] at hs
    split at hs
    · rename_i todo hpc
      cases hs
      simp only [WorkerOK, hpc] at hwork
      exact inv_goto h (unlocked_of_passing (t := t) h (by rw [hpc]; rfl)) hwork
    · cases hs
  | finish t =>
    simp only [step] at hs
    split at hs
    · rename_i hpc
      cases hs
      exact inv_move h rfl (fun _ => rfl) rfl hcount (by rw [hpc]; rfl) rfl rfl
    · cases hs
  | dispatch i =>
    cases hs
    have hpipes : ∀ j, (Function.update s.pipe i (s.pipe i ++ [.c]) j).count .p = (s.pipe j).count .p := by
      intro j
      by_cases hj : j = i
      · subst hj
        simp
      · rw [Function.update_of_ne hj]
    exact inv_pipes h hpipes

/-- All workers have to register first. -/
lemma inv_init : (init n).Inv :=
  ⟨fun _ _ hev => absurd hev List.not_mem_nil, fun _ => rfl, trivial⟩

/-- A `'p'` that is unread in a round can be read. -/
lemma not_stuck (h : s.Inv) : ¬ s.Stuck := by
  rintro ⟨hp, -, ⟨i, hunread⟩, hall⟩
  have hround : s.Round n := by simpa only [PhaseOK, hp] using h.phase
  obtain ⟨t, hbatch, hhang⟩ := hall i hunread
  -- the worker has read the only `'p'` of this pipe
  have hread : 0 < threadsAt s.workers (readsOf i) :=
    threadsAt_pos (t := t) (by simp [readsOf, registering_of_hanging hhang, hbatch])
  have hcount : 0 < (s.pipe i).count .p := List.count_pos_iff.2 hunread
  have hbal := hround.balance i
  rw [if_pos i.isLt] at hbal
  omega

/-- **When `pause_threads` has returned, all workers hang**, in every run. -/
theorem hanging_of_paused {tr : List Empty} (hr : Run step anyStep (init n) tr s)
    (hp : s.pauser = .paused) (t : Fin n) : (s.workers t).pc.hanging = true := by
  have hc : s.CountOK := hr.inv CountOK trivial fun _ _ _ _ h _ hs => count_step h hs
  simp only [CountOK, hp] at hc
  exact all_hang (hc.1.trans hc.2) t

/-- **Pausing the workers.**  In every run in which no worker reads a `'p'` with another pipe in its
batch, and in which the workers have left `register_thread_initialized` before they are paused again. -/
theorem pauseOK_of_run {tr : List Empty} (hr : Run step OnePipe (init n) tr s) : s.PauseOK := by
  have hinv : s.Inv := hr.inv Inv inv_init fun _ _ _ _ h hok hs => inv_step h hok hs
  refine ⟨fun hp t => ?_, not_stuck hinv⟩
  have hc := hinv.count
  simp only [CountOK, hp] at hc
  exact all_hang (hc.1.trans hc.2) t

/-- For the numerals of `Fin 2`. -/
local instance neZero_two : NeZero 2 := ⟨by decide⟩

/-- Both of two workers register, the main thread goes on, and they end their first loop; then
`pause_threads` writes to both pipes. -/
private def pausedTwo : List (PauseLabel 2) :=
  [.register 0, .register 1, .pauser, .hang 0, .pass 0, .hang 1, .pass 1, .finish 0, .finish 1,
    .pauser, .pauser, .pauser, .pauser, .pauser]

/-- Each worker is given one pipe, and both are paused. -/
theorem pauseOK_onePipeRun : ∃ (s : Pausing 2) (tr : List Empty),
    Run step OnePipe (init 2) tr s ∧ s.pauser = .paused ∧ s.PauseOK := by
  obtain ⟨s, tr, hr, hs⟩ : ∃ s tr, Run step OnePipe (init 2) tr s ∧ s.pauser = .paused :=
    Run.exists_of_exec step (init 2)
      (pausedTwo ++ [.fetch 0 [.pipe 0], .call 0, .read 0, .register 0, .fetch 1 [.pipe 1], .call 1,
        .read 1, .register 1, .pauser])
      (fun r => r.1.pauser) .paused (by decide +kernel) (by decide +kernel)
  exact ⟨s, tr, hr, hs, pauseOK_of_run hr⟩

/-- **Deadlock.**  A worker is given both pipes, and hangs in the handler of the first. -/
theorem not_pauseOK_twoPipes : ∃ (s : Pausing 2) (tr : List Empty),
    Run step anyStep (init 2) tr s ∧ s.Stuck ∧ ¬ s.PauseOK := by
  obtain ⟨s, tr, hr, hs⟩ := Run.exists_of_exec step (init 2)
    (pausedTwo ++ [.fetch 0 [.pipe 0, .pipe 1], .call 0, .read 0, .register 0])
    (fun r => decide r.1.Stuck) true (by decide +kernel) guarded_anyStep
  have hstuck := of_decide_eq_true hs
  exact ⟨s, tr, hr, hstuck, fun hok => hok.notStuck hstuck⟩

end Pausing

end Skq.Mem
