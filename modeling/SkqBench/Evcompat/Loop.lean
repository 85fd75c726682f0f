import SkqBench.Lib.Run
import SkqBench.Evcompat.Event

/-!
# The threads of `event_base_loop`

A state is the memory of the calls together with every thread: where it is in a pass of
`event_base_loop` (`Phase`), and which call it has in progress (`Call`).  A handler is whatever
sequence of calls its thread makes between `invoke` and `ret`; threads outside of the loop make
calls in the same way.  `step` is one section of code: fetching a batch, activating one event,
entering or leaving a handler, one iteration of the finishing pass (which keeps the lock of its
event), `EV_ENABLE`, one unlock, one section of a call.

Every use of a mutex or of a condition variable is observed together with the state the object was
in, and so is every return of a call and every invocation of a handler.

An assertion that fails ends the process: no step is enabled any more.  With `NDEBUG` it is
skipped.
-/

namespace Skq.Evcompat

/-- An entry of `active[]`: the returned kevent (`evlist[i]`, whose `udata` is `active[i]`) and
`epochs[i]`. -/
structure Active where
  kev : KEvent
  epoch : ℕ
  deriving DecidableEq, Repr

/-- Where a thread is in a pass.  In each of the loops `todo` is what is still to be done, in
order, and `done` what has been done.
* `activating`: between `kevent()` and the end of the activation loop.
* `calling`: the callback loop; with `running` the handler of the first of `todo` is running.
* `finishing`: the finishing pass, which holds the locks of `done`; `enlist` is to be re-enabled.
* `unlocking`: the last loop; the locks of `todo` are still held. -/
inductive Phase
  | idle
  | activating (base : BaseId) (todo : List KEvent) (done : List Active)
  | calling (base : BaseId) (running : Bool) (todo done : List Active)
  | finishing (base : BaseId) (todo done : List Active) (enlist : List KEvent)
  | unlocking (base : BaseId) (todo : List Active)
  deriving DecidableEq, Repr

/-- A call between two of its sections.
* `addLock`: `event_add` has built its change and is about to take the lock.
* `delWait`: `event_del` is in `ev_wait`, with the base and the change it has computed. -/
inductive Call
  | addLock (e : EvId) (kev : KEvent)
  | delWait (e : EvId) (base : BaseId) (kev : Option KEvent)
  deriving DecidableEq, Repr

/-- A thread. -/
structure Thread where
  phase : Phase
  call : Option Call
  deriving DecidableEq, Repr

/-- The state of the process. -/
structure State extends Proc where
  threads : Tid → Thread
  aborted : Option Assertion

/-- The calls that return a status. -/
inductive Api
  | baseSet (e : EvId)
  | add (e : EvId)
  | del (e : EvId)
  deriving DecidableEq, Repr

/-- The uses of the mutex and the condition variable of an event. -/
inductive SyncOp
  | lock
  | unlock
  | wait
  | signal
  deriving DecidableEq, Repr

/-- What is observed of a run.
* `sync`: a use of the lock or the condition variable of an event, which was in this state.
* `cleanup`: `event_cleanup`.
* `result`: a call of a thread returns.
* `invoke`: a thread calls `ev->fn(ev->fd, 0, ev->arg)`. -/
inductive Obs
  | sync (op : SyncOp) (e : EvId) (st : SyncState)
  | cleanup (e : EvId)
  | result (t : Tid) (api : Api) (rc : Rc)
  | invoke (t : Tid) (e : EvId) (fn : ℕ) (fd : ℤ) (arg : ℕ)
  deriving DecidableEq, Repr

/-- What can happen next.  The arguments after the thread are the arguments of the call, the
kernel's choices (`slots` of `fetch`, `ok` of `addLocked`) and the scheduler's (`w`, the waiter a
signal wakes).
* `addLocked`, `delWake`: the rest of an `event_add`, of an `event_del` after a wake-up.
* `spurious`: a wait ends without a signal.
* `advance`: a thread goes on to the next loop of its pass.
* `close`: a descriptor is closed. -/
inductive Label
  | fetch (t : Tid) (b : BaseId) (slots : List Slot)
  | activate (t : Tid)
  | invoke (t : Tid)
  | ret (t : Tid)
  | finish (t : Tid) (w : ℕ)
  | advance (t : Tid)
  | unlock (t : Tid)
  | set (t : Tid) (e : EvId) (fd : ℤ) (type : EvType) (fn arg : ℕ)
  | baseSet (t : Tid) (b : BaseId) (e : EvId)
  | add (t : Tid) (e : EvId) (timeout : Option TimeVal)
  | addLocked (t : Tid) (ok : Bool)
  | del (t : Tid) (e : EvId)
  | delWake (t : Tid)
  | spurious (t : Tid)
  | cleanup (t : Tid) (e : EvId)
  | close (fd : ℤ)
  deriving DecidableEq, Repr

/-- A thread may make a call outside of `event_base_loop` or inside a handler. -/
def Thread.mayCall (th : Thread) : Bool :=
  th.call.isNone &&
    match th.phase with
    | .idle => true
    | .calling _ true _ _ => true
    | _ => false

namespace State

/-- A thread goes on. -/
def setThread (s : State) (t : Tid) (th : Thread) : State :=
  { s with threads := Function.update s.threads t th }

/-- The memory changes. -/
def setProc (s : State) (p : Proc) : State := { s with toProc := p }

/-- A thread moves on in its pass. -/
def setPhase (s : State) (t : Tid) (ph : Phase) : State :=
  s.setThread t { s.threads t with phase := ph }

/-- A thread is between two sections of a call, or between calls. -/
def setCall (s : State) (t : Tid) (call : Option Call) : State :=
  s.setThread t { s.threads t with call := call }

/-- An assertion failed. -/
def abort (s : State) (a : Assertion) : State := { s with aborted := some a }

/-- Memory that was passed to `event_set`. -/
def isSet (s : State) (e : EvId) : Prop := (s.evs e).cvInit = cvInitMagic

instance (s : State) (e : EvId) : Decidable (s.isSet e) :=
  inferInstanceAs (Decidable (_ = _))

/-- The observation of a use of the lock or the condition variable of an event. -/
def use (s : State) (op : SyncOp) (e : EvId) : Obs := .sync op e (s.evs e).sync

variable (s : State) (t t' : Tid) (th : Thread) (p : Proc) (ph : Phase) (call : Option Call)
  (a : Assertion)

@[simp] lemma setThread_threads :
    (s.setThread t th).threads t' = if t' = t then th else s.threads t' := by
  simp [setThread, Function.update_apply]

@[simp] lemma setThread_toProc : (s.setThread t th).toProc = s.toProc := rfl
@[simp] lemma setThread_aborted : (s.setThread t th).aborted = s.aborted := rfl

@[simp] lemma setProc_toProc : (s.setProc p).toProc = p := rfl
@[simp] lemma setProc_threads : (s.setProc p).threads = s.threads := rfl
@[simp] lemma setProc_aborted : (s.setProc p).aborted = s.aborted := rfl

@[simp] lemma setPhase_threads :
    (s.setPhase t ph).threads t' =
      if t' = t then { s.threads t with phase := ph } else s.threads t' := by
  simp [setPhase]

@[simp] lemma setPhase_toProc : (s.setPhase t ph).toProc = s.toProc := rfl
@[simp] lemma setPhase_aborted : (s.setPhase t ph).aborted = s.aborted := rfl

@[simp] lemma setCall_threads :
    (s.setCall t call).threads t' =
      if t' = t then { s.threads t with call := call } else s.threads t' := by
  simp [setCall]

@[simp] lemma setCall_toProc : (s.setCall t call).toProc = s.toProc := rfl
@[simp] lemma setCall_aborted : (s.setCall t call).aborted = s.aborted := rfl

@[simp] lemma abort_toProc : (s.abort a).toProc = s.toProc := rfl
@[simp] lemma abort_threads : (s.abort a).threads = s.threads := rfl
@[simp] lemma abort_aborted : (s.abort a).aborted = some a := rfl

end State

/-! ## One pass of `event_base_loop` -/

/-- `kevent(base->eb_kqfd, NULL, 0, evlist, NEVENT, NULL)`.  No slots: interrupted by a signal. -/
def stepFetch (s : State) (t : Tid) (b : BaseId) (slots : List Slot) :
    Option (State × List Obs) :=
  match s.threads t with
  | ⟨.idle, none⟩ =>
    if slots.length ≤ nevent then
      ((s.kqs b).fetch slots).map fun r =>
        ((s.setProc (s.setKq b r.2)).setPhase t (.activating b r.1 []), [])
    else none
  | _ => none

/-- The assertions of the activation loop; `none` if they hold. -/
def activateAssert (b : BaseId) (k : KEvent) (ev : Event) : Option Assertion :=
  if ev.fd ≠ k.ident then some .activateFd
  else if ev.evBase ≠ some b then some .activateBase
  else if ev.active then some .activateActive
  else none

/-- One iteration of the activation loop. -/
def stepActivate (c : Cfg) (s : State) (t : Tid) : Option (State × List Obs) :=
  match (s.threads t).phase with
  | .activating b (k :: todo) done =>
    let e := k.udata
    let ev := s.evs e
    if ev.lk = none then
      match activateAssert b k ev, c.ndebug with
      | some a, false => some (s.abort a, [s.use .lock e])
      | _, _ =>
        some ((s.setProc (s.setEv e { ev with active := true, owner := some t })).setPhase t
            (.activating b todo (done ++ [⟨k, ev.epoch⟩])),
          [s.use .lock e, s.use .unlock e])
    else none
  | _ => none

/-- The handler of the next event is called. -/
def stepInvoke (s : State) (t : Tid) : Option (State × List Obs) :=
  match (s.threads t).phase with
  | .calling b false (a :: todo) done =>
    let ev := s.evs a.kev.udata
    some (s.setPhase t (.calling b true (a :: todo) done),
      [.invoke t a.kev.udata ev.fn ev.fd ev.arg])
  | _ => none

/-- The handler returns. -/
def stepRet (s : State) (t : Tid) : Option (State × List Obs) :=
  match s.threads t with
  | ⟨.calling b true (a :: todo) done, none⟩ =>
    some (s.setPhase t (.calling b false todo (done ++ [a])), [])
  | _ => none

/-- `ev->epoch == epochs[i]`, for a 32-bit epoch. -/
def Active.fresh (a : Active) (ev : Event) : Bool := ev.epoch % 2 ^ 32 == a.epoch % 2 ^ 32

/-- `ev->state &= ~EVS_ACTIVE; ev->owner = NULL`. -/
def Event.inactive (ev : Event) : Event := { ev with active := false, owner := none }

/-- The body of the finishing pass for an unchanged event, its lock held: the new memory, the new
`enlist`, and the assertion that failed, if any. -/
def finishFresh (c : Cfg) (p : Proc) (t : Tid) (a : Active) (enlist : List KEvent) :
    Proc × List KEvent × Option Assertion :=
  let e := a.kev.udata
  let p := p.setEv e (p.evs e).inactive
  if (p.evs e).type.has evPersist then
    (p, if c.multKq then enlist else enlist ++ [a.kev], none)
  else
    match (p.evs e).evBase with
    | none => (p, enlist, some .delBase)
    | some base =>
      match eventDelRetry p t e base (initKeventDelete c (p.evs e) e) .noblock with
      | .wait => (p, enlist, some .finishDel)
      | .done p' .ok => (p', enlist, none)
      | .done p' .err => (p', enlist, if c.ndebug then none else some .finishDel)

/-- One iteration of the finishing pass.  The lock is kept. -/
def stepFinish (c : Cfg) (s : State) (t : Tid) (w : ℕ) : Option (State × List Obs) :=
  match (s.threads t).phase with
  | .finishing b (a :: todo) done enlist =>
    let e := a.kev.udata
    let ev := s.evs e
    if ev.lk = none then
      let p := s.setEv e { ev with lk := some t }
      let r := if a.fresh ev then finishFresh c p t a enlist else (p, enlist, none)
      match r with
      | (_, _, some asrt) => some (s.abort asrt, [s.use .lock e])
      | (p', enlist', none) =>
        some ((s.setProc (p'.setEv e ((p'.evs e).signal w))).setPhase t
            (.finishing b todo (done ++ [a]) enlist'),
          [s.use .lock e, s.use .signal e])
    else none
  | _ => none

/-- From one loop of the pass to the next; between the finishing pass and the unlocking loop this
is the `EV_ENABLE` call. -/
def stepAdvance (c : Cfg) (s : State) (t : Tid) : Option (State × List Obs) :=
  match (s.threads t).phase with
  | .activating b [] done => some (s.setPhase t (.calling b false done []), [])
  | .calling b false [] done => some (s.setPhase t (.finishing b done [] []), [])
  | .finishing b [] done enlist =>
    let r := (s.kqs b).enableAll enlist
    if r.2 = false ∧ c.ndebug = false then some (s.abort .enable, [])
    else some ((s.setProc (s.setKq b r.1)).setPhase t (.unlocking b done), [])
  | .unlocking _ [] => some (s.setPhase t .idle, [])
  | _ => none

/-- One iteration of the unlocking loop. -/
def stepUnlock (s : State) (t : Tid) : Option (State × List Obs) :=
  match (s.threads t).phase with
  | .unlocking b (a :: todo) =>
    let e := a.kev.udata
    some ((s.setProc (s.setEv e { s.evs e with lk := none })).setPhase t (.unlocking b todo),
      [s.use .unlock e])
  | _ => none

/-! ## The calls -/

/-- `event_set`. -/
def stepSet (c : Cfg) (s : State) (t : Tid) (e : EvId) (fd : ℤ) (type : EvType) (fn arg : ℕ) :
    Option (State × List Obs) :=
  let ev := (s.evs e).firstSet
  if (s.threads t).mayCall ∧ ev.lk = none then
    match ev.setAssert fd type, c.ndebug with
    | some a, false => some (s.abort a, [.sync .lock e ev.sync])
    | _, _ =>
      some (s.setProc (s.setEv e (ev.assign fd type fn arg)),
        [.sync .lock e ev.sync, .sync .unlock e ev.sync])
  else none

/-- `event_base_set`, which takes no lock. -/
def stepBaseSet (s : State) (t : Tid) (b : BaseId) (e : EvId) : Option (State × List Obs) :=
  if (s.threads t).mayCall ∧ s.isSet e then
    let r := eventBaseSet s.toProc b e
    some (s.setProc r.1, [.result t (.baseSet e) r.2])
  else none

/-- `event_add` up to its lock. -/
def stepAdd (c : Cfg) (s : State) (t : Tid) (e : EvId) (timeout : Option TimeVal) :
    Option (State × List Obs) :=
  if (s.threads t).mayCall ∧ s.isSet e then
    match eventAdd c s.toProc e timeout with
    | .abort a => some (s.abort a, [])
    | .done p => some (s.setProc p, [.result t (.add e) .err])
    | .lock p kev => some ((s.setProc p).setCall t (some (.addLock e kev)), [])
  else none

/-- The locked section of `event_add`. -/
def stepAddLocked (s : State) (t : Tid) (ok : Bool) : Option (State × List Obs) :=
  match (s.threads t).call with
  | some (.addLock e kev) =>
    if (s.evs e).lk = none then
      match (s.evs e).evBase with
      | none => none
      | some base =>
        let r := eventAddLocked s.toProc e base kev ok
        some ((s.setProc r.1).setCall t none,
          [s.use .lock e, s.use .unlock e, .result t (.add e) r.2])
    else none
  | _ => none

/-- One round of `event_del` with the lock just taken. -/
def delRound (s : State) (t : Tid) (e : EvId) (base : BaseId) (kev : Option KEvent)
    (taken : SyncOp) : State × List Obs :=
  match eventDelRetry s.toProc t e base kev .block with
  | .wait =>
    ((s.setProc (s.setEv e ((s.evs e).wait t))).setCall t (some (.delWait e base kev)),
      [s.use taken e, s.use .wait e])
  | .done p rc =>
    ((s.setProc p).setCall t none, [s.use taken e, s.use .unlock e, .result t (.del e) rc])

/-- `event_del` up to its end or its first wait. -/
def stepDel (c : Cfg) (s : State) (t : Tid) (e : EvId) : Option (State × List Obs) :=
  if (s.threads t).mayCall ∧ s.isSet e ∧ (s.evs e).lk = none then
    match (s.evs e).evBase with
    | none => some (s.abort .delBase, [s.use .lock e])
    | some base => some (delRound s t e base (initKeventDelete c (s.evs e) e) .lock)
  else none

/-- A wait of `event_del` ends: the thread has the lock again and goes to `retry`. -/
def stepDelWake (s : State) (t : Tid) : Option (State × List Obs) :=
  match (s.threads t).call with
  | some (.delWait e base kev) =>
    if (s.evs e).lk = none ∧ t ∉ (s.evs e).stopCv then
      some (delRound s t e base kev .wait)
    else none
  | _ => none

/-- A wait ends without a signal. -/
def stepSpurious (s : State) (t : Tid) : Option (State × List Obs) :=
  match (s.threads t).call with
  | some (.delWait e _ _) =>
    let ev := s.evs e
    some (s.setProc (s.setEv e { ev with stopCv := ev.stopCv.erase t }), [])
  | _ => none

/-- `event_cleanup`. -/
def stepCleanup (s : State) (t : Tid) (e : EvId) : Option (State × List Obs) :=
  if (s.threads t).mayCall ∧ s.isSet e then
    some (s.setProc (s.setEv e { s.evs e with sync := .destroyed }), [.cleanup e])
  else none

/-- A descriptor is closed. -/
def stepClose (s : State) (fd : ℤ) : Option (State × List Obs) :=
  some ({ s with kqs := fun b => (s.kqs b).close fd }, [])

/-- **One step of the process.** -/
def step (c : Cfg) (s : State) (l : Label) : Option (State × List Obs) :=
  if s.aborted.isSome then none
  else
    match l with
    | .fetch t b slots => stepFetch s t b slots
    | .activate t => stepActivate c s t
    | .invoke t => stepInvoke s t
    | .ret t => stepRet s t
    | .finish t w => stepFinish c s t w
    | .advance t => stepAdvance c s t
    | .unlock t => stepUnlock s t
    | .set t e fd type fn arg => stepSet c s t e fd type fn arg
    | .baseSet t b e => stepBaseSet s t b e
    | .add t e timeout => stepAdd c s t e timeout
    | .addLocked t ok => stepAddLocked s t ok
    | .del t e => stepDel c s t e
    | .delWake t => stepDelWake s t
    | .spurious t => stepSpurious s t
    | .cleanup t e => stepCleanup s t e
    | .close fd => stepClose s fd

/-- The start: nothing is registered, no thread is in the loop or in a call, and no memory has
been passed to `event_set`.  The rest of that memory is arbitrary. -/
structure State.Init (s : State) : Prop where
  kqs : ∀ b x, s.kqs b x = none
  threads : ∀ t, s.threads t = ⟨.idle, none⟩
  unset : ∀ e, ¬ s.isSet e
  aborted : s.aborted = none
  timerBase : s.timerBase = -1

/-- `event_set`, `event_base_set` and a successful `event_add` by one thread. -/
def register (t : Tid) (b : BaseId) (e : EvId) (fd : ℤ) (type : EvType)
    (timeout : Option TimeVal) : List Label :=
  [.set t e fd type 0 0, .baseSet t b e, .add t e timeout, .addLocked t true]

/-- The start with zeroed memory. -/
def State.zero : State where
  evs _ := ⟨[], none, .raw, none, 0, none, 0, 0, 0, 0, false, false, 0⟩
  kqs _ _ := none
  timerBase := -1
  threads _ := ⟨.idle, none⟩
  aborted := none

lemma State.zero_init : State.zero.Init where
  kqs _ _ := rfl
  threads _ := rfl
  unset _ := by simp [State.isSet, State.zero, cvInitMagic]
  aborted := rfl
  timerBase := rfl

end Skq.Evcompat
