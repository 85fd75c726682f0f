import Mathlib.Data.BitVec
import SkqBench.Evcompat.Kqueue

/-!
# `struct event` and the event calls

The process memory a call works on is `Proc`: the events, the kqueues of the bases and the timer
counter.  A call is cut where the source takes or releases the event lock, so that every function
below is one section of code no other thread can come between: `event_add` is the unlocked prefix
`eventAdd` and the locked section `eventAddLocked`; `event_del_flags` is `eventDelRetry` from its
label `retry` on, run once when the call takes the lock and once more after every wait.

`state` is the two bits `EVS_ACTIVE` and `EVS_PENDING`, kept as two Booleans.  `epoch` is an
`int` that is only ever incremented and compared, so it is kept as the number of increments and
compared modulo `2 ^ 32`.
-/

namespace Skq.Evcompat

/-! ## Constants -/

/-- The flags of `ev->type`. -/
abbrev EvType := BitVec 16

def evRead : EvType := 0x1#16
def evWrite : EvType := 0x2#16
def evTimeout : EvType := 0x4#16
def evPersist : EvType := 0x8#16
def evRuntime : EvType := 0x10#16

/-- `(type & flag) == flag` for a flag of one bit. -/
def EvType.has (type flag : EvType) : Bool := type &&& flag == flag

/-- `CV_INIT_MAGIC`. -/
def cvInitMagic : BitVec 32 := 0xdeedb33f#32

/-- `NEVENT`, the most events one pass of the loop fetches. -/
def nevent : ℕ := 128

/-- `CS_OK` and `CS_ERR`. -/
inductive Rc
  | ok
  | err
  deriving DecidableEq, Repr

/-- `EVENT_DEL_BLOCK` and `EVENT_DEL_NOBLOCK`. -/
inductive DelFlag
  | block
  | noblock
  deriving DecidableEq, Repr

/-- The build: with SKQ (`MULT_KQ`), and with assertions compiled out (`NDEBUG`). -/
structure Cfg where
  multKq : Bool
  ndebug : Bool
  deriving DecidableEq, Repr

/-- The assertions of `event.c`. -/
inductive Assertion
  | activateFd
  | activateBase
  | activateActive
  | finishDel
  | enable
  | setType
  | setFd
  | delBase
  | addBase
  | timeout
  deriving DecidableEq, Repr

/-! ## The data -/

/-- Whether the mutex and the condition variable of an event are initialised. -/
inductive SyncState
  | raw
  | live
  | destroyed
  deriving DecidableEq, Repr

/-- `struct event`.  `lk` is the thread that holds the mutex, `stopCv` are the threads blocked on
the condition variable, `sync` is the life cycle both share. -/
structure Event where
  stopCv : List Tid
  lk : Option Tid
  sync : SyncState
  evBase : Option BaseId
  cvInit : BitVec 32
  owner : Option Tid
  fd : ℤ
  type : EvType
  fn : ℕ
  arg : ℕ
  active : Bool
  pending : Bool
  epoch : ℕ
  deriving DecidableEq, Repr

/-- `struct timeval`. -/
structure TimeVal where
  sec : ℤ
  usec : ℤ
  deriving DecidableEq, Repr

/-- The memory the calls work on. -/
structure Proc where
  evs : EvId → Event
  kqs : BaseId → Kqueue
  timerBase : BitVec 32

namespace Proc

/-- Store an event. -/
def setEv (p : Proc) (e : EvId) (ev : Event) : Proc :=
  { p with evs := Function.update p.evs e ev }

/-- Store a kqueue. -/
def setKq (p : Proc) (b : BaseId) (kq : Kqueue) : Proc :=
  { p with kqs := Function.update p.kqs b kq }

variable (p : Proc) (e e' : EvId) (ev : Event) (b b' : BaseId) (kq : Kqueue)

@[simp] lemma setEv_evs : (p.setEv e ev).evs e' = if e' = e then ev else p.evs e' := by
  simp [setEv, Function.update_apply]

@[simp] lemma setEv_kqs : (p.setEv e ev).kqs = p.kqs := rfl

@[simp] lemma setEv_timerBase : (p.setEv e ev).timerBase = p.timerBase := rfl

@[simp] lemma setKq_kqs : (p.setKq b kq).kqs b' = if b' = b then kq else p.kqs b' := by
  simp [setKq, Function.update_apply]

@[simp] lemma setKq_evs : (p.setKq b kq).evs = p.evs := rfl

@[simp] lemma setKq_timerBase : (p.setKq b kq).timerBase = p.timerBase := rfl

@[simp] lemma setEv_self : p.setEv e (p.evs e) = p := by
  simp [setEv]

@[simp] lemma setEv_setEv (ev' : Event) : (p.setEv e ev).setEv e ev' = p.setEv e ev' := by
  simp [setEv]

lemma setEv_setKq : (p.setEv e ev).setKq b kq = (p.setKq b kq).setEv e ev := rfl

end Proc

/-! ## `init_kevent` -/

/-- The filter `init_kevent` derives from the type; `none` is `EINVAL`. -/
def filterOf (type : EvType) : Option Filter :=
  if type.has evRead then some .read
  else if type.has evWrite then some .write
  else if type.has evTimeout then some .timer
  else none

/-- The slot under which an event would be registered now. -/
def Event.slot (ev : Event) : Option Slot := (filterOf ev.type).map fun f => (ev.fd, f)

/-- `timeout->tv_usec + timeout->tv_sec * 1000000`, and 0 without a timeout. -/
def timeoutData : Option TimeVal → ℤ
  | some t => t.usec + t.sec * 1000000
  | none => 0

/-- `init_kevent` for an existing filter `f`. -/
def mkKevent (c : Cfg) (ev : Event) (e : EvId) (f : Filter) (dispatch : Bool)
    (timeout : Option TimeVal) : KEvent where
  ident := ev.fd
  filter := f
  dispatch := dispatch
  -- EV_REALTIME is 0 without SKQ
  realtime := c.multKq && ev.type.has evRuntime
  data := if f = .timer then timeoutData timeout else 0
  udata := e

/-- `init_kevent(&kev, ev, EV_DELETE, NULL)`; `none` leaves `kev` as it was. -/
def initKeventDelete (c : Cfg) (ev : Event) (e : EvId) : Option KEvent :=
  (filterOf ev.type).map fun f => mkKevent c ev e f false none

lemma initKeventDelete_slot {c : Cfg} {ev : Event} {e : EvId} :
    (initKeventDelete c ev e).map KEvent.slot = ev.slot := by
  unfold initKeventDelete Event.slot
  cases filterOf ev.type <;> rfl

/-! ## `event_del_flags` -/

/-- The change both `event_add` and `event_del` make to an active event ("hack to make event
inactive after its changed"). -/
def Event.deactivate (ev : Event) : Event :=
  if ev.active then { ev with active := false, owner := none, epoch := ev.epoch + 1 } else ev

namespace Event

variable (ev : Event)

@[simp] lemma deactivate_active : ev.deactivate.active = false := by
  unfold deactivate; split <;> simp_all

@[simp] lemma deactivate_pending : ev.deactivate.pending = ev.pending := by
  unfold deactivate; split <;> rfl

@[simp] lemma deactivate_evBase : ev.deactivate.evBase = ev.evBase := by
  unfold deactivate; split <;> rfl

@[simp] lemma deactivate_fd : ev.deactivate.fd = ev.fd := by
  unfold deactivate; split <;> rfl

@[simp] lemma deactivate_type : ev.deactivate.type = ev.type := by
  unfold deactivate; split <;> rfl

@[simp] lemma deactivate_cvInit : ev.deactivate.cvInit = ev.cvInit := by
  unfold deactivate; split <;> rfl

@[simp] lemma deactivate_lk : ev.deactivate.lk = ev.lk := by
  unfold deactivate; split <;> rfl

@[simp] lemma deactivate_sync : ev.deactivate.sync = ev.sync := by
  unfold deactivate; split <;> rfl

@[simp] lemma deactivate_slot : ev.deactivate.slot = ev.slot := by
  simp [slot]

lemma deactivate_epoch :
    ev.deactivate.epoch = if ev.active then ev.epoch + 1 else ev.epoch := by
  unfold deactivate; split <;> rfl

end Event

/-- How a round of `event_del_flags` ends: the thread has to wait, or the call is over. -/
inductive DelResult
  | wait
  | done (p : Proc) (rc : Rc)

/-- `event_del_flags` from its label `retry` on, by thread `self`, with the base and the change
computed when the call began.  An uninitialised `kev` is taken to be refused by the kernel. -/
def eventDelRetry (p : Proc) (self : Tid) (e : EvId) (base : BaseId) (kev : Option KEvent)
    (flags : DelFlag) : DelResult :=
  let ev := p.evs e
  -- ignore non pending events or active requests
  if ev.pending = false then .done p .err
  else if ev.active = true ∧ ev.owner ≠ some self then
    match flags with
    | .noblock => .done p .err
    | .block => .wait
  else
    -- remove from kqueue
    match kev.bind fun k => (p.kqs base).delete k.slot with
    | none => .done p .err
    | some kq =>
      -- remove from base
      .done ((p.setKq base kq).setEv e { ev with pending := false }.deactivate) .ok

/-- The three ways a round of `event_del_flags` ends. -/
theorem eventDelRetry_cases (p : Proc) (self : Tid) (e : EvId) (base : BaseId)
    (kev : Option KEvent) (flags : DelFlag) :
    (eventDelRetry p self e base kev flags = .done p .err ∧
      ((p.evs e).pending = false ∨ flags = .noblock ∧ (p.evs e).active = true ∨
        (kev.bind fun k => p.kqs base k.slot) = none)) ∨
    (eventDelRetry p self e base kev flags = .wait ∧ flags = .block ∧
      (p.evs e).pending = true ∧ (p.evs e).active = true ∧ (p.evs e).owner ≠ some self) ∨
    ∃ k kn, kev = some k ∧ p.kqs base k.slot = some kn ∧ (p.evs e).pending = true ∧
      ((p.evs e).active = true → (p.evs e).owner = some self) ∧
      eventDelRetry p self e base kev flags =
        .done ((p.setKq base (Function.update (p.kqs base) k.slot none)).setEv e
          { p.evs e with pending := false }.deactivate) .ok := by
  unfold eventDelRetry
  dsimp only
  by_cases hp : (p.evs e).pending = false
  · exact .inl ⟨by rw [if_pos hp], .inl hp⟩
  rw [if_neg hp]
  rw [Bool.not_eq_false] at hp
  by_cases ha : (p.evs e).active = true ∧ (p.evs e).owner ≠ some self
  · rw [if_pos ha]
    cases flags with
    | noblock => exact .inl ⟨rfl, .inr (.inl ⟨rfl, ha.1⟩)⟩
    | block => exact .inr (.inl ⟨rfl, rfl, hp, ha⟩)
  rw [if_neg ha]
  cases kev with
  | none => exact .inl ⟨rfl, .inr (.inr rfl)⟩
  | some k =>
    cases hk : p.kqs base k.slot with
    | none =>
      refine .inl ⟨?_, .inr (.inr hk)⟩
      simp [Kqueue.delete_eq_none.2 hk]
    | some kn =>
      refine .inr (.inr ⟨k, kn, rfl, hk, hp, fun h => ?_, ?_⟩)
      · by_contra hne
        exact ha ⟨h, hne⟩
      · simp [Kqueue.delete_eq_some.2 ⟨⟨kn, hk⟩, rfl⟩]

/-! ## `event_add` -/

/-- `next_timer_fd`: the old value of the counter, which then goes down by one. -/
def Proc.nextTimerFd (p : Proc) : ℤ × Proc :=
  (p.timerBase.toInt, { p with timerBase := p.timerBase - 1 })

/-- How the unlocked part of `event_add` ends. -/
inductive AddResult
  | abort (a : Assertion)
  | done (p : Proc)
  | lock (p : Proc) (kev : KEvent)

/-- The timer descriptor is patched before anything that can fail. -/
def patchTimerFd (p : Proc) (e : EvId) : Proc :=
  if (p.evs e).type.has evTimeout then
    let (fd, p') := p.nextTimerFd
    p'.setEv e { p.evs e with fd := fd }
  else p

/-- `event_add` up to `ev_lock`; `done` is a return of `CS_ERR`. -/
def eventAdd (c : Cfg) (p : Proc) (e : EvId) (timeout : Option TimeVal) : AddResult :=
  match (p.evs e).evBase with
  | none => .abort .addBase
  | some _ =>
    if (p.evs e).pending then .done p
    else
      let p' := patchTimerFd p e
      match filterOf (p'.evs e).type with
      | none => .done p'
      | some f =>
        if f = .timer ∧ timeout = none ∧ c.ndebug = false then .abort .timeout
        else .lock p' (mkKevent c (p'.evs e) e f (!c.multKq) timeout)

/-- `event_add` between `ev_lock` and `ev_unlock`; `ok` is the kernel's answer to `EV_ADD`, and
`base` is `ev->ev_base` as read in the section. -/
def eventAddLocked (p : Proc) (e : EvId) (base : BaseId) (kev : KEvent) (ok : Bool) : Proc × Rc :=
  if ok then
    ((p.setKq base ((p.kqs base).add kev)).setEv e
      { p.evs e with pending := true }.deactivate, .ok)
  else (p, .err)

/-! ## `event_set`, `event_base_set`, `event_cleanup` -/

/-- The initialisation `event_set` makes the first time it sees the memory. -/
def Event.firstSet (ev : Event) : Event :=
  if ev.cvInit ≠ cvInitMagic then
    { ev with
      cvInit := cvInitMagic
      active := false
      pending := false
      epoch := 0
      evBase := none
      owner := none
      stopCv := []
      lk := none
      sync := .live }
  else ev

/-- The assertions of `event_set`; `none` if they hold. -/
def Event.setAssert (ev : Event) (fd : ℤ) (type : EvType) : Option Assertion :=
  if ev.active then
    -- cannot change type while the event is queued
    if ev.pending ∧ type ≠ ev.type then some .setType
    -- timeout fd doesn't matter
    else if ev.type.has evTimeout = false ∧ fd ≠ ev.fd then some .setFd
    else none
  else none

/-- The assignments of `event_set`. -/
def Event.assign (ev : Event) (fd : ℤ) (type : EvType) (fn arg : ℕ) : Event :=
  { ev with fd := fd, type := type, fn := fn, arg := arg }

/-- `event_base_set`. -/
def eventBaseSet (p : Proc) (b : BaseId) (e : EvId) : Proc × Rc :=
  -- the event can't be pending or active
  if (p.evs e).active ∨ (p.evs e).pending then (p, .err)
  else (p.setEv e { p.evs e with evBase := some b }, .ok)

/-! ## `ev_wait` and `ev_signal` -/

/-- The calling thread blocks on the condition variable. -/
def Event.wait (ev : Event) (t : Tid) : Event := { ev with stopCv := ev.stopCv ++ [t] }

/-- One blocked thread, the kernel's choice `w`, is woken; none if nobody is blocked. -/
def Event.signal (ev : Event) (w : ℕ) : Event :=
  { ev with stopCv := ev.stopCv.eraseIdx (w % ev.stopCv.length) }

end Skq.Evcompat
