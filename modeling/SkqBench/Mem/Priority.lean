import SkqBench.Evcompat.Sequential
import SkqBench.Mem.Calls
import SkqBench.Mem.ConnQueue

/-!
# The priority mark of a connection

A connection of the priority client is registered with `EV_RUNTIME`.  `dispatch_conn_new` puts the
flag into the item, `conn_new` derives `is_priority` from it, `update_event` puts it back when it
changes the interest, and `conn_worker_readd` forgets it.  `update_event` compares the flags it is
asked for before it adds `EV_RUNTIME`, so that on a priority connection it never finds them equal.

A step is one whole call, for any answers of the kernel; between the calls the loop and the other
calls change what they like except the type of the event.
-/

namespace Skq.Mem

open Lib Evcompat

/-! ## The calls -/

/-- What `memcached.c` asks `update_event` for. -/
inductive Interest
  | none
  | read
  | write
  deriving DecidableEq, Repr

def Interest.flags : Interest → EvType
  | none => 0
  | read => evRead ||| evPersist
  | write => evWrite ||| evPersist

/-- `event_set`, the lock of the event being free; `none` if an assertion fails. -/
def eventSetCall (c : Cfg) (p : Proc) (e : EvId) (fd : ℤ) (type : EvType) (fn arg : ℕ) :
    Option Proc :=
  let ev := (p.evs e).firstSet
  match ev.setAssert fd type, c.ndebug with
  | some _, false => none
  | _, _ => some (p.setEv e (ev.assign fd type fn arg))

/-- A connection: what `conn_new`, `update_event` and `conn_worker_readd` read and store of it, and
the memory its event is in. -/
structure PrioConn extends Proc where
  evFlags : EvType
  isPriority : Bool
  state : ConnState

section

variable (c : Cfg) (gEvb : BaseId) (conn : Conn)

/-- The end of `conn_new`; `none` if it returns `NULL`. -/
def connNewCall (kernel : Kernel) (p : Proc) (initState : ConnState) (eventFlags : EvType) :
    Option PrioConn := do
  let p ← eventSetCall c p conn.event conn.sfd eventFlags eventHandler conn.event
  let p := (Evcompat.eventBaseSet p gEvb conn.event).1
  match eventAddCall c kernel p conn.event none with
  | .done p .ok => some ⟨p, eventFlags, eventFlags.has evRuntime, initState⟩
  | _ => none

/-- `update_event`, by thread `self`; `none` if a call in it does not return.  `del` and `add` are
the kernel's answers. -/
def updateEventCall (del add : Kernel) (s : PrioConn) (self : Tid) (newFlags : EvType) :
    Option (PrioConn × Bool) := do
  let base := (s.evs conn.event).evBase
  if s.evFlags = newFlags then some (s, true)
  else
    match eventDelFlags c del s.toProc self conn.event .block with
    | .done p .err => some ({ s with toProc := p }, false)
    | .done p .ok =>
      let newFlags := if s.isPriority then newFlags ||| evRuntime else newFlags
      let p ← eventSetCall c p conn.event conn.sfd newFlags eventHandler conn.event
      let p := (Evcompat.eventBaseSet p (← base) conn.event).1
      match eventAddCall c add p conn.event none with
      | .done p rc => some ({ s with toProc := p, evFlags := newFlags }, rc == .ok)
      | _ => none
    | _ => none

/-- `conn_worker_readd`. -/
def connWorkerReadd (add : Kernel) (s : PrioConn) : Option PrioConn := do
  let evFlags := evRead ||| evPersist
  let p ← eventSetCall c s.toProc conn.event conn.sfd evFlags eventHandler conn.event
  let p := (Evcompat.eventBaseSet p gEvb conn.event).1
  match eventAddCall c add p conn.event none with
  | .done p _ => some { s with toProc := p, evFlags := evFlags, state := .newCmd }
  | _ => none

/-- `redispatch_conn`: the item that is pushed.  Without one the connection is closed. -/
def redispatchConn (item : Option CqItem) (s : PrioConn) : PrioConn × List CqItem :=
  match item with
  | none => ({ s with state := .closed, kqs := fun b => (s.kqs b).close conn.sfd }, [])
  | some x => (s, [(HandOver.redispatch conn.event conn.sfd).fill x])

end

/-- What can happen next.
* `others`: anything else that happens to the memory. -/
inductive PrioLabel
  | updateEvent (self : Tid) (interest : Interest) (del add : Kernel)
  | connWorkerReadd (add : Kernel)
  | redispatchConn (item : Option CqItem)
  | others (p : Proc)

/-- One call.  Nobody else calls `event_set` for the event. -/
def prioStep (c : Cfg) (gEvb : BaseId) (conn : Conn) (s : PrioConn) :
    PrioLabel → Option (PrioConn × List CqItem)
  | .updateEvent self interest del add =>
    (updateEventCall c conn del add s self interest.flags).map fun r => (r.1, [])
  | .connWorkerReadd add => (Mem.connWorkerReadd c gEvb conn add s).map fun s => (s, [])
  | .redispatchConn item => some (Mem.redispatchConn conn item s)
  | .others p =>
    if (p.evs conn.event).type = (s.evs conn.event).type then
      some ({ s with toProc := p }, [])
    else none

/-! ## What is asked of them -/

/-- The event of the connection has the interest. -/
def PrioConn.Has (s : PrioConn) (conn : Conn) (interest : Interest) : Prop :=
  (s.evs conn.event).type = interest.flags ∨ (s.evs conn.event).type = interest.flags ||| evRuntime

instance (s : PrioConn) (conn : Conn) (interest : Interest) : Decidable (s.Has conn interest) :=
  inferInstanceAs (Decidable (_ ∨ _))

/-- The three places agree. -/
structure MarkOK (conn : Conn) (eventFlags : EvType) (s : PrioConn) : Prop where
  evFlags : s.evFlags = (s.evs conn.event).type
  runtime : (s.evs conn.event).type.has evRuntime = s.isPriority
  isPriority : s.isPriority = eventFlags.has evRuntime

/-- To ask for the interest the event has changes nothing. -/
def UpdateOK (conn : Conn) (s : PrioConn) (l : PrioLabel) (s' : PrioConn) : Prop :=
  ∀ self interest del add, l = .updateEvent self interest del add → s.Has conn interest →
    s'.toProc = s.toProc

/-- A priority connection is not added again by `conn_worker_readd`, and `update_event` is not asked
for the interest it has. -/
def MarkGuard (conn : Conn) (s : PrioConn) : PrioLabel → Prop
  | .updateEvent _ interest _ _ => s.isPriority = true → ¬ s.Has conn interest
  | .connWorkerReadd _ => s.isPriority = false
  | _ => True

instance (conn : Conn) (s : PrioConn) : ∀ l, Decidable (MarkGuard conn s l)
  | .updateEvent .. => inferInstanceAs (Decidable (_ → _))
  | .connWorkerReadd _ => inferInstanceAs (Decidable (_ = _))
  | .redispatchConn _ | .others _ => isTrue trivial

/-! ## What the calls store -/

section

variable {c : Cfg} {gEvb : BaseId} {conn : Conn} {kernel : Kernel} {p p' : Proc} {e : EvId}
  {s s' : PrioConn}

lemma eventSetCall_type {fd : ℤ} {type : EvType} {fn arg : ℕ}
    (h : eventSetCall c p e fd type fn arg = some p') : (p'.evs e).type = type := by
  unfold eventSetCall at h
  dsimp only at h
  split at h
  · cases h
  · cases h
    simp [Event.assign]

lemma eventBaseSet_type (b : BaseId) :
    ((Evcompat.eventBaseSet p b e).1.evs e).type = (p.evs e).type := by
  unfold Evcompat.eventBaseSet
  split <;> simp

lemma eventAddCall_type {timeout : Option TimeVal} {rc : Rc}
    (h : eventAddCall c kernel p e timeout = .done p' rc) : (p'.evs e).type = (p.evs e).type := by
  unfold eventAddCall at h
  dsimp only at h
  split at h
  · cases h
  split at h
  · cases h; rfl
  split at h
  · cases h
    exact patchTimerFd_type ..
  split at h
  · cases h
  split at h
  · cases h
  split at h
  · cases h
    exact patchTimerFd_type ..
  · cases h
    simp [patchTimerFd_type]

/-- `event_set`, `event_base_set`, `event_add`. -/
lemma type_of_registered {fd : ℤ} {type : EvType} {fn arg : ℕ} {b : BaseId} {rc : Rc} {p₁ : Proc}
    (hset : eventSetCall c p e fd type fn arg = some p₁)
    (hadd : eventAddCall c kernel (Evcompat.eventBaseSet p₁ b e).1 e none = .done p' rc) :
    (p'.evs e).type = type := by
  rw [eventAddCall_type hadd, eventBaseSet_type, eventSetCall_type hset]

/-- A connection as `conn_new` leaves it. -/
lemma markOK_of_connNew {initState : ConnState} {eventFlags : EvType}
    (h : connNewCall c gEvb conn kernel p initState eventFlags = some s) :
    MarkOK conn eventFlags s := by
  simp only [connNewCall, Option.bind_eq_bind, Option.bind_eq_some_iff] at h
  obtain ⟨p₁, hset, h⟩ := h
  split at h
  · next p₂ hadd =>
    cases h
    have htype := type_of_registered hset hadd
    exact ⟨htype.symm, congrArg (EvType.has · evRuntime) htype, rfl⟩
  · cases h

/-- What `update_event` comes to: it finds the flags equal, `event_del` fails, or the event is
set. -/
lemma updateEventCall_cases {del add : Kernel} {self : Tid} {newFlags : EvType} {r : Bool}
    (h : updateEventCall c conn del add s self newFlags = some (s', r)) :
    (s' = s ∧ s.evFlags = newFlags) ∨ (s' = s ∧ s.evFlags ≠ newFlags) ∨
      s.evFlags ≠ newFlags ∧ s'.isPriority = s.isPriority ∧
        s'.evFlags = (if s.isPriority then newFlags ||| evRuntime else newFlags) ∧
        (s'.evs conn.event).type = s'.evFlags := by
  simp only [updateEventCall] at h
  split at h
  · next heq =>
    cases h
    exact .inl ⟨rfl, heq⟩
  next hne =>
  split at h
  · next p₁ hdel =>
    obtain rfl := eventDelFlags_of_err hdel
    cases h
    exact .inr (.inl ⟨rfl, hne⟩)
  · simp only [Option.bind_eq_bind, Option.bind_eq_some_iff] at h
    obtain ⟨p₂, hset, base, -, h⟩ := h
    split at h
    · next p₃ rc hadd =>
      cases h
      exact .inr (.inr ⟨hne, rfl, rfl, type_of_registered hset hadd⟩)
    · cases h
  · cases h

/-! ## The mark -/

/-- `update_event` is not asked for `EV_RUNTIME`. -/
lemma has_runtime_flags (interest : Interest) (b : Bool) :
    (if b then interest.flags ||| evRuntime else interest.flags).has evRuntime = b := by
  cases interest <;> cases b <;> decide

/-- The mark is right after every step but `conn_worker_readd` on a priority connection. -/
lemma MarkOK.step {eventFlags : EvType} {l : PrioLabel} {o : List CqItem}
    (h : MarkOK conn eventFlags s) (hok : MarkGuard conn s l)
    (hs : prioStep c gEvb conn s l = some (s', o)) : MarkOK conn eventFlags s' := by
  cases l with
  | updateEvent self interest del add =>
    simp only [prioStep, Option.map_eq_some_iff, Prod.mk.injEq] at hs
    obtain ⟨⟨s₁, r⟩, hup, rfl, rfl⟩ := hs
    rcases updateEventCall_cases hup with ⟨heq, -⟩ | ⟨heq, -⟩ | ⟨-, hprio, hflags, htype⟩
    · exact heq ▸ h
    · exact heq ▸ h
    · refine ⟨htype.symm, ?_, hprio.trans h.isPriority⟩
      rw [htype, hflags, has_runtime_flags, hprio]
  | connWorkerReadd add =>
    have hprio : s.isPriority = false := hok
    simp only [prioStep, Option.map_eq_some_iff, Prod.mk.injEq, Mem.connWorkerReadd,
      Option.bind_eq_bind, Option.bind_eq_some_iff] at hs
    obtain ⟨s₁, ⟨p₁, hset, hadd⟩, rfl, rfl⟩ := hs
    split at hadd
    · next p₂ rc hadd =>
      cases hadd
      have htype := type_of_registered hset hadd
      refine ⟨htype.symm, ?_, h.isPriority⟩
      rw [htype, hprio]
      decide
    · cases hadd
  | redispatchConn item =>
    simp only [prioStep, Option.some.injEq] at hs
    cases item <;> cases hs <;> exact ⟨h.evFlags, h.runtime, h.isPriority⟩
  | others p =>
    simp only [prioStep] at hs
    split at hs
    · next htype =>
      cases hs
      exact ⟨h.evFlags.trans htype.symm, (congrArg (EvType.has · evRuntime) htype).trans h.runtime,
        h.isPriority⟩
    · cases hs

/-- On a connection without the mark `update_event` finds the flags equal. -/
lemma MarkOK.updateOK {eventFlags : EvType} {l : PrioLabel} {o : List CqItem}
    (h : MarkOK conn eventFlags s) (hok : MarkGuard conn s l)
    (hs : prioStep c gEvb conn s l = some (s', o)) : UpdateOK conn s l s' := by
  rintro self interest del add rfl hhas
  have hprio : s.isPriority = false := by
    by_contra hp
    exact hok (by simpa using hp) hhas
  have hflags : s.evFlags = interest.flags := by
    rw [h.evFlags]
    rcases hhas with htype | htype
    · exact htype
    · have hmark : (interest.flags ||| evRuntime).has evRuntime = true :=
        has_runtime_flags interest true
      have hrun := h.runtime
      rw [htype, hmark, hprio] at hrun
      cases hrun
  simp only [prioStep, Option.map_eq_some_iff, Prod.mk.injEq] at hs
  obtain ⟨⟨s₁, r⟩, hup, rfl, rfl⟩ := hs
  rcases updateEventCall_cases hup with ⟨heq, -⟩ | ⟨heq, -⟩ | ⟨hne, -⟩
  · rw [heq]
  · rw [heq]
  · exact absurd hflags hne

/-- `conn_worker_readd` on a priority connection always loses the mark. -/
theorem connWorkerReadd_unmarked {add : Kernel} (hprio : s.isPriority = true)
    (h : Mem.connWorkerReadd c gEvb conn add s = some s') :
    s'.isPriority = true ∧ (s'.evs conn.event).type.has evRuntime = false := by
  simp only [Mem.connWorkerReadd, Option.bind_eq_bind, Option.bind_eq_some_iff] at h
  obtain ⟨p₁, hset, h⟩ := h
  split at h
  · next p₂ rc hadd =>
    cases h
    have htype : (p₂.evs conn.event).type = evRead ||| evPersist := type_of_registered hset hadd
    exact ⟨hprio, by rw [htype]; decide⟩
  · cases h

/-! ## Where the mark comes from -/

/-- The peer is the priority client. -/
def FromPriorityClient (cfg : Settings) (ipaddr : List Char) : Prop :=
  0 < cfg.priorityClient ∧ ipaddr.take inetAddrStrLen = cfg.priorityIp

/-- The flags are those of the item `dispatch_conn_new` makes for the peer. -/
def Dispatched (cfg : Settings) (ipaddr : List Char) (eventFlags : EvType) : Prop :=
  ∃ (pool : Pool ℕ) (t : ℕ) (sfd : ℤ) (initState : ConnState) (size : ℤ) (transport : Transport)
      (ssl : Option ℕ) (i : ℕ),
    eventFlags = ((pool.prepareItem cfg t
      (.dispatch sfd initState (evRead ||| evPersist) size transport ssl) i
        (some ipaddr)).1.item i).eventFlags

lemma Dispatched.has_runtime {cfg : Settings} {ipaddr : List Char} {eventFlags : EvType}
    (h : Dispatched cfg ipaddr eventFlags) :
    eventFlags.has evRuntime = true ↔ FromPriorityClient cfg ipaddr := by
  obtain ⟨pool, t, sfd, initState, size, transport, ssl, i, rfl⟩ := h
  unfold FromPriorityClient
  by_cases hprio : cfg.priorityClient ≤ 0
  · simp only [Pool.prepareItem, if_pos hprio, Pool.goto, Pool.setItem, Function.update_self]
    simp only [Int.not_lt.2 hprio, false_and, iff_false]
    decide
  · by_cases hip : ipaddr.take inetAddrStrLen = cfg.priorityIp
    · simp only [Pool.prepareItem, if_neg hprio, if_pos hip, Pool.goto, Pool.setItem,
        Function.update_self]
      simp only [Int.not_le.1 hprio, hip, true_and, iff_true]
      decide
    · simp only [Pool.prepareItem, if_neg hprio, if_neg hip, Pool.goto, Pool.setItem,
        Function.update_self]
      simp only [hip, and_false, iff_false]
      decide

/-! ## Runs -/

/-- **The mark is in all places or in none.**  In every run in which no priority connection is added
again by `conn_worker_readd` or updated to the interest it has: `ev_flags` is the type of the event,
which has `EV_RUNTIME` iff the peer is the priority client, and an update to the same interest
changes nothing. -/
theorem markOK_of_run {initState : ConnState} {eventFlags : EvType} {s₀ : PrioConn} {tr : List CqItem}
    (hnew : connNewCall c gEvb conn kernel p initState eventFlags = some s₀)
    (hr : Run (prioStep c gEvb conn) (MarkGuard conn) s₀ tr s) :
    MarkOK conn eventFlags s ∧
      (∀ cfg ipaddr, Dispatched cfg ipaddr eventFlags →
        (s.isPriority = true ↔ FromPriorityClient cfg ipaddr)) ∧
      ∀ l s' o, MarkGuard conn s l → prioStep c gEvb conn s l = some (s', o) →
        UpdateOK conn s l s' := by
  have h : MarkOK conn eventFlags s := hr.inv (MarkOK conn eventFlags) (markOK_of_connNew hnew)
    fun s l s' o h hok hs => h.step hok hs
  refine ⟨h, fun cfg ipaddr hd => ?_, fun l s' o hok hs => h.updateOK hok hs⟩
  rw [h.isPriority]
  exact hd.has_runtime

end

/-- A client connects, with the mark or without. -/
def newConnCall (mark : Bool) : Option PrioConn :=
  connNewCall ⟨false, false⟩ 0 ⟨0, 5⟩ (addChange true) State.zero.toProc .newCmd
    (if mark then evRead ||| evPersist ||| evRuntime else evRead ||| evPersist)

def newClient (mark : Bool) : PrioConn := (newConnCall mark).get (by cases mark <;> rfl)

lemma newConnCall_eq (mark : Bool) : newConnCall mark = some (newClient mark) :=
  (Option.some_get _).symm

/-- The loop has the event active in thread 3. -/
def activated (p : Proc) : Proc := p.setEv 0 { p.evs 0 with active := true, owner := some 3 }

/-- The event is deleted, as it is before the connection is handed to another thread. -/
def handedOver (p : Proc) : Proc :=
  (p.setKq 0 fun _ => none).setEv 0 { p.evs 0 with pending := false }

/-- A handler waits for room to write, twice. -/
def writeTwice : List PrioLabel :=
  [.others (activated (newClient false).toProc),
    .updateEvent 3 .write deleteChange (addChange true),
    .updateEvent 3 .write deleteChange (addChange true)]

/-- A client without the mark. -/
theorem markOK_writeTwice : ∃ s tr,
    Run (prioStep ⟨false, false⟩ 0 ⟨0, 5⟩) (MarkGuard ⟨0, 5⟩) (newClient false) tr s ∧
      s.evFlags = evWrite ||| evPersist ∧ MarkOK ⟨0, 5⟩ (evRead ||| evPersist) s := by
  have hguard : Guarded (prioStep ⟨false, false⟩ 0 ⟨0, 5⟩) (MarkGuard ⟨0, 5⟩)
      (newClient false) writeTwice :=
    by decide +kernel
  obtain ⟨s, tr, hr, hs⟩ := Run.exists_of_exec (prioStep ⟨false, false⟩ 0 ⟨0, 5⟩) (newClient false)
    writeTwice (fun r => r.1.evFlags) (evWrite ||| evPersist) (by decide +kernel) hguard
  exact ⟨s, tr, hr, hs, (markOK_of_run (newConnCall_eq false) hr).1⟩

/-- An item of the free list. -/
def staleItem : CqItem := ⟨0, .newCmd, 0, 0, 0, .tcp, .newConn, 0, none⟩

/-- **The mark of a priority connection is lost** when it is handed over and added again, **and to
ask for the interest it has changes its event**: the activation that is being handled is ended. -/
theorem not_markOK_priority :
    (∃ s tr, Run (prioStep ⟨false, false⟩ 0 ⟨0, 5⟩) anyStep (newClient true) tr s ∧
      s.isPriority = true ∧ (s.evs 0).type.has evRuntime = false) ∧
    ∃ s s' tr, Run (prioStep ⟨false, false⟩ 0 ⟨0, 5⟩) anyStep (newClient true) tr s ∧
      s.Has ⟨0, 5⟩ .read ∧
      prioStep ⟨false, false⟩ 0 ⟨0, 5⟩ s (.updateEvent 3 .read deleteChange (addChange true)) =
        some (s', []) ∧ (s'.evs 0).epoch ≠ (s.evs 0).epoch := by
  constructor
  · exact ⟨_, _, .of_exec_any (show exec _ _ [.others (handedOver (newClient true).toProc),
      .redispatchConn (some staleItem), .connWorkerReadd (addChange true)] = some (_, _) from rfl),
      rfl, by decide⟩
  · exact ⟨_, _, _, .of_exec_any (show exec _ _ [.others (activated (newClient true).toProc)] =
      some (_, _) from rfl), by decide, rfl, by decide⟩

end Skq.Mem
