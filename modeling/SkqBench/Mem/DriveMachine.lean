import SkqBench.Lib.Run
import SkqBench.Lib.Trace
import SkqBench.Mem.Pause

/-!
# Driving a connection

What the workers of memcached do with the connections of `g_evb`: `event_handler` and `drive_machine`,
`update_event`, the branches of `thread_libevent_process` (`conn_new`, `conn_worker_readd`,
`conn_close_idle`), and the threads a connection is handed over to.  A connection is named by its
descriptor, the index of `conns`.

A step is one pass of the loop of `drive_machine`, cut where `event_add` has returned and the thread
goes on with the connection.  What the commands and the data of a connection decide is part of the
label, as a `Branch`; what the states allow is `branches`.  Of the event of a connection there is
`EvAt`: returned by `kevent()` it belongs to the worker until the worker changes it or ends its batch.

`conn_timeout_thread` and `stats conns` look at all connections without a lock; their looks are left out.
-/

namespace Skq.Mem

open Lib Evcompat

/-- An event of `g_evb`: of a notify pipe, or of a connection. -/
inductive WorkerEvent
  | notify (pipe : ℕ)
  | conn (c : ℕ)
  deriving DecidableEq, Repr

/-- The event of a connection: not pending, to be returned by `kevent()`, or active in a worker. -/
inductive EvAt (τ : Type)
  | deleted
  | armed
  | taken (t : τ)
  deriving DecidableEq

/-- Outside of the workers: with the logger thread, the LRU crawler or an I/O thread of extstore, or in
an item of mode `queue_redispatch`. -/
inductive Away
  | side
  | queued
  deriving DecidableEq

/-- A `conn`, as far as the workers decide on it. -/
structure ClientConn (τ : Type) where
  state : ConnState
  evFlags : EvType
  isPriority : Bool
  transport : Transport
  thread : Option τ

/-- Where a worker is.
* `loop`, `calling`: before `kevent()`, and between two handlers.
* `notified`: at the start of `thread_libevent_process`.
* `attach c`: `conn_new` has returned `c`, before `c->thread = me`.
* `readded c`: in `conn_worker_readd` after `event_add`, before the look at `c->io_wraplist`.
* `machine c nreqs`: at the head of the loop of `drive_machine(c)`.
* `waited c`: in the branch `conn_waiting`, after `update_event`.
* `leaving c`: the loop of `drive_machine(c)` has ended. -/
inductive DriverAt
  | loop
  | calling
  | notified
  | attach (c : ℕ)
  | readded (c : ℕ)
  | machine (c : ℕ) (nreqs : ℤ)
  | waited (c : ℕ)
  | leaving (c : ℕ)
  deriving DecidableEq, Repr

/-- A worker: where it is, and the events of its batch whose handlers it has not called. -/
structure Driver where
  pc : DriverAt
  todo : List WorkerEvent
  deriving DecidableEq, Repr

/-- The connections with their events, those that are set up, those outside of the workers, and the
workers. -/
structure Driving (τ : Type) where
  conn : ℕ → ClientConn τ
  ev : ℕ → EvAt τ
  opened : ℕ → Bool
  away : ℕ → Option Away
  worker : τ → Driver

/-- Settings, and how the program was built. -/
structure DriveCfg where
  reqsPerEvent : ℤ
  idleTimeout : ℕ
  extstore : Bool
  ndebug : Bool

/-- Where `event_add` is called: by `update_event` in a state of `drive_machine`, by `conn_new`, by
`conn_worker_readd`. -/
inductive RearmAt
  | machine (st : ConnState)
  | newConn
  | readd
  deriving DecidableEq, Repr

/-- What is observed.
* `access u c`: worker `u`, or a thread that is no worker, reads or writes `c`.
* `rearm t c place`: `event_add` has made the event of `c` deliverable again.
* `enter t c`, `leave t c`: a call of `drive_machine(c)` begins, and returns.
* `done t`: the handler returns. -/
inductive DriveObs (τ : Type)
  | access (u : Option τ) (c : ℕ)
  | rearm (t : τ) (c : ℕ) (place : RearmAt)
  | enter (t : τ) (c : ℕ)
  | leave (t : τ) (c : ℕ)
  | done (t : τ)
  deriving DecidableEq

/-- What a pass of the loop comes to.
* `set st`: `conn_set_state(c, st)`.
* `again`: some data was moved.
* `block`: there is nothing to read or no room to write, or the worker yields: `update_event`.
* `handOver`: `event_del`, and the connection is left to another thread.
* `stop`: the loop ends. -/
inductive Branch
  | set (st : ConnState)
  | again
  | block
  | handOver
  | stop
  deriving DecidableEq, Repr

/-- What `conn_new` comes to. -/
inductive NewResult
  | ok
  | noMemory
  | addFailed
  deriving DecidableEq, Repr

/-- What `thread_libevent_process` reads and pops.
* `nothing`: no byte, a `'p'`, or a `'c'` without an item.
* `newConn`: an item of mode `queue_new_conn`.
* `redispatch c addOk`: an item of mode `queue_redispatch`.
* `timeout c expired`: a `'t'`; `expired` is what the clock says. -/
inductive Notice
  | nothing
  | newConn (sfd : ℕ) (initState : ConnState) (eventFlags : EvType) (transport : Transport)
      (result : NewResult)
  | redispatch (c : ℕ) (addOk : Bool)
  | timeout (c : ℕ) (expired : Bool)

/-- What happens next.
* `fetch t evs`: `kevent()` of a worker returns `evs`.
* `call t`: a worker calls its next handler.
* `read t notice`: the body of `thread_libevent_process`.
* `attach`, `lookIo`, `setRead`: what is done after `event_add` has returned, see `DriverAt`; `wraplist`
  tells whether `c->io_wraplist` is set.
* `iterate t b addOk`: a pass of the loop.
* `leave t`: `drive_machine` returns, and so does the handler.
* `finish t`: a worker ends its batch.
* `giveBack c`, `sideClose c`: `redispatch_conn` and `sidethread_conn_close`. -/
inductive DriveLabel (τ : Type)
  | fetch (t : τ) (evs : List WorkerEvent)
  | call (t : τ)
  | read (t : τ) (notice : Notice)
  | attach (t : τ)
  | lookIo (t : τ) (wraplist : Bool)
  | setRead (t : τ)
  | iterate (t : τ) (b : Branch) (addOk : Bool)
  | leave (t : τ)
  | finish (t : τ)
  | giveBack (c : ℕ)
  | sideClose (c : ℕ)

/-- The states a command can leave a connection in. -/
def ConnState.ofCommand : ConnState → Bool
  | listening => false
  | closed => false
  | watch => false
  | _ => true

/-- What a pass of the loop of `drive_machine` can come to. -/
def branches (cfg : DriveCfg) (nreqs : ℤ) (transport : Transport) : ConnState → Branch → Bool
  | .newCmd, .set st => 0 ≤ nreqs - 1 && (st == .parseCmd || st == .waiting)
  | .newCmd, .block => nreqs - 1 < 0
  | .newCmd, .stop => nreqs - 1 < 0
  | .waiting, .block => true
  | .read, .set st => st == .waiting || st == .parseCmd || st == .closing || st == .write ||
      st == .mwrite || st == .newCmd
  | .parseCmd, .set st => st.ofCommand
  | .parseCmd, .handOver => true
  | .nread, .set st => st.ofCommand
  | .nread, .again => true
  | .nread, .block => true
  | .swallow, .set st => st == .newCmd || st == .closing
  | .swallow, .again => true
  | .swallow, .block => true
  | .write, .handOver => cfg.extstore
  | .write, .set st => st.ofCommand && (st != .read || transport == .udp)
  | .write, .again => true
  | .write, .block => true
  | .mwrite, .handOver => cfg.extstore
  | .mwrite, .set st => st.ofCommand && (st != .read || transport == .udp)
  | .mwrite, .again => true
  | .mwrite, .block => true
  | .closing, .stop => true
  | .watch, .stop => true
  | _, _ => false

/-- The flags a state asks `update_event` for. -/
def ConnState.wants : ConnState → EvType
  | waiting => evRead ||| evPersist
  | nread => evRead ||| evPersist
  | swallow => evRead ||| evPersist
  | _ => evWrite ||| evPersist

namespace Driving

variable {τ : Type} [DecidableEq τ] (cfg : DriveCfg) (s : Driving τ) (t : τ) (c : ℕ)

/-- The worker goes on. -/
def goto (pc : DriverAt) : Driving τ :=
  { s with worker := Function.update s.worker t { s.worker t with pc := pc } }

/-- A store to the connection. -/
def setConn (x : ClientConn τ) : Driving τ := { s with conn := Function.update s.conn c x }

/-- `conn_set_state`. -/
def setState (st : ConnState) : Driving τ := s.setConn c { s.conn c with state := st }

/-- The event of the connection changes. -/
def setEv (e : EvAt τ) : Driving τ := { s with ev := Function.update s.ev c e }

/-- `event_del`, and whether it succeeds; `none` while it waits for the worker the event is active in. -/
def eventDel : Option (Driving τ × Bool) :=
  match s.ev c with
  | .deleted => some (s, false)
  | .armed => some (s.setEv c .deleted, true)
  | .taken u => if u = t then some (s.setEv c .deleted, true) else none

/-- `update_event`: the state, the result, and whether `event_add` was called and succeeded. -/
def updateEvent (newFlags : EvType) (addOk : Bool) : Option (Driving τ × Bool × Bool) :=
  if (s.conn c).evFlags = newFlags then some (s, true, false)
  else
    match s.eventDel t c with
    | none => none
    | some (s, false) => some (s, false, false)
    | some (s, true) =>
      let newFlags := if (s.conn c).isPriority then newFlags ||| evRuntime else newFlags
      let s := s.setConn c { s.conn c with evFlags := newFlags }
      if addOk then some (s.setEv c .armed, true, true) else some (s, false, false)

/-- `update_event` in a state of `drive_machine`, and how the loop goes on. -/
def block (nreqs : ℤ) (addOk : Bool) : Option (Driving τ × List (DriveObs τ)) :=
  let st := (s.conn c).state
  match s.updateEvent t c st.wants addOk with
  | none => none
  | some (s, false, _) => some ((s.setState c .closing).goto t (.machine c nreqs), [.access (some t) c])
  | some (s, true, rearmed) =>
    some (s.goto t (if st = .waiting then .waited c else .leaving c),
      .access (some t) c :: if rearmed then [.rearm t c (.machine st)] else [])

/-- The branch `conn_closing`. -/
def close : Option (Driving τ × List (DriveObs τ)) :=
  if (s.conn c).transport = .udp then
    some ((s.setState c .read).goto t (.leaving c), [.access (some t) c])
  else
    match s.eventDel t c with
    | none => none
    | some (s, _) =>
      let s := { s.setState c .closed with opened := Function.update s.opened c false }
      some (s.goto t (.leaving c), [.access (some t) c])

/-- A connection is handed over in state `conn_watch`.  In the branch `conn_mwrite` the loop ends, after
a command it goes on. -/
def handOver (nreqs : ℤ) : Option (Driving τ × List (DriveObs τ)) :=
  let st := (s.conn c).state
  match s.eventDel t c with
  | none => none
  | some (s, _) =>
    let s := { s.setState c .watch with away := Function.update s.away c (some .side) }
    some (s.goto t (if st = .parseCmd then .machine c nreqs else .leaving c), [.access (some t) c])

/-- A pass of the loop of `drive_machine`. -/
def iterate (nreqs : ℤ) (b : Branch) (addOk : Bool) : Option (Driving τ × List (DriveObs τ)) :=
  let st := (s.conn c).state
  let left := if st = .newCmd then nreqs - 1 else nreqs
  if branches cfg nreqs (s.conn c).transport st b then
    match b with
    | .set st' => some ((s.setState c st').goto t (.machine c left), [.access (some t) c])
    | .again => some (s, [.access (some t) c])
    | .block => s.block t c left addOk
    | .handOver => s.handOver t c nreqs
    | .stop =>
      if st = .closing then s.close t c else some (s.goto t (.leaving c), [.access (some t) c])
  else none

/-- A call of `drive_machine` begins. -/
def enter : Driving τ :=
  let s := if (s.conn c).state = .listening then s else s.setConn c { s.conn c with thread := some t }
  s.goto t (.machine c cfg.reqsPerEvent)

/-- The branch `queue_new_conn`, up to `c->thread = me`.  Without a connection, the descriptor is closed,
and for UDP the process ends. -/
def serveNew (sfd : ℕ) (initState : ConnState) (eventFlags : EvType) (transport : Transport)
    (result : NewResult) : Option (Driving τ × List (DriveObs τ)) :=
  let x : ClientConn τ :=
    { s.conn sfd with
      state := initState
      evFlags := eventFlags
      isPriority := eventFlags.has evRuntime
      transport := transport }
  if s.opened sfd then none
  else
    match result with
    | .ok =>
      let s := { (s.setConn sfd x).setEv sfd .armed with opened := Function.update s.opened sfd true }
      some (s.goto t (.attach sfd), [.access (some t) sfd, .rearm t sfd .newConn])
    | .noMemory => if transport = .udp then none else some (s.goto t .calling, [.done t])
    | .addFailed =>
      if transport = .udp then none
      else some ((s.setConn sfd x).goto t .calling, [.access (some t) sfd, .done t])

/-- The branch `queue_redispatch`, up to the part of `conn_worker_readd` that only a build with extstore
has. -/
def readd (addOk : Bool) : Option (Driving τ × List (DriveObs τ)) :=
  if s.away c = some .queued then
    let x := { s.conn c with evFlags := evRead ||| evPersist, state := .newCmd }
    let s := { s.setConn c x with away := Function.update s.away c none }
    let s := if addOk then s.setEv c .armed else s
    let o := .access (some t) c :: if addOk then [.rearm t c .readd] else []
    if cfg.extstore then some (s.goto t (.readded c), o) else some (s.goto t .calling, o ++ [.done t])
  else none

/-- The branch `'t'`, with `conn_close_idle`.  It begins with `assert(false)`, which ends the process
unless the program was built with `NDEBUG`. -/
def closeIdle (expired : Bool) : Option (Driving τ × List (DriveObs τ)) :=
  if cfg.ndebug = false then none
  else if cfg.idleTimeout = 0 then some (s.goto t .calling, [.done t])
  else if expired = true ∧ ((s.conn c).state = .newCmd ∨ (s.conn c).state = .read) then
    some ((s.setState c .closing).enter cfg t c, [.access (some t) c, .enter t c])
  else some (s.goto t .calling, [.access (some t) c, .done t])

/-- `kevent()` may return the event. -/
def Ready : WorkerEvent → Prop
  | .notify _ => True
  | .conn c => s.ev c = .armed

instance (e : WorkerEvent) : Decidable (s.Ready e) :=
  match e with
  | .notify _ => isTrue trivial
  | .conn c => inferInstanceAs (Decidable (s.ev c = .armed))

/-- One step. -/
def step : DriveLabel τ → Option (Driving τ × List (DriveObs τ))
  | .fetch t evs =>
    if (s.worker t).pc = .loop ∧ evs.length ≤ nevent ∧ evs.Nodup ∧ ∀ e ∈ evs, s.Ready e then
      some ({ s with
        ev := fun c => if .conn c ∈ evs then .taken t else s.ev c
        worker := Function.update s.worker t ⟨.calling, evs⟩ }, [])
    else none
  | .call t =>
    match s.worker t with
    | ⟨.calling, .notify _ :: todo⟩ =>
      some ({ s with worker := Function.update s.worker t ⟨.notified, todo⟩ }, [])
    | ⟨.calling, .conn c :: todo⟩ =>
      let s := { s with worker := Function.update s.worker t ⟨.calling, todo⟩ }
      some (s.enter cfg t c, [.access (some t) c, .enter t c])
    | _ => none
  | .read t notice =>
    if (s.worker t).pc = .notified then
      match notice with
      | .nothing => some (s.goto t .calling, [.done t])
      | .newConn sfd initState eventFlags transport result =>
        s.serveNew t sfd initState eventFlags transport result
      | .redispatch c addOk => s.readd cfg t c addOk
      | .timeout c expired => s.closeIdle cfg t c expired
    else none
  | .attach t =>
    match (s.worker t).pc with
    | .attach c =>
      some ((s.setConn c { s.conn c with thread := some t }).goto t .calling,
        [.access (some t) c, .done t])
    | _ => none
  | .lookIo t wraplist =>
    match (s.worker t).pc with
    | .readded c =>
      if wraplist then some ((s.setState c .mwrite).enter cfg t c, [.access (some t) c, .enter t c])
      else some (s.goto t .calling, [.access (some t) c, .done t])
    | _ => none
  | .setRead t =>
    match (s.worker t).pc with
    | .waited c => some ((s.setState c .read).goto t (.leaving c), [.access (some t) c])
    | _ => none
  | .iterate t b addOk =>
    match (s.worker t).pc with
    | .machine c nreqs => s.iterate cfg t c nreqs b addOk
    | _ => none
  | .leave t =>
    match (s.worker t).pc with
    | .leaving c => some (s.goto t .calling, [.leave t c, .done t])
    | _ => none
  | .finish t =>
    if s.worker t = ⟨.calling, []⟩ then
      some ({ s with
        ev := fun c => if s.ev c = .taken t then .armed else s.ev c
        worker := Function.update s.worker t ⟨.loop, []⟩ }, [])
    else none
  | .giveBack c =>
    if s.away c = some .side then
      some ({ s with away := Function.update s.away c (some .queued) }, [.access none c])
    else none
  | .sideClose c =>
    if s.away c = some .side then
      some ({ s.setState c .closed with
        away := Function.update s.away c none
        opened := Function.update s.opened c false }, [.access none c])
    else none

/-- The state before any connection is set up; what `conns` holds does not matter. -/
def init (conn : ℕ → ClientConn τ) : Driving τ where
  conn := conn
  ev := fun _ => .deleted
  opened := fun _ => false
  away := fun _ => none
  worker := fun _ => ⟨.loop, []⟩

end Driving

/-! ## What is asked of the workers -/

section Properties

variable {τ : Type} (cfg : DriveCfg)

/-- Nothing but the return of the handler follows `event_add`. -/
def RearmAt.isLast : RearmAt → Bool
  | machine st => st != .waiting
  | newConn => false
  | readd => !cfg.extstore

/-- Somebody else than worker `t` uses the connection. -/
def OtherAccess (t : τ) (c : ℕ) (y : DriveObs τ) : Prop := ∃ u, u ≠ some t ∧ y = .access u c

/-- The worker has made the event of the connection deliverable, or has returned from `drive_machine`. -/
def LetsGo (t : τ) (c : ℕ) (y : DriveObs τ) : Prop := y = .leave t c ∨ ∃ place, y = .rearm t c place

/-- The connection a worker is at. -/
def DriverAt.subject : DriverAt → Option ℕ
  | attach c => some c
  | readded c => some c
  | machine c _ => some c
  | waited c => some c
  | leaving c => some c
  | _ => none

/-- In `drive_machine(c)`. -/
def DriverAt.drives (c : ℕ) : DriverAt → Bool
  | machine d _ => d = c
  | waited d => d = c
  | leaving d => d = c
  | _ => false

/-- After an `event_add`, with a use of the connection ahead. -/
def DriverAt.late (c : ℕ) : DriverAt → Bool
  | attach d => d = c
  | readded d => d = c
  | waited d => d = c
  | _ => false

/-- The connection of an event. -/
def WorkerEvent.conn? : WorkerEvent → Option ℕ
  | notify _ => none
  | conn c => some c

variable (s : Driving τ)

/-- No other worker than `u` is in `drive_machine(c)`. -/
def Driving.Undriven (u : Option τ) (c : ℕ) : Prop :=
  ∀ t, some t ≠ u → (s.worker t).pc.drives c = false

/-- What the code leaves to chance.
* `kevent()` does not return the event of a connection before a use that follows `event_add`: that of
  `c->state` in `conn_waiting`, of `c->thread` after `conn_new`, of `c->io_wraplist` with extstore.
* With extstore, `conn_worker_readd` does not drive a connection whose event it has added.
* No `'t'` leads to `drive_machine`.
* While a worker is in `drive_machine(c)`, no other one sets up a new connection on the descriptor or is
  told of a `'t'` for it, and a thread `c` was handed over to neither gives it back nor closes it. -/
def Driving.InTime : DriveLabel τ → Prop
  | .fetch _ evs => ∀ c ∈ evs.filterMap WorkerEvent.conn?, ∀ u, (s.worker u).pc.late c = false
  | .lookIo t wraplist => wraplist = true → ∀ c ∈ (s.worker t).pc.subject, s.ev c ≠ .armed
  | .read t (.newConn sfd ..) => s.Undriven (some t) sfd
  | .read t (.timeout c expired) => s.Undriven (some t) c ∧
      ¬ (expired = true ∧ ((s.conn c).state = .newCmd ∨ (s.conn c).state = .read))
  | .giveBack c => s.Undriven none c
  | .sideClose c => s.Undriven none c
  | _ => True

end Properties

end Skq.Mem
