import SkqBench.Evcompat.Loop

/-!
# Accepting connections

`update_event`, `do_accept_new_conns` and `maxconns_handler` of memcached, written over the event
calls of evcompat: every call of a handler is the step (or the two steps) of the process that the
model of evcompat makes of it, and its status is the one that is observed.  The kernel accepts every
`EV_ADD`.

The main thread is the only one that loops on the base of the listening connections, and the only
one that calls these functions.  `mstep` is the server: steps of the process, and the calls of
`accept_new_conns`, whose effect is observed.
-/

namespace Skq.Mem

open Evcompat

/-! ## The event calls of a handler -/

section Calls

variable (c : Cfg) (s : State) (t : Tid)

/-- The status a call returned. -/
def returned (o : List Obs) : Option Rc :=
  o.findSome? fun x =>
    match x with
    | .result _ _ rc => some rc
    | _ => none

/-- `event_set`; `none` if an assertion fails. -/
def eventSet (e : EvId) (fd : ℤ) (type : EvType) (fn arg : ℕ) : Option State := do
  let (s', _) ← step c s (.set t e fd type fn arg)
  if s'.aborted.isSome then none else pure s'

/-- `event_base_set`. -/
def eventBaseSet (b : BaseId) (e : EvId) : Option (State × Rc) := do
  let (s', o) ← step c s (.baseSet t b e)
  let rc ← returned o
  pure (s', rc)

/-- `event_del`; `none` if the call does not return at once. -/
def eventDel (e : EvId) : Option (State × Rc) := do
  let (s', o) ← step c s (.del t e)
  let rc ← returned o
  pure (s', rc)

/-- `event_add`, with its locked section if it gets there. -/
def eventAdd (e : EvId) (timeout : Option TimeVal) : Option (State × Rc) := do
  let (s₁, o₁) ← step c s (.add t e timeout)
  match (s₁.threads t).call with
  | none =>
    let rc ← returned o₁
    pure (s₁, rc)
  | some _ =>
    let (s₂, o₂) ← step c s₁ (.addLocked t true)
    let rc ← returned o₂
    pure (s₂, rc)

end Calls

/-! ## `memcached.c` -/

/-- A `conn`: its event and its descriptor.  What changes is kept in `World`. -/
structure Conn where
  event : EvId
  sfd : ℤ
  deriving DecidableEq, Repr

/-- The slot a listening connection is registered in. -/
def Conn.slot (conn : Conn) : Slot := (conn.sfd, .read)

/-- What does not change: the main thread, `main_base`, the list `listen_conn` and
`maxconnsevent`. -/
structure Server where
  main : Tid
  mainBase : BaseId
  listenConn : List Conn
  maxconnsEvent : EvId

/-- The process, `ev_flags` and `is_priority` of the connections, and `allow_new_conns`. -/
structure World extends State where
  evFlags : EvId → EvType
  isPriority : EvId → Bool
  allowNewConns : Bool

/-- `event_handler` and `maxconns_handler`, by their addresses. -/
def eventHandler : ℕ := 1
def maxconnsHandlerFn : ℕ := 2

section Memcached

variable (c : Cfg) (sv : Server) (w : World)

/-- The registration `conn_new` makes; `none` if it returns `NULL`. -/
def connNew (conn : Conn) (eventFlags : EvType) : Option World := do
  let s ← eventSet c w.toState sv.main conn.event conn.sfd eventFlags eventHandler conn.event
  let (s, _) ← eventBaseSet c s sv.main sv.mainBase conn.event
  match ← eventAdd c s sv.main conn.event none with
  | (_, .err) => none
  | (s, .ok) =>
    pure { w with
      toState := s
      evFlags := Function.update w.evFlags conn.event eventFlags
      isPriority := Function.update w.isPriority conn.event (eventFlags.has evRuntime) }

/-- `server_socket` opens the listening connections. -/
def openListeners : Option World :=
  sv.listenConn.foldlM (fun w conn => connNew c sv w conn (evRead ||| evPersist)) w

/-- `update_event`, called by thread `t`. -/
def updateEvent (t : Tid) (conn : Conn) (newFlags : EvType) : Option (World × Bool) :=
  if w.evFlags conn.event = newFlags then some (w, true)
  else do
    let base ← (w.evs conn.event).evBase
    match ← eventDel c w.toState t conn.event with
    | (s, .err) => pure ({ w with toState := s }, false)
    | (s, .ok) =>
      let newFlags := if w.isPriority conn.event then newFlags ||| evRuntime else newFlags
      let s ← eventSet c s t conn.event conn.sfd newFlags eventHandler conn.event
      let (s, _) ← eventBaseSet c s t base conn.event
      let (s, rc) ← eventAdd c s t conn.event none
      let evFlags := Function.update w.evFlags conn.event newFlags
      pure ({ w with toState := s, evFlags := evFlags }, rc == .ok)

/-- The flags `do_accept_new_conns` asks for. -/
def acceptFlags (doAccept : Bool) : EvType := if doAccept then evRead ||| evPersist else 0

/-- The first branch of `maxconns_handler`: reschedule in 10ms. -/
def reschedule : Option World := do
  let s ← eventSet c w.toState sv.main sv.maxconnsEvent (-1) evTimeout maxconnsHandlerFn 0
  let (s, _) ← eventBaseSet c s sv.main sv.mainBase sv.maxconnsEvent
  let (s, _) ← eventAdd c s sv.main sv.maxconnsEvent (some ⟨0, 10000⟩)
  pure { w with toState := s }

/-- `do_accept_new_conns`.  Its call `maxconns_handler(-42, 0, 0)` takes the first branch. -/
def doAcceptNewConns (doAccept : Bool) : Option World := do
  let w ← sv.listenConn.foldlM (fun w conn =>
    (updateEvent c w sv.main conn (acceptFlags doAccept)).map Prod.fst) w
  if doAccept then pure w
  else reschedule c sv { w with allowNewConns := false }

/-- `maxconns_handler` as the handler of `maxconnsevent`, with a timer id as its `fd`; the flag tells
whether it called `accept_new_conns(true)`. -/
def maxconnsHandler : Option (World × Bool) :=
  if w.allowNewConns = false then (reschedule c sv w).map fun w => (w, false)
  else do
    let (s, _) ← eventDel c w.toState sv.main sv.maxconnsEvent
    let w ← doAcceptNewConns c sv { w with toState := s } true
    pure (w, true)

/-- What can happen next.
* `loop`: a step of the process.
* `acceptNewConns`: the listener's handler calls `accept_new_conns`.
* `maxconns`: the body of the handler of `maxconnsevent`.
* `connClose`: `conn_close` allows new connections again. -/
inductive MLabel
  | loop (l : Label)
  | acceptNewConns (doAccept : Bool)
  | maxconns
  | connClose

/-- One step of the server.  Observed are the calls of `do_accept_new_conns`, each with the state
it leaves. -/
def mstep (w : World) : MLabel → Option (World × List (Bool × World))
  | .loop l => (step c w.toState l).map fun r => ({ w with toState := r.1 }, [])
  | .acceptNewConns doAccept =>
    (doAcceptNewConns c sv w doAccept).map fun w' => (w', [(doAccept, w')])
  | .maxconns =>
    (maxconnsHandler c sv w).map fun r => (r.1, if r.2 then [(true, r.1)] else [])
  | .connClose => some ({ w with allowNewConns := true }, [])

end Memcached

/-! ## What is asked of the listening connections -/

/-- Every listening connection is pending, has its read knote, and its `ev_flags` are the type it is
registered with. -/
def Accepting (sv : Server) (w : World) : Prop :=
  ∀ conn ∈ sv.listenConn, (w.evs conn.event).pending = true ∧
    (∃ kn, w.kqs sv.mainBase conn.slot = some kn ∧ kn.kev.udata = conn.event) ∧
    w.evFlags conn.event = (w.evs conn.event).type

/-- No listening connection has a knote. -/
def NotAccepting (sv : Server) (w : World) : Prop :=
  ∀ conn ∈ sv.listenConn, ∀ b x kn, w.kqs b x = some kn → kn.kev.udata ≠ conn.event

/-- What `do_accept_new_conns` is for. -/
def AcceptOK (sv : Server) (x : Bool × World) : Prop :=
  if x.1 then Accepting sv x.2 else NotAccepting sv x.2

end Skq.Mem
