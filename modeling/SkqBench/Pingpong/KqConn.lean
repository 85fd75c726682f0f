import Mathlib.Algebra.Group.Nat.Defs
import Mathlib.Algebra.Ring.Int.Defs
import Mathlib.Data.Nat.Notation
import Mathlib.Tactic.TypeStar

/-!
# `dismember.cc`: one connection of a worker

A worker waits for its connections and runs the state machine of the one that has an event.  What
happens to one connection does not depend on the others, so `Session` is the part of a worker that
concerns one: the `kqconn`, the two knotes the connection has in the kqueue of the worker, and the
requests that were completely written to it and are not answered.

A label is what the worker does next for the connection, with everything that is decided outside:
what the clock and the generator say, what `send_req` and `read_resp` return, how many answers a
`read_resp` consumes.  Read and timer events come in any order, also those of a peer that sends more
than it is asked for.  One iteration of the loop of `kqconn_state_machine` is one step.
-/

namespace Skq.Pingpong

/-- `depth_limit`. -/
def depthLimit : ℤ := 1

/-- Conversion to `int64_t`. -/
def toInt64 (x : ℤ) : ℤ := Int.bmod x (2 ^ 64)

/-- Conversion to `uint64_t`. -/
def toUint64 (x : ℤ) : ℤ := x % 2 ^ 64

/-- `enum conn_state`. -/
inductive ConnState
  | limiting | waiting | sending
  deriving DecidableEq, Repr

/-- `struct kqconn`. -/
structure KqConn where
  timerExpired : Bool
  depth : ℤ
  state : ConnState
  nextSend : ℤ
  lastSend : ℤ
  deriving DecidableEq, Repr

/-- Where the worker is: before its loop, waiting in `kevent()`, in `kqconn_state_machine`, in
`kqconn_cleanup`, behind it, or gone with the process. -/
inductive Phase
  | registered | kevent | machine | cleanup | done | exited
  deriving DecidableEq, Repr

/-- One connection of a worker: `timer` and `read` are its knotes, `unanswered` the requests that
were completely written and whose answer was not read. -/
structure Session where
  conn : KqConn
  phase : Phase
  timer : Bool
  read : Bool
  unanswered : ℕ
  cnt : ℕ
  stats : List ℤ
  deriving DecidableEq, Repr

/-- What is observed: the timer is armed, with its knote there or not; a request is sent, with the
result; the state machine returns; `kqconn_cleanup` deletes the timer, with its knote there or
not. -/
inductive ConnObs
  | armed (present : Bool)
  | sent (status : ℤ)
  | returned
  | deleted (present : Bool)
  deriving DecidableEq, Repr

/-- What one iteration of the state machine reads from outside: the clock, the generator, the result
of `send_req` (`none` if it calls `exit`) and whether `kevent()` accepts the timer. -/
structure Inputs where
  clock : ℤ
  gen : ℤ
  send : Option ℤ
  armed : Bool
  deriving DecidableEq, Repr

/-- What one read event brings: how many answers `read_resp` consumes completely (one if the peer
answers and the message has a header; `http_gen` takes what is there), what it returns (`none` if it
calls `exit`), whether the warm-up is over, `client_mode`, and the clock. -/
structure Response where
  answers : ℕ
  status : Option ℤ
  warm : Bool
  clientMode : Bool
  clock : ℤ
  deriving DecidableEq, Repr

/-- A step of the worker for this connection. -/
inductive ConnLabel
  | start (clock : ℤ)
  | timerEvent
  | readEvent (r : Response)
  | eof
  | iterate (i : Inputs)
  | stop
  | clean
  deriving DecidableEq, Repr

/-- `worker_thread` has registered the connection. -/
def Session.init : Session where
  conn := ⟨false, 0, .waiting, 0, 0⟩
  phase := .registered
  timer := true
  read := true
  unanswered := 0
  cnt := 0
  stats := []

namespace Session

variable (s : Session)

/-- The process ends. -/
def exit : Option (Session × List ConnObs) := some ({ s with phase := .exited }, [])

/-- The end of an iteration that goes on in `conn`. -/
def again (conn : KqConn) : Option (Session × List ConnObs) := some ({ s with conn := conn }, [])

/-- One iteration of `kqconn_state_machine`. -/
def iterate (i : Inputs) : Option (Session × List ConnObs) :=
  let conn := s.conn
  match conn.state with
  | .waiting =>
    let now := toInt64 (conn.nextSend - i.clock)
    if now > 0 then
      if conn.timerExpired then
        if i.armed then
          let s' := { s with conn := { conn with timerExpired := false }, timer := true }
          some ({ s' with phase := .kevent }, [.armed s.timer, .returned])
        else s.exit
      else some ({ s with phase := .kevent }, [.returned])
    else s.again { conn with state := .sending }
  | .limiting =>
    if conn.depth ≥ depthLimit then some ({ s with phase := .kevent }, [.returned])
    else s.again { conn with state := .waiting }
  | .sending =>
    if conn.depth ≥ depthLimit then
      -- wait for the read to call us
      s.again { conn with state := .limiting }
    else
      let now := toInt64 i.clock
      if now < toInt64 conn.nextSend then s.exit
      else
        let conn := { conn with
          depth := conn.depth + 1
          nextSend := toUint64 (conn.nextSend + i.gen)
          lastSend := now
          state := .waiting }
        match i.send with
        | none => s.exit
        | some status =>
          -- a request is written completely if and only if the result is 0
          let unanswered := if status = 0 then s.unanswered + 1 else s.unanswered
          some ({ s with conn := conn, unanswered := unanswered }, [.sent status])

/-- What `ev_loop` counts and records of an answer. -/
def record (r : Response) : Session :=
  if r.warm then
    let stats := if r.clientMode then s.stats
      else s.stats ++ [toUint64 (r.clock - s.conn.lastSend)]
    { s with cnt := s.cnt + 1, stats := stats }
  else s

@[simp] lemma record_conn (r : Response) : (s.record r).conn = s.conn := by
  rw [record]
  split <;> rfl

@[simp] lemma record_timer (r : Response) : (s.record r).timer = s.timer := by
  rw [record]
  split <;> rfl

@[simp] lemma record_read (r : Response) : (s.record r).read = s.read := by
  rw [record]
  split <;> rfl

@[simp] lemma record_unanswered (r : Response) : (s.record r).unanswered = s.unanswered := by
  rw [record]
  split <;> rfl

/-- `ev_loop` for a read event. -/
def readEvent (r : Response) : Option (Session × List ConnObs) :=
  if s.unanswered < r.answers then none
  else
    match r.status with
    | none => s.exit
    | some status =>
      if status < 0 then s.exit
      else
        let conn : KqConn := { s.conn with depth := s.conn.depth - 1 }
        let s : Session := { s with conn := conn, unanswered := s.unanswered - r.answers }
        if conn.depth < 0 then s.exit
        else some ({ s.record r with phase := .machine }, [])

/-- `ev_loop` for a timer event; the knote is a one-shot one. -/
def timerEvent : Option (Session × List ConnObs) :=
  if s.timer then
    some ({ s with
      timer := false
      conn := { s.conn with timerExpired := true }
      phase := .machine }, [])
  else none

/-- `kqconn_cleanup`; `kevent()` fails if one of the knotes is not there. -/
def cleanup : Option (Session × List ConnObs) :=
  if s.conn.timerExpired then
    if s.read then some ({ s with read := false, phase := .done }, []) else s.exit
  else
    let s' := { s with read := false, timer := false }
    if s.read && s.timer then some ({ s' with phase := .done }, [.deleted s.timer])
    else some ({ s' with phase := .exited }, [.deleted s.timer])

/-- One step. -/
def step (s : Session) (l : ConnLabel) : Option (Session × List ConnObs) :=
  match s.phase, l with
  | .registered, .start clock =>
    some ({ s with conn := { s.conn with nextSend := toUint64 clock }, phase := .kevent }, [])
  | .kevent, .timerEvent => s.timerEvent
  | .kevent, .readEvent r => s.readEvent r
  | .kevent, .eof => s.exit
  | .kevent, .stop => some ({ s with phase := .cleanup }, [])
  | .machine, .iterate i => s.iterate i
  | .cleanup, .clean => s.cleanup
  | _, _ => none

end Session

end Skq.Pingpong
