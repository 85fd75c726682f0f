import SkqBench.Lib.Trace
import SkqBench.Pingpong.ConnIds

/-!
# The control protocol of dismember

The main threads of the master and of its clients, from `prepare_clients` and `wait_master_prepare` to
the end of `main`.  Connection `i` is the one between the master and client `i`; its messages arrive in
order.  Once a process has registered its timer, `kevent()` on its `mt_kq` may return the timer event
whenever it is called, and otherwise the event of a connection that has something to read or is closed.

A step of a process is one iteration of a loop, or what it does up to the next one.  Sends succeed; a
connection is closed only by an end of it, or by the exit of a process.
-/

namespace Skq.Pingpong

open Lib

/-- `MSG_TEST_OK`, `MSG_TEST_START`, `MSG_TEST_STOP` and `MSG_TEST_QPS_ACK`. -/
def msgTestOk : ℤ := 0x1234
def msgTestStart : ℤ := 0x2345
def msgTestStop : ℤ := 0x3456
def msgTestQpsAck : ℤ := 0x4567

/-- What is written at once by the master: its `options`, or an `int`. -/
inductive CtlMsg
  | options
  | int (msg : ℤ)
  deriving DecidableEq, Repr

/-- The numbers an experiment depends on: how many operations each process counts is arbitrary. -/
structure ControlCfg where
  clientNum : ℕ
  duration : ℤ
  warmup : ℤ
  clientQps : ℕ → ℕ
  masterQps : ℕ

/-- Where the main thread of the master is.
* `connecting i`: in `prepare_clients`, before client `i`.
* `threads`: waiting for its worker threads.
* `waitOk acked`, `sendStart i`: in `wait_clients_ok`.
* `running curTime`: in the loop of `main`, with its timer.
* `sendStop i`, `waitClose stopCnt qps`: in `client_stop`.
* `recvQps tot qps`: in `master_recv_qps`.
* `done qps`: past `client_stop`, with the aggregated number. -/
inductive MasterPhase
  | connecting (i : ℕ)
  | threads
  | waitOk (acked : List ℕ)
  | sendStart (i : ℕ)
  | running (curTime : ℕ)
  | sendStop (i : ℕ)
  | recvQps (tot : ℕ) (qps : ℤ)
  | waitClose (stopCnt : ℕ) (qps : ℤ)
  | done (qps : ℤ)
  | failed
  deriving DecidableEq, Repr

/-- Where the main thread of a client is.
* `prepare`: in `wait_master_prepare`.
* `connect`: waiting for its worker threads.
* `start`: in `send_master_ok`, waiting for START.
* `running`: in the loop of `main`, with its timer.
* `sendQps`, `ack`: in `client_send_qps`, before the write and waiting for the ACK.
* `closing`, `closed`: before and after `close(master_fd)`. -/
inductive ClientPhase
  | prepare | connect | start | running | sendQps | ack | closing | closed | failed
  deriving DecidableEq, Repr

/-- The processes, what they have not read yet, and which of its connections the master has not
closed. -/
structure Control where
  master : MasterPhase
  client : ℕ → ClientPhase
  toClient : ℕ → List CtlMsg
  toMaster : ℕ → List ℤ
  clientFd : ℕ → Bool

/-- What `kevent()` returns. -/
inductive CtlEvent
  | timer
  | conn (i : ℕ)
  deriving DecidableEq, Repr

/-- What is observed.
* `tookTimer`: a message is read from the descriptor of the timer event.
* `exit`: the process ends with an error.
* `readQps i msg`: the master reads a count from client `i`.
* `readAck i`, `closed i`: client `i` reads its ACK, and closes its connection.
* `total qps`: the aggregated number of the master. -/
inductive CtlObs
  | tookTimer (p : Party)
  | exit (p : Party)
  | readQps (i : ℕ) (msg : ℤ)
  | readAck (i : ℕ)
  | closed (i : ℕ)
  | total (qps : ℤ)
  deriving DecidableEq

/-- Which process goes on, and the event it gets if it waits for one. -/
inductive CtlLabel
  | master
  | masterKevent (ev : CtlEvent)
  | client (i : ℕ)
  | clientKevent (i : ℕ) (ev : CtlEvent)
  deriving DecidableEq

namespace Control

variable (c : ControlCfg) (s : Control)

/-- The client's end of a connection is closed. -/
def eofAtMaster (i : ℕ) : Bool := s.client i = .closed || s.client i = .failed

/-- The master's end of a connection is closed. -/
def eofAtClient (i : ℕ) : Bool :=
  !s.clientFd i || s.master = .failed || match s.master with | .done _ => true | _ => false

/-- There is an event of the connection at the master. -/
def readyAtMaster (i : ℕ) : Bool :=
  i < c.clientNum && s.clientFd i && (s.toMaster i ≠ [] || s.eofAtMaster i)

/-- There is an event of the connection at the client. -/
def readyAtClient (i : ℕ) : Bool := s.toClient i ≠ [] || s.eofAtClient i

/-- The master goes on. -/
def goMaster (m : MasterPhase) : Control := { s with master := m }

/-- Client `i` goes on. -/
def goClient (i : ℕ) (p : ClientPhase) : Control :=
  { s with client := Function.update s.client i p }

/-- `writebuf` of the master. -/
def sendClient (i : ℕ) (msg : CtlMsg) : Control :=
  { s with toClient := Function.update s.toClient i (s.toClient i ++ [msg]) }

/-- `writebuf` of a client. -/
def sendMaster (i : ℕ) (msg : ℤ) : Control :=
  { s with toMaster := Function.update s.toMaster i (s.toMaster i ++ [msg]) }

/-- `readbuf` of a client takes its first message. -/
def dropClient (i : ℕ) : Control :=
  { s with toClient := Function.update s.toClient i (s.toClient i).tail }

/-- `readbuf` of the master takes the first message of client `i`. -/
def dropMaster (i : ℕ) : Control :=
  { s with toMaster := Function.update s.toMaster i (s.toMaster i).tail }

/-- `E()` in the master. -/
def exitMaster : Control × List CtlObs := (s.goMaster .failed, [.exit .master])

/-- `E()` in a client. -/
def exitClient (i : ℕ) : Control × List CtlObs := (s.goClient i .failed, [.exit (.client i)])

/-- The end of the test of the loop in `main`. -/
def timeIsUp (curTime : ℕ) : Prop := c.duration + c.warmup ≤ curTime

instance (curTime : ℕ) : Decidable (timeIsUp c curTime) :=
  inferInstanceAs (Decidable (c.duration + c.warmup ≤ curTime))

/-- The master, where it does not wait for an event. -/
def stepMaster : Option (Control × List CtlObs) :=
  match s.master with
  | .connecting i =>
    if i < c.clientNum then some ((s.sendClient i .options).goMaster (.connecting (i + 1)), [])
    else some (s.goMaster .threads, [])
  | .threads => some (s.goMaster (.waitOk []), [])
  | .waitOk acked =>
    if acked.length < c.clientNum then none else some (s.goMaster (.sendStart 0), [])
  | .sendStart i =>
    if i < c.clientNum then
      some ((s.sendClient i (.int msgTestStart)).goMaster (.sendStart (i + 1)), [])
    else some (s.goMaster (.running 0), [])
  | .running curTime => if timeIsUp c curTime then some (s.goMaster (.sendStop 0), []) else none
  | .sendStop i =>
    if i < c.clientNum then
      some ((s.sendClient i (.int msgTestStop)).goMaster (.sendStop (i + 1)), [])
    else some (s.goMaster (.recvQps 0 0), [])
  | .recvQps tot qps => if tot < c.clientNum then none else some (s.goMaster (.waitClose 0 qps), [])
  | .waitClose stopCnt qps =>
    if stopCnt < c.clientNum then none
    else
      let total := toInt (c.masterQps + qps)
      some (s.goMaster (.done total), [.total total])
  | .done _ => none
  | .failed => none

/-- The loops of the master around `kevent()`. -/
def keventMaster (ev : CtlEvent) : Option (Control × List CtlObs) :=
  match s.master, ev with
  | .waitOk acked, .conn i =>
    if acked.length < c.clientNum ∧ s.readyAtMaster c i then
      match s.toMaster i with
      | [] => some s.exitMaster
      | msg :: _ =>
        if msg ≠ msgTestOk ∨ i ∈ acked then some (s.dropMaster i).exitMaster
        else some ((s.dropMaster i).goMaster (.waitOk (i :: acked)), [])
    else none
  | .running curTime, .timer =>
    if timeIsUp c curTime then none else some (s.goMaster (.running (curTime + 1)), [])
  | .running curTime, .conn i =>
    if ¬ timeIsUp c curTime ∧ s.readyAtMaster c i then
      if s.eofAtMaster i then some s.exitMaster
      else
        match s.toMaster i with
        | [] => some s.exitMaster
        | msg :: _ =>
          if msg = msgTestStop then some ((s.dropMaster i).goMaster (.sendStop 0), [])
          else some (s.dropMaster i).exitMaster
    else none
  | .recvQps tot _, .timer =>
    -- `readbuf` of the descriptor `TIMER_FD` fails
    if tot < c.clientNum then
      some (s.exitMaster.1, [.tookTimer .master, .exit .master])
    else none
  | .recvQps tot qps, .conn i =>
    if tot < c.clientNum ∧ s.readyAtMaster c i then
      if s.eofAtMaster i then some (s, [])
      else
        match s.toMaster i with
        | [] => some s.exitMaster
        | msg :: _ =>
          some (((s.dropMaster i).sendClient i (.int msgTestQpsAck)).goMaster
            (.recvQps (tot + 1) (toInt (qps + msg))), [.readQps i msg])
    else none
  | .waitClose stopCnt _, .timer => if stopCnt < c.clientNum then some (s, []) else none
  | .waitClose stopCnt qps, .conn i =>
    if stopCnt < c.clientNum ∧ s.readyAtMaster c i then
      if s.eofAtMaster i then
        some (goMaster { s with clientFd := Function.update s.clientFd i false }
          (.waitClose (stopCnt + 1) qps), [])
      else some (s, [])
    else none
  | _, _ => none

/-- A client, where it does not wait for an event. -/
def stepClient (i : ℕ) : Option (Control × List CtlObs) :=
  match s.client i with
  | .prepare =>
    match s.toClient i with
    | .options :: _ => some ((s.dropClient i).goClient i .connect, [])
    | _ => none
  | .connect => some ((s.sendMaster i msgTestOk).goClient i .start, [])
  | .sendQps => some ((s.sendMaster i (c.clientQps i)).goClient i .ack, [])
  | .closing => some (s.goClient i .closed, [.closed i])
  | _ => none

/-- The places of a client with a `kevent()`. -/
def keventClient (i : ℕ) (ev : CtlEvent) : Option (Control × List CtlObs) :=
  match s.client i, ev with
  | .start, .conn j =>
    if j = i ∧ s.readyAtClient i then
      if (s.toClient i).head? = some (.int msgTestStart) then
        some ((s.dropClient i).goClient i .running, [])
      else some ((s.dropClient i).exitClient i)
    else none
  | .running, .timer => some (s, [])
  | .running, .conn j =>
    if j = i ∧ s.readyAtClient i then
      if s.eofAtClient i then some (s.exitClient i)
      else if (s.toClient i).head? = some (.int msgTestStop) then
        some ((s.dropClient i).goClient i .sendQps, [])
      else some ((s.dropClient i).exitClient i)
    else none
  | .ack, .timer => some ((s.exitClient i).1, [.tookTimer (.client i), .exit (.client i)])
  | .ack, .conn j =>
    if j = i ∧ s.readyAtClient i then
      if (s.toClient i).head? = some (.int msgTestQpsAck) then
        some ((s.dropClient i).goClient i .closing, [.readAck i])
      else some ((s.dropClient i).exitClient i)
    else none
  | _, _ => none

/-- One step of one process. -/
def step : CtlLabel → Option (Control × List CtlObs)
  | .master => s.stepMaster c
  | .masterKevent ev => s.keventMaster c ev
  | .client i => s.stepClient c i
  | .clientKevent i ev => s.keventClient i ev

/-- All processes are started. -/
def init : Control where
  master := .connecting 0
  client := fun _ => .prepare
  toClient := fun _ => []
  toMaster := fun _ => []
  clientFd := fun _ => true

/-- No `kevent()` of `master_recv_qps` or `client_send_qps` returns the timer event. -/
def NoTimer : CtlLabel → Prop
  | .masterKevent .timer => ∀ tot qps, s.master ≠ .recvQps tot qps
  | .clientKevent i .timer => s.client i ≠ .ack
  | _ => True

/-! ## What the protocol is for -/

/-- The sum of all counts. -/
def sumQps : ℤ := c.masterQps + ∑ i ∈ Finset.range c.clientNum, (c.clientQps i : ℤ)

/-- The counts read from a client. -/
def countsOf (i : ℕ) (tr : List CtlObs) : List ℤ :=
  tr.filterMap fun
    | .readQps j msg => if j = i then some msg else none
    | _ => none

/-- The master has its total, and every client has closed its connection. -/
def Finished : Prop :=
  s.master = .done (sumQps c) ∧ ∀ i < c.clientNum, s.client i = .closed

/-- What is asked of the protocol: no timer event is taken for a message and no process exits with an
error; at most one count is read from every client, and it is that client's; the total is the sum,
with exactly one count from each; every client has its ACK before it closes; and however the protocol
went so far, it can be finished. -/
structure ProtocolOK (tr : List CtlObs) : Prop where
  noTimer : ∀ p, .tookTimer p ∉ tr
  noExit : ∀ p, .exit p ∉ tr
  counts : ∀ i, countsOf i tr = [] ∨ i < c.clientNum ∧ countsOf i tr = [(c.clientQps i : ℤ)]
  total : ∀ qps, .total qps ∈ tr →
    qps = sumQps c ∧ ∀ i < c.clientNum, countsOf i tr = [(c.clientQps i : ℤ)]
  ack : ∀ i, Precedes (· = .readAck i) (· = .closed i) tr
  finishes : ∃ s' tr', Run (step c) NoTimer s tr' s' ∧ s'.Finished c

end Control

end Skq.Pingpong
