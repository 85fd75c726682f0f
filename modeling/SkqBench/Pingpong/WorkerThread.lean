import Mathlib.Logic.Function.Basic
import SkqBench.Lib.Run
import SkqBench.Pingpong.KqConn
import SkqBench.Pingpong.ReqProc

/-!
# `dismember.cc`: a worker and the bytes it reads

`ev_loop` calls `read_resp` once for each read event, and takes one response off `depth` whatever
that call has read.  `WorkerThread` is a thread with its connections.  A connection has the bytes
that have arrived and those on the way: TCP delivers as many at a time as it likes, also while
`read_resp` waits for them.  The server sends one response to each request, in the order of the
requests of a connection.

`cnt` and the vector of values belong to the thread.  `cnt` is an `int`.
-/

namespace Skq.Pingpong

open Lib

/-! ## Reading a response -/

/-- `CONS_SZ`. -/
def consSz : ℕ := 1024 * 1024 * 4

/-- `http_gen::read_resp`, which consumes everything: one `read()`. -/
def httpReadResp (buf : ℕ) (io : Io) : Option RespRead :=
  match io.recv buf consSz with
  | none => none
  | some (ret, io) => some ⟨some ret, io, []⟩

/-- `WORKLOAD_TYPE`. -/
inductive Workload
  | echo | touch | rdb | http
  deriving DecidableEq, Repr

namespace Workload

/-- `read_resp` of the workload. -/
def readResp (pb : Protobuf) (buf : ℕ) : Workload → Io → Option RespRead
  | .echo => echoReadResp pb buf
  | .touch => touchReadResp pb buf
  | .rdb => rdbReadResp pb buf
  | .http => httpReadResp buf

/-- A response on the wire: `writemsg` of the server sends what fits into its buffer as a frame, and an
HTTP response is not empty. -/
def encode : Workload → List UInt8 → Option (List UInt8)
  | .http, resp => if resp = [] then none else some resp
  | _, resp => if headerSize + resp.length ≤ maxBufSize then some (frame resp) else none

end Workload

/-! ## The worker -/

/-- What does not change: the workload, protobuf, the address of the buffer, and `client_mode`. -/
structure ThreadCfg where
  workload : Workload
  pb : Protobuf
  buf : ℕ
  clientMode : Bool

/-- A connection of a worker: `timer` is its knote, `wire` what the server has sent and has not arrived,
`asked` the number of requests that were completely written and that the server has not answered. -/
structure Flow where
  conn : KqConn
  timer : Bool
  io : Io
  wire : List UInt8
  asked : ℕ

/-- The first `n` bytes on the way arrive. -/
def Flow.arrive (flow : Flow) (n : ℕ) : Flow :=
  { flow with
    io := { flow.io with rx := flow.io.rx ++ flow.wire.take n }
    wire := flow.wire.drop n }

/-- The connection as `kqconn_state_machine` finds it. -/
def Flow.session (flow : Flow) : Session where
  conn := flow.conn
  phase := .machine
  timer := flow.timer
  read := true
  unanswered := flow.asked
  cnt := 0
  stats := []

/-- Where the worker is: in `kevent()`, in `kqconn_state_machine` for a connection, behind its loop, or
gone with the process. -/
inductive ThreadPhase (ι : Type*)
  | kevent
  | machine (c : ι)
  | cleanup
  | exited
  deriving DecidableEq, Repr

structure WorkerThread (ι : Type*) where
  flow : ι → Flow
  phase : ThreadPhase ι
  cnt : ℤ
  stats : List ℤ

/-- An answer that `ev_loop` has counted: the clock, whether the warm-up was over, and the value it
has appended. -/
structure Done where
  clock : ℤ
  warm : Bool
  lat : Option ℤ
  deriving DecidableEq, Repr

/-- What is observed: a request is sent, with the result; the server sends a response; a `read_resp`
that has not failed has read these bytes; an answer is counted; "More recved packets than sent". -/
inductive ThreadObs (ι : Type*)
  | sent (c : ι) (clock status : ℤ)
  | answered (c : ι) (resp : List UInt8)
  | read (c : ι) (bytes : List UInt8)
  | completed (c : ι) (x : Done)
  | overrun (c : ι)
  deriving DecidableEq, Repr

/-- What happens next: the server answers, bytes arrive, the worker takes an event or goes on.  `more`
bytes arrive before `read_resp` has what it waits for. -/
inductive ThreadLabel (ι : Type*)
  | answer (c : ι) (resp : List UInt8)
  | arrive (c : ι) (n : ℕ)
  | timerEvent (c : ι)
  | readEvent (c : ι) (more : ℕ) (warm : Bool) (clock : ℤ)
  | eof
  | iterate (i : Inputs)
  | stop
  deriving DecidableEq, Repr

namespace WorkerThread

variable {ι : Type*} [DecidableEq ι]

/-- The worker enters its loop: the clock was `start` when `next_send` was set, `last_send` is not
initialized. -/
def init (start lastSend : ι → ℤ) (io : ι → Io) : WorkerThread ι where
  flow c :=
    { conn := ⟨false, 0, .waiting, toUint64 (start c), lastSend c⟩
      timer := true
      io := { io c with rx := [], tx := [] }
      wire := []
      asked := 0 }
  phase := .kevent
  cnt := 0
  stats := []

variable (cfg : ThreadCfg) (w : WorkerThread ι)

/-- The process ends. -/
def exit (o : List (ThreadObs ι)) : Option (WorkerThread ι × List (ThreadObs ι)) :=
  some ({ w with phase := .exited }, o)

/-- The server answers the next request of a connection. -/
def answer (c : ι) (resp : List UInt8) : Option (WorkerThread ι × List (ThreadObs ι)) :=
  let flow := w.flow c
  if flow.asked = 0 then none
  else
    match cfg.workload.encode resp with
    | none => none
    | some bytes =>
      let flow := { flow with wire := flow.wire ++ bytes, asked := flow.asked - 1 }
      some ({ w with flow := Function.update w.flow c flow }, [.answered c bytes])

/-- `ev_loop` for a timer event. -/
def timerEvent (c : ι) : Option (WorkerThread ι × List (ThreadObs ι)) :=
  let flow := w.flow c
  if flow.timer then
    let flow := { flow with timer := false, conn := { flow.conn with timerExpired := true } }
    some ({ w with flow := Function.update w.flow c flow, phase := .machine c }, [])
  else none

/-- `ev_loop` for a read event; `none` if there is none, or if `read_resp` waits for more than `more`
bytes. -/
def readEvent (c : ι) (more : ℕ) (warm : Bool) (clock : ℤ) :
    Option (WorkerThread ι × List (ThreadObs ι)) :=
  if (w.flow c).io.rx = [] then none
  else
    let flow := (w.flow c).arrive more
    match cfg.workload.readResp cfg.pb cfg.buf flow.io with
    | none => none
    | some r =>
      match r.ret with
      | none => w.exit []
      | some status =>
        if status < 0 then w.exit []
        else
          let bytes := flow.io.rx.take (flow.io.rx.length - r.io.rx.length)
          let conn : KqConn := { flow.conn with depth := flow.conn.depth - 1 }
          if conn.depth < 0 then w.exit [.read c bytes, .overrun c]
          else
            let lat := if warm && !cfg.clientMode then some (toUint64 (clock - conn.lastSend)) else none
            let w' : WorkerThread ι :=
              { flow := Function.update w.flow c { flow with conn := conn, io := r.io }
                phase := .machine c
                cnt := if warm then toInt (w.cnt + 1) else w.cnt
                stats := w.stats ++ lat.toList }
            some (w', [.read c bytes, .completed c ⟨clock, warm, lat⟩])

/-- What an iteration is observed to do. -/
def observe (c : ι) (clock : ℤ) : ConnObs → Option (ThreadObs ι)
  | .sent status => some (.sent c clock status)
  | _ => none

/-- One iteration of `kqconn_state_machine`. -/
def iterate (c : ι) (i : Inputs) : Option (WorkerThread ι × List (ThreadObs ι)) :=
  let flow := w.flow c
  match flow.session.iterate i with
  | none => none
  | some (s, o) =>
    let flow := { flow with conn := s.conn, timer := s.timer, asked := s.unanswered }
    let phase := match s.phase with
      | .machine => .machine c
      | .kevent => .kevent
      | _ => .exited
    some ({ w with flow := Function.update w.flow c flow, phase := phase },
      o.filterMap (observe c i.clock))

/-- One step. -/
def step (w : WorkerThread ι) (l : ThreadLabel ι) : Option (WorkerThread ι × List (ThreadObs ι)) :=
  match w.phase, l with
  | _, .answer c resp => w.answer cfg c resp
  | _, .arrive c n => some ({ w with flow := Function.update w.flow c ((w.flow c).arrive n) }, [])
  | .kevent, .timerEvent c => w.timerEvent c
  | .kevent, .readEvent c more warm clock => w.readEvent cfg c more warm clock
  | .kevent, .eof => w.exit []
  | .kevent, .stop => some ({ w with phase := .cleanup }, [])
  | .machine c, .iterate i => w.iterate c i
  | _, _ => none

end WorkerThread

/-! ## What a step does -/

section

variable {ι : Type*} [DecidableEq ι] {cfg : ThreadCfg} {w w' : WorkerThread ι} {l : ThreadLabel ι}
  {o : List (ThreadObs ι)}

/-- The connection has the same requests and the same bytes before it. -/
structure Flow.Calm (flow flow' : Flow) : Prop where
  depth : flow'.conn.depth = flow.conn.depth
  lastSend : flow'.conn.lastSend = flow.conn.lastSend
  bytes : flow'.io.rx ++ flow'.wire = flow.io.rx ++ flow.wire
  asked : flow'.asked = flow.asked

lemma Flow.Calm.refl (flow : Flow) : flow.Calm flow := ⟨rfl, rfl, rfl, rfl⟩

lemma Flow.calm_arrive (flow : Flow) (n : ℕ) : flow.Calm (flow.arrive n) := by
  refine ⟨rfl, rfl, ?_, rfl⟩
  simp [Flow.arrive]

/-- A request is sent with the given result. -/
structure Flow.Sends (flow flow' : Flow) (clock status : ℤ) : Prop where
  room : flow.conn.depth < depthLimit
  depth : flow'.conn.depth = flow.conn.depth + 1
  lastSend : flow'.conn.lastSend = toInt64 clock
  bytes : flow'.io.rx ++ flow'.wire = flow.io.rx ++ flow.wire
  asked : flow'.asked = flow.asked + if status = 0 then 1 else 0

/-- **What a step can do.** -/
inductive WorkerThread.Does (cfg : ThreadCfg) (w : WorkerThread ι) (l : ThreadLabel ι) (w' : WorkerThread ι) :
    List (ThreadObs ι) → Prop
  | calm (hflow : ∀ c, (w.flow c).Calm (w'.flow c)) (hcnt : w'.cnt = w.cnt)
      (hstats : w'.stats = w.stats) : Does cfg w l w' []
  | sends (c : ι) (flow : Flow) (clock status : ℤ) (hsends : (w.flow c).Sends flow clock status)
      (hflow : w'.flow = Function.update w.flow c flow) (hcnt : w'.cnt = w.cnt)
      (hstats : w'.stats = w.stats) : Does cfg w l w' [.sent c clock status]
  | answers (c : ι) (resp bytes : List UInt8) (hresp : cfg.workload.encode resp = some bytes)
      (hasked : (w.flow c).asked ≠ 0)
      (hflow : w'.flow = Function.update w.flow c { w.flow c with
        wire := (w.flow c).wire ++ bytes
        asked := (w.flow c).asked - 1 })
      (hcnt : w'.cnt = w.cnt) (hstats : w'.stats = w.stats) : Does cfg w l w' [.answered c bytes]
  | reads (c : ι) (more : ℕ) (x : Done) (flow : Flow) (status : ℤ) (r : RespRead)
      (hl : l = .readEvent c more x.warm x.clock) (harr : flow = (w.flow c).arrive more)
      (hrx : (w.flow c).io.rx ≠ []) (hnonneg : 0 ≤ status)
      (hread : cfg.workload.readResp cfg.pb cfg.buf flow.io = some r) (hret : r.ret = some status)
      (hdepth : 0 < flow.conn.depth)
      (hlat : x.lat = if x.warm && !cfg.clientMode then
        some (toUint64 (x.clock - flow.conn.lastSend)) else none)
      (hflow : w'.flow = Function.update w.flow c { flow with
        conn := { flow.conn with depth := flow.conn.depth - 1 }
        io := r.io })
      (hcnt : w'.cnt = if x.warm then toInt (w.cnt + 1) else w.cnt)
      (hstats : w'.stats = w.stats ++ x.lat.toList) :
      Does cfg w l w' [.read c (flow.io.rx.take (flow.io.rx.length - r.io.rx.length)), .completed c x]
  | overruns (c : ι) (more : ℕ) (warm : Bool) (clock : ℤ) (flow : Flow) (status : ℤ) (r : RespRead)
      (hl : l = .readEvent c more warm clock) (harr : flow = (w.flow c).arrive more)
      (hrx : (w.flow c).io.rx ≠ []) (hnonneg : 0 ≤ status)
      (hread : cfg.workload.readResp cfg.pb cfg.buf flow.io = some r) (hret : r.ret = some status)
      (hdepth : flow.conn.depth ≤ 0) (hflow : w'.flow = w.flow) :
      Does cfg w l w' [.read c (flow.io.rx.take (flow.io.rx.length - r.io.rx.length)), .overrun c]

/-- The other connections are as they were. -/
lemma calm_update {c : ι} (flow : Flow) (h : (w.flow c).Calm flow)
    (hflow : w'.flow = Function.update w.flow c flow) (d : ι) : (w.flow d).Calm (w'.flow d) := by
  rw [hflow]
  by_cases hd : d = c
  · subst hd
    simpa using h
  · rw [Function.update_of_ne hd]
    exact .refl _

omit [DecidableEq ι] in
/-- An iteration sends a request, or leaves the requests and the bytes alone. -/
lemma session_iterate_cases {flow : Flow} {i : Inputs} {s : Session} {os : List ConnObs}
    (hs : flow.session.iterate i = some (s, os)) :
    (∃ status, os = [.sent status] ∧
      flow.Sends { flow with conn := s.conn, timer := s.timer, asked := s.unanswered } i.clock status) ∨
    (∀ c : ι, os.filterMap (WorkerThread.observe c i.clock) = []) ∧
      flow.Calm { flow with conn := s.conn, timer := s.timer, asked := s.unanswered } := by
  simp only [Session.iterate] at hs
  split at hs
  · split at hs
    · split at hs
      · split at hs
        · cases hs
          exact .inr ⟨fun _ => rfl, ⟨rfl, rfl, rfl, rfl⟩⟩
        · cases hs
          exact .inr ⟨fun _ => rfl, ⟨rfl, rfl, rfl, rfl⟩⟩
      · cases hs
        exact .inr ⟨fun _ => rfl, ⟨rfl, rfl, rfl, rfl⟩⟩
    · cases hs
      exact .inr ⟨fun _ => rfl, ⟨rfl, rfl, rfl, rfl⟩⟩
  · split at hs
    · cases hs
      exact .inr ⟨fun _ => rfl, ⟨rfl, rfl, rfl, rfl⟩⟩
    · cases hs
      exact .inr ⟨fun _ => rfl, ⟨rfl, rfl, rfl, rfl⟩⟩
  · split at hs
    · cases hs
      exact .inr ⟨fun _ => rfl, ⟨rfl, rfl, rfl, rfl⟩⟩
    · next hlimit =>
      split at hs
      · cases hs
        exact .inr ⟨fun _ => rfl, ⟨rfl, rfl, rfl, rfl⟩⟩
      · split at hs
        · cases hs
          exact .inr ⟨fun _ => rfl, ⟨rfl, rfl, rfl, rfl⟩⟩
        · next status hsend =>
          cases hs
          refine .inl ⟨status, rfl, not_le.1 hlimit, rfl, rfl, rfl, ?_⟩
          by_cases hst : status = 0
          · simp [hst, Flow.session]
          · simp [hst, Flow.session]

lemma iterate_does {c : ι} {i : Inputs} (hs : w.iterate c i = some (w', o)) : w.Does cfg l w' o := by
  simp only [WorkerThread.iterate] at hs
  split at hs
  · cases hs
  · next s os hit =>
    cases hs
    rcases session_iterate_cases (ι := ι) hit with ⟨status, rfl, hsends⟩ | ⟨hquiet, hcalm⟩
    · exact .sends c _ i.clock status hsends rfl rfl rfl
    · rw [hquiet c]
      exact .calm (calm_update _ hcalm rfl) rfl rfl

lemma readEvent_does {c : ι} {more : ℕ} {warm : Bool} {clock : ℤ}
    (hs : w.readEvent cfg c more warm clock = some (w', o)) :
    w.Does cfg (.readEvent c more warm clock) w' o := by
  simp only [WorkerThread.readEvent] at hs
  split at hs
  · cases hs
  · next hrx =>
    split at hs
    · cases hs
    · next r hread =>
      split at hs
      · cases hs
        exact .calm (fun _ => .refl _) rfl rfl
      · next status hret =>
        split at hs
        · cases hs
          exact .calm (fun _ => .refl _) rfl rfl
        · next hneg =>
          split at hs
          · next hdepth =>
            cases hs
            exact .overruns c more warm clock _ status r rfl rfl hrx (not_lt.1 hneg) hread hret
              (by omega) rfl
          · next hdepth =>
            cases hs
            exact .reads c more ⟨clock, warm, _⟩ _ status r rfl rfl hrx (not_lt.1 hneg) hread hret
              (by omega) rfl rfl rfl rfl

lemma WorkerThread.step_does (hs : w.step cfg l = some (w', o)) : w.Does cfg l w' o := by
  simp only [WorkerThread.step] at hs
  split at hs
  · next c resp =>
    simp only [WorkerThread.answer] at hs
    split at hs
    · cases hs
    · next hasked =>
      split at hs
      · cases hs
      · next bytes hresp =>
        cases hs
        exact .answers c resp bytes hresp hasked rfl rfl rfl
  · next c n =>
    cases hs
    exact .calm (calm_update _ (Flow.calm_arrive _ n) rfl) rfl rfl
  · next c hphase =>
    simp only [WorkerThread.timerEvent] at hs
    split at hs
    · cases hs
      refine .calm (calm_update { w.flow c with
        timer := false
        conn := { (w.flow c).conn with timerExpired := true } } ⟨rfl, rfl, rfl, rfl⟩ rfl) rfl rfl
    · cases hs
  · exact readEvent_does hs
  · cases hs
    exact .calm (fun _ => .refl _) rfl rfl
  · cases hs
    exact .calm (fun _ => .refl _) rfl rfl
  · exact iterate_does hs
  · cases hs

end

end Skq.Pingpong
