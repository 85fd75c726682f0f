import Mathlib.Algebra.Order.BigOperators.Group.Finset
import Mathlib.Data.Int.ModEq
import Mathlib.Data.List.Perm.Subperm
import Mathlib.Tactic.Ring
import SkqBench.Lib.Count
import SkqBench.Lib.Run
import SkqBench.Pingpong.Util

/-!
# The connection ids of an experiment

The master of dismember sends its `options` to every client, and adds the connections of a client to
`global_conn_start_idx` after each send; then it puts its own numbers of connections and threads in
place.  The worker threads of every process draw the ids of their connections from the copy of the
counter they have.

A step is one send, one receive, or one connection established by one thread; a run is one
interleaving.  A failed `connect` ends the process, and a failed `socket` is tried again: there is no
step for either.  The addresses of the clients, the output file and the generator are left out.
-/

namespace Skq.Pingpong

open Lib

/-- An `int` divided by a `size_t` and stored in an `int`. -/
def divSize (x : ℤ) (n : ℕ) : ℤ := toInt (x % 2 ^ 64 / n)

/-- The `option`s that are read. -/
structure Options where
  clientNum : ℤ
  clientThreadCount : ℤ
  masterThreadCount : ℤ
  clientConn : ℤ
  masterConn : ℤ
  targetQps : ℤ
  masterQps : ℤ
  masterMode : ℤ
  clientMode : ℤ
  globalConnStartIdx : ℤ
  deriving DecidableEq

/-- The command line of a master, as `getopt` accepts it. -/
structure Settings where
  clientIps : ℕ
  clientThreadCount : ℤ
  masterThreadCount : ℤ
  clientConn : ℤ
  masterConn : ℤ
  targetQps : ℤ
  masterQps : ℤ
  clientIps_pos : 0 < clientIps
  clientThreadCount_pos : 0 < clientThreadCount
  masterThreadCount_pos : masterThreadCount = -1 ∨ 0 < masterThreadCount
  clientConn_pos : 0 < clientConn
  masterConn_pos : masterConn = -1 ∨ 0 < masterConn
  targetQps_nonneg : 0 ≤ targetQps
  masterQps_nonneg : masterQps = -1 ∨ 0 ≤ masterQps

/-- The options after the command line is read. -/
def Settings.options (c : Settings) : Options where
  clientNum := c.clientIps
  clientThreadCount := c.clientThreadCount
  masterThreadCount := c.masterThreadCount
  clientConn := c.clientConn
  masterConn := c.masterConn
  targetQps := c.targetQps
  masterQps := c.masterQps
  masterMode := 1
  clientMode := 0
  globalConnStartIdx := 0

/-! ## `prepare_clients` -/

/-- `real_conn`. -/
def Options.realConn (o : Options) : ℤ := if o.masterConn = -1 then o.clientConn else o.masterConn

/-- `real_thread`. -/
def Options.realThread (o : Options) : ℤ :=
  if o.masterThreadCount = -1 then o.clientThreadCount else o.masterThreadCount

/-- `real_qps`. -/
def Options.realQps (o : Options) : ℤ :=
  if o.masterQps ≠ -1 then o.masterQps
  else
    (toInt (o.targetQps * (o.realConn * o.realThread))).tdiv
      (o.realConn * o.realThread + o.clientNum * o.clientConn * o.clientThreadCount)

/-- The local variables of `prepare_clients`. -/
structure Real where
  conn : ℤ
  thread : ℤ
  qps : ℤ
  deriving DecidableEq

/-- Where the main thread of the master is: before `prepare_clients`, in its loop, or past the creation
of the worker threads. -/
inductive MasterAt
  | enter
  | connecting (real : Real)
  | created
  deriving DecidableEq

/-- The processes of an experiment. -/
inductive Party
  | master
  | client (i : ℕ)
  deriving DecidableEq

/-- A process: its options, whether its worker threads exist, and how many connections each of them
has established. -/
structure Process where
  options : Options
  created : Bool
  conns : ℕ → ℕ

/-- All processes, and the options that were written to the clients. -/
structure Experiment where
  procs : Party → Process
  pc : MasterAt
  sent : List Options

/-- What happens next.
* `prepare`, `send`, `adjust`: the three parts of `prepare_clients`, the middle one once a client.
* `receive`: `wait_master_prepare` of a client reads the options.
* `establish`: a worker thread establishes its next connection. -/
inductive IdLabel
  | prepare
  | send
  | adjust
  | receive (i : ℕ)
  | establish (p : Party) (t : ℕ)

/-- The body of the loop in `worker_thread`, with the id of the connection. -/
def Process.establish (P : Process) (t : ℕ) : Option (Process × ℤ) :=
  if P.created ∧ t < P.options.clientThreadCount ∧ P.conns t < P.options.clientConn then
    let id := P.options.globalConnStartIdx
    some ({ P with
      options := { P.options with globalConnStartIdx := toInt (id + 1) }
      conns := Function.update P.conns t (P.conns t + 1) }, id)
  else none

/-- The process `p` goes on as `P`. -/
def Experiment.set (s : Experiment) (p : Party) (P : Process) : Experiment :=
  { s with procs := Function.update s.procs p P }

@[simp] lemma Experiment.set_self (s : Experiment) (p : Party) (P : Process) :
    (s.set p P).procs p = P :=
  Function.update_self ..

/-- One step.  The ids that are drawn are observed. -/
def Experiment.step (c : Settings) (s : Experiment) :
    IdLabel → Option (Experiment × List (Party × ℤ))
  | .prepare =>
    if s.pc = .enter then
      let o := (s.procs .master).options
      let real : Real := ⟨o.realConn, o.realThread, o.realQps⟩
      let o := { o with targetQps := divSize (o.targetQps - real.qps) c.clientIps }
      some ({ s.set .master { s.procs .master with options := o } with pc := .connecting real }, [])
    else none
  | .send =>
    match s.pc with
    | .connecting _ =>
      if s.sent.length < c.clientIps then
        let o := (s.procs .master).options
        let idx := toInt (o.globalConnStartIdx + o.clientConn * o.clientThreadCount)
        some ({ s.set .master { s.procs .master with options := { o with globalConnStartIdx := idx } } with
          sent := s.sent ++ [o] }, [])
      else none
    | _ => none
  | .adjust =>
    match s.pc with
    | .connecting real =>
      if s.sent.length = c.clientIps then
        let o := { (s.procs .master).options with
          clientConn := real.conn, clientThreadCount := real.thread, targetQps := real.qps }
        some ({ s.set .master { s.procs .master with options := o, created := true } with
          pc := .created }, [])
      else none
    | _ => none
  | .receive i =>
    match s.sent[i]? with
    | some o =>
      if (s.procs (.client i)).created then none
      else
        let o := { o with masterMode := 0, clientMode := 1 }
        some (s.set (.client i) { s.procs (.client i) with options := o, created := true }, [])
    | none => none
  | .establish p t =>
    ((s.procs p).establish t).map fun (P, id) => (s.set p P, [(p, id)])

/-- The master has read its command line; what the clients have before they hear from it does not
matter. -/
def Experiment.init (c : Settings) (own : ℕ → Options) : Experiment where
  procs
    | .master => ⟨c.options, false, fun _ => 0⟩
    | .client i => ⟨own i, false, fun _ => 0⟩
  pc := .enter
  sent := []

/-! ## What the ids are used for -/

/-- `DT_SZ`. -/
def dtSz : ℤ := 100

/-- `delay_table`, as `populate_delay_table` leaves it: there is one for all connections. -/
def delayTable : List ℤ := 200 :: (List.replicate 4 50 ++ List.replicate 95 10)

/-- The entry of `delay_table` that `get_delay` reads. -/
def delayEntry (connId : ℤ) : ℤ := connId.tmod dtSz

/-- `echo_gen::get_delay`; `generated` is what `wgen->generate()` returns. -/
def getDelay (cdelay generated connId : ℤ) : Option ℤ :=
  if cdelay ≠ 0 then delayTable[(delayEntry connId).toNat]? else some generated

/-! ## The share of every process -/

namespace Settings

variable (c : Settings)

/-- The number of threads of a process. -/
def threads : Party → ℤ
  | .master => c.options.realThread
  | .client _ => c.clientThreadCount

/-- The number of connections of a thread. -/
def perThread : Party → ℤ
  | .master => c.options.realConn
  | .client _ => c.clientConn

/-- The processes that take part. -/
def member : Party → Prop
  | .master => True
  | .client i => i < c.clientIps

/-- The first id of a process: the clients come first, in order. -/
def base : Party → ℤ
  | .master => c.clientIps * (c.clientConn * c.clientThreadCount)
  | .client i => i * (c.clientConn * c.clientThreadCount)

/-- The number of all connections. -/
def total : ℤ :=
  c.clientIps * c.clientThreadCount * c.clientConn + c.options.realThread * c.options.realConn

end Settings

namespace Settings

variable (c : Settings) {p q : Party}

lemma realThread_pos : 0 < c.options.realThread := by
  rw [Options.realThread]
  split
  · exact c.clientThreadCount_pos
  · next h => exact c.masterThreadCount_pos.resolve_left h

lemma realConn_pos : 0 < c.options.realConn := by
  rw [Options.realConn]
  split
  · exact c.clientConn_pos
  · next h => exact c.masterConn_pos.resolve_left h

end Settings

/-! ## The invariant -/

open Finset in
/-- How many connections the first `T` threads have established. -/
def Process.drawn (P : Process) (T : ℤ) : ℤ := ∑ t ∈ range T.toNat, (P.conns t : ℤ)

/-- A process that draws ids from `base` on, with `T` threads of `C` connections each. -/
structure Process.Draws (P : Process) (base T C : ℤ) : Prop where
  idle : P.created = false → ∀ t, P.conns t = 0
  le : ∀ t, P.conns t ≤ C
  threads : P.created = true → P.options.clientThreadCount = T
  perThread : P.created = true → P.options.clientConn = C
  counter : P.created = true → P.options.globalConnStartIdx = base + P.drawn T

/-- The options a client gets, or will get. -/
structure Options.Fresh (o : Options) (c : Settings) (i : ℕ) : Prop where
  threads : o.clientThreadCount = c.clientThreadCount
  perThread : o.clientConn = c.clientConn
  counter : o.globalConnStartIdx = c.base (.client i)

/-- The main thread of the master. -/
def Experiment.MasterOK (c : Settings) (s : Experiment) : Prop :=
  match s.pc with
  | .enter => s.sent = [] ∧ (s.procs .master).created = false ∧ (s.procs .master).options = c.options
  | .connecting real =>
    (s.procs .master).created = false ∧ (s.procs .master).options.Fresh c s.sent.length ∧
      real.conn = c.options.realConn ∧ real.thread = c.options.realThread
  | .created => (s.procs .master).created = true

/-- The invariant: every process draws from its own block, and the ids observed are those drawn. -/
structure Experiment.Inv (c : Settings) (s : Experiment) (tr : List (Party × ℤ)) : Prop where
  master : s.MasterOK c
  length : s.sent.length ≤ c.clientIps
  sent : ∀ i (o : Options), s.sent[i]? = some o → o.Fresh c i
  created : ∀ p, (s.procs p).created = true → c.member p
  draws : ∀ p, (s.procs p).Draws (c.base p) (c.threads p) (c.perThread p)
  observed : ∀ p id, (p, id) ∈ tr ↔
    c.base p ≤ id ∧ id < c.base p + (s.procs p).drawn (c.threads p)
  nodup : (tr.map Prod.snd).Nodup

section Draws

variable {P P' : Process} {base T C : ℤ} {t : ℕ} {id : ℤ}

end Draws

/-! ## One step -/

section Step

variable {c : Settings} {s s' : Experiment} {tr o : List (Party × ℤ)} {p : Party} {P : Process}
  {l : IdLabel}

end Step

/-! ## Runs -/

section Runs

variable {c : Settings} {own : ℕ → Options} {s : Experiment} {tr : List (Party × ℤ)}

end Runs

/-! ## Two runs -/

/-- One client with 100 connections, and a master with one. -/
def hundredAndOne : Settings where
  clientIps := 1
  clientThreadCount := 1
  masterThreadCount := 1
  clientConn := 100
  masterConn := 1
  targetQps := 1000
  masterQps := -1
  clientIps_pos := by decide
  clientThreadCount_pos := by decide
  masterThreadCount_pos := by decide
  clientConn_pos := by decide
  masterConn_pos := by decide
  targetQps_nonneg := by decide
  masterQps_nonneg := by decide

/-- Two clients with two threads of one connection each; the master takes the same. -/
def twoClients : Settings where
  clientIps := 2
  clientThreadCount := 2
  masterThreadCount := -1
  clientConn := 1
  masterConn := -1
  targetQps := 1000
  masterQps := -1
  clientIps_pos := Nat.two_pos
  clientThreadCount_pos := by decide
  masterThreadCount_pos := by decide
  clientConn_pos := by decide
  masterConn_pos := by decide
  targetQps_nonneg := by decide
  masterQps_nonneg := by decide

end Skq.Pingpong
