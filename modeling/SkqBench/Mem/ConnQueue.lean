import SkqBench.Evcompat.Event
import SkqBench.Lib.Chain
import SkqBench.Lib.Count
import SkqBench.Lib.Run

/-!
# Handing connections to the workers

`thread.c` of memcached: the free list of `CQ_ITEM`s, the connection queue and the notify pipe of
every worker, the two functions that hand over a connection, `dispatch_conn_new` and
`redispatch_conn`, and the handler of the notify pipes, `thread_libevent_process`.

Any thread may run any of the three, and a step of `Pool.step` is what one thread does up to the
next point where it can be interrupted: a locked section, a read or write of `last_thread`, a read
or write of a pipe.  `malloc` gives the next unused addresses, with an arbitrary content.  The results
of `malloc`, `getpeername` and `conn_new` are part of the label.

The byte `'t'` is left out: its branch begins with `assert(false)`.
-/

namespace Skq.Mem

open Lib Evcompat

/-- `ITEMS_PER_ALLOC`. -/
def itemsPerAlloc : ℕ := 64

/-- `INET_ADDRSTRLEN`. -/
def inetAddrStrLen : ℕ := 16

/-- `conn_states`. -/
inductive ConnState
  | listening | newCmd | waiting | read | parseCmd | write | nread | swallow | closing | mwrite
  | closed | watch
  deriving DecidableEq, Repr

/-- `network_transport`. -/
inductive Transport
  | local | tcp | udp
  deriving DecidableEq, Repr

/-- `conn_queue_item_modes`. -/
inductive ItemMode
  | newConn | redispatch
  deriving DecidableEq, Repr

/-- A `CQ_ITEM`, without its `next`.  Items are named by their addresses. -/
structure CqItem where
  sfd : ℤ
  initState : ConnState
  eventFlags : EvType
  isPriority : ℤ
  readBufferSize : ℤ
  transport : Transport
  mode : ItemMode
  c : ℕ
  ssl : Option ℕ
  deriving DecidableEq

/-- A `CQ`. -/
structure Cq where
  head : Option ℕ
  tail : Option ℕ
  deriving DecidableEq, Repr

/-- A byte in a notify pipe. -/
inductive NotifyByte
  | c | p
  deriving DecidableEq, Repr

/-- A call that hands over a connection, with its arguments. -/
inductive HandOver
  | dispatch (sfd : ℤ) (initState : ConnState) (eventFlags : EvType) (readBufferSize : ℤ)
      (transport : Transport) (ssl : Option ℕ)
  | redispatch (c : ℕ) (sfd : ℤ)
  deriving DecidableEq

/-- Where a thread is.
* `cqiNew`, `malloc`, `link`: in `cqi_new`, before the look at the free list, before `malloc`, and
  with a block of new items.
* `prepare`, `choose`, `store`, `push`: with an item, up to `cq_push`.
* `notify`: before the write to the pipe.
* `pop`, `serve`, `free`: in `thread_libevent_process`, after a `'c'` was read. -/
inductive Pc
  | idle
  | cqiNew (call : HandOver)
  | malloc (call : HandOver)
  | link (call : HandOver) (base : ℕ)
  | prepare (call : HandOver) (item : ℕ)
  | choose (call : HandOver) (item : ℕ)
  | store (call : HandOver) (item : ℕ) (tid : ℕ)
  | push (item : ℕ) (tid : ℕ)
  | notify (tid : ℕ)
  | pop (pipe : ℕ)
  | serve (item : ℕ)
  | free (item : ℕ)
  deriving DecidableEq

/-- The settings that are read. -/
structure Settings where
  numThreads : ℕ
  numThreads_pos : 0 < numThreads
  priorityClient : ℤ
  priorityIp : List Char

/-- The items, the queues, the pipes, and the threads. -/
structure Pool (τ : Type) where
  next : ℕ → Option ℕ
  item : ℕ → CqItem
  allocated : ℕ
  freelist : Option ℕ
  newConnQueue : ℕ → Cq
  pipe : ℕ → List NotifyByte
  lastThread : ℤ
  threads : τ → Pc
  exited : Bool

/-- What is observed. -/
inductive PoolObs
  | pushed (tid : ℕ) (item : ℕ) (content : CqItem)
  | popped (tid : ℕ) (item : ℕ) (content : CqItem)
  | getpeernameFailed (sfd : ℤ)
  | close (sfd : ℤ)
  deriving DecidableEq

/-- What a thread does next, and what the system answers.  `pause` is the write of a `'p'` by
`pause_threads`. -/
inductive PoolLabel (τ : Type)
  | call (t : τ) (call : HandOver)
  | cqiNew (t : τ)
  | malloc (t : τ) (ok : Bool)
  | link (t : τ)
  | prepare (t : τ) (peer : Option (List Char))
  | choose (t : τ)
  | store (t : τ)
  | push (t : τ)
  | notify (t : τ)
  | pause (tid : ℕ)
  | read (t : τ) (tid : ℕ)
  | pop (t : τ)
  | serve (t : τ) (ok : Bool)
  | free (t : τ)

/-- `sfd` of the connection that is handed over. -/
def HandOver.sfd : HandOver → ℤ
  | dispatch sfd .. => sfd
  | redispatch _ sfd => sfd

/-- The fields that are stored before `cq_push`. -/
def HandOver.fill (call : HandOver) (x : CqItem) : CqItem :=
  match call with
  | dispatch sfd initState _ readBufferSize transport ssl =>
    { x with
      sfd := sfd
      initState := initState
      readBufferSize := readBufferSize
      transport := transport
      mode := .newConn
      ssl := ssl }
  | redispatch c sfd =>
    { x with
      eventFlags := if x.isPriority = 0 then x.eventFlags else x.eventFlags ||| evRuntime
      sfd := sfd
      initState := .newCmd
      c := c
      mode := .redispatch }

namespace Pool

variable {τ : Type} [DecidableEq τ] (cfg : Settings) (s : Pool τ) (t : τ)

/-- The thread goes on at `pc`. -/
def goto (pc : Pc) : Pool τ := { s with threads := Function.update s.threads t pc }

/-- The locked part of `cq_pop`. -/
def cqPop (p : ℕ) : Pool τ :=
  match (s.newConnQueue p).head with
  | none => s
  | some i =>
    { s with
      newConnQueue := Function.update s.newConnQueue p
        ⟨s.next i, if s.next i = none then none else (s.newConnQueue p).tail⟩ }

/-- The locked part of `cq_push`. -/
def cqPush (p : ℕ) (i : ℕ) : Pool τ :=
  match (s.newConnQueue p).tail with
  | none => { s with newConnQueue := Function.update s.newConnQueue p ⟨some i, some i⟩ }
  | some j =>
    { s with
      next := Function.update s.next j (some i)
      newConnQueue := Function.update s.newConnQueue p ⟨(s.newConnQueue p).head, some i⟩ }

/-- `malloc` of a block in `cqi_new`, and the loop that links its items except the first one. -/
def allocBlock : Pool τ :=
  { s with
    next := fun i =>
      if s.allocated + 1 ≤ i ∧ i + 1 < s.allocated + itemsPerAlloc then some (i + 1) else s.next i
    allocated := s.allocated + itemsPerAlloc }

/-- The second locked section of `cqi_new`. -/
def linkBlock (base : ℕ) : Pool τ :=
  { s with
    next := Function.update s.next (base + itemsPerAlloc - 1) s.freelist
    freelist := some (base + 1) }

/-- The locked part of `cqi_free`. -/
def cqiFree (i : ℕ) : Pool τ :=
  { s with
    next := Function.update s.next i s.freelist
    freelist := some i }

/-- A store to the fields of an item. -/
def setItem (i : ℕ) (x : CqItem) : Pool τ := { s with item := Function.update s.item i x }

/-- What `dispatch_conn_new` does with a fresh item first: its flags, and the look at the address of
the peer, which runs into an early return if `getpeername` fails. -/
def prepareItem (call : HandOver) (i : ℕ) (peer : Option (List Char)) :
    Pool τ × List PoolObs :=
  match call with
  | .redispatch .. => (s.goto t (.choose call i), [])
  | .dispatch sfd _ eventFlags .. =>
    let x := { s.item i with isPriority := 0, eventFlags := eventFlags }
    if cfg.priorityClient ≤ 0 then ((s.setItem i x).goto t (.choose call i), [])
    else
      match peer with
      | none => ((s.setItem i x).goto t .idle, [.close sfd, .getpeernameFailed sfd])
      | some ipaddr =>
        if ipaddr.take inetAddrStrLen = cfg.priorityIp then
          ((s.setItem i { x with isPriority := 1, eventFlags := eventFlags ||| evRuntime }).goto t
            (.choose call i), [])
        else ((s.setItem i x).goto t (.choose call i), [])

/-- The body of the branch `'c'`, up to `cqi_free`: `ok` is whether `conn_new` succeeded. -/
def serveItem (i : ℕ) (ok : Bool) : Pool τ × List PoolObs :=
  match (s.item i).mode, ok with
  | .newConn, false =>
    if (s.item i).transport = .udp then ({ s with exited := true }, [])
    else (s.goto t (.free i), [.close (s.item i).sfd])
  | _, _ => (s.goto t (.free i), [])

/-- One step of one thread. -/
def step (l : PoolLabel τ) : Option (Pool τ × List PoolObs) :=
  if s.exited then none
  else
    match l with
    | .call t call => if s.threads t = .idle then some (s.goto t (.cqiNew call), []) else none
    | .cqiNew t =>
      match s.threads t with
      | .cqiNew call =>
        match s.freelist with
        | none => some (s.goto t (.malloc call), [])
        | some i => some (goto { s with freelist := s.next i } t (.prepare call i), [])
      | _ => none
    | .malloc t ok =>
      match s.threads t with
      | .malloc call =>
        if ok then some (s.allocBlock.goto t (.link call s.allocated), [])
        else some (s.goto t .idle, [.close call.sfd])
      | _ => none
    | .link t =>
      match s.threads t with
      | .link call base => some ((s.linkBlock base).goto t (.prepare call base), [])
      | _ => none
    | .prepare t peer =>
      match s.threads t with
      | .prepare call i => some (s.prepareItem cfg t call i peer)
      | _ => none
    | .choose t =>
      match s.threads t with
      | .choose call i =>
        some (s.goto t (.store call i ((s.lastThread + 1).tmod cfg.numThreads).toNat), [])
      | _ => none
    | .store t =>
      match s.threads t with
      | .store call i tid =>
        let s := s.setItem i (call.fill (s.item i))
        let s := { s with lastThread := tid, next := Function.update s.next i none }
        some (s.goto t (.push i tid), [])
      | _ => none
    | .push t =>
      match s.threads t with
      | .push i tid => some ((s.cqPush tid i).goto t (.notify tid), [.pushed tid i (s.item i)])
      | _ => none
    | .notify t =>
      match s.threads t with
      | .notify tid =>
        some (goto { s with pipe := Function.update s.pipe tid (s.pipe tid ++ [.c]) } t .idle, [])
      | _ => none
    | .pause tid => some ({ s with pipe := Function.update s.pipe tid (s.pipe tid ++ [.p]) }, [])
    | .read t tid =>
      if s.threads t = .idle then
        match s.pipe tid with
        | [] => some (s, [])
        | b :: rest =>
          let s := { s with pipe := Function.update s.pipe tid rest }
          match b with
          | .c => some (s.goto t (.pop tid), [])
          | .p => some (s, [])
      else none
    | .pop t =>
      match s.threads t with
      | .pop tid =>
        match (s.newConnQueue tid).head with
        | none => some (s.goto t .idle, [])
        | some i => some ((s.cqPop tid).goto t (.serve i), [.popped tid i (s.item i)])
      | _ => none
    | .serve t ok =>
      match s.threads t with
      | .serve i => some (s.serveItem t i ok)
      | _ => none
    | .free t =>
      match s.threads t with
      | .free i => some ((s.cqiFree i).goto t .idle, [])
      | _ => none

/-- The state after `memcached_thread_init`; what the memory holds is unknown. -/
def init (next : ℕ → Option ℕ) (item : ℕ → CqItem) : Pool τ where
  next := next
  item := item
  allocated := 0
  freelist := none
  newConnQueue := fun _ => ⟨none, none⟩
  pipe := fun _ => []
  lastThread := -1
  threads := fun _ => .idle
  exited := false

end Pool

/-! ## Where an item can be -/

/-- The items a thread has taken and not handed on. -/
def Pc.holds : Pc → ℕ → Prop
  | link _ base, i => base ≤ i ∧ i < base + itemsPerAlloc
  | prepare _ j, i => i = j
  | choose _ j, i => i = j
  | store _ j _, i => i = j
  | push j _, i => i = j
  | serve j, i => i = j
  | free j, i => i = j
  | _, _ => False

/-- The places of the items: the free list, the queue of a pipe, the hands of a thread. -/
inductive Place (τ : Type)
  | freelist
  | queue (tid : ℕ)
  | hands (t : τ)
  deriving DecidableEq

namespace Pool

variable {τ : Type} (s : Pool τ)

/-- The item is in the place. -/
def Has (i : ℕ) : Place τ → Prop
  | .freelist => Reached s.next s.freelist i
  | .queue tid => Reached s.next (s.newConnQueue tid).head i
  | .hands t => (s.threads t).holds i

/-- Threads that have read a `'c'` of the pipe and not looked at its queue yet. -/
def acting (tid : ℕ) : Pc → Bool := fun pc => pc == .pop tid

/-- The items pushed to a queue, with their contents. -/
def pushedOn (tid : ℕ) (tr : List PoolObs) : List (ℕ × CqItem) :=
  tr.filterMap fun
    | .pushed tid' i x => if tid' = tid then some (i, x) else none
    | _ => none

/-- The items popped from a queue, with their contents. -/
def poppedOn (tid : ℕ) (tr : List PoolObs) : List (ℕ × CqItem) :=
  tr.filterMap fun
    | .popped tid' i x => if tid' = tid then some (i, x) else none
    | _ => none

/-- Every item is in exactly one place; every queue holds what was pushed and not popped, in order,
and has an item for every `'c'` that is not acted on. -/
structure Conserved [Fintype τ] (tr : List PoolObs) : Prop where
  place : ∀ i < s.allocated, ∃! pl, s.Has i pl
  queue : ∀ tid, ∃ q, Chain s.next (s.newConnQueue tid).head q ∧
    pushedOn tid tr = poppedOn tid tr ++ q.map (fun i => (i, s.item i)) ∧
    (s.pipe tid).count .c + threadsAt s.threads (acting tid) ≤ q.length

end Pool

end Skq.Mem
