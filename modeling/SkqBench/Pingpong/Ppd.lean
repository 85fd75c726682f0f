import Mathlib.Data.Int.Notation
import Mathlib.Data.Nat.Notation
import Mathlib.Logic.Function.Basic

/-!
# `ppd.cc`: one kqueue, many workers

The server in its legacy single-kqueue mode: all workers wait on one kqueue, and every connection is
registered with `EV_DISPATCH`, so that the kernel disables its knote when it delivers an event.  A
worker that is done with an event puts an `EV_ENABLE` into `skev` and submits it with its next
`kevent()`.

A label is one step of one thread, with what the kernel, the peer and the request processor decide
in it: which events are delivered and with `EV_EOF` or not, what `proc_req` returns, which
descriptor `accept()` uses, whether a system call fails.  Connections are numbered as they are
accepted and hints as they are allocated; a descriptor is a number that is used again after `close`.

What the timer of the accept loop prints is left out.
-/

namespace Skq.Pingpong

/-- `NEVENT`. -/
def nevent : ℕ := 2048

/-- `struct kevent` of an event or of a change: descriptor, hint, and whether `EV_EOF` is set. -/
structure Kev where
  ident : ℤ
  udata : ℕ
  eof : Bool
  deriving DecidableEq, Repr

/-- A knote of the kqueue. -/
structure Knote where
  udata : ℕ
  disabled : Bool
  deriving DecidableEq, Repr

/-- `struct conn_hint`: the connection it was allocated for, and whether it was freed. -/
structure ConnHint where
  conn : ℕ
  freed : Bool
  deriving DecidableEq, Repr

/-- Where a worker is in `drop_conn`: before `kevent`, `close` or `conn_hint_destroy`. -/
inductive DropAt
  | delete | close | destroy
  deriving DecidableEq, Repr

/-- Where a worker is: in `kevent()`, with `done` changes made and `errs` the errors of them; at the
head of its loop over `kev`; in `proc_req`; or in `drop_conn`. -/
inductive At
  | kevent (done : ℕ) (errs : List Kev)
  | loop
  | procReq
  | dropConn (stage : DropAt)
  deriving DecidableEq, Repr

/-- `struct worker_thread` and the variables of `work_thread`. -/
structure Worker where
  kev : List Kev := []
  i : ℕ := 0
  skev : List Kev := []
  evcnt : ℕ := 0
  pc : At := .loop
  deriving DecidableEq, Repr

/-- Where the main thread is: waiting, behind `accept()`, or before the `kevent` of a new
connection. -/
inductive Accepting
  | idle
  | accepted (fd : ℤ) (conn : ℕ)
  | registering (fd : ℤ) (hint : ℕ)
  deriving DecidableEq, Repr

/-- The calls of `exit`. -/
inductive Exit
  | threadKevent | dropConn | accept
  deriving DecidableEq, Repr

/-- The process. -/
structure Server (τ : Type*) where
  fds : ℤ → Option ℕ := fun _ => none
  kq : ℤ → Option Knote := fun _ => none
  hints : ℕ → Option ConnHint := fun _ => none
  accepts : ℕ := 0
  allocs : ℕ := 0
  workers : τ → Worker := fun _ => {}
  main : Accepting := .idle
  exited : Option Exit := none

/-- What is observed: an event is fetched, with the connection that is open under its descriptor; an
`EV_ENABLE` is submitted, with its hint and the connection whose knote it hits; a knote is deleted;
a hint is used by `proc_req` or freed. -/
inductive Obs (τ : Type*)
  | fetch (t : τ) (conn : Option ℕ)
  | enable (t : τ) (hint : ℕ) (conn : Option ℕ)
  | delete (t : τ) (conn : Option ℕ)
  | use (t : τ) (hint : ℕ)
  | free (t : τ) (hint : ℕ)
  deriving DecidableEq, Repr

/-- A step of a worker or of the main thread. -/
inductive Label (τ : Type*)
  | enter (t : τ)
  | change (t : τ)
  | fetch (t : τ) (evs : List Kev)
  | keventFails (t : τ)
  | handle (t : τ)
  | procReturns (t : τ) (status : ℤ)
  | drop (t : τ)
  | accept (fd : ℤ)
  | setsockopt (ok : Bool)
  | register (ok : Bool)
  deriving DecidableEq, Repr

namespace Server

variable {τ : Type*} [DecidableEq τ] (s : Server τ)

/-- The worker `t` goes on as `w`. -/
def setWorker (t : τ) (w : Worker) : Server τ :=
  { s with workers := Function.update s.workers t w }

@[simp] lemma setWorker_self (t : τ) (w : Worker) : (s.setWorker t w).workers t = w :=
  Function.update_self ..

lemma setWorker_ne {t t' : τ} (h : t' ≠ t) (w : Worker) :
    (s.setWorker t w).workers t' = s.workers t' := Function.update_of_ne h ..

/-- The connection whose knote a change for `fd` hits. -/
def knoteConn (fd : ℤ) : Option ℕ := (s.kq fd).bind fun _ => s.fds fd

/-! ## `work_thread` -/

/-- The loop over `kev` is over: `kevent` is called. -/
def enter (t : τ) : Option (Server τ × List (Obs τ)) :=
  let w := s.workers t
  if w.pc = .loop ∧ w.kev.length ≤ w.i then
    some (s.setWorker t { w with pc := .kevent 0 [] }, [])
  else none

/-- The kernel makes the next change of `skev`; a change without knote is returned as an error. -/
def change (t : τ) : Option (Server τ × List (Obs τ)) :=
  let w := s.workers t
  match w.pc with
  | .kevent done errs =>
    match w.skev[done]? with
    | none => none
    | some x =>
      let o := [.enable t x.udata (s.knoteConn x.ident)]
      match s.kq x.ident with
      | none => some (s.setWorker t { w with pc := .kevent (done + 1) (errs ++ [x]) }, o)
      | some _ =>
        let s' := s.setWorker t { w with pc := .kevent (done + 1) errs }
        some ({ s' with kq := Function.update s.kq x.ident (some ⟨x.udata, false⟩) }, o)
  | _ => none

/-- The kernel can return these events: of different knotes, none of them disabled. -/
def Deliverable (evs : List Kev) : Prop :=
  evs ≠ [] ∧ evs.length ≤ nevent ∧ (evs.map Kev.ident).Nodup ∧
    ∀ x ∈ evs, s.kq x.ident = some ⟨x.udata, false⟩

instance (evs : List Kev) : Decidable (s.Deliverable evs) := by
  unfold Deliverable
  infer_instance

/-- The kqueue after the events were delivered. -/
def dispatched (evs : List Kev) : ℤ → Option Knote := fun fd =>
  if fd ∈ evs.map Kev.ident then (s.kq fd).map fun kn => { kn with disabled := true } else s.kq fd

/-- `kevent` returns the errors of the changes, or events if there are none. -/
def fetch (t : τ) (evs : List Kev) : Option (Server τ × List (Obs τ)) :=
  let w := s.workers t
  match w.pc with
  | .kevent done errs =>
    if done < w.skev.length then none
    else if errs ≠ [] then
      some (s.setWorker t { w with kev := errs, i := 0, skev := [], pc := .loop }, [])
    else if s.Deliverable evs then
      let s' := s.setWorker t { w with kev := evs, i := 0, skev := [], pc := .loop }
      some ({ s' with kq := s.dispatched evs }, evs.map fun x => .fetch t (s.fds x.ident))
    else none
  | _ => none

/-- `kevent` fails, or returns nothing. -/
def keventFails (t : τ) : Option (Server τ × List (Obs τ)) :=
  match (s.workers t).pc with
  | .kevent _ _ => some ({ s with exited := some .threadKevent }, [])
  | _ => none

/-- `handle_event` up to `proc_req` or `drop_conn`. -/
def handle (t : τ) : Option (Server τ × List (Obs τ)) :=
  let w := s.workers t
  if w.pc = .loop then
    match w.kev[w.i]? with
    | none => none
    | some x =>
      if x.eof then some (s.setWorker t { w with pc := .dropConn .delete }, [])
      else some (s.setWorker t { w with pc := .procReq }, [.use t x.udata])
  else none

/-- `proc_req` returns, and so does `handle_event` unless the status is negative. -/
def procReturns (t : τ) (status : ℤ) : Option (Server τ × List (Obs τ)) :=
  let w := s.workers t
  if w.pc = .procReq then
    match w.kev[w.i]? with
    | none => none
    | some x =>
      let o := [.use t x.udata]
      if status < 0 then some (s.setWorker t { w with pc := .dropConn .delete }, o)
      else
        some (s.setWorker t { w with
          evcnt := w.evcnt + 1
          skev := w.skev ++ [⟨x.ident, x.udata, false⟩]
          i := w.i + 1
          pc := .loop }, o)
  else none

/-- The next call of `drop_conn`; after the last one `handle_event` returns a value that is not
0. -/
def drop (t : τ) : Option (Server τ × List (Obs τ)) :=
  let w := s.workers t
  match w.pc, w.kev[w.i]? with
  | .dropConn .delete, some x =>
    match s.kq x.ident with
    | none => some ({ s with exited := some .dropConn }, [])
    | some _ =>
      let s' := s.setWorker t { w with pc := .dropConn .close }
      some ({ s' with kq := Function.update s.kq x.ident none },
        [.delete t (s.knoteConn x.ident)])
  | .dropConn .close, some x =>
    let s' := s.setWorker t { w with pc := .dropConn .destroy }
    some ({ s' with
      fds := Function.update s.fds x.ident none
      kq := Function.update s.kq x.ident none }, [])
  | .dropConn .destroy, some x =>
    let s' := s.setWorker t { w with i := w.i + 1, pc := .loop }
    let hint := (s.hints x.udata).map fun hint => { hint with freed := true }
    some ({ s' with hints := Function.update s.hints x.udata hint }, [.free t x.udata])
  | _, _ => none

/-! ## `main` -/

/-- `accept()`. -/
def accept (fd : ℤ) : Option (Server τ × List (Obs τ)) :=
  if s.main = .idle ∧ s.fds fd = none then
    some ({ s with
      fds := Function.update s.fds fd (some s.accepts)
      accepts := s.accepts + 1
      main := .accepted fd s.accepts }, [])
  else none

/-- `setsockopt()` and, if that succeeds, the new hint. -/
def setsockopt (ok : Bool) : Option (Server τ × List (Obs τ)) :=
  match s.main with
  | .accepted fd conn =>
    if ok then
      some ({ s with
        hints := Function.update s.hints s.allocs (some ⟨conn, false⟩)
        allocs := s.allocs + 1
        main := .registering fd s.allocs }, [])
    else some ({ s with main := .idle }, [])
  | _ => none

/-- The `kevent` with `EV_ADD` and `EV_DISPATCH`; the kernel keeps a knote that is there. -/
def register (ok : Bool) : Option (Server τ × List (Obs τ)) :=
  match s.main with
  | .registering fd hint =>
    if ok then
      let kn : Knote := ⟨hint, match s.kq fd with | some kn => kn.disabled | none => false⟩
      some ({ s with kq := Function.update s.kq fd (some kn), main := .idle }, [])
    else some ({ s with exited := some .accept }, [])
  | _ => none

/-- One step of the server. -/
def step : Label τ → Option (Server τ × List (Obs τ))
  | l =>
    if s.exited.isSome then none
    else
      match l with
      | .enter t => s.enter t
      | .change t => s.change t
      | .fetch t evs => s.fetch t evs
      | .keventFails t => s.keventFails t
      | .handle t => s.handle t
      | .procReturns t status => s.procReturns t status
      | .drop t => s.drop t
      | .accept fd => s.accept fd
      | .setsockopt ok => s.setsockopt ok
      | .register ok => s.register ok

end Server

end Skq.Pingpong
