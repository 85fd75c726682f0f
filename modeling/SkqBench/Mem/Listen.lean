import SkqBench.Lib.Run
import SkqBench.Lib.Trace
import SkqBench.Evcompat.Discipline
import SkqBench.Evcompat.Rearm
import SkqBench.Mem.Calls

/-!
# Listening connections stay off

`update_event` is written for libevent: there an event may be added without flags, and deleting an
event that is not added is no error.  In evcompat both fail.  `update_event(c, 0)` deletes the event
and leaves it unregistered with `ev_flags` 0, as it should; the next
`update_event(c, EV_READ | EV_PERSIST)` starts with an `event_del`, which fails, and the connection
never listens again.

The invariant has two parts.  `Listeners` is what no step changes: the listening connections belong
to the main thread, and nobody else uses their events or their slots.  `On` and `Off` are the two
states of one connection, and only `update_event` goes from `On` to `Off`.
-/

namespace Skq.Mem

open Lib Evcompat

/-! ## The other users of evcompat -/

/-- The event a call is about. -/
def subject : Label → Option EvId
  | .set _ e _ _ _ _ | .baseSet _ _ e | .add _ e _ | .del _ e | .cleanup _ e => some e
  | _ => none

/-- What every step respects, those of `update_event` included: the slot of a listening connection
is used for its event only, with its descriptor and its base, and only the main thread loops on that
base. -/
def Respects (sv : Server) (s : State) : Label → Prop
  | .set _ e fd type _ _ => ∀ conn ∈ sv.listenConn,
      ((filterOf type).map (fun f => (fd, f)) = some conn.slot → e = conn.event) ∧
        (e = conn.event → fd = conn.sfd)
  | .baseSet _ b e => ∀ conn ∈ sv.listenConn, e = conn.event → b = sv.mainBase
  | .add _ e _ => ∀ conn ∈ sv.listenConn,
      (((patchTimerFd s.toProc e).evs e).slot = some conn.slot → e = conn.event) ∧
        (e = conn.event → filterOf (s.evs e).type = none)
  | .del t e => ∀ conn ∈ sv.listenConn, e = conn.event → t = sv.main
  | .fetch t b _ => b = sv.mainBase → t = sv.main
  | .close fd => ∀ conn ∈ sv.listenConn, conn.sfd ≠ fd
  | _ => True

/-- What is assumed of the other steps: they respect the listening connections and make no call
for their events. -/
def Apart (sv : Server) (s : State) (l : Label) : Prop :=
  Respects sv s l ∧ ∀ conn ∈ sv.listenConn, subject l ≠ some conn.event

/-- The guard of the server. -/
def LoopOK (sv : Server) (w : World) : MLabel → Prop
  | .loop l => Apart sv w.toState l
  | _ => True

/-! ## The invariant -/

/-- What holds of the listening connections at any time, before they are opened too.
* `slot`: nobody else uses the slot of one of them.
* `addLock`, `delWait`: no call in progress is for one of them.
* `knote`: the only place where a knote for one of them can be.
* `batch`, `owner`: only the main thread has one of them in a batch. -/
structure Listeners (sv : Server) (s : State) : Prop where
  wf : Wf s
  slot : ∀ conn ∈ sv.listenConn, ∀ e, s.isSet e → (s.evs e).slot = some conn.slot →
    e = conn.event
  addLock : ∀ conn ∈ sv.listenConn, ∀ t e kev, (s.threads t).call = some (.addLock e kev) →
    e ≠ conn.event ∧ kev.slot ≠ conn.slot
  delWait : ∀ conn ∈ sv.listenConn, ∀ t e b kev,
    (s.threads t).call = some (.delWait e b kev) →
    e ≠ conn.event ∧ ∀ k, kev = some k → k.slot ≠ conn.slot
  knote : ∀ conn ∈ sv.listenConn, ∀ b x kn, s.kqs b x = some kn → kn.kev.udata = conn.event →
    b = sv.mainBase ∧ x = conn.slot
  batch : ∀ conn ∈ sv.listenConn, ∀ u, conn.event ∈ (s.threads u).phase.batch → u = sv.main
  owner : ∀ conn ∈ sv.listenConn, s.isSet conn.event → (s.evs conn.event).active = true →
    (s.evs conn.event).owner = some sv.main

/-- The connection was opened. -/
structure Opened (sv : Server) (s : State) (conn : Conn) : Prop where
  isSet : s.isSet conn.event
  evBase : (s.evs conn.event).evBase = some sv.mainBase
  fd : (s.evs conn.event).fd = conn.sfd

/-- The connection listens. -/
structure On (sv : Server) (s : State) (conn : Conn) : Prop where
  pending : (s.evs conn.event).pending = true
  type : (s.evs conn.event).type = evRead ||| evPersist
  knote : ∃ kn, s.kqs sv.mainBase conn.slot = some kn ∧ kn.kev.udata = conn.event

/-- The connection does not listen. -/
structure Off (sv : Server) (s : State) (conn : Conn) : Prop where
  pending : (s.evs conn.event).pending = false
  knote : s.kqs sv.mainBase conn.slot = none

section Step

variable {c : Cfg} {sv : Server} {s s' : State} {l : Label} {o : List Obs} {conn : Conn}

/-- An `event_add` that is cut has built its change for the slot of its event. -/
lemma add_step {t : Tid} {e : EvId} {timeout : Option TimeVal} (hs : Step c s (.add t e timeout) s' o) :
    s'.evs e = s.evs e ∨ filterOf (s.evs e).type ≠ none ∧
      s'.evs e = (patchTimerFd s.toProc e).evs e := by
  cases hs with
  | addLock hmay hset hbase hpend hfilter => exact .inr ⟨by simp [hfilter], rfl⟩
  | addBusy | addInval | abort => exact .inl rfl
  | delErr hdel | delWait hdel | delOk hdel => cases hdel

lemma Listeners.slot_step (h : Listeners sv s) (hok : Respects sv s l) (hs : Step c s l s' o)
    (hab : s'.aborted = none) (hconn : conn ∈ sv.listenConn) {e : EvId} (hset : s'.isSet e)
    (hslot : (s'.evs e).slot = some conn.slot) : e = conn.event := by
  rcases hs.newly_set hset with hold | ⟨t, fd, type, fn, arg, rfl, hev, -⟩
  · have hkeep := h.slot conn hconn e hold
    have hev := hs.evStep hab e
    generalize heq : s'.evs e = ev at hev hslot
    cases hev with
    | set => exact (hok conn hconn).1 hslot
    | patch =>
      rcases add_step hs with hsame | ⟨-, hpatch⟩
      · rw [heq] at hsame
        exact hkeep (hsame ▸ hslot)
      · rw [heq] at hpatch
        exact (hok conn hconn).1 (hpatch ▸ hslot)
    | add | delete =>
      rw [Event.deactivate_slot] at hslot
      exact hkeep hslot
    | _ => exact hkeep hslot
  · rw [hev] at hslot
    exact (hok conn hconn).1 hslot

/-- The events a change in progress is for. -/
lemma Listeners.place (h : Listeners sv s) (hconn : conn ∈ sv.listenConn) {t : Tid} {e : EvId}
    {base : BaseId} {k : KEvent} {op : SyncOp} (hdel : DelCall c s l t e base (some k) op)
    (hx : k.slot = conn.slot) : e = conn.event ∧ l = .del t e := by
  rcases hdel.place with ⟨-, hslot⟩ | ⟨-, hcall⟩
  · refine ⟨h.slot conn hconn e (hdel.isSet h.wf) (hx ▸ hslot), ?_⟩
    rcases hdel.label with hl | hl
    · exact hl
    · subst hl
      exact absurd hx ((h.delWait conn hconn _ _ _ _ hdel.inv_delWake.2).2 k rfl)
  · exact absurd hx ((h.delWait conn hconn t e base _ hcall).2 k rfl)

/-- The main thread does not wait for a listening connection. -/
lemma Listeners.no_wait (h : Listeners sv s) (hconn : conn ∈ sv.listenConn) {b : BaseId}
    {kev : Option KEvent} (hs : Step c s (.del sv.main conn.event) s' o)
    (hcall : (s'.threads sv.main).call = some (.delWait conn.event b kev)) :
    (s.threads sv.main).call = some (.delWait conn.event b kev) := by
  cases hs with
  | delErr hdel =>
    obtain ⟨rfl, -⟩ := hdel.inv_del
    simp at hcall
  | delWait hdel hpend hact hown =>
    obtain ⟨rfl, rfl, -⟩ := hdel.inv_del
    exact absurd (h.owner conn hconn (hdel.isSet h.wf) hact) hown
  | delOk hdel =>
    obtain ⟨rfl, -⟩ := hdel.inv_del
    simp at hcall
  | abort => exact hcall

lemma Listeners.call_step (h : Listeners sv s) (hok : Respects sv s l) (hs : Step c s l s' o)
    (hab : s'.aborted = none) (hconn : conn ∈ sv.listenConn) {t : Tid} {e : EvId} :
    (∀ kev, (s'.threads t).call = some (.addLock e kev) →
      e ≠ conn.event ∧ kev.slot ≠ conn.slot) ∧
    ∀ b kev, (s'.threads t).call = some (.delWait e b kev) →
      e ≠ conn.event ∧ ∀ k, kev = some k → k.slot ≠ conn.slot := by
  refine ⟨fun kev hcall => ?_, fun b kev hcall => ?_⟩
  · rcases hs.call_source hcall with hold | ⟨e', timeout, f, hset, rfl, heq⟩ | ⟨_, _, _, _, -, heq⟩
    · exact h.addLock conn hconn t e kev hold
    · obtain ⟨rfl, hkev⟩ := Call.addLock.inj heq
      have hnew := hs.mayCall hab (u := t) (p := .added) rfl (by decide)
      have hslot := hs.addLock_slot hnew hcall
      have hne : e ≠ conn.event := by
        intro he
        have hnone := (hok conn hconn).2 he
        rcases add_step hs with hsame | ⟨hsome, -⟩
        · rw [hsame, Event.slot, hnone] at hslot
          cases hslot
        · exact hsome hnone
      refine ⟨hne, fun hx => hne ?_⟩
      exact h.slot_step hok hs hab hconn (hs.isSet hset) (hx ▸ hslot)
    · cases heq
  · rcases hs.call_source hcall with hold | ⟨_, _, _, -, -, heq⟩ | ⟨e', base, kev', op, hdel, heq⟩
    · exact h.delWait conn hconn t e b kev hold
    · cases heq
    · obtain ⟨rfl, rfl, rfl⟩ := Call.delWait.inj heq
      have hne : e ≠ conn.event := by
        rintro rfl
        rcases hdel.label with rfl | rfl
        · obtain rfl := hok conn hconn rfl
          exact (h.delWait conn hconn _ _ _ _ (h.no_wait hconn hs hcall)).1 rfl
        · exact (h.delWait conn hconn _ _ _ _ hdel.inv_delWake.2).1 rfl
      refine ⟨hne, fun k hk hx => hne ?_⟩
      subst hk
      exact (h.place hconn hdel hx).1

lemma Listeners.batch_step (h : Listeners sv s) (hok : Respects sv s l) (hs : Step c s l s' o)
    (hconn : conn ∈ sv.listenConn) {u : Tid} (hb : conn.event ∈ (s'.threads u).phase.batch) :
    u = sv.main := by
  rcases hs.batch_source hb with hold | ⟨b, slots, x, kn, rfl, hkn, hu⟩
  · exact h.batch conn hconn u hold
  · exact hok (h.knote conn hconn b x kn hkn hu).1

lemma Listeners.owner_step (h : Listeners sv s) (hs : Step c s l s' o) (hab : s'.aborted = none)
    (hconn : conn ∈ sv.listenConn) (hset : s'.isSet conn.event)
    (hact : (s'.evs conn.event).active = true) : (s'.evs conn.event).owner = some sv.main := by
  by_cases hold : s.isSet conn.event
  · rcases (hs.evStep hab conn.event).flags_cases hold with
      ⟨hsame, howner, -⟩ | ⟨-, hoff, -⟩ | ⟨t, b, k, todo, done, -, hph, hu, -, howner, -⟩ |
      ⟨t, w, b, a, todo, done, enlist, -, -, -, -, hoff, -⟩
    · rw [howner]
      exact h.owner conn hconn hold (hsame ▸ hact)
    · rw [hoff] at hact
      cases hact
    · rw [howner, h.batch conn hconn t]
      rw [hph]
      simp [Phase.batch, Phase.toLock, hu]
    · rw [hoff] at hact
      cases hact
  · -- the first `event_set` clears the state
    rcases hs.newly_set hset with hold' | ⟨t, fd, type, fn, arg, -, hev, -⟩
    · exact absurd hold' hold
    · have hcv : (s.evs conn.event).cvInit ≠ cvInitMagic := hold
      simp [hev, Event.assign, Event.firstSet, hcv] at hact

lemma Opened.step (hop : Opened sv s conn) (hok : Respects sv s l) (hs : Step c s l s' o)
    (hab : s'.aborted = none) (hconn : conn ∈ sv.listenConn) : Opened sv s' conn := by
  obtain ⟨hset, hbase, hfd⟩ := hop
  rcases (hs.evStep hab conn.event).addr_cases hset with
    ⟨hfd', hbase'⟩ | ⟨t, fd, type, fn, arg, rfl, hfd', hbase'⟩ |
    ⟨t, b, rfl, -, hfd', hbase'⟩ | ⟨t, timeout, rfl, -, htype, -⟩
  · exact ⟨hs.isSet hset, hbase'.trans hbase, hfd'.trans hfd⟩
  · exact ⟨hs.isSet hset, hbase'.trans hbase, hfd'.trans ((hok conn hconn).2 rfl)⟩
  · exact ⟨hs.isSet hset, hbase'.trans (by rw [hok conn hconn rfl]), hfd'.trans hfd⟩
  · have hnone := (hok conn hconn).2 rfl
    rw [not_timeout_of_filterOf hnone] at htype
    cases htype

/-- **A step that respects the listening connections keeps what is known of them.** -/
lemma Listeners.step (h : Listeners sv s) (hok : Respects sv s l) (hs : Step c s l s' o)
    (hab : s'.aborted = none) : Listeners sv s' where
  wf := h.wf.step hs
  slot _ hconn _ hset hslot := h.slot_step hok hs hab hconn hset hslot
  addLock _ hconn _ _ _ hcall := (h.call_step hok hs hab hconn).1 _ hcall
  delWait _ hconn _ _ _ _ hcall := (h.call_step hok hs hab hconn).2 _ _ hcall
  knote conn hconn b x kn hkn hu := by
    rcases hs.knote_source hkn with ⟨kn', hkn', hkev⟩ | ⟨t, e, -, hcall, -⟩
    · exact h.knote conn hconn b x kn' hkn' (hkev ▸ hu)
    · obtain ⟨-, hudata⟩ := h.wf.addLock t e kn.kev hcall
      exact absurd (hudata.symm.trans hu) (h.addLock conn hconn t e kn.kev hcall).1
  batch _ hconn _ hb := h.batch_step hok hs hconn hb
  owner _ hconn hset hact := h.owner_step hs hab hconn hset hact

/-- A connection that listens goes on listening, unless the step is a call for its event. -/
lemma On.step (hon : On sv s conn) (h : Listeners sv s) (hok : Respects sv s l)
    (hconn : conn ∈ sv.listenConn) (hl : subject l ≠ some conn.event) (hs : Step c s l s' o)
    (hab : s'.aborted = none) : On sv s' conn := by
  have hper : (s.evs conn.event).type.has evPersist = true := by
    rw [hon.type]
    decide
  have hev := hs.evStep hab conn.event
  have hsame : (s'.evs conn.event).pending = true ∧
      (s'.evs conn.event).type = evRead ||| evPersist := by
    generalize s'.evs conn.event = ev at hev ⊢
    cases hev with
    | set | baseSet | patch | cleanup => exact absurd rfl hl
    | finishDel _ _ _ _ hper' =>
      rw [hper] at hper'
      cases hper'
    | add hcall => exact absurd rfl (h.addLock conn hconn _ _ _ hcall).1
    | delete hdel =>
      rcases hdel.label with rfl | rfl
      · exact absurd rfl hl
      · exact absurd rfl (h.delWait conn hconn _ _ _ _ hdel.inv_delWake.2).1
    | _ => exact ⟨hon.pending, hon.type⟩
  refine ⟨hsame.1, hsame.2, ?_⟩
  obtain ⟨kn, hkn, hu⟩ := hon.knote
  have hstep := hs.knoteStep sv.mainBase conn.slot
  generalize s'.kqs sv.mainBase conn.slot = r at hstep ⊢
  cases hstep with
  | keep => exact ⟨kn, hkn, hu⟩
  | fetch hx hkn' =>
    rw [hkn] at hkn'
    obtain rfl := Option.some.inj hkn'
    exact ⟨_, rfl, hu⟩
  | enable hph hk hx hkn' =>
    rw [hkn] at hkn'
    obtain rfl := Option.some.inj hkn'
    exact ⟨_, rfl, hu⟩
  | add hcall hlk hbase hx => exact absurd hx (h.addLock conn hconn _ _ _ hcall).2
  | @finish t w b' a todo done enlist hph hper' hbase hx hpend =>
    have hset : s.isSet a.ev := h.wf.batch t a.ev (by simp [hph, Phase.batch, Phase.toLock])
    have hu' : a.kev.udata = conn.event := h.slot conn hconn a.ev hset hx
    rw [hu', hper] at hper'
    cases hper'
  | delete hdel hx =>
    obtain ⟨rfl, rfl⟩ := h.place hconn hdel hx
    exact absurd rfl hl
  | @close fd hx => exact absurd hx.1 (hok conn hconn)

/-- A connection that does not listen goes on like that. -/
lemma Off.step (hoff : Off sv s conn) (h : Listeners sv s) (hconn : conn ∈ sv.listenConn)
    (hs : Step c s l s' o) (hab : s'.aborted = none) : Off sv s' conn := by
  have hev := hs.evStep hab conn.event
  refine ⟨?_, ?_⟩
  · generalize s'.evs conn.event = ev at hev ⊢
    cases hev with
    | finishDel _ _ _ _ _ _ _ hpend =>
      rw [hoff.pending] at hpend
      cases hpend
    | set =>
      by_cases hcv : (s.evs conn.event).cvInit = cvInitMagic <;>
        simp [Event.assign, Event.firstSet, hcv, hoff.pending]
    | add hcall => exact absurd rfl (h.addLock conn hconn _ _ _ hcall).1
    | delete => simp
    | _ => exact hoff.pending
  · have hstep := hs.knoteStep sv.mainBase conn.slot
    generalize s'.kqs sv.mainBase conn.slot = r at hstep ⊢
    cases hstep with
    | keep => exact hoff.knote
    | fetch hx hkn | enable hph hk hx hkn =>
      rw [hoff.knote] at hkn
      cases hkn
    | add hcall hlk hbase hx => exact absurd hx (h.addLock conn hconn _ _ _ hcall).2
    | finish | delete | close => rfl

end Step

/-! ## The calls -/

section Calls

variable {c : Cfg} {sv : Server} {s s' s'' : State} {l : Label} {o : List Obs} {conn : Conn}
  {t : Tid} {e : EvId} {rc : Rc}

lemma eventSet_eq_some {fd : ℤ} {type : EvType} {fn arg : ℕ}
    (h : eventSet c s t e fd type fn arg = some s') :
    ∃ o, step c s (.set t e fd type fn arg) = some (s', o) ∧ s'.aborted = none := by
  simp only [eventSet, bind, Option.bind_eq_some_iff] at h
  obtain ⟨⟨s₁, o⟩, hs, h⟩ := h
  split at h
  · cases h
  · next hab =>
    obtain rfl := Option.some.inj h
    exact ⟨o, hs, by simpa using hab⟩

lemma eventBaseSet_eq_some {b : BaseId} (h : eventBaseSet c s t b e = some (s', rc)) :
    ∃ o, step c s (.baseSet t b e) = some (s', o) ∧ returned o = some rc := by
  simp only [eventBaseSet, bind, Option.bind_eq_some_iff] at h
  obtain ⟨⟨s₁, o⟩, hs, rc', hrc, h⟩ := h
  obtain ⟨rfl, rfl⟩ := Prod.mk.inj (Option.some.inj h)
  exact ⟨o, hs, hrc⟩

lemma eventDel_eq_some (h : eventDel c s t e = some (s', rc)) :
    ∃ o, step c s (.del t e) = some (s', o) ∧ returned o = some rc := by
  simp only [eventDel, bind, Option.bind_eq_some_iff] at h
  obtain ⟨⟨s₁, o⟩, hs, rc', hrc, h⟩ := h
  obtain ⟨rfl, rfl⟩ := Prod.mk.inj (Option.some.inj h)
  exact ⟨o, hs, hrc⟩

lemma eventAdd_eq_some {timeout : Option TimeVal} (h : eventAdd c s t e timeout = some (s', rc)) :
    ∃ s₁ o₁, step c s (.add t e timeout) = some (s₁, o₁) ∧
      ((s₁.threads t).call = none ∧ s' = s₁ ∧ returned o₁ = some rc ∨
        ∃ call o₂, (s₁.threads t).call = some call ∧
          step c s₁ (.addLocked t true) = some (s', o₂) ∧ returned o₂ = some rc) := by
  simp only [eventAdd, bind, Option.bind_eq_some_iff] at h
  obtain ⟨⟨s₁, o₁⟩, hs, h⟩ := h
  refine ⟨s₁, o₁, hs, ?_⟩
  split at h
  · next hcall =>
    simp only [Option.bind_eq_some_iff] at h
    obtain ⟨rc', hrc, h⟩ := h
    obtain ⟨rfl, rfl⟩ := Prod.mk.inj (Option.some.inj h)
    exact .inl ⟨hcall, rfl, hrc⟩
  · next call hcall =>
    simp only [Option.bind_eq_some_iff] at h
    obtain ⟨⟨s₂, o₂⟩, hs₂, rc', hrc, h⟩ := h
    obtain ⟨rfl, rfl⟩ := Prod.mk.inj (Option.some.inj h)
    exact .inr ⟨call, o₂, hcall, hs₂, hrc⟩

/-- A call that returns has not failed an assertion. -/
lemma not_aborted_of_returned (hs : Step c s l s' o) (hrun : s.aborted = none)
    (hrc : returned o = some rc) : s'.aborted = none := by
  cases hs with
  | abort hl ho =>
    rcases ho with rfl | ⟨e, st, rfl, -⟩ <;> cases hrc
  | _ => exact hrun

/-- What a call for the event `e` leaves of the listening connections: the others go on listening,
and what does not listen goes on like that. -/
structure Kept (sv : Server) (s s' : State) (e : EvId) : Prop where
  listeners : Listeners sv s'
  running : s'.aborted = none
  opened : ∀ conn ∈ sv.listenConn, Opened sv s conn → Opened sv s' conn
  off : ∀ conn ∈ sv.listenConn, Off sv s conn → Off sv s' conn
  on : ∀ conn ∈ sv.listenConn, conn.event ≠ e → On sv s conn → On sv s' conn

lemma Kept.refl (h : Listeners sv s) (hrun : s.aborted = none) : Kept sv s s e :=
  ⟨h, hrun, fun _ _ hop => hop, fun _ _ hoff => hoff, fun _ _ _ hon => hon⟩

lemma Kept.trans (h : Kept sv s s' e) (h' : Kept sv s' s'' e) : Kept sv s s'' e where
  listeners := h'.listeners
  running := h'.running
  opened _ hconn hop := h'.opened _ hconn (h.opened _ hconn hop)
  off _ hconn hoff := h'.off _ hconn (h.off _ hconn hoff)
  on _ hconn hne hon := h'.on _ hconn hne (h.on _ hconn hne hon)

/-- One step that is a call for `e`, or no call for an event at all. -/
lemma Kept.of_step (h : Listeners sv s) (hok : Respects sv s l) (hs : Step c s l s' o)
    (hab : s'.aborted = none) (hl : ∀ e', subject l = some e' → e' = e) : Kept sv s s' e where
  listeners := h.step hok hs hab
  running := hab
  opened _ hconn hop := hop.step hok hs hab hconn
  off _ hconn hoff := hoff.step h hconn hs hab
  on _ hconn hne hon := hon.step h hok hconn (fun hsub => hne (hl _ hsub)) hs hab

/-- `event_del` on a connection that listens. -/
lemma del_on (hop : Opened sv s conn) (hon : On sv s conn)
    (hs : Step c s (.del sv.main conn.event) s' o) (hrc : returned o = some rc) :
    rc = .ok ∧ Off sv s' conn := by
  obtain ⟨-, hbase, hfd⟩ := hop
  have hslot : (s.evs conn.event).slot = some conn.slot := by
    have hfilter : filterOf (evRead ||| evPersist) = some .read := by decide
    rw [Event.slot, hon.type, hfilter, hfd]
    rfl
  cases hs with
  | delErr hdel hwhy =>
    obtain ⟨rfl, rfl, hbase', rfl⟩ := hdel.inv_del
    rcases hwhy with hnot | hnone
    · rw [hon.pending] at hnot
      cases hnot
    · rw [← initKeventDelete_slot (c := c) (e := conn.event)] at hslot
      obtain ⟨k, hk, hx⟩ := Option.map_eq_some_iff.1 hslot
      obtain ⟨kn, hkn, -⟩ := hon.knote
      rw [hbase', Option.some.injEq] at hbase
      rw [hk, Option.bind_some, hx, hbase, hkn] at hnone
      cases hnone
  | delWait => cases hrc
  | @delOk _ _ _ base k kn _ hdel =>
    obtain ⟨rfl, rfl, hbase', hkev⟩ := hdel.inv_del
    rw [hbase', Option.some.injEq] at hbase
    rw [← initKeventDelete_slot (c := c) (e := conn.event), ← hkev] at hslot
    have hx : k.slot = conn.slot := Option.some.inj hslot
    refine ⟨(Option.some.inj hrc).symm, by simp, ?_⟩
    simp [hbase, hx]
  | abort hl ho =>
    rcases ho with rfl | ⟨e, st, rfl, -⟩ <;> cases hrc

/-- `event_del` on a connection that does not listen fails. -/
lemma del_off (hoff : Off sv s conn) (hs : Step c s (.del sv.main conn.event) s' o)
    (hrc : returned o = some rc) : rc = .err := by
  cases hs with
  | delErr => exact (Option.some.inj hrc).symm
  | delWait => cases hrc
  | delOk hdel hpend =>
    obtain ⟨rfl, rfl, -⟩ := hdel.inv_del
    rw [hoff.pending] at hpend
    cases hpend
  | abort hl ho =>
    rcases ho with rfl | ⟨e, st, rfl, -⟩ <;> cases hrc

lemma set_type {fd : ℤ} {type : EvType} {fn arg : ℕ}
    (hs : Step c s (.set t e fd type fn arg) s' o) (hab : s'.aborted = none) :
    (s'.evs e).type = type := by
  cases hs with
  | set => simp [Event.assign]
  | delErr hdel | delWait hdel | delOk hdel => cases hdel
  | abort => cases hab

lemma baseSet_type {b : BaseId} (hs : Step c s (.baseSet t b e) s' o) :
    (s'.evs e).type = (s.evs e).type := by
  cases hs with
  | baseSetErr | abort => rfl
  | baseSetOk => simp
  | delErr hdel | delWait hdel | delOk hdel => cases hdel

/-- `event_add` of an event without a filter does nothing. -/
lemma add_nothing {timeout : Option TimeVal} (hs : Step c s (.add t e timeout) s' o)
    (hab : s'.aborted = none) (hnone : filterOf (s.evs e).type = none) : s' = s := by
  cases hs with
  | addBusy | addInval => rfl
  | addLock hmay hset hbase hpend hfilter =>
    rw [hnone] at hfilter
    cases hfilter
  | delErr hdel | delWait hdel | delOk hdel => cases hdel
  | abort => cases hab

end Calls

/-! ## `update_event` and `do_accept_new_conns` -/

/-- The connections are different, and `maxconnsevent` is none of them. -/
structure Server.OK (sv : Server) : Prop where
  nodup : sv.listenConn.Nodup
  event : ∀ conn ∈ sv.listenConn, ∀ conn' ∈ sv.listenConn, conn.event = conn'.event → conn = conn'
  sfd : ∀ conn ∈ sv.listenConn, ∀ conn' ∈ sv.listenConn, conn.sfd = conn'.sfd → conn = conn'
  maxconns : ∀ conn ∈ sv.listenConn, conn.event ≠ sv.maxconnsEvent

/-- A listening connection as `conn_new` leaves it. -/
structure Listening (sv : Server) (w : World) (conn : Conn) : Prop where
  on : On sv w.toState conn
  flags : w.evFlags conn.event = acceptFlags true

/-- A listening connection as `update_event(c, 0)` leaves it. -/
structure Silent (sv : Server) (w : World) (conn : Conn) : Prop where
  off : Off sv w.toState conn
  flags : w.evFlags conn.event = acceptFlags false

/-- What a call for one connection leaves of all of them. -/
structure KeptW (sv : Server) (w w' : World) (e : EvId) : Prop where
  kept : Kept sv w.toState w'.toState e
  flags : ∀ e', e' ≠ e → w'.evFlags e' = w.evFlags e'
  isPriority : w'.isPriority = w.isPriority

section Accept

variable {c : Cfg} {sv : Server} {w w' : World} {conn : Conn} {r : Bool}

lemma KeptW.listening {e : EvId} (h : KeptW sv w w' e) (hconn : conn ∈ sv.listenConn)
    (hne : conn.event ≠ e) (hl : Listening sv w conn) : Listening sv w' conn :=
  ⟨h.kept.on conn hconn hne hl.on, (h.flags _ hne).trans hl.flags⟩

lemma KeptW.silent {e : EvId} (h : KeptW sv w w' e) (hconn : conn ∈ sv.listenConn)
    (hne : conn.event ≠ e) (hs : Silent sv w conn) : Silent sv w' conn :=
  ⟨h.kept.off conn hconn hs.off, (h.flags _ hne).trans hs.flags⟩

lemma updateEvent_same {newFlags : EvType} (hfl : w.evFlags conn.event = newFlags) {t : Tid}
    (h : updateEvent c w t conn newFlags = some (w', r)) : w' = w := by
  rw [updateEvent, if_pos hfl, Option.some.injEq, Prod.mk.injEq] at h
  exact h.1.symm

/-- `update_event(c, 0)` on a connection that listens. -/
lemma updateEvent_off (hsv : sv.OK) (h : Listeners sv w.toState) (hconn : conn ∈ sv.listenConn)
    (hop : Opened sv w.toState conn) (hl : Listening sv w conn) (hprio : w.isPriority conn.event = false)
    (hup : updateEvent c w sv.main conn (acceptFlags false) = some (w', r)) :
    KeptW sv w w' conn.event ∧ Silent sv w' conn := by
  have hsub : ∀ e' : EvId, some conn.event = some e' → e' = conn.event :=
    fun _ he => (Option.some.inj he).symm
  have hne : w.evFlags conn.event ≠ acceptFlags false := by
    rw [hl.flags]
    decide
  simp only [updateEvent, if_neg hne, bind, Option.bind_eq_some_iff] at hup
  obtain ⟨base, hbase, ⟨s₁, rc₁⟩, hdel, hup⟩ := hup
  obtain ⟨o₁, hs₁, hrc₁⟩ := eventDel_eq_some hdel
  have hst₁ := step_cases hs₁
  have hok₁ : Respects sv w.toState (.del sv.main conn.event) := fun _ _ _ => rfl
  have hk₁ := Kept.of_step h hok₁ hst₁
    (not_aborted_of_returned hst₁ (not_aborted_of_step hs₁) hrc₁) hsub
  obtain ⟨rfl, hoff₁⟩ := del_on hop hl.on hst₁ hrc₁
  have hflags : (if w.isPriority conn.event = true then acceptFlags false ||| evRuntime
      else acceptFlags false) = acceptFlags false := by
    rw [hprio]
    rfl
  have hnone : filterOf (acceptFlags false) = none := by decide
  simp only [hflags, Option.bind_eq_some_iff] at hup
  obtain ⟨s₂, hset, ⟨s₃, rc₃⟩, hbs, ⟨s₄, rc₄⟩, hadd, hup⟩ := hup
  obtain ⟨rfl, rfl⟩ := Prod.mk.inj (Option.some.inj hup)
  -- event_set without a filter
  obtain ⟨o₂, hs₂, hab₂⟩ := eventSet_eq_some hset
  have hst₂ := step_cases hs₂
  have hok₂ : Respects sv s₁ (.set sv.main conn.event conn.sfd (acceptFlags false) eventHandler
      conn.event) := by
    refine fun conn' hconn' => ⟨fun hx => ?_, fun he => ?_⟩
    · rw [hnone] at hx
      cases hx
    · rw [hsv.event conn hconn conn' hconn' he]
  have hk₂ := Kept.of_step hk₁.listeners hok₂ hst₂ hab₂ hsub
  -- event_base_set
  obtain ⟨o₃, hs₃, hrc₃⟩ := eventBaseSet_eq_some hbs
  have hst₃ := step_cases hs₃
  have hmain : base = sv.mainBase := by
    rw [hop.evBase, Option.some.injEq] at hbase
    exact hbase.symm
  have hok₃ : Respects sv s₂ (.baseSet sv.main base conn.event) := fun _ _ _ => hmain
  have hk₃ := Kept.of_step hk₂.listeners hok₃ hst₃
    (not_aborted_of_returned hst₃ hab₂ hrc₃) hsub
  -- event_add
  have htype : filterOf (s₃.evs conn.event).type = none := by
    rw [baseSet_type hst₃, set_type hst₂ hab₂, hnone]
  obtain ⟨s₀, o₀, hs₀, hcase⟩ := eventAdd_eq_some hadd
  have hst₀ := step_cases hs₀
  have hab₀ : s₀.aborted = none := by
    rcases hcase with ⟨-, -, hrc⟩ | ⟨_, _, -, hs, -⟩
    · exact not_aborted_of_returned hst₀ hk₃.running hrc
    · exact not_aborted_of_step hs
  have hsame := add_nothing hst₀ hab₀ htype
  have hcall := hst₀.mayCall hab₀ (u := sv.main) (p := .added) rfl (by decide)
  have hend : s₄ = s₃ := by
    rcases hcase with ⟨-, heq, -⟩ | ⟨call, _, hsome, -, -⟩
    · exact heq.trans hsame
    · rw [hsame, hcall] at hsome
      cases hsome
  subst hend
  have hk := (hk₁.trans hk₂).trans hk₃
  exact ⟨⟨hk, fun e he => Function.update_of_ne he _ _, rfl⟩,
    ⟨hk₃.off conn hconn (hk₂.off conn hconn hoff₁), Function.update_self ..⟩⟩

/-- `update_event(c, EV_READ | EV_PERSIST)` on a connection that does not listen: `event_del` fails,
and that is all. -/
lemma updateEvent_dead (h : Listeners sv w.toState) (hconn : conn ∈ sv.listenConn)
    (hs : Silent sv w conn) (hup : updateEvent c w sv.main conn (acceptFlags true) = some (w', r)) :
    r = false ∧ KeptW sv w w' conn.event ∧ Silent sv w' conn := by
  have hne : w.evFlags conn.event ≠ acceptFlags true := by
    rw [hs.flags]
    decide
  simp only [updateEvent, if_neg hne, bind, Option.bind_eq_some_iff] at hup
  obtain ⟨base, hbase, ⟨s₁, rc₁⟩, hdel, hup⟩ := hup
  obtain ⟨o₁, hs₁, hrc₁⟩ := eventDel_eq_some hdel
  have hst₁ := step_cases hs₁
  have hok₁ : Respects sv w.toState (.del sv.main conn.event) := fun _ _ _ => rfl
  have hk₁ := Kept.of_step h hok₁ hst₁
    (not_aborted_of_returned hst₁ (not_aborted_of_step hs₁) hrc₁)
    (fun _ he => (Option.some.inj he).symm)
  obtain rfl := del_off hs.off hst₁ hrc₁
  obtain ⟨rfl, rfl⟩ := Prod.mk.inj (Option.some.inj hup)
  exact ⟨rfl, ⟨hk₁, fun _ _ => rfl, rfl⟩, hk₁.off conn hconn hs.off, hs.flags⟩

/-- What holds at any time after the set-up. -/
structure Good (sv : Server) (w : World) : Prop where
  listeners : Listeners sv w.toState
  opened : ∀ conn ∈ sv.listenConn, Opened sv w.toState conn
  isPriority : ∀ conn ∈ sv.listenConn, w.isPriority conn.event = false

lemma KeptW.good {e : EvId} (h : KeptW sv w w' e) (hw : Good sv w) : Good sv w' where
  listeners := h.kept.listeners
  opened conn hconn := h.kept.opened conn hconn (hw.opened conn hconn)
  isPriority conn hconn := by rw [h.isPriority, hw.isPriority conn hconn]

/-- The loop of `do_accept_new_conns` over `listen_conn`. -/
def updateAll (c : Cfg) (sv : Server) (newFlags : EvType) (l : List Conn) (w : World) :
    Option World :=
  l.foldlM (fun w conn => (updateEvent c w sv.main conn newFlags).map Prod.fst) w

lemma updateAll_cons {newFlags : EvType} {l : List Conn}
    (h : updateAll c sv newFlags (conn :: l) w = some w') :
    ∃ w₁ r, updateEvent c w sv.main conn newFlags = some (w₁, r) ∧
      updateAll c sv newFlags l w₁ = some w' := by
  simp only [updateAll, List.foldlM_cons, bind, Option.bind_eq_some_iff,
    Option.map_eq_some_iff] at h
  obtain ⟨w₁, ⟨⟨w₂, r⟩, hup, rfl⟩, h⟩ := h
  exact ⟨w₂, r, hup, h⟩

/-- Switching off: the connections before `l` are off, those of `l` are still to be done. -/
lemma updateAll_off (hsv : sv.OK) : ∀ {l : List Conn} {w w' : World}, (∀ conn ∈ l, conn ∈ sv.listenConn) →
    Good sv w → (∀ conn ∈ sv.listenConn, Silent sv w conn ∨ conn ∈ l ∧ Listening sv w conn) →
    updateAll c sv (acceptFlags false) l w = some w' →
    Good sv w' ∧ ∀ conn ∈ sv.listenConn, Silent sv w' conn
  | [], w, w', hl, hw, hall, h => by
      obtain rfl : w = w' := Option.some.inj h
      exact ⟨hw, fun conn hconn => (hall conn hconn).resolve_right fun h => List.not_mem_nil h.1⟩
  | conn :: l, w, w', hl, hw, hall, h => by
      obtain ⟨w₁, r, hup, hrest⟩ := updateAll_cons h
      have hconn := hl conn List.mem_cons_self
      have hl' : ∀ conn ∈ l, conn ∈ sv.listenConn := fun conn hc => hl conn (List.mem_cons_of_mem _ hc)
      rcases hall conn hconn with hs | ⟨-, hon⟩
      · obtain rfl := updateEvent_same hs.flags hup
        refine updateAll_off hsv hl' hw (fun conn' hconn' => ?_) hrest
        rcases hall conn' hconn' with hs' | ⟨hmem, hon'⟩
        · exact .inl hs'
        · rcases List.mem_cons.1 hmem with rfl | hmem
          · exact .inl hs
          · exact .inr ⟨hmem, hon'⟩
      · obtain ⟨hk, hs⟩ := updateEvent_off hsv hw.listeners hconn (hw.opened conn hconn) hon
          (hw.isPriority conn hconn) hup
        refine updateAll_off hsv hl' (hk.good hw) (fun conn' hconn' => ?_) hrest
        by_cases he : conn'.event = conn.event
        · rw [hsv.event conn' hconn' conn hconn he]
          exact .inl hs
        · rcases hall conn' hconn' with hs' | ⟨hmem, hon'⟩
          · exact .inl (hk.silent hconn' he hs')
          · rcases List.mem_cons.1 hmem with rfl | hmem
            · exact absurd rfl he
            · exact .inr ⟨hmem, hk.listening hconn' he hon'⟩

/-- Switching on what is on. -/
lemma updateAll_on : ∀ {l : List Conn} {w w' : World},
    (∀ conn ∈ l, Listening sv w conn) → updateAll c sv (acceptFlags true) l w = some w' → w' = w
  | [], w, w', hall, h => (Option.some.inj h).symm
  | conn :: l, w, w', hall, h => by
      obtain ⟨w₁, r, hup, hrest⟩ := updateAll_cons h
      obtain rfl := updateEvent_same (hall conn List.mem_cons_self).flags hup
      exact updateAll_on (fun conn hc => hall conn (List.mem_cons_of_mem _ hc)) hrest

/-- Switching on what is off leaves it off. -/
lemma updateAll_dead (hsv : sv.OK) : ∀ {l : List Conn} {w w' : World},
    (∀ conn ∈ l, conn ∈ sv.listenConn) → Good sv w → (∀ conn ∈ sv.listenConn, Silent sv w conn) →
    updateAll c sv (acceptFlags true) l w = some w' →
    Good sv w' ∧ ∀ conn ∈ sv.listenConn, Silent sv w' conn
  | [], w, w', hl, hw, hall, h => by
      obtain rfl : w = w' := Option.some.inj h
      exact ⟨hw, hall⟩
  | conn :: l, w, w', hl, hw, hall, h => by
      obtain ⟨w₁, r, hup, hrest⟩ := updateAll_cons h
      have hconn := hl conn List.mem_cons_self
      obtain ⟨-, hk, hs⟩ := updateEvent_dead hw.listeners hconn (hall conn hconn) hup
      refine updateAll_dead hsv (fun conn hc => hl conn (List.mem_cons_of_mem _ hc)) (hk.good hw)
        (fun conn' hconn' => ?_) hrest
      by_cases he : conn'.event = conn.event
      · rw [hsv.event conn' hconn' conn hconn he]
        exact hs
      · exact hk.silent hconn' he (hall conn' hconn')

/-- Arming `maxconnsevent` has nothing to do with the listening connections. -/
lemma reschedule_kept (hsv : sv.OK) (h : Listeners sv w.toState)
    (hr : reschedule c sv w = some w') : KeptW sv w w' sv.maxconnsEvent := by
  have hother : ∀ conn ∈ sv.listenConn, sv.maxconnsEvent ≠ conn.event :=
    fun conn hconn => (hsv.maxconns conn hconn).symm
  have hsub : ∀ e' : EvId, some sv.maxconnsEvent = some e' → e' = sv.maxconnsEvent :=
    fun _ he => (Option.some.inj he).symm
  have htimer : filterOf evTimeout = some .timer := by decide
  have hslot : ∀ (fd : ℤ) (conn : Conn), (some (fd, Filter.timer) : Option Slot) ≠ some conn.slot := by
    intro fd conn heq
    have hfilter := congrArg Prod.snd (Option.some.inj heq)
    cases hfilter
  simp only [reschedule, bind, Option.bind_eq_some_iff] at hr
  obtain ⟨s₁, hset, ⟨s₂, rc₂⟩, hbs, ⟨s₃, rc₃⟩, hadd, hr⟩ := hr
  obtain rfl := Option.some.inj hr
  obtain ⟨o₁, hs₁, hab₁⟩ := eventSet_eq_some hset
  have hst₁ := step_cases hs₁
  have hok₁ : Respects sv w.toState
      (.set sv.main sv.maxconnsEvent (-1) evTimeout maxconnsHandlerFn 0) := by
    refine fun conn hconn => ⟨fun hx => absurd hx ?_, fun he => absurd he (hother conn hconn)⟩
    rw [htimer]
    exact hslot _ conn
  have hk₁ := Kept.of_step h hok₁ hst₁ hab₁ hsub
  obtain ⟨o₂, hs₂, hrc₂⟩ := eventBaseSet_eq_some hbs
  have hst₂ := step_cases hs₂
  have hok₂ : Respects sv s₁ (.baseSet sv.main sv.mainBase sv.maxconnsEvent) := fun _ _ _ => rfl
  have hk₂ := Kept.of_step hk₁.listeners hok₂ hst₂
    (not_aborted_of_returned hst₂ hab₁ hrc₂) hsub
  obtain ⟨s₀, o₀, hs₀, hcase⟩ := eventAdd_eq_some hadd
  have hst₀ := step_cases hs₀
  have hok₀ : Respects sv s₂ (.add sv.main sv.maxconnsEvent (some ⟨0, 10000⟩)) := by
    refine fun conn hconn => ⟨fun hx => absurd hx ?_, fun he => absurd he (hother conn hconn)⟩
    rw [Event.slot, patchTimerFd_type, baseSet_type hst₂, set_type hst₁ hab₁, htimer]
    exact hslot _ conn
  have hab₀ : s₀.aborted = none := by
    rcases hcase with ⟨-, -, hrc⟩ | ⟨_, _, -, hs, -⟩
    · exact not_aborted_of_returned hst₀ hk₂.running hrc
    · exact not_aborted_of_step hs
  have hk₀ := (hk₁.trans hk₂).trans (Kept.of_step hk₂.listeners hok₀ hst₀ hab₀ hsub)
  refine ⟨?_, fun _ _ => rfl, rfl⟩
  rcases hcase with ⟨-, rfl, -⟩ | ⟨_, o₃, -, hs₃, hrc₃⟩
  · exact hk₀
  · have hst₃ := step_cases hs₃
    have hok₃ : Respects sv s₀ (.addLocked sv.main true) := trivial
    exact hk₀.trans (Kept.of_step hk₀.listeners hok₃ hst₃
      (not_aborted_of_returned hst₃ hab₀ hrc₃) fun _ he => by cases he)

/-- `event_add` of a timer, as the calls of a handler see it: the first section returns, or the
second. -/
lemma eventAdd_sections {timeout : Option TimeVal} {s s' : State} {t : Tid} {e : EvId} {rc : Rc}
    (h : eventAdd c s t e timeout = some (s', rc)) :
    step c s (.add t e timeout) = some (s', [.result t (.add e) rc]) ∨
      ∃ s₁ o, step c s (.add t e timeout) = some (s₁, []) ∧
        step c s₁ (.addLocked t true) = some (s', o) ∧ .result t (.add e) rc ∈ o := by
  obtain ⟨s₁, o₁, hs₁, hcase⟩ := eventAdd_eq_some h
  have hst₁ := step_cases hs₁
  rcases hcase with ⟨hcall, rfl, hrc⟩ | ⟨call, o₂, hcall, hs₂, hrc⟩
  · cases hst₁ with
    | addBusy | addInval =>
      cases hrc
      exact .inl hs₁
    | addLock => simp at hcall
    | abort hl ho => rcases ho with rfl | ⟨e', st, rfl, -⟩ <;> cases hrc
    | delErr hdel | delWait hdel | delOk hdel => cases hdel
  · have hab₁ := not_aborted_of_step hs₂
    cases hst₁ with
    | addBusy hmay | addInval hmay =>
      rw [(Thread.mayCall_iff.1 hmay).1] at hcall
      cases hcall
    | addLock =>
      refine .inr ⟨_, o₂, hs₁, hs₂, ?_⟩
      cases step_cases hs₂ with
      | addOk hcall₂ =>
        simp only [State.setCall_threads, if_true, Option.some.injEq, Call.addLock.injEq] at hcall₂
        cases hrc
        simp [hcall₂.1]
      | abort hl => cases hl
      | delErr hdel | delWait hdel | delOk hdel => cases hdel
    | abort => cases hab₁
    | delErr hdel | delWait hdel | delOk hdel => cases hdel

/-- `maxconns_handler` adds its timer again to poll, and is refused while its timer is pending. -/
theorem reschedule_rearm (hset : w.isSet sv.maxconnsEvent) (hr : reschedule c sv w = some w') :
    ∃ rc, Rearm c sv.main sv.maxconnsEvent sv.mainBase ⟨0, 10000⟩ maxconnsHandlerFn 0 true w.toState rc
      w'.toState ∧ ((w.evs sv.maxconnsEvent).pending = true → rc = .err) := by
  simp only [reschedule, bind, Option.bind_eq_some_iff] at hr
  obtain ⟨s₁, hs₁, ⟨s₂, rc₂⟩, hs₂, ⟨s₃, rc⟩, hadd, hr⟩ := hr
  obtain rfl := Option.some.inj hr
  obtain ⟨o₁, hs₁, -⟩ := eventSet_eq_some hs₁
  obtain ⟨o₂, hs₂, -⟩ := eventBaseSet_eq_some hs₂
  have hprep : Prepare c sv.main sv.maxconnsEvent sv.mainBase maxconnsHandlerFn 0 w.toState s₂ :=
    ⟨_, _, _, _, _, _, _, hs₁, .nil, hs₂, .nil⟩
  have hcalls : Rearm c sv.main sv.maxconnsEvent sv.mainBase ⟨0, 10000⟩ maxconnsHandlerFn 0 true
      w.toState rc s₃ := by
    rcases eventAdd_sections hadd with hs₃ | ⟨s₀, o, hs₀, hs₃, hrc⟩
    · exact .refused hprep hs₃
    · exact .locked hprep hs₀ .nil hs₃ hrc
  refine ⟨rc, hcalls, fun hpend => ?_⟩
  rcases (hcalls.spec hset).2 with ⟨-, hrc⟩ | ⟨hfree, -⟩
  · exact hrc
  · exact absurd (hpend.symm.trans hfree) (by simp)

/-- `do_accept_new_conns(false)` switches everything off. -/
lemma doAccept_false (hsv : sv.OK) (hw : Good sv w)
    (hall : ∀ conn ∈ sv.listenConn, Silent sv w conn ∨ Listening sv w conn)
    (h : doAcceptNewConns c sv w false = some w') :
    Good sv w' ∧ ∀ conn ∈ sv.listenConn, Silent sv w' conn := by
  simp only [doAcceptNewConns, bind, Option.bind_eq_some_iff, Bool.false_eq_true, if_false] at h
  obtain ⟨w₁, hup, h⟩ := h
  obtain ⟨hw₁, hs₁⟩ := updateAll_off hsv (fun _ hc => hc) hw
    (fun conn hconn => (hall conn hconn).imp_right fun hl => ⟨hconn, hl⟩) hup
  have hk := reschedule_kept (w := { w₁ with allowNewConns := false }) hsv hw₁.listeners h
  refine ⟨hk.good ⟨hw₁.listeners, hw₁.opened, hw₁.isPriority⟩, fun conn hconn => ?_⟩
  exact hk.silent hconn (hsv.maxconns conn hconn) ⟨(hs₁ conn hconn).off, (hs₁ conn hconn).flags⟩

lemma doAccept_true (h : doAcceptNewConns c sv w true = some w') :
    updateAll c sv (acceptFlags true) sv.listenConn w = some w' := by
  simp only [doAcceptNewConns, bind, Option.bind_eq_some_iff, if_true] at h
  obtain ⟨w₁, hup, h⟩ := h
  obtain rfl := Option.some.inj h
  exact hup

end Accept

/-! ## The set-up -/

section Open

variable {c : Cfg} {sv : Server} {w w' : World} {conn : Conn}

lemma set_eq {s s' : State} {o : List Obs} {t : Tid} {e : EvId} {fd : ℤ} {type : EvType}
    {fn arg : ℕ} (hs : Step c s (.set t e fd type fn arg) s' o) (hab : s'.aborted = none) :
    s' = s.setProc (s.setEv e ((s.evs e).firstSet.assign fd type fn arg)) := by
  cases hs with
  | set => rfl
  | delErr hdel | delWait hdel | delOk hdel => cases hdel
  | abort => cases hab

lemma baseSet_eq {s s' : State} {o : List Obs} {t : Tid} {b : BaseId} {e : EvId}
    (hs : Step c s (.baseSet t b e) s' o) (hact : (s.evs e).active = false)
    (hpend : (s.evs e).pending = false) :
    s' = s.setProc (s.setEv e { s.evs e with evBase := some b }) := by
  cases hs with
  | baseSetErr hmay hset hbusy => simp [hact, hpend] at hbusy
  | baseSetOk => rfl
  | delErr hdel | delWait hdel | delOk hdel => cases hdel
  | abort hl => cases hl

lemma add_eq {s s' : State} {o : List Obs} {t : Tid} {e : EvId} {timeout : Option TimeVal}
    {call : Call} (hs : Step c s (.add t e timeout) s' o) (hnone : (s.threads t).call = none)
    (hcall : (s'.threads t).call = some call) (htype : (s.evs e).type.has evTimeout = false) :
    ∃ f, filterOf (s.evs e).type = some f ∧
      s' = s.setCall t (some (.addLock e (mkKevent c (s.evs e) e f (!c.multKq) timeout))) := by
  cases hs with
  | addLock hmay hset hbase hpend hfilter =>
    rw [patchTimerFd_of_not_timeout htype]
    exact ⟨_, hfilter, rfl⟩
  | addBusy | addInval =>
    rw [hnone] at hcall
    cases hcall
  | delErr hdel | delWait hdel | delOk hdel => cases hdel
  | abort =>
    rw [State.abort_threads, hnone] at hcall
    cases hcall

lemma addLocked_eq {s s' : State} {o : List Obs} {t : Tid} {e : EvId} {kev : KEvent}
    {b : BaseId} (hs : Step c s (.addLocked t true) s' o)
    (hcall : (s.threads t).call = some (.addLock e kev)) (hbase : (s.evs e).evBase = some b) :
    s' = (s.setProc ((s.setKq b ((s.kqs b).add kev)).setEv e
      { s.evs e with pending := true }.deactivate)).setCall t none := by
  cases hs with
  | addOk hcall' hlk hbase' =>
    rw [hcall] at hcall'
    obtain ⟨rfl, rfl⟩ := Call.addLock.inj (Option.some.inj hcall')
    rw [hbase] at hbase'
    obtain rfl := Option.some.inj hbase'
    rfl
  | delErr hdel | delWait hdel | delOk hdel => cases hdel
  | abort hl => cases hl

/-- `event_add` of an inactive event that reads. -/
lemma eventAdd_spec {s s' : State} {t : Tid} {e : EvId} {b : BaseId} (hwf : Wf s)
    (htype : (s.evs e).type = evRead ||| evPersist) (hact : (s.evs e).active = false)
    (hbase : (s.evs e).evBase = some b) (h : eventAdd c s t e none = some (s', .ok)) :
    Wf s' ∧ s'.aborted = none ∧ s'.threads = s.threads ∧
      (∀ e', s'.evs e' = if e' = e then { s.evs e with pending := true } else s.evs e') ∧
      ∃ kn, kn.kev.udata = e ∧ ∀ b' x, s'.kqs b' x =
        if b' = b ∧ x = ((s.evs e).fd, Filter.read) then some kn else s.kqs b' x := by
  obtain ⟨s₁, o₁, hs₁, hcase⟩ := eventAdd_eq_some h
  have hst₁ := step_cases hs₁
  rcases hcase with ⟨-, -, hrc⟩ | ⟨call, o₂, hcall, hs₂, hrc⟩
  · exfalso
    cases hst₁ with
    | addBusy | addInval | addLock => cases hrc
    | delErr hdel | delWait hdel | delOk hdel => cases hdel
    | abort hl ho => rcases ho with rfl | ⟨e, st, rfl, -⟩ <;> cases hrc
  · have hst₂ := step_cases hs₂
    have hrun := not_aborted_of_step hs₂
    have hrun₂ := not_aborted_of_returned hst₂ hrun hrc
    have hwf₂ := (hwf.step hst₁).step hst₂
    have hnone := hst₁.mayCall hrun (u := t) (p := .added) rfl (by decide)
    obtain ⟨f, hf, rfl⟩ := add_eq hst₁ hnone hcall (by rw [htype]; decide)
    have hread : filterOf (evRead ||| evPersist) = some .read := by decide
    rw [htype, hread, Option.some.injEq] at hf
    subst hf
    set kev := mkKevent c (s.evs e) e .read (!c.multKq) none with hkev
    have hcall₁ : ((s.setCall t (some (.addLock e kev))).threads t).call =
        some (.addLock e kev) := by simp
    obtain rfl := addLocked_eq hst₂ hcall₁ hbase
    refine ⟨hwf₂, hrun₂, ?_, fun e' => ?_, ⟨kev, true⟩, rfl, fun b' x => ?_⟩
    · funext u
      simp only [State.setCall_threads, State.setProc_threads, if_true]
      split
      · next hu => rw [hu, ← hnone]
      · rfl
    · simp only [State.setCall_toProc, State.setProc_toProc, Proc.setEv_evs, Proc.setKq_evs]
      simp [Event.deactivate, hact]
    · simp only [State.setCall_toProc, State.setProc_toProc, Proc.setEv_kqs, Proc.setKq_kqs]
      by_cases hb : b' = b
      · by_cases hx : x = ((s.evs e).fd, .read) <;> simp [hb, hx, hkev, mkKevent, KEvent.slot]
      · simp [hb]

/-- The `event_add` of `conn_new`. -/
lemma eventAdd_opens (hsv : sv.OK) {s s' : State} (h : Listeners sv s)
    (hconn : conn ∈ sv.listenConn) (hop : Opened sv s conn)
    (htype : (s.evs conn.event).type = evRead ||| evPersist)
    (hact : (s.evs conn.event).active = false)
    (hadd : eventAdd c s sv.main conn.event none = some (s', .ok)) :
    Listeners sv s' ∧ s'.aborted = none ∧ Opened sv s' conn ∧ On sv s' conn ∧
      (∀ e, e ≠ conn.event → s'.evs e = s.evs e) ∧
      ∀ conn' ∈ sv.listenConn, conn'.event ≠ conn.event →
        (Opened sv s conn' → Opened sv s' conn') ∧ (On sv s conn' → On sv s' conn') := by
  obtain ⟨hwf, hrun, hth, hevs, kn, hu, hkqs⟩ := eventAdd_spec h.wf htype hact hop.evBase hadd
  have hx : ((s.evs conn.event).fd, Filter.read) = conn.slot := by rw [hop.fd, Conn.slot]
  rw [hx] at hkqs
  have hself : s'.evs conn.event = { s.evs conn.event with pending := true } := by
    rw [hevs, if_pos rfl]
  have hother : ∀ e, e ≠ conn.event → s'.evs e = s.evs e := fun e he => by rw [hevs, if_neg he]
  have hsame : ∀ e, (s'.evs e).slot = (s.evs e).slot ∧ (s'.isSet e ↔ s.isSet e) ∧
      (s'.evs e).active = (s.evs e).active ∧ (s'.evs e).owner = (s.evs e).owner := by
    intro e
    by_cases he : e = conn.event
    · subst he
      simp [State.isSet, hself, Event.slot]
    · simp [State.isSet, hother e he]
  refine ⟨?_, hrun, ?_, ⟨?_, ?_, kn, ?_, hu⟩, hother, fun conn' hconn' hne => ⟨?_, ?_⟩⟩
  · refine ⟨hwf, fun conn' hc' e hset hslot => ?_, fun conn' hc' t e kev hcall => ?_,
      fun conn' hc' t e b kev hcall => ?_, fun conn' hc' b x kn' hkn hu' => ?_,
      fun conn' hc' u hb => ?_, fun conn' hc' hset hact' => ?_⟩
    · obtain ⟨hsl, hs, -⟩ := hsame e
      exact h.slot conn' hc' e (hs.1 hset) (hsl ▸ hslot)
    · rw [hth] at hcall
      exact h.addLock conn' hc' t e kev hcall
    · rw [hth] at hcall
      exact h.delWait conn' hc' t e b kev hcall
    · rw [hkqs] at hkn
      split at hkn
      · next hbx =>
        obtain rfl := Option.some.inj hkn
        obtain rfl := hsv.event conn hconn conn' hc' (hu.symm.trans hu')
        exact hbx
      · exact h.knote conn' hc' b x kn' hkn hu'
    · rw [hth] at hb
      exact h.batch conn' hc' u hb
    · obtain ⟨-, hs, ha, ho⟩ := hsame conn'.event
      rw [ho]
      exact h.owner conn' hc' (hs.1 hset) (ha ▸ hact')
  · exact ⟨(hsame _).2.1.2 hop.isSet, by rw [hself]; exact hop.evBase, by rw [hself]; exact hop.fd⟩
  · rw [hself]
  · rw [hself]
    exact htype
  · rw [hkqs, if_pos ⟨rfl, rfl⟩]
  · rintro ⟨hset, hbase, hfd⟩
    have hev := hother _ hne
    exact ⟨(hsame _).2.1.2 hset, by rw [hev, hbase], by rw [hev, hfd]⟩
  · rintro ⟨hpend, htype', kn', hkn', hu'⟩
    have hev := hother _ hne
    refine ⟨by rw [hev, hpend], by rw [hev, htype'], kn', ?_, hu'⟩
    rw [hkqs, if_neg, hkn']
    rintro ⟨-, hxx⟩
    have hsfd : conn'.sfd = conn.sfd := congrArg Prod.fst hxx
    rw [hsv.sfd conn' hconn' conn hconn hsfd] at hne
    exact hne rfl

/-- The server while the listening connections are opened; `done` are the ones that are. -/
structure Opening (sv : Server) (w : World) (done : List Conn) : Prop where
  listeners : Listeners sv w.toState
  running : w.aborted = none
  fresh : ∀ conn ∈ sv.listenConn, conn ∉ done → ¬ w.isSet conn.event
  opened : ∀ conn ∈ done, Opened sv w.toState conn ∧ Listening sv w conn ∧
    w.isPriority conn.event = false

lemma Opening.connNew (hsv : sv.OK) {done : List Conn} (h : Opening sv w done)
    (hdone : ∀ conn ∈ done, conn ∈ sv.listenConn) (hconn : conn ∈ sv.listenConn)
    (hnew : conn ∉ done) (hc : connNew c sv w conn (evRead ||| evPersist) = some w') :
    Opening sv w' (conn :: done) := by
  have hsub : ∀ e' : EvId, some conn.event = some e' → e' = conn.event :=
    fun _ he => (Option.some.inj he).symm
  have hne : ∀ conn' ∈ sv.listenConn, conn' ≠ conn → conn'.event ≠ conn.event :=
    fun conn' hc' hne he => hne (hsv.event conn' hc' conn hconn he)
  have hcv : (w.evs conn.event).cvInit ≠ cvInitMagic := h.fresh conn hconn hnew
  simp only [Mem.connNew, bind, Option.bind_eq_some_iff] at hc
  obtain ⟨s₁, hset₁, ⟨s₂, rc₂⟩, hbs, ⟨s₃, rc₃⟩, hadd, hc⟩ := hc
  cases rc₃ with
  | err => cases hc
  | ok =>
    obtain rfl := Option.some.inj hc
    -- event_set
    obtain ⟨o₁, hs₁, hab₁⟩ := eventSet_eq_some hset₁
    have hst₁ := step_cases hs₁
    have hok₁ : Respects sv w.toState (.set sv.main conn.event conn.sfd (evRead ||| evPersist)
        eventHandler conn.event) := by
      have hread : filterOf (evRead ||| evPersist) = some .read := by decide
      refine fun conn' hc' => ⟨fun hx => ?_, fun he => ?_⟩
      · rw [hread] at hx
        have hfd : conn.sfd = conn'.sfd := congrArg Prod.fst (Option.some.inj hx)
        rw [hsv.sfd conn hconn conn' hc' hfd]
      · rw [hsv.event conn hconn conn' hc' he]
    have hk₁ := Kept.of_step h.listeners hok₁ hst₁ hab₁ hsub
    -- event_base_set
    obtain ⟨o₂, hs₂, hrc₂⟩ := eventBaseSet_eq_some hbs
    have hst₂ := step_cases hs₂
    have hok₂ : Respects sv s₁ (.baseSet sv.main sv.mainBase conn.event) := fun _ _ _ => rfl
    have hk₂ := hk₁.trans (Kept.of_step hk₁.listeners hok₂ hst₂
      (not_aborted_of_returned hst₂ hab₁ hrc₂) hsub)
    obtain rfl := set_eq hst₁ hab₁
    obtain rfl := baseSet_eq hst₂ (by simp [Event.assign, Event.firstSet, hcv])
      (by simp [Event.assign, Event.firstSet, hcv])
    -- event_add
    obtain ⟨hl, hrun, hop, hon, hevs, hkeep⟩ := eventAdd_opens hsv hk₂.listeners hconn
      ⟨by simp [State.isSet, Event.assign, Event.firstSet, hcv], by simp, by simp [Event.assign]⟩
      (by simp [Event.assign]) (by simp [Event.assign, Event.firstSet, hcv]) hadd
    refine ⟨hl, hrun, fun conn' hc' hnot => ?_, fun conn' hc' => ?_⟩
    · rw [List.mem_cons, not_or] at hnot
      obtain ⟨hcc, hnot⟩ := hnot
      have he := hne conn' hc' hcc
      have hfresh : (w.evs conn'.event).cvInit ≠ cvInitMagic := h.fresh conn' hc' hnot
      rw [State.isSet, hevs _ he]
      simpa [he] using hfresh
    · rcases List.mem_cons.1 hc' with rfl | hc'
      · refine ⟨hop, ⟨hon, Function.update_self ..⟩, ?_⟩
        simp [EvType.has, evRead, evPersist, evRuntime]
      · have hlc := hdone conn' hc'
        have he := hne conn' hlc fun heq => hnew (heq ▸ hc')
        obtain ⟨hop', ⟨hon', hfl⟩, hpr⟩ := h.opened conn' hc'
        obtain ⟨hko, hkon⟩ := hkeep conn' hlc he
        exact ⟨hko (hk₂.opened conn' hlc hop'),
          ⟨hkon (hk₂.on conn' hlc he hon'), (Function.update_of_ne he _ _).trans hfl⟩,
          (Function.update_of_ne he _ _).trans hpr⟩

/-- All of them are opened. -/
lemma Opening.openAll (hsv : sv.OK) : ∀ {l done : List Conn} {w w' : World}, Opening sv w done →
    (∀ conn ∈ done, conn ∈ sv.listenConn) → (∀ conn ∈ l, conn ∈ sv.listenConn) →
    (done ++ l).Nodup →
    l.foldlM (fun w conn => Mem.connNew c sv w conn (evRead ||| evPersist)) w = some w' →
    ∃ done', (∀ conn, conn ∈ done' ↔ conn ∈ done ∨ conn ∈ l) ∧ Opening sv w' done'
  | [], done, w, w', h, hdone, hl, hnd, hf => by
      obtain rfl := Option.some.inj hf
      exact ⟨done, by simp, h⟩
  | conn :: l, done, w, w', h, hdone, hl, hnd, hf => by
      simp only [List.foldlM_cons, bind, Option.bind_eq_some_iff] at hf
      obtain ⟨w₁, hc, hf⟩ := hf
      have hconn := hl conn List.mem_cons_self
      have hnd' : (conn :: done ++ l).Nodup := List.nodup_middle.1 hnd
      have hnew : conn ∉ done := by
        rw [List.cons_append, List.nodup_cons] at hnd'
        exact fun hmem => hnd'.1 (List.mem_append_left _ hmem)
      obtain ⟨done', hmem, hopen⟩ := openAll hsv (h.connNew hsv hdone hconn hnew hc)
        (List.forall_mem_cons.2 ⟨hconn, hdone⟩) (fun conn hc => hl conn (List.mem_cons_of_mem _ hc))
        hnd' hf
      refine ⟨done', fun conn' => ?_, hopen⟩
      rw [hmem, List.mem_cons, List.mem_cons]
      tauto

end Open

/-! ## Runs -/

section Runs

variable {c : Cfg} {sv : Server} {s s₀ : State} {w w' w₀ w₁ : World} {conn : Conn}

lemma listeners_of_init (h : s.Init) : Listeners sv s where
  wf := h.wf
  slot _ _ e hset := absurd hset (h.unset e)
  addLock _ _ t e kev hcall := by simp [h.threads t] at hcall
  delWait _ _ t e b kev hcall := by simp [h.threads t] at hcall
  knote _ _ b x kn hkn := by simp [h.kqs b x] at hkn
  batch _ _ u hb := by simp [h.threads u, Phase.batch, Phase.locked, Phase.toLock] at hb
  owner _ _ hset := absurd hset (h.unset _)

/-- Before the sockets are opened. -/
lemma opening_of_run {tr : List Obs} (h0 : s₀.Init) (hr : Run (step c) (Apart sv) s₀ tr w.toState)
    (hrun : w.aborted = none) : Opening sv w [] := by
  have hinv : Listeners sv w.toState ∧ ∀ conn ∈ sv.listenConn, ¬ w.isSet conn.event := by
    refine hr.inv (fun s => s.aborted = none →
      Listeners sv s ∧ ∀ conn ∈ sv.listenConn, ¬ s.isSet conn.event)
      (fun _ => ⟨listeners_of_init h0, fun conn _ => h0.unset conn.event⟩) ?_ hrun
    intro s l s' o ih ⟨hok, hsub⟩ hs hab
    have hstep := step_cases hs
    obtain ⟨hl, hfresh⟩ := ih (not_aborted_of_step hs)
    refine ⟨hl.step hok hstep hab, fun conn hconn hset => ?_⟩
    rcases hstep.newly_set hset with hold | ⟨t, fd, type, fn, arg, rfl, -⟩
    · exact hfresh conn hconn hold
    · exact hsub conn hconn rfl
  exact ⟨hinv.1, hrun, fun conn hconn _ => hinv.2 conn hconn, fun conn hc => by cases hc⟩

/-- The listening connections after the set-up. -/
lemma good_of_open (hsv : sv.OK) (h : Opening sv w₀ []) (hopen : openListeners c sv w₀ = some w₁) :
    Good sv w₁ ∧ ∀ conn ∈ sv.listenConn, Listening sv w₁ conn := by
  obtain ⟨done, hmem, hd⟩ := h.openAll hsv (by simp) (fun _ hc => hc) (by simpa using hsv.nodup)
    hopen
  have hall : ∀ conn ∈ sv.listenConn, conn ∈ done := fun conn hc => (hmem conn).2 (.inr hc)
  exact ⟨⟨hd.listeners, fun conn hc => (hd.opened conn (hall conn hc)).1,
    fun conn hc => (hd.opened conn (hall conn hc)).2.2⟩,
    fun conn hc => (hd.opened conn (hall conn hc)).2.1⟩

/-- What was accepted goes on being accepted, and what was switched off stays off. -/
structure Steady (sv : Server) (w w' : World) : Prop where
  good : Good sv w'
  listening : ∀ conn ∈ sv.listenConn, Listening sv w conn → Listening sv w' conn
  silent : ∀ conn ∈ sv.listenConn, Silent sv w conn → Silent sv w' conn

lemma aborts {s s' : State} {l : Label} {o : List Obs} (hs : Step c s l s' o)
    (hrun : s.aborted = none) (hab : s'.aborted ≠ none) : ∃ a, s' = s.abort a := by
  cases hs with
  | abort => exact ⟨_, rfl⟩
  | _ => exact absurd hrun hab

/-- A step of the process that keeps away from the listening connections. -/
lemma steady_loop {l : Label} {s' : State} {o : List Obs} (hw : Good sv w)
    (hok : Apart sv w.toState l) (hs : step c w.toState l = some (s', o)) :
    Steady sv w { w with toState := s' } := by
  have hstep := step_cases hs
  by_cases hab : s'.aborted = none
  · refine ⟨⟨hw.listeners.step hok.1 hstep hab,
      fun conn hc => (hw.opened conn hc).step hok.1 hstep hab hc, hw.isPriority⟩,
      fun conn hc hl => ⟨hl.on.step hw.listeners hok.1 hc (hok.2 conn hc) hstep hab, hl.flags⟩,
      fun conn hc hs => ⟨hs.off.step hw.listeners hc hstep hab, hs.flags⟩⟩
  · -- an assertion that fails changes nothing else
    have hwf := hw.listeners.wf.step hstep
    obtain ⟨a, rfl⟩ := aborts hstep (not_aborted_of_step hs) hab
    refine ⟨⟨⟨hwf, hw.listeners.slot, hw.listeners.addLock, hw.listeners.delWait,
      hw.listeners.knote, hw.listeners.batch, hw.listeners.owner⟩, fun conn hc => ?_,
      hw.isPriority⟩, fun conn hc hl => ?_, fun conn hc hs => ?_⟩
    · obtain ⟨hset, hbase, hfd⟩ := hw.opened conn hc
      exact ⟨hset, hbase, hfd⟩
    · obtain ⟨⟨hpend, htype, hkn⟩, hfl⟩ := hl
      exact ⟨⟨hpend, htype, hkn⟩, hfl⟩
    · obtain ⟨⟨hpend, hkn⟩, hfl⟩ := hs
      exact ⟨⟨hpend, hkn⟩, hfl⟩

lemma KeptW.steady (h : KeptW sv w w' sv.maxconnsEvent) (hsv : sv.OK) (hw : Good sv w) :
    Steady sv w w' :=
  ⟨h.good hw, fun _ hc hl => h.listening hc (hsv.maxconns _ hc) hl,
    fun _ hc hs => h.silent hc (hsv.maxconns _ hc) hs⟩

lemma accepting_of_listening (h : ∀ conn ∈ sv.listenConn, Listening sv w conn) :
    Accepting sv w := by
  intro conn hconn
  obtain ⟨⟨hpend, htype, hkn⟩, hfl⟩ := h conn hconn
  exact ⟨hpend, hkn, hfl.trans htype.symm⟩

lemma notAccepting_of_silent (hw : Good sv w) (h : ∀ conn ∈ sv.listenConn, Silent sv w conn) :
    NotAccepting sv w := by
  intro conn hconn b x kn hkn hu
  obtain ⟨rfl, rfl⟩ := hw.listeners.knote conn hconn b x kn hkn hu
  rw [(h conn hconn).off.knote] at hkn
  cases hkn

lemma not_accepting_of_silent (hne : sv.listenConn ≠ [])
    (h : ∀ conn ∈ sv.listenConn, Silent sv w conn) : ¬ Accepting sv w := by
  obtain ⟨conn, hconn⟩ := List.exists_mem_of_ne_nil _ hne
  intro hacc
  have hpend := (hacc conn hconn).1
  rw [(h conn hconn).off.pending] at hpend
  cases hpend

lemma forall_mem_concat {α : Type*} {P : α → Prop} {l : List α} {y : α} :
    (∀ x ∈ l ++ [y], P x) ↔ (∀ x ∈ l, P x) ∧ P y := by
  rw [List.forall_mem_append, List.forall_mem_singleton]

/-- Some `do_accept_new_conns(false)` was called. -/
abbrev SwitchedOff (tr : List (Bool × World)) : Prop := Armed (fun x => x.1 = false) (fun _ => False) tr

/-- No `do_accept_new_conns(true)` was called after a `do_accept_new_conns(false)`. -/
def NeverOnAgain (tr : List (Bool × World)) : Prop :=
  NoneBetween (fun x => x.1 = false) (fun _ => False) (fun x => x.1 = true) tr

/-- The state of all of them, by what was called. -/
structure Tracks (sv : Server) (tr : List (Bool × World)) (w : World) : Prop where
  good : Good sv w
  silent : SwitchedOff tr → ∀ conn ∈ sv.listenConn, Silent sv w conn
  listening : ¬ SwitchedOff tr → ∀ conn ∈ sv.listenConn, Listening sv w conn
  ok : (∀ x ∈ tr, AcceptOK sv x) ↔ NeverOnAgain tr

variable {tr : List (Bool × World)}

/-- A step that is no call of `do_accept_new_conns`. -/
lemma Tracks.steady (h : Tracks sv tr w) (hs : Steady sv w w') : Tracks sv tr w' where
  good := hs.good
  silent harm conn hc := hs.silent conn hc (h.silent harm conn hc)
  listening harm conn hc := hs.listening conn hc (h.listening harm conn hc)
  ok := h.ok

lemma Tracks.off (hsv : sv.OK) (h : Tracks sv tr w)
    (hd : doAcceptNewConns c sv w false = some w') : Tracks sv (tr ++ [(false, w')]) w' := by
  have hall : ∀ conn ∈ sv.listenConn, Silent sv w conn ∨ Listening sv w conn := by
    intro conn hc
    by_cases harm : SwitchedOff tr
    · exact .inl (h.silent harm conn hc)
    · exact .inr (h.listening harm conn hc)
  obtain ⟨hw, hs⟩ := doAccept_false hsv h.good hall hd
  have harm : SwitchedOff (tr ++ [(false, w')]) := armed_concat.2 (.inl rfl)
  have hacc : AcceptOK sv (false, w') := notAccepting_of_silent hw hs
  refine ⟨hw, fun _ => hs, fun hnot => absurd harm hnot, ?_⟩
  rw [NeverOnAgain, noneBetween_concat, ← NeverOnAgain, ← h.ok, forall_mem_concat]
  exact and_congr_right fun _ => iff_of_true hacc fun _ => Bool.false_ne_true

lemma Tracks.on (hsv : sv.OK) (hne : sv.listenConn ≠ []) (h : Tracks sv tr w)
    (hd : doAcceptNewConns c sv w true = some w') : Tracks sv (tr ++ [(true, w')]) w' := by
  have hup := doAccept_true hd
  have hiff : SwitchedOff (tr ++ [(true, w')]) ↔ SwitchedOff tr := by
    rw [SwitchedOff, armed_concat]
    simp
  by_cases harm : SwitchedOff tr
  · -- what is off stays off
    obtain ⟨hw, hs⟩ := updateAll_dead hsv (fun _ hc => hc) h.good (h.silent harm) hup
    have hacc : ¬ AcceptOK sv (true, w') := not_accepting_of_silent hne hs
    refine ⟨hw, fun _ => hs, fun hnot => absurd (hiff.2 harm) hnot, ?_⟩
    rw [NeverOnAgain, noneBetween_concat, ← NeverOnAgain, forall_mem_concat]
    exact iff_of_false (fun h => hacc h.2) fun h => h.2 harm rfl
  · -- what is on is left alone
    obtain rfl := updateAll_on (h.listening harm) hup
    have hacc : AcceptOK sv (true, w') := accepting_of_listening (h.listening harm)
    refine ⟨h.good, fun harm' => absurd (hiff.1 harm') harm, fun _ => h.listening harm, ?_⟩
    rw [NeverOnAgain, noneBetween_concat, ← NeverOnAgain, ← h.ok, forall_mem_concat]
    exact and_congr_right fun _ => iff_of_true hacc fun harm' => absurd harm' harm

lemma Tracks.step (hsv : sv.OK) (hne : sv.listenConn ≠ []) (h : Tracks sv tr w) {l : MLabel}
    {o : List (Bool × World)} (hok : LoopOK sv w l) (hs : mstep c sv w l = some (w', o)) :
    Tracks sv (tr ++ o) w' := by
  cases l with
  | loop l =>
    obtain ⟨⟨s', o'⟩, hstep, heq⟩ := Option.map_eq_some_iff.1 hs
    obtain ⟨rfl, rfl⟩ := Prod.mk.inj heq
    rw [List.append_nil]
    exact h.steady (steady_loop h.good hok hstep)
  | acceptNewConns doAccept =>
    obtain ⟨w₁, hd, heq⟩ := Option.map_eq_some_iff.1 hs
    obtain ⟨rfl, rfl⟩ := Prod.mk.inj heq
    cases doAccept with
    | false => exact h.off hsv hd
    | true => exact h.on hsv hne hd
  | maxconns =>
    obtain ⟨⟨w₁, called⟩, hm, heq⟩ := Option.map_eq_some_iff.1 hs
    obtain ⟨rfl, rfl⟩ := Prod.mk.inj heq
    simp only [maxconnsHandler] at hm
    split at hm
    · obtain ⟨w₂, hr, heq⟩ := Option.map_eq_some_iff.1 hm
      obtain ⟨rfl, rfl⟩ := Prod.mk.inj heq
      simp only [Bool.false_eq_true, if_false, List.append_nil]
      exact h.steady ((reschedule_kept hsv h.good.listeners hr).steady hsv h.good)
    · simp only [bind, Option.bind_eq_some_iff] at hm
      obtain ⟨⟨s₁, rc⟩, hdel, w₂, hd, heq⟩ := hm
      obtain ⟨rfl, rfl⟩ := Prod.mk.inj (Option.some.inj heq)
      obtain ⟨o₁, hs₁, hrc⟩ := eventDel_eq_some hdel
      have hst := step_cases hs₁
      have hresp : Respects sv w.toState (.del sv.main sv.maxconnsEvent) := fun _ _ _ => rfl
      have hk := Kept.of_step (e := sv.maxconnsEvent) h.good.listeners hresp hst
        (not_aborted_of_returned hst (not_aborted_of_step hs₁) hrc)
        (fun _ he => (Option.some.inj he).symm)
      have hkw : KeptW sv w { w with toState := s₁ } sv.maxconnsEvent := ⟨hk, fun _ _ => rfl, rfl⟩
      simp only [if_true]
      exact (h.steady (hkw.steady hsv h.good)).on hsv hne hd
  | connClose =>
    obtain ⟨rfl, rfl⟩ := Prod.mk.inj (Option.some.inj hs)
    rw [List.append_nil]
    refine h.steady ⟨⟨h.good.listeners, h.good.opened, h.good.isPriority⟩,
      fun conn _ hl => ⟨⟨hl.on.pending, hl.on.type, hl.on.knote⟩, hl.flags⟩,
      fun conn _ hs => ⟨⟨hs.off.pending, hs.off.knote⟩, hs.flags⟩⟩

/-- **Accepting once switched off stays off.**  The calls of `do_accept_new_conns` do what they are
for, in the whole run, exactly if there is no listening connection or none of them switches on what
another one switched off before. -/
theorem acceptOK_iff (c : Cfg) (sv : Server) (hsv : sv.OK) {s₀ : State} {tr₀ : List Obs}
    {w₀ w₁ w : World} {tr : List (Bool × World)} (h0 : s₀.Init)
    (hr₀ : Run (step c) (Apart sv) s₀ tr₀ w₀.toState) (hopen : openListeners c sv w₀ = some w₁)
    (hr : Run (mstep c sv) (LoopOK sv) w₁ tr w) :
    (∀ x ∈ tr, AcceptOK sv x) ↔ sv.listenConn = [] ∨ NeverOnAgain tr := by
  by_cases hne : sv.listenConn = []
  · refine iff_of_true (fun x _ => ?_) (.inl hne)
    simp only [AcceptOK, Accepting, NotAccepting, hne, List.not_mem_nil, false_implies,
      implies_true, ite_self]
  · have hrun : w₀.aborted = none := by
      obtain ⟨conn, l, hl⟩ := List.exists_cons_of_ne_nil hne
      simp only [openListeners, hl, List.foldlM_cons, bind, Option.bind_eq_some_iff] at hopen
      obtain ⟨w₂, hc, -⟩ := hopen
      simp only [connNew, bind, Option.bind_eq_some_iff] at hc
      obtain ⟨s₁, hset, -⟩ := hc
      obtain ⟨o, hs, -⟩ := eventSet_eq_some hset
      exact not_aborted_of_step hs
    obtain ⟨hw, hl⟩ := good_of_open hsv (opening_of_run h0 hr₀ hrun) hopen
    have hinv : Tracks sv tr w := by
      refine hr.inv_trace (Tracks sv) ⟨hw, fun harm => ?_, fun _ => hl, ?_⟩ ?_
      · exact absurd harm not_armed_nil
      · simp [NeverOnAgain]
      · exact fun tr w l w' o h hok hs => h.step hsv hne hok hs
    rw [hinv.ok]
    simp [hne]

end Runs

/-! ## One listening connection -/

instance Respects.decidable (sv : Server) (s : State) : ∀ l, Decidable (Respects sv s l)
  | .set _ e fd type _ _ => inferInstanceAs (Decidable (∀ conn ∈ sv.listenConn,
      ((filterOf type).map (fun f => (fd, f)) = some conn.slot → e = conn.event) ∧
        (e = conn.event → fd = conn.sfd)))
  | .baseSet _ b e => inferInstanceAs (Decidable (∀ conn ∈ sv.listenConn,
      e = conn.event → b = sv.mainBase))
  | .add _ e _ => inferInstanceAs (Decidable (∀ conn ∈ sv.listenConn,
      (((patchTimerFd s.toProc e).evs e).slot = some conn.slot → e = conn.event) ∧
        (e = conn.event → filterOf (s.evs e).type = none)))
  | .del t e => inferInstanceAs (Decidable (∀ conn ∈ sv.listenConn, e = conn.event → t = sv.main))
  | .fetch t b _ => inferInstanceAs (Decidable (b = sv.mainBase → t = sv.main))
  | .close fd => inferInstanceAs (Decidable (∀ conn ∈ sv.listenConn, conn.sfd ≠ fd))
  | .activate _ | .invoke _ | .ret _ | .finish _ _ | .advance _ | .unlock _ | .addLocked _ _
  | .delWake _ | .spurious _ | .cleanup _ _ => isTrue trivial

instance LoopOK.decidable (sv : Server) (w : World) : ∀ l, Decidable (LoopOK sv w l)
  | .loop l => inferInstanceAs (Decidable (Respects sv w.toState l ∧ ∀ conn ∈ sv.listenConn, _))
  | .acceptNewConns _ | .maxconns | .connClose => isTrue trivial

/-- A server with one listening connection. -/
def oneListener : Server where
  main := 0
  mainBase := 0
  listenConn := [⟨0, 3⟩]
  maxconnsEvent := 1

lemma oneListener_ok : oneListener.OK where
  nodup := by decide
  event := by decide
  sfd := by decide
  maxconns := by decide

/-- The start with zeroed memory. -/
def World.zero : World where
  toState := .zero
  evFlags _ := 0
  isPriority _ := false
  allowNewConns := true

/-- The server after the set-up. -/
def openedServer : World :=
  (openListeners ⟨false, false⟩ oneListener .zero).get (by decide +kernel)

lemma openListeners_zero : openListeners ⟨false, false⟩ oneListener .zero = some openedServer :=
  (Option.some_get _).symm

/-- A pass of the main thread with one event; `body` is what its handler does. -/
def passOf (x : Slot) (body : MLabel) : List MLabel :=
  [.loop (.fetch 0 0 [x]), .loop (.activate 0), .loop (.advance 0), .loop (.invoke 0), body,
    .loop (.ret 0), .loop (.advance 0), .loop (.finish 0 0), .loop (.advance 0),
    .loop (.unlock 0), .loop (.advance 0)]

/-- Accepting is switched on, which it is already, and then off. -/
def offRun : List MLabel :=
  .acceptNewConns true :: passOf (3, .read) (.acceptNewConns false)

lemma offRun_guarded :
    Guarded (mstep ⟨false, false⟩ oneListener) (LoopOK oneListener) openedServer offRun := by
  decide +kernel

/-- The calls of the run above do what they are for. -/
theorem acceptOK_offRun : ∃ w tr, Run (mstep ⟨false, false⟩ oneListener) (LoopOK oneListener)
    openedServer tr w ∧ tr.map Prod.fst = [true, false] ∧ ∀ x ∈ tr, AcceptOK oneListener x := by
  obtain ⟨w, tr, hr, htr⟩ := Run.exists_of_exec (mstep ⟨false, false⟩ oneListener) openedServer offRun
    (fun r => r.2.map Prod.fst) [true, false] (by decide +kernel) offRun_guarded
  refine ⟨w, tr, hr, htr, ?_⟩
  rw [acceptOK_iff ⟨false, false⟩ oneListener oneListener_ok State.zero_init .nil
    openListeners_zero hr]
  obtain ⟨⟨b₁, w₁⟩, l₁, rfl, hb₁, hl₁⟩ := List.map_eq_cons_iff.1 htr
  obtain ⟨⟨b₂, w₂⟩, l₂, rfl, hb₂, hl₂⟩ := List.map_eq_cons_iff.1 hl₁
  obtain rfl := List.map_eq_nil_iff.1 hl₂
  refine .inr ?_
  show NoneBetween _ _ _ (([] ++ [(b₁, w₁)]) ++ [(b₂, w₂)])
  rw [noneBetween_concat, noneBetween_concat]
  exact ⟨⟨noneBetween_nil, fun h => absurd h not_armed_nil⟩,
    fun _ h => Bool.false_ne_true (hb₂.symm.trans h)⟩

/-- The handler of the listener switches accepting off; a connection closes, and the timer handler
switches accepting on. -/
def onRun : List MLabel :=
  passOf (3, .read) (.acceptNewConns false) ++ .connClose :: passOf (-1, .timer) .maxconns

lemma onRun_guarded :
    Guarded (mstep ⟨false, false⟩ oneListener) (LoopOK oneListener) openedServer onRun := by
  decide +kernel

/-- **The listener never accepts again.**  In the run above the timer handler does not register the
listening connection. -/
theorem not_acceptOK_onRun : ∃ w tr, Run (mstep ⟨false, false⟩ oneListener) (LoopOK oneListener)
    openedServer tr w ∧ w.aborted = none ∧ ¬ ∀ x ∈ tr, AcceptOK oneListener x := by
  obtain ⟨w, tr, hr, htr⟩ := Run.exists_of_exec (mstep ⟨false, false⟩ oneListener) openedServer onRun
    (fun r => (r.1.aborted, r.2.map fun x => (x.1, (x.2.evs 0).pending)))
    (none, [(false, false), (true, false)]) (by decide +kernel) onRun_guarded
  simp only [Prod.mk.injEq] at htr
  obtain ⟨hab, htr⟩ := htr
  refine ⟨w, tr, hr, hab, fun hall => ?_⟩
  have hmem : (true, false) ∈ tr.map fun x => (x.1, (x.2.evs 0).pending) := by
    rw [htr]
    decide
  obtain ⟨⟨b, w'⟩, hx, heq⟩ := List.mem_map.1 hmem
  obtain ⟨rfl, hpend⟩ := Prod.mk.inj heq
  have hacc : Accepting oneListener w' := hall _ hx
  rw [(hacc ⟨0, 3⟩ (by decide)).1] at hpend
  cases hpend

end Skq.Mem
