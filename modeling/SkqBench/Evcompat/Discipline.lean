import SkqBench.Evcompat.Ownership

/-!
# Events that are changed in their own handlers

Once the loops run, an event is changed by the handler that runs for it and by nobody else: one
`event_del`, then at most one `event_set`, one `event_base_set` and one `event_add`, in this order,
and nothing after the `event_add` (`Disciplined`).  How far a handler has come is not in the state
of the process, so a run carries a history (`Hist`) along, which also numbers the activations of
every event.

`Disc` is the invariant.  Its centre is `held`: a kevent that is held is for an event that is
pending and is registered in the slot of the kevent.  While a handler changes its event the event
is not pending, so nobody holds it; afterwards the old entry of the handler is stale by its epoch,
whoever fetches the event next.
-/

namespace Skq.Evcompat

open Lib

/-! ## The history -/

/-- How far a handler has come with the change of its event. -/
inductive Progress
  | untouched
  | deleted
  | reset
  | rebased
  | added
  deriving DecidableEq, Repr

/-- The change is under way. -/
def Progress.isOpen : Progress → Bool
  | .untouched | .added => false
  | .deleted | .reset | .rebased => true

/-- What is remembered of a run.
* `progress`: how far the handler that runs in a thread has come.
* `acts`: how often an event has been activated.
* `mine`: the number of the last activation of an event by a thread. -/
structure Hist where
  progress : Tid → Progress
  acts : EvId → ℕ
  mine : Tid → EvId → ℕ

/-- Nothing has happened. -/
def Hist.zero : Hist := ⟨fun _ => .untouched, fun _ => 0, fun _ _ => 0⟩

/-- What a step means for the progress of a handler. -/
def Label.progress : Label → Option (Tid × Progress)
  | .invoke t => some (t, .untouched)
  | .del t _ => some (t, .deleted)
  | .set t _ _ _ _ _ => some (t, .reset)
  | .baseSet t _ _ => some (t, .rebased)
  | .add t _ _ => some (t, .added)
  | _ => none

/-- The activation a step makes. -/
def State.activates (s : State) : Label → Option (Tid × EvId)
  | .activate t => (s.target (.activate t)).map fun e => (t, e)
  | _ => none

/-- The history after a step from `s`. -/
def Hist.next (h : Hist) (s : State) (l : Label) : Hist where
  progress :=
    match l.progress with
    | some (t, p) => Function.update h.progress t p
    | none => h.progress
  acts :=
    match s.activates l with
    | some (_, e) => Function.update h.acts e (h.acts e + 1)
    | none => h.acts
  mine :=
    match s.activates l with
    | some (t, e) => Function.update h.mine t (Function.update (h.mine t) e (h.acts e + 1))
    | none => h.mine

/-- The process with its history.  A step in which an assertion fails does nothing. -/
def hstep (c : Cfg) (x : State × Hist) (l : Label) : Option ((State × Hist) × List Obs) :=
  (step c x.1 l).map fun r =>
    ((r.1, if r.1.aborted.isSome then x.2 else x.2.next x.1 l), r.2)

section History

variable {s : State} {h : Hist} {l : Label} {t : Tid} {e : EvId}

lemma Hist.next_progress : (h.next s l).progress t = h.progress t ∨
    l.progress = some (t, (h.next s l).progress t) := by
  simp only [Hist.next]
  cases hl : l.progress with
  | none => exact .inl rfl
  | some tp =>
    obtain ⟨t', p⟩ := tp
    simp only [Function.update_apply]
    split
    · next ht => exact .inr (by rw [ht])
    · exact .inl rfl

lemma Hist.next_of_not_activates (hl : s.activates l = none) :
    (h.next s l).acts = h.acts ∧ (h.next s l).mine = h.mine := by
  simp [Hist.next, hl]

lemma activates_eq_some : s.activates l = some (t, e) ↔ l = .activate t ∧
    ∃ b k todo done, (s.threads t).phase = .activating b (k :: todo) done ∧ k.udata = e := by
  cases l with
  | activate t' =>
    simp only [State.activates, State.target]
    constructor
    · intro hl
      split at hl
      · next b k todo done hph =>
        simp only [Option.map_some, Option.some.injEq, Prod.mk.injEq] at hl
        obtain ⟨rfl, rfl⟩ := hl
        exact ⟨rfl, b, k, todo, done, hph, rfl⟩
      · simp at hl
    · rintro ⟨hl, b, k, todo, done, hph, rfl⟩
      obtain rfl := Label.activate.inj hl
      simp [hph]
  | _ => simp [State.activates]

/-- An activation of another event leaves the numbers of this one alone. -/
lemma Hist.next_acts_of_ne (hl : ∀ t, s.activates l ≠ some (t, e)) :
    (h.next s l).acts e = h.acts e ∧ (h.next s l).mine t e = h.mine t e := by
  cases hact : s.activates l with
  | none =>
    rw [(Hist.next_of_not_activates hact).1, (Hist.next_of_not_activates hact).2]
    exact ⟨rfl, rfl⟩
  | some te =>
    obtain ⟨t', e'⟩ := te
    have hne : e ≠ e' := by
      rintro rfl
      exact hl t' hact
    simp only [Hist.next, hact, Function.update_apply, if_neg hne, true_and]
    split
    · next ht => rw [Function.update_of_ne hne, ht]
    · rfl

lemma Hist.next_activated (hl : s.activates l = some (t, e)) :
    (h.next s l).mine t e = (h.next s l).acts e := by
  simp [Hist.next, hl]

end History

/-! ## The discipline -/

namespace Phase

/-- Activated, and the handler has not been called yet. -/
def unstarted : Phase → List Active
  | .activating _ _ done => done
  | .calling _ false todo _ => todo
  | .calling _ true (_ :: todo) _ => todo
  | _ => []

end Phase

/-- Thread `t` runs the handler of `e`. -/
def State.Runs (s : State) (t : Tid) (e : EvId) : Prop :=
  ∃ a, (s.threads t).phase.running = some a ∧ a.ev = e

/-- Thread `t` runs the handler of `e` and has come as far as `ps` with its change. -/
def Handles (x : State × Hist) (t : Tid) (e : EvId) (ps : List Progress) : Prop :=
  x.1.Runs t e ∧ x.2.progress t ∈ ps

/-- One more change does not make the epoch of an event go around in the batch of a thread. -/
def EpochRoom (s : State) (e : EvId) : Prop :=
  ∀ u, ∀ a ∈ (s.threads u).phase.activated, a.ev = e → (s.evs e).epoch + 1 < a.epoch + 2 ^ 32

/-- What the callers have to respect once the loops run. -/
def Disciplined (x : State × Hist) : Label → Prop
  | .del t e => Handles x t e [.untouched] ∧ EpochRoom x.1 e
  | .set t e _ _ _ _ => Handles x t e [.deleted]
  | .baseSet t _ e => Handles x t e [.deleted, .reset]
  | .add t e _ => Handles x t e [.deleted, .reset, .rebased]
  | .addLocked t true => ∀ e kev b, (x.1.threads t).call = some (.addLock e kev) →
      (x.1.evs e).evBase = some b → ∀ kn, x.1.kqs b kev.slot = some kn → kn.kev.udata = e
  | .close fd => ∀ b y, y.1 = fd → y.2 ≠ .timer → x.1.kqs b y = none
  | .cleanup _ _ => False
  | _ => True

/-! ## The invariant -/

/-- Thread `t` is in the middle of a change of `e`. -/
def Changing (s : State) (h : Hist) (t : Tid) (e : EvId) : Prop :=
  s.Runs t e ∧ ((h.progress t).isOpen = true ∨ (s.threads t).call ≠ none)

/-- The entries of a batch that no handler has changed. -/
def State.unchanged (s : State) (h : Hist) (t : Tid) : List Active :=
  (s.threads t).phase.unstarted ++
    if h.progress t = .untouched then (s.threads t).phase.running.toList else []

/-- The invariant.
* `call`: a call in progress is an `event_add` of a handler, with the change for its event.
* `changing`, `one`: an event that is being changed is not pending and not active, and one thread
  changes it.
* `unchanged`: entries that no handler has changed are fresh.
* `held`: an event that is held is registered where the kevent says, in the base of the pass.
* `disabled`: a knote that is disabled is for an event that somebody holds.
* `acts`, `enlist`: an activation that a thread still has to end is the last one of its event.
* `near`: no epoch has gone around in a batch. -/
structure Disc (s : State) (h : Hist) : Prop where
  call : ∀ t call, (s.threads t).call = some call → ∃ e kev, call = .addLock e kev ∧
    s.Runs t e ∧ h.progress t = .added ∧ (s.evs e).slot = some kev.slot
  changing : ∀ t e, Changing s h t e → (s.evs e).pending = false ∧ (s.evs e).active = false
  one : ∀ t t' e, Changing s h t e → Changing s h t' e → t = t'
  unchanged : ∀ t, ∀ a ∈ s.unchanged h t, a.epoch = (s.evs a.ev).epoch
  held : ∀ u, ∀ k ∈ s.held u, (s.evs k.udata).pending = true ∧
    (s.evs k.udata).slot = some k.slot ∧ (s.threads u).phase.base = (s.evs k.udata).evBase
  disabled : ∀ b x kn, s.kqs b x = some kn → kn.enabled = false →
    ∃ u, 0 < s.holds u kn.kev.udata
  acts : ∀ u, ∀ a ∈ (s.threads u).phase.activated, a.epoch = (s.evs a.ev).epoch →
    h.mine u a.ev = h.acts a.ev
  enlist : ∀ u, ∀ k ∈ (s.threads u).phase.enlist, h.mine u k.udata = h.acts k.udata
  near : ∀ u, ∀ a ∈ (s.threads u).phase.activated, (s.evs a.ev).epoch < a.epoch + 2 ^ 32

/-- All invariants of a disciplined run. -/
structure LoopInv (s : State) (h : Hist) : Prop extends Disc s h where
  owned : Owned s
  reg : RegInv s
  wf : Wf s
  locks : LockInv s

section Views

variable {c : Cfg} {s : State} {u : Tid} {l : Label} {ph : Phase}

lemma PhaseStep.running_source (hp : PhaseStep c s u l ph) {a : Active}
    (ha : ph.running = some a) : (s.threads u).phase.running = some a ∧ l.pass ≠ some u ∨
      l = .invoke u ∧ a ∈ (s.threads u).phase.unstarted ∧ (s.threads u).phase.running = none := by
  cases hp with
  | keep hl => exact .inl ⟨ha, hl⟩
  | invoke hph =>
    obtain rfl := Option.some.inj ha
    refine .inr ⟨rfl, ?_, ?_⟩
    · rw [hph]
      exact List.mem_cons_self
    · rw [hph]
      rfl
  | _ => cases ha

lemma PhaseStep.unstarted_source (hp : PhaseStep c s u l ph) {a : Active}
    (ha : a ∈ ph.unstarted) : a ∈ (s.threads u).phase.unstarted ∨
      ∃ b k todo done, l = .activate u ∧ (s.threads u).phase = .activating b (k :: todo) done ∧
        a = ⟨k, (s.evs k.udata).epoch⟩ := by
  cases hp with
  | keep => exact .inl ha
  | activate hph =>
    rcases List.mem_append.1 ha with ha | ha
    · rw [hph]
      exact .inl ha
    · exact .inr ⟨_, _, _, _, rfl, hph, List.mem_singleton.1 ha⟩
  | toCalling hph =>
    rw [hph]
    exact .inl ha
  | invoke hph =>
    rw [hph]
    exact .inl (List.mem_cons_of_mem _ ha)
  | ret hth =>
    rw [hth]
    exact .inl ha
  | _ => simp [Phase.unstarted] at ha

lemma running_activated {a : Active} (ha : ph.running = some a) : a ∈ ph.activated := by
  cases ph with
  | calling b run todo done =>
    cases run with
    | true =>
      cases todo with
      | nil => cases ha
      | cons a' todo =>
        obtain rfl := Option.some.inj ha
        simp [Phase.activated]
    | false => cases ha
  | _ => cases ha

lemma unstarted_activated {a : Active} (ha : a ∈ ph.unstarted) : a ∈ ph.activated := by
  cases ph with
  | activating => exact ha
  | calling b run todo done =>
    cases run with
    | false => exact List.mem_append_right _ ha
    | true =>
      cases todo with
      | nil => cases ha
      | cons a' todo => exact List.mem_append_right _ (List.mem_cons_of_mem _ ha)
  | _ => cases ha

/-- A thread in a handler has no other kevents than its entries. -/
lemma running_phase {a : Active} (ha : ph.running = some a) :
    ph.fetched = [] ∧ ph.enlist = [] := by
  cases ph with
  | calling => exact ⟨rfl, rfl⟩
  | _ => cases ha

lemma mem_unchanged {h : Hist} {a : Active} : a ∈ s.unchanged h u ↔
    a ∈ (s.threads u).phase.unstarted ∨
      h.progress u = .untouched ∧ (s.threads u).phase.running = some a := by
  simp only [State.unchanged, List.mem_append]
  split
  · next hp => simp [hp]
  · next hp => simp [hp]

lemma DelCall.mayCall {t : Tid} {e : EvId} {base : BaseId} {kev : Option KEvent} {op : SyncOp}
    (h : DelCall c s l t e base kev op) {p : Progress} (hl : l.progress = some (u, p)) :
    (s.threads u).mayCall = true := by
  cases h with
  | first hmay =>
    obtain ⟨rfl, -⟩ := Prod.mk.inj (Option.some.inj hl)
    exact hmay
  | woken => cases hl

/-- A thread that makes a call is not in another one. -/
lemma Step.mayCall {s' : State} {o : List Obs} (hs : Step c s l s' o) (hab : s'.aborted = none)
    {p : Progress} (hl : l.progress = some (u, p)) (hp : p ≠ .untouched) :
    (s.threads u).call = none := by
  have hcall : (s.threads u).mayCall = true → (s.threads u).call = none :=
    fun hmay => (Thread.mayCall_iff.1 hmay).1
  cases hs with
  | set hmay | baseSetErr hmay | baseSetOk hmay | addBusy hmay | addInval hmay | addLock hmay =>
    obtain ⟨rfl, -⟩ := Prod.mk.inj (Option.some.inj hl)
    exact hcall hmay
  | delErr hdel | delWait hdel | delOk hdel =>
    exact hcall (hdel.mayCall hl)
  | invoke =>
    obtain ⟨-, rfl⟩ := Prod.mk.inj (Option.some.inj hl)
    exact absurd rfl hp
  | abort => cases hab
  | _ => cases hl

/-- The locked section of an `event_add` ends the call. -/
lemma Step.addLocked_call {s' : State} {o : List Obs} {ok : Bool}
    (hs : Step c s (.addLocked u ok) s' o) :
    (∃ call, (s.threads u).call = some call) ∧ (s'.threads u).call = none := by
  cases hs with
  | addErr hcall => exact ⟨⟨_, hcall⟩, by simp⟩
  | addOk hcall => exact ⟨⟨_, hcall⟩, by simp⟩
  | delErr hdel | delWait hdel | delOk hdel => cases hdel
  | abort hl => cases hl

/-- The change an `event_add` has just built is for its event. -/
lemma Step.addLock_slot {s' : State} {o : List Obs} {t : Tid} {e : EvId}
    {timeout : Option TimeVal} {kev : KEvent} (hs : Step c s (.add t e timeout) s' o)
    (hnew : (s.threads t).call = none) (hcall : (s'.threads t).call = some (.addLock e kev)) :
    (s'.evs e).slot = some kev.slot := by
  cases hs with
  | @addLock _ _ _ f base hmay hset hbase hpend hfilter =>
    simp only [State.setCall_threads, State.setProc_threads, if_true, Option.some.injEq,
      Call.addLock.injEq, true_and] at hcall
    subst hcall
    show ((patchTimerFd s.toProc e).evs e).slot = _
    simp [Event.slot, patchTimerFd_type, hfilter, mkKevent, KEvent.slot]
  | addBusy | addInval =>
    rw [hnew] at hcall
    cases hcall
  | delErr hdel | delWait hdel | delOk hdel => cases hdel
  | abort =>
    rw [State.abort_threads, hnew] at hcall
    cases hcall

/-- A thread that is in a call of a handler does not go on in its pass. -/
lemma Step.not_pass {s' : State} {o : List Obs} (hs : Step c s l s' o) (hab : s'.aborted = none)
    {a : Active} (hrun : (s.threads u).phase.running = some a)
    (hcall : (s.threads u).call ≠ none) : l.pass ≠ some u := by
  have hstep := hs.phaseStep hab u
  generalize (s'.threads u).phase = ph at hstep
  cases hstep with
  | keep hl => exact hl
  | fetch hth | ret hth =>
    rw [hth] at hcall
    exact absurd rfl hcall
  | activate hph | toCalling hph | invoke hph | toFinishing hph | finish hph | enable hph
  | unlock hph | toIdle hph =>
    rw [hph] at hrun
    cases hrun

/-- An activation changes no epoch. -/
lemma Step.activate_epoch {s' : State} {o : List Obs} (hs : Step c s (.activate u) s' o)
    (hab : s'.aborted = none) (e : EvId) : (s'.evs e).epoch = (s.evs e).epoch := by
  have hev := hs.evStep hab e
  generalize s'.evs e = ev at hev ⊢
  cases hev with
  | keep | activate => rfl
  | delWait hdel | delete hdel => rcases hdel.label with heq | heq <;> cases heq

/-- A running handler and an entry still to be called are two entries. -/
lemma two_le_holds_running {a a' : Active} (ha : (s.threads u).phase.running = some a)
    (hep : a.epoch = (s.evs a.ev).epoch) (ha' : a' ∈ (s.threads u).phase.unstarted)
    (hep' : a'.epoch = (s.evs a'.ev).epoch) (hev : a'.ev = a.ev) : 2 ≤ s.holds u a.ev := by
  rw [holds_eq]
  generalize (s.threads u).phase = ph at ha ha'
  cases ph with
  | calling b run todo done =>
    cases run with
    | false => cases ha
    | true =>
      cases todo with
      | nil => cases ha
      | cons a₀ todo =>
        obtain rfl := Option.some.inj ha
        have htail : 0 < ((todo.filter fun a => a.epoch == (s.evs a.ev).epoch).map
            Active.kev).countP fun k => k.udata == a₀.ev := by
          refine List.countP_pos_iff.2 ⟨a'.kev,
            List.mem_map_of_mem (List.mem_filter.2 ⟨ha', ?_⟩), ?_⟩
          · simpa using hep'
          · simpa using hev
        simp only [Phase.activated, List.filter_append, List.filter_cons, hep, beq_self_eq_true,
          if_true, List.map_append, List.map_cons, List.countP_append, List.countP_cons_of_pos]
        omega
  | _ => cases ha

end Views

/-! ## What the discipline allows -/

section Allowed

variable {c : Cfg} {s s' : State} {h : Hist} {l : Label} {o : List Obs} {t u : Tid} {e : EvId}
  {k : KEvent}

lemma Handles.changing {ps : List Progress} (hh : Handles (s, h) t e ps)
    (hps : ∀ p ∈ ps, p.isOpen = true) : Changing s h t e :=
  ⟨hh.1, .inl (hps _ hh.2)⟩

namespace LoopInv

/-- Nobody holds an event that is being changed. -/
lemma not_held (I : LoopInv s h) (hch : Changing s h t e) (hk : k ∈ s.held u) : k.udata ≠ e := by
  rintro rfl
  have hpend := (I.held u k hk).1
  rw [(I.changing t k.udata hch).1] at hpend
  cases hpend

lemma no_wait (I : LoopInv s h) {base : BaseId} {kev : Option KEvent} :
    (s.threads t).call ≠ some (.delWait e base kev) := by
  intro hcall
  obtain ⟨_, _, heq, -⟩ := I.call t _ hcall
  cases heq

lemma addLock (I : LoopInv s h) {kev : KEvent}
    (hcall : (s.threads t).call = some (.addLock e kev)) :
    Changing s h t e ∧ (s.evs e).slot = some kev.slot := by
  obtain ⟨e', kev', heq, hruns, -, hslot⟩ := I.call t _ hcall
  obtain ⟨rfl, rfl⟩ := Call.addLock.inj heq
  exact ⟨⟨hruns, .inr (by simp [hcall])⟩, hslot⟩

/-- An event is held by the handler that has not changed it. -/
lemma handled (I : LoopInv s h) (hh : Handles (s, h) t e [.untouched]) :
    ∃ a, (s.threads t).phase.running = some a ∧ a.ev = e ∧ a.epoch = (s.evs a.ev).epoch ∧
      a ∈ (s.threads t).phase.activated ∧ a.kev ∈ s.held t := by
  obtain ⟨⟨a, hrun, he⟩, hp⟩ := hh
  have hep : a.epoch = (s.evs a.ev).epoch :=
    I.unchanged t a (mem_unchanged.2 (.inr ⟨List.mem_singleton.1 hp, hrun⟩))
  exact ⟨a, hrun, he, hep, running_activated hrun, activated_held (running_activated hrun) hep⟩

/-- The place of an event that is held. -/
lemma held_knote (I : LoopInv s h) (hk : k ∈ s.held u) : ∃ b kn,
    (s.threads u).phase.base = some b ∧ (s.evs k.udata).evBase = some b ∧
      (s.evs k.udata).slot = some k.slot ∧ s.kqs b k.slot = some kn ∧ kn.kev.udata = k.udata := by
  obtain ⟨hpend, hslot, hbase⟩ := I.held u k hk
  obtain ⟨b, x, kn, hb, hx, hkn, hu⟩ := I.reg.of_pending (held_isSet I.wf I.locks hk) hpend
  rw [hslot, Option.some.injEq] at hx
  subst hx
  exact ⟨b, kn, hbase.trans hb, hb, hslot, hkn, hu⟩

/-- The discipline is enough for the owners to be in order. -/
lemma ownOK (I : LoopInv s h) (hok : Disciplined (s, h) l) : OwnOK s l := by
  refine ⟨?_, ?_, ?_⟩
  · cases l with
    | set t e =>
      intro _ hpend
      rw [(I.changing t e (Handles.changing hok (by decide))).1] at hpend
      cases hpend
    | addLocked t ok =>
      cases ok with
      | true => exact fun e kev b hcall hbase => ⟨(I.addLock hcall).2, hok e kev b hcall hbase⟩
      | false => trivial
    | delWake t => exact fun e base k hcall => absurd hcall I.no_wait
    | close fd => exact hok
    | _ => trivial
  · intro u w b a todo done enlist _ hph
    have hnear := I.near u a (by rw [hph]; exact List.mem_cons_self)
    omega
  · cases l with
    | set t e =>
      exact fun u k hk hu =>
        absurd hu (I.not_held (Handles.changing hok (by decide)) (fetched_held hk))
    | baseSet t b e =>
      exact fun _ u k hk hu =>
        absurd hu (I.not_held (Handles.changing hok (by decide)) (fetched_held hk))
    | add t e =>
      exact fun _ _ u k hk =>
        I.not_held (Handles.changing hok (by decide)) (fetched_held hk)
    | addLocked t ok =>
      cases ok with
      | true =>
        intro e kev b hcall hbase
        have hch := (I.addLock hcall).1
        refine ⟨fun u k hk => I.not_held hch (fetched_held hk), fun u k hk hb hx => ?_⟩
        obtain ⟨b', kn, hb', -, -, hkn, hu⟩ := I.held_knote hk
        rw [hb, Option.some.injEq] at hb'
        subst hb'
        rw [← hu]
        exact hok e kev b hcall hbase kn (hx ▸ hkn)
      | false => trivial
    | _ => trivial

/-- An `event_del` of a handler succeeds. -/
lemma del_own (I : LoopInv s h) (hok : Disciplined (s, h) (.del t e))
    (hs : Step c s (.del t e) s' o) (hab : s'.aborted = none) :
    (s'.evs e).pending = false ∧ (s'.evs e).active = false := by
  obtain ⟨a, hrun, rfl, hep, hact, hheld⟩ := I.handled hok.1
  obtain ⟨hpend, -⟩ := I.held t a.kev hheld
  cases hs with
  | delErr hdel hwhy =>
    obtain ⟨rfl, rfl, hbase, rfl⟩ := hdel.inv_del
    obtain ⟨b, kn, -, hb, hslot, hkn, -⟩ := I.held_knote hheld
    rw [hbase, Option.some.injEq] at hb
    subst hb
    rcases hwhy with hnot | hnone
    · rw [hpend] at hnot
      cases hnot
    · rw [← initKeventDelete_slot (c := c) (e := a.ev)] at hslot
      obtain ⟨k, hk, hx⟩ := Option.map_eq_some_iff.1 hslot
      rw [hk, Option.bind_some, hx, hkn] at hnone
      cases hnone
  | delWait hdel _ _ hown =>
    obtain ⟨ht, he, -⟩ := hdel.inv_del
    rw [ht, he] at hown
    exact absurd (I.owned.activated t a hact hep).2 hown
  | delOk hdel =>
    obtain ⟨rfl, rfl, -⟩ := hdel.inv_del
    simp
  | abort => cases hab

/-- A change in progress was so before, or its `event_del` has just been made. -/
lemma changing_source (I : LoopInv s h) (hok : Disciplined (s, h) l) (hs : Step c s l s' o)
    (hab : s'.aborted = none) (hch : Changing s' (h.next s l) t e) :
    Changing s h t e ∧ (∀ ok, l ≠ .addLocked t ok) ∨ l = .del t e := by
  obtain ⟨⟨a, hrun', he⟩, hopen⟩ := hch
  have hrun : (s.threads t).phase.running = some a := by
    rcases (hs.phaseStep hab t).running_source hrun' with ⟨hrun, -⟩ | ⟨rfl, -, hnone⟩
    · exact hrun
    · exfalso
      rcases hopen with hopen | hcall
      · simp [Hist.next, Label.progress, Progress.isOpen] at hopen
      · obtain ⟨call, hcall⟩ := Option.ne_none_iff_exists'.1 hcall
        rcases hs.call_source hcall with hold | ⟨_, _, _, -, heq, -⟩ | ⟨_, _, _, _, hdel, -⟩
        · obtain ⟨e', kev, -, ⟨a', ha', -⟩, -⟩ := I.call t call hold
          rw [hnone] at ha'
          cases ha'
        · cases heq
        · rcases hdel.label with heq | heq <;> cases heq
  have hruns : s.Runs t e := ⟨a, hrun, he⟩
  by_cases hadd : ∃ ok, l = .addLocked t ok
  · obtain ⟨ok, rfl⟩ := hadd
    obtain ⟨⟨call, hcall⟩, hnone⟩ := hs.addLocked_call
    obtain ⟨_, _, -, -, hprog, -⟩ := I.call t call hcall
    rcases hopen with hopen | hcall'
    · rw [show (h.next s (.addLocked t ok)).progress t = h.progress t from rfl, hprog] at hopen
      cases hopen
    · exact absurd hnone hcall'
  have hne : ∀ ok, l ≠ .addLocked t ok := fun ok hl => hadd ⟨ok, hl⟩
  have hsame : ∀ {e' : EvId}, s.Runs t e' → e' = e := by
    rintro e' ⟨a', ha', rfl⟩
    rw [hrun, Option.some.injEq] at ha'
    rw [← ha', he]
  rcases hopen with hopen | hcall
  · rcases Hist.next_progress (h := h) (s := s) (l := l) (t := t) with hp | hp
    · exact .inl ⟨⟨hruns, .inl (hp ▸ hopen)⟩, hne⟩
    · cases l with
      | del t' e' =>
        obtain ⟨rfl, -⟩ := Prod.mk.inj (Option.some.inj hp)
        rw [hsame hok.1.1]
        exact .inr rfl
      | set t' e' =>
        obtain ⟨rfl, -⟩ := Prod.mk.inj (Option.some.inj hp)
        exact .inl ⟨⟨hruns, (Handles.changing hok (by decide)).2⟩, hne⟩
      | baseSet t' b e' =>
        obtain ⟨rfl, -⟩ := Prod.mk.inj (Option.some.inj hp)
        exact .inl ⟨⟨hruns, (Handles.changing hok (by decide)).2⟩, hne⟩
      | add t' e' =>
        obtain ⟨rfl, -⟩ := Prod.mk.inj (Option.some.inj hp)
        exact .inl ⟨⟨hruns, (Handles.changing hok (by decide)).2⟩, hne⟩
      | invoke t' =>
        obtain ⟨rfl, hp⟩ := Prod.mk.inj (Option.some.inj hp)
        rw [← hp] at hopen
        cases hopen
      | _ => cases hp
  · obtain ⟨call, hcall⟩ := Option.ne_none_iff_exists'.1 hcall
    rcases hs.call_source hcall with hold | ⟨e', timeout, f, -, rfl, -⟩ | ⟨e', _, _, _, hdel, -⟩
    · exact .inl ⟨⟨hruns, .inr (by simp [hold])⟩, hne⟩
    · exact .inl ⟨⟨hruns, (Handles.changing hok (by decide)).2⟩, hne⟩
    · rcases hdel.label with rfl | rfl
      · rw [hsame hok.1.1]
        exact .inr rfl
      · exact absurd hdel.inv_delWake.2 I.no_wait

/-! ## What a step does to an event that is held -/

/-- An `event_del` under the discipline is one of the handler of the event. -/
lemma delCall (I : LoopInv s h) (hok : Disciplined (s, h) l) {base : BaseId}
    {kev : Option KEvent} {op : SyncOp} (hdel : DelCall c s l t e base kev op) :
    l = .del t e ∧ Handles (s, h) t e [.untouched] ∧ EpochRoom s e := by
  rcases hdel.label with rfl | rfl
  · exact ⟨rfl, hok⟩
  · exact absurd hdel.inv_delWake.2 I.no_wait

/-- An event that is held is deleted, or stays where it is. -/
lemma held_evStep (I : LoopInv s h) (hok : Disciplined (s, h) l) (hk : k ∈ s.held u) {ev : Event}
    (hev : EvStep c s k.udata l ev) : ev.pending = false ∨ ev.pending = true ∧
      ev.slot = (s.evs k.udata).slot ∧ ev.evBase = (s.evs k.udata).evBase ∧
      ev.epoch = (s.evs k.udata).epoch := by
  have hpend := (I.held u k hk).1
  cases hev with
  | keep | activate | finishSkip | finishKeep | unlock | delWait | spurious | cleanup =>
    exact .inr ⟨hpend, rfl, rfl, rfl⟩
  | finishDel => exact .inl rfl
  | delete => exact .inl (Event.deactivate_pending _)
  | set => exact absurd rfl (I.not_held (Handles.changing hok (by decide)) hk)
  | baseSet => exact absurd rfl (I.not_held (Handles.changing hok (by decide)) hk)
  | patch => exact absurd rfl (I.not_held (Handles.changing hok (by decide)) hk)
  | add hcall => exact absurd rfl (I.not_held (I.addLock hcall).1 hk)

/-- Whoever deletes an event does not hold it any more. -/
lemma held_pending (I : LoopInv s h) (hok : Disciplined (s, h) l) (hs : Step c s l s' o)
    (hab : s'.aborted = none) (hk : k ∈ s.held u) (hk' : k ∈ s'.held u) :
    (s'.evs k.udata).pending = true := by
  have hpend := (I.held u k hk).1
  have hle : ∀ a ∈ (s.threads u).phase.activated, a.epoch ≤ (s.evs a.ev).epoch := I.owned.epochs u
  have hone : ∀ {t : Tid} {a : Active}, a.kev ∈ s.held t → a.ev = k.udata → t = u :=
    fun ha hu => I.owned.one _ _ k.udata (holds_pos.2 ⟨_, ha, hu⟩) (holds_pos_of_mem hk)
  have hev := hs.evStep hab k.udata
  generalize heq : s'.evs k.udata = ev at hev
  cases hev with
  | keep | activate | finishSkip | finishKeep | unlock | delWait | spurious | cleanup => exact hpend
  | set => exact absurd rfl (I.not_held (Handles.changing hok (by decide)) hk)
  | baseSet => exact absurd rfl (I.not_held (Handles.changing hok (by decide)) hk)
  | patch => exact absurd rfl (I.not_held (Handles.changing hok (by decide)) hk)
  | add hcall => exact absurd rfl (I.not_held (I.addLock hcall).1 hk)
  | @finishDel t w b base a todo done enlist x hph hu hlk hfresh hper =>
    exfalso
    replace hu : a.ev = k.udata := hu
    rw [← hu] at hfresh
    obtain ⟨hep, hheld⟩ := I.owned.finish_head (I.ownOK hok) rfl hph hfresh
    obtain rfl := hone hheld hu
    have hph' := hs.finish_phase hab rfl hph
    have hnone : s.enabledBy c a = [] := by simp [State.enabledBy, hu, hper]
    rw [hnone, List.append_nil] at hph'
    rcases mem_held.1 hk' with hk' | ⟨a', ha', hep', hk'⟩ | hk'
    · rw [hph'] at hk'
      cases hk'
    · rw [hph'] at ha'
      have hu' : a'.ev = a.ev := by rw [Active.ev, hk', hu]
      have htwo := two_le_holds_activated hph hep ha' ?_ hu'
      · have honce := I.owned.once t a.ev
        omega
      · rw [hep', hu', hu, heq]
        rfl
    · rw [hph'] at hk'
      have hlocked := I.locks.holder t k.udata (I.locks.enlist t k (by rw [hph]; exact hk'))
      rw [hlk] at hlocked
      cases hlocked
  | @delete _ t base kev op hdel =>
    exfalso
    obtain ⟨hl, hhandles, -⟩ := I.delCall hok hdel
    obtain ⟨a, hrun, hu, hep, hact, hheld⟩ := I.handled hhandles
    obtain rfl := hone hheld hu
    have hphase := hs.phase_keep (u := t) hab (by rw [hl]; simp [Label.pass])
    obtain ⟨hfetched, henlist⟩ := running_phase hrun
    rcases mem_held.1 hk' with hk' | ⟨a', ha', hep', hk'⟩ | hk'
    · rw [hphase, hfetched] at hk'
      cases hk'
    · rw [hphase] at ha'
      have hle' := hle a' ha'
      have hactive := (I.owned.activated t a hact hep).1
      have hu' : a'.ev = k.udata := by rw [Active.ev, hk']
      rw [hu'] at hep' hle'
      rw [hu] at hactive
      rw [heq, Event.deactivate_epoch, if_pos hactive] at hep'
      simp only at hep'
      omega
    · rw [hphase, henlist] at hk'
      cases hk'

/-- What is held stays held as long as the event stays pending. -/
lemma held_kept (I : LoopInv s h) (hok : Disciplined (s, h) l) (hs : Step c s l s' o)
    (hab : s'.aborted = none) (hc : c.multKq = false) (hl : NotFetch u l)
    (hen : ∀ b done enlist, l = .advance u → (s.threads u).phase ≠ .finishing b [] done enlist)
    (hk : k ∈ s.held u) (hpend' : (s'.evs k.udata).pending = true) : k ∈ s'.held u := by
  refine (hs.phaseStep hab u).held_kept hl hen hk ?_ ?_
  · rcases I.held_evStep hok hk (hs.evStep hab k.udata) with hoff | ⟨-, -, -, hep⟩
    · rw [hpend'] at hoff
      cases hoff
    · exact hep
  · rintro w b a todo done enlist rfl hph hep rfl
    have hfresh : a.fresh (s.evs a.ev) = true := by
      rw [Active.fresh, hep, State.epochs, beq_self_eq_true]
    have hev := hs.evStep hab a.kev.udata
    generalize s'.evs a.kev.udata = ev at hev hpend'
    cases hev with
    | keep hl => exact absurd (by simp [State.target, hph]) hl
    | finishSkip hph' _ _ hfresh' =>
      rw [hph] at hph'
      cases hph'
      rw [hfresh] at hfresh'
      cases hfresh'
    | finishKeep _ _ _ _ hwhy =>
      rcases hwhy with hper | hnot | ⟨base, hbase, hnone⟩
      · rw [State.enabledBy, hfresh, hper, hc]
        exact List.mem_singleton_self _
      · rw [(I.held u a.kev hk).1] at hnot
        cases hnot
      · obtain ⟨b', kn, -, hb, hslot, hkn, -⟩ := I.held_knote hk
        rw [hbase, Option.some.injEq] at hb
        subst hb
        rw [hnone _ hslot] at hkn
        cases hkn
    | finishDel => cases hpend'
    | delWait hdel | delete hdel => rcases hdel.label with heq | heq <;> cases heq

/-! ## The invariant is kept -/

lemma call_step (I : LoopInv s h) (hok : Disciplined (s, h) l) (hs : Step c s l s' o)
    (hab : s'.aborted = none) {call : Call} (hcall : (s'.threads t).call = some call) :
    ∃ e kev, call = .addLock e kev ∧ s'.Runs t e ∧ (h.next s l).progress t = .added ∧
      (s'.evs e).slot = some kev.slot := by
  rcases hs.call_source hcall with hold | ⟨e, timeout, f, -, rfl, rfl⟩ | ⟨e, base, kev, op, hdel, rfl⟩
  · obtain ⟨e, kev, rfl, ⟨a, hrun, he⟩, hprog, hslot⟩ := I.call t call hold
    have hch := (I.addLock hold).1
    have hbusy : ∀ p, p ≠ .untouched → l.progress ≠ some (t, p) := by
      intro p hp hl
      rw [hs.mayCall hab hl hp] at hold
      cases hold
    have hpass := hs.not_pass hab hrun (by simp [hold])
    have hphase := hs.phase_keep hab hpass
    refine ⟨e, kev, rfl, ⟨a, hphase ▸ hrun, he⟩, ?_, ?_⟩
    · rcases Hist.next_progress (h := h) (s := s) (l := l) (t := t) with hp | hp
      · rw [hp, hprog]
      · by_cases hun : (h.next s l).progress t = .untouched
        · rw [hun] at hp
          cases l with
          | invoke t' =>
            obtain ⟨rfl, -⟩ := Prod.mk.inj (Option.some.inj hp)
            exact absurd rfl hpass
          | _ => simp [Label.progress] at hp
        · exact absurd hp (hbusy _ hun)
    · have hother : ∀ {t' ps}, Handles (s, h) t' e ps → (∀ p ∈ ps, p.isOpen = true) → t' = t :=
        fun hh hps => I.one _ _ e (hh.changing hps) hch
      have hev := hs.evStep hab e
      generalize s'.evs e = ev at hev ⊢
      cases hev with
      | set =>
        obtain rfl := hother hok (by decide)
        exact absurd rfl (hbusy _ (by decide))
      | patch =>
        obtain rfl := hother hok (by decide)
        exact absurd rfl (hbusy _ (by decide))
      | add | delete =>
        rw [Event.deactivate_slot]
        exact hslot
      | _ => exact hslot
  · have hh : Handles (s, h) t e [.deleted, .reset, .rebased] := hok
    have hnew := hs.mayCall hab (u := t) (p := .added) rfl (by decide)
    obtain ⟨a, hrun, he⟩ := hh.1
    refine ⟨e, _, rfl, ⟨a, ?_, he⟩, by simp [Hist.next, Label.progress], hs.addLock_slot hnew hcall⟩
    rw [hs.phase_keep hab (by simp [Label.pass])]
    exact hrun
  · obtain ⟨rfl, hh, -⟩ := I.delCall hok hdel
    obtain ⟨a, -, rfl, hep, hact, hheld⟩ := I.handled hh
    have hkn := I.held_knote hheld
    exfalso
    cases hs with
    | delErr hdel' =>
      obtain ⟨rfl, rfl, -⟩ := hdel'.inv_del
      simp at hcall
    | delWait hdel' _ _ hown =>
      obtain ⟨ht, he, -⟩ := hdel'.inv_del
      rw [ht, he] at hown
      exact hown (I.owned.activated t a hact hep).2
    | delOk hdel' =>
      obtain ⟨rfl, rfl, -⟩ := hdel'.inv_del
      simp at hcall
    | abort => cases hab

lemma changing_step (I : LoopInv s h) (hok : Disciplined (s, h) l) (hs : Step c s l s' o)
    (hab : s'.aborted = none) (hch : Changing s' (h.next s l) t e) :
    (s'.evs e).pending = false ∧ (s'.evs e).active = false := by
  rcases I.changing_source hok hs hab hch with ⟨hold, hne⟩ | rfl
  · obtain ⟨hpend, hact⟩ := I.changing t e hold
    have hev := hs.evStep hab e
    generalize s'.evs e = ev at hev ⊢
    cases hev with
    | keep | finishSkip | unlock | baseSet | patch | delWait | spurious | cleanup =>
      exact ⟨hpend, hact⟩
    | activate hph he => exact absurd he (I.not_held hold (head_held hph))
    | finishKeep => exact ⟨hpend, rfl⟩
    | finishDel => exact ⟨rfl, rfl⟩
    | set =>
      by_cases hcv : (s.evs e).cvInit = cvInitMagic <;>
        simp [Event.assign, Event.firstSet, hcv, hpend, hact]
    | @add t' kev base hcall =>
      obtain rfl := I.one _ _ e (I.addLock hcall).1 hold
      exact absurd rfl (hne true)
    | delete => simp
  · exact I.del_own hok hs hab

lemma one_step (I : LoopInv s h) (hok : Disciplined (s, h) l) (hs : Step c s l s' o)
    (hab : s'.aborted = none) {t' : Tid} (hch : Changing s' (h.next s l) t e)
    (hch' : Changing s' (h.next s l) t' e) : t = t' := by
  -- an `event_del` is for an event that is pending, so nobody else is changing it
  have hdel : ∀ {t t' : Tid}, Disciplined (s, h) (.del t e) → ¬ Changing s h t' e := by
    intro t t' hok hch
    obtain ⟨a, -, he, -, -, hheld⟩ := I.handled hok.1
    exact I.not_held hch hheld he
  rcases I.changing_source hok hs hab hch with ⟨hold, -⟩ | rfl
  · rcases I.changing_source hok hs hab hch' with ⟨hold', -⟩ | rfl
    · exact I.one t t' e hold hold'
    · exact absurd hold (hdel hok)
  · rcases I.changing_source hok hs hab hch' with ⟨hold', -⟩ | heq
    · exact absurd hold' (hdel hok)
    · exact (Label.del.inj heq).1

/-- The epoch of a fresh entry stays, unless its own handler changes the event. -/
lemma epoch_step (I : LoopInv s h) (hok : Disciplined (s, h) l) (hs : Step c s l s' o)
    (hab : s'.aborted = none) {a : Active} (ha : a ∈ (s.threads u).phase.activated)
    (hep : a.epoch = (s.evs a.ev).epoch) : (s'.evs a.ev).epoch = (s.evs a.ev).epoch ∨
      l = .del u a.ev ∧ Handles (s, h) u a.ev [.untouched] ∧ EpochRoom s a.ev ∧
        (s'.evs a.ev).epoch ≤ (s.evs a.ev).epoch + 1 := by
  have hev := hs.evStep hab a.ev
  generalize s'.evs a.ev = ev at hev ⊢
  cases hev with
  | set =>
    have hcv : (s.evs a.ev).cvInit = cvInitMagic := activated_isSet I.wf ha
    simp [Event.assign, Event.firstSet, hcv]
  | add hcall => exact absurd rfl (I.not_held (I.addLock hcall).1 (activated_held ha hep))
  | @delete _ t base kev op hdel =>
    obtain ⟨rfl, hh, hroom⟩ := I.delCall hok hdel
    obtain ⟨a', -, hu, -, -, hheld⟩ := I.handled hh
    obtain rfl := I.owned.one t u a.ev (holds_pos.2 ⟨_, hheld, hu⟩)
      (holds_pos_of_mem (activated_held ha hep))
    refine .inr ⟨rfl, hh, hroom, ?_⟩
    rw [Event.deactivate_epoch]
    split <;> simp
  | _ => exact .inl rfl

lemma unchanged_step (I : LoopInv s h) (hok : Disciplined (s, h) l) (hs : Step c s l s' o)
    (hab : s'.aborted = none) {a : Active} (ha : a ∈ s'.unchanged (h.next s l) t) :
    a.epoch = (s'.evs a.ev).epoch := by
  have hsource : a ∈ s.unchanged h t ∨ ∃ k, l = .activate t ∧ a = ⟨k, (s.evs k.udata).epoch⟩ := by
    rcases mem_unchanged.1 ha with ha | ⟨hp, ha⟩
    · rcases (hs.phaseStep hab t).unstarted_source ha with ha | ⟨b, k, todo, done, hl, -, rfl⟩
      · exact .inl (mem_unchanged.2 (.inl ha))
      · exact .inr ⟨k, hl, rfl⟩
    · rcases (hs.phaseStep hab t).running_source ha with ⟨hrun, hpass⟩ | ⟨-, ha, -⟩
      · rcases Hist.next_progress (h := h) (s := s) (l := l) (t := t) with hsame | hnew
        · exact .inl (mem_unchanged.2 (.inr ⟨hsame ▸ hp, hrun⟩))
        · rw [hp] at hnew
          cases l with
          | invoke t' =>
            obtain ⟨rfl, -⟩ := Prod.mk.inj (Option.some.inj hnew)
            exact absurd rfl hpass
          | _ => simp [Label.progress] at hnew
      · exact .inl (mem_unchanged.2 (.inl ha))
  rcases hsource with hold | ⟨k, rfl, rfl⟩
  · have hep := I.unchanged t a hold
    have hact : a ∈ (s.threads t).phase.activated := by
      rcases mem_unchanged.1 hold with hold | ⟨-, hrun⟩
      · exact unstarted_activated hold
      · exact running_activated hrun
    rcases I.epoch_step hok hs hab hact hep with hsame | ⟨rfl, hh, -⟩
    · rw [hsame, hep]
    · -- the handler changes its own entry, and another one would be held a second time
      exfalso
      obtain ⟨a', hrun', hu, hep', -, -⟩ := I.handled hh
      rcases mem_unchanged.1 ha with ha | ⟨hp, -⟩
      · rw [hs.phase_keep hab (by simp [Label.pass])] at ha
        have htwo := two_le_holds_running hrun' hep' ha hep hu.symm
        have honce := I.owned.once t a'.ev
        omega
      · simp [Hist.next, Label.progress] at hp
  · exact (hs.activate_epoch hab _).symm

lemma near_step (I : LoopInv s h) (hok : Disciplined (s, h) l) (hs : Step c s l s' o)
    (hab : s'.aborted = none) {a : Active} (ha : a ∈ (s'.threads u).phase.activated) :
    (s'.evs a.ev).epoch < a.epoch + 2 ^ 32 := by
  rcases (hs.phaseStep hab u).activated_source ha with hold | ⟨b, k, todo, done, rfl, -, rfl⟩
  · have hnear := I.near u a hold
    have hev := hs.evStep hab a.ev
    generalize s'.evs a.ev = ev at hev ⊢
    cases hev with
    | set =>
      have hcv : (s.evs a.ev).cvInit = cvInitMagic := activated_isSet I.wf hold
      simpa [Event.assign, Event.firstSet, hcv] using hnear
    | add hcall =>
      have hoff := (I.changing _ _ (I.addLock hcall).1).2
      rw [Event.deactivate_epoch]
      simpa [hoff] using hnear
    | delete hdel =>
      obtain ⟨-, -, hroom⟩ := I.delCall hok hdel
      have hlt := hroom u a hold rfl
      rw [Event.deactivate_epoch]
      split
      · exact hlt
      · exact hnear
    | _ => exact hnear
  · have hep := hs.activate_epoch hab k.udata
    show (s'.evs k.udata).epoch < (s.evs k.udata).epoch + 2 ^ 32
    omega

lemma acts_step (I : LoopInv s h) (hs : Step c s l s' o) (hab : s'.aborted = none) {a : Active}
    (ha : a ∈ (s'.threads u).phase.activated) (hep' : a.epoch = (s'.evs a.ev).epoch) :
    (h.next s l).mine u a.ev = (h.next s l).acts a.ev := by
  rcases (hs.phaseStep hab u).activated_source ha with hold | ⟨b, k, todo, done, rfl, hph, rfl⟩
  · have hle := I.owned.epochs u a hold
    have hle' := (hs.evStep hab a.ev).epoch_le (activated_isSet I.wf hold)
    have hep : a.epoch = (s.evs a.ev).epoch := by omega
    have hne : ∀ t, s.activates l ≠ some (t, a.ev) := by
      intro t hl
      obtain ⟨-, b, k, todo, done, hph, hu⟩ := activates_eq_some.1 hl
      have hone := I.owned.one t u a.ev (holds_pos.2 ⟨k, head_held hph, hu⟩)
        (holds_pos_of_mem (activated_held hold hep))
      subst hone
      have htwo : 2 ≤ s.holds t k.udata :=
        two_le_holds_fetched (by rw [hph]; exact List.mem_cons_self) hold hep hu.symm
      have honce := I.owned.once t k.udata
      omega
    rw [(Hist.next_acts_of_ne (t := u) hne).1, (Hist.next_acts_of_ne (t := u) hne).2]
    exact I.acts u a hold hep
  · exact Hist.next_activated (activates_eq_some.2 ⟨rfl, b, k, todo, done, hph, rfl⟩)

lemma enlist_step (I : LoopInv s h) (hok : Disciplined (s, h) l) (hs : Step c s l s' o)
    (hab : s'.aborted = none) (hk : k ∈ (s'.threads u).phase.enlist) :
    (h.next s l).mine u k.udata = (h.next s l).acts k.udata := by
  rcases (hs.phaseStep hab u).enlist_source hk with
    hold | ⟨w, b, a, todo, done, enlist, rfl, hph, -, hfresh, rfl⟩
  · have hne : ∀ t, s.activates l ≠ some (t, k.udata) := by
      intro t hl
      obtain ⟨-, b, k', todo, done, hph, hu⟩ := activates_eq_some.1 hl
      have hone := I.owned.one t u k.udata (holds_pos.2 ⟨k', head_held hph, hu⟩)
        (holds_pos_of_mem (enlist_held hold))
      rw [← hone, hph] at hold
      cases hold
    rw [(Hist.next_acts_of_ne (t := u) hne).1, (Hist.next_acts_of_ne (t := u) hne).2]
    exact I.enlist u k hold
  · have hep := (I.owned.finish_head (I.ownOK hok) rfl hph hfresh).1
    exact I.acts u a (by rw [hph]; exact List.mem_cons_self) hep

lemma held_step (I : LoopInv s h) (hok : Disciplined (s, h) l) (hs : Step c s l s' o)
    (hab : s'.aborted = none) (hk : k ∈ s'.held u) : (s'.evs k.udata).pending = true ∧
      (s'.evs k.udata).slot = some k.slot ∧
      (s'.threads u).phase.base = (s'.evs k.udata).evBase := by
  by_cases hl : NotFetch u l
  · have hold := (hs.held_subperm hab I.wf I.owned.epochs (I.ownOK hok).2.1 hl).subset hk
    have hpend' := I.held_pending hok hs hab hold hk
    obtain ⟨-, hslot, hbase⟩ := I.held u k hold
    obtain ⟨b, hb'⟩ := Phase.base_of_held hk
    have hb := (hs.phaseStep hab u).base_source hl hb'
    rcases I.held_evStep hok hold (hs.evStep hab _) with hoff | ⟨-, hslot', hbase', -⟩
    · rw [hpend'] at hoff
      cases hoff
    · exact ⟨hpend', hslot'.trans hslot, by rw [hb', hbase', ← hbase, hb]⟩
  · simp only [NotFetch, not_forall, not_not] at hl
    obtain ⟨b, slots, rfl⟩ := hl
    cases hs.kernelStep with
    | fetch hth hf =>
      rw [held_fetch, if_pos rfl] at hk
      obtain ⟨y, kn, hkn, -, rfl⟩ := fetch_mem hf hk
      obtain ⟨-, hpend, hbase, hslot⟩ := I.reg.of_knote hkn
      rw [← I.wf.slot b y kn hkn] at hslot
      refine ⟨hpend, hslot, ?_⟩
      rw [setPhase_phase, if_pos rfl]
      exact hbase.symm
    | quiet hl => exact absurd rfl (hl u b slots)

lemma disabled_step (I : LoopInv s h) (hok : Disciplined (s, h) l) (hs : Step c s l s' o)
    (hab : s'.aborted = none) (hc : c.multKq = false) (hreg' : RegInv s') {b : BaseId} {x : Slot}
    {kn : Knote} (hkn' : s'.kqs b x = some kn) (hdis : kn.enabled = false) :
    ∃ u, 0 < s'.holds u kn.kev.udata := by
  have hpend' := (hreg'.of_knote hkn').2.1
  -- a knote that was disabled before has a holder, who keeps it
  have hkeep : s.kqs b x = some kn → (∀ u, 0 < s.holds u kn.kev.udata → NotFetch u l ∧
      ∀ b done enlist, l = .advance u → (s.threads u).phase ≠ .finishing b [] done enlist) →
      ∃ u, 0 < s'.holds u kn.kev.udata := by
    intro hkn hq
    obtain ⟨u, hu⟩ := I.disabled b x kn hkn hdis
    obtain ⟨hl, hen⟩ := hq u hu
    obtain ⟨k, hk, hku⟩ := holds_pos.1 hu
    exact ⟨u, holds_pos.2 ⟨k, I.held_kept hok hs hab hc hl hen hk (hku ▸ hpend'), hku⟩⟩
  cases hs.kernelStep with
  | @fetch u b' slots evl kq hth hf =>
    have hidle : ∀ v, 0 < s.holds v kn.kev.udata → NotFetch v (.fetch u b' slots) ∧
        ∀ b done enlist, Label.fetch u b' slots = .advance v →
          (s.threads v).phase ≠ .finishing b [] done enlist := by
      intro v hv
      refine ⟨fun b₀ slots₀ heq => ?_, fun _ _ _ heq => by cases heq⟩
      obtain ⟨rfl, -⟩ := Label.fetch.inj heq
      simp [State.holds, State.held, Phase.held, hth, Phase.fetched, Phase.activated,
        Phase.enlist] at hv
    obtain ⟨-, happly, -, -, hmap⟩ := Kqueue.fetch_spec hf
    simp only [State.setPhase_toProc, State.setProc_toProc, Proc.setKq_kqs] at hkn'
    split at hkn'
    · next hb =>
      subst hb
      rw [happly] at hkn'
      split at hkn'
      · next hx =>
        obtain ⟨kn', hkn, rfl⟩ := Option.map_eq_some_iff.1 hkn'
        have hmem : some kn'.kev ∈ evl.map some :=
          hmap ▸ List.mem_map.2 ⟨x, hx, by rw [hkn]; rfl⟩
        refine ⟨u, holds_pos.2 ⟨kn'.kev, ?_, rfl⟩⟩
        rw [held_fetch, if_pos rfl]
        simpa using hmem
      · exact hkeep hkn' hidle
    · exact hkeep hkn' hidle
  | @enable t b' done enlist hph =>
    have hregistered : ∀ k ∈ enlist, ∃ kn, s.kqs b' k.slot = some kn := by
      intro k hk
      obtain ⟨b₀, kn₀, hb₀, -, -, hkn₀, -⟩ :=
        I.held_knote (enlist_held (u := t) (by rw [hph]; exact hk))
      rw [hph] at hb₀
      obtain rfl := Option.some.inj hb₀
      exact ⟨kn₀, hkn₀⟩
    have hall := (Kqueue.enableAll_of_registered enlist (s.kqs b') hregistered).2
    have hkqs : ∀ b₀ y, ((s.setProc (s.setKq b' ((s.kqs b').enableAll enlist).1)).setPhase t
        (.unlocking b' done)).kqs b₀ y =
          if b₀ = b' then ((s.kqs b').enableAll enlist).1 y else s.kqs b₀ y := by
      intro b₀ y
      simp only [State.setPhase_toProc, State.setProc_toProc, Proc.setKq_kqs]
      split <;> rfl
    have hkn : s.kqs b x = some kn := by
      rw [hkqs] at hkn'
      split at hkn'
      · next hb =>
        subst hb
        rcases Kqueue.enableAll_apply enlist (s.kqs b) x with heq | ⟨kn₀, -, heq, -⟩
        · rw [← heq, hkn']
        · rw [heq] at hkn'
          obtain rfl := Option.some.inj hkn'
          cases hdis
      · exact hkn'
    refine hkeep hkn fun v hv => ⟨by simp [NotFetch], fun _ _ _ heq _ => ?_⟩
    -- the knotes that `t` holds have just been enabled
    obtain rfl := Label.advance.inj heq
    obtain ⟨k, hk, hku⟩ := holds_pos.1 hv
    have hkl : k ∈ enlist := by
      simpa [State.held, Phase.held, hph, Phase.fetched, Phase.activated, Phase.enlist] using hk
    obtain ⟨b₀, kn₀, hb₀, hbase₀, hslot₀, -⟩ := I.held_knote hk
    rw [hph] at hb₀
    obtain rfl := Option.some.inj hb₀
    obtain ⟨-, -, hbase, hslot⟩ := I.reg.of_knote hkn
    rw [hku, hbase] at hbase₀
    rw [hku, hslot] at hslot₀
    obtain rfl := Option.some.inj hbase₀
    obtain rfl := Option.some.inj hslot₀
    obtain ⟨kn₁, hkn₁, hen⟩ := hall k hkl
    rw [hkqs, if_pos rfl, hkn₁, Option.some.injEq] at hkn'
    rw [hkn', hdis] at hen
    cases hen
  | @add t e kev base hcall hlk hbase =>
    simp only [State.setCall_toProc, State.setProc_toProc, Proc.setEv_kqs, Proc.setKq_kqs] at hkn'
    have hquiet : ∀ u, 0 < s.holds u kn.kev.udata → NotFetch u (.addLocked t true) ∧
        ∀ b done enlist, Label.addLocked t true = .advance u →
          (s.threads u).phase ≠ .finishing b [] done enlist :=
      fun u _ => ⟨by simp [NotFetch], fun _ _ _ heq => by cases heq⟩
    split at hkn'
    · next hb =>
      rw [Kqueue.add_apply] at hkn'
      split at hkn'
      · obtain rfl := Option.some.inj hkn'
        cases hdis
      · exact hkeep (hb ▸ hkn') hquiet
    · exact hkeep hkn' hquiet
  | quiet hl hadd hen hkn =>
    exact hkeep (hkn b x kn hkn') fun u _ =>
      ⟨hl u, fun b done enlist heq hph => hen u b done enlist heq hph hab⟩

/-- **A disciplined step keeps the invariant.** -/
theorem step (I : LoopInv s h) (hok : Disciplined (s, h) l) (hs : Step c s l s' o)
    (hrun : s.aborted = none) (hc : c.multKq = false) :
    LoopInv s' (if s'.aborted.isSome then h else h.next s l) := by
  have hown := I.owned.step I.reg I.wf I.locks (I.ownOK hok) hc hs hrun
  have hreg := I.reg.step (I.ownOK hok).1 (hs.regStep I.wf)
  have hwf := I.wf.step hs
  have hlocks := I.locks.step I.wf hs
  rcases hs.abort_or with ⟨a, rfl⟩ | hab
  · exact ⟨⟨I.call, I.changing, I.one, I.unchanged, I.held, I.disabled, I.acts, I.enlist, I.near⟩,
      hown, hreg, hwf, hlocks⟩
  · rw [hrun] at hab
    rw [hab]
    refine ⟨⟨fun t call hcall => I.call_step hok hs hab hcall,
      fun t e hch => I.changing_step hok hs hab hch,
      fun t t' e hch hch' => I.one_step hok hs hab hch hch',
      fun t a ha => I.unchanged_step hok hs hab ha,
      fun u k hk => I.held_step hok hs hab hk,
      fun b x kn hkn hdis => I.disabled_step hok hs hab hc hreg hkn hdis,
      fun u a ha hep => I.acts_step hs hab ha hep,
      fun u k hk => I.enlist_step hok hs hab hk,
      fun u a ha => I.near_step hok hs hab ha⟩, hown, hreg, hwf, hlocks⟩

end LoopInv

end Allowed

end Skq.Evcompat
