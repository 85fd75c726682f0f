import SkqBench.Evcompat.Registration
import SkqBench.Evcompat.Wakeup
import SkqBench.Evcompat.Invocation

/-!
# Adding a timer again in its handler

A handler that polls sets its event again and adds it: `evtimer_set`, `event_base_set`,
`evtimer_add`.  The timer that has fired is still pending then, since the finishing pass deletes it,
so `event_add` refuses it; but `evtimer_set` has overwritten its fd, and the finishing pass deletes
under the new one, -1, which is the descriptor of the first timer of the process.

A handler that deletes its event first is right: the change ends the activation, and the finishing
pass skips the event (`rearmOK_iff`).
-/

namespace Skq.Evcompat

open Lib

/-! ## Whom a step is about -/

/-- The thread that takes a step. -/
def Label.thread : Label → Option Tid
  | .fetch t _ _ | .activate t | .invoke t | .ret t | .finish t _ | .advance t | .unlock t
  | .set t _ _ _ _ _ | .baseSet t _ _ | .add t _ _ | .addLocked t _ | .del t _ | .delWake t
  | .spurious t | .cleanup t _ => some t
  | .close _ => none

/-- The event a call in progress is for. -/
def Call.event : Call → EvId
  | .addLock e _ | .delWait e _ _ => e

/-- The event a step is about; locks and waits are left out. -/
def State.about (s : State) : Label → Option EvId
  | .set _ e _ _ _ _ | .baseSet _ _ e | .add _ e _ | .del _ e | .cleanup _ e => some e
  | .addLocked t _ | .delWake t => (s.threads t).call.map Call.event
  | l => s.target l

/-- Where an event is registered, or would be. -/
def Event.place (ev : Event) : Place := (ev.evBase, ev.slot)

/-- A step may deliver, store or remove the knote of the place. -/
def State.Uses (s : State) (pl : Place) : Label → Prop
  | .fetch _ b slots => ∃ x ∈ slots, (some b, some x) = pl
  | .finish t w => ∃ e, s.target (.finish t w) = some e ∧ (s.evs e).place = pl
  | .addLocked t _ => ∃ e kev, (s.threads t).call = some (.addLock e kev) ∧
      ((s.evs e).evBase, some kev.slot) = pl
  | .del _ e => (s.evs e).place = pl
  | .delWake t => ∃ e b k, (s.threads t).call = some (.delWait e b (some k)) ∧
      (some b, some k.slot) = pl
  | _ => False

instance (s : State) (pl : Place) : ∀ l, Decidable (s.Uses pl l)
  | .fetch _ b slots => inferInstanceAs (Decidable (∃ x ∈ slots, (some b, some x) = pl))
  | .finish t w =>
    match h : s.target (.finish t w) with
    | none => isFalse fun ⟨_, he, _⟩ => nomatch h.symm.trans he
    | some e => decidable_of_iff ((s.evs e).place = pl) (by simp [State.Uses, h])
  | .addLocked t _ =>
    match h : (s.threads t).call with
    | some (.addLock e kev) =>
      decidable_of_iff (((s.evs e).evBase, some kev.slot) = pl) (by simp [State.Uses, h])
    | some (.delWait ..) => isFalse (by simp [State.Uses, h])
    | none => isFalse (by simp [State.Uses, h])
  | .del _ e => inferInstanceAs (Decidable ((s.evs e).place = pl))
  | .delWake t =>
    match h : (s.threads t).call with
    | some (.delWait _ b (some k)) =>
      decidable_of_iff ((some b, some k.slot) = pl) (by simp [State.Uses, h])
    | some (.delWait _ _ none) => isFalse (by simp [State.Uses, h])
    | some (.addLock ..) => isFalse (by simp [State.Uses, h])
    | none => isFalse (by simp [State.Uses, h])
  | .activate _ | .invoke _ | .ret _ | .advance _ | .unlock _ | .set .. | .baseSet .. | .add ..
  | .spurious _ | .cleanup .. | .close _ => isFalse id

/-- An event without its lock and its waiters. -/
def Event.core (ev : Event) : Event := { ev with stopCv := [], lk := none }

section Core

variable {ev ev' : Event}

lemma fd_of_core (h : ev'.core = ev.core) : ev'.fd = ev.fd :=
  show ev'.core.fd = ev.core.fd from h ▸ rfl

lemma type_of_core (h : ev'.core = ev.core) : ev'.type = ev.type :=
  show ev'.core.type = ev.core.type from h ▸ rfl

lemma evBase_of_core (h : ev'.core = ev.core) : ev'.evBase = ev.evBase :=
  show ev'.core.evBase = ev.core.evBase from h ▸ rfl

lemma pending_of_core (h : ev'.core = ev.core) : ev'.pending = ev.pending :=
  show ev'.core.pending = ev.core.pending from h ▸ rfl

lemma epoch_of_core (h : ev'.core = ev.core) : ev'.epoch = ev.epoch :=
  show ev'.core.epoch = ev.core.epoch from h ▸ rfl

lemma place_of_core (h : ev'.core = ev.core) : ev'.place = ev.place :=
  show ev'.core.place = ev.core.place from h ▸ rfl

end Core

variable {c : Cfg} {s s' : State} {l : Label} {o : List Obs} {t : Tid} {e : EvId}

lemma DelCall.about {base : BaseId} {kev : Option KEvent} {op : SyncOp}
    (h : DelCall c s l t e base kev op) : s.about l = some e := by
  cases h with
  | first => rfl
  | woken hcall => simp [State.about, hcall, Call.event]

lemma DelCall.thread {base : BaseId} {kev : Option KEvent} {op : SyncOp}
    (h : DelCall c s l t e base kev op) : l.thread = some t := by
  rcases h.label with rfl | rfl <;> rfl

lemma target_about (h : s.target l = some e) : s.about l = some e := by
  cases l <;> first | exact h | cases h

/-- A step that is about something else leaves the event. -/
lemma Step.core_keep (hs : Step c s l s' o) (hab : s'.aborted = none) (hl : s.about l ≠ some e) :
    (s'.evs e).core = (s.evs e).core := by
  have hview := hs.evStep hab e
  generalize s'.evs e = ev at hview ⊢
  cases hview with
  | keep | unlock | spurious => rfl
  | activate hph he => exact absurd (by simp [State.about, State.target, hph, he]) hl
  | finishSkip hph he | finishKeep hph he | finishDel hph he =>
    exact absurd (by simp [State.about, State.target, hph, he]) hl
  | set | baseSet | patch | cleanup => exact absurd rfl hl
  | add hcall => exact absurd (by simp [State.about, hcall, Call.event]) hl
  | delWait hdel | delete hdel => exact absurd hdel.about hl

/-- A thread moves by its own steps only. -/
lemma Step.thread_keep (hs : Step c s l s' o) (hl : l.thread ≠ some t) :
    s'.threads t = s.threads t := by
  have hne : ∀ u, l.thread = some u → t ≠ u := fun u hu ht => hl (hu.trans (congrArg some ht.symm))
  cases hs with
  | fetch | activate | invoke | ret | finishSkip | finishKeep | finishFail | finishDel | toCalling
  | toFinishing | enable | toIdle | unlock => simp [hne _ rfl]
  | set | baseSetErr | baseSetOk | addBusy | addInval | spurious | cleanup | close | abort => rfl
  | addLock | addErr | addOk => simp [hne _ rfl]
  | delErr hdel | delWait hdel | delOk hdel =>
    simp [hne _ hdel.thread]

/-- A step that does not use the place of a timer leaves its knote, or enables it. -/
lemma Step.knote_keep (hs : Step c s l s' o) {b : BaseId} {fd : ℤ} {k : KEvent}
    (hl : ¬ s.Uses (some b, some (fd, .timer)) l) (hkn : s.kqs b (fd, .timer) = some ⟨k, true⟩) :
    s'.kqs b (fd, .timer) = some ⟨k, true⟩ := by
  have hview := hs.knoteStep b (fd, .timer)
  generalize s'.kqs b (fd, .timer) = r at hview ⊢
  cases hview with
  | keep => exact hkn
  | fetch hx => exact absurd ⟨_, hx, rfl⟩ hl
  | enable hph hk hx hkn' =>
    rw [hkn] at hkn'
    cases hkn'
    rfl
  | add hcall hlk hbase hx => exact absurd ⟨_, _, hcall, by rw [hbase, hx]⟩ hl
  | finish hph hper hbase hx =>
    exact absurd ⟨_, target_finish hph, by rw [Event.place, ← hbase, ← hx, Active.ev]⟩ hl
  | delete hdel hx =>
    rcases hdel.place with ⟨hbase, hslot⟩ | ⟨rfl, hcall⟩
    · rcases hdel.label with rfl | rfl
      · exact absurd (by rw [State.Uses, Event.place, hbase, hslot, hx]) hl
      · exact absurd ⟨_, _, _, hdel.inv_delWake.2, by rw [hx]⟩ hl
    · exact absurd ⟨_, _, _, hcall, by rw [hx]⟩ hl
  | close hx => exact absurd rfl hx.2

/-! ## The calls of the handler -/

/-- A step of another thread that is not about the event. -/
def Others (t : Tid) (e : EvId) (s : State) (l : Label) : Prop :=
  l.thread ≠ some t ∧ s.about l ≠ some e

/-- `evtimer_set` and `event_base_set`, other threads coming between. -/
def Prepare (c : Cfg) (t : Tid) (e : EvId) (b : BaseId) (fn arg : ℕ) (s s' : State) : Prop :=
  ∃ s₁ s₂ s₃ o₁ o₂ tr₁ tr₂, step c s (.set t e (-1) evTimeout fn arg) = some (s₁, o₁) ∧
    Run (step c) (Others t e) s₁ tr₁ s₂ ∧ step c s₂ (.baseSet t b e) = some (s₃, o₂) ∧
    Run (step c) (Others t e) s₃ tr₂ s'

/-- The three calls, other threads coming between, with the status `evtimer_add` returns.  `ok` is
the kernel's answer, if it is asked. -/
inductive Rearm (c : Cfg) (t : Tid) (e : EvId) (b : BaseId) (tv : TimeVal) (fn arg : ℕ) (ok : Bool)
    (s : State) : Rc → State → Prop
  | refused {s₁ s₂ : State} {rc : Rc} (hprep : Prepare c t e b fn arg s s₁)
      (hadd : step c s₁ (.add t e (some tv)) = some (s₂, [.result t (.add e) rc])) :
      Rearm c t e b tv fn arg ok s rc s₂
  | locked {s₁ s₂ s₃ s₄ : State} {rc : Rc} {tr o : List Obs} (hprep : Prepare c t e b fn arg s s₁)
      (hadd : step c s₁ (.add t e (some tv)) = some (s₂, []))
      (hr : Run (step c) (Others t e) s₂ tr s₃)
      (hlocked : step c s₃ (.addLocked t ok) = some (s₄, o)) (hres : .result t (.add e) rc ∈ o) :
      Rearm c t e b tv fn arg ok s rc s₄

lemma not_aborted_of_run {ok : State → Label → Prop} {tr : List Obs} (hr : Run (step c) ok s tr s')
    (hab : s'.aborted = none) : s.aborted = none := by
  induction hr with
  | nil => exact hab
  | snoc _ _ hs ih => exact ih (not_aborted_of_step hs)

/-- What the others leave. -/
lemma others_of_run {tr : List Obs} (hr : Run (step c) (Others t e) s tr s')
    (hab : s'.aborted = none) :
    s'.threads t = s.threads t ∧ (s'.evs e).core = (s.evs e).core := by
  induction hr with
  | nil => exact ⟨rfl, rfl⟩
  | snoc _ hok hs ih =>
    obtain ⟨hth, hcore⟩ := ih (not_aborted_of_step hs)
    exact ⟨((step_cases hs).thread_keep hok.1).trans hth,
      ((step_cases hs).core_keep hab hok.2).trans hcore⟩

/-- The fields `event_add` depends on, and that `evtimer_set` and `event_base_set` leave. -/
structure SameState (ev ev' : Event) : Prop where
  active : ev'.active = ev.active
  pending : ev'.pending = ev.pending
  epoch : ev'.epoch = ev.epoch

lemma SameState.trans {ev ev' ev'' : Event} (h : SameState ev ev') (h' : SameState ev' ev'') :
    SameState ev ev'' :=
  ⟨h'.active.trans h.active, h'.pending.trans h.pending, h'.epoch.trans h.epoch⟩

lemma sameState_of_core {ev ev' : Event} (h : ev'.core = ev.core) : SameState ev ev' where
  active := show ev'.core.active = ev.core.active from h ▸ rfl
  pending := pending_of_core h
  epoch := epoch_of_core h

lemma Prepare.spec {b : BaseId} {fn arg : ℕ} (h : Prepare c t e b fn arg s s') (hset : s.isSet e)
    (hab : s'.aborted = none) :
    s'.threads t = s.threads t ∧ SameState (s.evs e) (s'.evs e) ∧ (s'.evs e).type = evTimeout := by
  obtain ⟨s₁, s₂, s₃, o₁, o₂, tr₁, tr₂, hs₁, hr₁, hs₃, hr₂⟩ := h
  have hab₁ : s₁.aborted = none := not_aborted_of_run hr₁ (not_aborted_of_step hs₃)
  obtain ⟨hth₁, hcore₁⟩ := others_of_run hr₁ (not_aborted_of_step hs₃)
  obtain ⟨hth₂, hcore₂⟩ := others_of_run hr₂ hab
  have hfirst : s₁.threads t = s.threads t ∧ SameState (s.evs e) (s₁.evs e) ∧
      (s₁.evs e).type = evTimeout := by
    cases step_cases hs₁ with
    | set => simp [firstSet_of_magic hset, Event.assign]; exact ⟨rfl, rfl, rfl⟩
    | abort => cases hab₁
    | delErr hdel | delWait hdel | delOk hdel => cases hdel
  have hsecond : s₃.threads t = s₂.threads t ∧ SameState (s₂.evs e) (s₃.evs e) ∧
      (s₃.evs e).type = (s₂.evs e).type := by
    cases step_cases hs₃ with
    | baseSetErr => exact ⟨rfl, ⟨rfl, rfl, rfl⟩, rfl⟩
    | baseSetOk => simp; exact ⟨rfl, rfl, rfl⟩
    | abort hl => cases hl
    | delErr hdel | delWait hdel | delOk hdel => cases hdel
  refine ⟨hth₂.trans (hsecond.1.trans (hth₁.trans hfirst.1)),
    ((hfirst.2.1.trans (sameState_of_core hcore₁)).trans hsecond.2.1).trans
      (sameState_of_core hcore₂), ?_⟩
  rw [type_of_core hcore₂, hsecond.2.2, type_of_core hcore₁, hfirst.2.2]

/-- Pending, with its timer knote enabled and the timeout in it. -/
structure ArmedWith (s : State) (e : EvId) (tv : TimeVal) : Prop where
  pending : (s.evs e).pending = true
  knote : ∃ b kn, (s.evs e).evBase = some b ∧ s.kqs b ((s.evs e).fd, .timer) = some kn ∧
    kn.enabled = true ∧ kn.kev.udata = e ∧ kn.kev.data = timeoutData (some tv)

/-- The locked section of `event_add`. -/
lemma Step.addLocked_result {ok : Bool} {rc : Rc} {kev : KEvent}
    (hs : Step c s (.addLocked t ok) s' o) (hcall : (s.threads t).call = some (.addLock e kev))
    (hres : .result t (.add e) rc ∈ o) :
    (s'.threads t).phase = (s.threads t).phase ∧
      (ok = false ∧ rc = .err ∨
        ok = true ∧ rc = .ok ∧ s'.evs e = { s.evs e with pending := true }.deactivate ∧
          ∃ base, (s.evs e).evBase = some base ∧ s'.kqs base kev.slot = some ⟨kev, true⟩) := by
  cases hs with
  | addErr hcall' =>
    rw [hcall] at hcall'
    cases hcall'
    simp only [List.mem_cons, Obs.result.injEq, List.not_mem_nil, reduceCtorEq, false_or, or_false,
      State.use] at hres
    exact ⟨by simp, .inl ⟨rfl, hres.2.2⟩⟩
  | addOk hcall' hlk hbase =>
    rw [hcall] at hcall'
    cases hcall'
    simp only [List.mem_cons, Obs.result.injEq, List.not_mem_nil, reduceCtorEq, false_or, or_false,
      State.use] at hres
    exact ⟨by simp, .inr ⟨rfl, hres.2.2, by simp, _, hbase, by simp⟩⟩
  | abort hl => cases hl
  | delErr hdel | delWait hdel | delOk hdel => cases hdel

/-- What the three calls come to. -/
lemma Rearm.spec {b : BaseId} {tv : TimeVal} {fn arg : ℕ} {ok : Bool} {rc : Rc}
    (h : Rearm c t e b tv fn arg ok s rc s') (hset : s.isSet e) :
    (s'.threads t).phase = (s.threads t).phase ∧
      (((s.evs e).pending = true ∨ ok = false) ∧ rc = .err ∨
        (s.evs e).pending = false ∧ ok = true ∧ rc = .ok ∧ ArmedWith s' e tv ∧
          (s'.evs e).type = evTimeout ∧ (s'.evs e).epoch = (s.evs e).deactivate.epoch) := by
  have hfilter : filterOf evTimeout = some .timer := by decide
  cases h with
  | refused hprep hadd =>
    obtain ⟨hth, hsame, htype⟩ := hprep.spec hset (not_aborted_of_step hadd)
    cases step_cases hadd with
    | addBusy hmay _ hpend => exact ⟨by rw [hth], .inl ⟨.inl (hsame.pending.symm.trans hpend), rfl⟩⟩
    | addInval hmay _ hpend hnone =>
      rw [htype, hfilter] at hnone
      cases hnone
    | abort hl ho => simp at ho
  | @locked s₁ s₂ s₃ _ _ tr o hprep hadd hr hlocked hres =>
    obtain ⟨hth, hsame, htype⟩ := hprep.spec hset (not_aborted_of_step hadd)
    obtain ⟨hth₃, hcore₃⟩ := others_of_run hr (not_aborted_of_step hlocked)
    have hab₂ := not_aborted_of_run hr (not_aborted_of_step hlocked)
    cases step_cases hadd with
    | abort => cases hab₂
    | addLock hmay _ hbase hpend hf =>
      rw [htype, hfilter] at hf
      obtain rfl := Option.some.inj hf
      obtain ⟨fd, hev, -⟩ := patchTimerFd_evs s₁.toProc e e
      have hcall : (s₃.threads t).call = some (.addLock e
          (mkKevent c ((patchTimerFd s₁.toProc e).evs e) e .timer (!c.multKq) (some tv))) := by
        rw [hth₃]
        simp
      have hph : (s₃.threads t).phase = (s.threads t).phase := by
        rw [hth₃, ← hth]
        simp
      simp only [State.setCall_toProc, State.setProc_toProc, hev] at hcore₃ hcall
      have hpatch : SameState (s₁.evs e) { s₁.evs e with fd := fd } := ⟨rfl, rfl, rfl⟩
      have hsame₃ := (hsame.trans hpatch).trans (sameState_of_core hcore₃)
      have hfd : (s₃.evs e).fd = fd := fd_of_core hcore₃
      have htype₃ : (s₃.evs e).type = evTimeout := (type_of_core hcore₃).trans htype
      obtain ⟨hph', hcase⟩ := (step_cases hlocked).addLocked_result hcall hres
      refine ⟨hph'.trans hph, ?_⟩
      rcases hcase with ⟨hok, hrc⟩ | ⟨hok, hrc, hev', base, hb, hkn⟩
      · exact .inl ⟨.inr hok, hrc⟩
      · refine .inr ⟨hsame.pending.symm.trans hpend, hok, hrc, ⟨by simp [hev'], base,
          ⟨mkKevent c { s₁.evs e with fd := fd } e .timer (!c.multKq) (some tv), true⟩, ?_, ?_,
            rfl, rfl, rfl⟩,
          ?_, ?_⟩
        · simp [hev', hb]
        · rw [hev', Event.deactivate_fd,
            show ({ s₃.evs e with pending := true } : Event).fd = fd from hfd]
          exact hkn
        · simp [hev', htype₃]
        · rw [hev', Event.deactivate_epoch, Event.deactivate_epoch]
          show (if (s₃.evs e).active then (s₃.evs e).epoch + 1 else (s₃.evs e).epoch) = _
          rw [hsame₃.active, hsame₃.epoch]

/-! ## The rest of the pass -/

/-- A step that is about the event only as an iteration of the finishing pass of its thread, and
that else does not use its place. -/
def Aside (t : Tid) (e : EvId) (pl : Place) (s : State) (l : Label) : Prop :=
  if s.about l = some e then ∃ w, l = .finish t w else ¬ s.Uses pl l

instance (t : Tid) (e : EvId) (pl : Place) (s : State) (l : Label) : Decidable (Aside t e pl s l) :=
  have : Decidable (∃ w, l = .finish t w) :=
    match l with
    | .finish u w => decidable_of_iff (u = t) (by simp)
    | .fetch .. | .activate _ | .invoke _ | .ret _ | .advance _ | .unlock _ | .set .. | .baseSet ..
    | .add .. | .addLocked .. | .del .. | .delWake _ | .spurious _ | .cleanup .. | .close _ =>
      isFalse (by simp)
  inferInstanceAs (Decidable (if s.about l = some e then ∃ w, l = .finish t w else ¬ s.Uses pl l))

/-- The finishing pass skips an entry that is stale. -/
lemma Step.finish_stale {w : ℕ} {b : BaseId} {a : Active} {todo done : List Active}
    {enlist : List KEvent} (hs : Step c s (.finish t w) s' o)
    (hph : (s.threads t).phase = .finishing b (a :: todo) done enlist)
    (hstale : a.fresh (s.evs a.ev) = false) :
    s'.kqs = s.kqs ∧ (s'.evs a.ev).core = (s.evs a.ev).core := by
  cases hs with
  | finishSkip hph' =>
    rw [hph] at hph'
    cases hph'
    exact ⟨rfl, by simp [Active.ev, Event.core, Event.signal]⟩
  | finishKeep hph' hlk hfresh | finishFail hph' hlk hfresh | finishDel hph' hlk hfresh =>
    rw [hph] at hph'
    cases hph'
    exact absurd (hstale.symm.trans hfresh) (by simp)
  | abort => exact ⟨rfl, rfl⟩
  | delErr hdel | delWait hdel | delOk hdel => cases hdel

/-- The finishing pass never makes an event pending. -/
lemma Step.finish_pending {w : ℕ} (hs : Step c s (.finish t w) s' o) (hab : s'.aborted = none)
    (hpend : (s.evs e).pending = false) : (s'.evs e).pending = false := by
  have hview := hs.evStep hab e
  generalize s'.evs e = ev at hview ⊢
  cases hview with
  | keep | finishSkip | finishKeep => exact hpend
  | finishDel => rfl
  | delWait hdel | delete hdel => cases hdel

/-- The event and its knote are as in state `r`, in which `evtimer_add` had returned. -/
structure Standing (r : State) (e : EvId) (b : BaseId) (k : KEvent) (s : State) : Prop where
  core : (s.evs e).core = (r.evs e).core
  knote : s.kqs b ((r.evs e).fd, .timer) = some ⟨k, true⟩

section Standing

variable {r : State} {b : BaseId} {k : KEvent}

lemma Standing.fresh (h : Standing r e b k s) (a : Active) :
    a.fresh (s.evs e) = a.fresh (r.evs e) := by
  rw [Active.fresh, Active.fresh, epoch_of_core h.core]

lemma Standing.step (h : Standing r e b k s)
    (hplace : (r.evs e).place = (some b, some ((r.evs e).fd, .timer)))
    (hok : Aside t e (r.evs e).place s l) (hs : Step c s l s' o) (hab : s'.aborted = none)
    (hl : s.about l ≠ some e) : Standing r e b k s' := by
  rw [Aside, if_neg hl, hplace] at hok
  exact ⟨(hs.core_keep hab hl).trans h.core, hs.knote_keep hok h.knote⟩

/-- The finishing pass at a stale entry. -/
lemma Standing.finish {w : ℕ} {b' : BaseId} {a : Active} {todo done : List Active}
    {enlist : List KEvent} (h : Standing r e b k s) (hs : Step c s (.finish t w) s' o)
    (hph : (s.threads t).phase = .finishing b' (a :: todo) done enlist) (he : a.ev = e)
    (hstale : a.fresh (r.evs e) = false) : Standing r e b k s' := by
  subst he
  obtain ⟨hkqs, hcore⟩ := hs.finish_stale hph ((h.fresh a).trans hstale)
  exact ⟨hcore.trans h.core, by rw [hkqs]; exact h.knote⟩

/-- The finishing pass at a fresh entry deletes the timer. -/
lemma Standing.deleted {w : ℕ} {b' : BaseId} {a : Active} {todo done : List Active}
    {enlist : List KEvent} (h : Standing r e b k s)
    (hplace : (r.evs e).place = (some b, some ((r.evs e).fd, .timer)))
    (hpend : (r.evs e).pending = true) (hper : (r.evs e).type.has evPersist = false)
    (hs : Step c s (.finish t w) s' o) (hab : s'.aborted = none)
    (hph : (s.threads t).phase = .finishing b' (a :: todo) done enlist) (he : a.ev = e)
    (hfresh : a.fresh (r.evs e) = true) : (s'.evs e).pending = false := by
  subst he
  have hfresh' : a.fresh (s.evs a.ev) = true := (h.fresh a).trans hfresh
  have hpend' : (s.evs a.ev).pending = true := (pending_of_core h.core).trans hpend
  have hper' : (s.evs a.ev).type.has evPersist = false := by rw [type_of_core h.core, hper]
  have hplace' : (s.evs a.ev).place = (some b, some ((r.evs a.ev).fd, .timer)) :=
    (place_of_core h.core).trans hplace
  have hview := hs.evStep hab a.ev
  generalize s'.evs a.ev = ev at hview ⊢
  cases hview with
  | keep hl => exact absurd (target_finish hph) hl
  | finishSkip hph' he hlk hstale =>
    rw [hph] at hph'
    cases hph'
    exact absurd (hstale.symm.trans hfresh') (by simp)
  | finishKeep hph' he hlk hf hwhy =>
    rcases hwhy with h₁ | h₁ | ⟨base, hbase, h₁⟩
    · exact absurd (hper'.symm.trans h₁) (by simp)
    · exact absurd (hpend'.symm.trans h₁) (by simp)
    · obtain rfl : base = b := Option.some.inj (hbase.symm.trans (congrArg Prod.fst hplace'))
      exact absurd (h.knote.symm.trans (h₁ _ (congrArg Prod.snd hplace'))) (by simp)
  | finishDel => rfl
  | delWait hdel | delete hdel => cases hdel

/-- The entry the finishing pass of the thread is at, if it is at the event. -/
lemma finishing_of_about {w : ℕ} (h : s.about (.finish t w) = some e) :
    ∃ b a todo done enlist, (s.threads t).phase = .finishing b (a :: todo) done enlist ∧
      a.ev = e := by
  simp only [State.about, State.target] at h
  split at h
  · next b a todo done enlist hph => exact ⟨b, a, todo, done, enlist, hph, Option.some.inj h⟩
  · cases h

/-- **A timer all of whose entries are stale stands.** -/
lemma standing_of_run {tr : List Obs} (h : Standing r e b k r)
    (hplace : (r.evs e).place = (some b, some ((r.evs e).fd, .timer)))
    (hr : Run (step c) (Aside t e (r.evs e).place) r tr s)
    (hstale : ∀ a ∈ (r.threads t).phase.activated, a.ev = e → a.fresh (r.evs e) = false) :
    Standing r e b k s ∧ ∀ a ∈ (s.threads t).phase.activated, a.ev = e →
      a.fresh (r.evs e) = false := by
  refine hr.inv (fun s => Standing r e b k s ∧
    ∀ a ∈ (s.threads t).phase.activated, a.ev = e → a.fresh (r.evs e) = false) ⟨h, hstale⟩ ?_
  rintro s l s' o ⟨hst, hall⟩ hok hstep
  have hs := step_cases hstep
  rcases hs.abort_or with ⟨x, rfl⟩ | hab
  · exact ⟨⟨hst.core, hst.knote⟩, hall⟩
  have hab' := hab.trans (not_aborted_of_step hstep)
  refine ⟨?_, fun a ha he => ?_⟩
  · by_cases hl : s.about l = some e
    · obtain ⟨w, rfl⟩ : ∃ w, l = .finish t w := by
        rw [Aside, if_pos hl] at hok
        exact hok
      obtain ⟨b', a, todo, done, enlist, hph, he⟩ := finishing_of_about hl
      exact hst.finish hs hph he (hall a (by simp [hph, Phase.activated]) he)
    · exact hst.step hplace hok hs hab' hl
  · rcases (hs.phaseStep hab' t).activated_source ha with ha | ⟨b', k', todo, done, rfl, hph, rfl⟩
    · exact hall a ha he
    · -- the event is not activated
      have hl : s.about (.activate t) = some e := by
        simp [State.about, State.target, hph, ← he, Active.ev]
      rw [Aside, if_pos hl] at hok
      obtain ⟨w, hw⟩ := hok
      cases hw

/-- **A timer with a fresh entry does not**: it stands until the finishing pass is at the entry. -/
lemma standing_or_deleted_of_run {tr : List Obs} {a : Active} (h : Standing r a.ev b k r)
    (hplace : (r.evs a.ev).place = (some b, some ((r.evs a.ev).fd, .timer)))
    (hpend : (r.evs a.ev).pending = true) (hper : (r.evs a.ev).type.has evPersist = false)
    (hr : Run (step c) (Aside t a.ev (r.evs a.ev).place) r tr s)
    (ha : a ∈ (r.threads t).phase.activated) (hfresh : a.fresh (r.evs a.ev) = true) :
    Standing r a.ev b k s ∧ a ∈ (s.threads t).phase.activated ∨ (s.evs a.ev).pending = false := by
  refine hr.inv (fun s => Standing r a.ev b k s ∧ a ∈ (s.threads t).phase.activated ∨
    (s.evs a.ev).pending = false) (.inl ⟨h, ha⟩) ?_
  intro s l s' o ih hok hstep
  have hs := step_cases hstep
  rcases hs.abort_or with ⟨x, rfl⟩ | hab
  · exact ih.imp (fun h => ⟨⟨h.1.core, h.1.knote⟩, h.2⟩) id
  have hab' := hab.trans (not_aborted_of_step hstep)
  by_cases hl : s.about l = some a.ev
  · obtain ⟨w, rfl⟩ : ∃ w, l = .finish t w := by
      rw [Aside, if_pos hl] at hok
      exact hok
    rcases ih with ⟨hst, ha⟩ | hdel
    · obtain ⟨b', a', todo, done, enlist, hph, he⟩ := finishing_of_about hl
      cases hf : a'.fresh (r.evs a.ev) with
      | false =>
        refine .inl ⟨hst.finish hs hph he hf, ?_⟩
        rcases (hs.phaseStep hab' t).activated_keep ha with
          ha | ⟨w', b₁, todo₁, done₁, enlist₁, -, hph₁⟩
        · exact ha
        · rw [hph] at hph₁
          cases hph₁
          exact absurd (hf.symm.trans hfresh) (by simp)
      | true => exact .inr (hst.deleted hplace hpend hper hs hab' hph he hf)
    · exact .inr (hs.finish_pending hab' hdel)
  · rcases ih with ⟨hst, ha⟩ | hdel
    · exact .inl ⟨hst.step hplace hok hs hab' hl,
        hs.entry_keep hab' ha fun h => hl (target_about h)⟩
    · exact .inr ((pending_of_core (hs.core_keep hab' hl)).trans hdel)

end Standing

/-! ## A firing -/

/-- What is asked of a handler that adds its timer again: `r` is the state after the three calls,
`s` the state when the pass has ended, `rc` the status of `evtimer_add`. -/
structure RearmOK (c : Cfg) (t : Tid) (e : EvId) (tv : TimeVal) (rc : Rc) (r s : State) : Prop where
  added : rc = .ok
  armed : ArmedWith s e tv
  kept : ∀ s₁ s₂ tr w o, Run (step c) (Aside t e (r.evs e).place) r tr s₁ →
    step c s₁ (.finish t w) = some (s₂, o) → s₁.target (.finish t w) = some e →
      ∀ b x kn, s₁.kqs b x = some kn → kn.kev.udata ≠ e → s₂.kqs b x = some kn

/-- **A timer is armed again by its handler iff it is not pending when the handler sets it**, the
kernel accepts it, and the change ends the activation: no entry of the batch has the new epoch. -/
theorem rearmOK_iff (c : Cfg) {s₀ s r s' : State} {t : Tid} {e : EvId} {a : Active} {b : BaseId}
    {tv : TimeVal} {fn arg : ℕ} {ok : Bool} {rc : Rc} {tr tr' : List Obs} (h0 : s₀.Init)
    (hr : Run (step c) anyStep s₀ tr s) (hrun : (s.threads t).phase.running = some a)
    (he : a.ev = e) (hcalls : Rearm c t e b tv fn arg ok s rc r)
    (hpass : Run (step c) (Aside t e (r.evs e).place) r tr' s')
    (hend : (s'.threads t).phase = .idle) :
    RearmOK c t e tv rc r s' ↔ (s.evs e).pending = false ∧ ok = true ∧
      ∀ a ∈ (s.threads t).phase.activated, a.ev = e → a.fresh (s.evs e).deactivate = false := by
  have hset : s.isSet e := he ▸ activated_isSet (wf_of_run hr h0.wf)
    (Phase.uncalled_activated (Phase.running_uncalled hrun))
  obtain ⟨hph, hcase⟩ := hcalls.spec hset
  rcases hcase with ⟨hwhy, rfl⟩ | ⟨hpend, hok, rfl, harmed, htype, hepoch⟩
  · refine ⟨fun h => absurd h.added (by simp), fun h => ?_⟩
    rcases hwhy with hpend | hok
    · exact absurd (hpend.symm.trans h.1) (by simp)
    · exact absurd (hok.symm.trans h.2.1) (by simp)
  obtain ⟨base, ⟨k, en⟩, hbase, hkn, hen, hu, hdata⟩ := harmed.knote
  obtain rfl : en = true := hen
  have hst : Standing r e base k r := ⟨rfl, hkn⟩
  have hplace : (r.evs e).place = (some base, some ((r.evs e).fd, .timer)) := by
    rw [Event.place, hbase, Event.slot, htype]
    rfl
  have hfresh : ∀ a : Active, a.fresh (r.evs e) = a.fresh (s.evs e).deactivate := by
    intro a
    rw [Active.fresh, Active.fresh, hepoch]
  constructor
  · intro h
    refine ⟨hpend, hok, fun a ha he => ?_⟩
    -- with a fresh entry the timer would have been deleted
    by_contra hf
    rw [Bool.not_eq_false, ← hfresh] at hf
    subst he
    rcases standing_or_deleted_of_run hst hplace harmed.pending (by rw [htype]; decide) hpass
      (by rwa [hph]) hf with ⟨-, hmem⟩ | hdel
    · rw [hend] at hmem
      cases hmem
    · exact absurd (hdel.symm.trans h.armed.pending) (by simp)
  · rintro ⟨-, -, hstale⟩
    have hstale' : ∀ a ∈ (r.threads t).phase.activated, a.ev = e → a.fresh (r.evs e) = false := by
      intro a ha he
      rw [hph] at ha
      exact (hfresh a).trans (hstale a ha he)
    refine ⟨rfl, ?_, fun s₁ s₂ tr w o hr₁ hs₂ htarget b x kn hkn' hne => ?_⟩
    · obtain ⟨hcore, hknote⟩ := (standing_of_run hst hplace hpass hstale').1
      refine ⟨(pending_of_core hcore).trans harmed.pending, base, ⟨k, true⟩,
        (evBase_of_core hcore).trans hbase, ?_, rfl, hu, hdata⟩
      rw [fd_of_core hcore]
      exact hknote
    · obtain ⟨hst₁, hall⟩ := standing_of_run hst hplace hr₁ hstale'
      obtain ⟨b', a', todo, done, enlist, hph', he'⟩ := finishing_of_about (target_about htarget)
      subst he'
      have hf : a'.fresh (s₁.evs a'.ev) = false :=
        (hst₁.fresh a').trans (hall a' (by simp [hph', Phase.activated]) rfl)
      rw [((step_cases hs₂).finish_stale hph' hf).1]
      exact hkn'

/-- The state a list of labels leads to, in a debug build. -/
def State.after (s : State) (ls : List Label) : State :=
  ((exec (step ⟨false, false⟩) s ls).map Prod.fst).getD s

lemma State.run_after {ok : State → Label → Prop} (s : State) (ls : List Label)
    (h : (exec (step ⟨false, false⟩) s ls).isSome = true)
    (hg : Guarded (step ⟨false, false⟩) ok s ls) :
    ∃ tr, Run (step ⟨false, false⟩) ok s tr (s.after ls) := by
  obtain ⟨⟨s', tr⟩, hs⟩ := Option.isSome_iff_exists.1 h
  refine ⟨tr, .of_exec (hs.trans ?_) hg⟩
  rw [State.after, hs]
  rfl

/-- Two timers; the second one has fired, and its handler runs. -/
def firing : State := State.zero.after
  (register 0 0 1 0 evTimeout (some ⟨1, 0⟩) ++ register 0 0 0 0 evTimeout (some ⟨0, 10000⟩) ++
    [.fetch 0 0 [(-2, .timer)], .activate 0, .advance 0, .invoke 0])

lemma run_firing : ∃ tr, Run (step ⟨false, false⟩) anyStep State.zero tr firing :=
  State.run_after State.zero _ rfl guarded_anyStep

/-- The rest of the pass. -/
def passRest : List Label := [.ret 0, .advance 0, .finish 0 0, .advance 0, .unlock 0, .advance 0]

/-- The event is deleted by its handler. -/
def deleting : State := firing.after [.del 0 0]

/-- A handler that has deleted its event adds it again. -/
def readded : State :=
  deleting.after [.set 0 0 (-1) evTimeout 0 0, .baseSet 0 0 0, .add 0 0 (some ⟨0, 10000⟩),
    .addLocked 0 true]

lemma rearm_deleting : Rearm ⟨false, false⟩ 0 0 0 ⟨0, 10000⟩ 0 0 true deleting .ok readded :=
  .locked ⟨deleting.after [.set 0 0 (-1) evTimeout 0 0], _,
      deleting.after [.set 0 0 (-1) evTimeout 0 0, .baseSet 0 0 0], _, _, _, _, rfl, .nil,
        rfl, .nil⟩
    (show _ = some (deleting.after [.set 0 0 (-1) evTimeout 0 0, .baseSet 0 0 0,
      .add 0 0 (some ⟨0, 10000⟩)], _) from rfl) .nil rfl (by decide)

/-- The handler that deletes its event first has it armed when the pass has ended. -/
theorem rearmOK_deleting :
    RearmOK ⟨false, false⟩ 0 0 ⟨0, 10000⟩ .ok readded (readded.after passRest) := by
  obtain ⟨tr, hr⟩ := run_firing
  have hdel : Guarded (step ⟨false, false⟩) anyStep firing [.del 0 0] := guarded_anyStep
  have hpass : Guarded (step ⟨false, false⟩)
      (Aside 0 0 (readded.evs 0).place) readded passRest := by
    decide +kernel
  obtain ⟨tr₁, hr₁⟩ := State.run_after firing [.del 0 0] rfl hdel
  obtain ⟨tr₂, hr₂⟩ := State.run_after readded passRest rfl hpass
  have hrun : (deleting.threads 0).phase.running = some ⟨⟨-2, .timer, true, false, 10000, 0⟩, 0⟩ :=
    rfl
  have hiff := rearmOK_iff ⟨false, false⟩ State.zero_init
    (hr.append hr₁) hrun rfl rearm_deleting hr₂ rfl
  exact hiff.2 ⟨rfl, rfl, by decide +kernel⟩

/-- The handler polls on without deleting its event. -/
def polled : State :=
  firing.after [.set 0 0 (-1) evTimeout 0 0, .baseSet 0 0 0, .add 0 0 (some ⟨0, 10000⟩)]

lemma rearm_firing : Rearm ⟨false, false⟩ 0 0 0 ⟨0, 10000⟩ 0 0 true firing .err polled :=
  .refused ⟨firing.after [.set 0 0 (-1) evTimeout 0 0], _,
    firing.after [.set 0 0 (-1) evTimeout 0 0, .baseSet 0 0 0], _, _, _, _, rfl, .nil,
      rfl, .nil⟩ rfl

/-- **The handler that does not delete it is refused, and the finishing pass deletes the knote of
another timer**: when the pass has ended its own event is not pending, and the other one has no
knote. -/
theorem not_rearmOK_firing :
    (∃ tr, Run (step ⟨false, false⟩) anyStep State.zero tr firing) ∧
      Rearm ⟨false, false⟩ 0 0 0 ⟨0, 10000⟩ 0 0 true firing .err polled ∧
      (∃ tr, Run (step ⟨false, false⟩) (Aside 0 0 (polled.evs 0).place) polled tr
        (polled.after passRest)) ∧
      ((polled.after passRest).threads 0).phase = .idle ∧
      ¬ RearmOK ⟨false, false⟩ 0 0 ⟨0, 10000⟩ .err polled (polled.after passRest) ∧
      ((polled.after passRest).evs 0).pending = false ∧
        ((polled.after passRest).evs 1).pending = true ∧
      (firing.kqs 0 (-1, .timer)).map (fun kn => kn.kev.udata) = some 1 ∧
      (polled.after passRest).kqs 0 (-1, .timer) = none :=
  ⟨run_firing, rearm_firing, State.run_after polled passRest rfl (by decide +kernel), rfl,
    fun h => absurd h.added (by simp), rfl, rfl, rfl, rfl⟩

end Skq.Evcompat
