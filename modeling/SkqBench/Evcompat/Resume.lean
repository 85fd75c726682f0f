import SkqBench.Evcompat.Registration

/-!
# `event_del` after its wait

`event_del` reads `ev_base` and builds its `EV_DELETE` change before the label `retry`; a wait in
between releases the mutex to the handler of the event, which may delete it, set it up again and
add it.  What the call submits when it leaves the wait is the change of the time it was made.
`resumeCorrect_iff` says when that is right: exactly if the event, in case it is still pending and
no other thread has it active, has the base, the fd and the filter it had then.  A timer that was
added again has another fd.
-/

namespace Skq.Evcompat

open Lib

/-- A round of `event_del` by `t` with the lock just taken gets to its `EV_DELETE`. -/
def GoesOn (s : State) (t : Tid) (e : EvId) : Prop :=
  (s.evs e).pending = true ∧ ((s.evs e).active = true → (s.evs e).owner = some t)

/-- What a resumed `event_del(e)` of `t` should do.
* `addresses`: the change it submits, if it gets there, is for the knote of `e`.
* `ok`: with `CS_OK`, `e` is no longer registered.
* `err`: `CS_ERR` only if `e` was not pending. -/
structure ResumeCorrect (s : State) (t : Tid) (e : EvId) (s' : State) (o : List Obs) : Prop where
  addresses : GoesOn s t e → ∃ base k kn, (s.threads t).call = some (.delWait e base (some k)) ∧
    s.kqs base k.slot = some kn ∧ kn.kev.udata = e
  ok : .result t (.del e) .ok ∈ o → ∀ b x kn, s'.kqs b x = some kn → kn.kev.udata ≠ e
  err : .result t (.del e) .err ∈ o → (s.evs e).pending = false

/-- A call that waits is where it was after every step in which it does not return. -/
lemma Step.delWait_keep {c : Cfg} {s s' : State} {l : Label} {o : List Obs} (hs : Step c s l s' o)
    {t : Tid} {e : EvId} {base : BaseId} {kev : Option KEvent}
    (hcall : (s.threads t).call = some (.delWait e base kev))
    (hret : ∀ api rc, .result t api rc ∉ o) :
    (s'.threads t).call = some (.delWait e base kev) := by
  have hbusy : (s.threads t).mayCall = false := by simp [Thread.mayCall, hcall]
  cases hs with
  | fetch | activate | invoke | ret | finishSkip | finishKeep | finishFail | finishDel | toCalling
  | toFinishing | enable | toIdle | unlock =>
    simp only [State.setPhase_threads, State.setProc_threads]
    split
    · next h => subst h; exact hcall
    · exact hcall
  | set | baseSetErr | baseSetOk | addBusy | addInval | spurious | cleanup | close | abort =>
    exact hcall
  | addLock hmay =>
    simp only [State.setCall_threads, State.setProc_threads]
    split
    · next h =>
      subst h
      rw [hmay] at hbusy
      cases hbusy
    · exact hcall
  | addErr | addOk | delErr | delOk =>
    simp only [State.setCall_threads, State.setProc_threads]
    split
    · next h =>
      subst h
      exact absurd (.tail _ (.tail _ (.head _))) (hret _ _)
    · exact hcall
  | delWait hdel =>
    simp only [State.setCall_threads, State.setProc_threads]
    split
    · next h =>
      subst h
      cases hdel with
      | first hmay =>
        rw [hmay] at hbusy
        cases hbusy
      | woken hcall' =>
        exact hcall'.symm.trans hcall
    · exact hcall

/-- The same over a run. -/
lemma delWait_keep_run {c : Cfg} {ok : State → Label → Prop} {s₀ s : State} {tr : List Obs}
    (hr : Run (step c) ok s₀ tr s) {t : Tid} {e : EvId} {base : BaseId} {kev : Option KEvent}
    (hcall : (s₀.threads t).call = some (.delWait e base kev))
    (hret : ∀ api rc, .result t api rc ∉ tr) :
    (s.threads t).call = some (.delWait e base kev) := by
  induction hr with
  | nil => exact hcall
  | snoc _ _ hs ih =>
    refine (step_cases hs).delWait_keep (ih fun api rc hx => ?_) fun api rc hx => ?_
    · exact hret api rc (List.mem_append_left _ hx)
    · exact hret api rc (List.mem_append_right _ hx)

/-- Nothing happens after an assertion has failed. -/
lemma aborted_run {c : Cfg} {ok : State → Label → Prop} {s₀ s : State} {tr : List Obs}
    (hr : Run (step c) ok s₀ tr s) (h : s₀.aborted.isSome = true) : s.aborted.isSome = true :=
  hr.inv (fun s => s.aborted.isSome = true) h fun s l s' o hab _ hs => by
    simp only [step, hab, if_true] at hs
    cases hs

/-! ## The three ways a round ends -/

section Round

variable {s : State} {t : Tid} {e : EvId} {base : BaseId} {kev : Option KEvent} {op : SyncOp}

lemma delRound_of_not_pending (h : (s.evs e).pending = false) :
    delRound s t e base kev op =
      (s.setCall t none, [s.use op e, s.use .unlock e, .result t (.del e) .err]) := by
  simp only [delRound, eventDelRetry, h, if_true]
  rfl

lemma delRound_of_busy (h : (s.evs e).pending = true) (hact : (s.evs e).active = true)
    (hown : (s.evs e).owner ≠ some t) :
    delRound s t e base kev op =
      ((s.setProc (s.setEv e ((s.evs e).wait t))).setCall t (some (.delWait e base kev)),
        [s.use op e, s.use .wait e]) := by
  simp [delRound, eventDelRetry, h, hact, hown]

lemma delRound_of_knote {k : KEvent} {kn : Knote} (h : GoesOn s t e)
    (hkn : s.kqs base k.slot = some kn) :
    delRound s t e base (some k) op =
      ((s.setProc ((s.setKq base (Function.update (s.kqs base) k.slot none)).setEv e
          { s.evs e with pending := false }.deactivate)).setCall t none,
        [s.use op e, s.use .unlock e, .result t (.del e) .ok]) := by
  have hbusy : ¬ ((s.evs e).active = true ∧ (s.evs e).owner ≠ some t) := fun hb => hb.2 (h.2 hb.1)
  have hdel : (s.kqs base).delete k.slot = some (Function.update (s.kqs base) k.slot none) :=
    Kqueue.delete_eq_some.2 ⟨⟨kn, hkn⟩, rfl⟩
  simp only [delRound, eventDelRetry, h.1, hbusy, Option.bind_some, hdel, Bool.true_eq_false,
    if_false]

end Round

/-- A round after a wake-up, in a state in which the events and the kernel agree: it does the
right thing exactly if the place it has saved is still the place of the event. -/
lemma resumeCorrect_iff_place {s : State} (hreg : RegInv s) {t : Tid} {e : EvId} {base : BaseId}
    {kev : Option KEvent} {op : SyncOp} (hset : s.isSet e)
    (hcall : (s.threads t).call = some (.delWait e base kev)) :
    ResumeCorrect s t e (delRound s t e base kev op).1 (delRound s t e base kev op).2 ↔
      (GoesOn s t e → (s.evs e).evBase = some base ∧ (s.evs e).slot = kev.map KEvent.slot) := by
  by_cases hpend : (s.evs e).pending = true
  case neg =>
    have hgo : ¬ GoesOn s t e := fun h => hpend h.1
    rw [Bool.not_eq_true] at hpend
    rw [delRound_of_not_pending hpend]
    exact ⟨fun _ h => absurd h hgo, fun _ =>
      ⟨fun h => absurd h hgo, by simp [State.use], fun _ => hpend⟩⟩
  by_cases hgo : GoesOn s t e
  case neg =>
    have hbusy : (s.evs e).active = true ∧ (s.evs e).owner ≠ some t := by
      by_contra hb
      exact hgo ⟨hpend, fun hact => by_contra fun hown => hb ⟨hact, hown⟩⟩
    rw [delRound_of_busy hpend hbusy.1 hbusy.2]
    exact ⟨fun _ h => absurd h hgo, fun _ =>
      ⟨fun h => absurd h hgo, by simp [State.use], by simp [State.use]⟩⟩
  constructor
  · rintro ⟨haddr, -, -⟩ -
    obtain ⟨base', k, kn, hcall', hkn, rfl⟩ := haddr hgo
    rw [hcall] at hcall'
    obtain ⟨-, rfl, rfl⟩ := Call.delWait.inj (Option.some.inj hcall')
    exact (hreg.of_knote hkn).2.2
  · intro hplace
    obtain ⟨hbase, hslot⟩ := hplace hgo
    obtain ⟨b, x, kn, hbase', hslot', hkn, hu⟩ := hreg.of_pending hset hpend
    rw [hbase] at hbase'
    obtain rfl := Option.some.inj hbase'
    obtain ⟨k, rfl, rfl⟩ := Option.map_eq_some_iff.1 (hslot.symm.trans hslot')
    rw [delRound_of_knote hgo hkn]
    refine ⟨fun _ => ⟨base, k, kn, hcall, hkn, hu⟩, fun _ b y kn' hkn' hu' => ?_, by simp [State.use]⟩
    simp only [State.setCall_toProc, State.setProc_toProc, Proc.setEv_kqs, Proc.setKq_kqs] at hkn'
    have hold : s.kqs b y = some kn' := by
      split at hkn'
      · next hb => rw [hb]; exact mem_of_update_none hkn'
      · exact hkn'
    obtain ⟨-, -, hb, hy⟩ := hreg.of_knote hold
    rw [hu', hbase] at hb
    rw [hu', hslot'] at hy
    obtain rfl := Option.some.inj hb
    obtain rfl := Option.some.inj hy
    simp at hkn'

/-- A call of `event_del` that has not returned has saved the place of that time. -/
lemma del_saves {c : Cfg} {s s' : State} {t : Tid} {e : EvId} {o : List Obs}
    (hs : step c s (.del t e) = some (s', o)) (hret : ∀ api rc, .result t api rc ∉ o) :
    s'.aborted.isSome = true ∨ ∃ base, (s.evs e).evBase = some base ∧
      (s'.threads t).call = some (.delWait e base (initKeventDelete c (s.evs e) e)) := by
  generalize hl : Label.del t e = l at hs
  cases step_cases hs with
  | delErr hdel | delOk hdel =>
    subst hl
    rw [← hdel.inv_del.1] at hret
    exact absurd (.tail _ (.tail _ (.head _))) (hret _ _)
  | delWait hdel =>
    subst hl
    obtain ⟨rfl, rfl, hbase, rfl⟩ := hdel.inv_del
    exact .inr ⟨_, hbase, by simp⟩
  | abort => exact .inl rfl
  | _ => cases hl

/-- The round of a call that was woken. -/
lemma delWake_round {c : Cfg} {s s' : State} {t : Tid} {e : EvId} {base : BaseId}
    {kev : Option KEvent} {o : List Obs} (hcall : (s.threads t).call = some (.delWait e base kev))
    (hs : step c s (.delWake t) = some (s', o)) :
    (delRound s t e base kev .wait).1 = s' ∧ (delRound s t e base kev .wait).2 = o := by
  simp only [step, stepDelWake, hcall] at hs
  split at hs
  · cases hs
  split at hs
  · exact Prod.mk.inj (Option.some.inj hs)
  · cases hs

/-- **When a resumed `event_del` is right.**  A thread calls `event_del(e)`, does not return from
it, and is woken in state `s`; calls by all threads in between meet `RegOK`.  The call then does
what it should exactly if, in case it gets to its `EV_DELETE`, base, fd and filter of the event are
those of the time of the call. -/
theorem resumeCorrect_iff (c : Cfg) {s₀ s₁ s₂ s s' : State} {tr₁ tr₂ o₁ o : List Obs} {t : Tid}
    {e : EvId} (h0 : s₀.Init) (hr₁ : Run (step c) RegOK s₀ tr₁ s₁)
    (hdel : step c s₁ (.del t e) = some (s₂, o₁)) (hr₂ : Run (step c) RegOK s₂ tr₂ s)
    (hret : ∀ api rc, .result t api rc ∉ o₁ ++ tr₂)
    (hs : step c s (.delWake t) = some (s', o)) :
    ResumeCorrect s t e s' o ↔ (GoesOn s t e →
      (s.evs e).evBase = (s₁.evs e).evBase ∧ (s.evs e).slot = (s₁.evs e).slot) := by
  have hrun : Run (step c) RegOK s₀ (tr₁ ++ (o₁ ++ tr₂)) s := by
    have hcons := Run.cons (show RegOK s₁ (.del t e) from trivial) hdel hr₂
    exact hr₁.append hcons
  obtain ⟨hreg, hwf⟩ := regInv_of_run (fun _ _ h => h) hrun ⟨h0.regInv, h0.wf⟩
  rcases del_saves hdel (fun api rc hx => hret api rc (List.mem_append_left _ hx)) with
    hab | ⟨base, hbase, hcall₂⟩
  · have hab' := aborted_run hr₂ hab
    simp only [step, hab', if_true] at hs
    cases hs
  · have hcall := delWait_keep_run hr₂ hcall₂
      fun api rc hx => hret api rc (List.mem_append_right _ hx)
    obtain ⟨rfl, rfl⟩ := delWake_round hcall hs
    rw [resumeCorrect_iff_place hreg (hwf.delWait t e base _ hcall) hcall,
      initKeventDelete_slot, hbase]

/-- A concrete run cut at two of its steps, known by what a function computes from it. -/
lemma exists_staged (c : Cfg) (ls₁ : List Label) (l₁ : Label) (ls₂ : List Label) (l₂ : Label)
    {α : Type} (f : State → List Obs → State → List Obs → α) (x : α)
    (h : ((exec (step c) State.zero ls₁).bind fun r₁ => (step c r₁.1 l₁).bind fun r₂ =>
      (exec (step c) r₂.1 ls₂).bind fun r => (step c r.1 l₂).map fun r' =>
        f r₁.1 (r₂.2 ++ r.2) r.1 r'.2) = some x) :
    ∃ s₁ tr₁ s₂ o₁ s tr₂ s' o, exec (step c) State.zero ls₁ = some (s₁, tr₁) ∧
      step c s₁ l₁ = some (s₂, o₁) ∧ exec (step c) s₂ ls₂ = some (s, tr₂) ∧
      step c s l₂ = some (s', o) ∧ f s₁ (o₁ ++ tr₂) s o = x := by
  obtain ⟨⟨s₁, tr₁⟩, h₁, h⟩ := Option.bind_eq_some_iff.1 h
  obtain ⟨⟨s₂, o₁⟩, h₂, h⟩ := Option.bind_eq_some_iff.1 h
  obtain ⟨⟨s, tr₂⟩, h₃, h⟩ := Option.bind_eq_some_iff.1 h
  obtain ⟨⟨s', o⟩, h₄, h⟩ := Option.map_eq_some_iff.1 h
  exact ⟨s₁, tr₁, s₂, o₁, s, tr₂, s', o, h₁, h₂, h₃, h₄, h⟩

/-- Thread 0 registers event 0, fetches it and is in its handler. -/
def handlerRun (type : EvType) (x : Slot) (timeout : Option TimeVal) : List Label :=
  register 0 0 0 x.1 type timeout ++ [.fetch 0 0 [x], .activate 0, .advance 0, .invoke 0]

/-- The handler returns and the pass ends. -/
def endRun : List Label := [.ret 0, .advance 0, .finish 0 0, .advance 0, .unlock 0]

lemma handlerRun_guarded : Guarded (step ⟨false, false⟩) RegOK State.zero
    (handlerRun (evRead ||| evPersist) (3, .read) none) := by
  refine ⟨fun h => ?_, trivial, trivial, regOK_addLocked rfl rfl rfl rfl, trivial, trivial,
    trivial, trivial, trivial⟩
  cases h

lemma endRun_guarded {s : State} : Guarded (step ⟨false, false⟩) RegOK s endRun := by
  refine guarded_of_forall fun l hl s => ?_
  simp only [endRun, List.mem_cons, List.not_mem_nil, or_false] at hl
  rcases hl with rfl | rfl | rfl | rfl | rfl <;> trivial

/-- Thread 1 deletes a persistent event while its handler runs, and gets `CS_OK` when it has
returned. -/
theorem resumeCorrect_persistent : ∃ s₁ s₂ s s' o₁ tr₂ o,
    step ⟨false, false⟩ s₁ (.del 1 0) = some (s₂, o₁) ∧
      Run (step ⟨false, false⟩) RegOK s₂ tr₂ s ∧
      step ⟨false, false⟩ s (.delWake 1) = some (s', o) ∧ ResumeCorrect s 1 0 s' o ∧
      .result 1 (.del 0) .ok ∈ o := by
  obtain ⟨s₁, tr₁, s₂, o₁, s, tr₂, s', o, hex₁, hdel, hex₂, hs, hf⟩ :=
    exists_staged ⟨false, false⟩ (handlerRun (evRead ||| evPersist) (3, .read) none) (.del 1 0)
      endRun (.delWake 1)
      (fun s₁ tr s o => (decide ((s.evs 0).evBase = (s₁.evs 0).evBase ∧
        (s.evs 0).slot = (s₁.evs 0).slot), tr, o))
      (true, [.sync .lock 0 .live, .sync .wait 0 .live, .sync .lock 0 .live,
          .sync .signal 0 .live, .sync .unlock 0 .live],
        [.sync .wait 0 .live, .sync .unlock 0 .live, .result 1 (.del 0) .ok]) (by decide +kernel)
  simp only [Prod.mk.injEq, decide_eq_true_eq] at hf
  obtain ⟨hsame, htr, ho⟩ := hf
  have hr₁ := Run.of_exec hex₁ handlerRun_guarded
  have hr₂ := Run.of_exec hex₂ endRun_guarded
  exact ⟨s₁, s₂, s, s', o₁, tr₂, o, hdel, hr₂, hs,
    (resumeCorrect_iff ⟨false, false⟩ State.zero_init hr₁ hdel hr₂ (by simp [htr]) hs).2
      fun _ => hsame, by simp [ho]⟩

/-- **`event_del` misses a timer that was added again.**  Thread 1 deletes a timer while its
handler runs; the handler deletes the timer and adds it again, which gives it a new fd.  When
thread 1 gets the lock, the timer is pending and not active, and `event_del` returns `CS_ERR`. -/
theorem not_resumeCorrect_timer : ∃ s₁ s₂ s s' tr₁ o₁ tr₂ o,
    Run (step ⟨false, false⟩) anyStep State.zero tr₁ s₁ ∧
      step ⟨false, false⟩ s₁ (.del 1 0) = some (s₂, o₁) ∧
      Run (step ⟨false, false⟩) anyStep s₂ tr₂ s ∧
      (∀ api rc, .result 1 api rc ∉ o₁ ++ tr₂) ∧
      step ⟨false, false⟩ s (.delWake 1) = some (s', o) ∧ ¬ ResumeCorrect s 1 0 s' o := by
  obtain ⟨s₁, tr₁, s₂, o₁, s, tr₂, s', o, hex₁, hdel, hex₂, hs, hf⟩ :=
    exists_staged ⟨false, false⟩ (handlerRun evTimeout (-1, .timer) (some ⟨1, 0⟩)) (.del 1 0)
      ([.del 0 0, .add 0 0 (some ⟨1, 0⟩), .addLocked 0 true] ++ endRun) (.delWake 1)
      (fun _ tr s o => ((s.evs 0).pending, tr.filter (fun x => match x with
        | .result 1 _ _ => true
        | _ => false), o))
      (true, [], [.sync .wait 0 .live, .sync .unlock 0 .live, .result 1 (.del 0) .err])
      (by decide +kernel)
  simp only [Prod.mk.injEq, List.filter_eq_nil_iff] at hf
  obtain ⟨hpend, htr, ho⟩ := hf
  refine ⟨s₁, s₂, s, s', tr₁, o₁, tr₂, o, .of_exec_any hex₁, hdel, .of_exec_any hex₂,
    fun api rc hx => htr _ hx rfl, hs, fun h => ?_⟩
  have hnot := h.err (by simp [ho])
  rw [hpend] at hnot
  cases hnot

end Skq.Evcompat
