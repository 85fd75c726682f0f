import SkqBench.Evcompat.Ownership

/-!
# Who wakes a waiting `event_del`

A thread in `event_del` waits on the condition variable of an active event, and the finishing pass
of the activation signals it.  A signal wakes one thread.  If it is the last one to come and more
than one thread waits, the others wait on with nobody to wake them: the thread that was woken
deletes the event without a signal.  Otherwise a waiting thread always has a signal to come
(`wakeOK_of_run`).
-/

namespace Skq.Evcompat

open Lib

/-- A finishing pass is still to signal for an activation of the event. -/
def State.WillSignal (s : State) (e : EvId) : Prop :=
  ∃ u, ∃ a ∈ (s.threads u).phase.activated, a.ev = e

/-- A thread waits in `event_del`, and no wake-up was delivered to it. -/
def State.Waits (s : State) (t : Tid) (e : EvId) : Prop :=
  (∃ base kev, (s.threads t).call = some (.delWait e base kev)) ∧ t ∈ (s.evs e).stopCv

/-- Whoever waits, waits for an active event, or a finishing pass is still to signal for it. -/
def WakeOK (s : State) : Prop :=
  ∀ t e, s.Waits t e → (s.evs e).active = true ∨ s.WillSignal e

/-- The finishing pass that signals last finds at most one thread waiting. -/
def SignalsAll (s : State) : Label → Prop
  | .finish t _ => ∀ b a todo done enlist,
      (s.threads t).phase = .finishing b (a :: todo) done enlist →
      (s.evs a.ev).stopCv.length ≤ 1 ∨ (∃ a' ∈ todo, a'.ev = a.ev) ∨
        ∃ u, u ≠ t ∧ ∃ a' ∈ (s.threads u).phase.activated, a'.ev = a.ev
  | _ => True

/-! ## Entries -/

variable {c : Cfg} {s s' : State} {l : Label} {o : List Obs} {u : Tid} {e : EvId}

/-- An entry stays where it is until the finishing pass is at it. -/
lemma PhaseStep.activated_keep {ph : Phase} (h : PhaseStep c s u l ph) {a : Active}
    (ha : a ∈ (s.threads u).phase.activated) : a ∈ ph.activated ∨
      ∃ w b todo done enlist, l = .finish u w ∧
        (s.threads u).phase = .finishing b (a :: todo) done enlist := by
  cases h with
  | keep => exact .inl ha
  | fetch hth =>
    rw [hth] at ha
    cases ha
  | enable hph | unlock hph | toIdle hph =>
    rw [hph] at ha
    cases ha
  | activate hph =>
    rw [hph] at ha
    exact .inl (List.mem_append_left _ ha)
  | toCalling hph | invoke hph | toFinishing hph =>
    rw [hph] at ha
    simp only [Phase.activated, List.mem_append, List.mem_cons, List.not_mem_nil] at ha ⊢
    tauto
  | ret hth =>
    rw [hth] at ha
    simp only [Phase.activated, List.mem_append, List.mem_cons, List.not_mem_nil] at ha ⊢
    tauto
  | finish hph =>
    rw [hph] at ha
    rcases List.mem_cons.1 ha with rfl | ha
    · exact .inr ⟨_, _, _, _, _, rfl, hph⟩
    · exact .inl ha

lemma target_finish {t : Tid} {w : ℕ} {b : BaseId} {a : Active} {todo done : List Active}
    {enlist : List KEvent} (hph : (s.threads t).phase = .finishing b (a :: todo) done enlist) :
    s.target (.finish t w) = some a.ev := by
  simp [State.target, hph]

/-- An entry of an event the finishing pass is not at stays. -/
lemma Step.entry_keep (hs : Step c s l s' o) (hab : s'.aborted = none) {a : Active}
    (ha : a ∈ (s.threads u).phase.activated) (hl : s.target l ≠ some a.ev) :
    a ∈ (s'.threads u).phase.activated := by
  rcases (hs.phaseStep hab u).activated_keep ha with ha' | ⟨w, b, todo, done, enlist, rfl, hph⟩
  · exact ha'
  · exact absurd (target_finish hph) hl

lemma Step.willSignal_keep (hs : Step c s l s' o) (hab : s'.aborted = none)
    (hl : s.target l ≠ some e) (h : s.WillSignal e) : s'.WillSignal e := by
  obtain ⟨u, a, ha, rfl⟩ := h
  exact ⟨u, a, hs.entry_keep hab ha hl, rfl⟩

/-- The finishing pass leaves the rest of its entries, and those of the other threads. -/
lemma Step.willSignal_finish {t : Tid} {w : ℕ} {b : BaseId} {a : Active} {todo done : List Active}
    {enlist : List KEvent} (hs : Step c s (.finish t w) s' o) (hab : s'.aborted = none)
    (hph : (s.threads t).phase = .finishing b (a :: todo) done enlist)
    (h : (∃ a' ∈ todo, a'.ev = a.ev) ∨
      ∃ u, u ≠ t ∧ ∃ a' ∈ (s.threads u).phase.activated, a'.ev = a.ev) : s'.WillSignal a.ev := by
  rcases h with ⟨a', ha', he⟩ | ⟨u, hu, a', ha', he⟩
  · refine ⟨t, a', ?_, he⟩
    have hstep := hs.phaseStep hab t
    generalize (s'.threads t).phase = ph at hstep
    cases hstep with
    | keep hl => exact absurd rfl hl
    | finish hph' =>
      rw [hph] at hph'
      cases hph'
      exact ha'
  · refine ⟨u, a', ?_, he⟩
    rcases (hs.phaseStep hab u).activated_keep ha' with
      hkeep | ⟨w', b', todo', done', enlist', hl, -⟩
    · exact hkeep
    · cases hl
      exact absurd rfl hu

/-! ## The invariant -/

/-- `active`: an active event has an entry of its epoch in some batch.  `waiting`: where somebody
waits, a signal is to come. -/
structure Awaited (s : State) (e : EvId) : Prop where
  active : (s.evs e).active = true →
    ∃ u, ∃ a ∈ (s.threads u).phase.activated, a.ev = e ∧ a.epoch = (s.evs e).epoch
  waiting : (s.evs e).stopCv ≠ [] → s.WillSignal e

lemma Awaited.willSignal (h : Awaited s e) (hact : (s.evs e).active = true) : s.WillSignal e := by
  obtain ⟨u, a, ha, he, -⟩ := h.active hact
  exact ⟨u, a, ha, he⟩

@[simp] lemma deactivate_stopCv (ev : Event) : ev.deactivate.stopCv = ev.stopCv := by
  unfold Event.deactivate
  split <;> rfl

/-- A store by which nobody begins to wait. -/
lemma mem_stopCv_of_setEv {p : Proc} {e' : EvId} {ev : Event} {t : Tid}
    (ht : t ∈ ((p.setEv e' ev).evs e).stopCv) (hp : p.evs = s.evs)
    (h : ∀ t ∈ ev.stopCv, t ∈ (s.evs e').stopCv) : t ∈ (s.evs e).stopCv := by
  rw [Proc.setEv_evs, hp] at ht
  split at ht
  · next he =>
    rw [he]
    exact h t ht
  · exact ht

/-- A wait begins at an active event. -/
lemma Step.wait_active (hs : Step c s l s' o) {t : Tid} (ht : t ∈ (s'.evs e).stopCv) :
    t ∈ (s.evs e).stopCv ∨ (s.evs e).active = true := by
  cases hs with
  | fetch | invoke | ret | toCalling | toFinishing | enable | toIdle | baseSetErr | addBusy
  | addInval | addErr | delErr | close | abort => exact .inl ht
  | activate | unlock | baseSetOk | cleanup =>
    exact .inl (mem_stopCv_of_setEv ht rfl fun _ h => h)
  | finishSkip | finishKeep | finishFail =>
    exact .inl (mem_stopCv_of_setEv ht rfl fun _ h => List.mem_of_mem_eraseIdx h)
  | finishDel => exact .inl (mem_stopCv_of_setEv ht rfl fun _ h => List.mem_of_mem_eraseIdx h)
  | @set t' e' =>
    refine .inl (mem_stopCv_of_setEv ht rfl fun u h => ?_)
    by_cases hcv : (s.evs e').cvInit = cvInitMagic
    · rwa [firstSet_of_magic hcv] at h
    · simp [Event.firstSet, Event.assign, hcv] at h
  | @addLock t' e' timeout f base =>
    obtain ⟨fd, hev, -⟩ := patchTimerFd_evs s.toProc e' e
    simp only [State.setCall_toProc, State.setProc_toProc, hev] at ht
    exact .inl ht
  | addOk => exact .inl (mem_stopCv_of_setEv ht rfl fun _ h => by simpa using h)
  | delOk => exact .inl (mem_stopCv_of_setEv ht rfl fun _ h => by simpa using h)
  | spurious => exact .inl (mem_stopCv_of_setEv ht rfl fun _ h => List.mem_of_mem_erase h)
  | delWait hdel hpend hact hown =>
    simp only [State.setCall_toProc, State.setProc_toProc, Proc.setEv_evs] at ht
    split at ht
    · next he =>
      rw [he]
      exact .inr hact
    · exact .inl ht

/-- Memory that is passed to `event_set` for the first time: nobody waits. -/
lemma firstSet_of_ne {ev : Event} (h : ev.cvInit ≠ cvInitMagic) :
    ev.firstSet.active = false ∧ ev.firstSet.stopCv = [] := by
  simp [Event.firstSet, h]

/-- A step that leaves the entries of the event alone. -/
lemma Awaited.quiet (h : Awaited s e) (hs : Step c s l s' o) (hab : s'.aborted = none)
    (hl : s.target l ≠ some e) (hact : (s'.evs e).active = true →
      (s.evs e).active = true ∧ (s'.evs e).epoch = (s.evs e).epoch) : Awaited s' e where
  active := by
    intro hact'
    obtain ⟨hold, hep⟩ := hact hact'
    obtain ⟨u, a, ha, rfl, hepa⟩ := h.active hold
    exact ⟨u, a, hs.entry_keep hab ha hl, rfl, hepa.trans hep.symm⟩
  waiting := by
    intro hne
    obtain ⟨t, ht⟩ := List.exists_mem_of_ne_nil _ hne
    refine hs.willSignal_keep hab hl ?_
    rcases hs.wait_active ht with hmem | hactive
    · exact h.waiting (List.ne_nil_of_mem hmem)
    · exact h.willSignal hactive

/-- An event is activated. -/
lemma Awaited.activate {t : Tid} {b : BaseId} {k : KEvent} {todo : List KEvent} {done : List Active}
    (hs : Step c s (.activate t) s' o) (hab : s'.aborted = none)
    (hph : (s.threads t).phase = .activating b (k :: todo) done)
    (hep : (s'.evs k.udata).epoch = (s.evs k.udata).epoch) : Awaited s' k.udata := by
  have hmem : ⟨k, (s.evs k.udata).epoch⟩ ∈ (s'.threads t).phase.activated := by
    have hstep := hs.phaseStep hab t
    generalize (s'.threads t).phase = ph at hstep
    cases hstep with
    | keep hl => exact absurd rfl hl
    | activate hph' =>
      rw [hph] at hph'
      cases hph'
      simp [Phase.activated]
  exact ⟨fun _ => ⟨t, _, hmem, rfl, hep.symm⟩, fun _ => ⟨t, _, hmem, rfl⟩⟩

/-- The finishing pass is at the event, and leaves it inactive or skips it. -/
lemma Awaited.finish {t : Tid} {w : ℕ} {b : BaseId} {a : Active} {todo done : List Active}
    {enlist : List KEvent} (h : Awaited s a.ev) (hs : Step c s (.finish t w) s' o)
    (hab : s'.aborted = none) (hok : SignalsAll s (.finish t w))
    (hph : (s.threads t).phase = .finishing b (a :: todo) done enlist)
    (hcv : (s'.evs a.ev).stopCv = (s.evs a.ev).stopCv.eraseIdx (w % (s.evs a.ev).stopCv.length))
    (hact : (s'.evs a.ev).active = true → (s.evs a.ev).active = true ∧
      (s'.evs a.ev).epoch = (s.evs a.ev).epoch ∧
        a.fresh (s.evs a.ev) = false) : Awaited s' a.ev where
  active := by
    intro hact'
    obtain ⟨hold, hep, hfresh⟩ := hact hact'
    -- the entry of its epoch is another one
    obtain ⟨u, a', ha', he', hep'⟩ := h.active hold
    refine ⟨u, a', ?_, he', hep'.trans hep.symm⟩
    rcases (hs.phaseStep hab u).activated_keep ha' with
      hkeep | ⟨w', b', todo', done', enlist', hl, hph'⟩
    · exact hkeep
    · cases hl
      rw [hph] at hph'
      cases hph'
      simp [Active.fresh, hep'] at hfresh
  waiting := by
    intro hne
    rw [hcv] at hne
    rcases hok b a todo done enlist hph with hle | hother
    · refine absurd (List.eq_nil_of_length_eq_zero ?_) hne
      have hlen : 0 < (s.evs a.ev).stopCv.length := by
        refine List.length_pos_iff.2 fun hnil => ?_
        simp [hnil] at hne
      rw [List.length_eraseIdx_of_lt (Nat.mod_lt _ hlen)]
      omega
    · exact hs.willSignal_finish hab hph hother

/-- One step, in which no assertion fails. -/
lemma Awaited.step (h : s.isSet e → Awaited s e) (hset' : s'.isSet e) (hs : Step c s l s' o)
    (hab : s'.aborted = none) (hok : SignalsAll s l) : Awaited s' e := by
  have hview := hs.evStep hab e
  generalize hev : s'.evs e = ev at hview
  rw [State.isSet, hev] at hset'
  cases hview with
  | keep hl => exact (h hset').quiet hs hab hl (by simp [hev])
  | activate hph he =>
    subst he
    exact .activate hs hab hph (by rw [hev])
  | finishSkip hph he hlk hfresh =>
    subst he
    exact (h hset').finish hs hab hok hph (by rw [hev]; rfl) (by simp [hev, Event.signal, hfresh])
  | finishKeep hph he hlk hfresh hwhy =>
    subst he
    exact (h hset').finish hs hab hok hph (by rw [hev]; rfl)
      (by simp [hev, Event.signal, Event.inactive])
  | finishDel hph he =>
    subst he
    exact (h hset').finish hs hab hok hph (by rw [hev]; rfl)
      (by simp [hev, Event.signal, Event.inactive])
  | unlock | baseSet | patch | spurious | cleanup =>
    exact (h hset').quiet hs hab (by simp [State.target]) (by simp [hev])
  | set hmay hlk =>
    by_cases hcv : (s.evs e).cvInit = cvInitMagic
    · rw [firstSet_of_magic hcv] at hev
      exact (h hcv).quiet hs hab (by simp [State.target]) (by simp [hev, Event.assign])
    · obtain ⟨hact, hnil⟩ := firstSet_of_ne hcv
      refine ⟨fun hact' => ?_, fun hne => ?_⟩
      · rw [hev] at hact'
        exact absurd (hact.symm.trans hact') (by simp)
      · rw [hev] at hne
        exact absurd hnil hne
  | add =>
    exact (h (by simpa [State.isSet] using hset')).quiet hs hab (by simp [State.target])
      (by simp [hev])
  | delWait hdel =>
    exact (h hset').quiet hs hab (by simp [target_of_del hdel]) (by simp [hev, Event.wait])
  | delete hdel =>
    exact (h (by simpa [State.isSet] using hset')).quiet hs hab (by simp [target_of_del hdel])
      (by simp [hev])

/-! ## Runs -/

/-- **A thread that waits has a signal to come.**  In every run in which each last signal for an
event finds at most one thread waiting: whoever waits, waits for an active event, or a finishing
pass is still to signal for it. -/
theorem wakeOK_of_run (c : Cfg) {s₀ s : State} {tr : List Obs} (h0 : s₀.Init)
    (hr : Run (step c) SignalsAll s₀ tr s) : WakeOK s := by
  obtain ⟨hwf, h⟩ : Wf s ∧ ∀ e, s.isSet e → Awaited s e := by
    refine hr.inv (fun s => Wf s ∧ ∀ e, s.isSet e → Awaited s e)
      ⟨h0.wf, fun e he => absurd he (h0.unset e)⟩ ?_
    rintro s l s' o ⟨hwf, h⟩ hok hs
    refine ⟨hwf.step (step_cases hs), fun e he => ?_⟩
    rcases (step_cases hs).abort_or with ⟨a, rfl⟩ | hab
    · exact ⟨(h e he).active, (h e he).waiting⟩
    · exact .step (h e) he (step_cases hs) (hab.trans (not_aborted_of_step hs)) hok
  rintro t e ⟨⟨base, kev, hcall⟩, hmem⟩
  exact .inr ((h e (hwf.delWait t e base kev hcall)).waiting (List.ne_nil_of_mem hmem))

/-- One thread calls `event_del` while the handler of a persistent event runs. -/
def awaitedRun : List Label :=
  register 0 0 0 3 (evRead ||| evPersist) none ++
    [.fetch 0 0 [(3, .read)], .activate 0, .advance 0, .invoke 0, .del 1 0]

lemma awaitedRun_guarded : Guarded (step ⟨false, false⟩) SignalsAll State.zero awaitedRun :=
  guarded_of_forall fun l hl s => by
    simp only [awaitedRun, register, List.cons_append, List.nil_append, List.mem_cons,
      List.not_mem_nil, or_false] at hl
    rcases hl with rfl | rfl | rfl | rfl | rfl | rfl | rfl | rfl | rfl <;> trivial

/-- The thread waits for the end of the pass. -/
theorem wakeOK_awaitedRun : ∃ s tr, Run (step ⟨false, false⟩) SignalsAll State.zero tr s ∧
    s.Waits 1 0 ∧ WakeOK s := by
  obtain ⟨s, tr, hr, hs⟩ := Run.exists_of_exec (step ⟨false, false⟩) State.zero awaitedRun
    (fun r => ((r.1.threads 1).call, (r.1.evs 0).stopCv))
    (some (.delWait 0 0 (some ⟨3, .read, false, false, 0, 0⟩)), [1])
      (by decide +kernel) awaitedRun_guarded
  simp only [Prod.mk.injEq] at hs
  obtain ⟨hcall, hcv⟩ := hs
  exact ⟨s, tr, hr, ⟨⟨_, _, hcall⟩, by simp [hcv]⟩, wakeOK_of_run ⟨false, false⟩ State.zero_init hr⟩

/-- Two threads do; the finishing pass wakes the first one, which deletes the event. -/
def strandedRun : List Label :=
  awaitedRun ++ [.del 2 0, .ret 0, .advance 0, .finish 0 0, .advance 0, .unlock 0, .advance 0,
    .delWake 1]

/-- **The second thread waits for ever**: the event is deleted, and no thread is in the loop. -/
theorem not_wakeOK_strandedRun : ∃ s tr, Run (step ⟨false, false⟩) anyStep State.zero tr s ∧
    s.Waits 2 0 ∧ (s.evs 0).pending = false ∧ (∀ u, (s.threads u).phase = .idle) ∧ ¬ WakeOK s := by
  obtain ⟨s, tr, hr, hwait, hpend, hact, hidle⟩ : ∃ s tr,
      Run (step ⟨false, false⟩) anyStep State.zero tr s ∧ s.Waits 2 0 ∧ (s.evs 0).pending = false ∧
        (s.evs 0).active = false ∧ ∀ u, (s.threads u).phase = .idle :=
    ⟨_, _, .of_exec_any (show exec _ _ strandedRun = some (_, _) from rfl),
      ⟨⟨_, _, rfl⟩, by decide⟩, rfl, rfl,
      fun u => match u with | 0 => rfl | 1 => rfl | 2 => rfl | _ + 3 => rfl⟩
  refine ⟨s, tr, hr, hwait, hpend, hidle, fun h => ?_⟩
  rcases h 2 0 hwait with hact' | ⟨u, a, ha, -⟩
  · simp [hact] at hact'
  · simp [hidle u, Phase.activated] at ha

end Skq.Evcompat
