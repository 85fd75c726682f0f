import SkqBench.Evcompat.Ownership

/-!
# A deleted event has no handler running

`event_del` waits while another thread has the event active, so that after it has returned `CS_OK`
no other thread should be inside the event's handler.  The flag is not the handler: an event that
is deleted and added again is pending and not active at once, while the handler that changed it,
or one that is still to be called for the same activation, goes on.  As long as no `event_add`
completes for such an event (`ReaddOK`), a pending event whose handler is running is active and
owned by the thread that runs it, and the blocking delete is right.
-/

namespace Skq.Evcompat

open Lib

/-- Activated, and the handler has not returned. -/
def Phase.uncalled : Phase → List Active
  | .activating _ _ done => done
  | .calling _ _ todo _ => todo
  | _ => []

/-- Thread `u` is inside an invocation of the handler of `e`. -/
def State.Inside (s : State) (u : Tid) (e : EvId) : Prop :=
  ∃ a, (s.threads u).phase.running = some a ∧ a.ev = e

/-- The assumptions on a step: an `event_add` completes only if no thread has the event activated
with the handler still to return; no 32-bit epoch goes around while an entry is in a batch; and a
release build never activates an active event, which a debug build asserts. -/
def ReaddOK (c : Cfg) (s : State) (l : Label) : Prop :=
  FinishExact s l ∧
    match l with
    | .addLocked t true => ∀ e kev, (s.threads t).call = some (.addLock e kev) →
        ∀ u, ∀ a ∈ (s.threads u).phase.uncalled, a.ev ≠ e
    | .activate t => c.ndebug = true → ∀ b k todo done,
        (s.threads t).phase = .activating b (k :: todo) done → (s.evs k.udata).active = false
    | _ => True

/-- What an activation says about its event.
* `fresh`: as long as the epoch is the same, the event is active and owned by the thread.
* `distinct`: a batch has no event twice with the same epoch.
* `pending`: if the event is pending and its handler has not returned, the epoch is the same. -/
structure Activated (s : State) : Prop where
  epochs : EpochsLe s
  fresh : ∀ u, ∀ a ∈ (s.threads u).phase.activated, a.epoch = (s.evs a.ev).epoch →
    (s.evs a.ev).active = true ∧ (s.evs a.ev).owner = some u
  distinct : ∀ u, (s.threads u).phase.activated.Pairwise fun a a' =>
    a.ev = a'.ev → a.epoch ≠ a'.epoch
  pending : ∀ u, ∀ a ∈ (s.threads u).phase.uncalled, (s.evs a.ev).pending = true →
    a.epoch = (s.evs a.ev).epoch

lemma State.Init.activated {s : State} (h : s.Init) : Activated s := by
  refine ⟨fun u a ha => ?_, fun u a ha => ?_, fun u => ?_, fun u a ha => ?_⟩
  · simp [h.threads u, Phase.activated] at ha
  · simp [h.threads u, Phase.activated] at ha
  · simp [h.threads u, Phase.activated]
  · simp [h.threads u, Phase.uncalled] at ha

lemma Phase.uncalled_activated {ph : Phase} {a : Active} (ha : a ∈ ph.uncalled) :
    a ∈ ph.activated := by
  cases ph with
  | activating b todo done => exact ha
  | calling b run todo done => exact List.mem_append_right _ ha
  | _ => cases ha

lemma Phase.running_uncalled {ph : Phase} {a : Active} (h : ph.running = some a) :
    a ∈ ph.uncalled := by
  cases ph with
  | calling b run todo done =>
    cases run with
    | false => cases h
    | true =>
      cases todo with
      | nil => cases h
      | cons a' todo =>
        obtain rfl := Option.some.inj h
        exact List.mem_cons_self
  | _ => cases h

section Step

variable {c : Cfg} {s s' : State} {l : Label} {o : List Obs}

/-- The entries of a pass: one is added by an activation, or some are dropped at the front. -/
lemma PhaseStep.activated_cases {u : Tid} {ph : Phase} (h : PhaseStep c s u l ph) :
    ph.activated.Sublist (s.threads u).phase.activated ∨
      ∃ b k todo done, l = .activate u ∧ (s.threads u).phase = .activating b (k :: todo) done ∧
        ph.activated = (s.threads u).phase.activated ++ [⟨k, (s.evs k.udata).epoch⟩] := by
  cases h with
  | keep => exact .inl (List.Sublist.refl _)
  | fetch | enable | unlock | toIdle => exact .inl (List.nil_sublist _)
  | activate hph =>
    refine .inr ⟨_, _, _, _, rfl, hph, ?_⟩
    rw [hph]
    rfl
  | toCalling hph | invoke hph | toFinishing hph =>
    rw [hph]
    refine .inl ?_
    simp [Phase.activated]
  | ret hth =>
    rw [hth]
    refine .inl ?_
    simp [Phase.activated]
  | finish hph =>
    rw [hph]
    exact .inl (List.sublist_cons_self _ _)

lemma PhaseStep.uncalled_source {u : Tid} {ph : Phase} (h : PhaseStep c s u l ph) {a : Active}
    (ha : a ∈ ph.uncalled) : a ∈ (s.threads u).phase.uncalled ∨
      ∃ b k todo done, l = .activate u ∧ (s.threads u).phase = .activating b (k :: todo) done ∧
        a = ⟨k, (s.evs k.udata).epoch⟩ := by
  cases h with
  | keep => exact .inl ha
  | fetch | toFinishing | finish | enable | unlock | toIdle => cases ha
  | activate hph =>
    rcases List.mem_append.1 ha with ha | ha
    · rw [hph]
      exact .inl ha
    · exact .inr ⟨_, _, _, _, rfl, hph, List.mem_singleton.1 ha⟩
  | toCalling hph | invoke hph =>
    rw [hph]
    exact .inl ha
  | ret hth =>
    rw [hth]
    exact .inl (List.mem_cons_of_mem _ ha)

/-- No event is activated that is active. -/
lemma ReaddOK.inactive (hok : ReaddOK c s l) (hs : Step c s l s' o) (hab : s'.aborted = none)
    {t : Tid} {b : BaseId} {k : KEvent} {todo : List KEvent} {done : List Active}
    (hl : l = .activate t) (hph : (s.threads t).phase = .activating b (k :: todo) done) :
    (s.evs k.udata).active = false := by
  subst hl
  cases hs with
  | activate hph' hlk hassert =>
    rw [hph] at hph'
    cases hph'
    rcases hassert with hnone | hnd
    · by_contra hact
      rw [Bool.not_eq_false] at hact
      simp only [activateAssert, hact, if_true] at hnone
      split at hnone
      · cases hnone
      · split at hnone <;> cases hnone
    · exact hok.2 hnd b k todo done hph
  | delErr hdel | delWait hdel | delOk hdel => cases hdel
  | abort => cases hab

/-- The finishing pass ends an activation of its own thread only, and only one. -/
lemma Activated.finish_head (h : Activated s) (hok : ReaddOK c s l) {t u : Tid} {w : ℕ}
    {b : BaseId} {a a' : Active} {todo done : List Active} {enlist : List KEvent}
    (hl : l = .finish t w) (hph : (s.threads t).phase = .finishing b (a :: todo) done enlist)
    (hfresh : a.fresh (s.evs a.ev) = true) (ha' : a' ∈ (s.threads u).phase.activated)
    (hev : a'.ev = a.ev) (hep : a'.epoch = (s.evs a'.ev).epoch) : u = t ∧ a' ∉ todo := by
  have hmem : a ∈ (s.threads t).phase.activated := by
    rw [hph]
    exact List.mem_cons_self
  have hepa : a.epoch = (s.evs a.ev).epoch :=
    (fresh_iff (h.epochs t a hmem) (hok.1 t w b a todo done enlist hl hph)).1 hfresh
  obtain ⟨-, hown⟩ := h.fresh t a hmem hepa
  obtain ⟨-, hown'⟩ := h.fresh u a' ha' hep
  rw [hev, hown] at hown'
  refine ⟨(Option.some.inj hown').symm, fun htodo => ?_⟩
  have hpair := h.distinct t
  rw [hph] at hpair
  exact (List.pairwise_cons.1 hpair).1 a' htodo hev.symm (by rw [hepa, hep, hev])

lemma Activated.fresh_step (h : Activated s) (hwf : Wf s) (hok : ReaddOK c s l)
    (hs : Step c s l s' o) (hab : s'.aborted = none) {u : Tid} {a : Active}
    (ha : a ∈ (s'.threads u).phase.activated) (hep : a.epoch = (s'.evs a.ev).epoch) :
    (s'.evs a.ev).active = true ∧ (s'.evs a.ev).owner = some u := by
  rcases (hs.phaseStep hab u).activated_source ha with
    hold | ⟨b, k, todo, done, hl, hph, rfl⟩
  · have hset := activated_isSet hwf hold
    have hle := h.epochs u a hold
    have hle' := (hs.evStep hab a.ev).epoch_le hset
    have hep₀ : a.epoch = (s.evs a.ev).epoch := by omega
    obtain ⟨hact, hown⟩ := h.fresh u a hold hep₀
    rcases (hs.evStep hab a.ev).flags_cases hset with
      ⟨hact', hown', -⟩ | ⟨-, -, hlt⟩ | ⟨t, b, k, todo, done, hl, hph, he, -, -, -⟩ |
      ⟨t, w, b, a₀, todo, done, enlist, hl, hph, he, hfresh, -, -⟩
    · rw [hact', hown']
      exact ⟨hact, hown⟩
    · omega
    · -- an active event is not activated again
      have hoff := hok.inactive hs hab hl hph
      rw [he, hact] at hoff
      cases hoff
    · rw [← he] at hfresh
      obtain ⟨rfl, hnot⟩ := h.finish_head hok hl hph hfresh hold he.symm hep₀
      rw [hs.finish_phase hab hl hph] at ha
      exact absurd ha hnot
  · have hev := hs.evStep hab k.udata
    subst hl
    generalize s'.evs k.udata = ev at hev hep ⊢
    cases hev with
    | keep hl => exact absurd (by simp [State.target, hph]) hl
    | activate => exact ⟨rfl, rfl⟩
    | delWait hdel | delete hdel => cases hdel

lemma Activated.distinct_step (h : Activated s) (hok : ReaddOK c s l) (hs : Step c s l s' o)
    (hab : s'.aborted = none) (u : Tid) : (s'.threads u).phase.activated.Pairwise fun a a' =>
      a.ev = a'.ev → a.epoch ≠ a'.epoch := by
  rcases (hs.phaseStep hab u).activated_cases with hsub | ⟨b, k, todo, done, hl, hph, hlist⟩
  · exact (h.distinct u).sublist hsub
  · rw [hlist, List.pairwise_append]
    refine ⟨h.distinct u, List.pairwise_singleton _ _, fun a ha a' ha' hev hep => ?_⟩
    obtain rfl := List.mem_singleton.1 ha'
    have hoff := hok.inactive hs hab hl hph
    have hev' : a.ev = k.udata := hev
    obtain ⟨hact, -⟩ := h.fresh u a ha (by rw [hev']; exact hep)
    rw [hev', hoff] at hact
    cases hact

lemma Activated.pending_step (h : Activated s) (hwf : Wf s) (hok : ReaddOK c s l)
    (hs : Step c s l s' o) (hab : s'.aborted = none) {u : Tid} {a : Active}
    (ha : a ∈ (s'.threads u).phase.uncalled) (hpend : (s'.evs a.ev).pending = true) :
    a.epoch = (s'.evs a.ev).epoch := by
  rcases (hs.phaseStep hab u).uncalled_source ha with hold | ⟨b, k, todo, done, hl, hph, rfl⟩
  · have hmem := Phase.uncalled_activated hold
    have hset := activated_isSet hwf hmem
    have hkeep := h.pending u a hold
    have hev := hs.evStep hab a.ev
    generalize s'.evs a.ev = ev at hev hpend ⊢
    cases hev with
    | add hcall => exact absurd rfl (hok.2 _ _ hcall u a hold)
    | delete => simp at hpend
    | finishDel => cases hpend
    | set =>
      have hcv : (s.evs a.ev).cvInit = cvInitMagic := hset
      simp only [Event.firstSet, hcv, ne_eq, not_true_eq_false, if_false, Event.assign] at hpend ⊢
      exact hkeep hpend
    | _ => exact hkeep hpend
  · have hev := hs.evStep hab k.udata
    subst hl
    generalize s'.evs k.udata = ev at hev ⊢
    cases hev with
    | keep hl => exact absurd (by simp [State.target, hph]) hl
    | activate => rfl
    | delWait hdel | delete hdel => cases hdel

/-- **Every step that meets the guard keeps the invariant.** -/
theorem Activated.step (h : Activated s) (hwf : Wf s) (hok : ReaddOK c s l)
    (hs : Step c s l s' o) (hab : s'.aborted = none) : Activated s' where
  epochs := h.epochs.step hwf hs hab
  fresh _ _ ha hep := h.fresh_step hwf hok hs hab ha hep
  distinct u := h.distinct_step hok hs hab u
  pending _ _ ha hpend := h.pending_step hwf hok hs hab ha hpend

/-- A pending event whose handler is running is active and owned. -/
lemma Activated.owner (h : Activated s) {u : Tid} {e : EvId} (hin : s.Inside u e)
    (hpend : (s.evs e).pending = true) :
    (s.evs e).active = true ∧ (s.evs e).owner = some u := by
  obtain ⟨a, hrun, rfl⟩ := hin
  have hmem := Phase.running_uncalled hrun
  exact h.fresh u a (Phase.uncalled_activated hmem) (h.pending u a hmem hpend)

end Step

/-- The invariant in a run. -/
lemma activated_of_run {c : Cfg} {s₀ s : State} {tr : List Obs} (h0 : s₀.Init)
    (hr : Run (step c) (ReaddOK c) s₀ tr s) (hrun : s.aborted = none) : Activated s := by
  have hinv : Wf s ∧ (s.aborted = none → Activated s) := by
    refine hr.inv (fun s => Wf s ∧ (s.aborted = none → Activated s))
      ⟨h0.wf, fun _ => h0.activated⟩ ?_
    rintro s l s' o ⟨hwf, ih⟩ hok hs
    have hstep := step_cases hs
    exact ⟨hwf.step hstep, fun hab => (ih (not_aborted_of_step hs)).step hwf hok hstep hab⟩
  exact hinv.2 hrun

/-- **A blocking delete waits for the handler.**  In every run in which no `event_add` completes
for an event whose handler has not returned, an `event_del` that returns `CS_OK` to a thread that
is not inside the handler leaves no thread inside it. -/
theorem not_inside_after_del (c : Cfg) {s₀ s s' : State} {tr o : List Obs} {l : Label} {t : Tid}
    {e : EvId} (h0 : s₀.Init) (hr : Run (step c) (ReaddOK c) s₀ tr s)
    (hs : step c s l = some (s', o)) (hdel : .result t (.del e) .ok ∈ o)
    (hself : ¬ s.Inside t e) (u : Tid) : ¬ s'.Inside u e := by
  have hact := activated_of_run h0 hr (not_aborted_of_step hs)
  cases step_cases hs with
  | @delOk _ t' e' base k kn op hcall hpend hown =>
    have hsame : t' = t ∧ e' = e := by simpa [State.use, eq_comm] using hdel
    obtain ⟨rfl, rfl⟩ := hsame
    rintro ⟨a, hrun, he⟩
    rw [setCall_phase, State.setProc_threads] at hrun
    obtain ⟨hon, howner⟩ := hact.owner ⟨a, hrun, he⟩ hpend
    obtain rfl := Option.some.inj ((hown hon).symm.trans howner)
    exact hself ⟨a, hrun, he⟩
  | abort hl ho => rcases ho with rfl | ⟨e', st, rfl, -⟩ <;> simp at hdel
  | _ => simp [State.use] at hdel

lemma readdOK_of_quiet {c : Cfg} {s : State} {l : Label} (hfin : FinishExact s l)
    (hadd : ∀ t, l ≠ .addLocked t true) (hact : ∀ t, l = .activate t → c.ndebug = false) :
    ReaddOK c s l := by
  refine ⟨hfin, ?_⟩
  cases l with
  | addLocked t ok =>
    cases ok with
    | true => exact absurd rfl (hadd t)
    | false => trivial
  | activate t =>
    intro hnd
    rw [hact t rfl] at hnd
    cases hnd
  | _ => trivial

lemma finishExact_of_ne {s : State} {l : Label} (hl : ∀ u w, l ≠ .finish u w) : FinishExact s l :=
  fun u w _ _ _ _ _ heq => absurd heq (hl u w)

/-- The handler of a persistent event runs in thread 0; thread 1 deletes the event and waits; the
handler returns, the finishing pass ends the activation, and thread 1 is woken. -/
def blockingRun : List Label :=
  register 1 0 0 3 (evRead ||| evPersist) none ++
    [.fetch 0 0 [(3, .read)], .activate 0, .advance 0, .invoke 0, .del 1 0, .ret 0, .advance 0,
      .finish 0 0, .advance 0, .unlock 0]

lemma blockingRun_guarded : Guarded (step ⟨false, false⟩) (ReaddOK ⟨false, false⟩) State.zero
    blockingRun := by
  have hquiet : ∀ {s : State} {l : Label}, (∀ u w, l ≠ .finish u w) →
      (∀ t, l ≠ .addLocked t true) → ReaddOK ⟨false, false⟩ s l := fun hfin hadd =>
    readdOK_of_quiet (finishExact_of_ne hfin) hadd fun _ _ => rfl
  refine ⟨hquiet (by simp) (by simp), hquiet (by simp) (by simp), hquiet (by simp) (by simp),
    ⟨finishExact_of_ne (by simp), fun e kev hcall u a ha => ?_⟩,
    hquiet (by simp) (by simp), hquiet (by simp) (by simp), hquiet (by simp) (by simp),
    hquiet (by simp) (by simp), hquiet (by simp) (by simp), hquiet (by simp) (by simp),
    hquiet (by simp) (by simp), readdOK_of_quiet ?_ (by simp) (by simp),
    hquiet (by simp) (by simp), hquiet (by simp) (by simp), trivial⟩
  · rcases u with _ | _ | u <;> cases ha
  · intro u w b a todo done enlist hl hph
    obtain ⟨rfl, rfl⟩ := Label.finish.inj hl
    cases hph
    decide

/-- In the run above the delete returns when the handler has returned. -/
theorem not_inside_after_del_blockingRun : ∃ s s' tr o,
    Run (step ⟨false, false⟩) (ReaddOK ⟨false, false⟩) State.zero tr s ∧
    step ⟨false, false⟩ s (.delWake 1) = some (s', o) ∧ .result 1 (.del 0) .ok ∈ o ∧
    ∀ u, ¬ s'.Inside u 0 := by
  obtain ⟨s, tr, hr, hs⟩ := Run.exists_of_exec (step ⟨false, false⟩) State.zero blockingRun
    (fun r => ((step ⟨false, false⟩ r.1 (.delWake 1)).map fun x =>
      x.2.contains (.result 1 (.del 0) .ok), (r.1.threads 1).phase)) (some true, .idle)
    (by decide +kernel) blockingRun_guarded
  obtain ⟨hstep, hph⟩ := Prod.mk.inj hs
  obtain ⟨⟨s', o⟩, hs', ho⟩ := Option.map_eq_some_iff.1 hstep
  have hdel : .result 1 (.del 0) .ok ∈ o := List.contains_iff_mem.1 ho
  refine ⟨s, s', tr, o, hr, hs', hdel, ?_⟩
  refine not_inside_after_del ⟨false, false⟩ State.zero_init hr hs' hdel ?_
  rintro ⟨a, hrun, -⟩
  rw [hph] at hrun
  cases hrun

/-- A handler in thread 0 deletes and adds its own event, and goes on. -/
def readdInside : List Label :=
  register 1 0 0 3 (evRead ||| evPersist) none ++
    [.fetch 0 0 [(3, .read)], .activate 0, .advance 0, .invoke 0, .del 0 0, .add 0 0 none,
      .addLocked 0 true]

/-- **The blocking delete does not wait.**  After the run above thread 1 deletes the event;
`event_del` returns `CS_OK` at once, and thread 0 is still inside the handler. -/
theorem inside_after_del : ∃ s s' tr o, Run (step ⟨false, false⟩) anyStep State.zero tr s ∧
    step ⟨false, false⟩ s (.del 1 0) = some (s', o) ∧ .result 1 (.del 0) .ok ∈ o ∧
    ¬ s.Inside 1 0 ∧ s'.Inside 0 0 := by
  obtain ⟨s, tr, hr, hs⟩ := Run.exists_of_exec (step ⟨false, false⟩) State.zero readdInside
    (fun r => ((step ⟨false, false⟩ r.1 (.del 1 0)).map fun x =>
      (x.2.contains (.result 1 (.del 0) .ok), (x.1.threads 0).phase.running.map Active.ev),
        (r.1.threads 1).phase)) (some (true, some 0), .idle)
    (by decide +kernel) guarded_anyStep
  obtain ⟨hstep, hph⟩ := Prod.mk.inj hs
  obtain ⟨⟨s', o⟩, hs', heq⟩ := Option.map_eq_some_iff.1 hstep
  obtain ⟨ho, hrun⟩ := Prod.mk.inj heq
  refine ⟨s, s', tr, o, hr, hs', List.contains_iff_mem.1 ho, ?_, Option.map_eq_some_iff.1 hrun⟩
  rintro ⟨a, ha, -⟩
  rw [hph] at ha
  cases ha

end Skq.Evcompat
