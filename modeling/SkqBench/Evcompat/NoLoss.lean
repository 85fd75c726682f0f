import SkqBench.Evcompat.Discipline

/-!
# No event is lost

The events are set up first (`SetUpOK`), then the loops run and events are changed in their own
handlers only (`Disciplined`).  Whatever the interleaving, the assertions of `event_base_loop`
hold, a finishing pass ends the activations it made and no other, and the knote of every pending
event is enabled, or disabled and held by one thread (`LoopOK`).

What the discipline does not promise by itself is that two events are not registered under one
descriptor and filter: `EV_ADD` then takes the knote of the first event away.
-/

namespace Skq.Evcompat

open Lib

/-! ## The set-up -/

/-- The calls before the loops start. -/
def SetUpOK (s : State) (l : Label) : Prop := l.pass = none ∧ RegOK s l

/-- Nothing has been delivered yet. -/
structure SetUp (s : State) : Prop where
  idle : ∀ u, (s.threads u).phase = .idle
  enabled : ∀ b x kn, s.kqs b x = some kn → kn.enabled = true
  owned : Owned s
  reg : RegInv s
  wf : Wf s
  locks : LockInv s

section SetUp

variable {c : Cfg} {s s' : State} {l : Label} {o : List Obs}

lemma SetUp.held (h : SetUp s) (u : Tid) : s.held u = [] := by
  simp [State.held, Phase.held, h.idle u, Phase.fetched, Phase.activated, Phase.enlist]

lemma State.Init.setUp (h : s.Init) : SetUp s where
  idle u := by rw [h.threads u]
  enabled b x kn hkn := by simp [h.kqs b x] at hkn
  owned := h.owned
  reg := h.regInv
  wf := h.wf
  locks := h.lockInv

lemma SetUp.step (h : SetUp s) (hok : SetUpOK s l) (hc : c.multKq = false)
    (hs : Step c s l s' o) (hrun : s.aborted = none) : SetUp s' := by
  have hown : OwnOK s l := by
    refine ownOK_of_unheld hok.2 (fun u w hl => ?_) h.held
    have hpass := hok.1
    rw [hl] at hpass
    cases hpass
  refine ⟨fun u => ?_, fun b x kn hkn => ?_, h.owned.step h.reg h.wf h.locks hown hc hs hrun,
    h.reg.step hok.2 (hs.regStep h.wf), h.wf.step hs, h.locks.step h.wf hs⟩
  · rcases hs.abort_or with ⟨a, rfl⟩ | hab
    · exact h.idle u
    · rw [hs.phase_keep (hab.trans hrun) (by simp [hok.1])]
      exact h.idle u
  · cases hs.kernelStep with
    | fetch => cases hok.1
    | enable => cases hok.1
    | add =>
      simp only [State.setCall_toProc, State.setProc_toProc, Proc.setEv_kqs, Proc.setKq_kqs] at hkn
      split at hkn
      · next hb =>
        rw [Kqueue.add_apply] at hkn
        split at hkn
        · rw [← Option.some.inj hkn]
        · exact h.enabled b x kn (hb ▸ hkn)
      · exact h.enabled b x kn hkn
    | quiet _ _ _ hquiet => exact h.enabled b x kn (hquiet b x kn hkn)

lemma setUp_of_run (hc : c.multKq = false) {s₀ : State} {tr : List Obs} (h0 : s₀.Init)
    (hr : Run (step c) SetUpOK s₀ tr s) : SetUp s :=
  hr.inv SetUp h0.setUp fun _ _ _ _ h hok hs =>
    h.step hok hc (step_cases hs) (not_aborted_of_step hs)

/-- The loops start when no call is in progress. -/
lemma SetUp.loopInv (h : SetUp s) (hdone : ∀ t, (s.threads t).call = none) :
    LoopInv s Hist.zero := by
  have hruns : ∀ t e, ¬ s.Runs t e := by
    rintro t e ⟨a, ha, -⟩
    rw [h.idle t] at ha
    cases ha
  refine ⟨⟨fun t call hcall => ?_, fun t e hch => absurd hch.1 (hruns t e),
    fun t _ e hch => absurd hch.1 (hruns t e), fun t a ha => ?_, fun u k hk => ?_,
    fun b x kn hkn hdis => ?_, fun u a ha => ?_, fun u k hk => ?_, fun u a ha => ?_⟩,
    h.owned, h.reg, h.wf, h.locks⟩
  · rw [hdone t] at hcall
    cases hcall
  · simp [State.unchanged, h.idle t, Phase.unstarted, Phase.running] at ha
  · rw [h.held u] at hk
    cases hk
  · rw [h.enabled b x kn hkn] at hdis
    cases hdis
  · simp [h.idle u, Phase.activated] at ha
  · simp [h.idle u, Phase.enlist] at hk
  · simp [h.idle u, Phase.activated] at ha

end SetUp

/-! ## What the loops guarantee -/

/-- The guarantee.
* `activate`, `finish`, `enable`: the assertions of `event_base_loop` hold where they are made.
* `ends`, `reenables`: what a pass ends or enables again is the activation it made, and no thread
  has activated the event since.
* `kept`: the knote of a pending event is enabled, or one thread holds it. -/
structure LoopOK (c : Cfg) (s : State) (h : Hist) : Prop where
  activate : ∀ t b k todo done, (s.threads t).phase = .activating b (k :: todo) done →
    activateAssert b k (s.evs k.udata) = none
  finish : ∀ t b a todo done enlist,
    (s.threads t).phase = .finishing b (a :: todo) done enlist →
    a.fresh (s.evs a.ev) = true →
    (finishFresh c (s.setEv a.ev { s.evs a.ev with lk := some t }) t a enlist).2.2 = none
  enable : ∀ t b done enlist, (s.threads t).phase = .finishing b [] done enlist →
    ((s.kqs b).enableAll enlist).2 = true
  ends : ∀ t w s' o, step c s (.finish t w) = some (s', o) → ∀ e,
    (s.evs e).active = true ∧ (s'.evs e).active = false ∨
      (s.evs e).pending = true ∧ (s'.evs e).pending = false →
    (s.evs e).active = true ∧ (s.evs e).owner = some t ∧ h.mine t e = h.acts e
  reenables : ∀ t s' o, step c s (.advance t) = some (s', o) → ∀ b x kn kn',
    s.kqs b x = some kn → kn.enabled = false → s'.kqs b x = some kn' → kn'.enabled = true →
    h.mine t kn.kev.udata = h.acts kn.kev.udata
  kept : ∀ e, s.isSet e → (s.evs e).pending = true → ∃ b x kn, (s.evs e).evBase = some b ∧
    (s.evs e).slot = some x ∧ s.kqs b x = some kn ∧ kn.kev.udata = e ∧
    (kn.enabled = true ∧ (∀ u, s.holds u e = 0) ∨
      kn.enabled = false ∧ ∃ u, s.holds u e = 1 ∧ ∀ u', 0 < s.holds u' e → u' = u)

namespace LoopInv

variable {c : Cfg} {s s' : State} {h : Hist} {l : Label} {o : List Obs} {t : Tid} {e : EvId}

/-- The entry a finishing pass comes to, if it is fresh, is the last activation of its event. -/
lemma head (I : LoopInv s h) {b : BaseId} {a : Active} {todo done : List Active}
    {enlist : List KEvent} (hph : (s.threads t).phase = .finishing b (a :: todo) done enlist)
    (hfresh : a.fresh (s.evs a.ev) = true) : a.kev ∈ s.held t ∧ (s.evs a.ev).active = true ∧
      (s.evs a.ev).owner = some t ∧ h.mine t a.ev = h.acts a.ev := by
  have hmem : a ∈ (s.threads t).phase.activated := by
    rw [hph]
    exact List.mem_cons_self
  have hnear := I.near t a hmem
  have hep := (fresh_iff (I.owned.epochs t a hmem) (by omega)).1 hfresh
  exact ⟨activated_held hmem hep, (I.owned.activated t a hmem hep).1,
    (I.owned.activated t a hmem hep).2, I.acts t a hmem hep⟩

/-- `event_del_flags` of the finishing pass returns `CS_OK`. -/
lemma finish (I : LoopInv s h) {b : BaseId} {a : Active} {todo done : List Active}
    {enlist : List KEvent} (hph : (s.threads t).phase = .finishing b (a :: todo) done enlist)
    (hfresh : a.fresh (s.evs a.ev) = true) :
    (finishFresh c (s.setEv a.ev { s.evs a.ev with lk := some t }) t a enlist).2.2 = none := by
  obtain ⟨hheld, -⟩ := I.head hph hfresh
  obtain ⟨hpend, -⟩ := I.held t a.kev hheld
  obtain ⟨b', kn, -, hbase, hslot, hkn, -⟩ := I.held_knote hheld
  set ev : Event := { s.evs a.ev with lk := some t }.inactive with hev
  simp only [finishFresh, Proc.setEv_evs, if_true, Proc.setEv_setEv, ← hev]
  split
  · rfl
  · rw [show ev.evBase = some b' from hbase]
    have hcases := eventDelRetry_cases (s.setEv a.ev ev) t a.ev b'
      (initKeventDelete c ev a.ev) .noblock
    simp only [Proc.setEv_evs, if_true, Proc.setEv_kqs] at hcases
    rcases hcases with ⟨-, hwhy⟩ | ⟨-, hblock, -⟩ | ⟨k, kn, -, -, -, -, hres⟩
    · exfalso
      rcases hwhy with hnot | ⟨-, hact⟩ | hnone
      · rw [show ev.pending = true from hpend] at hnot
        cases hnot
      · cases hact
      · have hx := @initKeventDelete_slot c ev a.ev
        rw [show ev.slot = some a.kev.slot from hslot] at hx
        obtain ⟨k, hk, hkx⟩ := Option.map_eq_some_iff.1 hx
        rw [hk, Option.bind_some, hkx, hkn] at hnone
        cases hnone
    · cases hblock
    · simp only [hres]

/-- `EV_ENABLE` succeeds. -/
lemma enable (I : LoopInv s h) {b : BaseId} {done : List Active} {enlist : List KEvent}
    (hph : (s.threads t).phase = .finishing b [] done enlist) :
    ((s.kqs b).enableAll enlist).2 = true := by
  refine (Kqueue.enableAll_of_registered enlist (s.kqs b) fun k hk => ?_).1
  obtain ⟨b', kn, hb', -, -, hkn, -⟩ := I.held_knote (enlist_held (u := t) (by rw [hph]; exact hk))
  rw [hph] at hb'
  obtain rfl := Option.some.inj hb'
  exact ⟨kn, hkn⟩

lemma ends (I : LoopInv s h) {w : ℕ} (hs : Step c s (.finish t w) s' o) (hrun : s.aborted = none)
    (he : (s.evs e).active = true ∧ (s'.evs e).active = false ∨
      (s.evs e).pending = true ∧ (s'.evs e).pending = false) :
    (s.evs e).active = true ∧ (s.evs e).owner = some t ∧ h.mine t e = h.acts e := by
  have hsame : (s'.evs e).active = (s.evs e).active → (s'.evs e).pending = (s.evs e).pending →
      False := by
    intro hact hpend
    rw [hact, hpend] at he
    rcases he with ⟨hon, hoff⟩ | ⟨hon, hoff⟩ <;> rw [hon] at hoff <;> cases hoff
  rcases hs.abort_or with ⟨a, rfl⟩ | hab
  · exact (hsame rfl rfl).elim
  · have hev := hs.evStep (hab.trans hrun) e
    generalize s'.evs e = ev at hev hsame
    cases hev with
    | keep | finishSkip => exact (hsame rfl rfl).elim
    | finishKeep hph hu _ hfresh =>
      subst hu
      exact (I.head hph hfresh).2
    | finishDel hph hu _ hfresh =>
      subst hu
      exact (I.head hph hfresh).2
    | delWait hdel | delete hdel => rcases hdel.label with heq | heq <;> cases heq

lemma reenables (I : LoopInv s h) (hs : Step c s (.advance t) s' o) {b : BaseId} {x : Slot}
    {kn kn' : Knote} (hkn : s.kqs b x = some kn) (hdis : kn.enabled = false)
    (hkn' : s'.kqs b x = some kn') (hen : kn'.enabled = true) :
    h.mine t kn.kev.udata = h.acts kn.kev.udata := by
  have hchanged : s.kqs b x ≠ some kn' := by
    intro heq
    rw [hkn, Option.some.injEq] at heq
    rw [heq, hen] at hdis
    cases hdis
  cases hs.kernelStep with
  | @enable _ b' done enlist hph =>
    simp only [State.setPhase_toProc, State.setProc_toProc, Proc.setKq_kqs] at hkn'
    split at hkn'
    · next hb =>
      subst hb
      rcases Kqueue.enableAll_apply enlist (s.kqs b) x with heq | ⟨kn₀, hkn₀, -, k, hk, hx⟩
      · exact absurd (heq ▸ hkn') hchanged
      · have hmem : k ∈ (s.threads t).phase.enlist := by
          rw [hph]
          exact hk
        have hu := I.owned.slot t b k (enlist_held hmem) kn (by rw [hph]; rfl) (hx ▸ hkn)
        rw [hu]
        exact I.enlist t k hmem
    · exact absurd hkn' hchanged
  | quiet _ _ _ hquiet => exact absurd (hquiet b x kn' hkn') hchanged

lemma kept (I : LoopInv s h) (hset : s.isSet e) (hpend : (s.evs e).pending = true) :
    ∃ b x kn, (s.evs e).evBase = some b ∧ (s.evs e).slot = some x ∧ s.kqs b x = some kn ∧
      kn.kev.udata = e ∧ (kn.enabled = true ∧ (∀ u, s.holds u e = 0) ∨
        kn.enabled = false ∧ ∃ u, s.holds u e = 1 ∧ ∀ u', 0 < s.holds u' e → u' = u) := by
  obtain ⟨b, x, kn, hbase, hslot, hkn, rfl⟩ := I.reg.of_pending hset hpend
  refine ⟨b, x, kn, hbase, hslot, hkn, rfl, ?_⟩
  cases hen : kn.enabled with
  | true =>
    refine .inl ⟨rfl, fun u => Nat.eq_zero_of_not_pos fun hu => ?_⟩
    rw [I.owned.disabled b x kn u hkn hu] at hen
    cases hen
  | false =>
    obtain ⟨u, hu⟩ := I.disabled b x kn hkn hen
    have honce := I.owned.once u kn.kev.udata
    exact .inr ⟨rfl, u, by omega, fun u' hu' => I.owned.one u' u _ hu' hu⟩

lemma loopOK (I : LoopInv s h) : LoopOK c s h where
  activate := I.owned.activationOK.asserts
  finish _ _ _ _ _ _ hph hfresh := I.finish hph hfresh
  enable _ _ _ _ hph := I.enable hph
  ends _ _ _ _ hs _ he := I.ends (step_cases hs) (not_aborted_of_step hs) he
  reenables _ _ _ hs _ _ _ _ hkn hdis hkn' hen := I.reenables (step_cases hs) hkn hdis hkn' hen
  kept _ hset hpend := I.kept hset hpend

end LoopInv

lemma hstep_eq_some {c : Cfg} {x y : State × Hist} {l : Label} {o : List Obs}
    (hs : hstep c x l = some (y, o)) : step c x.1 l = some (y.1, o) ∧
      y.2 = if y.1.aborted.isSome then x.2 else x.2.next x.1 l := by
  obtain ⟨r, hr, heq⟩ := Option.map_eq_some_iff.1 hs
  obtain ⟨rfl, rfl⟩ := Prod.mk.inj heq
  exact ⟨hr, rfl⟩

/-- The invariants of a disciplined run. -/
lemma loopInv_of_run {c : Cfg} (hc : c.multKq = false) {x y : State × Hist} {tr : List Obs}
    (hr : Run (hstep c) Disciplined x tr y) (h0 : LoopInv x.1 x.2) : LoopInv y.1 y.2 := by
  refine hr.inv (fun x => LoopInv x.1 x.2) h0 ?_
  intro x l y o I hok hs
  obtain ⟨hs, hnext⟩ := hstep_eq_some hs
  rw [hnext]
  exact I.step hok (step_cases hs) (not_aborted_of_step hs) hc

/-- **The loops are right under the discipline**, in the build without SKQ, for any number of
threads and any interleaving: after the set-up, in every state of a run whose steps meet
`Disciplined`. -/
theorem loopOK_of_run (ndebug : Bool) {s₀ s₁ s : State} {h : Hist} {tr₁ tr₂ : List Obs}
    (h0 : s₀.Init) (hset : Run (step ⟨false, ndebug⟩) SetUpOK s₀ tr₁ s₁)
    (hdone : ∀ t, (s₁.threads t).call = none)
    (hr : Run (hstep ⟨false, ndebug⟩) Disciplined (s₁, Hist.zero) tr₂ (s, h)) :
    LoopOK ⟨false, ndebug⟩ s h :=
  (loopInv_of_run rfl hr ((setUp_of_run rfl h0 hset).loopInv hdone)).loopOK

/-! ## A disciplined run -/

section Example

variable {c : Cfg} {s : State}

/-- If one thread makes the calls, no other thread is in one. -/
lemma call_eq_none_of_run {ok : State → Label → Prop} {t : Tid}
    (hok : ∀ s l, ok s l → ∀ u p, l.progress = some (u, p) → u = t) {s₀ : State} {tr : List Obs}
    (h0 : s₀.Init) (hr : Run (step c) ok s₀ tr s) {u : Tid} (hu : u ≠ t) :
    (s.threads u).call = none := by
  have hwait : ∀ e base kev, (s.threads u).call ≠ some (.delWait e base kev) ∧
      (s.threads u).call = none := by
    refine hr.inv (fun s => ∀ e base kev, (s.threads u).call ≠ some (.delWait e base kev) ∧
      (s.threads u).call = none) (fun e base kev => by simp [h0.threads u]) ?_
    intro s l s' o h hl hs e base kev
    have hnone : (s'.threads u).call = none := by
      cases hcall : (s'.threads u).call with
      | none => rfl
      | some call =>
        rcases (step_cases hs).call_source hcall with hold | ⟨_, _, _, -, rfl, -⟩ |
          ⟨e', base', kev', _, hdel, -⟩
        · rw [(h e base kev).2] at hold
          cases hold
        · exact absurd (hok s _ hl u _ rfl) hu
        · rcases hdel.label with rfl | rfl
          · exact absurd (hok s _ hl u _ rfl) hu
          · exact absurd hdel.inv_delWake.2 (h e' base' kev').1
    exact ⟨by simp [hnone], hnone⟩
  exact (hwait 0 0 none).2

lemma addLocked_free {s : State} {h : Hist} {t : Tid} {e : EvId} {kev : KEvent} {b : BaseId}
    (hcall : (s.threads t).call = some (.addLock e kev)) (hbase : (s.evs e).evBase = some b)
    (hfree : s.kqs b kev.slot = none) : Disciplined (s, h) (.addLocked t true) := by
  intro e' kev' b' hcall' hbase' kn hkn
  obtain ⟨rfl, rfl⟩ := Call.addLock.inj (Option.some.inj (hcall.symm.trans hcall'))
  obtain rfl := Option.some.inj (hbase.symm.trans hbase')
  rw [hfree] at hkn
  cases hkn

lemma epochRoom_of_lt {s : State} {e : EvId} (h : (s.evs e).epoch + 1 < 2 ^ 32) :
    EpochRoom s e := by
  intro u a ha he
  omega

end Example

/-- Two events are registered by thread 9. -/
def setUpRun : List Label :=
  register 9 0 0 3 (evRead ||| evPersist) none ++ register 9 0 1 4 evRead none

/-- Thread 0 fetches both; the handler of the first moves it to another filter, and thread 1
fetches it; thread 0 finishes its pass. -/
def loopsRun : List Label :=
  [.fetch 0 0 [(3, .read), (4, .read)], .activate 0, .activate 0, .advance 0, .invoke 0,
    .del 0 0, .set 0 0 3 (evWrite ||| evPersist) 0 0, .baseSet 0 0 0, .add 0 0 none,
    .addLocked 0 true, .fetch 1 0 [(3, .write)], .activate 1, .ret 0, .invoke 0, .ret 0,
    .advance 0, .finish 0 0, .finish 0 0, .advance 0]

/-- Where the set-up ends. -/
def setUpEnd : State × List Obs :=
  (exec (step ⟨false, false⟩) State.zero setUpRun).getD (State.zero, [])

lemma exec_setUpRun : exec (step ⟨false, false⟩) State.zero setUpRun = some setUpEnd := by
  have h : (exec (step ⟨false, false⟩) State.zero setUpRun).isSome = true := by decide +kernel
  obtain ⟨r, hr⟩ := Option.isSome_iff_exists.1 h
  rw [setUpEnd, hr]
  rfl

lemma setUpRun_guarded : Guarded (step ⟨false, false⟩)
    (fun s l => SetUpOK s l ∧ ∀ u p, l.progress = some (u, p) → u = 9) State.zero setUpRun := by
  have hok : ∀ {s : State} {l : Label}, l.pass = none → RegOK s l →
      (∀ u p, l.progress = some (u, p) → u = 9) →
      SetUpOK s l ∧ ∀ u p, l.progress = some (u, p) → u = 9 := fun hp hr hl => ⟨⟨hp, hr⟩, hl⟩
  refine ⟨hok rfl (fun h => by cases h) ?_, hok rfl trivial ?_, hok rfl trivial ?_,
    hok rfl (regOK_addLocked rfl rfl rfl rfl) ?_, hok rfl (fun h => by cases h) ?_,
    hok rfl trivial ?_, hok rfl trivial ?_, hok rfl (regOK_addLocked rfl rfl rfl rfl) ?_, trivial⟩
  all_goals simp [Label.progress, eq_comm]

lemma loopsRun_guarded :
    Guarded (hstep ⟨false, false⟩) Disciplined (setUpEnd.1, Hist.zero) loopsRun := by
  refine ⟨trivial, trivial, trivial, trivial, trivial,
    ⟨⟨⟨_, rfl, rfl⟩, List.mem_singleton.2 rfl⟩, epochRoom_of_lt (by decide +kernel)⟩,
    ⟨⟨_, rfl, rfl⟩, List.mem_singleton.2 rfl⟩, ⟨⟨_, rfl, rfl⟩, by decide +kernel⟩,
    ⟨⟨_, rfl, rfl⟩, by decide +kernel⟩, addLocked_free rfl rfl rfl, trivial, trivial, trivial,
    trivial, trivial, trivial, trivial, trivial, trivial, trivial⟩

/-- The run above; in the end thread 0 has finished its pass and thread 1 owns the event that was
moved. -/
theorem loopOK_loopsRun : ∃ s h tr,
    Run (hstep ⟨false, false⟩) Disciplined (setUpEnd.1, Hist.zero) tr (s, h) ∧
      LoopOK ⟨false, false⟩ s h ∧ (s.evs 0).owner = some 1 ∧ (s.evs 1).pending = false := by
  have hset := Run.of_exec exec_setUpRun setUpRun_guarded
  have hdone : ∀ t, (setUpEnd.1.threads t).call = none := by
    intro t
    by_cases ht : t = 9
    · rw [ht]
      decide +kernel
    · exact call_eq_none_of_run (fun _ _ h => h.2) State.zero_init hset ht
  obtain ⟨⟨s, h⟩, tr, hr, hend⟩ := Run.exists_of_exec (hstep ⟨false, false⟩)
    (setUpEnd.1, Hist.zero) loopsRun (fun r => ((r.1.1.evs 0).owner, (r.1.1.evs 1).pending))
    (some 1, false) (by decide +kernel) loopsRun_guarded
  obtain ⟨howner, hpend⟩ := Prod.mk.inj hend
  exact ⟨s, h, tr, hr, loopOK_of_run false State.zero_init
    (hset.mono (fun _ => True) trivial (fun _ _ _ _ _ _ _ => trivial) fun _ _ _ h => h.1) hdone hr,
    howner, hpend⟩

/-- **Two events under one descriptor.**  Thread 9 registers both with the same fd and filter; the
first one is still pending and its knote is gone. -/
theorem not_loopOK_sharedSlot : ∃ s tr,
    Run (step ⟨false, false⟩) (fun _ l => l.pass = none) State.zero tr s ∧ s.aborted = none ∧
      (∀ t, (s.threads t).call = none) ∧ ¬ LoopOK ⟨false, false⟩ s Hist.zero := by
  have hcalls : Guarded (step ⟨false, false⟩)
      (fun _ l => l.pass = none ∧ ∀ u p, l.progress = some (u, p) → u = 9) State.zero
      (register 9 0 0 3 (evRead ||| evPersist) none ++
        register 9 0 1 3 (evRead ||| evPersist) none) := by
    refine guarded_of_forall fun l hl s => ?_
    simp only [register, List.cons_append, List.nil_append, List.mem_cons,
      List.not_mem_nil, or_false] at hl
    rcases hl with rfl | rfl | rfl | rfl | rfl | rfl | rfl | rfl <;>
      simp [Label.pass, Label.progress, eq_comm]
  obtain ⟨s, tr, hr, hs⟩ := Run.exists_of_exec (step ⟨false, false⟩) State.zero _
    (fun r => (r.1.home 0, ((r.1.kqs 0 (3, .read)).map fun kn => kn.kev.udata) == some 1 &&
      (r.1.aborted.isNone && (r.1.threads 9).call.isNone)))
    (some (some 0, some (3, .read)), true) (by decide +kernel) hcalls
  simp only [Prod.mk.injEq, Bool.and_eq_true, Option.isNone_iff_eq_none, beq_iff_eq,
    Option.map_eq_some_iff] at hs
  obtain ⟨hhome, ⟨kn, hkn, hu⟩, hab, hcall⟩ := hs
  refine ⟨s, tr, hr.mono (fun _ => True) trivial (fun _ _ _ _ _ _ _ => trivial)
    fun _ _ _ h => h.1, hab, fun t => ?_, fun h => ?_⟩
  · by_cases ht : t = 9
    · rw [ht, hcall]
    · exact call_eq_none_of_run (fun _ _ h => h.2) State.zero_init hr ht
  · obtain ⟨hset, hpend, hplace⟩ := home_eq_some.1 hhome
    obtain ⟨hbase, hslot⟩ := Prod.mk.inj hplace
    obtain ⟨b, x, kn', hbase', hslot', hkn', hu', -⟩ := h.kept 0 hset hpend
    rw [hbase] at hbase'
    rw [hslot] at hslot'
    rw [← Option.some.inj hbase', ← Option.some.inj hslot', hkn] at hkn'
    rw [Option.some.inj hkn', hu'] at hu
    cases hu

end Skq.Evcompat
