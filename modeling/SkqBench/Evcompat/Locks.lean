import SkqBench.Evcompat.Batch

/-!
# The mutexes of a finishing pass

A call takes and releases the mutex of its event in one step; only a finishing pass keeps it from
one step to the next.  `LockStep` says what a step can do to the mutexes and to the lists of the
passes that keep them, and `LockInv` that the two agree.
-/

namespace Skq.Evcompat

/-- What a step can do to the mutexes. -/
inductive LockStep (s s' : State) : Prop
  | same (hlist : ∀ u, (s'.threads u).phase.locked = (s.threads u).phase.locked)
      (hen : ∀ u, ∀ k ∈ (s'.threads u).phase.enlist, k ∈ (s.threads u).phase.enlist)
      (hlk : ∀ e, (s'.evs e).lk = (s.evs e).lk ∨ ¬ s.isSet e ∧ (s'.evs e).lk = none)
  | take {t : Tid} {e : EvId} (hfree : (s.evs e).lk = none)
      (hlist : ∀ u, (s'.threads u).phase.locked =
        if u = t then (s.threads t).phase.locked ++ [e] else (s.threads u).phase.locked)
      (hen : ∀ u, ∀ k ∈ (s'.threads u).phase.enlist,
        k ∈ (s.threads u).phase.enlist ∨ u = t ∧ k.udata = e)
      (hlk : ∀ e', (s'.evs e').lk = if e' = e then some t else (s.evs e').lk)
  | release {t : Tid} {e : EvId} {r : List EvId} (hheld : (s.threads t).phase.locked = e :: r)
      (hlist : ∀ u, (s'.threads u).phase.locked =
        if u = t then r else (s.threads u).phase.locked)
      (hen : ∀ u, ∀ k ∈ (s'.threads u).phase.enlist, u ≠ t ∧ k ∈ (s.threads u).phase.enlist)
      (hlk : ∀ e', (s'.evs e').lk = if e' = e then none else (s.evs e').lk)

/-- A step of a pass that takes and releases no mutex. -/
lemma LockStep.of_phase {s s' : State} {t : Tid} {ph : Phase}
    (hthreads : ∀ u, (s'.threads u).phase = if u = t then ph else (s.threads u).phase)
    (hlist : ph.locked = (s.threads t).phase.locked)
    (hen : ∀ k ∈ ph.enlist, k ∈ (s.threads t).phase.enlist)
    (hlk : ∀ e, (s'.evs e).lk = (s.evs e).lk) : LockStep s s' := by
  refine .same (fun u => ?_) (fun u k hk => ?_) fun e => .inl (hlk e)
  · rw [hthreads]
    split
    · next hu => rw [hlist, hu]
    · rfl
  · rw [hthreads] at hk
    split at hk
    · next hu => rw [hu]; exact hen k hk
    · exact hk

/-- A step of a call, which leaves every pass where it is. -/
lemma LockStep.of_call {s s' : State} (hphase : ∀ u, (s'.threads u).phase = (s.threads u).phase)
    (hlk : ∀ e, (s'.evs e).lk = (s.evs e).lk ∨ ¬ s.isSet e ∧ (s'.evs e).lk = none) :
    LockStep s s' := by
  refine .same (fun u => by rw [hphase]) (fun u k hk => ?_) hlk
  rwa [hphase] at hk

/-- An iteration of the finishing pass. -/
lemma LockStep.of_finish {s s' : State} {t : Tid} {b : BaseId} {a : Active}
    {todo done : List Active} {enlist r : List KEvent}
    (hph : (s.threads t).phase = .finishing b (a :: todo) done enlist)
    (hfree : (s.evs a.ev).lk = none) (hnew : ∀ k ∈ r, k = a.kev)
    (hthreads : ∀ u, (s'.threads u).phase =
      if u = t then .finishing b todo (done ++ [a]) (enlist ++ r) else (s.threads u).phase)
    (hlk : ∀ e, (s'.evs e).lk = if e = a.ev then some t else (s.evs e).lk) : LockStep s s' := by
  refine .take hfree (fun u => ?_) (fun u k hk => ?_) hlk
  · rw [hthreads]
    split
    · simp [hph, Phase.locked]
    · rfl
  · rw [hthreads] at hk
    split at hk
    · next hu =>
      rcases List.mem_append.1 hk with hk | hk
      · rw [hu, hph]
        exact .inl hk
      · rw [hnew k hk]
        exact .inr ⟨hu, rfl⟩
    · exact .inl hk

/-- A store that keeps the mutex. -/
lemma setEv_lk {p : Proc} {e' : EvId} {ev : Event} (h : ev.lk = (p.evs e').lk) (e : EvId) :
    ((p.setEv e' ev).evs e).lk = (p.evs e).lk := by
  rw [Proc.setEv_evs]
  split
  · next he => rw [he, h]
  · rfl

/-- A store of the finishing pass. -/
lemma setEv_lk_update {p : Proc} {e' : EvId} {ev : Event} {t : Option Tid} (h : ev.lk = t)
    (e : EvId) : ((p.setEv e' ev).evs e).lk = if e = e' then t else (p.evs e).lk := by
  rw [Proc.setEv_evs]
  split
  · exact h
  · rfl

/-- **Every step is such a step.** -/
theorem Step.lockStep {c : Cfg} {s s' : State} {l : Label} {o : List Obs} (hs : Step c s l s' o) :
    LockStep s s' := by
  cases hs with
  | @fetch t b slots evl kq hth hlen hf =>
    refine .of_phase (setPhase_phase _ t · _) ?_ ?_ fun e => rfl
    · rw [hth]; rfl
    · simp [Phase.enlist]
  | @activate t b k todo done hph =>
    refine .of_phase (setPhase_phase _ t · _) ?_ ?_ fun e => setEv_lk (by rfl) e
    · rw [hph]; rfl
    · simp [Phase.enlist]
  | @invoke t b a todo done hph =>
    refine .of_phase (setPhase_phase _ t · _) ?_ ?_ fun e => rfl
    · rw [hph]; rfl
    · simp [Phase.enlist]
  | @ret t b a todo done hth =>
    refine .of_phase (setPhase_phase _ t · _) ?_ ?_ fun e => rfl
    · rw [hth]; rfl
    · simp [Phase.enlist]
  | @toCalling t b done hph =>
    refine .of_phase (setPhase_phase _ t · _) ?_ ?_ fun e => rfl
    · rw [hph]; rfl
    · simp [Phase.enlist]
  | @toFinishing t b done hph =>
    refine .of_phase (setPhase_phase _ t · _) ?_ ?_ fun e => rfl
    · rw [hph]; rfl
    · simp [Phase.enlist]
  | @enable t b done enlist hph =>
    refine .of_phase (setPhase_phase _ t · _) ?_ ?_ fun e => rfl
    · rw [hph]; rfl
    · simp [Phase.enlist]
  | @toIdle t b hph =>
    refine .of_phase (setPhase_phase _ t · _) ?_ ?_ fun e => rfl
    · rw [hph]; rfl
    · simp [Phase.enlist]
  | finishSkip hph hlk hfresh =>
    refine .of_finish (r := []) hph hlk (by simp) (fun u => ?_) fun e => setEv_lk_update (by rfl) e
    rw [setPhase_phase, List.append_nil, State.setProc_threads]
  | @finishKeep t w b a todo done enlist hph hlk hfresh hper =>
    refine .of_finish (r := if c.multKq then [] else [a.kev]) hph hlk (fun k hk => ?_)
      (fun u => ?_) fun e => setEv_lk_update (by rfl) e
    · split at hk
      · simp at hk
      · exact List.mem_singleton.1 hk
    · rw [setPhase_phase, State.setProc_threads]
      cases c.multKq <;> simp
  | finishFail hph hlk hfresh hper =>
    refine .of_finish (r := []) hph hlk (by simp) (fun u => ?_) fun e => setEv_lk_update (by rfl) e
    rw [setPhase_phase, List.append_nil, State.setProc_threads]
  | finishDel hph hlk hfresh hper hbase hx hkn hpend =>
    refine .of_finish (r := []) hph hlk (by simp) (fun u => ?_) fun e => setEv_lk_update (by rfl) e
    rw [setPhase_phase, List.append_nil, State.setProc_threads]
  | @unlock t b a todo hph =>
    have hphase := setPhase_phase
      (s.setProc (s.setEv a.kev.udata { s.evs a.kev.udata with lk := none })) t
    refine .release (t := t) (e := a.ev) (r := todo.map Active.ev) ?_ (fun u => ?_)
      (fun u k hk => ?_) fun e => setEv_lk_update (by rfl) e
    · rw [hph]; rfl
    · rw [hphase, State.setProc_threads]
      split <;> rfl
    · rw [hphase, State.setProc_threads] at hk
      split at hk
      · simp [Phase.enlist] at hk
      · next hu => exact ⟨hu, hk⟩
  | baseSetErr | addBusy | addInval | close | abort =>
    exact .of_call (fun u => rfl) fun e => .inl rfl
  | addErr | delErr => exact .of_call (setCall_phase _ _ · _) fun e => .inl rfl
  | @set t e fd type fn arg hmay hlk hok =>
    refine .of_call (fun u => rfl) fun e' => ?_
    show ((s.setEv e _).evs e').lk = _ ∨ _ ∧ ((s.setEv e _).evs e').lk = _
    rw [Proc.setEv_evs]
    split
    · next he =>
      subst he
      by_cases hset : s.isSet e'
      · rw [State.isSet] at hset
        simp [Event.firstSet, Event.assign, hset]
      · exact .inr ⟨hset, hlk⟩
    · exact .inl rfl
  | baseSetOk | spurious | cleanup =>
    exact .of_call (fun u => rfl) fun e => .inl (setEv_lk (by rfl) e)
  | @addLock t e =>
    refine .of_call (setCall_phase _ _ · _) fun e' => .inl ?_
    obtain ⟨fd, h, -⟩ := patchTimerFd_evs s.toProc e e'
    simp only [State.setCall_toProc, State.setProc_toProc, h]
  | addOk | delOk =>
    refine .of_call (setCall_phase _ _ · _) fun e => .inl (setEv_lk ?_ e)
    exact Event.deactivate_lk _
  | delWait => exact .of_call (setCall_phase _ _ · _) fun e => .inl (setEv_lk (by rfl) e)

/-- The mutexes and the passes that keep them agree. -/
structure LockInv (s : State) : Prop where
  holder : ∀ u, ∀ e ∈ (s.threads u).phase.locked, (s.evs e).lk = some u
  locked : ∀ u e, s.isSet e → (s.evs e).lk = some u → e ∈ (s.threads u).phase.locked
  once : ∀ u, (s.threads u).phase.locked.Nodup
  enlist : ∀ u, ∀ k ∈ (s.threads u).phase.enlist, k.udata ∈ (s.threads u).phase.locked

lemma State.Init.lockInv {s : State} (h : s.Init) : LockInv s where
  holder u e he := by simp [h.threads u, Phase.locked] at he
  locked u e hset := absurd hset (h.unset e)
  once u := by simp [h.threads u, Phase.locked]
  enlist u k hk := by simp [h.threads u, Phase.enlist] at hk

lemma locked_isSet {s : State} {u : Tid} {e : EvId} (hwf : Wf s)
    (he : e ∈ (s.threads u).phase.locked) : s.isSet e :=
  hwf.batch u e (List.mem_append_left _ he)

theorem LockInv.step {c : Cfg} {s s' : State} {l : Label} {o : List Obs} (h : LockInv s)
    (hwf : Wf s) (hs : Step c s l s' o) : LockInv s' := by
  have hnew : ∀ e, s'.isSet e → s.isSet e ∨ (s'.evs e).lk = none := by
    intro e he
    rcases hs.newly_set he with hold | ⟨_, fd, type, fn, arg, -, hev, hfree⟩
    · exact .inl hold
    · rw [hev]
      exact .inr hfree
  cases hs.lockStep with
  | same hlist hen hlk =>
    refine ⟨fun u e he => ?_, fun u e hset he => ?_, fun u => ?_, fun u k hk => ?_⟩
    · rw [hlist] at he
      rcases hlk e with hlk | ⟨hunset, -⟩
      · rw [hlk]
        exact h.holder u e he
      · exact absurd (locked_isSet hwf he) hunset
    · rw [hlist]
      rcases hnew e hset with hold | hnone
      · rcases hlk e with hlk | ⟨hunset, -⟩
        · exact h.locked u e hold (hlk ▸ he)
        · exact absurd hold hunset
      · rw [hnone] at he
        cases he
    · rw [hlist]
      exact h.once u
    · rw [hlist]
      exact h.enlist u k (hen u k hk)
  | @take t e₀ hfree hlist hen hlk =>
    have hout : ∀ u, e₀ ∉ (s.threads u).phase.locked := by
      intro u he
      rw [h.holder u e₀ he] at hfree
      cases hfree
    refine ⟨fun u e he => ?_, fun u e hset he => ?_, fun u => ?_, fun u k hk => ?_⟩
    · rw [hlk]
      rw [hlist] at he
      split at he
      · next hu =>
        rcases List.mem_append.1 he with he | he
        · have hne : e ≠ e₀ := fun heq => hout t (heq ▸ he)
          rw [if_neg hne, hu]
          exact h.holder t e he
        · rw [if_pos (List.mem_singleton.1 he), hu]
      · have hne : e ≠ e₀ := fun heq => hout u (heq ▸ he)
        rw [if_neg hne]
        exact h.holder u e he
    · rw [hlk] at he
      rw [hlist]
      by_cases heq : e = e₀
      · rw [if_pos heq] at he
        rw [if_pos (Option.some.inj he).symm, heq]
        simp
      · rw [if_neg heq] at he
        have hold : e ∈ (s.threads u).phase.locked := by
          rcases hnew e hset with hold | hnone
          · exact h.locked u e hold he
          · rw [hlk, if_neg heq, he] at hnone
            cases hnone
        split
        · next hu => exact List.mem_append_left _ (hu ▸ hold)
        · exact hold
    · rw [hlist]
      split
      · refine List.Nodup.append (h.once t) (List.nodup_singleton _) ?_
        simpa using hout t
      · exact h.once u
    · rw [hlist]
      rcases hen u k hk with hk | ⟨hu, hk⟩
      · split
        · next hu => exact List.mem_append_left _ (hu ▸ h.enlist u k hk)
        · exact h.enlist u k hk
      · rw [if_pos hu, hk]
        simp
  | @release t e₀ rest hheld hlist hen hlk =>
    have honce := h.once t
    rw [hheld, List.nodup_cons] at honce
    have hheld₀ : (s.evs e₀).lk = some t := h.holder t e₀ (by rw [hheld]; simp)
    refine ⟨fun u e he => ?_, fun u e hset he => ?_, fun u => ?_, fun u k hk => ?_⟩
    · rw [hlk]
      rw [hlist] at he
      split at he
      · next hu =>
        have hne : e ≠ e₀ := fun heq => honce.1 (heq ▸ he)
        rw [if_neg hne, hu]
        exact h.holder t e (by rw [hheld]; exact List.mem_cons_of_mem _ he)
      · next hu =>
        have hheldu := h.holder u e he
        have hne : e ≠ e₀ := by
          rintro rfl
          rw [hheld₀] at hheldu
          exact hu (Option.some.inj hheldu).symm
        rw [if_neg hne, hheldu]
    · rw [hlk] at he
      rw [hlist]
      by_cases heq : e = e₀
      · rw [if_pos heq] at he
        cases he
      · rw [if_neg heq] at he
        have hold : e ∈ (s.threads u).phase.locked := by
          rcases hnew e hset with hold | hnone
          · exact h.locked u e hold he
          · rw [hlk, if_neg heq, he] at hnone
            cases hnone
        split
        · next hu =>
          rw [hu, hheld] at hold
          exact (List.mem_cons.1 hold).resolve_left heq
        · exact hold
    · rw [hlist]
      split
      · exact honce.2
      · exact h.once u
    · rw [hlist]
      obtain ⟨hu, hk⟩ := hen u k hk
      rw [if_neg hu]
      exact h.enlist u k hk

end Skq.Evcompat
