import SkqBench.Evcompat.Batch

/-!
# The life cycle of the lock

`event_set` initialises the mutex and the condition variable of an event the first time it sees
the memory, which it recognises by `cv_init`; `event_cleanup` destroys them and leaves `cv_init` as
it is.  From then on every use of the event is a use of destroyed objects: a new `event_set` on the
same memory initialises nothing, and a finishing pass that still has the event in its batch locks
it.  `liveUses_iff` says that there is no other way to use an object that is not live.
-/

namespace Skq.Evcompat

open Lib

/-- Every use of the mutex and the condition variable of `e` found them live. -/
def LiveUses (e : EvId) (tr : List Obs) : Prop := ∀ op st, .sync op e st ∈ tr → st = .live

/-- Nothing uses `e` after an `event_cleanup(e)`. -/
def NoUseAfterCleanup (e : EvId) (tr : List Obs) : Prop :=
  tr.Pairwise fun x y => x = .cleanup e → ∀ op st, y ≠ .sync op e st

/-- The mutex of an event that has been set is live until its clean-up, and destroyed after it. -/
structure LifeInv (e : EvId) (tr : List Obs) (s : State) : Prop where
  isSet : s.isSet e → (s.evs e).sync = if .cleanup e ∈ tr then .destroyed else .live
  unset : ¬ s.isSet e → .cleanup e ∉ tr

/-- A referred event is set. -/
lemma State.Refers.isSet {s : State} {e : EvId} (h : s.Refers e) (hwf : Wf s) : s.isSet e := by
  rcases h with h | ⟨t, b, k, todo, done, hph, rfl⟩ | ⟨t, b, a, todo, done, enlist, hph, rfl⟩
  · exact h
  · exact hwf.batch t k.udata (by simp [hph, Phase.batch, Phase.toLock])
  · exact hwf.batch t a.kev.udata (by simp [hph, Phase.batch, Phase.toLock])

lemma firstSet_sync_of_isSet {s : State} {e : EvId} (h : s.isSet e) :
    (s.evs e).firstSet.sync = (s.evs e).sync := by
  simp [Event.firstSet, show (s.evs e).cvInit = cvInitMagic from h]

lemma firstSet_sync_of_unset {s : State} {e : EvId} (h : ¬ s.isSet e) :
    (s.evs e).firstSet.sync = .live := by
  simp [Event.firstSet, show (s.evs e).cvInit ≠ cvInitMagic from h]

/-- A use finds the objects of an event as they are, or `event_set` has just initialised them. -/
lemma Step.use_cases {c : Cfg} {s s' : State} {l : Label} {o : List Obs} (hs : Step c s l s' o)
    (hwf : Wf s) {op : SyncOp} {e : EvId} {st : SyncState} (ho : .sync op e st ∈ o) :
    s.isSet e ∧ st = (s.evs e).sync ∨ st = (s.evs e).firstSet.sync := by
  have huse : ∀ {e' : EvId}, s.isSet e' → e = e' ∧ st = (s.evs e').sync →
      s.isSet e ∧ st = (s.evs e).sync ∨ st = (s.evs e).firstSet.sync := by
    rintro e' hset ⟨rfl, hst⟩
    exact .inl ⟨hset, hst⟩
  have hbatch : ∀ {t : Tid} {ph : Phase} {e' : EvId}, (s.threads t).phase = ph → e' ∈ ph.batch →
      s.isSet e' := fun hph he => hwf.batch _ _ (hph ▸ he)
  cases hs with
  | fetch | ret | toCalling | toFinishing | enable | toIdle | addLock | spurious | close | invoke
  | baseSetErr | baseSetOk | addBusy | addInval | cleanup => simp at ho
  | activate hph | finishSkip hph | finishKeep hph | finishFail hph | finishDel hph =>
    simp only [State.use, List.mem_cons, Obs.sync.injEq, List.not_mem_nil, or_false] at ho
    exact huse (hbatch hph (by simp [Phase.batch, Phase.toLock])) (ho.elim And.right And.right)
  | unlock hph =>
    simp only [State.use, List.mem_cons, Obs.sync.injEq, List.not_mem_nil, or_false] at ho
    exact huse (hbatch hph (by simp [Phase.batch, Phase.locked])) ho.2
  | set =>
    simp only [List.mem_cons, Obs.sync.injEq, List.not_mem_nil, or_false] at ho
    rcases ho with ⟨-, rfl, rfl⟩ | ⟨-, rfl, rfl⟩
    · exact .inr rfl
    · exact .inr rfl
  | addErr hcall | addOk hcall =>
    simp only [State.use, List.mem_cons, Obs.sync.injEq, List.not_mem_nil, or_false,
      reduceCtorEq] at ho
    refine huse (hwf.addLock _ _ _ hcall).1 ?_
    tauto
  | delErr hdel | delWait hdel | delOk hdel =>
    simp only [State.use, List.mem_cons, Obs.sync.injEq, List.not_mem_nil, or_false,
      reduceCtorEq] at ho
    refine huse (hdel.isSet hwf) ?_
    tauto
  | abort hl hab =>
    rcases hab with rfl | ⟨e', st', rfl, ⟨rfl, href⟩ | rfl⟩
    · simp at ho
    · simp only [List.mem_singleton, Obs.sync.injEq] at ho
      exact huse (href.isSet hwf) ho.2
    · simp only [List.mem_singleton, Obs.sync.injEq] at ho
      obtain ⟨-, rfl, rfl⟩ := ho
      exact .inr rfl

/-- A store that keeps the marks of the life cycle. -/
lemma life_setEv {p : Proc} {e' : EvId} {ev : Event} (hcv : ev.cvInit = (p.evs e').cvInit)
    (hsync : ev.sync = (p.evs e').sync) (e : EvId) :
    (((p.setEv e' ev).evs e).cvInit = cvInitMagic ↔ (p.evs e).cvInit = cvInitMagic) ∧
      ((p.setEv e' ev).evs e).sync = (p.evs e).sync := by
  rw [Proc.setEv_evs]
  split
  · next h => rw [h, hcv, hsync]; exact ⟨.rfl, rfl⟩
  · exact ⟨.rfl, rfl⟩

/-- What a step does to the objects of an event: nothing, or it initialises or destroys them. -/
lemma Step.life_cases {c : Cfg} {s s' : State} {l : Label} {o : List Obs} (hs : Step c s l s' o)
    (e : EvId) : (s'.isSet e ↔ s.isSet e) ∧ (s'.evs e).sync = (s.evs e).sync ∧ .cleanup e ∉ o ∨
      ¬ s.isSet e ∧ s'.isSet e ∧ (s'.evs e).sync = .live ∧ .cleanup e ∉ o ∨
      s.isSet e ∧ s'.isSet e ∧ (s'.evs e).sync = .destroyed ∧ o = [.cleanup e] := by
  cases hs with
  | fetch | enable | ret | toCalling | toFinishing | toIdle | close => exact .inl ⟨.rfl, rfl, by simp⟩
  | invoke | baseSetErr | addBusy | addInval | addErr | delErr =>
    exact .inl ⟨.rfl, rfl, by simp [State.use]⟩
  | abort hl ho =>
    refine .inl ⟨.rfl, rfl, ?_⟩
    rcases ho with rfl | ⟨e', st', rfl, -⟩ <;> simp
  | @addLock t e' =>
    obtain ⟨fd, h, -⟩ := patchTimerFd_evs s.toProc e' e
    refine .inl ?_
    simp [State.isSet, h]
  | activate | finishSkip | finishKeep | finishFail | finishDel | unlock | baseSetOk | delWait
  | spurious =>
    refine .inl (and_assoc.1 ⟨life_setEv ?_ ?_ e, by simp [State.use]⟩)
    · rfl
    · rfl
  | addOk | delOk =>
    refine .inl (and_assoc.1 ⟨life_setEv ?_ ?_ e, by simp [State.use]⟩)
    · exact Event.deactivate_cvInit _
    · exact Event.deactivate_sync _
  | @set t e' fd type fn arg hmay hlk hok =>
    simp only [State.isSet, State.setProc_toProc, Proc.setEv_evs]
    by_cases h : e = e'
    · subst h
      rw [if_pos rfl]
      by_cases hset : s.isSet e
      · refine .inl ⟨⟨fun _ => hset, fun _ => firstSet_cvInit _⟩, firstSet_sync_of_isSet hset, ?_⟩
        simp
      · refine .inr (.inl ⟨hset, firstSet_cvInit _, firstSet_sync_of_unset hset, ?_⟩)
        simp
    · rw [if_neg h]
      exact .inl ⟨.rfl, rfl, by simp⟩
  | @cleanup t e' hmay hset =>
    simp only [State.isSet, State.setProc_toProc, Proc.setEv_evs]
    by_cases h : e = e'
    · subst h
      rw [if_pos rfl]
      exact .inr (.inr ⟨hset, hset, rfl, rfl⟩)
    · rw [if_neg h]
      exact .inl ⟨.rfl, rfl, by simp [h]⟩

lemma LifeInv.step {c : Cfg} {s s' : State} {l : Label} {tr o : List Obs} {e : EvId}
    (h : LifeInv e tr s) (hs : Step c s l s' o) : LifeInv e (tr ++ o) s' := by
  rcases hs.life_cases e with ⟨hset, hsync, ho⟩ | ⟨hset, hset', hsync, ho⟩ | ⟨-, hset', hsync, rfl⟩
  · refine ⟨fun h' => ?_, fun h' => ?_⟩
    · rw [hsync, h.isSet (hset.1 h')]
      simp [ho]
    · simpa [ho] using h.unset (mt hset.2 h')
  · refine ⟨fun _ => ?_, fun h' => absurd hset' h'⟩
    rw [hsync, if_neg (by simpa [ho] using h.unset hset)]
  · exact ⟨fun _ => by simp [hsync], fun h' => absurd hset' h'⟩

/-- A use finds live objects exactly if there was no clean-up before. -/
lemma LifeInv.use {c : Cfg} {s s' : State} {l : Label} {tr o : List Obs} {e : EvId}
    (h : LifeInv e tr s) (hwf : Wf s) (hs : Step c s l s' o) {op : SyncOp} {st : SyncState}
    (ho : .sync op e st ∈ o) : st = .live ↔ .cleanup e ∉ tr := by
  by_cases hset : s.isSet e
  · have hst : st = (s.evs e).sync := by
      rcases hs.use_cases hwf ho with ⟨-, hst⟩ | hst
      · exact hst
      · rw [hst, firstSet_sync_of_isSet hset]
    rw [hst, h.isSet hset]
    split <;> simp [*]
  · rcases hs.use_cases hwf ho with ⟨hset', -⟩ | hst
    · exact absurd hset' hset
    · rw [hst, firstSet_sync_of_unset hset]
      simp [h.unset hset]

/-- One step more: the two properties of the trace are lost together. -/
lemma liveUses_append {e : EvId} {tr o : List Obs} (h : LiveUses e tr ↔ NoUseAfterCleanup e tr)
    (ho : .cleanup e ∉ o ∨ o = [.cleanup e])
    (hst : ∀ op st, .sync op e st ∈ o → (st = .live ↔ .cleanup e ∉ tr)) :
    LiveUses e (tr ++ o) ↔ NoUseAfterCleanup e (tr ++ o) := by
  have hpair : o.Pairwise fun x y => x = .cleanup e → ∀ op st, y ≠ .sync op e st := by
    rcases ho with ho | rfl
    · refine List.Pairwise.imp_of_mem (R := fun _ _ => True) ?_ (List.pairwise_of_forall (by simp))
      rintro x y hx - - rfl
      exact absurd hx ho
    · exact List.pairwise_singleton ..
  have hsplit : LiveUses e (tr ++ o) ↔ LiveUses e tr ∧ LiveUses e o := by
    simp only [LiveUses, List.mem_append]
    exact ⟨fun h => ⟨fun op st hx => h op st (.inl hx), fun op st hx => h op st (.inr hx)⟩,
      fun h op st hx => hx.elim (h.1 op st) (h.2 op st)⟩
  rw [hsplit, NoUseAfterCleanup, List.pairwise_append, h]
  refine and_congr_right fun _ => ?_
  constructor
  · rintro hlive
    refine ⟨hpair, ?_⟩
    rintro x hx y hy rfl op st rfl
    exact (hst op st hy).1 (hlive op st hy) hx
  · rintro ⟨-, hcross⟩ op st hx
    exact (hst op st hx).2 fun hc => hcross _ hc _ hx rfl op st rfl

/-- **When every use finds live objects.**  In every run, the uses of the mutex and the condition
variable of an event all find them initialised and not destroyed exactly if no use follows an
`event_cleanup` of the event. -/
theorem liveUses_iff (c : Cfg) {s₀ s : State} {tr : List Obs} (h0 : s₀.Init)
    (hr : Run (step c) anyStep s₀ tr s) (e : EvId) : LiveUses e tr ↔ NoUseAfterCleanup e tr := by
  have hinv : (LiveUses e tr ↔ NoUseAfterCleanup e tr) ∧ LifeInv e tr s ∧ Wf s := by
    refine hr.inv_trace
      (fun tr s => (LiveUses e tr ↔ NoUseAfterCleanup e tr) ∧ LifeInv e tr s ∧ Wf s) ?_ ?_
    · exact ⟨by simp [LiveUses, NoUseAfterCleanup],
        ⟨fun h => absurd h (h0.unset e), fun _ => List.not_mem_nil⟩, h0.wf⟩
    · rintro tr s l s' o ⟨hiff, hlife, hwf⟩ - hs
      have hstep := step_cases hs
      refine ⟨liveUses_append hiff ?_ fun op st => hlife.use hwf hstep, hlife.step hstep,
        hwf.step hstep⟩
      rcases hstep.life_cases e with ⟨-, -, ho⟩ | ⟨-, -, -, ho⟩ | ⟨-, -, -, ho⟩
      · exact .inl ho
      · exact .inl ho
      · exact .inr ho
  exact hinv.1

/-- An event is set up, registered, deleted and cleaned up. -/
theorem liveUses_closeRun : ∃ s tr, Run (step ⟨false, false⟩) anyStep State.zero tr s ∧
    (LiveUses 0 tr ↔ NoUseAfterCleanup 0 tr) ∧ .cleanup 0 ∈ tr ∧ .sync .lock 0 .live ∈ tr := by
  obtain ⟨s, tr, hr, htr⟩ := Run.exists_of_exec (step ⟨false, false⟩) State.zero
    (register 0 0 0 3 evRead none ++ [.del 0 0, .cleanup 0 0])
    (fun r => (r.2.contains (.cleanup 0), r.2.contains (.sync .lock 0 .live))) (true, true)
    (by decide +kernel) guarded_anyStep
  simp only [Prod.mk.injEq, List.contains_iff_mem] at htr
  exact ⟨s, tr, hr, liveUses_iff ⟨false, false⟩ State.zero_init hr 0, htr⟩

/-- **`event_set` after `event_cleanup` locks a destroyed mutex**: `cv_init` still says that the
event is initialised. -/
theorem not_liveUses_after_cleanup : ∃ s tr, Run (step ⟨false, false⟩) anyStep State.zero tr s ∧
    ¬ LiveUses 0 tr := by
  obtain ⟨s, tr, hr, htr⟩ := Run.exists_of_exec (step ⟨false, false⟩) State.zero
    (register 0 0 0 3 evRead none ++ [.del 0 0, .cleanup 0 0, .set 0 0 3 evRead 0 0])
    (fun r => r.2.contains (.sync .lock 0 .destroyed)) true (by decide +kernel) guarded_anyStep
  rw [List.contains_iff_mem] at htr
  refine ⟨s, tr, hr, fun h => ?_⟩
  cases h _ _ htr

end Skq.Evcompat
