import SkqBench.Lib.LockOrder
import SkqBench.Evcompat.Locks

/-!
# Deadlock in the finishing pass

The finishing pass locks the events of its batch one after the other, in fetch order, and releases
them together after `EV_ENABLE`.  An event that its handler has deleted and added again can be in
the batch of another thread at the same time, and nothing orders the two batches.  If the orders
agree (`FetchOrdered`), no cycle of waiting threads is reachable; two batches with the same two
events in opposite orders deadlock.
-/

namespace Skq.Evcompat

open Lib

/-- A finishing pass of `t` holds the mutex of `e`. -/
def Holds (s : State) (t : Tid) (e : EvId) : Prop := s.isSet e ∧ (s.evs e).lk = some t

/-- The next iteration of the finishing pass of `t` is blocked on the mutex of `e`. -/
def Wants (s : State) (t : Tid) (e : EvId) : Prop :=
  ∃ b a todo done enlist, (s.threads t).phase = .finishing b (a :: todo) done enlist ∧
    a.ev = e ∧ (s.evs e).lk ≠ none

/-- A cycle of loop threads, each blocked on a mutex the next one holds. -/
def Deadlocked (s : State) : Prop := Deadlock (Holds s) (Wants s)

/-- The pass has locked `e`, or will lock it, before it locks `e'`. -/
def Phase.Before (ph : Phase) (e e' : EvId) : Prop :=
  e ∈ ph.locked ∧ e' ∈ ph.toLock ∨ [e, e'].Sublist ph.toLock

/-- Some unfinished pass locks `e` before `e'`. -/
def LockOrder (s : State) (e e' : EvId) : Prop := ∃ t, (s.threads t).phase.Before e e'

/-- The kernel returns no batch whose order conflicts with the unfinished batches of the other
threads. -/
def FetchOrdered (s : State) (l : Label) : Prop :=
  ∀ t b slots evl kq, l = .fetch t b slots → (s.kqs b).fetch slots = some (evl, kq) →
    Acyclic fun e e' => LockOrder s e e' ∨ [e, e'].Sublist (evl.map KEvent.udata)

/-- A step that is not a fetch adds nothing to the order. -/
lemma Step.lockOrder {c : Cfg} {s s' : State} {l : Label} {o : List Obs} (hs : Step c s l s' o)
    {e e' : EvId} (h : LockOrder s' e e') : LockOrder s e e' ∨
      ∃ t b slots evl kq, l = .fetch t b slots ∧ (s.kqs b).fetch slots = some (evl, kq) ∧
        [e, e'].Sublist (evl.map KEvent.udata) := by
  obtain ⟨t, hbefore⟩ := h
  have hstep : ∀ {u : Tid} {ph : Phase}, (ph.Before e e' → (s.threads u).phase.Before e e') →
      (if t = u then { s.threads u with phase := ph } else s.threads t).phase.Before e e' →
      LockOrder s e e' := by
    intro u ph hsub hmem
    split at hmem
    · exact ⟨u, hsub hmem⟩
    · exact ⟨t, hmem⟩
  cases hs with
  | @fetch u b slots evl kq hth hlen hf =>
    simp only [State.setPhase_threads, State.setProc_threads] at hbefore
    split at hbefore
    · refine .inr ⟨u, b, slots, evl, kq, rfl, hf, ?_⟩
      simpa [Phase.Before, Phase.locked, Phase.toLock] using hbefore
    · exact .inl ⟨t, hbefore⟩
  | activate hph | ret hph | toCalling hph | invoke hph | toFinishing hph =>
    simp only [State.setPhase_threads, State.setProc_threads] at hbefore
    refine .inl (hstep (fun h => ?_) hbefore)
    simpa [hph, Phase.Before, Phase.locked, Phase.toLock] using h
  | finishSkip hph | finishKeep hph | finishFail hph | finishDel hph =>
    simp only [State.setPhase_threads, State.setProc_threads] at hbefore
    refine .inl (hstep (fun h => ?_) hbefore)
    simp only [Phase.Before, Phase.locked, Phase.toLock, List.map_append, List.map_cons,
      List.map_nil, List.mem_append, List.mem_singleton] at h
    simp only [hph, Phase.Before, Phase.locked, Phase.toLock, List.map_cons, List.mem_cons]
    rcases h with ⟨h | h, h'⟩ | h
    · exact .inl ⟨h, .inr h'⟩
    · exact .inr (by rw [h]; exact (List.singleton_sublist.2 h').cons_cons _)
    · exact .inr (h.cons _)
  | enable hph | unlock hph | toIdle hph =>
    simp only [State.setPhase_threads, State.setProc_threads] at hbefore
    refine .inl (hstep (fun h => ?_) hbefore)
    simp [Phase.Before, Phase.toLock] at h
  | baseSetErr | addBusy | addInval | close | abort | set | baseSetOk | spurious | cleanup =>
    exact .inl ⟨t, hbefore⟩
  | addLock | addErr | addOk | delErr | delWait | delOk =>
    simp only [State.setCall_threads, State.setProc_threads] at hbefore
    split at hbefore
    · next h => subst h; exact .inl ⟨t, hbefore⟩
    · exact .inl ⟨t, hbefore⟩

/-- Agreeing fetches keep the order acyclic. -/
lemma FetchOrdered.acyclic {c : Cfg} {s s' : State} {l : Label} {o : List Obs}
    (hok : FetchOrdered s l) (hs : Step c s l s' o) (h : Acyclic (LockOrder s)) :
    Acyclic (LockOrder s') := by
  by_cases hl : ∃ t b slots, l = .fetch t b slots
  · obtain ⟨t, b, slots, rfl⟩ := hl
    cases hs with
    | @fetch t b slots evl kq hth hlen hf =>
      refine (hok t b slots evl kq rfl hf).mono fun e e' hord => ?_
      rcases (Step.fetch (c := c) hth hlen hf).lockOrder hord with
        h | ⟨_, _, _, evl', kq', heq, hf', hsub⟩
      · exact .inl h
      · obtain ⟨rfl, rfl, rfl⟩ := Label.fetch.inj heq
        rw [hf] at hf'
        obtain ⟨rfl, rfl⟩ := Prod.mk.inj (Option.some.inj hf')
        exact .inr hsub
    | delErr hdel | delWait hdel | delOk hdel => rcases hdel.label with h | h <;> cases h
    | abort => exact h
  · refine h.mono fun e e' hord => ?_
    rcases hs.lockOrder hord with h | ⟨t, b, slots, -, -, heq, -⟩
    · exact h
    · exact absurd ⟨t, b, slots, heq⟩ hl

/-- In a state whose batches agree on an order, the finishing passes are not deadlocked. -/
lemma not_deadlocked_of_acyclic {s : State} (hlk : LockInv s) (hac : Acyclic (LockOrder s)) :
    ¬ Deadlocked s := by
  refine not_deadlock_of_acyclic ?_ ?_ hac
  · rintro t e e' ⟨b, a, todo, done, enlist, hph, rfl, -⟩
      ⟨b', a', todo', done', enlist', hph', rfl, -⟩
    rw [hph] at hph'
    obtain ⟨-, hl, -⟩ := Phase.finishing.inj hph'
    rw [(List.cons.inj hl).1]
  · rintro t e e' ⟨hset, hheld⟩ ⟨b, a, todo, done, enlist, hph, rfl, -⟩
    refine ⟨t, .inl ⟨hlk.locked t e hset hheld, ?_⟩⟩
    simp [hph, Phase.toLock]

lemma State.Init.acyclic {s : State} (h : s.Init) : Acyclic (LockOrder s) := by
  intro e hcycle
  obtain ⟨e', ⟨t, hbefore⟩, -⟩ := Relation.TransGen.head'_iff.1 hcycle
  simp [h.threads t, Phase.Before, Phase.locked, Phase.toLock] at hbefore

/-- **No deadlock between finishing passes**, whatever the handlers do, in every run in which the
kernel returns no batch whose order conflicts with the unfinished batches of other threads. -/
theorem not_deadlocked (c : Cfg) {s₀ s : State} {tr : List Obs} (h0 : s₀.Init)
    (hr : Run (step c) FetchOrdered s₀ tr s) : ¬ Deadlocked s := by
  have hinv : (LockInv s ∧ Wf s) ∧ Acyclic (LockOrder s) := by
    refine hr.inv (fun s => (LockInv s ∧ Wf s) ∧ Acyclic (LockOrder s))
      ⟨⟨h0.lockInv, h0.wf⟩, h0.acyclic⟩ ?_
    rintro s l s' o ⟨⟨hlk, hwf⟩, hac⟩ hok hs
    have hstep := step_cases hs
    exact ⟨⟨hlk.step hwf hstep, hwf.step hstep⟩, hok.acyclic hstep hac⟩
  exact not_deadlocked_of_acyclic hinv.1.1 hinv.2

/-- Two events of one base: each fetched once, in this order, by one thread. -/
def orderedRun : List Label :=
  register 2 0 0 3 (evRead ||| evPersist) none ++ register 2 0 1 4 (evRead ||| evPersist) none ++
    [.fetch 0 0 [(3, .read), (4, .read)], .activate 0, .activate 0, .advance 0, .invoke 0, .ret 0,
      .invoke 0, .ret 0, .advance 0, .finish 0 0]

lemma fetchOrdered_of_not_fetch {s : State} {l : Label} (h : ∀ t b slots, l ≠ .fetch t b slots) :
    FetchOrdered s l := fun t b slots _ _ hl => absurd hl (h t b slots)

/-- Nothing is ordered yet when a batch is fetched while every thread is idle. -/
lemma fetchOrdered_of_idle {s : State} {l : Label} (hidle : ∀ t, (s.threads t).phase = .idle)
    (hlt : ∀ t b slots evl kq, l = .fetch t b slots → (s.kqs b).fetch slots = some (evl, kq) →
      (evl.map KEvent.udata).Pairwise (· < ·)) : FetchOrdered s l := by
  intro t b slots evl kq hl hf
  refine acyclic_of_lt fun e e' h => ?_
  rcases h with ⟨u, h⟩ | h
  · simp [hidle u, Phase.Before, Phase.locked, Phase.toLock] at h
  · simpa using (hlt t b slots evl kq hl hf).sublist h

lemma orderedRun_guarded : Guarded (step ⟨false, false⟩) FetchOrdered State.zero orderedRun := by
  refine ⟨?_, ?_, ?_, ?_, ?_, ?_, ?_, ?_, ?_, ?_, ?_, ?_, ?_, ?_, ?_, ?_, ?_, ?_, trivial⟩
  pick_goal 9
  · refine fetchOrdered_of_idle (fun u => ?_) fun t b slots evl kq hl hf => ?_
    · rcases u with _ | _ | _ | u <;> rfl
    · obtain ⟨rfl, rfl, rfl⟩ := Label.fetch.inj hl
      obtain ⟨rfl, -⟩ := Prod.mk.inj (Option.some.inj hf)
      decide
  all_goals exact fetchOrdered_of_not_fetch (by simp)

/-- The run above, in the middle of its finishing pass. -/
theorem not_deadlocked_orderedRun : ∃ s tr, Run (step ⟨false, false⟩) FetchOrdered State.zero tr s ∧
    ¬ Deadlocked s ∧ (s.evs 0).lk = some 0 := by
  obtain ⟨s, tr, hr, hlk⟩ := Run.exists_of_exec (step ⟨false, false⟩) State.zero orderedRun
    (fun r => (r.1.evs 0).lk) (some 0) (by decide +kernel) orderedRun_guarded
  exact ⟨s, tr, hr, not_deadlocked ⟨false, false⟩ State.zero_init hr, hlk⟩

/-- Inside a handler only the calls on its own event are made. -/
def ownEvent (s : State) : Label → Bool
  | .set t e _ _ _ _ | .baseSet t _ e | .add t e _ | .del t e =>
    ((s.threads t).phase.running.map Active.ev).all (· == e)
  | .cleanup _ _ | .close _ => false
  | _ => true

/-- Two events; thread 0 has both in its batch and re-adds each in its handler, thread 1 fetches
them in the opposite order, and both threads begin their finishing pass. -/
def crossedRun : List Label :=
  register 2 0 0 3 (evRead ||| evPersist) none ++ register 2 0 1 4 (evRead ||| evPersist) none ++
    [.fetch 0 0 [(3, .read), (4, .read)], .activate 0, .activate 0, .advance 0,
      .invoke 0, .del 0 0, .add 0 0 none, .addLocked 0 true, .ret 0,
      .invoke 0, .del 0 1, .add 0 1 none, .addLocked 0 true, .ret 0, .advance 0,
      .fetch 1 0 [(4, .read), (3, .read)], .activate 1, .activate 1, .advance 1,
      .invoke 1, .ret 1, .invoke 1, .ret 1, .advance 1,
      .finish 0 0, .finish 1 0]

/-- **Two finishing passes deadlock.**  Every handler deletes and adds its own event and uses no
other, yet in the end thread 0 holds the mutex of event 0 and waits for that of event 1, and
thread 1 the other way round. -/
theorem deadlocked_crossedRun : ∃ s tr,
    Run (step ⟨false, false⟩) (fun s l => ownEvent s l = true) State.zero tr s ∧ Deadlocked s := by
  set k : EvId → KEvent := fun e => ⟨3 + e, .read, true, false, 0, e⟩ with hk
  obtain ⟨s, tr, hr, hs⟩ := Run.exists_of_exec (step ⟨false, false⟩) State.zero crossedRun
    (fun r => ([0, 1].map fun e => ((r.1.evs e).lk, (r.1.evs e).cvInit),
      [0, 1].map fun t => (r.1.threads t).phase))
    ([(some 0, cvInitMagic), (some 1, cvInitMagic)],
      [.finishing 0 [⟨k 1, 0⟩] [⟨k 0, 0⟩] [], .finishing 0 [⟨k 0, 1⟩] [⟨k 1, 1⟩] [k 1]])
    (by decide +kernel)
    (show Guarded (step ⟨false, false⟩) (fun s l => ownEvent s l = true) State.zero crossedRun by
      decide +kernel)
  simp only [List.map_cons, List.map_nil, Prod.mk.injEq, List.cons.injEq, and_true] at hs
  obtain ⟨⟨⟨hlk₀, hset₀⟩, hlk₁, hset₁⟩, hph₀, hph₁⟩ := hs
  have hwait₀ : WaitsFor (Holds s) (Wants s) 0 1 :=
    ⟨1, ⟨0, _, _, _, _, hph₀, rfl, by simp [hlk₁]⟩, hset₁, hlk₁⟩
  have hwait₁ : WaitsFor (Holds s) (Wants s) 1 0 :=
    ⟨0, ⟨0, _, _, _, _, hph₁, rfl, by simp [hlk₀]⟩, hset₀, hlk₀⟩
  exact ⟨s, tr, hr, 0, .tail (.single hwait₀) hwait₁⟩

end Skq.Evcompat
