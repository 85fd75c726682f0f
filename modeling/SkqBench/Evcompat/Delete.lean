import SkqBench.Lib.Trace
import SkqBench.Evcompat.Batch

/-!
# No callback after a delete

After `event_del` has returned `CS_OK`, and until an `event_add` of the event succeeds, its
handler should not be called.  The callback loop calls the handler of everything the pass has
activated, and the activation loop activates everything `kevent()` has returned; neither looks at
what happened to the event since the fetch.  So the property holds as long as an `event_del` only
deletes an event that no thread has in its batch with the handler still to come, and whose knote
is the one the call addresses (`DelUnseen`); it fails for an event later in the batch of the
handler that deletes it.
-/

namespace Skq.Evcompat

open Lib

/-- `event_del(e)` returns `CS_OK`. -/
def IsDelOk (e : EvId) (x : Obs) : Prop := ∃ t, x = .result t (.del e) .ok

/-- `event_add(e)` returns `CS_OK`. -/
def IsAddOk (e : EvId) (x : Obs) : Prop := ∃ t, x = .result t (.add e) .ok

/-- An invocation of the handler of `e` begins. -/
def IsInvoke (e : EvId) (x : Obs) : Prop := ∃ t fn fd arg, x = .invoke t e fn fd arg

/-- Between an `event_del(e)` that returned `CS_OK` and the next `event_add(e)` that did, no
invocation of the handler of `e` begins. -/
def NoInvokeAfterDel (e : EvId) (tr : List Obs) : Prop :=
  NoneBetween (IsDelOk e) (IsAddOk e) (IsInvoke e) tr

/-- An `event_del` that is about to delete finds no thread with the event in its batch and the
handler still to be called, and the knote it deletes is the only one that carries the event. -/
def DelUnseen (c : Cfg) (s : State) (l : Label) : Prop :=
  ∀ t e base k op, DelCall c s l t e base (some k) op → (s.evs e).pending = true →
    ((s.evs e).active = true → (s.evs e).owner = some t) →
    (∀ u, e ∉ (s.threads u).phase.unbegun) ∧
      ∀ b x kn, s.kqs b x = some kn → kn.kev.udata = e → b = base ∧ x = k.slot

/-- Nothing is left that could lead to an invocation of the handler of `e`. -/
structure Gone (s : State) (e : EvId) : Prop where
  unbegun : ∀ t, e ∉ (s.threads t).phase.unbegun
  knote : ∀ b x kn, s.kqs b x = some kn → kn.kev.udata ≠ e

/-- A step that is not a successful `event_add(e)` keeps `Gone`. -/
lemma Gone.step {c : Cfg} {s s' : State} {l : Label} {o : List Obs} {e : EvId} (h : Gone s e)
    (hwf : Wf s) (hs : Step c s l s' o) (hadd : ∀ x ∈ o, ¬ IsAddOk e x) : Gone s' e := by
  refine ⟨fun u hu => ?_, fun b x kn hkn heq => ?_⟩
  · rcases hs.unbegun_source hu with hu | ⟨b, x, kn, hkn, -, heq⟩
    · exact h.unbegun u hu
    · exact h.knote b x kn hkn heq
  · rcases hs.knote_source hkn with ⟨kn', hkn', hkev⟩ | ⟨t, e', -, hcall, -, -, hobs⟩
    · exact h.knote b x kn' hkn' (by rw [hkev, heq])
    · have he' : e' = e := by rw [← heq, (hwf.addLock t e' kn.kev hcall).2]
      exact hadd _ hobs ⟨t, by rw [he']⟩

/-- A deletion that meets the guard leaves nothing behind. -/
lemma DelUnseen.gone {c : Cfg} {s : State} {l : Label} {t : Tid} {e : EvId} {base : BaseId}
    {k : KEvent} {op : SyncOp} {ev : Event} (hok : DelUnseen c s l)
    (hdel : DelCall c s l t e base (some k) op) (hpend : (s.evs e).pending = true)
    (hown : (s.evs e).active = true → (s.evs e).owner = some t) :
    Gone ((s.setProc ((s.setKq base (Function.update (s.kqs base) k.slot none)).setEv e
      ev)).setCall t none) e := by
  obtain ⟨hbatch, honly⟩ := hok t e base k op hdel hpend hown
  refine ⟨fun u => ?_, fun b x kn hkn heq => ?_⟩
  · simp only [State.setCall_threads, State.setProc_threads]
    split
    · next hu => subst hu; exact hbatch u
    · exact hbatch u
  · simp only [State.setCall_toProc, State.setProc_toProc, Proc.setEv_kqs, Proc.setKq_kqs] at hkn
    split at hkn
    · next hb =>
      subst hb
      obtain ⟨-, rfl⟩ := honly b x kn (mem_of_update_none hkn) heq
      simp at hkn
    · next hb => exact hb (honly b x kn hkn heq).1

/-- The invariant of the monitor: once it is on, nothing is left of the event. -/
lemma noInvokeAfterDel_inv {c : Cfg} {s₀ s : State} {tr : List Obs} (h0 : s₀.Init)
    (hr : Run (step c) (DelUnseen c) s₀ tr s) (e : EvId) :
    (NoInvokeAfterDel e tr ∧ (Armed (IsDelOk e) (IsAddOk e) tr → Gone s e)) ∧ Wf s := by
  refine hr.inv_trace (fun tr s =>
    (NoInvokeAfterDel e tr ∧ (Armed (IsDelOk e) (IsAddOk e) tr → Gone s e)) ∧ Wf s)
    ⟨by simp [NoInvokeAfterDel], h0.wf⟩ ?_
  rintro tr s l s' o ⟨⟨hno, hgone⟩, hwf⟩ hok hs
  have hstep := step_cases hs
  refine ⟨?_, hwf.step hstep⟩
  have hquiet : (∀ x ∈ o, ¬ IsDelOk e x ∧ ¬ IsInvoke e x) → (∀ x ∈ o, ¬ IsAddOk e x) →
      NoInvokeAfterDel e (tr ++ o) ∧ (Armed (IsDelOk e) (IsAddOk e) (tr ++ o) → Gone s' e) := by
    intro ho hadd
    obtain ⟨hno', harm⟩ := noneBetween_append_of_quiet hno ho
    exact ⟨hno', fun ha => (hgone (harm ha)).step hwf hstep hadd⟩
  cases hstep with
  | @invoke t b a todo done hph =>
    by_cases hae : a.ev = e
    · have hmem : e ∈ (s.threads t).phase.unbegun := by
        rw [hph, ← hae]
        simp [Phase.unbegun]
      have hoff : ¬ Armed (IsDelOk e) (IsAddOk e) tr := fun ha => (hgone ha).unbegun t hmem
      obtain ⟨hno', harm⟩ := noneBetween_append_last (o := [])
        (y := .invoke t a.ev (s.evs a.ev).fn (s.evs a.ev).fd (s.evs a.ev).arg) hno (by simp)
        (fun ha => absurd ha hoff)
      refine ⟨hno', fun ha => absurd (harm ha) ?_⟩
      simp [hoff, IsDelOk]
    · exact hquiet (by simp [IsDelOk, IsInvoke, show a.kev.udata ≠ e from hae])
        (by simp [IsAddOk])
  | @delOk _ t e' base k kn op hdel hpend hown hkn =>
    by_cases he : e' = e
    · subst he
      obtain ⟨hno', -⟩ := noneBetween_append_last (o := [s.use op e', s.use .unlock e'])
        (y := .result t (.del e') .ok) hno (by simp [IsDelOk, IsInvoke, State.use])
        (fun _ => by simp [IsInvoke])
      exact ⟨hno', fun _ => hok.gone hdel hpend hown⟩
    · exact hquiet (by simp [IsDelOk, IsInvoke, State.use, he]) (by simp [IsAddOk, State.use])
  | @addOk t e' kev base hcall hlk hbase =>
    by_cases he : e' = e
    · subst he
      obtain ⟨hno', harm⟩ := noneBetween_append_last (o := [s.use .lock e', s.use .unlock e'])
        (y := .result t (.add e') .ok) hno (by simp [IsDelOk, IsInvoke, State.use])
        (fun _ => by simp [IsInvoke])
      refine ⟨hno', fun ha => absurd (harm ha) ?_⟩
      simp [IsDelOk, IsAddOk]
    · exact hquiet (by simp [IsDelOk, IsInvoke, State.use]) (by simp [IsAddOk, State.use, he])
  | fetch | ret | toCalling | toFinishing | enable | toIdle | addLock | spurious | close =>
    exact hquiet (by simp) (by simp)
  | activate | finishSkip | finishKeep | finishFail | finishDel | unlock | set | baseSetErr
  | baseSetOk | addBusy | addInval | addErr | delErr | delWait | cleanup =>
    exact hquiet (by simp [IsDelOk, IsInvoke, State.use]) (by simp [IsAddOk, State.use])
  | abort hl ho =>
    rcases ho with rfl | ⟨e', st, rfl, -⟩
    · exact hquiet (by simp) (by simp)
    · exact hquiet (by simp [IsDelOk, IsInvoke]) (by simp [IsAddOk])

/-- **No callback after a delete**, in every run in which every `event_del` that deletes does so
while no batch still has the handler of the event to call. -/
theorem noInvokeAfterDel (c : Cfg) {s₀ s : State} {tr : List Obs} (h0 : s₀.Init)
    (hr : Run (step c) (DelUnseen c) s₀ tr s) (e : EvId) : NoInvokeAfterDel e tr :=
  (noInvokeAfterDel_inv h0 hr e).1.1

lemma delUnseen_of_not_del {c : Cfg} {s : State} {l : Label} (h₁ : ∀ t e, l ≠ .del t e)
    (h₂ : ∀ t, l ≠ .delWake t) : DelUnseen c s l := by
  intro t e base k op hdel
  rcases hdel.label with h | h
  · exact absurd h (h₁ _ _)
  · exact absurd h (h₂ _)

/-- An event is deleted, added again, and then handled. -/
def readdRun : List Label :=
  register 1 0 0 3 (evRead ||| evPersist) none ++ [.del 1 0, .add 1 0 none, .addLocked 1 true] ++
    [.fetch 0 0 [(3, .read)], .activate 0, .advance 0, .invoke 0]

lemma readdRun_guarded : Guarded (step ⟨false, false⟩) (DelUnseen ⟨false, false⟩) State.zero
    readdRun := by
  refine ⟨?_, ?_, ?_, ?_, ?_, ?_, ?_, ?_, ?_, ?_, ?_, trivial⟩
  pick_goal 5
  · intro t e base k op hdel _ _
    obtain ⟨rfl, rfl, hbase, hkev⟩ := hdel.inv_del
    refine ⟨fun u => ?_, fun b x kn hkn _ => ?_⟩
    · rcases u with _ | _ | u <;> exact List.not_mem_nil
    · obtain rfl := Option.some.inj hbase
      obtain rfl := Option.some.inj hkev
      rcases b with _ | b
      · refine ⟨rfl, ?_⟩
        by_contra hx
        cases (Function.update_of_ne hx _ _).symm.trans hkn
      · cases hkn
  all_goals exact delUnseen_of_not_del (by simp) (by simp)

/-- The run above deletes the event, and its handler is called later, after the new
`event_add`. -/
theorem noInvokeAfterDel_readdRun : ∃ s tr, Run (step ⟨false, false⟩) (DelUnseen ⟨false, false⟩)
    State.zero tr s ∧ NoInvokeAfterDel 0 tr ∧ .result 1 (.del 0) .ok ∈ tr ∧
      .invoke 0 0 0 3 0 ∈ tr := by
  obtain ⟨s, tr, hr, htr⟩ := Run.exists_of_exec (step ⟨false, false⟩) State.zero readdRun
    (fun r => (r.2.contains (.result 1 (.del 0) .ok), r.2.contains (.invoke 0 0 0 3 0)))
    (true, true) (by decide +kernel) readdRun_guarded
  simp only [Prod.mk.injEq, List.contains_iff_mem] at htr
  exact ⟨s, tr, hr, noInvokeAfterDel ⟨false, false⟩ State.zero_init hr 0, htr⟩

/-- Two events in one batch; the handler of the first deletes the second. -/
def siblingRun : List Label :=
  register 0 0 0 3 (evRead ||| evPersist) none ++ register 0 0 1 4 (evRead ||| evPersist) none ++
    [.fetch 0 0 [(3, .read), (4, .read)], .activate 0, .activate 0, .advance 0, .invoke 0,
      .del 0 1, .ret 0, .invoke 0]

/-- **The callback loop ignores a deletion.**  One thread has both events in its batch; the
handler of the first deletes the second, `event_del` returns `CS_OK`, and the handler of the
second is called. -/
theorem invoke_after_del : ∃ s tr, Run (step ⟨false, false⟩) anyStep State.zero tr s ∧
    ¬ NoInvokeAfterDel 1 tr := by
  obtain ⟨s, tr, hr, htr⟩ := Run.exists_of_exec (step ⟨false, false⟩) State.zero siblingRun
    (fun r => r.2.drop 19) [.result 0 (.del 1) .ok, .invoke 0 1 0 4 0] (by decide +kernel)
    guarded_anyStep
  refine ⟨s, tr, hr, fun hno => ?_⟩
  have hsplit : tr = tr.take 19 ++ .result 0 (.del 1) .ok :: [] ++ .invoke 0 1 0 4 0 :: [] := by
    conv_lhs => rw [← List.take_append_drop 19 tr, htr]
    simp
  exact hno _ _ _ _ _ hsplit ⟨0, rfl⟩ (by simp) ⟨0, 0, 4, 0, rfl⟩

end Skq.Evcompat
