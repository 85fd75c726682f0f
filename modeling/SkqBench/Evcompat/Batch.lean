import SkqBench.Evcompat.Views

/-!
# What a thread holds of its batch

Views of a `Phase`: which fetched events it has not activated yet, whose handlers it has not
called yet, which entries its finishing pass will still act on, which locks it holds and which it
will still take.
-/

namespace Skq.Evcompat

/-- The event of an entry. -/
abbrev Active.ev (a : Active) : EvId := a.kev.udata

namespace Phase

/-- Fetched and not yet activated. -/
def fetched : Phase → List KEvent
  | .activating _ todo _ => todo
  | _ => []

/-- Activated, and not yet seen by the finishing pass. -/
def activated : Phase → List Active
  | .activating _ _ done => done
  | .calling _ _ todo done => done ++ todo
  | .finishing _ todo _ _ => todo
  | _ => []

/-- Fetched, and the handler has not been called yet. -/
def unbegun : Phase → List EvId
  | .activating _ todo done => done.map Active.ev ++ todo.map KEvent.udata
  | .calling _ false todo _ => todo.map Active.ev
  | .calling _ true (_ :: todo) _ => todo.map Active.ev
  | _ => []

/-- To be enabled again. -/
def enlist : Phase → List KEvent
  | .finishing _ _ _ enlist => enlist
  | _ => []

/-- Locked by the finishing pass. -/
def locked : Phase → List EvId
  | .finishing _ _ done _ => done.map Active.ev
  | .unlocking _ todo => todo.map Active.ev
  | _ => []

/-- Still to be locked by the finishing pass, in this order. -/
def toLock : Phase → List EvId
  | .activating _ todo done => done.map Active.ev ++ todo.map KEvent.udata
  | .calling _ _ todo done => done.map Active.ev ++ todo.map Active.ev
  | .finishing _ todo _ _ => todo.map Active.ev
  | _ => []

/-- The batch, up to what has been unlocked. -/
def batch (ph : Phase) : List EvId := ph.locked ++ ph.toLock

/-- The base of the pass. -/
def base : Phase → Option BaseId
  | .idle => none
  | .activating b _ _ => some b
  | .calling b _ _ _ => some b
  | .finishing b _ _ _ => some b
  | .unlocking b _ => some b

/-- The event whose handler is running. -/
def running : Phase → Option Active
  | .calling _ true (a :: _) _ => some a
  | _ => none

end Phase

lemma Thread.mayCall_iff {th : Thread} : th.mayCall = true ↔
    th.call = none ∧ (th.phase = .idle ∨ ∃ b todo done, th.phase = .calling b true todo done) := by
  obtain ⟨ph, call⟩ := th
  cases call with
  | some => simp [Thread.mayCall]
  | none =>
    cases ph with
    | calling b run todo done => cases run <;> simp [Thread.mayCall]
    | _ => simp [Thread.mayCall]

/-- The event a fetch returns a knote for. -/
lemma fetch_mem {kq kq' : Kqueue} {slots : List Slot} {evl : List KEvent}
    (h : kq.fetch slots = some (evl, kq')) {k : KEvent} (hk : k ∈ evl) :
    ∃ x kn, kq x = some kn ∧ kn.enabled = true ∧ kn.kev = k := by
  obtain ⟨y, -, kn, hkn, hen, hkev⟩ := ((Kqueue.fetch_spec h).2.2.2.1 k).1 hk
  exact ⟨y, kn, hkn, hen, hkev⟩

/-- A fetch keeps every registration. -/
lemma fetch_kev {kq kq' : Kqueue} {slots : List Slot} {evl : List KEvent}
    (h : kq.fetch slots = some (evl, kq')) (x : Slot) :
    (kq' x).map Knote.kev = (kq x).map Knote.kev := by
  rw [(Kqueue.fetch_spec h).2.1 x]
  split
  · cases kq x <;> rfl
  · rfl

/-- `EV_ENABLE` keeps every registration. -/
lemma enableAll_kev (kq : Kqueue) (ks : List KEvent) (x : Slot) :
    ((kq.enableAll ks).1 x).map Knote.kev = (kq x).map Knote.kev := by
  rcases Kqueue.enableAll_apply ks kq x with h | ⟨kn, hkn, h, -⟩
  · rw [h]
  · rw [h, hkn]; rfl

/-! ## Where a registration comes from -/

lemma exists_kev_of_map {o o' : Option Knote} (h : o'.map Knote.kev = o.map Knote.kev)
    {kn : Knote} (hkn : o' = some kn) : ∃ kn', o = some kn' ∧ kn'.kev = kn.kev := by
  subst hkn
  cases o with
  | none => simp at h
  | some kn' => exact ⟨kn', rfl, by simpa using h.symm⟩

lemma mem_of_update_none {kq : Kqueue} {x y : Slot} {kn : Knote}
    (h : Function.update kq x none y = some kn) : kq y = some kn := by
  rw [Function.update_apply] at h
  split at h
  · simp at h
  · exact h

/-- A registration after a step was there before, or the step is the `EV_ADD` of an
`event_add`. -/
lemma Step.knote_source {c : Cfg} {s s' : State} {l : Label} {o : List Obs}
    (hs : Step c s l s' o) {b : BaseId} {x : Slot} {kn : Knote} (hkn : s'.kqs b x = some kn) :
    (∃ kn', s.kqs b x = some kn' ∧ kn'.kev = kn.kev) ∨
      ∃ t e, l = .addLocked t true ∧ (s.threads t).call = some (.addLock e kn.kev) ∧
        (s.evs e).evBase = some b ∧ kn.kev.slot = x ∧ .result t (.add e) .ok ∈ o := by
  cases hs with
  | @fetch t b' slots evl kq hth hlen hf =>
    simp only [State.setPhase_toProc, State.setProc_toProc, Proc.setKq_kqs] at hkn
    split at hkn
    · next hb => subst hb; exact .inl (exists_kev_of_map (fetch_kev hf x) hkn)
    · exact .inl ⟨kn, hkn, rfl⟩
  | enable hph hok =>
    simp only [State.setPhase_toProc, State.setProc_toProc, Proc.setKq_kqs] at hkn
    split at hkn
    · next hb => subst hb; exact .inl (exists_kev_of_map (enableAll_kev _ _ x) hkn)
    · exact .inl ⟨kn, hkn, rfl⟩
  | @addOk t e kev base hcall hlk hbase =>
    simp only [State.setCall_toProc, State.setProc_toProc, Proc.setEv_kqs, Proc.setKq_kqs] at hkn
    split at hkn
    · next hb =>
      rw [Kqueue.add_apply] at hkn
      split at hkn
      · next hx =>
        obtain rfl := Option.some.inj hkn
        exact .inr ⟨t, e, rfl, hcall, hb ▸ hbase, hx.symm, by simp⟩
      · exact .inl ⟨kn, hb ▸ hkn, rfl⟩
    · exact .inl ⟨kn, hkn, rfl⟩
  | finishDel =>
    simp only [State.setPhase_toProc, State.setProc_toProc, Proc.setEv_kqs, Proc.setKq_kqs] at hkn
    split at hkn
    · next hb => exact .inl ⟨kn, hb ▸ mem_of_update_none hkn, rfl⟩
    · exact .inl ⟨kn, hkn, rfl⟩
  | delOk =>
    simp only [State.setCall_toProc, State.setProc_toProc, Proc.setEv_kqs, Proc.setKq_kqs] at hkn
    split at hkn
    · next hb => exact .inl ⟨kn, hb ▸ mem_of_update_none hkn, rfl⟩
    · exact .inl ⟨kn, hkn, rfl⟩
  | close =>
    simp only [Kqueue.close] at hkn
    split at hkn
    · simp at hkn
    · exact .inl ⟨kn, hkn, rfl⟩
  | addLock =>
    simp only [State.setCall_toProc, State.setProc_toProc, patchTimerFd_kqs] at hkn
    exact .inl ⟨kn, hkn, rfl⟩
  | _ => exact .inl ⟨kn, hkn, rfl⟩

/-! ## Where an entry of a batch comes from -/

/-- An event whose handler a thread still has to call was so before, or has just been fetched. -/
lemma PhaseStep.unbegun_source {c : Cfg} {s : State} {u : Tid} {l : Label} {ph : Phase}
    (h : PhaseStep c s u l ph) {e : EvId} (he : e ∈ ph.unbegun) :
    e ∈ (s.threads u).phase.unbegun ∨
      ∃ b x kn, s.kqs b x = some kn ∧ kn.enabled = true ∧ kn.kev.udata = e := by
  cases h with
  | keep => exact .inl he
  | fetch hth hf =>
    simp only [Phase.unbegun, List.map_nil, List.nil_append, List.mem_map] at he
    obtain ⟨k, hk, rfl⟩ := he
    obtain ⟨x, kn, hkn, hen, rfl⟩ := fetch_mem hf hk
    exact .inr ⟨_, x, kn, hkn, hen, rfl⟩
  | activate hph | toCalling hph =>
    rw [hph]
    refine .inl ?_
    simpa [Phase.unbegun, Active.ev] using he
  | invoke hph =>
    rw [hph]
    exact .inl (List.mem_cons_of_mem _ he)
  | ret hth =>
    rw [hth]
    exact .inl he
  | _ => cases he

lemma Step.unbegun_source {c : Cfg} {s s' : State} {l : Label} {o : List Obs}
    (hs : Step c s l s' o) {u : Tid} {e : EvId} (he : e ∈ (s'.threads u).phase.unbegun) :
    e ∈ (s.threads u).phase.unbegun ∨
      ∃ b x kn, s.kqs b x = some kn ∧ kn.enabled = true ∧ kn.kev.udata = e := by
  by_cases hab : ∃ a, s' = s.abort a
  · obtain ⟨a, rfl⟩ := hab
    exact .inl he
  · exact (hs.phase_view (not_exists.1 hab) u).unbegun_source he

/-! ## Well-formed states -/

/-- Everything the threads and the kernel refer to is an event that has been set, and the change a
pending `event_add` carries is for its own event. -/
structure Wf (s : State) : Prop where
  knote : ∀ b x kn, s.kqs b x = some kn → s.isSet kn.kev.udata
  slot : ∀ b x kn, s.kqs b x = some kn → kn.kev.slot = x
  batch : ∀ t, ∀ e ∈ (s.threads t).phase.batch, s.isSet e
  addLock : ∀ t e kev, (s.threads t).call = some (.addLock e kev) → s.isSet e ∧ kev.udata = e
  delWait : ∀ t e base kev, (s.threads t).call = some (.delWait e base kev) → s.isSet e

lemma State.Init.wf {s : State} (h : s.Init) : Wf s where
  knote b x kn hkn := by simp [h.kqs b x] at hkn
  slot b x kn hkn := by simp [h.kqs b x] at hkn
  batch t e he := by simp [h.threads t, Phase.batch, Phase.locked, Phase.toLock] at he
  addLock t e kev hcall := by simp [h.threads t] at hcall
  delWait t e base kev hcall := by simp [h.threads t] at hcall

lemma firstSet_cvInit (ev : Event) : ev.firstSet.cvInit = cvInitMagic := by
  by_cases h : ev.cvInit = cvInitMagic <;> simp [Event.firstSet, h]

/-- Memory that was passed to `event_set` stays so. -/
lemma Step.isSet {c : Cfg} {s s' : State} {l : Label} {o : List Obs} (hs : Step c s l s' o)
    {e : EvId} (he : s.isSet e) : s'.isSet e := by
  simp only [State.isSet] at he ⊢
  cases hs with
  | set =>
    simp only [State.setProc_toProc, Proc.setEv_evs]
    split
    · exact firstSet_cvInit _
    · exact he
  | addLock =>
    simp only [State.setCall_toProc, State.setProc_toProc, patchTimerFd_cvInit]
    exact he
  | fetch | enable | baseSetErr | addBusy | addInval | close | abort | invoke | ret | toCalling
  | toFinishing | toIdle | addErr | delErr => exact he
  | activate | finishSkip | finishKeep | finishFail | finishDel | unlock | baseSetOk | addOk
  | delWait | delOk | spurious | cleanup =>
    simp only [State.setPhase_toProc, State.setCall_toProc, State.setProc_toProc, Proc.setEv_evs,
      Proc.setKq_evs]
    split
    · next h =>
      rw [h] at he
      first
      | exact he
      | rw [Event.deactivate_cvInit]; exact he
    · exact he

/-- Only `event_set` makes memory an event. -/
lemma Step.newly_set {c : Cfg} {s s' : State} {l : Label} {o : List Obs} (hs : Step c s l s' o)
    {e : EvId} (he : s'.isSet e) : s.isSet e ∨ ∃ t fd type fn arg, l = .set t e fd type fn arg ∧
      s'.evs e = (s.evs e).firstSet.assign fd type fn arg ∧ (s.evs e).firstSet.lk = none := by
  simp only [State.isSet] at he ⊢
  cases hs with
  | @set t e' fd type fn arg hmay hlk hok =>
    simp only [State.setProc_toProc, Proc.setEv_evs] at he ⊢
    by_cases h : e = e'
    · subst h
      exact .inr ⟨t, fd, type, fn, arg, rfl, if_pos rfl, hlk⟩
    · rw [if_neg h] at he
      exact .inl he
  | addLock =>
    simp only [State.setCall_toProc, State.setProc_toProc, patchTimerFd_cvInit] at he
    exact .inl he
  | fetch | enable | baseSetErr | addBusy | addInval | close | abort | invoke | ret | toCalling
  | toFinishing | toIdle | addErr | delErr => exact .inl he
  | activate | finishSkip | finishKeep | finishFail | finishDel | unlock | baseSetOk | addOk
  | delWait | delOk | spurious | cleanup =>
    simp only [State.setPhase_toProc, State.setCall_toProc, State.setProc_toProc, Proc.setEv_evs,
      Proc.setKq_evs] at he
    split at he
    · next h =>
      rw [h]
      first
      | exact .inl he
      | rw [Event.deactivate_cvInit] at he; exact .inl he
    · exact .inl he

/-- A call in progress was so before, or it is the call that has just been cut. -/
lemma Step.call_source {c : Cfg} {s s' : State} {l : Label} {o : List Obs} (hs : Step c s l s' o)
    {u : Tid} {call : Call} (hcall : (s'.threads u).call = some call) :
    (s.threads u).call = some call ∨
      (∃ e timeout f, s.isSet e ∧ l = .add u e timeout ∧ call = .addLock e
        (mkKevent c ((patchTimerFd s.toProc e).evs e) e f (!c.multKq) timeout)) ∨
      ∃ e base kev op, DelCall c s l u e base kev op ∧ call = .delWait e base kev := by
  cases hs with
  | fetch | activate | invoke | ret | finishSkip | finishKeep | finishFail | finishDel | toCalling
  | toFinishing | enable | toIdle | unlock =>
    simp only [State.setPhase_threads, State.setProc_threads] at hcall
    split at hcall
    · next hu => subst hu; exact .inl hcall
    · exact .inl hcall
  | set | baseSetErr | baseSetOk | addBusy | addInval | spurious | cleanup | close | abort =>
    exact .inl hcall
  | addErr | addOk | delErr | delOk =>
    simp only [State.setCall_threads, State.setProc_threads] at hcall
    split at hcall
    · simp at hcall
    · exact .inl hcall
  | @addLock t e timeout f base hmay hset =>
    simp only [State.setCall_threads, State.setProc_threads] at hcall
    split at hcall
    · next hu =>
      subst hu
      exact .inr (.inl ⟨e, timeout, f, hset, rfl, (Option.some.inj hcall).symm⟩)
    · exact .inl hcall
  | delWait hdel =>
    simp only [State.setCall_threads, State.setProc_threads] at hcall
    split at hcall
    · next hu =>
      subst hu
      exact .inr (.inr ⟨_, _, _, _, hdel, (Option.some.inj hcall).symm⟩)
    · exact .inl hcall

/-- An event in a batch was there before, or has just been fetched. -/
lemma PhaseStep.batch_source {c : Cfg} {s : State} {u : Tid} {l : Label} {ph : Phase}
    (h : PhaseStep c s u l ph) {e : EvId} (he : e ∈ ph.batch) :
    e ∈ (s.threads u).phase.batch ∨ ∃ b slots x kn, l = .fetch u b slots ∧
      s.kqs b x = some kn ∧ kn.kev.udata = e := by
  cases h with
  | keep => exact .inl he
  | fetch hth hf =>
    simp only [Phase.batch, Phase.locked, Phase.toLock, List.map_nil, List.nil_append,
      List.mem_map] at he
    obtain ⟨k, hk, rfl⟩ := he
    obtain ⟨x, kn, hkn, -, rfl⟩ := fetch_mem hf hk
    exact .inr ⟨_, _, x, kn, rfl, hkn, rfl⟩
  | activate hph | toCalling hph | invoke hph | toFinishing hph | finish hph | enable hph
  | unlock hph | toIdle hph =>
    rw [hph]
    simp only [Phase.batch, Phase.locked, Phase.toLock, List.map_append, List.map_cons,
      List.map_nil, List.mem_append, List.mem_cons, List.not_mem_nil] at he ⊢
    tauto
  | ret hth =>
    rw [hth]
    simp only [Phase.batch, Phase.locked, Phase.toLock, List.map_append, List.map_cons,
      List.map_nil, List.mem_append, List.mem_cons, List.not_mem_nil] at he ⊢
    tauto

lemma Step.batch_source {c : Cfg} {s s' : State} {l : Label} {o : List Obs}
    (hs : Step c s l s' o) {u : Tid} {e : EvId} (he : e ∈ (s'.threads u).phase.batch) :
    e ∈ (s.threads u).phase.batch ∨ ∃ b slots x kn, l = .fetch u b slots ∧
      s.kqs b x = some kn ∧ kn.kev.udata = e := by
  by_cases hab : ∃ a, s' = s.abort a
  · obtain ⟨a, rfl⟩ := hab
    exact .inl he
  · exact (hs.phase_view (not_exists.1 hab) u).batch_source he

lemma DelCall.isSet {c : Cfg} {s : State} {l : Label} {t : Tid} {e : EvId} {base : BaseId}
    {kev : Option KEvent} {op : SyncOp} (hwf : Wf s) (h : DelCall c s l t e base kev op) :
    s.isSet e := by
  cases h with
  | first hmay hset => exact hset
  | woken hcall => exact hwf.delWait _ _ _ _ hcall

lemma DelCall.lk {c : Cfg} {s : State} {l : Label} {t : Tid} {e : EvId} {base : BaseId}
    {kev : Option KEvent} {op : SyncOp} (h : DelCall c s l t e base kev op) :
    (s.evs e).lk = none := by
  cases h <;> assumption

theorem Wf.step {c : Cfg} {s s' : State} {l : Label} {o : List Obs} (h : Wf s)
    (hs : Step c s l s' o) : Wf s' := by
  refine ⟨fun b x kn hkn => ?_, fun b x kn hkn => ?_, fun u e he => ?_, fun u e kev hcall => ?_,
    fun u e base kev hcall => ?_⟩
  · rcases hs.knote_source hkn with ⟨kn', hkn', hkev⟩ | ⟨t, e, -, hcall, -⟩
    · exact hs.isSet (hkev ▸ h.knote b x kn' hkn')
    · obtain ⟨hset, hudata⟩ := h.addLock t e kn.kev hcall
      exact hs.isSet (hudata ▸ hset)
  · rcases hs.knote_source hkn with ⟨kn', hkn', hkev⟩ | ⟨t, e, -, -, -, hslot, -⟩
    · rw [← hkev, h.slot b x kn' hkn']
    · exact hslot
  · rcases hs.batch_source he with he | ⟨b, -, x, kn, -, hkn, rfl⟩
    · exact hs.isSet (h.batch u e he)
    · exact hs.isSet (h.knote b x kn hkn)
  · rcases hs.call_source hcall with hcall | ⟨e', timeout, f, hset, -, heq⟩ | ⟨_, _, _, _, -, heq⟩
    · exact ⟨hs.isSet (h.addLock u e kev hcall).1, (h.addLock u e kev hcall).2⟩
    · obtain ⟨rfl, rfl⟩ := Call.addLock.inj heq
      exact ⟨hs.isSet hset, rfl⟩
    · cases heq
  · rcases hs.call_source hcall with hcall | ⟨_, _, _, -, -, heq⟩ | ⟨e', base', kev', op, hdel, heq⟩
    · exact hs.isSet (h.delWait u e base kev hcall)
    · cases heq
    · obtain ⟨rfl, rfl, rfl⟩ := Call.delWait.inj heq
      exact hs.isSet (hdel.isSet h)

/-- Every reachable state is well-formed. -/
theorem wf_of_run {c : Cfg} {ok : State → Label → Prop} {s₀ s : State} {tr : List Obs}
    (hr : Lib.Run (step c) ok s₀ tr s) (h0 : Wf s₀) : Wf s :=
  hr.inv Wf h0 fun _ _ _ _ h _ hs => h.step (step_cases hs)

end Skq.Evcompat
