import SkqBench.Evcompat.Steps

/-!
# One step, seen by one thread, one event, one slot

A step of the process changes the place of one thread in its pass, one event and one kqueue.
`PhaseStep`, `EvStep` and `KnoteStep` list what a step can do to a given thread, a given event and
a given slot, whoever takes it; nothing at all (`keep`) is the common case.  An invariant that
speaks about one of them is proved from its view, without a look at the others.  A step in which an
assertion fails changes nothing and has no view.
-/

namespace Skq.Evcompat

/-- The thread that goes on in its pass. -/
def Label.pass : Label → Option Tid
  | .fetch t _ _ | .activate t | .invoke t | .ret t | .finish t _ | .advance t | .unlock t => some t
  | _ => none

/-- The event an iteration of one of the loops is about. -/
def State.target (s : State) : Label → Option EvId
  | .activate t =>
    match (s.threads t).phase with
    | .activating _ (k :: _) _ => some k.udata
    | _ => none
  | .finish t _ =>
    match (s.threads t).phase with
    | .finishing _ (a :: _) _ _ => some a.kev.udata
    | _ => none
  | _ => none

/-- What the finishing pass adds to `enlist` for an entry: an event that is unchanged and
persistent. -/
def State.enabledBy (s : State) (c : Cfg) (a : Active) : List KEvent :=
  if a.fresh (s.evs a.kev.udata) && (s.evs a.kev.udata).type.has evPersist && !c.multKq then [a.kev]
  else []

/-- What a step can do to the phase of thread `u`. -/
inductive PhaseStep (c : Cfg) (s : State) (u : Tid) : Label → Phase → Prop
  | keep {l : Label} (hl : l.pass ≠ some u) : PhaseStep c s u l (s.threads u).phase
  | fetch {b : BaseId} {slots : List Slot} {evl : List KEvent} {kq : Kqueue}
      (hth : s.threads u = ⟨.idle, none⟩) (hf : (s.kqs b).fetch slots = some (evl, kq)) :
      PhaseStep c s u (.fetch u b slots) (.activating b evl [])
  | activate {b : BaseId} {k : KEvent} {todo : List KEvent} {done : List Active}
      (hph : (s.threads u).phase = .activating b (k :: todo) done) :
      PhaseStep c s u (.activate u)
        (.activating b todo (done ++ [⟨k, (s.evs k.udata).epoch⟩]))
  | toCalling {b : BaseId} {done : List Active}
      (hph : (s.threads u).phase = .activating b [] done) :
      PhaseStep c s u (.advance u) (.calling b false done [])
  | invoke {b : BaseId} {a : Active} {todo done : List Active}
      (hph : (s.threads u).phase = .calling b false (a :: todo) done) :
      PhaseStep c s u (.invoke u) (.calling b true (a :: todo) done)
  | ret {b : BaseId} {a : Active} {todo done : List Active}
      (hth : s.threads u = ⟨.calling b true (a :: todo) done, none⟩) :
      PhaseStep c s u (.ret u) (.calling b false todo (done ++ [a]))
  | toFinishing {b : BaseId} {done : List Active}
      (hph : (s.threads u).phase = .calling b false [] done) :
      PhaseStep c s u (.advance u) (.finishing b done [] [])
  | finish {w : ℕ} {b : BaseId} {a : Active} {todo done : List Active} {enlist : List KEvent}
      (hph : (s.threads u).phase = .finishing b (a :: todo) done enlist)
      (hlk : (s.evs a.kev.udata).lk = none) :
      PhaseStep c s u (.finish u w)
        (.finishing b todo (done ++ [a]) (enlist ++ s.enabledBy c a))
  | enable {b : BaseId} {done : List Active} {enlist : List KEvent}
      (hph : (s.threads u).phase = .finishing b [] done enlist) :
      PhaseStep c s u (.advance u) (.unlocking b done)
  | unlock {b : BaseId} {a : Active} {todo : List Active}
      (hph : (s.threads u).phase = .unlocking b (a :: todo)) :
      PhaseStep c s u (.unlock u) (.unlocking b todo)
  | toIdle {b : BaseId} (hph : (s.threads u).phase = .unlocking b []) :
      PhaseStep c s u (.advance u) .idle

/-- What a step can do to event `e`. -/
inductive EvStep (c : Cfg) (s : State) (e : EvId) : Label → Event → Prop
  | keep {l : Label} (hl : s.target l ≠ some e) : EvStep c s e l (s.evs e)
  | activate {t : Tid} {b : BaseId} {k : KEvent} {todo : List KEvent} {done : List Active}
      (hph : (s.threads t).phase = .activating b (k :: todo) done) (he : k.udata = e) :
      EvStep c s e (.activate t) { s.evs e with active := true, owner := some t }
  | finishSkip {t : Tid} {w : ℕ} {b : BaseId} {a : Active} {todo done : List Active}
      {enlist : List KEvent} (hph : (s.threads t).phase = .finishing b (a :: todo) done enlist)
      (he : a.kev.udata = e) (hlk : (s.evs e).lk = none) (hfresh : a.fresh (s.evs e) = false) :
      EvStep c s e (.finish t w) ({ s.evs e with lk := some t }.signal w)
  | finishKeep {t : Tid} {w : ℕ} {b : BaseId} {a : Active} {todo done : List Active}
      {enlist : List KEvent} (hph : (s.threads t).phase = .finishing b (a :: todo) done enlist)
      (he : a.kev.udata = e) (hlk : (s.evs e).lk = none) (hfresh : a.fresh (s.evs e) = true)
      (hwhy : (s.evs e).type.has evPersist = true ∨ (s.evs e).pending = false ∨
        ∃ base, (s.evs e).evBase = some base ∧ ∀ x, (s.evs e).slot = some x →
          s.kqs base x = none) :
      EvStep c s e (.finish t w) ({ (s.evs e).inactive with lk := some t }.signal w)
  | finishDel {t : Tid} {w : ℕ} {b base : BaseId} {a : Active} {todo done : List Active}
      {enlist : List KEvent} {x : Slot}
      (hph : (s.threads t).phase = .finishing b (a :: todo) done enlist)
      (he : a.kev.udata = e) (hlk : (s.evs e).lk = none) (hfresh : a.fresh (s.evs e) = true)
      (hper : (s.evs e).type.has evPersist = false) (hbase : (s.evs e).evBase = some base)
      (hx : (s.evs e).slot = some x)
      (hpend : (s.evs e).pending = true) :
      EvStep c s e (.finish t w)
        ({ (s.evs e).inactive with lk := some t, pending := false }.signal w)
  | unlock {t : Tid} {b : BaseId} {a : Active} {todo : List Active}
      (hph : (s.threads t).phase = .unlocking b (a :: todo)) (he : a.kev.udata = e) :
      EvStep c s e (.unlock t) { s.evs e with lk := none }
  | set {t : Tid} {fd : ℤ} {type : EvType} {fn arg : ℕ} (hmay : (s.threads t).mayCall = true)
      (hlk : (s.evs e).firstSet.lk = none) :
      EvStep c s e (.set t e fd type fn arg) ((s.evs e).firstSet.assign fd type fn arg)
  | baseSet {t : Tid} {b : BaseId} (hmay : (s.threads t).mayCall = true)
      (hact : (s.evs e).active = false) (hpend : (s.evs e).pending = false) :
      EvStep c s e (.baseSet t b e) { s.evs e with evBase := some b }
  | patch {t : Tid} {timeout : Option TimeVal} {fd : ℤ} (hmay : (s.threads t).mayCall = true)
      (hpend : (s.evs e).pending = false) (htype : (s.evs e).type.has evTimeout = true) :
      EvStep c s e (.add t e timeout) { s.evs e with fd := fd }
  | add {t : Tid} {kev : KEvent} {base : BaseId}
      (hcall : (s.threads t).call = some (.addLock e kev)) (hlk : (s.evs e).lk = none)
      (hbase : (s.evs e).evBase = some base) :
      EvStep c s e (.addLocked t true) { s.evs e with pending := true }.deactivate
  | delWait {l : Label} {t : Tid} {base : BaseId} {kev : Option KEvent} {op : SyncOp}
      (hdel : DelCall c s l t e base kev op) : EvStep c s e l ((s.evs e).wait t)
  | delete {l : Label} {t : Tid} {base : BaseId} {k : KEvent} {op : SyncOp}
      (hdel : DelCall c s l t e base (some k) op) (hpend : (s.evs e).pending = true)
      (hown : (s.evs e).active = true → (s.evs e).owner = some t) :
      EvStep c s e l { s.evs e with pending := false }.deactivate
  | spurious {t : Tid} :
      EvStep c s e (.spurious t) { s.evs e with stopCv := (s.evs e).stopCv.erase t }
  | cleanup {t : Tid} (hset : s.isSet e) :
      EvStep c s e (.cleanup t e) { s.evs e with sync := .destroyed }

/-- What a step can do to the slot `x` of base `b`. -/
inductive KnoteStep (c : Cfg) (s : State) (b : BaseId) (x : Slot) : Label → Option Knote → Prop
  | keep {l : Label} : KnoteStep c s b x l (s.kqs b x)
  | fetch {t : Tid} {slots : List Slot} {kn : Knote} (hx : x ∈ slots)
      (hkn : s.kqs b x = some kn) : KnoteStep c s b x (.fetch t b slots) (some (Kqueue.deliver kn))
  | enable {t : Tid} {done : List Active} {enlist : List KEvent} {k : KEvent} {kn : Knote}
      (hph : (s.threads t).phase = .finishing b [] done enlist) (hk : k ∈ enlist)
      (hx : k.slot = x) (hkn : s.kqs b x = some kn) :
      KnoteStep c s b x (.advance t) (some { kn with enabled := true })
  | add {t : Tid} {e : EvId} {kev : KEvent} (hcall : (s.threads t).call = some (.addLock e kev))
      (hlk : (s.evs e).lk = none) (hbase : (s.evs e).evBase = some b) (hx : kev.slot = x) :
      KnoteStep c s b x (.addLocked t true) (some ⟨kev, true⟩)
  | finish {t : Tid} {w : ℕ} {b' : BaseId} {a : Active} {todo done : List Active}
      {enlist : List KEvent} (hph : (s.threads t).phase = .finishing b' (a :: todo) done enlist)
      (hper : (s.evs a.kev.udata).type.has evPersist = false)
      (hbase : (s.evs a.kev.udata).evBase = some b) (hx : (s.evs a.kev.udata).slot = some x)
      (hpend : (s.evs a.kev.udata).pending = true) : KnoteStep c s b x (.finish t w) none
  | delete {l : Label} {t : Tid} {e : EvId} {k : KEvent} {op : SyncOp}
      (hdel : DelCall c s l t e b (some k) op) (hx : k.slot = x)
      (hpend : (s.evs e).pending = true)
      (hown : (s.evs e).active = true → (s.evs e).owner = some t) : KnoteStep c s b x l none
  | close {fd : ℤ} (hx : x.1 = fd ∧ x.2 ≠ .timer) : KnoteStep c s b x (.close fd) none

/-! ## Every step is such a step -/

/-- A step of thread `t` seen by thread `u`. -/
lemma PhaseStep.of_thread {c : Cfg} {s : State} {t u : Tid} {l : Label} {ph : Phase}
    (h : PhaseStep c s t l ph) (hl : l.pass = some t) : PhaseStep c s u l
      (if u = t then { s.threads t with phase := ph } else s.threads u).phase := by
  split
  · next hu => rw [hu]; exact h
  · next hu =>
    refine .keep fun hl' => hu ?_
    rw [hl] at hl'
    exact (Option.some.inj hl').symm

lemma DelCall.pass {c : Cfg} {s : State} {l : Label} {t : Tid} {e : EvId} {base : BaseId}
    {kev : Option KEvent} {op : SyncOp} (h : DelCall c s l t e base kev op) : l.pass = none := by
  rcases h.label with rfl | rfl <;> rfl

lemma setPhase_phase (s : State) (t u : Tid) (ph : Phase) :
    ((s.setPhase t ph).threads u).phase = if u = t then ph else (s.threads u).phase := by
  rw [State.setPhase_threads]
  split <;> rfl

lemma setCall_phase (s : State) (t u : Tid) (call : Option Call) :
    ((s.setCall t call).threads u).phase = (s.threads u).phase := by
  rw [State.setCall_threads]
  split
  · next hu => rw [hu]
  · rfl

/-- The view of a thread, of any step in which no assertion fails. -/
theorem Step.phase_view {c : Cfg} {s s' : State} {l : Label} {o : List Obs} (hs : Step c s l s' o)
    (hab : ∀ a, s' ≠ s.abort a) (u : Tid) : PhaseStep c s u l (s'.threads u).phase := by
  cases hs with
  | fetch hth hlen hf =>
    simp only [State.setPhase_threads, State.setProc_threads]
    exact .of_thread (.fetch hth hf) rfl
  | activate hph =>
    simp only [State.setPhase_threads, State.setProc_threads]
    exact .of_thread (.activate hph) rfl
  | invoke hph =>
    simp only [State.setPhase_threads]
    exact .of_thread (.invoke hph) rfl
  | ret hth =>
    simp only [State.setPhase_threads]
    exact .of_thread (.ret hth) rfl
  | @finishSkip t w b a todo done enlist hph hlk hfresh =>
    have h := PhaseStep.finish (c := c) (w := w) hph hlk
    simp only [State.enabledBy, hfresh, Bool.false_and, Bool.false_eq_true, if_false,
      List.append_nil] at h
    simp only [State.setPhase_threads, State.setProc_threads]
    exact .of_thread h rfl
  | @finishKeep t w b a todo done enlist hph hlk hfresh hper =>
    have h := PhaseStep.finish (c := c) (w := w) hph hlk
    simp only [State.enabledBy, hfresh, hper, Bool.true_and] at h
    have hlist : enlist ++ (if !c.multKq then [a.kev] else []) =
        if c.multKq then enlist else enlist ++ [a.kev] := by
      cases c.multKq <;> simp
    rw [hlist] at h
    simp only [State.setPhase_threads, State.setProc_threads]
    exact .of_thread h rfl
  | @finishFail t w b a todo done enlist hph hlk hfresh hper =>
    have h := PhaseStep.finish (c := c) (w := w) hph hlk
    simp only [State.enabledBy, hper, Bool.and_false, Bool.false_and, Bool.false_eq_true, if_false,
      List.append_nil] at h
    simp only [State.setPhase_threads, State.setProc_threads]
    exact .of_thread h rfl
  | @finishDel t w b base a todo done enlist x kn hph hlk hfresh hper =>
    have h := PhaseStep.finish (c := c) (w := w) hph hlk
    simp only [State.enabledBy, hper, Bool.and_false, Bool.false_and, Bool.false_eq_true, if_false,
      List.append_nil] at h
    simp only [State.setPhase_threads, State.setProc_threads]
    exact .of_thread h rfl
  | toCalling hph =>
    simp only [State.setPhase_threads]
    exact .of_thread (.toCalling hph) rfl
  | toFinishing hph =>
    simp only [State.setPhase_threads]
    exact .of_thread (.toFinishing hph) rfl
  | enable hph =>
    simp only [State.setPhase_threads, State.setProc_threads]
    exact .of_thread (.enable hph) rfl
  | toIdle hph =>
    simp only [State.setPhase_threads]
    exact .of_thread (.toIdle hph) rfl
  | unlock hph =>
    simp only [State.setPhase_threads, State.setProc_threads]
    exact .of_thread (.unlock hph) rfl
  | baseSetErr | addBusy | addInval | close | set | baseSetOk | spurious | cleanup =>
    exact .keep (by simp [Label.pass])
  | addLock | addErr | addOk =>
    simp only [setCall_phase, State.setProc_threads]
    exact .keep (by simp [Label.pass])
  | delErr hdel | delWait hdel | delOk hdel =>
    simp only [setCall_phase, State.setProc_threads]
    exact .keep (by rw [hdel.pass]; simp)
  | abort => exact absurd rfl (hab _)

lemma ne_abort {s s' : State} (hab : s'.aborted = none) (a : Assertion) : s' ≠ s.abort a := by
  rintro rfl
  cases hab

/-- The view of a thread. -/
theorem Step.phaseStep {c : Cfg} {s s' : State} {l : Label} {o : List Obs} (hs : Step c s l s' o)
    (hab : s'.aborted = none) (u : Tid) : PhaseStep c s u l (s'.threads u).phase :=
  hs.phase_view (ne_abort hab) u

/-- Only the thread itself goes on in its pass. -/
lemma Step.phase_keep {c : Cfg} {s s' : State} {l : Label} {o : List Obs} {u : Tid}
    (hs : Step c s l s' o) (hab : s'.aborted = none) (hl : l.pass ≠ some u) :
    (s'.threads u).phase = (s.threads u).phase := by
  generalize hph : (s'.threads u).phase = ph
  have hstep := hs.phaseStep hab u
  rw [hph] at hstep
  cases hstep with
  | keep => rfl
  | _ => exact absurd rfl hl

/-- A step that stores to event `e'`, seen by event `e`. -/
lemma EvStep.of_store {c : Cfg} {s : State} {p : Proc} {e e' : EvId} {ev : Event} {l : Label}
    (hp : p.evs = s.evs) (h : EvStep c s e' l ev) (hl : ∀ e, s.target l = some e → e = e') :
    EvStep c s e l ((p.setEv e' ev).evs e) := by
  rw [Proc.setEv_evs, hp]
  split
  · next he => rw [he]; exact h
  · next he => exact .keep fun hl' => he (hl e hl')

lemma target_of_del {c : Cfg} {s : State} {l : Label} {t : Tid} {e : EvId} {base : BaseId}
    {kev : Option KEvent} {op : SyncOp} (h : DelCall c s l t e base kev op) : s.target l = none := by
  rcases h.label with rfl | rfl <;> rfl

/-- The view of an event, of any step in which no assertion fails. -/
theorem Step.ev_view {c : Cfg} {s s' : State} {l : Label} {o : List Obs} (hs : Step c s l s' o)
    (hab : ∀ a, s' ≠ s.abort a) (e : EvId) : EvStep c s e l (s'.evs e) := by
  cases hs with
  | fetch | enable | baseSetErr | addBusy | addInval | close | invoke | ret | toCalling
  | toFinishing | toIdle | addErr => exact .keep (by simp [State.target])
  | delErr hdel => exact .keep (by simp [target_of_del hdel])
  | activate hph => exact .of_store rfl (.activate hph rfl) (by simp [State.target, hph])
  | finishSkip hph hlk hfresh =>
    exact .of_store rfl (.finishSkip hph rfl hlk hfresh) (by simp [State.target, hph])
  | finishKeep hph hlk hfresh hper =>
    exact .of_store rfl (.finishKeep hph rfl hlk hfresh (.inl hper)) (by simp [State.target, hph])
  | finishFail hph hlk hfresh hper hnd hwhy =>
    exact .of_store rfl (.finishKeep hph rfl hlk hfresh (.inr hwhy)) (by simp [State.target, hph])
  | finishDel hph hlk hfresh hper hbase hx hkn hpend =>
    exact .of_store rfl (.finishDel hph rfl hlk hfresh hper hbase hx hpend)
      (by simp [State.target, hph])
  | unlock hph => exact .of_store rfl (.unlock hph rfl) (by simp [State.target])
  | set hmay hlk => exact .of_store rfl (.set hmay hlk) (by simp [State.target])
  | baseSetOk hmay hset hact hpend =>
    exact .of_store rfl (.baseSet hmay hact hpend) (by simp [State.target])
  | @addLock t e' timeout f base hmay hset hbase hpend =>
    simp only [State.setCall_toProc, State.setProc_toProc]
    obtain ⟨fd, hev, hfd⟩ := patchTimerFd_evs s.toProc e' e
    rw [hev]
    by_cases he : e = e' ∧ (s.evs e').type.has evTimeout = true
    · obtain ⟨rfl, htype⟩ := he
      exact .patch hmay hpend htype
    · rw [not_and_or, Bool.not_eq_true] at he
      rw [hfd he]
      exact .keep (by simp [State.target])
  | addOk hcall hlk hbase => exact .of_store rfl (.add hcall hlk hbase) (by simp [State.target])
  | delWait hdel => exact .of_store rfl (.delWait hdel) (by simp [target_of_del hdel])
  | delOk hdel hpend hown =>
    exact .of_store rfl (.delete hdel hpend hown) (by simp [target_of_del hdel])
  | spurious => exact .of_store rfl .spurious (by simp [State.target])
  | cleanup hmay hset => exact .of_store rfl (.cleanup hset) (by simp [State.target])
  | abort => exact absurd rfl (hab _)

/-- The view of an event. -/
theorem Step.evStep {c : Cfg} {s s' : State} {l : Label} {o : List Obs} (hs : Step c s l s' o)
    (hab : s'.aborted = none) (e : EvId) : EvStep c s e l (s'.evs e) :=
  hs.ev_view (ne_abort hab) e

/-- A change of the kqueue of base `b'` in slot `y`, seen by slot `x` of base `b`. -/
lemma KnoteStep.of_update {c : Cfg} {s : State} {b b' : BaseId} {x y : Slot} {l : Label}
    {r : Option Knote} {kq : Kqueue} (hkq : kq = Function.update (s.kqs b') y r)
    (h : KnoteStep c s b' y l r) :
    KnoteStep c s b x l ((if b = b' then kq else s.kqs b) x) := by
  split
  · next hb =>
    rw [hkq, Function.update_apply, hb]
    split
    · next hx => rw [hx]; exact h
    · exact .keep
  · exact .keep

/-- The view of a slot. -/
theorem Step.knoteStep {c : Cfg} {s s' : State} {l : Label} {o : List Obs} (hs : Step c s l s' o)
    (b : BaseId) (x : Slot) : KnoteStep c s b x l (s'.kqs b x) := by
  cases hs with
  | @fetch t b' slots evl kq hth hlen hf =>
    simp only [State.setPhase_toProc, State.setProc_toProc, Proc.setKq_kqs]
    split
    · next hb =>
      obtain ⟨-, happly, -, -, hmap⟩ := Kqueue.fetch_spec hf
      rw [happly x, hb]
      split
      · next hx =>
        cases hkn : s.kqs b' x with
        | none =>
          rw [Option.map_none, ← hkn]
          exact .keep
        | some kn => exact .fetch hx hkn
      · exact .keep
    · exact .keep
  | @enable t b' done enlist hph hok =>
    simp only [State.setPhase_toProc, State.setProc_toProc, Proc.setKq_kqs]
    split
    · next hb =>
      subst hb
      rcases Kqueue.enableAll_apply enlist (s.kqs b) x with heq | ⟨kn, hkn, heq, k, hk, hx⟩
      · rw [heq]
        exact .keep
      · rw [heq]
        exact .enable hph hk hx hkn
    · exact .keep
  | finishDel hph hlk hfresh hper hbase hx hkn hpend =>
    simp only [State.setPhase_toProc, State.setProc_toProc, Proc.setEv_kqs, Proc.setKq_kqs]
    exact .of_update rfl (.finish hph hper hbase hx hpend)
  | addOk hcall hlk hbase =>
    simp only [State.setCall_toProc, State.setProc_toProc, Proc.setEv_kqs, Proc.setKq_kqs]
    exact .of_update rfl (.add hcall hlk hbase rfl)
  | delOk hdel hpend hown =>
    simp only [State.setCall_toProc, State.setProc_toProc, Proc.setEv_kqs, Proc.setKq_kqs]
    exact .of_update rfl (.delete hdel rfl hpend hown)
  | @close fd =>
    show KnoteStep c s b x _ (if x.1 = fd ∧ x.2 ≠ .timer then none else s.kqs b x)
    split
    · next hx => exact .close hx
    · exact .keep
  | addLock =>
    simp only [State.setCall_toProc, State.setProc_toProc, patchTimerFd_kqs]
    exact .keep
  | _ => exact .keep

end Skq.Evcompat
