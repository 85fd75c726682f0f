import SkqBench.Evcompat.Loop

/-!
# What a step can do

`Step` lists, once, everything one step of the process can do, with the guards of the source in
its premises and the new state in normal form.  `step_cases` is the inversion lemma: every
invariant is proved from it by cases, and no later proof unfolds `step`.

The calls of a thread that are cut by a lock or a wait are described by small predicates:
`DelCall` is a round of `event_del` with the lock just taken, by a new call or after a wake-up.
-/

namespace Skq.Evcompat

/-- A round of `event_del` that starts now: the call just made, or one that was woken. -/
inductive DelCall (c : Cfg) (s : State) : Label → Tid → EvId → BaseId → Option KEvent → SyncOp → Prop
  | first {t : Tid} {e : EvId} {base : BaseId} (hmay : (s.threads t).mayCall = true)
      (hset : s.isSet e) (hlk : (s.evs e).lk = none) (hbase : (s.evs e).evBase = some base) :
      DelCall c s (.del t e) t e base (initKeventDelete c (s.evs e) e) .lock
  | woken {t : Tid} {e : EvId} {base : BaseId} {kev : Option KEvent}
      (hcall : (s.threads t).call = some (.delWait e base kev)) (hlk : (s.evs e).lk = none)
      (hcv : t ∉ (s.evs e).stopCv) : DelCall c s (.delWake t) t e base kev .wait

/-- The round of a call just made. -/
lemma DelCall.inv_del {c : Cfg} {s : State} {t t' : Tid} {e e' : EvId} {base : BaseId}
    {kev : Option KEvent} {op : SyncOp} (h : DelCall c s (.del t' e') t e base kev op) :
    t = t' ∧ e = e' ∧ (s.evs e).evBase = some base ∧ kev = initKeventDelete c (s.evs e) e := by
  cases h with
  | first hmay hset hlk hbase => exact ⟨rfl, rfl, hbase, rfl⟩

/-- The round after a wake-up. -/
lemma DelCall.inv_delWake {c : Cfg} {s : State} {t t' : Tid} {e : EvId} {base : BaseId}
    {kev : Option KEvent} {op : SyncOp} (h : DelCall c s (.delWake t') t e base kev op) :
    t = t' ∧ (s.threads t).call = some (.delWait e base kev) := by
  cases h with
  | woken hcall hlk hcv => exact ⟨rfl, hcall⟩

lemma DelCall.label {c : Cfg} {s : State} {l : Label} {t : Tid} {e : EvId} {base : BaseId}
    {kev : Option KEvent} {op : SyncOp} (h : DelCall c s l t e base kev op) :
    l = .del t e ∨ l = .delWake t := by
  cases h with
  | first => exact .inl rfl
  | woken => exact .inr rfl

/-- The events whose lock a pass or a call can take next. -/
def State.Refers (s : State) (e : EvId) : Prop :=
  s.isSet e ∨ (∃ t b k todo done, (s.threads t).phase = .activating b (k :: todo) done ∧
    k.udata = e) ∨
  ∃ t b a todo done enlist, (s.threads t).phase = .finishing b (a :: todo) done enlist ∧
    a.kev.udata = e

/-- The steps with an assertion in them. -/
def Label.mayAbort : Label → Bool
  | .activate _ | .finish _ _ | .advance _ | .set .. | .add .. | .del .. => true
  | _ => false

/-- Everything a step can do. -/
inductive Step (c : Cfg) (s : State) : Label → State → List Obs → Prop
  | fetch {t : Tid} {b : BaseId} {slots : List Slot} {evl : List KEvent} {kq : Kqueue}
      (hth : s.threads t = ⟨.idle, none⟩) (hlen : slots.length ≤ nevent)
      (hf : (s.kqs b).fetch slots = some (evl, kq)) :
      Step c s (.fetch t b slots)
        ((s.setProc (s.setKq b kq)).setPhase t (.activating b evl [])) []
  | activate {t : Tid} {b : BaseId} {k : KEvent} {todo : List KEvent} {done : List Active}
      (hph : (s.threads t).phase = .activating b (k :: todo) done)
      (hlk : (s.evs k.udata).lk = none)
      (hok : activateAssert b k (s.evs k.udata) = none ∨ c.ndebug = true) :
      Step c s (.activate t)
        ((s.setProc (s.setEv k.udata
            { s.evs k.udata with active := true, owner := some t })).setPhase t
          (.activating b todo (done ++ [⟨k, (s.evs k.udata).epoch⟩])))
        [s.use .lock k.udata, s.use .unlock k.udata]
  | invoke {t : Tid} {b : BaseId} {a : Active} {todo done : List Active}
      (hph : (s.threads t).phase = .calling b false (a :: todo) done) :
      Step c s (.invoke t) (s.setPhase t (.calling b true (a :: todo) done))
        [.invoke t a.kev.udata (s.evs a.kev.udata).fn (s.evs a.kev.udata).fd
          (s.evs a.kev.udata).arg]
  | ret {t : Tid} {b : BaseId} {a : Active} {todo done : List Active}
      (hth : s.threads t = ⟨.calling b true (a :: todo) done, none⟩) :
      Step c s (.ret t) (s.setPhase t (.calling b false todo (done ++ [a]))) []
  | finishSkip {t : Tid} {w : ℕ} {b : BaseId} {a : Active} {todo done : List Active}
      {enlist : List KEvent} (hph : (s.threads t).phase = .finishing b (a :: todo) done enlist)
      (hlk : (s.evs a.kev.udata).lk = none) (hfresh : a.fresh (s.evs a.kev.udata) = false) :
      Step c s (.finish t w)
        ((s.setProc (s.setEv a.kev.udata
            ({ s.evs a.kev.udata with lk := some t }.signal w))).setPhase t
          (.finishing b todo (done ++ [a]) enlist))
        [s.use .lock a.kev.udata, s.use .signal a.kev.udata]
  | finishKeep {t : Tid} {w : ℕ} {b : BaseId} {a : Active} {todo done : List Active}
      {enlist : List KEvent} (hph : (s.threads t).phase = .finishing b (a :: todo) done enlist)
      (hlk : (s.evs a.kev.udata).lk = none) (hfresh : a.fresh (s.evs a.kev.udata) = true)
      (hper : (s.evs a.kev.udata).type.has evPersist = true) :
      Step c s (.finish t w)
        ((s.setProc (s.setEv a.kev.udata
            ({ (s.evs a.kev.udata).inactive with lk := some t }.signal w))).setPhase t
          (.finishing b todo (done ++ [a]) (if c.multKq then enlist else enlist ++ [a.kev])))
        [s.use .lock a.kev.udata, s.use .signal a.kev.udata]
  | finishFail {t : Tid} {w : ℕ} {b : BaseId} {a : Active} {todo done : List Active}
      {enlist : List KEvent} (hph : (s.threads t).phase = .finishing b (a :: todo) done enlist)
      (hlk : (s.evs a.kev.udata).lk = none) (hfresh : a.fresh (s.evs a.kev.udata) = true)
      (hper : (s.evs a.kev.udata).type.has evPersist = false) (hnd : c.ndebug = true)
      (hwhy : (s.evs a.kev.udata).pending = false ∨ ∃ base, (s.evs a.kev.udata).evBase = some base ∧
        ∀ x, (s.evs a.kev.udata).slot = some x → s.kqs base x = none) :
      Step c s (.finish t w)
        ((s.setProc (s.setEv a.kev.udata
            ({ (s.evs a.kev.udata).inactive with lk := some t }.signal w))).setPhase t
          (.finishing b todo (done ++ [a]) enlist))
        [s.use .lock a.kev.udata, s.use .signal a.kev.udata]
  | finishDel {t : Tid} {w : ℕ} {b base : BaseId} {a : Active} {todo done : List Active}
      {enlist : List KEvent} {x : Slot} {kn : Knote}
      (hph : (s.threads t).phase = .finishing b (a :: todo) done enlist)
      (hlk : (s.evs a.kev.udata).lk = none) (hfresh : a.fresh (s.evs a.kev.udata) = true)
      (hper : (s.evs a.kev.udata).type.has evPersist = false)
      (hbase : (s.evs a.kev.udata).evBase = some base)
      (hx : (s.evs a.kev.udata).slot = some x) (hkn : s.kqs base x = some kn)
      (hpend : (s.evs a.kev.udata).pending = true) :
      Step c s (.finish t w)
        ((s.setProc ((s.setKq base (Function.update (s.kqs base) x none)).setEv a.kev.udata
            ({ (s.evs a.kev.udata).inactive with
                lk := some t, pending := false }.signal w))).setPhase t
          (.finishing b todo (done ++ [a]) enlist))
        [s.use .lock a.kev.udata, s.use .signal a.kev.udata]
  | toCalling {t : Tid} {b : BaseId} {done : List Active}
      (hph : (s.threads t).phase = .activating b [] done) :
      Step c s (.advance t) (s.setPhase t (.calling b false done [])) []
  | toFinishing {t : Tid} {b : BaseId} {done : List Active}
      (hph : (s.threads t).phase = .calling b false [] done) :
      Step c s (.advance t) (s.setPhase t (.finishing b done [] [])) []
  | enable {t : Tid} {b : BaseId} {done : List Active} {enlist : List KEvent}
      (hph : (s.threads t).phase = .finishing b [] done enlist)
      (hok : ((s.kqs b).enableAll enlist).2 = true ∨ c.ndebug = true) :
      Step c s (.advance t)
        ((s.setProc (s.setKq b ((s.kqs b).enableAll enlist).1)).setPhase t (.unlocking b done)) []
  | toIdle {t : Tid} {b : BaseId} (hph : (s.threads t).phase = .unlocking b []) :
      Step c s (.advance t) (s.setPhase t .idle) []
  | unlock {t : Tid} {b : BaseId} {a : Active} {todo : List Active}
      (hph : (s.threads t).phase = .unlocking b (a :: todo)) :
      Step c s (.unlock t)
        ((s.setProc (s.setEv a.kev.udata { s.evs a.kev.udata with lk := none })).setPhase t
          (.unlocking b todo))
        [s.use .unlock a.kev.udata]
  | set {t : Tid} {e : EvId} {fd : ℤ} {type : EvType} {fn arg : ℕ}
      (hmay : (s.threads t).mayCall = true) (hlk : (s.evs e).firstSet.lk = none)
      (hok : (s.evs e).firstSet.setAssert fd type = none ∨ c.ndebug = true) :
      Step c s (.set t e fd type fn arg)
        (s.setProc (s.setEv e ((s.evs e).firstSet.assign fd type fn arg)))
        [.sync .lock e (s.evs e).firstSet.sync, .sync .unlock e (s.evs e).firstSet.sync]
  | baseSetErr {t : Tid} {b : BaseId} {e : EvId} (hmay : (s.threads t).mayCall = true)
      (hset : s.isSet e) (hbusy : (s.evs e).active = true ∨ (s.evs e).pending = true) :
      Step c s (.baseSet t b e) s [.result t (.baseSet e) .err]
  | baseSetOk {t : Tid} {b : BaseId} {e : EvId} (hmay : (s.threads t).mayCall = true)
      (hset : s.isSet e) (hact : (s.evs e).active = false) (hpend : (s.evs e).pending = false) :
      Step c s (.baseSet t b e) (s.setProc (s.setEv e { s.evs e with evBase := some b }))
        [.result t (.baseSet e) .ok]
  | addBusy {t : Tid} {e : EvId} {timeout : Option TimeVal} (hmay : (s.threads t).mayCall = true)
      (hset : s.isSet e) (hpend : (s.evs e).pending = true) :
      Step c s (.add t e timeout) s [.result t (.add e) .err]
  | addInval {t : Tid} {e : EvId} {timeout : Option TimeVal} (hmay : (s.threads t).mayCall = true)
      (hset : s.isSet e) (hpend : (s.evs e).pending = false)
      (hfilter : filterOf (s.evs e).type = none) :
      Step c s (.add t e timeout) s [.result t (.add e) .err]
  | addLock {t : Tid} {e : EvId} {timeout : Option TimeVal} {f : Filter} {base : BaseId}
      (hmay : (s.threads t).mayCall = true) (hset : s.isSet e)
      (hbase : (s.evs e).evBase = some base) (hpend : (s.evs e).pending = false)
      (hfilter : filterOf (s.evs e).type = some f) :
      Step c s (.add t e timeout)
        ((s.setProc (patchTimerFd s.toProc e)).setCall t
          (some (.addLock e (mkKevent c ((patchTimerFd s.toProc e).evs e) e f (!c.multKq) timeout))))
        []
  | addErr {t : Tid} {e : EvId} {kev : KEvent}
      (hcall : (s.threads t).call = some (.addLock e kev)) (hlk : (s.evs e).lk = none) :
      Step c s (.addLocked t false) (s.setCall t none)
        [s.use .lock e, s.use .unlock e, .result t (.add e) .err]
  | addOk {t : Tid} {e : EvId} {kev : KEvent} {base : BaseId}
      (hcall : (s.threads t).call = some (.addLock e kev)) (hlk : (s.evs e).lk = none)
      (hbase : (s.evs e).evBase = some base) :
      Step c s (.addLocked t true)
        ((s.setProc ((s.setKq base ((s.kqs base).add kev)).setEv e
          { s.evs e with pending := true }.deactivate)).setCall t none)
        [s.use .lock e, s.use .unlock e, .result t (.add e) .ok]
  | delErr {l : Label} {t : Tid} {e : EvId} {base : BaseId} {kev : Option KEvent} {op : SyncOp}
      (hdel : DelCall c s l t e base kev op)
      (hwhy : (s.evs e).pending = false ∨ (kev.bind fun k => s.kqs base k.slot) = none) :
      Step c s l (s.setCall t none) [s.use op e, s.use .unlock e, .result t (.del e) .err]
  | delWait {l : Label} {t : Tid} {e : EvId} {base : BaseId} {kev : Option KEvent} {op : SyncOp}
      (hdel : DelCall c s l t e base kev op) (hpend : (s.evs e).pending = true)
      (hact : (s.evs e).active = true) (hown : (s.evs e).owner ≠ some t) :
      Step c s l
        ((s.setProc (s.setEv e ((s.evs e).wait t))).setCall t (some (.delWait e base kev)))
        [s.use op e, s.use .wait e]
  | delOk {l : Label} {t : Tid} {e : EvId} {base : BaseId} {k : KEvent} {kn : Knote} {op : SyncOp}
      (hdel : DelCall c s l t e base (some k) op) (hpend : (s.evs e).pending = true)
      (hown : (s.evs e).active = true → (s.evs e).owner = some t)
      (hkn : s.kqs base k.slot = some kn) :
      Step c s l
        ((s.setProc ((s.setKq base (Function.update (s.kqs base) k.slot none)).setEv e
          { s.evs e with pending := false }.deactivate)).setCall t none)
        [s.use op e, s.use .unlock e, .result t (.del e) .ok]
  | spurious {t : Tid} {e : EvId} {base : BaseId} {kev : Option KEvent}
      (hcall : (s.threads t).call = some (.delWait e base kev)) :
      Step c s (.spurious t)
        (s.setProc (s.setEv e { s.evs e with stopCv := (s.evs e).stopCv.erase t })) []
  | cleanup {t : Tid} {e : EvId} (hmay : (s.threads t).mayCall = true) (hset : s.isSet e) :
      Step c s (.cleanup t e) (s.setProc (s.setEv e { s.evs e with sync := .destroyed }))
        [.cleanup e]
  | close {fd : ℤ} : Step c s (.close fd) { s with kqs := fun b => (s.kqs b).close fd } []
  | abort {l : Label} {a : Assertion} {o : List Obs} (hl : l.mayAbort = true)
      (ho : o = [] ∨ ∃ e st, o = [.sync .lock e st] ∧
        (st = (s.evs e).sync ∧ s.Refers e ∨ st = (s.evs e).firstSet.sync)) :
      Step c s l (s.abort a) o

/-! ## Inversion -/

lemma not_aborted_of_step {c : Cfg} {s : State} {l : Label} {r : State × List Obs}
    (hs : step c s l = some r) : s.aborted = none := by
  simp only [step] at hs
  split at hs
  · cases hs
  · next hab => simpa using hab

lemma patchTimerFd_of_not_timeout {p : Proc} {e : EvId}
    (h : (p.evs e).type.has evTimeout = false) : patchTimerFd p e = p := by
  simp [patchTimerFd, h]

@[simp] lemma patchTimerFd_kqs (p : Proc) (e : EvId) : (patchTimerFd p e).kqs = p.kqs := by
  simp only [patchTimerFd]
  split <;> rfl

/-- Only the descriptor of the event itself is patched. -/
lemma patchTimerFd_evs (p : Proc) (e e' : EvId) :
    ∃ fd, (patchTimerFd p e).evs e' = { p.evs e' with fd := fd } ∧
      (e' ≠ e ∨ (p.evs e).type.has evTimeout = false → fd = (p.evs e').fd) := by
  simp only [patchTimerFd]
  split
  · next htype =>
    by_cases he : e' = e
    · subst he
      exact ⟨_, Proc.setEv_evs .. |>.trans (if_pos rfl), by simp [htype]⟩
    · exact ⟨(p.evs e').fd, Proc.setEv_evs .. |>.trans (if_neg he), fun _ => rfl⟩
  · exact ⟨(p.evs e').fd, rfl, fun _ => rfl⟩

lemma patchTimerFd_cvInit (p : Proc) (e e' : EvId) :
    ((patchTimerFd p e).evs e').cvInit = (p.evs e').cvInit := by
  obtain ⟨fd, h, -⟩ := patchTimerFd_evs p e e'
  rw [h]

lemma patchTimerFd_type (p : Proc) (e e' : EvId) :
    ((patchTimerFd p e).evs e').type = (p.evs e').type := by
  obtain ⟨fd, h, -⟩ := patchTimerFd_evs p e e'
  rw [h]

lemma not_timeout_of_filterOf {type : EvType} (h : filterOf type = none) :
    type.has evTimeout = false := by
  simp only [filterOf] at h
  split_ifs at h with h₁ h₂ h₃
  simpa using h₃

lemma delRound_cases {c : Cfg} {s : State} {l : Label} {t : Tid} {e : EvId} {base : BaseId}
    {kev : Option KEvent} {op : SyncOp} (hdel : DelCall c s l t e base kev op) :
    Step c s l (delRound s t e base kev op).1 (delRound s t e base kev op).2 := by
  rcases eventDelRetry_cases s.toProc t e base kev .block with
    ⟨hres, hwhy⟩ | ⟨hres, -, hpend, hact, hown⟩ | ⟨k, kn, rfl, hkn, hpend, hown, hres⟩
  · simp only [delRound, hres]
    refine .delErr hdel ?_
    rcases hwhy with h | ⟨h, -⟩ | h
    · exact .inl h
    · cases h
    · exact .inr h
  · simp only [delRound, hres]
    exact .delWait hdel hpend hact hown
  · simp only [delRound, hres]
    exact .delOk hdel hpend hown hkn

lemma finish_cases {c : Cfg} {s s' : State} {t : Tid} {w : ℕ} {o : List Obs}
    (h : stepFinish c s t w = some (s', o)) : Step c s (.finish t w) s' o := by
  simp only [stepFinish] at h
  split at h
  · next b a todo done enlist hph =>
    split at h
    · next hlk =>
      set e := a.kev.udata with he
      cases hfr : a.fresh (s.evs e) with
      | false =>
        simp only [hfr, Bool.false_eq_true, if_false, Proc.setEv_evs, if_true, Proc.setEv_setEv,
          Option.some.injEq, Prod.mk.injEq] at h
        obtain ⟨rfl, rfl⟩ := h
        exact .finishSkip hph hlk hfr
      | true =>
        simp only [hfr, if_true, finishFresh, ← he, Proc.setEv_evs, Proc.setEv_setEv] at h
        set ev₁ : Event := { s.evs e with lk := some t }.inactive with hev₁
        have htype : ev₁.type = (s.evs e).type := rfl
        have hslot₁ : ev₁.slot = (s.evs e).slot := rfl
        rw [htype] at h
        cases hper : (s.evs e).type.has evPersist with
        | true =>
          simp only [hper, if_true, Proc.setEv_evs, Proc.setEv_setEv, Option.some.injEq,
            Prod.mk.injEq] at h
          obtain ⟨rfl, rfl⟩ := h
          exact .finishKeep hph hlk hfr hper
        | false =>
          simp only [hper, Bool.false_eq_true, if_false] at h
          cases hbase : ev₁.evBase with
          | none =>
            simp only [hbase, Option.some.injEq, Prod.mk.injEq] at h
            obtain ⟨rfl, rfl⟩ := h
            exact .abort rfl (.inr ⟨_, _, rfl, .inl ⟨rfl, .inr (.inr ⟨_, _, _, _, _, _, hph, rfl⟩)⟩⟩)
          | some base =>
            simp only [hbase] at h
            have hcases := eventDelRetry_cases (s.setEv e ev₁) t e base
              (initKeventDelete c ev₁ e) .noblock
            simp only [Proc.setEv_evs, if_true, Proc.setEv_kqs] at hcases
            rcases hcases with
              ⟨hres, hwhy⟩ | ⟨-, hblock, -⟩ | ⟨k, kn, hk, hkn, hpend, -, hres⟩
            · simp only [hres] at h
              cases hnd : c.ndebug with
              | true =>
                simp only [hnd, if_true, Proc.setEv_evs, Proc.setEv_setEv, Option.some.injEq,
                  Prod.mk.injEq] at h
                obtain ⟨rfl, rfl⟩ := h
                refine .finishFail hph hlk hfr hper hnd ?_
                rcases hwhy with hpend | ⟨-, hact⟩ | hkn
                · exact .inl hpend
                · cases hact
                · refine .inr ⟨base, hbase, fun x hx => ?_⟩
                  have hs := @initKeventDelete_slot c ev₁ e
                  rw [hslot₁, hx] at hs
                  obtain ⟨k, hk, rfl⟩ := Option.map_eq_some_iff.1 hs
                  rwa [hk] at hkn
              | false =>
                simp only [hnd, Bool.false_eq_true, if_false, Option.some.injEq,
                  Prod.mk.injEq] at h
                obtain ⟨rfl, rfl⟩ := h
                exact .abort rfl (.inr ⟨_, _, rfl, .inl ⟨rfl, .inr (.inr ⟨_, _, _, _, _, _, hph, rfl⟩)⟩⟩)
            · cases hblock
            · simp only [hres, Proc.setEv_evs, if_true, Proc.setEv_setKq, Proc.setEv_setEv,
                Option.some.injEq, Prod.mk.injEq] at h
              obtain ⟨rfl, rfl⟩ := h
              have hslot : (s.evs e).slot = some k.slot := by
                have hs := congrArg (Option.map KEvent.slot) hk
                rwa [initKeventDelete_slot, hslot₁] at hs
              exact .finishDel hph hlk hfr hper hbase hslot hkn hpend
    · simp at h
  · simp at h

lemma add_cases {c : Cfg} {s s' : State} {t : Tid} {e : EvId} {timeout : Option TimeVal}
    {o : List Obs} (h : stepAdd c s t e timeout = some (s', o)) :
    Step c s (.add t e timeout) s' o := by
  simp only [stepAdd] at h
  split at h
  · next hmay =>
    simp only [eventAdd] at h
    cases hbase : (s.evs e).evBase with
    | none =>
      simp only [hbase, Option.some.injEq, Prod.mk.injEq] at h
      obtain ⟨rfl, rfl⟩ := h
      exact .abort rfl (.inl rfl)
    | some base =>
      cases hpend : (s.evs e).pending with
      | true =>
        simp only [hbase, hpend, if_true, Option.some.injEq, Prod.mk.injEq] at h
        obtain ⟨rfl, rfl⟩ := h
        exact .addBusy hmay.1 hmay.2 hpend
      | false =>
        simp only [hbase, hpend, Bool.false_eq_true, if_false, patchTimerFd_type] at h
        cases hf : filterOf (s.evs e).type with
        | none =>
          simp only [hf, patchTimerFd_of_not_timeout (not_timeout_of_filterOf hf),
            Option.some.injEq, Prod.mk.injEq] at h
          obtain ⟨rfl, rfl⟩ := h
          exact .addInval hmay.1 hmay.2 hpend hf
        | some f =>
          simp only [hf] at h
          split at h
          · next heq =>
            simp only [Option.some.injEq, Prod.mk.injEq] at h
            obtain ⟨rfl, rfl⟩ := h
            exact .abort rfl (.inl rfl)
          · next heq =>
            split at heq <;> simp at heq
          · next p kev heq =>
            split at heq
            · simp at heq
            · simp only [AddResult.lock.injEq] at heq
              simp only [Option.some.injEq, Prod.mk.injEq] at h
              obtain ⟨rfl, rfl⟩ := heq
              obtain ⟨rfl, rfl⟩ := h
              exact .addLock hmay.1 hmay.2 hbase hpend hf
  · simp at h

/-- **The inversion lemma.** -/
theorem step_cases {c : Cfg} {s s' : State} {l : Label} {o : List Obs}
    (h : step c s l = some (s', o)) : Step c s l s' o := by
  simp only [step] at h
  split at h
  · simp at h
  cases l with
  | fetch t b slots =>
    simp only [stepFetch] at h
    split at h
    · next hth =>
      split at h
      · next hlen =>
        simp only [Option.map_eq_some_iff, Prod.mk.injEq] at h
        obtain ⟨⟨evl, kq⟩, hf, rfl, rfl⟩ := h
        exact .fetch hth hlen hf
      · simp at h
    · simp at h
  | activate t =>
    simp only [stepActivate] at h
    split at h
    · next b k todo done hph =>
      split at h
      · next hlk =>
        split at h
        · simp only [Option.some.injEq, Prod.mk.injEq] at h
          obtain ⟨rfl, rfl⟩ := h
          exact .abort rfl (.inr ⟨_, _, rfl, .inl ⟨rfl, .inr (.inl ⟨_, _, _, _, _, hph, rfl⟩)⟩⟩)
        · next hno =>
          simp only [Option.some.injEq, Prod.mk.injEq] at h
          obtain ⟨rfl, rfl⟩ := h
          refine .activate hph hlk ?_
          cases hc : c.ndebug with
          | true => exact .inr rfl
          | false =>
            cases ha : activateAssert b k (s.evs k.udata) with
            | none => exact .inl rfl
            | some a => exact absurd hc (hno a ha)
      · simp at h
    · simp at h
  | invoke t =>
    simp only [stepInvoke] at h
    split at h
    · next hph =>
      simp only [Option.some.injEq, Prod.mk.injEq] at h
      obtain ⟨rfl, rfl⟩ := h
      exact .invoke hph
    · simp at h
  | ret t =>
    simp only [stepRet] at h
    split at h
    · next hth =>
      simp only [Option.some.injEq, Prod.mk.injEq] at h
      obtain ⟨rfl, rfl⟩ := h
      exact .ret hth
    · simp at h
  | finish t w => exact finish_cases h
  | advance t =>
    simp only [stepAdvance] at h
    split at h
    · next hph =>
      simp only [Option.some.injEq, Prod.mk.injEq] at h
      obtain ⟨rfl, rfl⟩ := h
      exact .toCalling hph
    · next hph =>
      simp only [Option.some.injEq, Prod.mk.injEq] at h
      obtain ⟨rfl, rfl⟩ := h
      exact .toFinishing hph
    · next hph =>
      split at h
      · simp only [Option.some.injEq, Prod.mk.injEq] at h
        obtain ⟨rfl, rfl⟩ := h
        exact .abort rfl (.inl rfl)
      · next hno =>
        simp only [Option.some.injEq, Prod.mk.injEq] at h
        obtain ⟨rfl, rfl⟩ := h
        refine .enable hph ?_
        rw [not_and_or, Bool.not_eq_false, Bool.not_eq_false] at hno
        exact hno
    · next hph =>
      simp only [Option.some.injEq, Prod.mk.injEq] at h
      obtain ⟨rfl, rfl⟩ := h
      exact .toIdle hph
    · simp at h
  | unlock t =>
    simp only [stepUnlock] at h
    split at h
    · next hph =>
      simp only [Option.some.injEq, Prod.mk.injEq] at h
      obtain ⟨rfl, rfl⟩ := h
      exact .unlock hph
    · simp at h
  | set t e fd type fn arg =>
    simp only [stepSet] at h
    split at h
    · next hmay =>
      split at h
      · simp only [Option.some.injEq, Prod.mk.injEq] at h
        obtain ⟨rfl, rfl⟩ := h
        exact .abort rfl (.inr ⟨e, _, rfl, .inr rfl⟩)
      · next hno =>
        simp only [Option.some.injEq, Prod.mk.injEq] at h
        obtain ⟨rfl, rfl⟩ := h
        refine .set hmay.1 hmay.2 ?_
        cases hc : c.ndebug with
        | true => exact .inr rfl
        | false =>
          cases ha : (s.evs e).firstSet.setAssert fd type with
          | none => exact .inl rfl
          | some a => exact absurd hc (hno a ha)
    · simp at h
  | baseSet t b e =>
    simp only [stepBaseSet] at h
    split at h
    · next hmay =>
      simp only [Option.some.injEq, Prod.mk.injEq] at h
      obtain ⟨rfl, rfl⟩ := h
      simp only [eventBaseSet]
      split
      · next hbusy => exact .baseSetErr hmay.1 hmay.2 hbusy
      · next hbusy =>
        rw [not_or, Bool.not_eq_true, Bool.not_eq_true] at hbusy
        exact .baseSetOk hmay.1 hmay.2 hbusy.1 hbusy.2
    · simp at h
  | add t e timeout => exact add_cases h
  | addLocked t ok =>
    simp only [stepAddLocked] at h
    split at h
    · next e kev hcall =>
      split at h
      · next hlk =>
        split at h
        · simp at h
        · next base hbase =>
          simp only [Option.some.injEq, Prod.mk.injEq] at h
          obtain ⟨rfl, rfl⟩ := h
          cases ok with
          | true => exact .addOk hcall hlk hbase
          | false => exact .addErr hcall hlk
      · simp at h
    · simp at h
  | del t e =>
    simp only [stepDel] at h
    split at h
    · next hmay =>
      split at h
      · simp only [Option.some.injEq, Prod.mk.injEq] at h
        obtain ⟨rfl, rfl⟩ := h
        exact .abort rfl (.inr ⟨_, _, rfl, .inl ⟨rfl, .inl hmay.2.1⟩⟩)
      · next base hbase =>
        simp only [Option.some.injEq] at h
        have hround := delRound_cases (.first (c := c) hmay.1 hmay.2.1 hmay.2.2 hbase)
        rwa [h] at hround
    · simp at h
  | delWake t =>
    simp only [stepDelWake] at h
    split at h
    · next e base kev hcall =>
      split at h
      · next hlk =>
        simp only [Option.some.injEq] at h
        have hround := delRound_cases (.woken (c := c) hcall hlk.1 hlk.2)
        rwa [h] at hround
      · simp at h
    · simp at h
  | spurious t =>
    simp only [stepSpurious] at h
    split at h
    · next hcall =>
      simp only [Option.some.injEq, Prod.mk.injEq] at h
      obtain ⟨rfl, rfl⟩ := h
      exact .spurious hcall
    · simp at h
  | cleanup t e =>
    simp only [stepCleanup] at h
    split at h
    · next hmay =>
      simp only [Option.some.injEq, Prod.mk.injEq] at h
      obtain ⟨rfl, rfl⟩ := h
      exact .cleanup hmay.1 hmay.2
    · simp at h
  | close fd =>
    simp only [stepClose, Option.some.injEq, Prod.mk.injEq] at h
    obtain ⟨rfl, rfl⟩ := h
    exact .close

end Skq.Evcompat
