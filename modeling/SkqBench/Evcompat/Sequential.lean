import SkqBench.Evcompat.Steps

/-!
# Calls that no other thread comes between

`event_add`, `event_base_set` and `event_del_flags` as whole calls, for any answer of the kernel.  A
call that returns `CS_ERR` has changed nothing, except that `event_add` draws a timer descriptor
before anything can fail (`unchanged_of_err`).  The sections `Evcompat.Event` cuts the calls into
make up the whole call (`eventAddCall_eq`, `eventDelFlags_eq`, `exec_eventAddCall`).
-/

namespace Skq.Evcompat

open Lib

/-- The answer to one change: the kqueue after it, or an error, which leaves the kqueue as it was.
The change is `none` if `init_kevent` did not fill it. -/
abbrev Kernel := Kqueue → Option KEvent → Option Kqueue

/-- How a call ends.
* `abort`: an assertion fails.
* `fault`: the base is `NULL` and its descriptor is read.
* `wait`: the thread blocks. -/
inductive CallResult
  | abort (a : Assertion)
  | fault
  | wait
  | done (p : Proc) (rc : Rc)

/-- `event_add`. -/
def eventAddCall (c : Cfg) (kernel : Kernel) (p : Proc) (e : EvId) (timeout : Option TimeVal) :
    CallResult :=
  if (p.evs e).evBase = none ∧ c.ndebug = false then .abort .addBase
  else if (p.evs e).pending then .done p .err
  else
    let p' := patchTimerFd p e
    match filterOf (p'.evs e).type with
    | none => .done p' .err
    | some f =>
      if f = .timer ∧ timeout = none ∧ c.ndebug = false then .abort .timeout
      else
        match (p'.evs e).evBase with
        | none => .fault
        | some base =>
          match kernel (p'.kqs base) (some (mkKevent c (p'.evs e) e f (!c.multKq) timeout)) with
          | none => .done p' .err
          | some kq => .done ((p'.setKq base kq).setEv e
              { p'.evs e with pending := true }.deactivate) .ok

/-- `event_del_flags`, by thread `self`. -/
def eventDelFlags (c : Cfg) (kernel : Kernel) (p : Proc) (self : Tid) (e : EvId) (flags : DelFlag) :
    CallResult :=
  let ev := p.evs e
  if ev.evBase = none ∧ c.ndebug = false then .abort .delBase
  else if ev.pending = false then .done p .err
  else if ev.active = true ∧ ev.owner ≠ some self then
    match flags with
    | .noblock => .done p .err
    | .block => .wait
  else
    match ev.evBase with
    | none => .fault
    | some base =>
      match kernel (p.kqs base) (initKeventDelete c ev e) with
      | none => .done p .err
      | some kq => .done ((p.setKq base kq).setEv e { ev with pending := false }.deactivate) .ok

/-- The calls that return a status, on one event. -/
inductive StatusCall
  | add (timeout : Option TimeVal)
  | baseSet (b : BaseId)
  | del (flags : DelFlag)
  deriving DecidableEq, Repr

/-- One call by thread `self`. -/
def StatusCall.run (c : Cfg) (kernel : Kernel) (p : Proc) (self : Tid) (e : EvId) :
    StatusCall → CallResult
  | .add timeout => eventAddCall c kernel p e timeout
  | .baseSet b => .done (eventBaseSet p b e).1 (eventBaseSet p b e).2
  | .del flags => eventDelFlags c kernel p self e flags

/-! ## A call that fails -/

/-- The event and the kqueues are as they were. -/
def Unchanged (p p' : Proc) (e : EvId) : Prop := p'.evs e = p.evs e ∧ p'.kqs = p.kqs

/-- The call is an `event_add` that gets as far as the timer descriptor. -/
def StatusCall.DrawsTimer (ev : Event) : StatusCall → Prop
  | .add _ => ev.pending = false ∧ ev.type.has evTimeout = true
  | _ => False

instance (ev : Event) : ∀ x : StatusCall, Decidable (x.DrawsTimer ev)
  | .add _ => inferInstanceAs (Decidable (_ ∧ _))
  | .baseSet _ | .del _ => isFalse id

variable {c : Cfg} {kernel : Kernel} {p p' : Proc} {self : Tid} {e : EvId}

lemma eventAddCall_of_err {timeout : Option TimeVal}
    (h : eventAddCall c kernel p e timeout = .done p' .err) :
    p' = if (p.evs e).pending then p else patchTimerFd p e := by
  unfold eventAddCall at h
  dsimp only at h
  split at h
  · cases h
  split at h
  · next hp => cases h; rw [if_pos hp]
  next hp =>
  rw [if_neg hp]
  split at h
  · cases h; rfl
  split at h
  · cases h
  split at h
  · cases h
  split at h
  · cases h; rfl
  · cases h

lemma eventDelFlags_of_err {flags : DelFlag}
    (h : eventDelFlags c kernel p self e flags = .done p' .err) :
    p' = p := by
  unfold eventDelFlags at h
  dsimp only at h
  split at h
  · cases h
  split at h
  · cases h; rfl
  split at h
  · cases flags with
    | noblock => cases h; rfl
    | block => cases h
  split at h
  · cases h
  split at h
  · cases h; rfl
  · cases h

lemma eventBaseSet_of_err {b : BaseId} (h : (eventBaseSet p b e).2 = .err) :
    (eventBaseSet p b e).1 = p := by
  unfold eventBaseSet at h ⊢
  split at h
  · next hbusy => rw [if_pos hbusy]
  · cases h

/-- The next timer descriptor is given to the event. -/
def Proc.drawTimer (p : Proc) (e : EvId) : Proc :=
  { p with evs := Function.update p.evs e { p.evs e with fd := p.timerBase.toInt },
           timerBase := p.timerBase - 1 }

lemma patchTimerFd_of_has (h : (p.evs e).type.has evTimeout = true) :
    patchTimerFd p e = p.drawTimer e := by
  rw [patchTimerFd, if_pos h]
  rfl

/-- The memory a failed call leaves. -/
lemma StatusCall.eq_of_err {x : StatusCall} (h : x.run c kernel p self e = .done p' .err) :
    p' = if x.DrawsTimer (p.evs e) then p.drawTimer e else p := by
  cases x with
  | add timeout =>
    rw [eventAddCall_of_err h]
    cases hp : (p.evs e).pending with
    | true => simp [DrawsTimer, hp]
    | false =>
      cases hty : (p.evs e).type.has evTimeout with
      | true => simp [DrawsTimer, hp, hty, patchTimerFd_of_has hty]
      | false => simp [DrawsTimer, hty, patchTimerFd_of_not_timeout hty]
  | baseSet b =>
    simp only [run, CallResult.done.injEq] at h
    simp [DrawsTimer, ← h.1, eventBaseSet_of_err h.2]
  | del flags => simp [DrawsTimer, eventDelFlags_of_err h]

/-- **A call that returns `CS_ERR` has changed nothing**, except that an `event_add` of a timer that
is not pending has given it the next timer descriptor. -/
theorem unchanged_of_err (x : StatusCall) (h : x.run c kernel p self e = .done p' .err) :
    (∀ e', e' ≠ e → p'.evs e' = p.evs e') ∧ p'.kqs = p.kqs ∧
      p'.evs e =
        if x.DrawsTimer (p.evs e) then { p.evs e with fd := p.timerBase.toInt } else p.evs e := by
  rw [x.eq_of_err h]
  split
  · exact ⟨fun e' he => Function.update_of_ne he _ _, rfl, Function.update_self ..⟩
  · exact ⟨fun _ _ => rfl, rfl, rfl⟩

/-- An event as `event_set` and `event_base_set` leave it. -/
def freshProc (type : EvType) : Proc :=
  (eventBaseSet (State.zero.setEv 0 ((State.zero.evs 0).firstSet.assign 7 type 0 0)) 0 0).1

/-- The kernel refuses every change. -/
def refuse : Kernel := fun _ _ => none

/-- A descriptor is refused, as one that was closed is. -/
theorem unchanged_of_err_refused : ∃ p',
    StatusCall.run ⟨false, false⟩ refuse (freshProc evRead) 0 0 (.add none) = .done p' .err ∧
      p'.evs 0 = (freshProc evRead).evs 0 :=
  ⟨_, rfl, (@unchanged_of_err ⟨false, false⟩ refuse (freshProc evRead) _ 0 0
      (.add none) rfl).2.2.trans
    (if_neg (by decide))⟩

/-- **A timer that is refused has another descriptor.** -/
theorem not_unchanged_timerRefused : ∃ p',
    StatusCall.run ⟨false, false⟩ refuse (freshProc evTimeout) 0 0 (.add (some ⟨1, 0⟩)) =
      .done p' .err ∧
      ¬ Unchanged (freshProc evTimeout) p' 0 :=
  ⟨_, rfl, fun h => absurd (congrArg Event.fd h.1) (by decide)⟩

/-! ## The sections of a call -/

/-- What `EV_ADD` does where the kernel's answer is `ok`. -/
def addChange (ok : Bool) : Kernel := fun kq k => if ok then k.map kq.add else none

/-- What `EV_DELETE` does. -/
def deleteChange : Kernel := fun kq k => k.bind fun k => kq.delete k.slot

/-- The locked part finds the event as the unlocked part has left it. -/
lemma patchTimerFd_self (p : Proc) (e : EvId) :
    ((patchTimerFd p e).evs e).evBase = (p.evs e).evBase ∧
      ((patchTimerFd p e).evs e).lk = (p.evs e).lk := by
  obtain ⟨fd, h, -⟩ := patchTimerFd_evs p e e
  simp [h]

lemma eventAdd_eq_lock {timeout : Option TimeVal} {kev : KEvent}
    (h : eventAdd c p e timeout = .lock p' kev) : p' = patchTimerFd p e := by
  unfold eventAdd at h
  dsimp only at h
  split at h
  · cases h
  split at h
  · cases h
  split at h
  · cases h
  split at h
  · cases h
  · simp only [AddResult.lock.injEq] at h
    exact h.1.symm

/-- `event_add` is its unlocked part, and then its locked one. -/
lemma eventAddCall_eq {base : BaseId} {timeout : Option TimeVal} {ok : Bool}
    (hb : (p.evs e).evBase = some base) :
    eventAddCall c (addChange ok) p e timeout =
      match eventAdd c p e timeout with
      | .abort a => .abort a
      | .done p' => .done p' .err
      | .lock p' kev =>
        .done (eventAddLocked p' e base kev ok).1 (eventAddLocked p' e base kev ok).2 := by
  unfold eventAddCall eventAdd
  simp only [hb, reduceCtorEq, false_and, if_false, (patchTimerFd_self p e).1]
  split
  · rfl
  cases hf : filterOf ((patchTimerFd p e).evs e).type with
  | none => rfl
  | some f =>
    dsimp only
    by_cases habort : f = .timer ∧ timeout = none ∧ c.ndebug = false
    · simp only [if_pos habort]
    · cases ok <;> simp [habort, eventAddLocked, addChange, (patchTimerFd_self p e).1, hb]

/-- `event_del_flags` is its part from `retry` on, with what it has computed before. -/
lemma eventDelFlags_eq {base : BaseId} {flags : DelFlag} (hb : (p.evs e).evBase = some base) :
    eventDelFlags c deleteChange p self e flags =
      match eventDelRetry p self e base (initKeventDelete c (p.evs e) e) flags with
      | .wait => .wait
      | .done p' rc => .done p' rc := by
  unfold eventDelFlags eventDelRetry
  simp only [hb, reduceCtorEq, false_and, if_false, deleteChange]
  split
  · rfl
  split
  · cases flags <;> rfl
  · cases (initKeventDelete c (p.evs e) e).bind fun k => (p.kqs base).delete k.slot <;> rfl

variable {s : State} {t : Tid} {base : BaseId}

/-- A thread that calls `event_add` and is not interrupted. -/
lemma exec_eventAddCall {timeout : Option TimeVal} {ok : Bool} {rc : Rc} (hab : s.aborted = none)
    (hmay : (s.threads t).mayCall = true) (hset : s.isSet e) (hlk : (s.evs e).lk = none)
    (hb : (s.evs e).evBase = some base)
    (h : eventAddCall c (addChange ok) s.toProc e timeout = .done p' rc) :
    ∃ ls s' o, (ls = [.add t e timeout] ∨ ls = [.add t e timeout, .addLocked t ok]) ∧
      exec (step c) s ls = some (s', o) ∧ s'.toProc = p' ∧ .result t (.add e) rc ∈ o := by
  rw [eventAddCall_eq hb] at h
  have hadd : step c s (.add t e timeout) = stepAdd c s t e timeout := by simp [step, hab]
  rw [stepAdd, if_pos ⟨hmay, hset⟩] at hadd
  cases hr : eventAdd c s.toProc e timeout with
  | abort a => simp [hr] at h
  | done p₁ =>
    simp only [hr, CallResult.done.injEq] at h hadd
    obtain ⟨rfl, rfl⟩ := h
    exact ⟨_, _, _, .inl rfl, by simp only [exec, hadd, Option.map_some]; rfl, rfl, by simp⟩
  | lock p₁ kev =>
    simp only [hr, CallResult.done.injEq] at h hadd
    obtain ⟨rfl, rfl⟩ := h
    obtain rfl := eventAdd_eq_lock hr
    obtain ⟨hb₁, hlk₁⟩ := patchTimerFd_self s.toProc e
    have hlocked : step c ((s.setProc (patchTimerFd s.toProc e)).setCall t (some (.addLock e kev)))
        (.addLocked t ok) = some
          ((((s.setProc (patchTimerFd s.toProc e)).setCall t (some (.addLock e kev))).setProc
              (eventAddLocked (patchTimerFd s.toProc e) e base kev ok).1).setCall t none,
            [.sync .lock e ((patchTimerFd s.toProc e).evs e).sync,
              .sync .unlock e ((patchTimerFd s.toProc e).evs e).sync,
              .result t (.add e) (eventAddLocked (patchTimerFd s.toProc e) e base kev ok).2]) := by
      simp [step, stepAddLocked, hab, hb₁, hlk₁, hb, hlk, State.use]
    exact ⟨_, _, _, .inr rfl, by simp only [exec, hadd, hlocked, Option.map_some]; rfl,
      rfl, by simp⟩

/-- A thread that calls `event_del` and does not have to wait. -/
lemma step_eventDelFlags {rc : Rc} (hab : s.aborted = none) (hmay : (s.threads t).mayCall = true)
    (hset : s.isSet e) (hlk : (s.evs e).lk = none) (hb : (s.evs e).evBase = some base)
    (h : eventDelFlags c deleteChange s.toProc t e .block = .done p' rc) :
    ∃ s' o, step c s (.del t e) = some (s', o) ∧ s'.toProc = p' ∧ .result t (.del e) rc ∈ o := by
  rw [eventDelFlags_eq hb] at h
  have hdel : step c s (.del t e) = stepDel c s t e := by simp [step, hab]
  simp only [stepDel, hmay, hset, hlk, hb, and_self, if_true, delRound] at hdel
  cases hr : eventDelRetry s.toProc t e base (initKeventDelete c (s.evs e) e) .block with
  | wait => simp [hr] at h
  | done p₁ rc₁ =>
    simp only [hr, CallResult.done.injEq] at h hdel
    obtain ⟨rfl, rfl⟩ := h
    exact ⟨_, _, hdel, rfl, by simp⟩

end Skq.Evcompat
