import SkqBench.Lib.Inverse
import SkqBench.Evcompat.Batch

/-!
# The flag and the knote

`EVS_PENDING`, `ev_base`, `fd` and the filter of `type` say where an event takes itself to be
registered (`Event.home`); the knotes of the kernel carry the event they were registered for
(`State.knoteOf`).  The two tables agree as long as every call meets `RegOK`: `event_set` on a
pending event keeps its fd and its filter, the change an `event_add` submits is still the one for
the event and takes no slot of another event, the change an `event_del` submits after a wait
deletes no knote of another event, and no descriptor with a knote is closed.

`RegStep` is the abstract step on the two tables; `Step.regStep` says that every step of the
process is one of them.
-/

namespace Skq.Evcompat

open Lib

/-- A base and a slot, as far as they are defined. -/
abbrev Place := Option BaseId × Option Slot

/-- Where the event takes itself to be registered. -/
def Event.home (ev : Event) : Option Place :=
  if ev.cvInit = cvInitMagic ∧ ev.pending = true then some (ev.evBase, ev.slot) else none

/-- Where an event takes itself to be registered. -/
def State.home (s : State) (e : EvId) : Option Place := (s.evs e).home

/-- The event the knote in a place was registered for. -/
def State.knoteOf (s : State) : Place → Option EvId
  | (some b, some x) => (s.kqs b x).map fun kn => kn.kev.udata
  | _ => none

/-- The kernel and the events agree on what is registered where. -/
def RegInv (s : State) : Prop := Inverse s.knoteOf s.home

/-- An event is pending exactly if the kqueue of its base holds its knote under its fd and filter,
and no other knote carries it. -/
def Registered (s : State) (e : EvId) : Prop :=
  ((s.evs e).pending = true ↔ ∃ b x kn, (s.evs e).evBase = some b ∧ (s.evs e).slot = some x ∧
    s.kqs b x = some kn ∧ kn.kev.udata = e) ∧
  ∀ b x kn, s.kqs b x = some kn → kn.kev.udata = e →
    (s.evs e).evBase = some b ∧ (s.evs e).slot = some x

/-- What the callers have to respect. -/
def RegOK (s : State) : Label → Prop
  | .set _ e fd type _ _ => s.isSet e → (s.evs e).pending = true →
      (filterOf type).map (fun f => (fd, f)) = (s.evs e).slot
  | .addLocked t true => ∀ e kev b, (s.threads t).call = some (.addLock e kev) →
      (s.evs e).evBase = some b → (s.evs e).slot = some kev.slot ∧
        ∀ kn, s.kqs b kev.slot = some kn → kn.kev.udata = e
  | .delWake t => ∀ e base k, (s.threads t).call = some (.delWait e base (some k)) →
      (s.evs e).pending = true → ((s.evs e).active = true → (s.evs e).owner = some t) →
      ∀ kn, s.kqs base k.slot = some kn → kn.kev.udata = e
  | .close fd => ∀ b x, x.1 = fd → x.2 ≠ .timer → s.kqs b x = none
  | _ => True

/-! ## The tables -/

lemma home_eq_some {s : State} {e : EvId} {pl : Place} : s.home e = some pl ↔
    s.isSet e ∧ (s.evs e).pending = true ∧ ((s.evs e).evBase, (s.evs e).slot) = pl := by
  simp only [State.home, Event.home, State.isSet]
  split
  · next h => simp [h]
  · next h =>
    simp only [reduceCtorEq, false_iff]
    exact fun h' => h ⟨h'.1, h'.2.1⟩

lemma knoteOf_eq_some {s : State} {pl : Place} {e : EvId} : s.knoteOf pl = some e ↔
    ∃ b x kn, pl = (some b, some x) ∧ s.kqs b x = some kn ∧ kn.kev.udata = e := by
  obtain ⟨_ | b, _ | x⟩ := pl
  · simp [State.knoteOf]
  · simp [State.knoteOf]
  · simp [State.knoteOf]
  · simp only [State.knoteOf, Option.map_eq_some_iff]
    constructor
    · rintro ⟨kn, hkn, hu⟩
      exact ⟨b, x, kn, rfl, hkn, hu⟩
    · rintro ⟨_, _, kn, heq, hkn, hu⟩
      obtain ⟨rfl, rfl⟩ := heq
      exact ⟨kn, hkn, hu⟩

/-- A store to an event changes its own entry. -/
lemma home_setEv {s s' : State} {e : EvId} {ev : Event}
    (h : ∀ e', s'.evs e' = if e' = e then ev else s.evs e') :
    s'.home = Function.update s.home e ev.home := by
  funext e'
  rw [Function.update_apply, State.home, h]
  split <;> rfl

lemma home_setEv_same {s s' : State} {e : EvId} {ev : Event}
    (h : ∀ e', s'.evs e' = if e' = e then ev else s.evs e') (hev : ev.home = (s.evs e).home) :
    s'.home = s.home := by
  rw [home_setEv h, hev]
  exact Function.update_eq_self e s.home

/-- The table of the kernel follows from what is registered. -/
lemma knoteOf_congr {s s' : State}
    (h : ∀ b x, (s'.kqs b x).map Knote.kev = (s.kqs b x).map Knote.kev) :
    s'.knoteOf = s.knoteOf := by
  funext pl
  obtain ⟨_ | b, _ | x⟩ := pl
  · rfl
  · rfl
  · rfl
  · have hu := congrArg (Option.map KEvent.udata) (h b x)
    simpa [State.knoteOf, Function.comp_def] using hu

/-- A change of one slot changes one place. -/
lemma knoteOf_update {s s' : State} {b : BaseId} {x : Slot} {r : Option Knote}
    (h : ∀ b' y, s'.kqs b' y = if b' = b ∧ y = x then r else s.kqs b' y) :
    s'.knoteOf = Function.update s.knoteOf (some b, some x) (r.map fun kn => kn.kev.udata) := by
  funext pl
  rw [Function.update_apply]
  obtain ⟨_ | b', _ | y⟩ := pl
  · rfl
  · rfl
  · simp [State.knoteOf]
  · simp only [State.knoteOf, h, Prod.mk.injEq, Option.some.injEq]
    split <;> rfl

/-! ## The abstract step -/

/-- What a step can do to the two tables. -/
inductive RegStep (s : State) : Label → State → Prop
  | same {l : Label} {s' : State} (hk : s'.knoteOf = s.knoteOf) (hh : s'.home = s.home) :
      RegStep s l s'
  | set {t : Tid} {e : EvId} {fd : ℤ} {type : EvType} {fn arg : ℕ} {s' : State}
      (hset : s.isSet e) (hpend : (s.evs e).pending = true) (hk : s'.knoteOf = s.knoteOf)
      (hh : s'.home = Function.update s.home e
        (some ((s.evs e).evBase, (filterOf type).map fun f => (fd, f)))) :
      RegStep s (.set t e fd type fn arg) s'
  | add {t : Tid} {e : EvId} {kev : KEvent} {b : BaseId} {s' : State}
      (hcall : (s.threads t).call = some (.addLock e kev)) (hbase : (s.evs e).evBase = some b)
      (hk : s'.knoteOf = Function.update s.knoteOf (some b, some kev.slot) (some e))
      (hh : s'.home = Function.update s.home e (some (some b, (s.evs e).slot))) :
      RegStep s (.addLocked t true) s'
  | delete {l : Label} {e : EvId} {b : BaseId} {x : Slot} {kn : Knote} {s' : State}
      (hset : s.isSet e) (hpend : (s.evs e).pending = true) (hkn : s.kqs b x = some kn)
      (hplace : (s.evs e).evBase = some b ∧ (s.evs e).slot = some x ∨
        ∃ t k, l = .delWake t ∧ (s.threads t).call = some (.delWait e b (some k)) ∧ k.slot = x ∧
          ((s.evs e).active = true → (s.evs e).owner = some t))
      (hk : s'.knoteOf = Function.update s.knoteOf (some b, some x) none)
      (hh : s'.home = Function.update s.home e none) :
      RegStep s l s'
  | close {fd : ℤ} {s' : State} (hkq : ∀ b, s'.kqs b = (s.kqs b).close fd)
      (hh : s'.home = s.home) : RegStep s (.close fd) s'

/-- A store that changes nothing `home` depends on, next to a change of the kernel that keeps
every registration. -/
lemma RegStep.store {s s' : State} {l : Label} {e : EvId} {ev : Event}
    (hkq : ∀ b x, (s'.kqs b x).map Knote.kev = (s.kqs b x).map Knote.kev)
    (hev : ∀ e', s'.evs e' = if e' = e then ev else s.evs e')
    (hhome : ev.home = (s.evs e).home) : RegStep s l s' :=
  .same (knoteOf_congr hkq) (home_setEv_same hev hhome)

lemma home_unset {ev : Event} (h : ev.pending = false) : ev.home = none := by
  simp [Event.home, h]

lemma firstSet_pending {ev : Event} (h : ev.firstSet.pending = true) :
    ev.cvInit = cvInitMagic ∧ ev.pending = true := by
  by_cases hev : ev.cvInit = cvInitMagic
  · simpa [Event.firstSet, hev] using h
  · simp [Event.firstSet, hev] at h

lemma firstSet_of_magic {ev : Event} (h : ev.cvInit = cvInitMagic) : ev.firstSet = ev := by
  simp [Event.firstSet, h]

lemma not_home_of_not_pending {ev : Event} (h : ev.firstSet.pending = false) : ev.home = none := by
  by_cases hev : ev.cvInit = cvInitMagic
  · rw [firstSet_of_magic hev] at h
    exact home_unset h
  · simp [Event.home, hev]

/-- A call just made addresses the place of the event; a call after a wait the place it had
computed. -/
lemma DelCall.place {c : Cfg} {s : State} {l : Label} {t : Tid} {e : EvId} {base : BaseId}
    {k : KEvent} {op : SyncOp} (h : DelCall c s l t e base (some k) op) :
    (s.evs e).evBase = some base ∧ (s.evs e).slot = some k.slot ∨
      l = .delWake t ∧ (s.threads t).call = some (.delWait e base (some k)) := by
  generalize hkev : some k = kev at h
  cases h with
  | first hmay hset hlk hbase =>
    refine .inl ⟨hbase, ?_⟩
    rw [← initKeventDelete_slot (c := c) (e := e), ← hkev]
    rfl
  | woken hcall hlk hcv => exact .inr ⟨rfl, by rw [hcall, ← hkev]⟩

/-- **Every step is an abstract step.** -/
theorem Step.regStep {c : Cfg} {s s' : State} {l : Label} {o : List Obs} (hs : Step c s l s' o)
    (hwf : Wf s) : RegStep s l s' := by
  cases hs with
  | @fetch t b slots evl kq hth hlen hf =>
    refine .same (knoteOf_congr fun b' x => ?_) rfl
    simp only [State.setPhase_toProc, State.setProc_toProc, Proc.setKq_kqs]
    split
    · next hb => rw [hb]; exact fetch_kev hf x
    · rfl
  | @enable t b done enlist hph hok =>
    refine .same (knoteOf_congr fun b' x => ?_) rfl
    simp only [State.setPhase_toProc, State.setProc_toProc, Proc.setKq_kqs]
    split
    · next hb => rw [hb]; exact enableAll_kev _ _ x
    · rfl
  | invoke | ret | toCalling | toFinishing | toIdle | baseSetErr | addBusy | addInval | addErr
  | delErr | abort => exact .same rfl rfl
  | activate | finishSkip | finishKeep | finishFail | unlock | delWait | spurious | cleanup =>
    exact .store (fun b x => rfl) (fun e' => Proc.setEv_evs ..) rfl
  | @baseSetOk t b e hmay hset hact hpend =>
    refine .store (fun b x => rfl) (fun e' => Proc.setEv_evs ..) ?_
    rw [home_unset hpend, home_unset (by exact hpend)]
  | @addLock t e timeout f base hmay hset hbase hpend hfilter =>
    refine .same (knoteOf_congr fun b x => ?_) ?_
    · simp only [State.setCall_toProc, State.setProc_toProc, patchTimerFd_kqs]
    · funext e'
      obtain ⟨fd, hev, hfd⟩ := patchTimerFd_evs s.toProc e e'
      simp only [State.home, State.setCall_toProc, State.setProc_toProc, hev]
      by_cases he : e' = e
      · rw [home_unset (show (s.evs e').pending = false by rw [he, hpend])]
        exact home_unset (by rw [he]; exact hpend)
      · rw [hfd (.inl he)]
  | @set t e fd type fn arg hmay hlk hok =>
    have hstore : ∀ e', (s.setProc (s.setEv e ((s.evs e).firstSet.assign fd type fn arg))).evs e' =
        if e' = e then (s.evs e).firstSet.assign fd type fn arg else s.evs e' :=
      fun e' => Proc.setEv_evs ..
    cases hpend : (s.evs e).firstSet.pending with
    | false =>
      refine .same rfl (home_setEv_same hstore ?_)
      rw [not_home_of_not_pending hpend]
      exact home_unset hpend
    | true =>
      obtain ⟨hset, hpend'⟩ := firstSet_pending hpend
      refine .set hset hpend' rfl ?_
      rw [home_setEv hstore, firstSet_of_magic hset]
      simp [Event.home, Event.assign, Event.slot, hset, hpend']
  | @finishDel t w b base a todo done enlist x kn hph hlk hfresh hper hbase hx hkn hpend =>
    have hset : s.isSet a.kev.udata := hwf.batch t a.kev.udata (by simp [hph, Phase.batch, Phase.toLock])
    refine .delete hset hpend hkn (.inl ⟨hbase, hx⟩) ?_ ?_
    · refine knoteOf_update (r := none) fun b' y => ?_
      simp only [State.setPhase_toProc, State.setProc_toProc, Proc.setEv_kqs, Proc.setKq_kqs]
      by_cases hb : b' = base <;> simp [hb, Function.update_apply]
    · refine (home_setEv fun e' => Proc.setEv_evs ..).trans ?_
      rw [home_unset rfl]
  | @addOk t e kev base hcall hlk hbase =>
    obtain ⟨hset, hudata⟩ := hwf.addLock t e kev hcall
    refine .add hcall hbase ?_ ?_
    · rw [← hudata]
      refine knoteOf_update (r := some ⟨kev, true⟩) fun b' y => ?_
      simp only [State.setCall_toProc, State.setProc_toProc, Proc.setEv_kqs, Proc.setKq_kqs]
      by_cases hb : b' = base <;> simp [hb]
    · refine (home_setEv fun e' => Proc.setEv_evs ..).trans ?_
      simp only [State.isSet] at hset
      simp [Event.home, hset, hbase, Event.slot]
  | @delOk _ t e base k kn op hdel hpend hown hkn =>
    refine .delete (hdel.isSet hwf) hpend hkn ?_ ?_ ?_
    · rcases hdel.place with hplace | ⟨hl, hcall⟩
      · exact .inl hplace
      · exact .inr ⟨t, k, hl, hcall, rfl, hown⟩
    · refine knoteOf_update (r := none) fun b' y => ?_
      simp only [State.setCall_toProc, State.setProc_toProc, Proc.setEv_kqs, Proc.setKq_kqs]
      by_cases hb : b' = base <;> simp [hb, Function.update_apply]
    · refine (home_setEv fun e' => Proc.setEv_evs ..).trans ?_
      rw [home_unset (Event.deactivate_pending _)]
  | close => exact .close (fun b => rfl) rfl

/-! ## The invariant -/

lemma State.Init.regInv {s : State} (h : s.Init) : RegInv s := by
  intro pl e
  constructor
  · intro hk
    obtain ⟨b, x, kn, -, hkn, -⟩ := knoteOf_eq_some.1 hk
    rw [h.kqs b x] at hkn
    cases hkn
  · intro hh
    exact absurd (home_eq_some.1 hh).1 (h.unset e)

/-- The agreement, read at a knote. -/
lemma RegInv.of_knote {s : State} (h : RegInv s) {b : BaseId} {x : Slot} {kn : Knote}
    (hkn : s.kqs b x = some kn) : s.isSet kn.kev.udata ∧ (s.evs kn.kev.udata).pending = true ∧
      (s.evs kn.kev.udata).evBase = some b ∧ (s.evs kn.kev.udata).slot = some x := by
  have hh := (h (some b, some x) kn.kev.udata).1 (knoteOf_eq_some.2 ⟨b, x, kn, rfl, hkn, rfl⟩)
  obtain ⟨hset, hpend, hplace⟩ := home_eq_some.1 hh
  exact ⟨hset, hpend, congrArg Prod.fst hplace, congrArg Prod.snd hplace⟩

/-- The agreement, read at a pending event. -/
lemma RegInv.of_pending {s : State} (h : RegInv s) {e : EvId} (hset : s.isSet e)
    (hpend : (s.evs e).pending = true) : ∃ b x kn, (s.evs e).evBase = some b ∧
      (s.evs e).slot = some x ∧ s.kqs b x = some kn ∧ kn.kev.udata = e := by
  have hk := (h _ e).2 (home_eq_some.2 ⟨hset, hpend, rfl⟩)
  obtain ⟨b, x, kn, hplace, hkn, hu⟩ := knoteOf_eq_some.1 hk
  exact ⟨b, x, kn, congrArg Prod.fst hplace, congrArg Prod.snd hplace, hkn, hu⟩

lemma RegInv.registered {s : State} (h : RegInv s) {e : EvId} (hset : s.isSet e) :
    Registered s e := by
  refine ⟨⟨h.of_pending hset, ?_⟩, ?_⟩
  · rintro ⟨b, x, kn, -, -, hkn, rfl⟩
    exact (h.of_knote hkn).2.1
  · rintro b x kn hkn rfl
    exact (h.of_knote hkn).2.2

/-- Guarded abstract steps keep the agreement. -/
lemma RegInv.step {s s' : State} {l : Label} (h : RegInv s) (hok : RegOK s l)
    (hs : RegStep s l s') : RegInv s' := by
  cases hs with
  | same hk hh =>
    rw [RegInv, hk, hh]
    exact h
  | @set t e fd type fn arg _ hset hpend hk hh =>
    have hsame : s.home e = some ((s.evs e).evBase, (filterOf type).map fun f => (fd, f)) := by
      rw [hok hset hpend]
      exact home_eq_some.2 ⟨hset, hpend, rfl⟩
    rw [RegInv, hk, hh, ← hsame, Function.update_eq_self]
    exact h
  | @add t e kev b _ hcall hbase hk hh =>
    obtain ⟨hslot, hfree⟩ := hok e kev b hcall hbase
    rw [RegInv, hk, hh, hslot]
    refine h.link ?_ ?_
    · intro e' hk'
      obtain ⟨b', x, kn, hplace, hkn, rfl⟩ := knoteOf_eq_some.1 hk'
      obtain ⟨hb, hx⟩ := Prod.mk.inj hplace
      rw [← Option.some.inj hb, ← Option.some.inj hx] at hkn
      exact hfree kn hkn
    · intro pl hpl
      rw [← (home_eq_some.1 hpl).2.2, hbase, hslot]
  | @delete _ e b x kn _ hset hpend hkn hplace hk hh =>
    rw [RegInv, hk, hh]
    refine h.unlink (knoteOf_eq_some.2 ⟨b, x, kn, rfl, hkn, ?_⟩)
    rcases hplace with ⟨hbase, hslot⟩ | ⟨t, k, rfl, hcall, rfl, hown⟩
    · obtain ⟨b', x', kn', hbase', hslot', hkn', hu⟩ := h.of_pending hset hpend
      rw [hbase] at hbase'
      rw [hslot] at hslot'
      obtain rfl := Option.some.inj hbase'
      obtain rfl := Option.some.inj hslot'
      rw [hkn] at hkn'
      rw [Option.some.inj hkn', hu]
    · exact hok e b k hcall hpend hown kn hkn
  | @close fd _ hkq hh =>
    have hk : s'.knoteOf = s.knoteOf := by
      refine knoteOf_congr fun b x => ?_
      rw [hkq, Kqueue.close]
      split
      · next hx => rw [hok b x hx.1 hx.2]
      · rfl
    rw [RegInv, hk, hh]
    exact h

/-- The agreement holds in every guarded run, and with it the states stay well-formed. -/
lemma regInv_of_run {c : Cfg} {ok : State → Label → Prop} (hok : ∀ s l, ok s l → RegOK s l)
    {s₀ s : State} {tr : List Obs} (hr : Run (step c) ok s₀ tr s) (h : RegInv s₀ ∧ Wf s₀) :
    RegInv s ∧ Wf s :=
  hr.inv (fun s => RegInv s ∧ Wf s) h fun _ _ _ _ h hl hs =>
    ⟨h.1.step (hok _ _ hl) ((step_cases hs).regStep h.2), h.2.step (step_cases hs)⟩

/-- **The flag and the knote agree** in every run whose calls meet `RegOK`. -/
theorem registered_of_run (c : Cfg) {s₀ s : State} {tr : List Obs} (h0 : s₀.Init)
    (hr : Run (step c) RegOK s₀ tr s) {e : EvId} (he : s.isSet e) : Registered s e :=
  (regInv_of_run (fun _ _ h => h) hr ⟨h0.regInv, h0.wf⟩).1.registered he

lemma regOK_addLocked {s : State} {t : Tid} {e : EvId} {kev : KEvent} {b : BaseId}
    (hcall : (s.threads t).call = some (.addLock e kev)) (hbase : (s.evs e).evBase = some b)
    (hslot : (s.evs e).slot = some kev.slot) (hfree : s.kqs b kev.slot = none) :
    RegOK s (.addLocked t true) := by
  intro e' kev' b' hcall' hbase'
  rw [hcall] at hcall'
  obtain ⟨rfl, rfl⟩ := Call.addLock.inj (Option.some.inj hcall')
  rw [hbase] at hbase'
  obtain rfl := Option.some.inj hbase'
  exact ⟨hslot, fun kn hkn => by simp [hfree] at hkn⟩

/-- An event is made persistent while it is pending, deleted, and set up for another descriptor
and another base. -/
def moveRun : List Label :=
  register 0 0 0 3 evRead none ++
    [.set 0 0 3 (evRead ||| evPersist) 0 0, .del 0 0, .set 0 0 4 evWrite 0 0, .baseSet 0 1 0,
      .add 0 0 none, .addLocked 0 true]

lemma moveRun_guarded : Guarded (step ⟨false, false⟩) RegOK State.zero moveRun := by
  refine ⟨?_, trivial, trivial, regOK_addLocked rfl rfl rfl rfl, fun _ _ => rfl, trivial, ?_,
    trivial, trivial, regOK_addLocked rfl rfl rfl rfl, trivial⟩
  · intro hset
    cases hset
  · intro _ hpend
    cases hpend

/-- The run above ends with the event registered under its new descriptor. -/
theorem registered_moveRun : ∃ s tr, Run (step ⟨false, false⟩) RegOK State.zero tr s ∧
    Registered s 0 ∧ s.home 0 = some (some 1, some (4, .write)) := by
  obtain ⟨s, tr, hr, hhome⟩ := Run.exists_of_exec (step ⟨false, false⟩) State.zero moveRun
    (fun r => r.1.home 0) (some (some 1, some (4, .write))) (by decide +kernel) moveRun_guarded
  have hset := (home_eq_some.1 hhome).1
  exact ⟨s, tr, hr, registered_of_run ⟨false, false⟩ State.zero_init hr hset, hhome⟩

/-- **`event_set` moves a pending event away from its knote.**  The event is pending and not
active, so `event_set` checks nothing; afterwards the knote is still under the old descriptor. -/
theorem not_registered_after_set : ∃ s tr, Run (step ⟨false, false⟩) anyStep State.zero tr s ∧
    s.aborted = none ∧ s.isSet 0 ∧ ¬ Registered s 0 := by
  obtain ⟨s, tr, hr, hs⟩ := Run.exists_of_exec (step ⟨false, false⟩) State.zero
    (register 0 0 0 3 evRead none ++ [.set 0 0 4 evRead 0 0])
    (fun r => (r.1.home 0, r.1.aborted.isNone && (r.1.kqs 0 (4, .read)).isNone))
    (some (some 0, some (4, .read)), true) (by decide +kernel) guarded_anyStep
  simp only [Prod.mk.injEq, Bool.and_eq_true, Option.isNone_iff_eq_none] at hs
  obtain ⟨hhome, hab, hkq⟩ := hs
  obtain ⟨hset, hpend, hplace⟩ := home_eq_some.1 hhome
  obtain ⟨hbase, hslot⟩ := Prod.mk.inj hplace
  refine ⟨s, tr, hr, hab, hset, fun hreg => ?_⟩
  obtain ⟨b, x, kn, hbase', hslot', hkn, -⟩ := hreg.1.1 hpend
  rw [hbase] at hbase'
  rw [hslot] at hslot'
  rw [← Option.some.inj hbase', ← Option.some.inj hslot', hkq] at hkn
  cases hkn

end Skq.Evcompat
