import SkqBench.Evcompat.Holding
import SkqBench.Evcompat.Locks
import SkqBench.Evcompat.Registration

/-!
# Who owns an event

Without SKQ at most one thread holds an event, its knote is disabled meanwhile, and what the
activation loop asserts of a fetched event is true (`Owned`).  This is so as long as the calls meet
`OwnOK`.  The main condition is that an `event_add` does not make an event deliverable while a
thread has it fetched and not yet activated: `event_del` gives no hint of such a thread, because
the event is not active, and the second thread to get the knote finds the event active, or a timer
under another id.
-/

namespace Skq.Evcompat

open Lib

/-- The invariant.
* `once`, `one`: an event is held by one thread, once.
* `disabled`: a knote of an event that is held is disabled.
* `slot`: the slot of a kevent that is held has no knote of another event.
* `fetched`, `activated`, `enlist`: what the fields of the event are meanwhile.
* `enabled`: an event with an enabled knote is not active. -/
structure Owned (s : State) : Prop where
  epochs : EpochsLe s
  once : ∀ u e, s.holds u e ≤ 1
  one : ∀ u u' e, 0 < s.holds u e → 0 < s.holds u' e → u = u'
  dispatch : ∀ b x kn, s.kqs b x = some kn → kn.kev.dispatch = true
  call : ∀ t e kev, (s.threads t).call = some (.addLock e kev) → kev.dispatch = true
  disabled : ∀ b x kn u, s.kqs b x = some kn → 0 < s.holds u kn.kev.udata → kn.enabled = false
  slot : ∀ u b, ∀ k ∈ s.held u, ∀ kn, (s.threads u).phase.base = some b →
    s.kqs b k.slot = some kn → kn.kev.udata = k.udata
  fetched : ∀ u b, ∀ k ∈ (s.threads u).phase.fetched, (s.threads u).phase.base = some b →
    (s.evs k.udata).active = false ∧ (s.evs k.udata).fd = k.ident ∧
      (s.evs k.udata).evBase = some b
  activated : ∀ u, ∀ a ∈ (s.threads u).phase.activated, a.epoch = (s.evs a.ev).epoch →
    (s.evs a.ev).active = true ∧ (s.evs a.ev).owner = some u
  enlist : ∀ u, ∀ k ∈ (s.threads u).phase.enlist, (s.evs k.udata).active = false
  enabled : ∀ b x kn, s.kqs b x = some kn → kn.enabled = true →
    (s.evs kn.kev.udata).active = false

/-- What the calls have to respect while events are fetched and not activated. -/
def CallOK (s : State) : Label → Prop
  | .set _ e fd _ _ _ => ∀ u, ∀ k ∈ (s.threads u).phase.fetched, k.udata = e → fd = k.ident
  | .baseSet _ b e => (s.evs e).pending = false →
      ∀ u, ∀ k ∈ (s.threads u).phase.fetched, k.udata = e → (s.threads u).phase.base = some b
  | .add _ e _ => (s.evs e).pending = false → (s.evs e).type.has evTimeout = true →
      ∀ u, ∀ k ∈ (s.threads u).phase.fetched, k.udata ≠ e
  | .addLocked t true => ∀ e kev b, (s.threads t).call = some (.addLock e kev) →
      (s.evs e).evBase = some b → (∀ u, ∀ k ∈ (s.threads u).phase.fetched, k.udata ≠ e) ∧
        ∀ u, ∀ k ∈ s.held u, (s.threads u).phase.base = some b → k.slot = kev.slot → k.udata = e
  | _ => True

/-- The assumptions on a step: the registrations are kept in order, no 32-bit epoch goes around
while an entry is in a batch, and `CallOK`. -/
def OwnOK (s : State) (l : Label) : Prop := RegOK s l ∧ FinishExact s l ∧ CallOK s l

/-! ## Counting -/

section Counting

variable {s : State} {u : Tid} {e : EvId}

lemma holds_eq : s.holds u e =
    ((s.threads u).phase.fetched.countP fun k => k.udata == e) +
      ((((s.threads u).phase.activated.filter fun a => a.epoch == (s.evs a.ev).epoch).map
        Active.kev).countP fun k => k.udata == e) +
      ((s.threads u).phase.enlist.countP fun k => k.udata == e) := by
  simp only [State.holds, State.held, Phase.held, State.epochs, List.countP_append]

/-- An event that is fetched and has a fresh entry is held twice. -/
lemma two_le_holds_fetched {k : KEvent} {a : Active} (hk : k ∈ (s.threads u).phase.fetched)
    (ha : a ∈ (s.threads u).phase.activated) (hep : a.epoch = (s.evs a.ev).epoch)
    (hev : a.ev = k.udata) : 2 ≤ s.holds u k.udata := by
  have hfetched : 0 < (s.threads u).phase.fetched.countP fun k' => k'.udata == k.udata :=
    List.countP_pos_iff.2 ⟨k, hk, by simp⟩
  have hfresh : 0 < (((s.threads u).phase.activated.filter
      fun a => a.epoch == (s.evs a.ev).epoch).map Active.kev).countP
      fun k' => k'.udata == k.udata := by
    refine List.countP_pos_iff.2 ⟨a.kev, List.mem_map_of_mem (List.mem_filter.2 ⟨ha, ?_⟩), ?_⟩
    · simpa using hep
    · simpa using hev
  rw [holds_eq]
  omega

/-- So is one with two fresh entries. -/
lemma two_le_holds_activated {b : BaseId} {a a' : Active} {todo done : List Active}
    {enlist : List KEvent} (hph : (s.threads u).phase = .finishing b (a :: todo) done enlist)
    (ha : a.epoch = (s.evs a.ev).epoch) (ha' : a' ∈ todo) (hep : a'.epoch = (s.evs a'.ev).epoch)
    (hev : a'.ev = a.ev) : 2 ≤ s.holds u a.ev := by
  have htail : 0 < ((todo.filter fun a => a.epoch == (s.evs a.ev).epoch).map
      Active.kev).countP fun k => k.udata == a.ev := by
    refine List.countP_pos_iff.2 ⟨a'.kev, List.mem_map_of_mem (List.mem_filter.2 ⟨ha', ?_⟩), ?_⟩
    · simpa using hep
    · simpa using hev
  rw [holds_eq, hph]
  simp only [Phase.activated, List.filter_cons, ha, beq_self_eq_true, if_true, List.map_cons,
    List.countP_cons_of_pos]
  omega

lemma fetched_held {k : KEvent} (hk : k ∈ (s.threads u).phase.fetched) : k ∈ s.held u :=
  mem_held.2 (.inl hk)

lemma activated_held {a : Active} (ha : a ∈ (s.threads u).phase.activated)
    (hep : a.epoch = (s.evs a.ev).epoch) : a.kev ∈ s.held u :=
  mem_held.2 (.inr (.inl ⟨a, ha, hep, rfl⟩))

lemma enlist_held {k : KEvent} (hk : k ∈ (s.threads u).phase.enlist) : k ∈ s.held u :=
  mem_held.2 (.inr (.inr hk))

lemma enlist_isSet {k : KEvent} (hwf : Wf s) (hlk : LockInv s)
    (hk : k ∈ (s.threads u).phase.enlist) : s.isSet k.udata :=
  locked_isSet hwf (hlk.enlist u k hk)

/-- What is held is an event that has been set. -/
lemma held_isSet {k : KEvent} (hwf : Wf s) (hlk : LockInv s) (hk : k ∈ s.held u) :
    s.isSet k.udata := by
  rcases mem_held.1 hk with hk | ⟨a, ha, -, rfl⟩ | hk
  · exact fetched_isSet hwf hk
  · exact activated_isSet hwf ha
  · exact enlist_isSet hwf hlk hk

end Counting

lemma State.Init.owned {s : State} (h : s.Init) : Owned s := by
  have hheld : ∀ u, s.held u = [] := by
    intro u
    simp [State.held, Phase.held, h.threads u, Phase.fetched, Phase.activated, Phase.enlist]
  refine ⟨fun u a ha => ?_, fun u e => ?_, fun u u' e hu => ?_, fun b x kn hkn => ?_,
    fun t e kev hcall => ?_, fun b x kn u hkn => ?_, fun u b k hk => ?_, fun u b k hk => ?_,
    fun u a ha => ?_, fun u k hk => ?_, fun b x kn hkn => ?_⟩
  · simp [h.threads u, Phase.activated] at ha
  · simp [State.holds, hheld]
  · simp [State.holds, hheld] at hu
  · simp [h.kqs] at hkn
  · simp [h.threads t] at hcall
  · simp [h.kqs] at hkn
  · simp [hheld] at hk
  · simp [h.threads u, Phase.fetched] at hk
  · simp [h.threads u, Phase.activated] at ha
  · simp [h.threads u, Phase.enlist] at hk
  · simp [h.kqs] at hkn

/-! ## A step that asks nothing of the kernel -/

section Quiet

variable {c : Cfg} {s s' : State} {l : Label} {o : List Obs}

/-- The head of an activation loop is held. -/
lemma head_held {t : Tid} {b : BaseId} {k : KEvent} {todo : List KEvent} {done : List Active}
    (hph : (s.threads t).phase = .activating b (k :: todo) done) : k ∈ s.held t := by
  refine fetched_held ?_
  rw [hph]
  exact List.mem_cons_self

/-- A fresh head of a finishing pass is held. -/
lemma Owned.finish_head (h : Owned s) (hok : OwnOK s l) {t : Tid} {w : ℕ} {b : BaseId}
    {a : Active} {todo done : List Active} {enlist : List KEvent} (hl : l = .finish t w)
    (hph : (s.threads t).phase = .finishing b (a :: todo) done enlist)
    (hfresh : a.fresh (s.evs a.ev) = true) :
    a.epoch = (s.evs a.ev).epoch ∧ a.kev ∈ s.held t := by
  have hmem : a ∈ (s.threads t).phase.activated := by
    rw [hph]
    exact List.mem_cons_self
  have hep : a.epoch = (s.evs a.ev).epoch :=
    (fresh_iff (h.epochs t a hmem) (hok.2.1 t w b a todo done enlist hl hph)).1 hfresh
  exact ⟨hep, activated_held hmem hep⟩

/-- The thread that goes on in its activation loop. -/
lemma Step.activate_phase (hs : Step c s l s' o) (hab : s'.aborted = none) {t : Tid} {b : BaseId}
    {k : KEvent} {todo : List KEvent} {done : List Active} (hl : l = .activate t)
    (hph : (s.threads t).phase = .activating b (k :: todo) done) :
    (s'.threads t).phase = .activating b todo (done ++ [⟨k, (s.evs k.udata).epoch⟩]) := by
  subst hl
  generalize hph' : (s'.threads t).phase = ph'
  have hstep := hs.phaseStep hab t
  rw [hph'] at hstep
  cases hstep with
  | keep hl => exact absurd rfl hl
  | activate hph₂ =>
    rw [hph] at hph₂
    cases hph₂
    rfl

/-- The thread that goes on in its finishing pass. -/
lemma Step.finish_phase (hs : Step c s l s' o) (hab : s'.aborted = none) {t : Tid} {w : ℕ}
    {b : BaseId} {a : Active} {todo done : List Active} {enlist : List KEvent}
    (hl : l = .finish t w) (hph : (s.threads t).phase = .finishing b (a :: todo) done enlist) :
    (s'.threads t).phase = .finishing b todo (done ++ [a]) (enlist ++ s.enabledBy c a) := by
  subst hl
  generalize hph' : (s'.threads t).phase = ph'
  have hstep := hs.phaseStep hab t
  rw [hph'] at hstep
  cases hstep with
  | keep hl => exact absurd rfl hl
  | finish hph₂ =>
    rw [hph] at hph₂
    cases hph₂
    rfl

lemma Owned.quiet_once (h : Owned s) (hwf : Wf s) (hok : OwnOK s l) (hs : Step c s l s' o)
    (hab : s'.aborted = none) (hl : ∀ u, NotFetch u l) (u : Tid) (e : EvId) : s'.holds u e ≤ 1 :=
  (hs.holds_le hab hwf h.epochs hok.2.1 (hl u) e).trans (h.once u e)

lemma Owned.quiet_fetched (h : Owned s) (hwf : Wf s) (hok : OwnOK s l) (hs : Step c s l s' o)
    (hab : s'.aborted = none) (hl : ∀ u, NotFetch u l) {u : Tid} {b : BaseId} {k : KEvent}
    (hk' : k ∈ (s'.threads u).phase.fetched) (hb' : (s'.threads u).phase.base = some b) :
    (s'.evs k.udata).active = false ∧ (s'.evs k.udata).fd = k.ident ∧
      (s'.evs k.udata).evBase = some b := by
  have hk := (hs.phaseStep hab u).fetched_source (hl u) hk'
  have hb := (hs.phaseStep hab u).base_source (hl u) hb'
  have hset := fetched_isSet hwf hk
  obtain ⟨hact, hfd, hbase⟩ := h.fetched u b k hk hb
  refine ⟨?_, ?_⟩
  · rcases (hs.evStep hab k.udata).flags_cases hset with
      ⟨hsame, -⟩ | ⟨hold, -⟩ | ⟨t, b₀, k₀, todo, done, hl₀, hph, he, -, -, hep⟩ |
      ⟨t, w, b₀, a, todo, done, enlist, -, -, -, -, hoff, -⟩
    · rw [hsame, hact]
    · rw [hact] at hold
      cases hold
    · have hone := h.one u t k.udata (holds_pos_of_mem (fetched_held hk))
        (holds_pos.2 ⟨k₀, head_held hph, he⟩)
      subst hone
      have hph' := hs.activate_phase hab hl₀ hph
      have htwo : 2 ≤ s'.holds u k.udata := by
        refine two_le_holds_fetched (a := ⟨k₀, (s.evs k₀.udata).epoch⟩) hk' ?_ ?_ he
        · rw [hph']
          simp [Phase.activated]
        · show (s.evs k₀.udata).epoch = (s'.evs k₀.udata).epoch
          rw [he, hep]
      have honce := h.quiet_once hwf hok hs hab hl u k.udata
      omega
    · exact hoff
  · rcases (hs.evStep hab k.udata).addr_cases hset with
      ⟨hfd', hbase'⟩ | ⟨t, fd, type, fn, arg, rfl, hfd', hbase'⟩ |
      ⟨t, b', rfl, hpend, hfd', hbase'⟩ | ⟨t, timeout, rfl, hpend, htype, -⟩
    · rw [hfd', hbase']
      exact ⟨hfd, hbase⟩
    · rw [hfd', hbase']
      exact ⟨hok.2.2 u k hk rfl, hbase⟩
    · rw [hfd', hbase', ← hok.2.2 hpend u k hk rfl]
      exact ⟨hfd, hb⟩
    · exact absurd rfl (hok.2.2 hpend htype u k hk)

lemma Owned.quiet_activated (h : Owned s) (hwf : Wf s) (hok : OwnOK s l) (hs : Step c s l s' o)
    (hab : s'.aborted = none) {u : Tid} {a : Active}
    (ha' : a ∈ (s'.threads u).phase.activated) (hep' : a.epoch = (s'.evs a.ev).epoch) :
    (s'.evs a.ev).active = true ∧ (s'.evs a.ev).owner = some u := by
  rcases (hs.phaseStep hab u).activated_source ha' with ha | ⟨b, k, todo, done, rfl, hph, rfl⟩
  · have hset := activated_isSet hwf ha
    have hle := h.epochs u a ha
    have hle' := (hs.evStep hab a.ev).epoch_le hset
    have hep : a.epoch = (s.evs a.ev).epoch := by omega
    obtain ⟨hact, hown⟩ := h.activated u a ha hep
    have hheld := holds_pos_of_mem (activated_held ha hep)
    rcases (hs.evStep hab a.ev).flags_cases hset with
      ⟨hsame, hsame', -⟩ | ⟨-, -, hlt⟩ | ⟨t, b₀, k₀, todo, done, hl₀, hph, he, -, -, -⟩ |
      ⟨t, w, b₀, a₀, todo, done, enlist, hl₀, hph, he, hfresh, -, -⟩
    · rw [hsame, hsame']
      exact ⟨hact, hown⟩
    · omega
    · have hone := h.one u t a.ev hheld (holds_pos.2 ⟨k₀, head_held hph, he⟩)
      subst hone
      have htwo : 2 ≤ s.holds u k₀.udata := by
        refine two_le_holds_fetched (a := a) ?_ ha hep he.symm
        rw [hph]
        exact List.mem_cons_self
      have honce := h.once u k₀.udata
      omega
    · rw [← he] at hfresh
      obtain ⟨hep₀, hheld₀⟩ := h.finish_head hok hl₀ hph hfresh
      have hone := h.one u t a.ev hheld (holds_pos.2 ⟨a₀.kev, hheld₀, he⟩)
      subst hone
      rw [hs.finish_phase hab hl₀ hph] at ha'
      have htwo := two_le_holds_activated hph hep₀ ha' hep he.symm
      have honce := h.once u a₀.ev
      omega
  · generalize hev : s'.evs k.udata = ev
    have hstep := hs.evStep hab k.udata
    rw [hev] at hstep
    cases hstep with
    | keep hl => exact absurd (by simp [State.target, hph]) hl
    | activate => exact ⟨rfl, rfl⟩
    | delWait hdel | delete hdel => rcases hdel.label with hl | hl <;> cases hl

lemma Owned.quiet_enlist (h : Owned s) (hwf : Wf s) (hlk : LockInv s) (hs : Step c s l s' o)
    (hab : s'.aborted = none) {u : Tid} {k : KEvent} (hk' : k ∈ (s'.threads u).phase.enlist) :
    (s'.evs k.udata).active = false := by
  rcases (hs.phaseStep hab u).enlist_source hk' with
    hk | ⟨w, b, a, todo, done, enlist, rfl, hph, -, hfresh, rfl⟩
  · have hact := h.enlist u k hk
    rcases (hs.evStep hab k.udata).flags_cases (enlist_isSet hwf hlk hk) with
      ⟨hsame, -⟩ | ⟨-, hoff, -⟩ | ⟨t, b₀, k₀, todo, done, -, hph, he, -, -, -⟩ |
      ⟨t, w, b₀, a, todo, done, enlist, -, -, -, -, hoff, -⟩
    · rw [hsame, hact]
    · exact hoff
    · have hone := h.one u t k.udata (holds_pos_of_mem (enlist_held hk))
        (holds_pos.2 ⟨k₀, head_held hph, he⟩)
      rw [hone, hph] at hk
      simp [Phase.enlist] at hk
    · exact hoff
  · generalize hev : s'.evs a.kev.udata = ev
    have hstep := hs.evStep hab a.kev.udata
    rw [hev] at hstep
    cases hstep with
    | keep hl => exact absurd (by simp [State.target, hph]) hl
    | finishSkip hph' _ _ hfresh' =>
      rw [hph] at hph'
      cases hph'
      rw [hfresh] at hfresh'
      cases hfresh'
    | finishKeep | finishDel => rfl
    | delWait hdel | delete hdel => rcases hdel.label with hl | hl <;> cases hl

lemma Owned.quiet_enabled (h : Owned s) (hwf : Wf s) (hs : Step c s l s' o)
    (hab : s'.aborted = none) {b : BaseId} {x : Slot} {kn : Knote} (hkn : s.kqs b x = some kn)
    (hen : kn.enabled = true) : (s'.evs kn.kev.udata).active = false := by
  have hact := h.enabled b x kn hkn hen
  rcases (hs.evStep hab kn.kev.udata).flags_cases (hwf.knote b x kn hkn) with
    ⟨hsame, -⟩ | ⟨-, hoff, -⟩ | ⟨t, b₀, k₀, todo, done, -, hph, he, -, -, -⟩ |
    ⟨t, w, b₀, a, todo, done, enlist, -, -, -, -, hoff, -⟩
  · rw [hsame, hact]
  · exact hoff
  · have hdis := h.disabled b x kn t hkn (holds_pos.2 ⟨k₀, head_held hph, he⟩)
    rw [hdis] at hen
    cases hen
  · exact hoff

/-- The change of an `event_add` in progress is made for `EV_DISPATCH`. -/
lemma Owned.call_step (h : Owned s) (hs : Step c s l s' o) (hc : c.multKq = false) {t : Tid}
    {e : EvId} {kev : KEvent} (hcall : (s'.threads t).call = some (.addLock e kev)) :
    kev.dispatch = true := by
  rcases hs.call_source hcall with hold | ⟨e', timeout, f, -, -, heq⟩ | ⟨_, _, _, _, -, heq⟩
  · exact h.call t e kev hold
  · obtain ⟨-, rfl⟩ := Call.addLock.inj heq
    simp [mkKevent, hc]
  · cases heq

lemma Owned.quiet (h : Owned s) (hwf : Wf s) (hlk : LockInv s) (hok : OwnOK s l)
    (hs : Step c s l s' o) (hab : s'.aborted = none) (hc : c.multKq = false)
    (hl : ∀ u, NotFetch u l)
    (hkn : ∀ b x kn, s'.kqs b x = some kn → s.kqs b x = some kn) : Owned s' where
  epochs := h.epochs.step hwf hs hab
  once := h.quiet_once hwf hok hs hab hl
  one u u' e hu hu' := by
    have hle := hs.holds_le hab hwf h.epochs hok.2.1 (hl u) e
    have hle' := hs.holds_le hab hwf h.epochs hok.2.1 (hl u') e
    exact h.one u u' e (by omega) (by omega)
  dispatch b x kn hkn' := h.dispatch b x kn (hkn b x kn hkn')
  call t e kev hcall := h.call_step hs hc hcall
  disabled b x kn u hkn' hu := by
    have hle := hs.holds_le hab hwf h.epochs hok.2.1 (hl u) kn.kev.udata
    exact h.disabled b x kn u (hkn b x kn hkn') (by omega)
  slot u b k hk kn hb hkn' :=
    h.slot u b k ((hs.held_subperm hab hwf h.epochs hok.2.1 (hl u)).subset hk) kn
      ((hs.phaseStep hab u).base_source (hl u) hb) (hkn b k.slot kn hkn')
  fetched u b k hk hb := h.quiet_fetched hwf hok hs hab hl hk hb
  activated u a ha hep := h.quiet_activated hwf hok hs hab ha hep
  enlist u k hk := h.quiet_enlist hwf hlk hs hab hk
  enabled b x kn hkn' hen := h.quiet_enabled hwf hs hab (hkn b x kn hkn') hen

end Quiet

/-! ## The steps of the kernel -/

section Kernel

variable {c : Cfg} {s s' : State} {l : Label} {o : List Obs}

/-- The slots of what a fetch returns. -/
lemma fetch_slots (hwf : Wf s) {b : BaseId} {slots : List Slot} {evl : List KEvent} {kq : Kqueue}
    (hf : (s.kqs b).fetch slots = some (evl, kq)) : evl.map KEvent.slot = slots := by
  obtain ⟨-, -, -, -, hmap⟩ := Kqueue.fetch_spec hf
  have hslots : (evl.map some).map (Option.map KEvent.slot) = slots.map some := by
    rw [hmap, List.map_map]
    refine List.map_congr_left fun y hy => ?_
    have hy' : (s.kqs b y).map Knote.kev ∈ evl.map some := hmap ▸ List.mem_map_of_mem hy
    obtain ⟨k, -, hk⟩ := List.mem_map.1 hy'
    obtain ⟨kn, hkn, rfl⟩ := Option.map_eq_some_iff.1 hk.symm
    simp [hkn, hwf.slot b y kn hkn]
  rw [List.map_map] at hslots
  have hinj : (evl.map KEvent.slot).map some = slots.map some := by
    rw [List.map_map]
    exact hslots
  exact (List.map_injective_iff.2 (Option.some_injective _)) hinj

/-- A fetch returns no event twice. -/
lemma fetch_udata_nodup (hreg : RegInv s) (hwf : Wf s) {b : BaseId} {slots : List Slot}
    {evl : List KEvent} {kq : Kqueue} (hf : (s.kqs b).fetch slots = some (evl, kq)) :
    (evl.map KEvent.udata).Nodup := by
  have hslots : (evl.map KEvent.slot).Nodup := by
    rw [fetch_slots hwf hf]
    exact (Kqueue.fetch_spec hf).1
  refine List.Nodup.map_on (fun k hk k' hk' hu => ?_) hslots.of_map
  obtain ⟨x, -, kn, hkn, -, rfl⟩ := ((Kqueue.fetch_spec hf).2.2.2.1 k).1 hk
  obtain ⟨x', -, kn', hkn', -, rfl⟩ := ((Kqueue.fetch_spec hf).2.2.2.1 k').1 hk'
  have hx := (hreg.of_knote hkn).2.2.2
  have hx' := (hreg.of_knote hkn').2.2.2
  rw [hu, hx', Option.some.injEq] at hx
  rw [← hx, hkn'] at hkn
  rw [Option.some.inj hkn]

/-- What the threads hold after a fetch. -/
lemma held_fetch {u v : Tid} {b : BaseId} {evl : List KEvent} {kq : Kqueue} :
    ((s.setProc (s.setKq b kq)).setPhase u (.activating b evl [])).held v =
      if v = u then evl else s.held v := by
  rw [State.held, setPhase_phase]
  split
  · simp [Phase.held, Phase.fetched, Phase.activated, Phase.enlist]
  · rfl

lemma Owned.fetch (h : Owned s) (hreg : RegInv s) (hwf : Wf s) {u : Tid} {b : BaseId}
    {slots : List Slot} {evl : List KEvent} {kq : Kqueue} (hth : s.threads u = ⟨.idle, none⟩)
    (hf : (s.kqs b).fetch slots = some (evl, kq)) :
    Owned ((s.setProc (s.setKq b kq)).setPhase u (.activating b evl [])) := by
  set s' := (s.setProc (s.setKq b kq)).setPhase u (.activating b evl []) with hs'
  obtain ⟨-, happly, -, hmem, -⟩ := Kqueue.fetch_spec hf
  have hphase : ∀ v, (s'.threads v).phase =
      if v = u then .activating b evl [] else (s.threads v).phase := fun v => setPhase_phase ..
  have hheld : ∀ v, s'.held v = if v = u then evl else s.held v := fun v => held_fetch
  have hold : ∀ v, v ≠ u → s'.held v = s.held v := fun v hv => by rw [hheld, if_neg hv]
  -- a fetched event has an enabled knote in its place, so nobody held it
  have hnew : ∀ k ∈ evl, ∃ kn, s.kqs b k.slot = some kn ∧ kn.enabled = true ∧ kn.kev = k := by
    intro k hk
    obtain ⟨y, -, kn, hkn, hen, rfl⟩ := (hmem k).1 hk
    exact ⟨kn, hwf.slot b y kn hkn ▸ hkn, hen, rfl⟩
  have hfree : ∀ k ∈ evl, ∀ v, s.holds v k.udata = 0 := by
    intro k hk v
    obtain ⟨kn, hkn, hen, rfl⟩ := hnew k hk
    by_contra hpos
    rw [h.disabled b _ kn v hkn (Nat.pos_of_ne_zero hpos)] at hen
    cases hen
  have hheldu : s'.held u = evl := by rw [hheld, if_pos rfl]
  have hone : ∀ v e, 0 < s'.holds v e → v ≠ u → ∀ k ∈ evl, k.udata ≠ e := by
    rintro v e hv hvu k hk rfl
    rw [State.holds, hold v hvu] at hv
    have hzero := hfree k hk v
    rw [State.holds] at hzero
    omega
  have hkq : ∀ b' x, s'.kqs b' x = if b' = b then kq x else s.kqs b' x := by
    intro b' x
    rw [hs', State.setPhase_toProc, State.setProc_toProc, Proc.setKq_kqs]
    split <;> rfl
  -- a knote of the new queue is an old one, delivered if its slot was returned
  have hknote : ∀ b' x kn, s'.kqs b' x = some kn → ∃ kn', s.kqs b' x = some kn' ∧
      kn'.kev = kn.kev ∧ (kn.enabled = true → kn'.enabled = true ∧ ¬ (b' = b ∧ x ∈ slots)) := by
    intro b' x kn hkn
    rw [hkq] at hkn
    split at hkn
    · next hb =>
      rw [happly] at hkn
      split at hkn
      · obtain ⟨kn', hkn', rfl⟩ := Option.map_eq_some_iff.1 hkn
        refine ⟨kn', hb ▸ hkn', rfl, fun hen => ?_⟩
        simp [Kqueue.deliver, h.dispatch b x kn' hkn'] at hen
      · next hx => exact ⟨kn, hb ▸ hkn, rfl, fun hen => ⟨hen, fun hbx => hx hbx.2⟩⟩
    · next hb => exact ⟨kn, hkn, rfl, fun hen => ⟨hen, fun hbx => hb hbx.1⟩⟩
  refine ⟨fun v a ha => ?_, fun v e => ?_, fun v v' e hv hv' => ?_, fun b' x kn hkn => ?_,
    fun t e kev hcall => ?_, fun b' x kn v hkn hv => ?_, fun v b' k hk kn hb' hkn => ?_,
    fun v b' k hk hb' => ?_, fun v a ha hep => ?_, fun v k hk => ?_, fun b' x kn hkn hen => ?_⟩
  · rw [hphase] at ha
    split at ha
    · simp [Phase.activated] at ha
    · exact h.epochs v a ha
  · rw [State.holds, hheld]
    split
    · have hcount := List.nodup_iff_count_le_one.1 (fetch_udata_nodup hreg hwf hf) e
      rwa [List.count, List.countP_map] at hcount
    · exact h.once v e
  · by_cases hvu : v = u
    · by_contra hne
      have hvu' : v' ≠ u := fun hv' => hne (hvu.trans hv'.symm)
      subst hvu
      obtain ⟨k, hk, rfl⟩ := holds_pos.1 hv
      rw [hheldu] at hk
      exact hone v' k.udata hv' hvu' k hk rfl
    · by_cases hvu' : v' = u
      · subst hvu'
        obtain ⟨k, hk, rfl⟩ := holds_pos.1 hv'
        rw [hheldu] at hk
        exact absurd rfl (hone v k.udata hv hvu k hk)
      · rw [State.holds, hold v hvu] at hv
        rw [State.holds, hold v' hvu'] at hv'
        exact h.one v v' e hv hv'
  · obtain ⟨kn', hkn', hkev, -⟩ := hknote b' x kn hkn
    rw [← hkev]
    exact h.dispatch b' x kn' hkn'
  · refine h.call t e kev ?_
    rw [hs', State.setPhase_threads] at hcall
    split at hcall
    · next ht => rw [ht]; exact hcall
    · exact hcall
  · obtain ⟨kn', hkn', hkev, hen'⟩ := hknote b' x kn hkn
    rw [← Bool.not_eq_true]
    intro hen
    obtain ⟨hen₀, hout⟩ := hen' hen
    by_cases hvu : v = u
    · subst hvu
      obtain ⟨k, hk, hu⟩ := holds_pos.1 hv
      rw [hheldu] at hk
      obtain ⟨kn₀, hkn₀, -, rfl⟩ := hnew k hk
      have hplace := (hreg.of_knote hkn₀).2.2
      have hplace' := (hreg.of_knote hkn').2.2
      rw [hkev, ← hu, hplace.1, hplace.2, Option.some.injEq, Option.some.injEq] at hplace'
      refine hout ⟨hplace'.1.symm, ?_⟩
      rw [← hplace'.2, ← fetch_slots hwf hf]
      exact List.mem_map_of_mem hk
    · rw [State.holds, hold v hvu, ← hkev] at hv
      rw [h.disabled b' x kn' v hkn' hv] at hen₀
      cases hen₀
  · obtain ⟨kn', hkn', hkev, -⟩ := hknote b' k.slot kn hkn
    rw [← hkev]
    rw [hphase] at hb'
    rw [hheld] at hk
    split at hb'
    · next hvu =>
      rw [if_pos hvu] at hk
      obtain rfl := Option.some.inj hb'
      obtain ⟨kn₀, hkn₀, -, rfl⟩ := hnew k hk
      rw [hkn₀] at hkn'
      rw [Option.some.inj hkn']
    · next hvu =>
      rw [if_neg hvu] at hk
      exact h.slot v b' k hk kn' hb' hkn'
  · rw [hphase] at hk hb'
    split at hk
    · next hvu =>
      rw [if_pos hvu] at hb'
      obtain rfl := Option.some.inj hb'
      obtain ⟨kn, hkn, hen, rfl⟩ := hnew k hk
      obtain ⟨-, -, hbase, hslot⟩ := hreg.of_knote hkn
      refine ⟨h.enabled b _ kn hkn hen, ?_, hbase⟩
      obtain ⟨f, -, hslot⟩ := Option.map_eq_some_iff.1 hslot
      exact congrArg Prod.fst hslot
    · next hvu =>
      rw [if_neg hvu] at hb'
      exact h.fetched v b' k hk hb'
  · rw [hphase] at ha
    split at ha
    · simp [Phase.activated] at ha
    · exact h.activated v a ha hep
  · rw [hphase] at hk
    split at hk
    · simp [Phase.enlist] at hk
    · exact h.enlist v k hk
  · obtain ⟨kn', hkn', hkev, hen'⟩ := hknote b' x kn hkn
    rw [← hkev]
    exact h.enabled b' x kn' hkn' (hen' hen).1

lemma Owned.enable (h : Owned s) {t : Tid} {b : BaseId} {done : List Active}
    {enlist : List KEvent} (hph : (s.threads t).phase = .finishing b [] done enlist) :
    Owned ((s.setProc (s.setKq b ((s.kqs b).enableAll enlist).1)).setPhase t
      (.unlocking b done)) := by
  set s' := (s.setProc (s.setKq b ((s.kqs b).enableAll enlist).1)).setPhase t (.unlocking b done)
    with hs'
  have hphase : ∀ v, (s'.threads v).phase =
      if v = t then .unlocking b done else (s.threads v).phase := fun v => setPhase_phase ..
  have hheld : ∀ v, s'.held v = if v = t then [] else s.held v := by
    intro v
    simp only [State.held, hphase]
    split
    · simp [Phase.held, Phase.fetched, Phase.activated, Phase.enlist]
    · rfl
  have hholds : ∀ v e, 0 < s'.holds v e → v ≠ t ∧ 0 < s.holds v e := by
    intro v e hv
    rw [State.holds, hheld] at hv
    split at hv
    · simp at hv
    · next hvt => exact ⟨hvt, hv⟩
  have hmem : ∀ k ∈ enlist, k ∈ (s.threads t).phase.enlist := by
    intro k hk
    rw [hph]
    exact hk
  have hbase : (s.threads t).phase.base = some b := by rw [hph]; rfl
  -- a knote of the new queue is an old one, and is enabled if it was or if `t` held its event
  have hknote : ∀ b' x kn, s'.kqs b' x = some kn → ∃ kn', s.kqs b' x = some kn' ∧
      kn'.kev = kn.kev ∧ (kn.enabled = true → kn'.enabled = true ∨
        ∃ k ∈ enlist, k.udata = kn'.kev.udata) := by
    intro b' x kn hkn
    have hkq : s'.kqs b' x = if b' = b then ((s.kqs b).enableAll enlist).1 x else s.kqs b' x := by
      rw [hs', State.setPhase_toProc, State.setProc_toProc, Proc.setKq_kqs]
      split <;> rfl
    rw [hkq] at hkn
    split at hkn
    · next hb =>
      subst hb
      rcases Kqueue.enableAll_apply enlist (s.kqs b') x with heq | ⟨kn', hkn', heq, k, hk, hx⟩
      · exact ⟨kn, heq ▸ hkn, rfl, .inl⟩
      · rw [heq] at hkn
        obtain rfl := Option.some.inj hkn
        refine ⟨kn', hkn', rfl, fun _ => .inr ⟨k, hk, ?_⟩⟩
        exact (h.slot t b' k (enlist_held (hmem k hk)) kn' hbase (hx ▸ hkn')).symm
    · exact ⟨kn, hkn, rfl, .inl⟩
  refine ⟨fun v a ha => ?_, fun v e => ?_, fun v v' e hv hv' => ?_, fun b' x kn hkn => ?_,
    fun u e kev hcall => ?_, fun b' x kn v hkn hv => ?_, fun v b' k hk kn hb' hkn => ?_,
    fun v b' k hk hb' => ?_, fun v a ha hep => ?_, fun v k hk => ?_, fun b' x kn hkn hen => ?_⟩
  · rw [hphase] at ha
    split at ha
    · simp [Phase.activated] at ha
    · exact h.epochs v a ha
  · rw [State.holds, hheld]
    split
    · simp
    · exact h.once v e
  · exact h.one v v' e (hholds v e hv).2 (hholds v' e hv').2
  · obtain ⟨kn', hkn', hkev, -⟩ := hknote b' x kn hkn
    rw [← hkev]
    exact h.dispatch b' x kn' hkn'
  · refine h.call u e kev ?_
    rw [hs', State.setPhase_threads] at hcall
    split at hcall
    · next hu => rw [hu]; exact hcall
    · exact hcall
  · obtain ⟨kn', hkn', hkev, hen'⟩ := hknote b' x kn hkn
    obtain ⟨hvt, hv⟩ := hholds v _ hv
    rw [← hkev] at hv
    rw [← Bool.not_eq_true]
    intro hen
    rcases hen' hen with hen | ⟨k, hk, hu⟩
    · rw [h.disabled b' x kn' v hkn' hv] at hen
      cases hen
    · exact hvt (h.one v t _ hv (holds_pos.2 ⟨k, enlist_held (hmem k hk), hu⟩))
  · obtain ⟨kn', hkn', hkev, -⟩ := hknote b' k.slot kn hkn
    rw [← hkev]
    rw [hphase] at hb'
    rw [hheld] at hk
    split at hk
    · simp at hk
    · next hvt =>
      rw [if_neg hvt] at hb'
      exact h.slot v b' k hk kn' hb' hkn'
  · rw [hphase] at hk hb'
    split at hk
    · simp [Phase.fetched] at hk
    · next hvt =>
      rw [if_neg hvt] at hb'
      exact h.fetched v b' k hk hb'
  · rw [hphase] at ha
    split at ha
    · simp [Phase.activated] at ha
    · exact h.activated v a ha hep
  · rw [hphase] at hk
    split at hk
    · simp [Phase.enlist] at hk
    · exact h.enlist v k hk
  · obtain ⟨kn', hkn', hkev, hen'⟩ := hknote b' x kn hkn
    rw [← hkev]
    rcases hen' hen with hen | ⟨k, hk, hu⟩
    · exact h.enabled b' x kn' hkn' hen
    · rw [← hu]
      exact h.enlist t k (hmem k hk)

lemma Owned.add (h : Owned s) (hwf : Wf s) (hlk : LockInv s) {t : Tid} {e : EvId} {kev : KEvent}
    {base : BaseId} (hok : OwnOK s (.addLocked t true))
    (hs : Step c s (.addLocked t true) s' o) (hc : c.multKq = false)
    (hcall : (s.threads t).call = some (.addLock e kev)) (hfree : (s.evs e).lk = none)
    (hbase : (s.evs e).evBase = some base)
    (hs' : s' = (s.setProc ((s.setKq base ((s.kqs base).add kev)).setEv e
      { s.evs e with pending := true }.deactivate)).setCall t none) (hab : s'.aborted = none) :
    Owned s' := by
  obtain ⟨hunfetched, hslots⟩ := hok.2.2 e kev base hcall hbase
  have hudata := (hwf.addLock t e kev hcall).2
  have hphase : ∀ v, (s'.threads v).phase = (s.threads v).phase := by
    intro v
    rw [hs', setCall_phase, State.setProc_threads]
  have hevs : ∀ e', s'.evs e' =
      if e' = e then { s.evs e with pending := true }.deactivate else s.evs e' := by
    intro e'
    rw [hs']
    exact Proc.setEv_evs ..
  have hother : ∀ e', e' ≠ e → s'.evs e' = s.evs e' := fun e' he => by rw [hevs, if_neg he]
  have hact : (s'.evs e).active = false := by
    rw [hevs, if_pos rfl]
    exact Event.deactivate_active _
  have hl : ∀ u, NotFetch u (.addLocked t true) := by simp [NotFetch]
  have hsub : ∀ v, (s'.held v).Subperm (s.held v) := fun v =>
    hs.held_subperm hab hwf h.epochs hok.2.1 (hl v)
  -- nobody holds the event any more
  have hfresh : ∀ v, ∀ a ∈ (s.threads v).phase.activated, a.epoch = (s'.evs a.ev).epoch →
      a.ev ≠ e := by
    intro v a ha hep he
    have hle := h.epochs v a ha
    rw [he, hevs, if_pos rfl, Event.deactivate_epoch] at hep
    rw [he] at hle
    split at hep
    · simp only at hep
      omega
    · next hoff => exact hoff (he ▸ (h.activated v a ha (he ▸ hep)).1)
  have hnot : ∀ v, ∀ k ∈ s'.held v, k.udata ≠ e := by
    intro v k hk
    rcases mem_held.1 hk with hk | ⟨a, ha, hep, rfl⟩ | hk
    · rw [hphase] at hk
      exact hunfetched v k hk
    · rw [hphase] at ha
      exact hfresh v a ha hep
    · rw [hphase] at hk
      rintro rfl
      rw [hlk.holder v k.udata (hlk.enlist v k hk)] at hfree
      cases hfree
  have hknote : ∀ b x kn, s'.kqs b x = some kn →
      b = base ∧ x = kev.slot ∧ kn = ⟨kev, true⟩ ∨ s.kqs b x = some kn := by
    intro b x kn hkn
    rw [hs'] at hkn
    simp only [State.setCall_toProc, State.setProc_toProc, Proc.setEv_kqs, Proc.setKq_kqs] at hkn
    split at hkn
    · next hb =>
      rw [Kqueue.add_apply] at hkn
      split at hkn
      · next hx => exact .inl ⟨hb, hx, (Option.some.inj hkn).symm⟩
      · exact .inr (hb ▸ hkn)
    · exact .inr hkn
  refine ⟨h.epochs.step hwf hs hab, fun v e' => ?_, fun v v' e' hv hv' => ?_,
    fun b x kn hkn => ?_, fun t e' kev' hcall' => h.call_step hs hc hcall',
    fun b x kn v hkn hv => ?_, fun v b k hk kn hb hkn => ?_,
    fun v b k hk hb => ?_, fun v a ha hep => ?_, fun v k hk => ?_, fun b x kn hkn hen => ?_⟩
  · exact ((hsub v).countP_le _).trans (h.once v e')
  · exact h.one v v' e' (hv.trans_le ((hsub v).countP_le _)) (hv'.trans_le ((hsub v').countP_le _))
  · rcases hknote b x kn hkn with ⟨-, -, rfl⟩ | hold
    · exact h.call t e kev hcall
    · exact h.dispatch b x kn hold
  · rcases hknote b x kn hkn with ⟨-, -, rfl⟩ | hold
    · obtain ⟨k, hk, hu⟩ := holds_pos.1 hv
      exact absurd (hu.trans hudata) (hnot v k hk)
    · exact h.disabled b x kn v hold (hv.trans_le ((hsub v).countP_le _))
  · have hk' := (hsub v).subset hk
    rw [hphase] at hb
    rcases hknote b k.slot kn hkn with ⟨rfl, hx, rfl⟩ | hold
    · exact absurd (hslots v k hk' hb hx) (hnot v k hk)
    · exact h.slot v b k hk' kn hb hold
  · rw [hphase] at hk hb
    rw [hother _ (hunfetched v k hk)]
    exact h.fetched v b k hk hb
  · rw [hphase] at ha
    have hne := hfresh v a ha hep
    rw [hother _ hne] at hep ⊢
    exact h.activated v a ha hep
  · have hne := hnot v k (enlist_held hk)
    rw [hphase] at hk
    rw [hother _ hne]
    exact h.enlist v k hk
  · rcases hknote b x kn hkn with ⟨-, -, rfl⟩ | hold
    · rw [show (⟨kev, true⟩ : Knote).kev.udata = e from hudata]
      exact hact
    · by_cases he : kn.kev.udata = e
      · rw [he]
        exact hact
      · rw [hother _ he]
        exact h.enabled b x kn hold hen

end Kernel

/-- Only a failing assertion changes `aborted`. -/
lemma Step.abort_or {c : Cfg} {s s' : State} {l : Label} {o : List Obs} (hs : Step c s l s' o) :
    (∃ a, s' = s.abort a) ∨ s'.aborted = s.aborted := by
  cases hs with
  | abort => exact .inl ⟨_, rfl⟩
  | _ => exact .inr rfl

/-- **A guarded step keeps the invariant.** -/
theorem Owned.step {c : Cfg} {s s' : State} {l : Label} {o : List Obs} (h : Owned s)
    (hreg : RegInv s) (hwf : Wf s) (hlk : LockInv s) (hok : OwnOK s l) (hc : c.multKq = false)
    (hs : Step c s l s' o) (hrun : s.aborted = none) : Owned s' := by
  rcases hs.abort_or with ⟨a, rfl⟩ | hab
  · exact ⟨h.epochs, h.once, h.one, h.dispatch, h.call, h.disabled, h.slot, h.fetched,
      h.activated, h.enlist, h.enabled⟩
  · rw [hrun] at hab
    cases hs.kernelStep with
    | fetch hth hf => exact h.fetch hreg hwf hth hf
    | enable hph => exact h.enable hph
    | add hcall hfree hbase => exact h.add hwf hlk hok hs hc hcall hfree hbase rfl hab
    | quiet hl hadd hen hkn => exact h.quiet hwf hlk hok hs hab hc hl hkn

/-- What the activation loop counts on.
* `asserts`: its assertions hold of the next event of every thread.
* `owner`: the event of an activation that has not been taken back is active and owned by the
  thread that made it.
* `one`: no two threads hold the same event. -/
structure ActivationOK (s : State) : Prop where
  asserts : ∀ t b k todo done, (s.threads t).phase = .activating b (k :: todo) done →
    activateAssert b k (s.evs k.udata) = none
  owner : ∀ t, ∀ a ∈ (s.threads t).phase.activated, a.epoch = (s.evs a.ev).epoch →
    (s.evs a.ev).active = true ∧ (s.evs a.ev).owner = some t
  one : ∀ t t' e, 0 < s.holds t e → 0 < s.holds t' e → t = t'

lemma Owned.activationOK {s : State} (h : Owned s) : ActivationOK s where
  asserts t b k todo done hph := by
    have hk : k ∈ (s.threads t).phase.fetched := by
      rw [hph]
      exact List.mem_cons_self
    obtain ⟨hact, hfd, hbase⟩ := h.fetched t b k hk (by rw [hph]; rfl)
    simp [activateAssert, hact, hfd, hbase]
  owner := h.activated
  one := h.one

/-- The invariants of a guarded run. -/
lemma owned_of_run {c : Cfg} (hc : c.multKq = false) {ok : State → Label → Prop}
    (hok : ∀ s l, ok s l → OwnOK s l) {s₀ s : State} {tr : List Obs} (h0 : s₀.Init)
    (hr : Run (step c) ok s₀ tr s) : Owned s ∧ RegInv s ∧ Wf s ∧ LockInv s := by
  refine hr.inv (fun s => Owned s ∧ RegInv s ∧ Wf s ∧ LockInv s)
    ⟨h0.owned, h0.regInv, h0.wf, h0.lockInv⟩ ?_
  rintro s l s' o ⟨h, hreg, hwf, hlk⟩ hl hs
  have hrun := not_aborted_of_step hs
  have hstep := step_cases hs
  have hown := hok s l hl
  exact ⟨h.step hreg hwf hlk hown hc hstep hrun, hreg.step hown.1 (hstep.regStep hwf),
    hwf.step hstep, hlk.step hwf hstep⟩

/-- **An event has one owner, and the activation loop finds it as it asserts**, in every run of the
build without SKQ whose steps meet `OwnOK`. -/
theorem activationOK_of_run (ndebug : Bool) {s₀ s : State} {tr : List Obs} (h0 : s₀.Init)
    (hr : Run (step ⟨false, ndebug⟩) OwnOK s₀ tr s) : ActivationOK s :=
  (owned_of_run rfl (fun _ _ h => h) h0 hr).1.activationOK

/-- While nothing is held, only the registrations matter. -/
lemma ownOK_of_unheld {s : State} {l : Label} (hreg : RegOK s l) (hl : ∀ u w, l ≠ .finish u w)
    (hheld : ∀ u, s.held u = []) : OwnOK s l := by
  have hfetched : ∀ u, ∀ k, k ∉ (s.threads u).phase.fetched := by
    intro u k hk
    have hmem := fetched_held hk
    rw [hheld u] at hmem
    cases hmem
  refine ⟨hreg, fun u w b a todo done enlist heq => absurd heq (hl u w), ?_⟩
  cases l with
  | set => exact fun u k hk => absurd hk (hfetched u k)
  | baseSet => exact fun _ u k hk => absurd hk (hfetched u k)
  | add => exact fun _ _ u k hk => absurd hk (hfetched u k)
  | addLocked t ok =>
    cases ok with
    | true =>
      refine fun e kev b _ _ => ⟨fun u k hk => absurd hk (hfetched u k), fun u k hk => ?_⟩
      rw [hheld u] at hk
      cases hk
    | false => trivial
  | _ => trivial

/-- A handler deletes and adds its event, and another thread fetches it. -/
def handOverRun : List Label :=
  register 1 0 0 3 (evRead ||| evPersist) none ++
    [.fetch 0 0 [(3, .read)], .activate 0, .advance 0, .invoke 0, .del 0 0, .add 0 0 none,
      .addLocked 0 true, .fetch 1 0 [(3, .read)]]

lemma handOverRun_guarded : Guarded (step ⟨false, false⟩) OwnOK State.zero handOverRun := by
  have hquiet : ∀ {s : State} {l : Label}, RegOK s l → CallOK s l → (∀ u w, l ≠ .finish u w) →
      OwnOK s l := fun hreg hcall hl =>
    ⟨hreg, fun u w b a todo done enlist heq => absurd heq (hl u w), hcall⟩
  refine ⟨ownOK_of_unheld (fun h => ?_) (by simp) fun u => rfl,
    ownOK_of_unheld trivial (by simp) fun u => rfl, ownOK_of_unheld trivial (by simp) fun u => ?_,
    ownOK_of_unheld (regOK_addLocked rfl rfl rfl rfl) (by simp) fun u => ?_,
    hquiet trivial trivial (by simp), hquiet trivial trivial (by simp),
    hquiet trivial trivial (by simp), hquiet trivial trivial (by simp),
    hquiet trivial trivial (by simp), ownOK_of_unheld trivial (by simp) fun u => ?_,
    ownOK_of_unheld (regOK_addLocked rfl rfl rfl rfl) (by simp) fun u => ?_,
    hquiet trivial trivial (by simp), trivial⟩
  · cases h
  all_goals rcases u with _ | _ | u <;> rfl

/-- The run above; in the end thread 1 is about to activate the event. -/
theorem activationOK_handOverRun : ∃ s tr, Run (step ⟨false, false⟩) OwnOK State.zero tr s ∧
    ActivationOK s ∧ (s.threads 1).phase.fetched = [⟨3, .read, true, false, 0, 0⟩] := by
  obtain ⟨s, tr, hr, hph⟩ := Run.exists_of_exec (step ⟨false, false⟩) State.zero handOverRun
    (fun r => (r.1.threads 1).phase.fetched) [⟨3, .read, true, false, 0, 0⟩] (by decide +kernel)
    handOverRun_guarded
  exact ⟨s, tr, hr, activationOK_of_run false State.zero_init hr, hph⟩

/-- An event is deleted and added again while thread 0 has it fetched and not yet activated;
thread 1 fetches and activates it. -/
def stolenRun : List Label :=
  register 2 0 0 3 (evRead ||| evPersist) none ++
    [.fetch 0 0 [(3, .read)], .del 2 0, .add 2 0 none, .addLocked 2 true,
      .fetch 1 0 [(3, .read)], .activate 1]

/-- **Two threads get one event.**  After the run above thread 0 is about to activate an event
that is active, with thread 1 as its owner. -/
theorem not_activationOK_stolenRun : ∃ s tr, Run (step ⟨false, false⟩) anyStep State.zero tr s ∧
    s.aborted = none ∧ ¬ ActivationOK s := by
  obtain ⟨s, tr, hr, hs⟩ := Run.exists_of_exec (step ⟨false, false⟩) State.zero stolenRun
    (fun r => (r.1.aborted, (r.1.threads 0).phase,
      activateAssert 0 ⟨3, .read, true, false, 0, 0⟩ (r.1.evs 0)))
    (none, .activating 0 [⟨3, .read, true, false, 0, 0⟩] [], some .activateActive)
    (by decide +kernel) guarded_anyStep
  simp only [Prod.mk.injEq] at hs
  obtain ⟨hab, hph, hassert⟩ := hs
  refine ⟨s, tr, hr, hab, fun h => ?_⟩
  have hnone := h.asserts 0 _ _ _ _ hph
  rw [hassert] at hnone
  cases hnone

end Skq.Evcompat
