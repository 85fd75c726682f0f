import Mathlib.Data.List.Perm.Subperm
import SkqBench.Evcompat.Views
import SkqBench.Evcompat.Batch

/-!
# What a thread holds

Without SKQ a knote that `kevent()` returns is disabled, and the thread that got it is the one to
enable it again or to delete it.  Until then the thread holds it: as a fetched kevent before the
activation, then as an entry of its batch, and at last in the change list of `EV_ENABLE`.  An entry
counts as long as it is fresh; an event that is changed in its handler goes out of the batch by its
epoch, before it can be fetched again.

Only a fetch adds to what a thread holds (`Step.held_subperm`).
-/

namespace Skq.Evcompat

/-- The kevents a thread holds, for the current epochs of the events. -/
def Phase.held (ep : EvId → ℕ) (ph : Phase) : List KEvent :=
  ph.fetched ++ ((ph.activated.filter fun a => a.epoch == ep a.ev).map Active.kev) ++ ph.enlist

/-- The current epochs. -/
def State.epochs (s : State) : EvId → ℕ := fun e => (s.evs e).epoch

/-- The kevents thread `u` holds. -/
def State.held (s : State) (u : Tid) : List KEvent := (s.threads u).phase.held s.epochs

/-- How many of them are for event `e`. -/
def State.holds (s : State) (u : Tid) (e : EvId) : ℕ :=
  (s.held u).countP fun k => k.udata == e

lemma Phase.mem_held {ep : EvId → ℕ} {ph : Phase} {k : KEvent} : k ∈ ph.held ep ↔
    k ∈ ph.fetched ∨ (∃ a ∈ ph.activated, a.epoch = ep a.ev ∧ a.kev = k) ∨ k ∈ ph.enlist := by
  simp [Phase.held, and_assoc]

lemma mem_held {s : State} {u : Tid} {k : KEvent} : k ∈ s.held u ↔
    k ∈ (s.threads u).phase.fetched ∨
      (∃ a ∈ (s.threads u).phase.activated, a.epoch = (s.evs a.ev).epoch ∧ a.kev = k) ∨
      k ∈ (s.threads u).phase.enlist :=
  Phase.mem_held

/-- Only a thread in a pass holds anything. -/
lemma Phase.base_of_held {ep : EvId → ℕ} {ph : Phase} {k : KEvent} (hk : k ∈ ph.held ep) :
    ∃ b, ph.base = some b := by
  cases ph with
  | idle => simp [Phase.held, Phase.fetched, Phase.activated, Phase.enlist] at hk
  | _ => exact ⟨_, rfl⟩

lemma holds_pos {s : State} {u : Tid} {e : EvId} :
    0 < s.holds u e ↔ ∃ k ∈ s.held u, k.udata = e := by
  simp [State.holds, List.countP_pos_iff]

lemma holds_pos_of_mem {s : State} {u : Tid} {k : KEvent} (h : k ∈ s.held u) :
    0 < s.holds u k.udata :=
  holds_pos.2 ⟨k, h, rfl⟩

/-! ## Epochs -/

/-- The epoch of an event that has been set never goes down. -/
lemma EvStep.epoch_le {c : Cfg} {s : State} {e : EvId} {l : Label} {ev : Event}
    (h : EvStep c s e l ev) (hset : s.isSet e) : (s.evs e).epoch ≤ ev.epoch := by
  cases h with
  | set =>
    have hcv : (s.evs e).cvInit = cvInitMagic := hset
    simp [Event.firstSet, Event.assign, hcv]
  | add =>
    rw [Event.deactivate_epoch]
    split <;> simp
  | delete =>
    rw [Event.deactivate_epoch]
    split <;> simp
  | _ => exact le_rfl

/-- A 32-bit epoch that has not gone around tells a fresh entry from a stale one. -/
lemma fresh_iff {a : Active} {ev : Event} (hle : a.epoch ≤ ev.epoch)
    (hlt : ev.epoch - a.epoch < 2 ^ 32) : a.fresh ev = true ↔ a.epoch = ev.epoch := by
  simp only [Active.fresh, beq_iff_eq]
  omega

/-! ## Where the entries come from -/

section Source

variable {c : Cfg} {s : State} {u : Tid} {l : Label} {ph : Phase}

/-- Not a fetch of thread `u`. -/
def NotFetch (u : Tid) (l : Label) : Prop := ∀ b slots, l ≠ .fetch u b slots

lemma PhaseStep.fetched_source (h : PhaseStep c s u l ph) (hl : NotFetch u l) {k : KEvent}
    (hk : k ∈ ph.fetched) : k ∈ (s.threads u).phase.fetched := by
  cases h with
  | keep => exact hk
  | fetch hth hf => exact absurd rfl (hl _ _)
  | activate hph =>
    rw [hph]
    exact List.mem_cons_of_mem _ hk
  | _ => simp [Phase.fetched] at hk

lemma PhaseStep.activated_source (h : PhaseStep c s u l ph) {a : Active} (ha : a ∈ ph.activated) :
    a ∈ (s.threads u).phase.activated ∨
      ∃ b k todo done, l = .activate u ∧ (s.threads u).phase = .activating b (k :: todo) done ∧
        a = ⟨k, (s.evs k.udata).epoch⟩ := by
  cases h with
  | keep => exact .inl ha
  | fetch | enable | unlock | toIdle => simp [Phase.activated] at ha
  | activate hph =>
    rcases List.mem_append.1 ha with ha | ha
    · rw [hph]
      exact .inl ha
    · exact .inr ⟨_, _, _, _, rfl, hph, List.mem_singleton.1 ha⟩
  | toCalling hph | invoke hph | toFinishing hph | finish hph =>
    rw [hph]
    simp only [Phase.activated, List.mem_append, List.mem_cons, List.not_mem_nil] at ha ⊢
    tauto
  | ret hth =>
    rw [hth]
    simp only [Phase.activated, List.mem_append, List.mem_cons, List.not_mem_nil] at ha ⊢
    tauto

lemma mem_enabledBy {a : Active} {k : KEvent} (hk : k ∈ s.enabledBy c a) :
    a.fresh (s.evs a.kev.udata) = true ∧ a.kev = k := by
  simp only [State.enabledBy] at hk
  split at hk
  · next h =>
    simp only [Bool.and_eq_true] at h
    exact ⟨h.1.1, (List.mem_singleton.1 hk).symm⟩
  · simp at hk

lemma PhaseStep.enlist_source (h : PhaseStep c s u l ph) {k : KEvent} (hk : k ∈ ph.enlist) :
    k ∈ (s.threads u).phase.enlist ∨
      ∃ w b a todo done enlist, l = .finish u w ∧
        (s.threads u).phase = .finishing b (a :: todo) done enlist ∧
        (s.evs a.kev.udata).lk = none ∧ a.fresh (s.evs a.kev.udata) = true ∧ a.kev = k := by
  cases h with
  | keep => exact .inl hk
  | finish hph hlk =>
    rcases List.mem_append.1 hk with hk | hk
    · rw [hph]
      exact .inl hk
    · obtain ⟨hfresh, rfl⟩ := mem_enabledBy hk
      exact .inr ⟨_, _, _, _, _, _, rfl, hph, hlk, hfresh, rfl⟩
  | _ => simp [Phase.enlist] at hk

lemma PhaseStep.base_source (h : PhaseStep c s u l ph) (hl : NotFetch u l) {b : BaseId}
    (hb : ph.base = some b) : (s.threads u).phase.base = some b := by
  cases h with
  | keep => exact hb
  | fetch => exact absurd rfl (hl _ _)
  | toIdle => simp [Phase.base] at hb
  | activate hph | toCalling hph | invoke hph | toFinishing hph | finish hph | enable hph
  | unlock hph =>
    rw [hph]
    exact hb
  | ret hth =>
    rw [hth]
    exact hb

/-- A step of a pass other than a fetch moves what is held, and may drop some. -/
lemma PhaseStep.held_subperm (h : PhaseStep c s u l ph) (hl : NotFetch u l)
    (hfin : ∀ w b a todo done enlist, l = .finish u w →
      (s.threads u).phase = .finishing b (a :: todo) done enlist →
      a.fresh (s.evs a.ev) = true → a.epoch = (s.evs a.ev).epoch) :
    (ph.held s.epochs).Subperm (s.held u) := by
  cases h with
  | keep => exact List.Subperm.refl _
  | fetch => exact absurd rfl (hl _ _)
  | @activate b k todo done hph =>
    refine List.Perm.subperm (List.perm_iff_count.2 fun k' => ?_)
    simp only [State.held, Phase.held, hph, Phase.fetched, Phase.activated, Phase.enlist,
      List.filter_append, List.filter_cons, List.filter_nil, State.epochs, Active.ev, beq_self_eq_true,
      if_true, List.map_append, List.map_cons, List.map_nil, List.append_nil, List.count_append,
      List.count_cons, List.count_nil]
    omega
  | toCalling hph | invoke hph | toFinishing hph =>
    simp only [State.held, Phase.held, hph, Phase.fetched, Phase.activated, Phase.enlist,
      List.nil_append, List.append_nil]
    exact List.Subperm.refl _
  | ret hth =>
    simp only [State.held, Phase.held, hth, Phase.fetched, Phase.activated, Phase.enlist,
      List.append_assoc, List.singleton_append]
    exact List.Subperm.refl _
  | @finish w b a todo done enlist hph hlk =>
    simp only [State.held, Phase.held, hph, Phase.fetched, Phase.activated, Phase.enlist,
      List.nil_append, List.filter_cons, State.enabledBy]
    split
    · next hnew =>
      simp only [Bool.and_eq_true] at hnew
      have hep : a.epoch = s.epochs a.ev := hfin _ _ _ _ _ _ rfl hph hnew.1.1
      simp only [hep, beq_self_eq_true, if_true, List.map_cons]
      refine List.Perm.subperm (List.perm_iff_count.2 fun k' => ?_)
      simp only [List.count_append, List.cons_append, List.count_cons, List.count_nil]
      omega
    · rw [List.append_nil]
      split
      · exact (List.sublist_cons_self _ _).subperm
      · exact List.Subperm.refl _
  | enable | unlock | toIdle =>
    simp only [Phase.held, Phase.fetched, Phase.activated, Phase.enlist, List.filter_nil,
      List.map_nil, List.append_nil]
    exact List.nil_subperm

/-- A step of a pass other than a fetch and `EV_ENABLE` keeps what is held, if the epoch stays and
the finishing pass enables the event again. -/
lemma PhaseStep.held_kept (h : PhaseStep c s u l ph) (hl : NotFetch u l)
    (hen : ∀ b done enlist, l = .advance u → (s.threads u).phase ≠ .finishing b [] done enlist)
    {ep' : EvId → ℕ} {k : KEvent} (hk : k ∈ s.held u) (hep : ep' k.udata = s.epochs k.udata)
    (hfin : ∀ w b a todo done enlist, l = .finish u w →
      (s.threads u).phase = .finishing b (a :: todo) done enlist → a.epoch = s.epochs a.ev →
      a.kev = k → k ∈ s.enabledBy c a) : k ∈ ph.held ep' := by
  rw [Phase.mem_held]
  have hcases := mem_held.1 hk
  have hentry : ∀ a : Active, a.epoch = (s.evs a.ev).epoch → a.kev = k → a.epoch = ep' a.ev := by
    rintro a ha rfl
    rw [ha]
    exact hep.symm
  cases h with
  | keep =>
    rcases hcases with hk | ⟨a, ha, hae, hak⟩ | hk
    · exact .inl hk
    · exact .inr (.inl ⟨a, ha, hentry a hae hak, hak⟩)
    · exact .inr (.inr hk)
  | fetch => exact absurd rfl (hl _ _)
  | activate hph =>
    rw [hph] at hcases
    rcases hcases with hk | ⟨a, ha, hae, hak⟩ | hk
    · rcases List.mem_cons.1 hk with rfl | hk
      · exact .inr (.inl ⟨_, List.mem_append_right _ (List.mem_singleton_self _), hep.symm, rfl⟩)
      · exact .inl hk
    · exact .inr (.inl ⟨a, List.mem_append_left _ ha, hentry a hae hak, hak⟩)
    · cases hk
  | toCalling hph | invoke hph | toFinishing hph =>
    rw [hph] at hcases
    rcases hcases with hk | ⟨a, ha, hae, hak⟩ | hk
    · cases hk
    · refine .inr (.inl ⟨a, ?_, hentry a hae hak, hak⟩)
      simpa [Phase.activated] using ha
    · cases hk
  | ret hth =>
    rw [hth] at hcases
    rcases hcases with hk | ⟨a, ha, hae, hak⟩ | hk
    · cases hk
    · refine .inr (.inl ⟨a, ?_, hentry a hae hak, hak⟩)
      simpa [Phase.activated] using ha
    · cases hk
  | finish hph hlk =>
    have hfin' := hfin _ _ _ _ _ _ rfl hph
    rw [hph] at hcases
    rcases hcases with hk | ⟨a, ha, hae, hak⟩ | hk
    · cases hk
    · rcases List.mem_cons.1 ha with rfl | ha
      · exact .inr (.inr (List.mem_append_right _ (hfin' hae hak)))
      · exact .inr (.inl ⟨a, ha, hentry a hae hak, hak⟩)
    · exact .inr (.inr (List.mem_append_left _ hk))
  | enable hph => exact absurd hph (hen _ _ _ rfl)
  | unlock hph | toIdle hph =>
    rw [hph] at hcases
    rcases hcases with hk | ⟨a, ha, -⟩ | hk
    · cases hk
    · cases ha
    · cases hk

/-- Fewer entries are fresh when epochs go up. -/
lemma held_mono {ep ep' : EvId → ℕ} (ph : Phase)
    (h : ∀ a ∈ ph.activated, a.epoch ≤ ep a.ev ∧ ep a.ev ≤ ep' a.ev) :
    (ph.held ep').Sublist (ph.held ep) := by
  have hfilter : (ph.activated.filter fun a => a.epoch == ep' a.ev) =
      (ph.activated.filter fun a => a.epoch == ep a.ev).filter fun a => a.epoch == ep' a.ev := by
    rw [List.filter_filter]
    refine List.filter_congr fun a ha => ?_
    obtain ⟨hle, hle'⟩ := h a ha
    by_cases hep : a.epoch = ep' a.ev
    · have hep' : a.epoch = ep a.ev := by omega
      simp [hep, ← hep']
    · simp [hep]
  simp only [Phase.held, hfilter]
  exact ((List.Sublist.refl _).append (List.filter_sublist.map _)).append (List.Sublist.refl _)

end Source

/-! ## Whole steps -/

section Step

variable {c : Cfg} {s s' : State} {l : Label} {o : List Obs}

/-- No entry is ahead of its event. -/
def EpochsLe (s : State) : Prop :=
  ∀ u, ∀ a ∈ (s.threads u).phase.activated, a.epoch ≤ (s.evs a.ev).epoch

/-- No epoch has gone around since an entry that is about to be finished was made. -/
def FinishExact (s : State) (l : Label) : Prop :=
  ∀ u w b a todo done enlist, l = .finish u w →
    (s.threads u).phase = .finishing b (a :: todo) done enlist →
    (s.evs a.ev).epoch - a.epoch < 2 ^ 32

lemma activated_isSet {u : Tid} {a : Active} (hwf : Wf s)
    (ha : a ∈ (s.threads u).phase.activated) : s.isSet a.ev := by
  refine hwf.batch u a.ev ?_
  generalize (s.threads u).phase = ph at ha
  cases ph with
  | idle | unlocking => simp [Phase.activated] at ha
  | activating | calling | finishing =>
    simp only [Phase.activated, List.mem_append] at ha
    simp only [Phase.batch, Phase.locked, Phase.toLock, List.mem_append, List.mem_map]
    grind

lemma fetched_isSet {u : Tid} {k : KEvent} (hwf : Wf s)
    (hk : k ∈ (s.threads u).phase.fetched) : s.isSet k.udata := by
  refine hwf.batch u k.udata ?_
  generalize (s.threads u).phase = ph at hk
  cases ph with
  | activating b todo done =>
    exact List.mem_append_right _ (List.mem_append_right _ (List.mem_map_of_mem hk))
  | _ => simp [Phase.fetched] at hk

lemma EpochsLe.step (h : EpochsLe s) (hwf : Wf s) (hs : Step c s l s' o)
    (hab : s'.aborted = none) : EpochsLe s' := by
  intro u a ha
  rcases (hs.phaseStep hab u).activated_source ha with hold | ⟨b, k, todo, done, -, hph, rfl⟩
  · exact (h u a hold).trans ((hs.evStep hab a.ev).epoch_le (activated_isSet hwf hold))
  · refine (hs.evStep hab _).epoch_le (fetched_isSet (u := u) hwf ?_)
    rw [hph]
    exact List.mem_cons_self

/-- **Only a fetch adds to what a thread holds.** -/
theorem Step.held_subperm (hs : Step c s l s' o) (hab : s'.aborted = none) (hwf : Wf s)
    (hle : EpochsLe s) (hfin : FinishExact s l) {u : Tid} (hl : NotFetch u l) :
    (s'.held u).Subperm (s.held u) := by
  refine ((held_mono _ fun a ha => ?_).subperm).trans ((hs.phaseStep hab u).held_subperm hl ?_)
  · rcases (hs.phaseStep hab u).activated_source ha with hold | ⟨b, k, todo, done, -, hph, rfl⟩
    · exact ⟨hle u a hold, (hs.evStep hab a.ev).epoch_le (activated_isSet hwf hold)⟩
    · refine ⟨le_rfl, (hs.evStep hab _).epoch_le (fetched_isSet (u := u) hwf ?_)⟩
      rw [hph]
      exact List.mem_cons_self
  · intro w b a todo done enlist hl' hph hfresh
    refine (fresh_iff (hle u a ?_) (hfin u w b a todo done enlist hl' hph)).1 hfresh
    rw [hph]
    exact List.mem_cons_self

lemma Step.holds_le (hs : Step c s l s' o) (hab : s'.aborted = none) (hwf : Wf s)
    (hle : EpochsLe s) (hfin : FinishExact s l) {u : Tid} (hl : NotFetch u l) (e : EvId) :
    s'.holds u e ≤ s.holds u e :=
  (hs.held_subperm hab hwf hle hfin hl).countP_le _

/-- What a step asks of the kernel: a fetch, the `EV_ENABLE` of a pass, an `EV_ADD`, or nothing
that could enable or change a knote. -/
inductive KernelStep (s : State) : Label → State → Prop
  | fetch {u : Tid} {b : BaseId} {slots : List Slot} {evl : List KEvent} {kq : Kqueue}
      (hth : s.threads u = ⟨.idle, none⟩) (hf : (s.kqs b).fetch slots = some (evl, kq)) :
      KernelStep s (.fetch u b slots)
        ((s.setProc (s.setKq b kq)).setPhase u (.activating b evl []))
  | enable {t : Tid} {b : BaseId} {done : List Active} {enlist : List KEvent}
      (hph : (s.threads t).phase = .finishing b [] done enlist) :
      KernelStep s (.advance t)
        ((s.setProc (s.setKq b ((s.kqs b).enableAll enlist).1)).setPhase t (.unlocking b done))
  | add {t : Tid} {e : EvId} {kev : KEvent} {base : BaseId}
      (hcall : (s.threads t).call = some (.addLock e kev)) (hlk : (s.evs e).lk = none)
      (hbase : (s.evs e).evBase = some base) :
      KernelStep s (.addLocked t true)
        ((s.setProc ((s.setKq base ((s.kqs base).add kev)).setEv e
          { s.evs e with pending := true }.deactivate)).setCall t none)
  | quiet {l : Label} {s' : State} (hl : ∀ u, NotFetch u l) (hadd : ∀ t, l ≠ .addLocked t true)
      (hen : ∀ t b done enlist, l = .advance t →
        (s.threads t).phase = .finishing b [] done enlist → s'.aborted ≠ none)
      (hkn : ∀ b x kn, s'.kqs b x = some kn → s.kqs b x = some kn) : KernelStep s l s'

/-- A step that only takes knotes away. -/
lemma Step.kernelStep (hs : Step c s l s' o) : KernelStep s l s' := by
  have hdelete : ∀ {base b : BaseId} {x y : Slot} {kn : Knote} {ev : Event} {e : EvId},
      ((s.setKq base (Function.update (s.kqs base) x none)).setEv e ev).kqs b y = some kn →
      s.kqs b y = some kn := by
    intro base b x y kn ev e hkn
    simp only [Proc.setEv_kqs, Proc.setKq_kqs] at hkn
    split at hkn
    · next hb => rw [hb]; exact mem_of_update_none hkn
    · exact hkn
  cases hs with
  | fetch hth hlen hf => exact .fetch hth hf
  | enable hph hok => exact .enable hph
  | addOk hcall hlk hbase => exact .add hcall hlk hbase
  | finishDel => exact .quiet (by simp [NotFetch]) (by simp) (by simp) fun b x kn => hdelete
  | delOk hdel =>
    refine .quiet ?_ ?_ ?_ fun b x kn => hdelete
    all_goals rcases hdel.label with rfl | rfl <;> simp [NotFetch]
  | delErr hdel | delWait hdel =>
    refine .quiet ?_ ?_ ?_ fun b x kn hkn => hkn
    all_goals rcases hdel.label with rfl | rfl <;> simp [NotFetch]
  | @close fd =>
    refine .quiet (by simp [NotFetch]) (by simp) (by simp) fun b x kn hkn => ?_
    simp only [Kqueue.close] at hkn
    split at hkn
    · cases hkn
    · exact hkn
  | addLock =>
    refine .quiet (by simp [NotFetch]) (by simp) (by simp) fun b x kn hkn => ?_
    simpa [State.setCall_toProc, State.setProc_toProc, patchTimerFd_kqs] using hkn
  | toCalling hph | toFinishing hph | toIdle hph =>
    refine .quiet (by simp [NotFetch]) (by simp) (fun t b done enlist hl hph' => ?_)
      fun b x kn hkn => hkn
    obtain rfl := Label.advance.inj hl
    rw [hph] at hph'
    cases hph'
  | abort hl =>
    refine .quiet (fun u b slots heq => ?_) (fun t heq => ?_) (by simp) fun b x kn hkn => hkn
    · rw [heq] at hl
      cases hl
    · rw [heq] at hl
      cases hl
  | _ => exact .quiet (by simp [NotFetch]) (by simp) (by simp) fun b x kn hkn => hkn

end Step

/-- What a step does to the flags of an event: nothing, or a change of the event takes it out of
its batch, or a thread activates it, or a thread ends its activation. -/
lemma EvStep.flags_cases {c : Cfg} {s : State} {e : EvId} {l : Label} {ev : Event}
    (h : EvStep c s e l ev) (hset : s.isSet e) :
    (ev.active = (s.evs e).active ∧ ev.owner = (s.evs e).owner ∧ ev.epoch = (s.evs e).epoch) ∨
    ((s.evs e).active = true ∧ ev.active = false ∧ (s.evs e).epoch < ev.epoch) ∨
    (∃ t b k todo done, l = .activate t ∧ (s.threads t).phase = .activating b (k :: todo) done ∧
      k.udata = e ∧ ev.active = true ∧ ev.owner = some t ∧ ev.epoch = (s.evs e).epoch) ∨
    ∃ t w b a todo done enlist, l = .finish t w ∧
      (s.threads t).phase = .finishing b (a :: todo) done enlist ∧ a.ev = e ∧
      a.fresh (s.evs e) = true ∧ ev.active = false ∧ ev.epoch = (s.evs e).epoch := by
  cases h with
  | keep | finishSkip | unlock | baseSet | patch | delWait | spurious | cleanup =>
    exact .inl ⟨rfl, rfl, rfl⟩
  | set =>
    have hcv : (s.evs e).cvInit = cvInitMagic := hset
    refine .inl ?_
    simp [Event.firstSet, Event.assign, hcv]
  | activate hph he => exact .inr (.inr (.inl ⟨_, _, _, _, _, rfl, hph, he, rfl, rfl, rfl⟩))
  | finishKeep hph he hlk hfresh | finishDel hph he hlk hfresh =>
    exact .inr (.inr (.inr ⟨_, _, _, _, _, _, _, rfl, hph, he, hfresh, rfl, rfl⟩))
  | add | delete =>
    cases hact : (s.evs e).active with
    | true =>
      refine .inr (.inl ⟨rfl, Event.deactivate_active _, ?_⟩)
      rw [Event.deactivate_epoch, if_pos hact]
      exact Nat.lt_succ_self _
    | false =>
      refine .inl ?_
      simp [Event.deactivate, hact]

/-- What a step does to the descriptor and the base of an event. -/
lemma EvStep.addr_cases {c : Cfg} {s : State} {e : EvId} {l : Label} {ev : Event}
    (h : EvStep c s e l ev) (hset : s.isSet e) :
    (ev.fd = (s.evs e).fd ∧ ev.evBase = (s.evs e).evBase) ∨
    (∃ t fd type fn arg, l = .set t e fd type fn arg ∧ ev.fd = fd ∧
      ev.evBase = (s.evs e).evBase) ∨
    (∃ t b, l = .baseSet t b e ∧ (s.evs e).pending = false ∧ ev.fd = (s.evs e).fd ∧
      ev.evBase = some b) ∨
    ∃ t timeout, l = .add t e timeout ∧ (s.evs e).pending = false ∧
      (s.evs e).type.has evTimeout = true ∧ ev.evBase = (s.evs e).evBase := by
  cases h with
  | set =>
    have hcv : (s.evs e).cvInit = cvInitMagic := hset
    refine .inr (.inl ⟨_, _, _, _, _, rfl, rfl, ?_⟩)
    simp [Event.firstSet, Event.assign, hcv]
  | baseSet hmay hact hpend => exact .inr (.inr (.inl ⟨_, _, rfl, hpend, rfl, rfl⟩))
  | patch hmay hpend htype => exact .inr (.inr (.inr ⟨_, _, rfl, hpend, htype, rfl⟩))
  | add | delete => exact .inl ⟨Event.deactivate_fd _, Event.deactivate_evBase _⟩
  | _ => exact .inl ⟨rfl, rfl⟩

end Skq.Evcompat
