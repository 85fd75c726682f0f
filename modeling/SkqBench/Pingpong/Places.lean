import Mathlib.Data.List.Nodup
import SkqBench.Pingpong.Ppd

/-!
# Where a connection is

Every hint is in one place at a time: it belongs to the main thread until its connection is
registered, then to the kqueue or to the one worker that fetched its event, and a worker that drops
the connection deletes the knote, closes the descriptor and frees the hint, in this order.  `Places`
says what the tables of the server look like when the hints are in given places; the lemmas of this
file are the moves from place to place.
-/

namespace Skq.Pingpong

variable {τ : Type*}

/-- Where a hint, and with it its connection, is. -/
inductive Place (τ : Type*)
  | unborn
  | setup (fd : ℤ)
  | queued (fd : ℤ)
  | held (t : τ) (fd : ℤ)
  | deleted (t : τ) (fd : ℤ)
  | closed (t : τ)
  | freed

/-- Where a hint is after the worker `t` has fetched the events. -/
def Place.fetched (t : τ) (evs : List Kev) : Place τ → Place τ
  | .queued fd => if fd ∈ evs.map Kev.ident then .held t fd else .queued fd
  | p => p

/-- The worker, if it is in the hands of one. -/
def Place.owner : Place τ → Option τ
  | .held t _ => some t
  | .deleted t _ => some t
  | .closed t => some t
  | _ => none

/-- The descriptor, while it is open. -/
def Place.fd : Place τ → Option ℤ
  | .setup fd => some fd
  | .queued fd => some fd
  | .held _ fd => some fd
  | .deleted _ fd => some fd
  | _ => none

/-! ## What a worker holds -/

/-- Descriptor and hint. -/
def Kev.key (x : Kev) : ℤ × ℕ := (x.ident, x.udata)

namespace Worker

variable (w : Worker)

/-- The changes of `skev` that the running `kevent` has made. -/
def submitted : ℕ :=
  match w.pc with
  | .kevent done _ => done
  | _ => 0

/-- The current event, once its knote is deleted, no longer counts. -/
def deletions : ℕ :=
  match w.pc with
  | .dropConn .close => 1
  | .dropConn .destroy => 1
  | _ => 0

/-- The connections a worker is responsible for: the events it has not finished, and the changes it
has not submitted. -/
def held : List (ℤ × ℕ) :=
  (w.kev.drop (w.i + w.deletions) ++ w.skev.drop w.submitted).map Kev.key

/-- The connection whose knote was deleted and whose descriptor is still open. -/
def deleted : Option (ℤ × ℕ) :=
  match w.pc with
  | .dropConn .close => w.kev[w.i]?.map Kev.key
  | _ => none

/-- The hint that is about to be freed. -/
def closed : Option ℕ :=
  match w.pc with
  | .dropConn .destroy => w.kev[w.i]?.map Kev.udata
  | _ => none

end Worker

/-! ## Places and tables -/

/-- What a hint in this place means. -/
def Server.Located (s : Server τ) (hint : ℕ) : Place τ → Prop
  | .unborn => s.hints hint = none
  | .setup fd => ∃ c, s.hints hint = some ⟨c, false⟩ ∧ s.fds fd = some c ∧ s.kq fd = none ∧
      s.main = .registering fd hint
  | .queued fd => ∃ c, s.hints hint = some ⟨c, false⟩ ∧ s.fds fd = some c ∧
      s.kq fd = some ⟨hint, false⟩
  | .held t fd => ∃ c, s.hints hint = some ⟨c, false⟩ ∧ s.fds fd = some c ∧
      s.kq fd = some ⟨hint, true⟩ ∧ (fd, hint) ∈ (s.workers t).held
  | .deleted t fd => ∃ c, s.hints hint = some ⟨c, false⟩ ∧ s.fds fd = some c ∧
      s.kq fd = none ∧ (s.workers t).deleted = some (fd, hint)
  | .closed t => ∃ c, s.hints hint = some ⟨c, false⟩ ∧ (∀ fd, s.fds fd ≠ some c) ∧
      (s.workers t).closed = some hint
  | .freed => ∃ c, s.hints hint = some ⟨c, true⟩ ∧ ∀ fd, s.fds fd ≠ some c

/-- What a worker holds is in its places. -/
structure Worker.Attributed (w : Worker) (place : ℕ → Place τ) (t : τ) : Prop where
  held : ∀ {fd hint}, (fd, hint) ∈ w.held → place hint = .held t fd
  nodup : w.held.Nodup
  deleted : ∀ {fd hint}, w.deleted = some (fd, hint) → place hint = .deleted t fd
  closed : ∀ {hint}, w.closed = some hint → place hint = .closed t

/-- Connections, descriptors and hints are numbered once. -/
structure Server.Numbered (s : Server τ) : Prop where
  fds_inj : ∀ {fd fd' c}, s.fds fd = some c → s.fds fd' = some c → fd = fd'
  hint_inj : ∀ {hint hint' x x'}, s.hints hint = some x → s.hints hint' = some x' →
    x.conn = x'.conn → hint = hint'
  fds_lt : ∀ {fd c}, s.fds fd = some c → c < s.accepts
  conn_lt : ∀ {hint x}, s.hints hint = some x → x.conn < s.accepts
  hint_lt : ∀ {hint x}, s.hints hint = some x → hint < s.allocs
  accepted : ∀ {fd c}, s.main = .accepted fd c → s.fds fd = some c ∧
    ∀ hint x, s.hints hint = some x → x.conn ≠ c

/-- The tables of the server, when the hints are in these places. -/
structure Places (s : Server τ) (place : ℕ → Place τ) : Prop where
  numbered : s.Numbered
  located : ∀ hint, s.Located hint (place hint)
  attributed : ∀ t, (s.workers t).Attributed place t
  knote : ∀ {fd kn}, s.kq fd = some kn → (place kn.udata).fd = some fd
  setup : ∀ {fd hint}, s.main = .registering fd hint → place hint = .setup fd

variable {s s' : Server τ} {place : ℕ → Place τ} {p : Place τ} {w w' : Worker} {t t' : τ}
  {fd fd' : ℤ} {hint hint' : ℕ}

/-- A hint with an open descriptor belongs to the connection that is open there. -/
lemma Server.Located.conn (h : s.Located hint p) (hfd : p.fd = some fd) :
    ∃ c, s.hints hint = some ⟨c, false⟩ ∧ s.fds fd = some c := by
  cases p with
  | unborn => cases hfd
  | closed t => cases hfd
  | freed => cases hfd
  | setup fd =>
    cases hfd
    obtain ⟨c, hc, hopen, -⟩ := h
    exact ⟨c, hc, hopen⟩
  | queued fd =>
    cases hfd
    obtain ⟨c, hc, hopen, -⟩ := h
    exact ⟨c, hc, hopen⟩
  | held t fd =>
    cases hfd
    obtain ⟨c, hc, hopen, -⟩ := h
    exact ⟨c, hc, hopen⟩
  | deleted t fd =>
    cases hfd
    obtain ⟨c, hc, hopen, -⟩ := h
    exact ⟨c, hc, hopen⟩

/-- Where the hint of a knote is. -/
lemma Server.Located.knote {kn : Knote} (h : s.Located kn.udata p) (hfd : p.fd = some fd)
    (hkn : s.kq fd = some kn) :
    p = .queued fd ∧ kn.disabled = false ∨ ∃ t, p = .held t fd ∧ kn.disabled = true := by
  cases p with
  | unborn => cases hfd
  | closed t => cases hfd
  | freed => cases hfd
  | setup fd =>
    cases hfd
    obtain ⟨c, -, -, hnone, -⟩ := h
    rw [hnone] at hkn
    cases hkn
  | deleted t fd =>
    cases hfd
    obtain ⟨c, -, -, hnone, -⟩ := h
    rw [hnone] at hkn
    cases hkn
  | queued fd =>
    cases hfd
    obtain ⟨c, -, -, hq⟩ := h
    rw [hq] at hkn
    exact .inl ⟨rfl, by rw [← Option.some.inj hkn]⟩
  | held t fd =>
    cases hfd
    obtain ⟨c, -, -, hq, -⟩ := h
    rw [hq] at hkn
    exact .inr ⟨t, rfl, by rw [← Option.some.inj hkn]⟩

/-- What the worker `w` has of a hint, `w'` has. -/
structure Worker.Keeps (w w' : Worker) (hint : ℕ) : Prop where
  held : ∀ {fd}, (fd, hint) ∈ w.held → (fd, hint) ∈ w'.held
  deleted : ∀ {fd}, w.deleted = some (fd, hint) → w'.deleted = some (fd, hint)
  closed : w.closed = some hint → w'.closed = some hint

lemma Worker.Keeps.refl (w : Worker) (hint : ℕ) : w.Keeps w hint := ⟨id, id, id⟩

/-- A hint stays where it is if the tables do not change there. -/
lemma Server.Located.frame (h : s.Located hint p) (hhint : s'.hints hint = s.hints hint)
    (hfd : ∀ fd, p.fd = some fd → s'.fds fd = s.fds fd ∧ s'.kq fd = s.kq fd)
    (hshut : ∀ x, s.hints hint = some x → (∀ fd, s.fds fd ≠ some x.conn) →
      ∀ fd, s'.fds fd ≠ some x.conn)
    (hmain : ∀ fd, p = .setup fd → s'.main = s.main)
    (hw : ∀ t, (s.workers t).Keeps (s'.workers t) hint) : s'.Located hint p := by
  cases p with
  | unborn => exact hhint.trans h
  | setup fd =>
    obtain ⟨c, hc, hopen, hq, hm⟩ := h
    obtain ⟨hf, hk⟩ := hfd fd rfl
    exact ⟨c, hhint.trans hc, hf.trans hopen, hk.trans hq, (hmain fd rfl).trans hm⟩
  | queued fd =>
    obtain ⟨c, hc, hopen, hq⟩ := h
    obtain ⟨hf, hk⟩ := hfd fd rfl
    exact ⟨c, hhint.trans hc, hf.trans hopen, hk.trans hq⟩
  | held t fd =>
    obtain ⟨c, hc, hopen, hq, hmem⟩ := h
    obtain ⟨hf, hk⟩ := hfd fd rfl
    exact ⟨c, hhint.trans hc, hf.trans hopen, hk.trans hq, (hw t).held hmem⟩
  | deleted t fd =>
    obtain ⟨c, hc, hopen, hq, hmem⟩ := h
    obtain ⟨hf, hk⟩ := hfd fd rfl
    exact ⟨c, hhint.trans hc, hf.trans hopen, hk.trans hq, (hw t).deleted hmem⟩
  | closed t =>
    obtain ⟨c, hc, hshut', hmem⟩ := h
    exact ⟨c, hhint.trans hc, hshut _ hc hshut', (hw t).closed hmem⟩
  | freed =>
    obtain ⟨c, hc, hshut'⟩ := h
    exact ⟨c, hhint.trans hc, hshut _ hc hshut'⟩

/-- A worker keeps its places when a hint that is not in its hands moves. -/
lemma Worker.Attributed.update (h : w.Attributed place t) (hne : (place hint).owner ≠ some t) :
    w.Attributed (Function.update place hint p) t where
  held := by
    intro fd hint' hmem
    have hp := h.held hmem
    rw [Function.update_of_ne, hp]
    rintro rfl
    exact hne (by rw [hp]; rfl)
  nodup := h.nodup
  deleted := by
    intro fd hint' hmem
    have hp := h.deleted hmem
    rw [Function.update_of_ne, hp]
    rintro rfl
    exact hne (by rw [hp]; rfl)
  closed := by
    intro hint' hmem
    have hp := h.closed hmem
    rw [Function.update_of_ne, hp]
    rintro rfl
    exact hne (by rw [hp]; rfl)

namespace Places

/-- Two hints do not share a descriptor. -/
lemma fd_inj (h : Places s place) (hfd : (place hint).fd = some fd)
    (hfd' : (place hint').fd = some fd) : hint = hint' := by
  obtain ⟨c, hc, hopen⟩ := (h.located hint).conn hfd
  obtain ⟨c', hc', hopen'⟩ := (h.located hint').conn hfd'
  have hcc : c = c' := Option.some.inj (hopen.symm.trans hopen')
  exact h.numbered.hint_inj hc hc' hcc

/-- Where the hint of a knote is. -/
lemma knote_cases (h : Places s place) {kn : Knote} (hkn : s.kq fd = some kn) :
    place kn.udata = .queued fd ∧ kn.disabled = false ∨
      ∃ t, place kn.udata = .held t fd ∧ kn.disabled = true :=
  (h.located kn.udata).knote (h.knote hkn) hkn

/-- **A hint moves.**  The tables change at most for it and at its descriptor. -/
lemma move (h : Places s place) (hnum : s'.Numbered) (hloc : s'.Located hint p)
    (hhints : ∀ hint', hint' ≠ hint → s'.hints hint' = s.hints hint')
    (htables : ∀ hint' fd, (place hint').fd = some fd → hint' ≠ hint →
      s'.fds fd = s.fds fd ∧ s'.kq fd = s.kq fd)
    (hknote : ∀ fd kn, s'.kq fd = some kn → kn.udata = hint ∧ p.fd = some fd ∨
      kn.udata ≠ hint ∧ s.kq fd = some kn)
    (hopen : ∀ fd c, s'.fds fd = some c → s.fds fd = some c)
    (hmain : ∀ fd hint', s.main = .registering fd hint' → hint' ≠ hint → s'.main = s.main)
    (hsetup : ∀ fd hint', s'.main = .registering fd hint' →
      hint' = hint ∧ p = .setup fd ∨ hint' ≠ hint ∧ s.main = .registering fd hint')
    (hkeeps : ∀ t hint', hint' ≠ hint → (s.workers t).Keeps (s'.workers t) hint')
    (hattr : ∀ t, (s'.workers t).Attributed (Function.update place hint p) t) :
    Places s' (Function.update place hint p) where
  numbered := hnum
  located := by
    intro hint'
    by_cases he : hint' = hint
    · subst he
      rwa [Function.update_self]
    · rw [Function.update_of_ne he]
      refine (h.located hint').frame (hhints hint' he) (fun fd hfd => htables hint' fd hfd he) ?_ ?_
        fun t => hkeeps t hint' he
      · exact fun x _ hshut fd hfd => hshut fd (hopen fd _ hfd)
      · intro fd hp
        have hloc' := h.located hint'
        rw [hp] at hloc'
        obtain ⟨c, -, -, -, hm⟩ := hloc'
        exact hmain fd hint' hm he
  attributed := hattr
  knote := by
    intro fd kn hkn
    rcases hknote fd kn hkn with ⟨rfl, hp⟩ | ⟨he, hkn'⟩
    · rwa [Function.update_self]
    · rw [Function.update_of_ne he]
      exact h.knote hkn'
  setup := by
    intro fd hint' hm
    rcases hsetup fd hint' hm with ⟨rfl, hp⟩ | ⟨he, hm'⟩
    · rw [Function.update_self, hp]
    · rw [Function.update_of_ne he]
      exact h.setup hm'

/-- The hint a worker has in its hands moves. -/
lemma move_worker [DecidableEq τ] (h : Places s place) (hown : (place hint).owner = some t)
    (hworkers : s'.workers = Function.update s.workers t w') (hmain : s'.main = s.main)
    (hnum : s'.Numbered) (hloc : s'.Located hint p)
    (hhints : ∀ hint', hint' ≠ hint → s'.hints hint' = s.hints hint')
    (htables : ∀ hint' fd, (place hint').fd = some fd → hint' ≠ hint →
      s'.fds fd = s.fds fd ∧ s'.kq fd = s.kq fd)
    (hknote : ∀ fd kn, s'.kq fd = some kn → kn.udata = hint ∧ p.fd = some fd ∨
      kn.udata ≠ hint ∧ s.kq fd = some kn)
    (hopen : ∀ fd c, s'.fds fd = some c → s.fds fd = some c)
    (hkeeps : ∀ hint', hint' ≠ hint → (s.workers t).Keeps w' hint')
    (hattr : w'.Attributed (Function.update place hint p) t) :
    Places s' (Function.update place hint p) := by
  refine h.move hnum hloc hhints htables hknote hopen (fun _ _ _ _ => hmain) ?_ ?_ ?_
  · intro fd' hint' hm
    rw [hmain] at hm
    refine .inr ⟨?_, hm⟩
    rintro rfl
    rw [h.setup hm] at hown
    cases hown
  · intro t' hint' he
    rw [hworkers]
    by_cases ht : t' = t
    · subst ht
      rw [Function.update_self]
      exact hkeeps hint' he
    · rw [Function.update_of_ne ht]
      exact .refl _ _
  · intro t'
    rw [hworkers]
    by_cases ht : t' = t
    · subst ht
      rwa [Function.update_self]
    · rw [Function.update_of_ne ht]
      refine (h.attributed t').update ?_
      rw [hown]
      exact fun he => ht (Option.some.inj he).symm

end Places

/-! ## The moves of a worker -/

lemma Server.Numbered.mono (h : s.Numbered)
    (hfds : ∀ fd c, s'.fds fd = some c → s.fds fd = some c)
    (hhints : ∀ hint x, s'.hints hint = some x → ∃ y, s.hints hint = some y ∧ y.conn = x.conn)
    (haccepts : s'.accepts = s.accepts) (hallocs : s'.allocs = s.allocs)
    (hmain : ∀ fd c, s'.main = .accepted fd c → s.main = .accepted fd c ∧
      (s.fds fd = some c → s'.fds fd = some c)) : s'.Numbered where
  fds_inj := fun h₁ h₂ => h.fds_inj (hfds _ _ h₁) (hfds _ _ h₂)
  hint_inj := by
    intro hint hint' x x' h₁ h₂ heq
    obtain ⟨y, hy, hyc⟩ := hhints _ _ h₁
    obtain ⟨y', hy', hyc'⟩ := hhints _ _ h₂
    exact h.hint_inj hy hy' (by rw [hyc, hyc', heq])
  fds_lt := fun h₁ => by
    rw [haccepts]
    exact h.fds_lt (hfds _ _ h₁)
  conn_lt := by
    intro hint x h₁
    obtain ⟨y, hy, hyc⟩ := hhints _ _ h₁
    rw [haccepts, ← hyc]
    exact h.conn_lt hy
  hint_lt := by
    intro hint x h₁
    obtain ⟨y, hy, -⟩ := hhints _ _ h₁
    rw [hallocs]
    exact h.hint_lt hy
  accepted := by
    intro fd c h₁
    obtain ⟨hm, hopen⟩ := hmain _ _ h₁
    obtain ⟨hfd, hno⟩ := h.accepted hm
    refine ⟨hopen hfd, fun hint x hx => ?_⟩
    obtain ⟨y, hy, hyc⟩ := hhints _ _ hx
    rw [← hyc]
    exact hno _ _ hy

/-- A worker that loses the first connection it holds. -/
lemma Worker.Attributed.tail (h : w.Attributed place t) (hheld : w.held = (fd, hint) :: w'.held) :
    (∀ fd' hint', (fd', hint') ∈ w'.held → Function.update place hint p hint' = .held t fd') ∧
      w'.held.Nodup := by
  have hnodup := h.nodup
  rw [hheld, List.nodup_cons] at hnodup
  refine ⟨fun fd' hint' hmem => ?_, hnodup.2⟩
  have hp := h.held (hheld ▸ List.mem_cons_of_mem _ hmem)
  have hp₀ := h.held (hheld ▸ List.mem_cons_self : (fd, hint) ∈ w.held)
  rw [Function.update_of_ne, hp]
  rintro rfl
  rw [hp₀] at hp
  cases hp
  exact hnodup.1 hmem

/-- The worker is not in the second half of `drop_conn`. -/
def Worker.Whole (w : Worker) : Prop := w.deleted = none ∧ w.closed = none

namespace Places

/-- Other hints have other descriptors. -/
lemma fd_ne (h : Places s place) (hfd : (place hint).fd = some fd) {hint' : ℕ} {fd' : ℤ}
    (hfd' : (place hint').fd = some fd') (hne : hint' ≠ hint) : fd' ≠ fd := by
  rintro rfl
  exact hne (h.fd_inj hfd' hfd)

/-- The knotes after the one at the descriptor of a hint was replaced. -/
lemma knote_update (h : Places s place) (hfd : (place hint).fd = some fd) {k : Option Knote}
    (hk : ∀ kn, k = some kn → kn.udata = hint ∧ p.fd = some fd) (fd' : ℤ) (kn : Knote)
    (hkn : Function.update s.kq fd k fd' = some kn) :
    kn.udata = hint ∧ p.fd = some fd' ∨ kn.udata ≠ hint ∧ s.kq fd' = some kn := by
  by_cases he : fd' = fd
  · subst he
    rw [Function.update_self] at hkn
    exact .inl (hk kn hkn)
  · rw [Function.update_of_ne he] at hkn
    refine .inr ⟨?_, hkn⟩
    rintro rfl
    exact he (Option.some.inj ((h.knote hkn).symm.trans hfd))

variable [DecidableEq τ]

/-- A worker rearranges what it holds. -/
lemma swap (h : Places s place) (hheld : w'.held.Perm (s.workers t).held)
    (hdel : w'.deleted = (s.workers t).deleted) (hclosed : w'.closed = (s.workers t).closed) :
    Places (s.setWorker t w') place where
  numbered := h.numbered.mono (fun _ _ => id) (fun _ x hx => ⟨x, hx, rfl⟩) rfl rfl
    fun _ _ hm => ⟨hm, id⟩
  located := by
    intro hint
    refine (h.located hint).frame rfl (fun _ _ => ⟨rfl, rfl⟩) (fun _ _ => id) (fun _ _ => rfl) ?_
    intro t'
    by_cases ht : t' = t
    · subst ht
      rw [Server.setWorker_self]
      exact ⟨fun hmem => hheld.mem_iff.2 hmem, fun hd => hdel.trans hd,
        fun hc => hclosed.trans hc⟩
    · rw [Server.setWorker_ne _ ht]
      exact .refl _ _
  attributed := by
    intro t'
    by_cases ht : t' = t
    · subst ht
      rw [Server.setWorker_self]
      exact ⟨fun hmem => (h.attributed t').held (hheld.mem_iff.1 hmem),
        hheld.nodup_iff.2 (h.attributed t').nodup,
        fun hd => (h.attributed t').deleted (hdel.symm.trans hd),
        fun hc => (h.attributed t').closed (hclosed.symm.trans hc)⟩
    · rw [Server.setWorker_ne _ ht]
      exact h.attributed t'
  knote := h.knote
  setup := h.setup

/-- A worker that loses the first connection it holds keeps the rest. -/
lemma keeps_tail (hheld : w.held = (fd, hint) :: w'.held) (hw : w.Whole) (hne : hint' ≠ hint) :
    w.Keeps w' hint' := by
  refine ⟨fun hmem => ?_, fun hd => ?_, fun hc => ?_⟩
  · rw [hheld] at hmem
    rcases List.mem_cons.1 hmem with heq | hmem
    · exact absurd (congrArg Prod.snd heq) hne
    · exact hmem
  · rw [hw.1] at hd
    cases hd
  · rw [hw.2] at hc
    cases hc

/-- A change of `skev` is made. -/
lemma enable (h : Places s place) (hheld : (s.workers t).held = (fd, hint) :: w'.held)
    (hw : (s.workers t).Whole) (hw' : w'.Whole) :
    Places { s.setWorker t w' with kq := Function.update s.kq fd (some ⟨hint, false⟩) }
      (Function.update place hint (.queued fd)) := by
  have hp : place hint = .held t fd := (h.attributed t).held (hheld ▸ List.mem_cons_self)
  obtain ⟨c, hc, hopen⟩ := (h.located hint).conn (by rw [hp]; rfl)
  obtain ⟨hheld', hnodup⟩ := (h.attributed t).tail (p := .queued fd) hheld
  have hfd : (place hint).fd = some fd := by rw [hp]; rfl
  refine h.move_worker (by rw [hp]; rfl) rfl rfl ?_ ?_ (fun _ _ => rfl)
    (fun hint' fd' hfd' hne => ⟨rfl, Function.update_of_ne (h.fd_ne hfd hfd' hne) ..⟩)
    (h.knote_update hfd ?_) (fun _ _ => id) (fun hint' hne => keeps_tail hheld hw hne) ?_
  · exact h.numbered.mono (fun _ _ => id) (fun _ x hx => ⟨x, hx, rfl⟩) rfl rfl
      fun _ _ hm => ⟨hm, id⟩
  · exact ⟨c, hc, hopen, Function.update_self ..⟩
  · rintro kn ⟨⟩
    exact ⟨rfl, rfl⟩
  · exact ⟨fun hmem => hheld' _ _ hmem, hnodup, fun hd => by simp [hw'.1] at hd,
      fun hc => by simp [hw'.2] at hc⟩

/-- `drop_conn` deletes the knote. -/
lemma delete (h : Places s place) (hheld : (s.workers t).held = (fd, hint) :: w'.held)
    (hw : (s.workers t).Whole) (hdel : w'.deleted = some (fd, hint)) (hclosed : w'.closed = none) :
    Places { s.setWorker t w' with kq := Function.update s.kq fd none }
      (Function.update place hint (.deleted t fd)) := by
  have hp : place hint = .held t fd := (h.attributed t).held (hheld ▸ List.mem_cons_self)
  obtain ⟨c, hc, hopen⟩ := (h.located hint).conn (by rw [hp]; rfl)
  obtain ⟨hheld', hnodup⟩ := (h.attributed t).tail (p := .deleted t fd) hheld
  have hfd : (place hint).fd = some fd := by rw [hp]; rfl
  refine h.move_worker (by rw [hp]; rfl) rfl rfl ?_ ?_ (fun _ _ => rfl)
    (fun hint' fd' hfd' hne => ⟨rfl, Function.update_of_ne (h.fd_ne hfd hfd' hne) ..⟩)
    (h.knote_update hfd ?_) (fun _ _ => id) (fun hint' hne => keeps_tail hheld hw hne) ?_
  · exact h.numbered.mono (fun _ _ => id) (fun _ x hx => ⟨x, hx, rfl⟩) rfl rfl
      fun _ _ hm => ⟨hm, id⟩
  · refine ⟨c, hc, hopen, Function.update_self .., ?_⟩
    rw [show _ = w' from s.setWorker_self t w']
    exact hdel
  · rintro kn ⟨⟩
  · refine ⟨fun hmem => hheld' _ _ hmem, hnodup, fun hd => ?_, fun hc => by simp [hclosed] at hc⟩
    rw [hdel] at hd
    obtain ⟨rfl, rfl⟩ := Prod.mk.inj (Option.some.inj hd)
    exact Function.update_self ..

/-- `drop_conn` closes the descriptor. -/
lemma close (h : Places s place) (hheld : w'.held = (s.workers t).held)
    (hdel : (s.workers t).deleted = some (fd, hint)) (hno : (s.workers t).closed = none)
    (hdel' : w'.deleted = none) (hclosed : w'.closed = some hint) :
    Places { s.setWorker t w' with
        fds := Function.update s.fds fd none
        kq := Function.update s.kq fd none }
      (Function.update place hint (.closed t)) := by
  have hp : place hint = .deleted t fd := (h.attributed t).deleted hdel
  obtain ⟨c, hc, hopen⟩ := (h.located hint).conn (by rw [hp]; rfl)
  have hfds : ∀ fd' c', Function.update s.fds fd none fd' = some c' → s.fds fd' = some c' := by
    intro fd' c' heq
    by_cases hfd : fd' = fd
    · subst hfd
      rw [Function.update_self] at heq
      cases heq
    · rwa [Function.update_of_ne hfd] at heq
  have hfd : (place hint).fd = some fd := by rw [hp]; rfl
  refine h.move_worker (by rw [hp]; rfl) rfl rfl ?_ ?_ (fun _ _ => rfl)
    (fun hint' fd' hfd' hne => ⟨Function.update_of_ne (h.fd_ne hfd hfd' hne) ..,
      Function.update_of_ne (h.fd_ne hfd hfd' hne) ..⟩)
    (h.knote_update hfd ?_) hfds
    (fun hint' hne => ⟨fun hmem => hheld ▸ hmem, fun hd => ?_, fun hc => ?_⟩) ?_
  · refine h.numbered.mono hfds (fun _ x hx => ⟨x, hx, rfl⟩) rfl rfl fun fd' c' hm => ⟨hm, ?_⟩
    -- the connection main has just accepted is another one
    intro hfd'
    have hne : fd' ≠ fd := by
      rintro rfl
      obtain ⟨-, hno'⟩ := h.numbered.accepted hm
      exact hno' hint _ hc (Option.some.inj (hopen.symm.trans hfd'))
    exact (Function.update_of_ne hne ..).trans hfd'
  · refine ⟨c, hc, fun fd' heq => ?_, ?_⟩
    · have hfd := h.numbered.fds_inj (hfds _ _ heq) hopen
      subst hfd
      exact absurd ((Function.update_self fd' none s.fds).symm.trans heq) (by simp)
    · rw [show _ = w' from s.setWorker_self t w']
      exact hclosed
  · rintro kn ⟨⟩
  · rw [hdel] at hd
    exact absurd (congrArg Prod.snd (Option.some.inj hd)).symm hne
  · rw [hno] at hc
    cases hc
  · refine ⟨fun hmem => ?_, hheld ▸ (h.attributed t).nodup, fun hd => by simp [hdel'] at hd,
      fun hc => ?_⟩
    · have hp' := (h.attributed t).held (hheld ▸ hmem)
      rw [Function.update_of_ne, hp']
      rintro rfl
      rw [hp] at hp'
      cases hp'
    · rw [hclosed] at hc
      cases hc
      exact Function.update_self ..

/-- `conn_hint_destroy`. -/
lemma free (h : Places s place) (hheld : w'.held = (s.workers t).held)
    (hclosed : (s.workers t).closed = some hint) (hno : (s.workers t).deleted = none)
    (hw' : w'.Whole) : ∃ c, s.hints hint = some ⟨c, false⟩ ∧
      Places { s.setWorker t w' with hints := Function.update s.hints hint (some ⟨c, true⟩) }
        (Function.update place hint .freed) := by
  have hp : place hint = .closed t := (h.attributed t).closed hclosed
  have hloc := h.located hint
  rw [hp] at hloc
  obtain ⟨c, hc, hshut, -⟩ := hloc
  have hhints : ∀ hint' x, Function.update s.hints hint (some ⟨c, true⟩) hint' = some x →
      ∃ y, s.hints hint' = some y ∧ y.conn = x.conn := by
    intro hint' x hx
    by_cases he : hint' = hint
    · subst he
      rw [Function.update_self] at hx
      exact ⟨_, hc, by rw [← Option.some.inj hx]⟩
    · rw [Function.update_of_ne he] at hx
      exact ⟨x, hx, rfl⟩
  refine ⟨c, hc, h.move_worker (by rw [hp]; rfl) rfl rfl ?_ ?_
    (fun hint' hne => Function.update_of_ne hne ..) (fun _ _ _ _ => ⟨rfl, rfl⟩) ?_ (fun _ _ => id)
    (fun hint' hne => ⟨fun hmem => hheld ▸ hmem, fun hd => ?_, fun hc' => ?_⟩) ?_⟩
  · exact h.numbered.mono (fun _ _ => id) hhints rfl rfl fun _ _ hm => ⟨hm, id⟩
  · exact ⟨c, Function.update_self .., hshut⟩
  · intro fd kn hkn
    refine .inr ⟨?_, hkn⟩
    rintro rfl
    have hfd := h.knote hkn
    rw [hp] at hfd
    cases hfd
  · rw [hno] at hd
    cases hd
  · rw [hclosed] at hc'
    exact absurd (Option.some.inj hc').symm hne
  · refine ⟨fun hmem => ?_, hheld ▸ (h.attributed t).nodup, fun hd => by simp [hw'.1] at hd,
      fun hc => by simp [hw'.2] at hc⟩
    have hp' := (h.attributed t).held (hheld ▸ hmem)
    rw [Function.update_of_ne, hp']
    rintro rfl
    rw [hp] at hp'
    cases hp'

/-! ### `kevent` returns events -/

omit [DecidableEq τ] in
lemma fetched_fd (t : τ) (evs : List Kev) (p : Place τ) : (p.fetched t evs).fd = p.fd := by
  cases p with
  | queued fd =>
    rw [Place.fetched]
    split <;> rfl
  | _ => rfl

omit [DecidableEq τ] in
lemma dispatched_of_not_mem {evs : List Kev} (hno : fd ∉ evs.map Kev.ident) :
    s.dispatched evs fd = s.kq fd := by
  rw [Server.dispatched, if_neg hno]

omit [DecidableEq τ] in
/-- A delivered event is one of the hint that is queued there. -/
lemma place_of_event (h : Places s place) {evs : List Kev} (hev : s.Deliverable evs) {x : Kev}
    (hx : x ∈ evs) : place x.udata = .queued x.ident := by
  rcases h.knote_cases (hev.2.2.2 x hx) with ⟨hp, -⟩ | ⟨t, -, hd⟩
  · exact hp
  · cases hd

omit [DecidableEq τ] in
/-- No event is delivered for a descriptor whose hint is not queued. -/
lemma not_event (h : Places s place) {evs : List Kev} (hev : s.Deliverable evs)
    (hfd : (place hint).fd = some fd) (hno : place hint ≠ .queued fd) :
    fd ∉ evs.map Kev.ident := by
  intro hmem
  obtain ⟨x, hx, rfl⟩ := List.mem_map.1 hmem
  have hp := h.place_of_event hev hx
  have hhint : x.udata = hint := h.fd_inj (by rw [hp]; rfl) hfd
  exact hno (hhint ▸ hp)

/-- `kevent` returns events. -/
lemma fetch (h : Places s place) {evs : List Kev} (hev : s.Deliverable evs)
    (hheld : (s.workers t).held = []) (hheld' : w'.held = evs.map Kev.key)
    (hw : (s.workers t).Whole) (hw' : w'.Whole) :
    Places { s.setWorker t w' with kq := s.dispatched evs }
      (fun hint => (place hint).fetched t evs) where
  numbered := h.numbered.mono (fun _ _ => id) (fun _ x hx => ⟨x, hx, rfl⟩) rfl rfl
    fun _ _ hm => ⟨hm, id⟩
  located := by
    intro hint
    have hloc := h.located hint
    have hframe : (∀ fd, (place hint).fd = some fd → fd ∉ evs.map Kev.ident) →
        ({ s.setWorker t w' with kq := s.dispatched evs } : Server τ).Located hint (place hint) := by
      intro hno
      refine hloc.frame rfl (fun fd hfd => ⟨rfl, dispatched_of_not_mem (hno fd hfd)⟩)
        (fun _ _ => id) (fun _ _ => rfl) fun t' => ?_
      by_cases ht : t' = t
      · subst ht
        rw [show _ = w' from s.setWorker_self t' w']
        exact ⟨fun hmem => by simp [hheld] at hmem, fun hd => by simp [hw.1] at hd,
          fun hc => by simp [hw.2] at hc⟩
      · rw [show _ = s.workers t' from s.setWorker_ne ht w']
        exact .refl _ _
    cases hp : place hint with
    | queued fd =>
      rw [Place.fetched]
      split
      · next hmem =>
        obtain ⟨x, hx, rfl⟩ := List.mem_map.1 hmem
        have hpx := h.place_of_event hev hx
        obtain rfl : x.udata = hint := h.fd_inj (by rw [hpx]; rfl) (by rw [hp]; rfl)
        rw [hp] at hloc
        obtain ⟨c, hc, hopen, hq⟩ := hloc
        refine ⟨c, hc, hopen, ?_, ?_⟩
        · show s.dispatched evs x.ident = _
          rw [Server.dispatched, if_pos hmem, hq]
          rfl
        · rw [show _ = w' from s.setWorker_self t w', hheld']
          exact List.mem_map_of_mem hx
      · next hmem =>
        rw [hp] at hframe
        exact hframe fun fd' hfd' => by cases hfd'; exact hmem
    | _ =>
      rw [hp] at hframe
      refine hframe fun fd hfd => h.not_event hev (hp ▸ hfd) ?_
      rw [hp]
      exact fun heq => by cases heq
  attributed := by
    intro t'
    by_cases ht : t' = t
    · subst ht
      rw [show _ = w' from s.setWorker_self t' w']
      refine ⟨fun {fd hint} hmem => ?_, ?_, fun hd => by simp [hw'.1] at hd,
        fun hc => by simp [hw'.2] at hc⟩
      · rw [hheld'] at hmem
        obtain ⟨x, hx, hkey⟩ := List.mem_map.1 hmem
        obtain ⟨rfl, rfl⟩ := Prod.mk.inj hkey
        rw [h.place_of_event hev hx, Place.fetched, if_pos (List.mem_map_of_mem hx)]
      · rw [hheld']
        have hnodup := hev.2.2.1
        rw [show evs.map Kev.ident = (evs.map Kev.key).map Prod.fst by simp [Kev.key]] at hnodup
        exact List.Nodup.of_map Prod.fst hnodup
    · rw [show _ = s.workers t' from s.setWorker_ne ht w']
      have hattr := h.attributed t'
      exact ⟨fun hmem => by rw [hattr.held hmem]; rfl, hattr.nodup,
        fun hd => by rw [hattr.deleted hd]; rfl, fun hc => by rw [hattr.closed hc]; rfl⟩
  knote := by
    intro fd kn hkn
    rw [fetched_fd]
    by_cases hmem : fd ∈ evs.map Kev.ident
    · have hkn' : (s.kq fd).map (fun kn => { kn with disabled := true }) = some kn := by
        rw [← hkn]
        exact (if_pos hmem).symm
      obtain ⟨kn₀, hkn₀, rfl⟩ := Option.map_eq_some_iff.1 hkn'
      have hp := h.knote hkn₀
      exact hp
    · exact h.knote ((dispatched_of_not_mem hmem).symm.trans hkn)
  setup := by
    intro fd hint hm
    have hp := h.setup hm
    show (place hint).fetched t evs = _
    rw [hp]
    rfl

/-! ### The main thread -/

omit [DecidableEq τ]

/-- `accept()` opens a new connection at a descriptor that is not open. -/
lemma accept (h : Places s place) (hmain : s.main = .idle) (hfd : s.fds fd = none) :
    Places { s with
        fds := Function.update s.fds fd (some s.accepts)
        accepts := s.accepts + 1
        main := .accepted fd s.accepts } place where
  numbered := by
    have hcases : ∀ {fd' c}, Function.update s.fds fd (some s.accepts) fd' = some c →
        fd' = fd ∧ c = s.accepts ∨ s.fds fd' = some c ∧ c < s.accepts := by
      intro fd' c hc
      by_cases he : fd' = fd
      · subst he
        rw [Function.update_self] at hc
        exact .inl ⟨rfl, (Option.some.inj hc).symm⟩
      · rw [Function.update_of_ne he] at hc
        exact .inr ⟨hc, h.numbered.fds_lt hc⟩
    refine ⟨fun {fd₁ fd₂ c} h₁ h₂ => ?_, h.numbered.hint_inj, fun {fd₁ c} h₁ => ?_,
      fun {hint x} h₁ => ?_, h.numbered.hint_lt, fun {fd₁ c} h₁ => ?_⟩
    · rcases hcases h₁ with ⟨rfl, rfl⟩ | ⟨h₁', hlt₁⟩
      · rcases hcases h₂ with ⟨rfl, -⟩ | ⟨-, hlt₂⟩
        · rfl
        · exact absurd hlt₂ (Nat.lt_irrefl _)
      · rcases hcases h₂ with ⟨-, rfl⟩ | ⟨h₂', -⟩
        · exact absurd hlt₁ (Nat.lt_irrefl _)
        · exact h.numbered.fds_inj h₁' h₂'
    · show c < s.accepts + 1
      rcases hcases h₁ with ⟨-, rfl⟩ | ⟨-, hlt⟩
      · exact Nat.lt_succ_self _
      · exact Nat.lt_succ_of_lt hlt
    · exact Nat.lt_succ_of_lt (h.numbered.conn_lt h₁)
    · obtain ⟨rfl, rfl⟩ := Accepting.accepted.inj h₁
      exact ⟨Function.update_self .., fun hint x hx => Nat.ne_of_lt (h.numbered.conn_lt hx)⟩
  located := by
    intro hint
    refine (h.located hint).frame rfl (fun fd' hfd' => ⟨?_, rfl⟩) ?_ ?_ fun t => .refl _ _
    · obtain ⟨c, -, hopen⟩ := (h.located hint).conn hfd'
      refine Function.update_of_ne ?_ ..
      rintro rfl
      rw [hfd] at hopen
      cases hopen
    · intro x hx hshut fd' heq
      by_cases he : fd' = fd
      · subst he
        have hconn : s.accepts = x.conn :=
          Option.some.inj ((Function.update_self fd' _ s.fds).symm.trans heq)
        exact Nat.ne_of_lt (h.numbered.conn_lt hx) hconn.symm
      · exact hshut fd' ((Function.update_of_ne he _ s.fds).symm.trans heq)
    · intro fd' hp
      have hloc := h.located hint
      rw [hp] at hloc
      obtain ⟨c, -, -, -, hm⟩ := hloc
      rw [hmain] at hm
      cases hm
  attributed := h.attributed
  knote := h.knote
  setup := fun hm => by cases hm

/-- `setsockopt()` fails, and the main thread turns to the next connection. -/
lemma giveUp (h : Places s place) {c : ℕ} (hmain : s.main = .accepted fd c) :
    Places { s with main := .idle } place where
  numbered := h.numbered.mono (fun _ _ => id) (fun _ x hx => ⟨x, hx, rfl⟩) rfl rfl
    fun _ _ hm => by cases hm
  located := by
    intro hint
    refine (h.located hint).frame rfl (fun _ _ => ⟨rfl, rfl⟩) (fun _ _ => id) ?_ fun t => .refl _ _
    intro fd' hp
    have hloc := h.located hint
    rw [hp] at hloc
    obtain ⟨c', -, -, -, hm⟩ := hloc
    rw [hmain] at hm
    cases hm
  attributed := h.attributed
  knote := h.knote
  setup := fun hm => by cases hm

/-- The main thread allocates a hint. -/
lemma allocate (h : Places s place) {c : ℕ} (hmain : s.main = .accepted fd c) :
    place s.allocs = .unborn ∧ Places { s with
        hints := Function.update s.hints s.allocs (some ⟨c, false⟩)
        allocs := s.allocs + 1
        main := .registering fd s.allocs } (Function.update place s.allocs (.setup fd)) := by
  obtain ⟨hopen, hno⟩ := h.numbered.accepted hmain
  have hfresh : s.hints s.allocs = none := by
    cases hx : s.hints s.allocs with
    | none => rfl
    | some x => exact absurd (h.numbered.hint_lt hx) (Nat.lt_irrefl _)
  have hunborn : place s.allocs = .unborn := by
    have hloc := h.located s.allocs
    cases hp : place s.allocs with
    | unborn => rfl
    | _ =>
      rw [hp] at hloc
      obtain ⟨c', hc', -⟩ := hloc
      rw [hfresh] at hc'
      cases hc'
  have hcases : ∀ {hint x}, Function.update s.hints s.allocs (some ⟨c, false⟩) hint = some x →
      hint = s.allocs ∧ x.conn = c ∨ s.hints hint = some x := by
    intro hint x hx
    by_cases he : hint = s.allocs
    · subst he
      rw [Function.update_self] at hx
      exact .inl ⟨rfl, by rw [← Option.some.inj hx]⟩
    · rw [Function.update_of_ne he] at hx
      exact .inr hx
  have hkq : s.kq fd = none := by
    cases hkn : s.kq fd with
    | none => rfl
    | some kn =>
      obtain ⟨c', hc', hopen'⟩ := (h.located kn.udata).conn (h.knote hkn)
      exact absurd (Option.some.inj (hopen'.symm.trans hopen)) (hno _ _ hc')
  refine ⟨hunborn, h.move ?_ ⟨c, Function.update_self .., hopen, hkq, rfl⟩
    (fun hint' hne => Function.update_of_ne hne ..) (fun _ _ _ _ => ⟨rfl, rfl⟩) ?_ (fun _ _ => id)
    ?_ ?_ (fun t hint' _ => .refl _ _) fun t => (h.attributed t).update (by rw [hunborn]; nofun)⟩
  · refine ⟨h.numbered.fds_inj, fun {hint hint' x x'} h₁ h₂ heq => ?_, h.numbered.fds_lt,
      fun {hint x} h₁ => ?_, fun {hint x} h₁ => ?_, fun hm => by cases hm⟩
    · rcases hcases h₁ with ⟨rfl, hx⟩ | h₁'
      · rcases hcases h₂ with ⟨rfl, -⟩ | h₂'
        · rfl
        · exact absurd (heq.symm.trans hx) (hno _ _ h₂')
      · rcases hcases h₂ with ⟨rfl, hx'⟩ | h₂'
        · exact absurd (heq.trans hx') (hno _ _ h₁')
        · exact h.numbered.hint_inj h₁' h₂' heq
    · rcases hcases h₁ with ⟨-, hx⟩ | h₁'
      · show x.conn < s.accepts
        rw [hx]
        exact h.numbered.fds_lt hopen
      · exact h.numbered.conn_lt h₁'
    · rcases hcases h₁ with ⟨rfl, -⟩ | h₁'
      · exact Nat.lt_succ_self _
      · exact Nat.lt_succ_of_lt (h.numbered.hint_lt h₁')
  · intro fd' kn hkn
    refine .inr ⟨fun he => ?_, hkn⟩
    have hfd := h.knote hkn
    rw [he, hunborn] at hfd
    cases hfd
  · intro fd' hint' hm
    rw [hmain] at hm
    cases hm
  · intro fd' hint' hm
    obtain ⟨rfl, rfl⟩ := Accepting.registering.inj hm
    exact .inl ⟨rfl, rfl⟩

/-- The main thread registers a connection. -/
lemma register (h : Places s place) (hmain : s.main = .registering fd hint) :
    s.kq fd = none ∧ Places { s with
        kq := Function.update s.kq fd (some ⟨hint, false⟩)
        main := .idle } (Function.update place hint (.queued fd)) := by
  have hp := h.setup hmain
  have hloc := h.located hint
  rw [hp] at hloc
  obtain ⟨c, hc, hopen, hq, -⟩ := hloc
  have hfd : (place hint).fd = some fd := by rw [hp]; rfl
  refine ⟨hq, h.move ?_ ⟨c, hc, hopen, Function.update_self ..⟩ (fun _ _ => rfl)
    (fun hint' fd' hfd' hne => ⟨rfl, Function.update_of_ne (h.fd_ne hfd hfd' hne) ..⟩)
    (h.knote_update hfd ?_) (fun _ _ => id) ?_ (fun _ _ hm => by cases hm)
    (fun t hint' _ => .refl _ _) fun t => (h.attributed t).update (by rw [hp]; nofun)⟩
  · exact h.numbered.mono (fun _ _ => id) (fun _ x hx => ⟨x, hx, rfl⟩) rfl rfl
      fun _ _ hm => by cases hm
  · rintro kn ⟨⟩
    exact ⟨rfl, rfl⟩
  · intro fd' hint' hm hne
    rw [hmain] at hm
    exact absurd (Accepting.registering.inj hm).2.symm hne

end Places

end Skq.Pingpong
