import SkqBench.Mem.Holder

/-!
# One user of a connection at a time

Every connection has a holder, in every state of a run in which all are in time (`InTime`), and every use
is one of the holder.
-/

namespace Skq.Mem

open Lib Evcompat

namespace Driving

section Holders

variable {τ : Type} {cfg : DriveCfg} {s s' : Driving τ} {tr : List (DriveObs τ)} {c : ℕ}
  {conn : ℕ → ClientConn τ}

/-- What is known of all connections. -/
structure Inv (cfg : DriveCfg) (s : Driving τ) (tr : List (DriveObs τ)) : Prop where
  fits : ∀ c, ∃ x, Fits cfg s tr c x
  nodup : ∀ t, (s.worker t).todo.Nodup

/-- Nothing is open, and nothing has happened. -/
lemma inv_init : Inv cfg (init conn) [] :=
  ⟨fun c => ⟨.nobody, by
    refine ⟨?_, ?_, ?_, ?_, ?_, ?_, ?_, ?_, ?_⟩
    · exact fun he => by cases he
    · exact fun t he => by cases he
    · exact fun t hb => by cases hb
    · exact fun a ha => by cases ha
    · exact fun _ => ⟨rfl, .inl rfl⟩
    · exact fun t hmem => absurd hmem List.not_mem_nil
    · exact fun t hd => absurd hd not_armed_nil
    · exact fun t ⟨_, _, hr⟩ => absurd hr not_armed_nil
    · exact ⟨fun _ _ _ => noneBetween_nil, fun _ => noneBetween_nil⟩⟩, fun _ => List.nodup_nil⟩

/-- A thread that is no worker gives a connection back, or closes it. -/
lemma handBack_inv (h : Inv cfg s tr) (ha : s.away c = some .side) (hun : s.Undriven none c)
    (hw : s'.worker = s.worker) (hsame : SameElse c s s') (hev : s'.ev c = s.ev c)
    (hnew : s'.opened c = s.opened c ∧ s'.away c = some .queued ∨
      s'.opened c = false ∧ s'.away c = none) : Inv cfg s' (tr ++ [.access none c]) := by
  refine ⟨fun d => ?_, fun u => by rw [hw]; exact h.nodup u⟩
  obtain ⟨x, hx⟩ := h.fits d
  by_cases hd : d = c
  · subst hd
    obtain ⟨hopen, haway⟩ | ⟨hopen, haway⟩ := hnew
    · exact ⟨_, hx.handBack ha hun hw hev (.inl ⟨hopen, _, haway, rfl⟩)⟩
    · exact ⟨_, hx.handBack ha hun hw hev (.inr ⟨hopen, haway, rfl⟩)⟩
  · obtain ⟨h₁, h₂, h₃, h₄⟩ := hsame d hd
    refine ⟨x, hx.frame (fun u => .inl (by rw [hw])) h₁ h₂ h₄ h₃ ?_⟩
    rintro y hy he
    obtain rfl := List.mem_singleton.1 hy
    exact hd (Option.some.inj he).symm

end Holders

variable {τ : Type} [DecidableEq τ] {cfg : DriveCfg} {s s' : Driving τ} {tr o : List (DriveObs τ)}
  {t : τ} {c : ℕ} {w : Driver} {conn : ℕ → ClientConn τ}

/-! ## Steps -/

/-- A step of a worker about connection `c`. -/
lemma Inv.move (h : Inv cfg s tr) (c : ℕ) (hw : s'.worker = Function.update s.worker t w)
    (hold : (s.worker t).pc.subject = some c ∨ (s.worker t).pc.subject = none)
    (hnew : w.pc.subject = some c ∨ w.pc.subject = none)
    (htodo : w.todo.Sublist (s.worker t).todo) (hsame : SameElse c s s')
    (ho : ∀ y ∈ o, y.about = some c ∨ y.about = none)
    (hfit : ∀ x, Fits cfg s tr c x → ∃ x', Fits cfg s' (tr ++ o) c x') : Inv cfg s' (tr ++ o) := by
  refine ⟨fun d => ?_, fun u => ?_⟩
  · obtain ⟨x, hx⟩ := h.fits d
    by_cases hd : d = c
    · subst hd
      exact hfit x hx
    · obtain ⟨hconn, hev, hopened, haway⟩ := hsame d hd
      have hne : ∀ {p : Option ℕ}, p = some c ∨ p = none → p ≠ some d := by
        rintro p (rfl | rfl) he
        · exact hd (Option.some.inj he).symm
        · cases he
      refine ⟨x, hx.frame (fun u => ?_) hconn hev haway hopened fun y hy => hne (ho y hy)⟩
      by_cases hut : u = t
      · subst hut
        rw [hw, Function.update_self]
        exact .inr ⟨hne hold, hne hnew, fun hmem => htodo.subset hmem⟩
      · exact .inl (by rw [hw, Function.update_of_ne hut])
  · by_cases hut : u = t
    · subst hut
      rw [hw, Function.update_self]
      exact (h.nodup u).sublist htodo
    · rw [hw, Function.update_of_ne hut]
      exact h.nodup u

lemma goto_worker {pc : DriverAt} (hw : s'.worker = s.worker) :
    (s'.goto t pc).worker = Function.update s.worker t { s.worker t with pc := pc } := by
  rw [goto, hw]

lemma eventDel_cases {ok : Bool} (h : s.eventDel t c = some (s', ok)) :
    s'.worker = s.worker ∧ SameElse c s s' ∧ s'.conn = s.conn ∧ s'.opened = s.opened ∧
      s'.away = s.away ∧ s'.ev c = .deleted ∧ (ok = true → s.ev c = .armed ∨ s.ev c = .taken t) := by
  have hset : ∀ d, d ≠ c → Function.update s.ev c .deleted d = s.ev d := fun d hd =>
    Function.update_of_ne hd ..
  simp only [eventDel] at h
  split at h
  · next he =>
    cases h
    exact ⟨rfl, fun _ _ => ⟨rfl, rfl, rfl, rfl⟩, rfl, rfl, rfl, he, by simp⟩
  · next he =>
    cases h
    exact ⟨rfl, fun d hd => ⟨rfl, hset d hd, rfl, rfl⟩, rfl, rfl, rfl, Function.update_self ..,
      fun _ => .inl he⟩
  · next u he =>
    split at h
    · next hut =>
      cases h
      exact ⟨rfl, fun d hd => ⟨rfl, hset d hd, rfl, rfl⟩, rfl, rfl, rfl, Function.update_self ..,
        fun _ => .inr (hut ▸ he)⟩
    · cases h

/-- What `update_event` does with an event that is not armed. -/
lemma updateEvent_cases {flags : EvType} {addOk ok rearmed : Bool} (hne : s.ev c ≠ .armed)
    (h : s.updateEvent t c flags addOk = some (s', ok, rearmed)) :
    s'.worker = s.worker ∧ SameElse c s s' ∧ s'.opened = s.opened ∧ s'.away = s.away ∧
      (rearmed = true ∧ ok = true ∧ s.ev c = .taken t ∧ s'.ev c = .armed ∨
        rearmed = false ∧ (s'.ev c = s.ev c ∨ s'.ev c = .deleted)) := by
  simp only [updateEvent] at h
  split at h
  · cases h
    exact ⟨rfl, fun _ _ => ⟨rfl, rfl, rfl, rfl⟩, rfl, rfl, .inr ⟨rfl, .inl rfl⟩⟩
  · split at h
    · cases h
    · next s₁ hdel =>
      cases h
      obtain ⟨hw, hsame, -, hopened, haway, he, -⟩ := eventDel_cases hdel
      exact ⟨hw, hsame, hopened, haway, .inr ⟨rfl, .inr he⟩⟩
    · next s₁ hdel =>
      obtain ⟨hw, hsame, hconn, hopened, haway, he, hok⟩ := eventDel_cases hdel
      have hconn' : ∀ x, SameElse c s (s₁.setConn c x) := fun x d hd => by
        obtain ⟨h₁, h₂, h₃, h₄⟩ := hsame d hd
        exact ⟨(Function.update_of_ne hd ..).trans h₁, h₂, h₃, h₄⟩
      split at h
      · cases h
        refine ⟨hw, fun d hd => ?_, hopened, haway, .inl ⟨rfl, rfl, (hok rfl).resolve_left hne, ?_⟩⟩
        · obtain ⟨h₁, h₂, h₃, h₄⟩ := hconn' _ d hd
          exact ⟨h₁, (Function.update_of_ne hd ..).trans h₂, h₃, h₄⟩
        · exact Function.update_self ..
      · cases h
        exact ⟨hw, hconn' _, hopened, haway, .inr ⟨rfl, .inr he⟩⟩

/-- A step of a worker in `drive_machine` that leaves it there. -/
lemma Inv.drive {n : ℤ} {s₁ : Driving τ} {pc : DriverAt} (h : Inv cfg s tr)
    (hpc : (s.worker t).pc = .machine c n) (hw : s₁.worker = s.worker) (hsame : SameElse c s s₁)
    (hpc' : pc.subject = some c) (ho : ∀ y ∈ o, y.about = some c ∨ y.about = none)
    (hfit : ∀ x, Fits cfg s tr c x → ∃ x', Fits cfg (s₁.goto t pc) (tr ++ o) c x') :
    Inv cfg (s₁.goto t pc) (tr ++ o) := by
  exact h.move c (goto_worker hw) (.inl (by rw [hpc]; rfl)) (.inl hpc') (List.Sublist.refl _) hsame ho hfit

/-- `update_event` in `drive_machine`. -/
lemma block_inv {n left : ℤ} {addOk : Bool} (h : Inv cfg s tr) (hpc : (s.worker t).pc = .machine c n)
    (hwatch : (s.conn c).state ≠ .watch) (hs : s.block t c left addOk = some (s', o)) :
    Inv cfg s' (tr ++ o) := by
  obtain ⟨x, hx⟩ := h.fits c
  have hne := (hx.of_machine hpc).1
  have hnone := (hx.of_machine hpc).2.resolve_right hwatch
  simp only [block] at hs
  split at hs
  · cases hs
  · next s₁ rearmed hup =>
    cases hs
    obtain ⟨hw, hsame, hopened, haway, hcase⟩ := updateEvent_cases hne hup
    have hev := (hcase.resolve_left fun hr => by cases hr.2.1).2
    refine h.drive hpc hw (sameElse_setConn hsame) rfl (by simp [DriveObs.about]) fun x hx => ⟨.worker t, ?_⟩
    exact hx.stay (.inl hpc) (goto_worker hw) (by simp [DriverAt.drives]) rfl hne hev
      (congrFun hopened c) (congrFun haway c) (.inl hnone)
  · next s₁ rearmed hup =>
    cases hs
    obtain ⟨hw, hsame, hopened, haway, ⟨rfl, -, hold, hev⟩ | ⟨rfl, hev⟩⟩ := updateEvent_cases hne hup
    · refine h.drive hpc hw hsame ?_ (by simp [DriveObs.about]) fun x hx => ?_
      · split <;> rfl
      · by_cases hst : (s.conn c).state = .waiting
        · exact ⟨.worker t, hx.rearm hpc (goto_worker hw) hold hev (congrFun hopened c) (congrFun haway c)
            rfl (.inl ⟨by simp [hst], hst, rfl⟩)⟩
        · exact ⟨.kernel, hx.rearm hpc (goto_worker hw) hold hev (congrFun hopened c) (congrFun haway c)
            rfl (.inr ⟨by simp [hst], rfl⟩)⟩
    · refine h.drive hpc hw hsame ?_ (by simp [DriveObs.about]) fun x hx => ⟨.worker t, ?_⟩
      · split <;> rfl
      · refine hx.stay (.inl hpc) (goto_worker hw) ?_ rfl hne hev (congrFun hopened c) (congrFun haway c)
          (.inl hnone)
        split <;> simp [DriverAt.drives]

/-- `conn_closing`. -/
lemma close_inv {n : ℤ} (h : Inv cfg s tr) (hpc : (s.worker t).pc = .machine c n)
    (hst : (s.conn c).state = .closing) (hs : s.close t c = some (s', o)) : Inv cfg s' (tr ++ o) := by
  obtain ⟨x, hx⟩ := h.fits c
  have hne := (hx.of_machine hpc).1
  have hnone := (hx.of_machine hpc).2.resolve_right (by simp [hst])
  simp only [close] at hs
  split at hs
  · cases hs
    refine h.drive hpc rfl (sameElse_setConn fun _ _ => ⟨rfl, rfl, rfl, rfl⟩) rfl (by simp [DriveObs.about])
      fun x hx => ⟨.worker t, ?_⟩
    exact hx.stay (.inl hpc) (goto_worker rfl) (by simp [DriverAt.drives]) rfl hne (.inl rfl) rfl rfl
      (.inl hnone)
  · split at hs
    · cases hs
    · next s₁ ok hdel =>
      cases hs
      obtain ⟨hw, hsame, -, -, haway, hev, -⟩ := eventDel_cases hdel
      refine h.drive hpc hw (fun d hd => ?_) rfl (by simp [DriveObs.about]) fun x hx => ⟨.worker t, ?_⟩
      · obtain ⟨h₁, h₂, h₃, h₄⟩ := sameElse_setConn hsame d hd
        exact ⟨h₁, h₂, (Function.update_of_ne hd ..).trans h₃, h₄⟩
      · exact hx.close hpc (goto_worker hw) rfl rfl hev ((congrFun haway c).trans hnone)

/-- A connection is handed over. -/
lemma handOver_inv {n : ℤ} (h : Inv cfg s tr) (hpc : (s.worker t).pc = .machine c n)
    (hs : s.handOver t c n = some (s', o)) : Inv cfg s' (tr ++ o) := by
  simp only [handOver] at hs
  split at hs
  · cases hs
  · next s₁ ok hdel =>
    cases hs
    obtain ⟨hw, hsame, -, hopened, -, hev, -⟩ := eventDel_cases hdel
    refine h.drive hpc hw (fun d hd => ?_) ?_ (by simp [DriveObs.about]) fun x hx => ⟨.worker t, ?_⟩
    · obtain ⟨h₁, h₂, h₃, h₄⟩ := sameElse_setConn hsame d hd
      exact ⟨h₁, h₂, h₃, (Function.update_of_ne hd ..).trans h₄⟩
    · split <;> rfl
    · refine hx.handOver hpc (goto_worker hw) ?_ rfl hev (congrFun hopened c) (Function.update_self ..) ?_
      · split <;> simp [DriverAt.drives]
      · by_cases hst : (s.conn c).state = .parseCmd
        · refine .inr ⟨⟨n, by simp [hst]⟩, ?_⟩
          simp [goto, setState, setConn]
        · exact .inl (by simp [hst])

/-- A pass of the loop of `drive_machine`. -/
lemma iterate_inv {n : ℤ} {b : Branch} {addOk : Bool} (h : Inv cfg s tr)
    (hpc : (s.worker t).pc = .machine c n) (hs : s.iterate cfg t c n b addOk = some (s', o)) :
    Inv cfg s' (tr ++ o) := by
  obtain ⟨x, hx⟩ := h.fits c
  have hne := (hx.of_machine hpc).1
  simp only [iterate, Option.ite_none_right_eq_some] at hs
  obtain ⟨hb, hs⟩ := hs
  -- in `conn_watch` the loop ends
  have hwatch : b ≠ .stop → (s.conn c).state ≠ .watch := by
    rintro hstop hst
    rw [hst] at hb
    cases b <;> first | exact hstop rfl | cases hb
  cases b with
  | set st' =>
    cases hs
    have hnone := (hx.of_machine hpc).2.resolve_right (hwatch (by simp))
    refine h.drive hpc rfl (sameElse_setConn fun _ _ => ⟨rfl, rfl, rfl, rfl⟩) rfl (by simp [DriveObs.about])
      fun x hx => ⟨.worker t, ?_⟩
    exact hx.stay (.inl hpc) (goto_worker rfl) (by simp [DriverAt.drives]) rfl hne (.inl rfl) rfl rfl
      (.inl hnone)
  | again =>
    cases hs
    have hnone := (hx.of_machine hpc).2.resolve_right (hwatch (by simp))
    have hself : s.worker = Function.update s.worker t (s.worker t) := (Function.update_eq_self ..).symm
    have hat : (s.worker t).pc.subject = some c := by rw [hpc]; rfl
    refine h.move c hself (.inl hat) (.inl hat) (List.Sublist.refl _) (fun _ _ => ⟨rfl, rfl, rfl, rfl⟩)
      (by simp [DriveObs.about])
      fun x hx => ⟨.worker t, ?_⟩
    exact hx.stay (.inl hpc) hself (by simp [hpc, DriverAt.drives]) rfl hne (.inl rfl) rfl rfl (.inl hnone)
  | block => exact block_inv h hpc (hwatch (by simp)) hs
  | handOver => exact handOver_inv h hpc hs
  | stop =>
    dsimp only at hs
    split at hs
    · next hst => exact close_inv h hpc hst hs
    · cases hs
      refine h.drive hpc rfl (fun _ _ => ⟨rfl, rfl, rfl, rfl⟩) rfl (by simp [DriveObs.about])
        fun x hx => ⟨.worker t, ?_⟩
      exact hx.stay (.inl hpc) (goto_worker rfl) (by simp [DriverAt.drives]) rfl hne (.inl rfl) rfl rfl
        (.inr rfl)

/-- `conn_set_state(c, conn_read)` after `update_event`. -/
lemma Fits.setRead (h : Fits cfg s tr c x) (hpc : (s.worker t).pc = .waited c)
    (hw : s'.worker = Function.update s.worker t w) (hpc' : w.pc = .leaving c)
    (htodo : w.todo = (s.worker t).todo) (hev : s'.ev c = s.ev c) (hopened : s'.opened c = s.opened c)
    (haway : s'.away c = s.away c) : ∃ x', Fits cfg s' (tr ++ [.access (some t) c]) c x' := by
  by_cases he : s.ev c = .armed
  · have hbusy : (s.worker t).pc.busy c = true := by simp [hpc, DriverAt.busy]
    have hleave : (s.worker t).pc ≠ .leaving c := by simp [hpc]
    obtain rfl := h.busy t hbusy
    refine ⟨.kernel, h.act other_ne hw (fun _ => .inl rfl) (fun u hu => ?_) (fun hb => ?_) (fun a ha => ?_)
      (fun hc => ?_) (fun hmem => ?_) (fun hd => ?_) (fun _ => hpc') (by simp [DriveObs.actor]) ?_⟩
    · rw [hev, he] at hu
      cases hu
    · simp [hpc', DriverAt.busy] at hb
    · have hdel := (h.away a (haway ▸ ha)).1
      rw [he] at hdel
      cases hdel
    · have hdel := (h.closed (hopened ▸ hc)).1
      rw [he] at hdel
      cases hdel
    · exact absurd (htodo ▸ hmem) (h.not_todo hbusy)
    · exact absurd he (h.drives t (hd.of_append (by simp)).1).2.2
    · exact h.use [.access (some t) c] [] other_ne (by simp [DriveObs.actor])
        (by simp [DriveObs.isAccess]) (by simp) fun _ => hleave
  · exact ⟨.worker t, h.stay (n := 0) (.inr hpc) hw (by simp [hpc', DriverAt.drives]) htodo he (.inl hev)
      hopened haway (.inr hpc')⟩

/-- A call of `drive_machine` begins. -/
lemma enter_inv {s₁ : Driving τ} (h : Inv cfg s tr) (hw : ∀ u, u ≠ t → s₁.worker u = s.worker u)
    (htodo : (s₁.worker t).todo.Sublist (s.worker t).todo)
    (hpc : (s.worker t).pc.subject = some c ∨ (s.worker t).pc.subject = none)
    (hsame : SameElse c s s₁) (hleave : (s.worker t).pc ≠ .leaving c)
    (hfit : Fits cfg s tr c (.worker t)) (hmem : .conn c ∉ (s₁.worker t).todo) (hne : s.ev c ≠ .armed)
    (hev : s₁.ev c = s.ev c) (hopen : s₁.opened c = true) (haway : s₁.away c = none) :
    Inv cfg (s₁.enter cfg t c) (tr ++ [.access (some t) c, .enter t c]) := by
  have hworker : (s₁.enter cfg t c).worker =
      Function.update s.worker t ⟨.machine c cfg.reqsPerEvent, (s₁.worker t).todo⟩ := by
    funext u
    by_cases hut : u = t
    · subst hut
      simp only [enter]
      split <;> simp [goto, setConn]
    · rw [Function.update_of_ne hut, ← hw u hut]
      simp only [enter]
      split <;> simp [goto, setConn, Function.update_of_ne hut]
  have hrest : (s₁.enter cfg t c).ev = s₁.ev ∧ (s₁.enter cfg t c).opened = s₁.opened ∧
      (s₁.enter cfg t c).away = s₁.away := by
    simp only [enter]
    split <;> exact ⟨rfl, rfl, rfl⟩
  have hconn : SameElse c s (s₁.enter cfg t c) := by
    simp only [enter]
    split
    · exact hsame
    · exact sameElse_setConn hsame
  refine h.move c hworker hpc (.inl rfl) htodo hconn (by simp [DriveObs.about]) fun x hx => ⟨.worker t, ?_⟩
  exact hfit.enter hleave hworker rfl hmem hne ((congrFun hrest.1 c).trans hev)
    ((congrFun hrest.2.1 c).trans hopen) ((congrFun hrest.2.2 c).trans haway)

/-- A step of a worker that is about no connection. -/
lemma Inv.pass (h : Inv cfg s tr) (hw : s'.worker = Function.update s.worker t w)
    (hold : (s.worker t).pc.subject = none) (hnew : w.pc.subject = none)
    (htodo : w.todo.Sublist (s.worker t).todo) (hconn : s'.conn = s.conn) (hev : s'.ev = s.ev)
    (hopened : s'.opened = s.opened) (haway : s'.away = s.away) (ho : ∀ y ∈ o, y.about = none) :
    Inv cfg s' (tr ++ o) := by
  refine h.move 0 hw (.inr hold) (.inr hnew) htodo ?_ (fun y hy => .inr (ho y hy)) fun x hx => ⟨x, ?_⟩
  · exact fun d _ => ⟨congrFun hconn d, congrFun hev d, congrFun hopened d, congrFun haway d⟩
  · refine hx.frame (fun u => ?_) (congrFun hconn 0) (congrFun hev 0) (congrFun haway 0) (congrFun hopened 0)
      fun y hy => by simp [ho y hy]
    by_cases hut : u = t
    · subst hut
      rw [hw, Function.update_self]
      exact .inr ⟨by simp [hold], by simp [hnew], fun hmem => htodo.subset hmem⟩
    · exact .inl (by rw [hw, Function.update_of_ne hut])

/-- A worker at the notify pipe looks at a connection, and goes on without it. -/
lemma Inv.glance {s₁ : Driving τ} (h : Inv cfg s tr) (hpc : (s.worker t).pc = .notified)
    (hun : s.Undriven (some t) c) (hs : s₁ = s ∨ ∃ y, s₁ = s.setConn c y ∧ s.away c = none) :
    Inv cfg (s₁.goto t .calling) (tr ++ [.access (some t) c, .done t]) := by
  have hw : s₁.worker = s.worker := by
    obtain rfl | ⟨y, rfl, -⟩ := hs <;> rfl
  have hsame : SameElse c s s₁ := by
    obtain rfl | ⟨y, rfl, -⟩ := hs
    · exact fun _ _ => ⟨rfl, rfl, rfl, rfl⟩
    · exact sameElse_setConn fun _ _ => ⟨rfl, rfl, rfl, rfl⟩
  refine h.move c (goto_worker hw) (.inr (by rw [hpc]; rfl)) (.inr rfl) (List.Sublist.refl _) hsame
    (by simp [DriveObs.about]) fun x hx => ⟨x, ?_⟩
  · have hx₁ : Fits cfg s₁ tr c x := by
      obtain rfl | ⟨y, rfl, hnone⟩ := hs
      · exact hx
      · exact hx.setConn hnone
    have hun₁ : s₁.Undriven (some t) c := by
      intro u hu
      rw [hw]
      exact hun u hu
    have htouched := hx₁.touched hun₁ fun u hu => by
      cases hu
      rw [hw, hpc]
      simp
    have hframe : Fits cfg (s₁.goto t .calling) (tr ++ [.access (some t) c] ++ [.done t]) c x := by
      refine htouched.frame (fun u => ?_) rfl rfl rfl rfl (by simp [DriveObs.about])
      by_cases hut : u = t
      · subst hut
        refine .inr ⟨?_, ?_, ?_⟩
        · rw [hw, hpc]
          simp [DriverAt.subject]
        · simp [goto, DriverAt.subject]
        · simp [goto]
      · exact .inl (by simp [goto, Function.update_of_ne hut])
    rwa [List.append_assoc] at hframe

/-- What the branch `queue_redispatch` does, up to where the builds with and without extstore differ. -/
lemma readd_cases {addOk : Bool} (hs : s.readd cfg t c addOk = some (s', o)) :
    s.away c = some .queued ∧ ∃ s₁ rest, s₁.worker = s.worker ∧
      (s₁.ev c = .armed ∨ s₁.ev c = s.ev c) ∧ s₁.opened = s.opened ∧ s₁.away c = none ∧ SameElse c s s₁ ∧
      (∀ y ∈ rest, y = .rearm t c .readd) ∧
      (cfg.extstore = true ∧ s' = s₁.goto t (.readded c) ∧ o = .access (some t) c :: rest ∨
        cfg.extstore = false ∧ s' = s₁.goto t .calling ∧
          o = .access (some t) c :: (rest ++ [.done t])) := by
  simp only [readd, Option.ite_none_right_eq_some] at hs
  obtain ⟨haway, hs⟩ := hs
  let x := { s.conn c with evFlags := evRead ||| evPersist, state := .newCmd }
  let s₀ : Driving τ := { s.setConn c x with away := Function.update s.away c none }
  have hsame : SameElse c s s₀ := fun d hd =>
    ⟨Function.update_of_ne hd .., rfl, rfl, Function.update_of_ne hd ..⟩
  refine ⟨haway, if addOk then s₀.setEv c .armed else s₀, if addOk then [.rearm t c .readd] else [],
    ?_, ?_, ?_, ?_, ?_, ?_, ?_⟩
  · split <;> rfl
  · split
    · exact .inl (Function.update_self ..)
    · exact .inr rfl
  · split <;> rfl
  · split <;> exact Function.update_self ..
  · split
    · exact fun d hd => ⟨(hsame d hd).1, Function.update_of_ne hd .., rfl, (hsame d hd).2.2.2⟩
    · exact hsame
  · split <;> simp
  · split at hs
    · next hext =>
      cases hs
      exact .inl ⟨hext, rfl, rfl⟩
    · next hext =>
      cases hs
      exact .inr ⟨by simpa using hext, rfl, rfl⟩

/-- A connection comes back to the workers. -/
lemma readd_inv {addOk : Bool} (h : Inv cfg s tr) (hpc : (s.worker t).pc = .notified)
    (hs : s.readd cfg t c addOk = some (s', o)) : Inv cfg s' (tr ++ o) := by
  obtain ⟨haway, s₁, rest, hw, hev, hopened, hnone, hsame, hrest, hcase⟩ := readd_cases hs
  have hold : (s.worker t).pc.subject = none := by rw [hpc]; rfl
  have habout : ∀ y ∈ rest, y.about = some c := fun y hy => by rw [hrest y hy]; rfl
  have hleave : ∀ x, Fits cfg s tr c x → ¬ Rearmed cfg t c tr := fun x hx hr => by
    have hpc' := hx.rearmed t hr
    rw [hpc] at hpc'
    cases hpc'
  obtain ⟨hext, rfl, rfl⟩ | ⟨hext, rfl, rfl⟩ := hcase
  · refine h.move c (goto_worker hw) (.inr hold) (.inl rfl) (List.Sublist.refl _) hsame ?_ fun x hx => ?_
    · rintro y (_ | ⟨_, hy⟩)
      · exact .inl rfl
      · exact .inl (habout y hy)
    · refine hx.readd haway hpc (goto_worker hw) (.inl rfl) rfl hev (congrFun hopened c) hnone
        (fun y hy => .inl (hrest y hy)) ?_
      -- with extstore the look at `c->io_wraplist` follows
      rintro ⟨place, hlast, hr⟩
      rcases armed_append hr with hr | ⟨hr, -⟩
      · refine not_armed ?_ hr
        rintro y (_ | ⟨_, hy⟩) hy'
        · cases hy'
        · rw [hrest y hy] at hy'
          cases hy'
          simp [RearmAt.isLast, hext] at hlast
      · exact hleave x hx ⟨place, hlast, hr⟩
  · refine h.move c (goto_worker hw) (.inr hold) (.inr rfl) (List.Sublist.refl _) hsame ?_ fun x hx => ?_
    · rintro y (_ | ⟨_, hy⟩)
      · exact .inl rfl
      · rcases List.mem_append.1 hy with hy | hy
        · exact .inl (habout y hy)
        · exact .inr (by rw [List.mem_singleton.1 hy]; rfl)
    · refine hx.readd haway hpc (goto_worker hw) (.inr rfl) rfl hev (congrFun hopened c) hnone
        (fun y hy => ?_) ?_
      · rcases List.mem_append.1 hy with hy | hy
        · exact .inl (hrest y hy)
        · exact .inr (List.mem_singleton.1 hy)
      · -- the handler returns
        rintro ⟨place, hlast, hr⟩
        rw [← List.cons_append, ← List.append_assoc, armed_concat] at hr
        obtain hr | ⟨-, hdone⟩ := hr
        · cases hr
        · exact hdone rfl

/-- The body of `thread_libevent_process`. -/
lemma read_inv {notice : Notice} (h : Inv cfg s tr) (hok : s.InTime (.read t notice))
    (hs : s.step cfg (.read t notice) = some (s', o)) : Inv cfg s' (tr ++ o) := by
  simp only [step, Option.ite_none_right_eq_some] at hs
  obtain ⟨hpc, hs⟩ := hs
  have hpass : Inv cfg (s.goto t .calling) (tr ++ [.done t]) :=
    h.pass (goto_worker rfl) (by rw [hpc]; rfl) rfl (List.Sublist.refl _) rfl rfl rfl rfl
      (by simp [DriveObs.about])
  cases notice with
  | nothing =>
    cases hs
    exact hpass
  | newConn sfd initState eventFlags transport result =>
    simp only [serveNew] at hs
    split at hs
    · cases hs
    · next hclosed =>
      rw [Bool.not_eq_true] at hclosed
      obtain ⟨x, hx⟩ := h.fits sfd
      have hnone : s.away sfd = none := by
        by_contra haway
        obtain ⟨a, ha⟩ := Option.ne_none_iff_exists'.1 haway
        rw [(hx.away a ha).2.1] at hclosed
        cases hclosed
      cases result with
      | ok =>
        cases hs
        refine h.move sfd (goto_worker rfl) (.inr (by rw [hpc]; rfl)) (.inl rfl) (List.Sublist.refl _)
          (fun d hd => ?_) (by simp [DriveObs.about]) fun x hx => ⟨.worker t, ?_⟩
        · exact ⟨Function.update_of_ne hd .., Function.update_of_ne hd .., Function.update_of_ne hd .., rfl⟩
        · exact hx.setUp hclosed hok hpc (goto_worker rfl) rfl rfl (Function.update_self ..)
            (Function.update_self ..) rfl
      | noMemory =>
        dsimp only at hs
        split at hs
        · cases hs
        · cases hs
          exact hpass
      | addFailed =>
        dsimp only at hs
        split at hs
        · cases hs
        · cases hs
          exact h.glance hpc hok (.inr ⟨_, rfl, hnone⟩)
  | redispatch c addOk =>
    exact readd_inv h hpc hs
  | timeout c expired =>
    simp only [closeIdle] at hs
    split at hs
    · cases hs
    · split at hs
      · cases hs
        exact hpass
      · rw [if_neg hok.2] at hs
        cases hs
        exact h.glance hpc hok.1 (.inl rfl)

/-- `kevent()` returns. -/
lemma fetch_inv {evs : List WorkerEvent} (h : Inv cfg s tr) (hok : s.InTime (.fetch t evs))
    (hs : s.step cfg (.fetch t evs) = some (s', o)) : Inv cfg s' (tr ++ o) := by
  simp only [step, Option.ite_none_right_eq_some] at hs
  obtain ⟨⟨hpc, -, hnodup, hready⟩, hs⟩ := hs
  cases hs
  refine ⟨fun c => ?_, fun u => ?_⟩
  · obtain ⟨x, hx⟩ := h.fits c
    by_cases hmem : .conn c ∈ evs
    · refine ⟨.worker t, hx.fetch (hready _ hmem) (fun u => hok c ?_ u) hpc rfl rfl (if_pos hmem) rfl rfl⟩
      exact List.mem_filterMap.2 ⟨_, hmem, rfl⟩
    · refine ⟨x, hx.frame (fun u => ?_) rfl (if_neg hmem) rfl rfl (by simp)⟩
      by_cases hut : u = t
      · subst hut
        refine .inr ⟨?_, ?_, ?_⟩
        · simp [hpc, DriverAt.subject]
        · simp [DriverAt.subject]
        · simp [hmem]
      · exact .inl (Function.update_of_ne hut ..)
  · by_cases hut : u = t
    · subst hut
      simpa using hnodup
    · simpa [Function.update_of_ne hut] using h.nodup u

/-- A batch ends. -/
lemma finish_inv (h : Inv cfg s tr) (hs : s.step cfg (.finish t) = some (s', o)) :
    Inv cfg s' (tr ++ o) := by
  simp only [step, Option.ite_none_right_eq_some] at hs
  obtain ⟨hpc, hs⟩ := hs
  cases hs
  refine ⟨fun c => ?_, fun u => ?_⟩
  · obtain ⟨x, hx⟩ := h.fits c
    by_cases he : s.ev c = .taken t
    · exact ⟨.kernel, hx.finish he hpc rfl rfl (if_pos he) rfl rfl⟩
    · refine ⟨x, hx.frame (fun u => ?_) rfl (if_neg he) rfl rfl (by simp)⟩
      by_cases hut : u = t
      · subst hut
        refine .inr ⟨?_, ?_, ?_⟩
        · simp [hpc, DriverAt.subject]
        · simp [DriverAt.subject]
        · simp
      · exact .inl (Function.update_of_ne hut ..)
  · by_cases hut : u = t
    · subst hut
      simp
    · simpa [Function.update_of_ne hut] using h.nodup u

/-- A worker calls its next handler. -/
lemma call_inv (h : Inv cfg s tr) (hs : s.step cfg (.call t) = some (s', o)) : Inv cfg s' (tr ++ o) := by
  simp only [step] at hs
  split at hs
  · next pipe todo hw =>
    cases hs
    exact h.pass (t := t) (w := ⟨.notified, todo⟩) rfl (by rw [hw]; rfl) rfl
      (by rw [hw]; exact List.sublist_cons_self ..) rfl rfl rfl rfl (by simp)
  · next c todo hw =>
    cases hs
    obtain ⟨x, hx⟩ := h.fits c
    obtain ⟨hev, -⟩ := hx.todo t (by rw [hw]; exact List.mem_cons_self)
    obtain rfl := hx.taken t hev
    obtain ⟨hnone, hopen⟩ := hx.of_taken hev
    have hnodup := h.nodup t
    rw [hw] at hnodup
    refine enter_inv h (fun u hut => Function.update_of_ne hut ..) ?_ (.inr (by rw [hw]; rfl))
      (fun _ _ => ⟨rfl, rfl, rfl, rfl⟩) (by simp [hw]) hx ?_ (by simp [hev]) rfl hopen hnone
    · rw [hw]
      simp
    · simpa using (List.nodup_cons.1 hnodup).1
  · cases hs

/-- **One step.** -/
lemma step_inv {l : DriveLabel τ} (h : Inv cfg s tr) (hok : s.InTime l)
    (hs : s.step cfg l = some (s', o)) : Inv cfg s' (tr ++ o) := by
  cases l with
  | fetch t evs => exact fetch_inv h hok hs
  | call t => exact call_inv h hs
  | read t notice => exact read_inv h hok hs
  | finish t => exact finish_inv h hs
  | attach t =>
    simp only [step] at hs
    split at hs
    · next c hpc =>
      cases hs
      refine h.move c (goto_worker rfl) (.inl (by rw [hpc]; rfl)) (.inr rfl) (List.Sublist.refl _)
        (sameElse_setConn fun _ _ => ⟨rfl, rfl, rfl, rfl⟩) (by simp [DriveObs.about]) fun x hx => ?_
      exact hx.release (.inl hpc) (goto_worker rfl) rfl rfl rfl rfl rfl
    · cases hs
  | lookIo t wraplist =>
    simp only [step] at hs
    split at hs
    · next c hpc =>
      have hsubject : (s.worker t).pc.subject = some c := by rw [hpc]; rfl
      split at hs
      · next hwrap =>
        cases hs
        obtain ⟨x, hx⟩ := h.fits c
        have hbusy : (s.worker t).pc.busy c = true := by simp [hpc, DriverAt.busy]
        obtain rfl := hx.busy t hbusy
        have hne : s.ev c ≠ .armed := hok hwrap c (by rw [hpc]; exact rfl)
        refine enter_inv h (fun _ _ => rfl) (List.Sublist.refl _) (.inl hsubject)
          (sameElse_setConn fun _ _ => ⟨rfl, rfl, rfl, rfl⟩) (by simp [hpc]) hx (hx.not_todo hbusy) hne rfl
          (hx.opened_of_busy hbusy) (hx.not_away (.inr hpc))
      · cases hs
        refine h.move c (goto_worker rfl) (.inl hsubject) (.inr rfl) (List.Sublist.refl _)
          (fun _ _ => ⟨rfl, rfl, rfl, rfl⟩) (by simp [DriveObs.about]) fun x hx => ?_
        exact hx.release (.inr hpc) (goto_worker rfl) rfl rfl rfl rfl rfl
    · cases hs
  | setRead t =>
    simp only [step] at hs
    split at hs
    · next c hpc =>
      cases hs
      refine h.move c (goto_worker rfl) (.inl (by rw [hpc]; rfl)) (.inl rfl) (List.Sublist.refl _)
        (sameElse_setConn fun _ _ => ⟨rfl, rfl, rfl, rfl⟩) (by simp [DriveObs.about]) fun x hx => ?_
      exact hx.setRead hpc (goto_worker rfl) rfl rfl rfl rfl rfl
    · cases hs
  | iterate t b addOk =>
    simp only [step] at hs
    split at hs
    · next c n hpc => exact iterate_inv h hpc hs
    · cases hs
  | leave t =>
    simp only [step] at hs
    split at hs
    · next c hpc =>
      cases hs
      refine h.move c (goto_worker rfl) (.inl (by rw [hpc]; rfl)) (.inr rfl) (List.Sublist.refl _)
        (fun _ _ => ⟨rfl, rfl, rfl, rfl⟩) (by simp [DriveObs.about]) fun x hx => ?_
      exact hx.leave hpc (goto_worker rfl) rfl rfl rfl rfl rfl rfl
    · cases hs
  | giveBack c =>
    simp only [step, Option.ite_none_right_eq_some] at hs
    obtain ⟨ha, hs⟩ := hs
    cases hs
    exact handBack_inv h ha hok rfl (fun d hd => ⟨rfl, rfl, rfl, Function.update_of_ne hd ..⟩) rfl
      (.inl ⟨rfl, Function.update_self ..⟩)
  | sideClose c =>
    simp only [step, Option.ite_none_right_eq_some] at hs
    obtain ⟨ha, hs⟩ := hs
    cases hs
    exact handBack_inv h ha hok rfl
      (fun d hd => ⟨Function.update_of_ne hd .., rfl, Function.update_of_ne hd ..,
        Function.update_of_ne hd ..⟩)
      rfl (.inr ⟨Function.update_self .., Function.update_self ..⟩)

instance (v : Option τ) [Fintype τ] : Decidable (s.Undriven v c) :=
  inferInstanceAs (Decidable (∀ t, some t ≠ v → (s.worker t).pc.drives c = false))

instance [Fintype τ] (l : DriveLabel τ) : Decidable (s.InTime l) :=
  match l with
  | .fetch _ evs => inferInstanceAs (Decidable (∀ c ∈ evs.filterMap WorkerEvent.conn?,
      ∀ u, (s.worker u).pc.late c = false))
  | .lookIo t wraplist => inferInstanceAs (Decidable (wraplist = true →
      ∀ c ∈ (s.worker t).pc.subject, s.ev c ≠ .armed))
  | .read t (.newConn sfd ..) => inferInstanceAs (Decidable (s.Undriven (some t) sfd))
  | .read t (.timeout c expired) => inferInstanceAs (Decidable (s.Undriven (some t) c ∧
      ¬ (expired = true ∧ ((s.conn c).state = .newCmd ∨ (s.conn c).state = .read))))
  | .read _ .nothing => isTrue trivial
  | .read _ (.redispatch ..) => isTrue trivial
  | .giveBack c => inferInstanceAs (Decidable (s.Undriven none c))
  | .sideClose c => inferInstanceAs (Decidable (s.Undriven none c))
  | .call _ => isTrue trivial
  | .attach _ => isTrue trivial
  | .setRead _ => isTrue trivial
  | .iterate .. => isTrue trivial
  | .leave _ => isTrue trivial
  | .finish _ => isTrue trivial

/-- For the numerals of `Fin 2`. -/
local instance neZero_two : NeZero 2 := ⟨by decide⟩

end Driving

end Skq.Mem
