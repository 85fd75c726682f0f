import SkqBench.Mem.DriveMachine

/-!
# The holder of a connection

At every moment a connection has a `Holder`: a worker from `kevent()` on, or from the notify pipe on; the
kernel once the event is re-armed; a thread it was handed over to, or the queue to the workers.  `Fits`
says what follows from it for the connection and for the history; there is one lemma for each thing that
can happen to a connection.
-/

namespace Skq.Mem

open Lib Evcompat

/-- Who a connection belongs to. -/
inductive Holder (τ : Type)
  | nobody
  | kernel
  | worker (t : τ)
  | away (a : Away)

/-- The worker will use the connection. -/
def DriverAt.busy (c : ℕ) : DriverAt → Bool
  | attach d => d = c
  | readded d => d = c
  | machine d _ => d = c
  | waited d => d = c
  | _ => false

/-- The connection an observation is about. -/
def DriveObs.about {τ : Type} : DriveObs τ → Option ℕ
  | access _ c => some c
  | rearm _ c _ => some c
  | enter _ c => some c
  | leave _ c => some c
  | done _ => none

/-- Who does what is observed. -/
def DriveObs.actor {τ : Type} : DriveObs τ → Option τ
  | access u _ => u
  | rearm t _ _ => some t
  | enter t _ => some t
  | leave t _ => some t
  | done t => some t

/-- A use. -/
def DriveObs.isAccess {τ : Type} : DriveObs τ → Bool
  | access _ _ => true
  | _ => false

namespace DriverAt

variable {pc : DriverAt} {c : ℕ}

lemma subject_of_busy (h : pc.busy c = true) : pc.subject = some c := by
  cases pc <;> simp_all [busy, subject]

lemma subject_of_drives (h : pc.drives c = true) : pc.subject = some c := by
  cases pc <;> simp_all [drives, subject]

lemma busy_of_late (h : pc.late c = true) : pc.busy c = true := by
  cases pc <;> simp_all [late, busy]

lemma ne_leaving_of_busy (h : pc.busy c = true) : pc ≠ .leaving c := by
  rintro rfl
  cases h

end DriverAt

/-! ## What is kept of the history -/

section History

variable {τ : Type} {cfg : DriveCfg} {tr o : List (DriveObs τ)} {t : τ} {u : Option τ} {c : ℕ}

/-- In `drive_machine(c)` since the last entry, without a re-arm. -/
def Drives (t : τ) (c : ℕ) (tr : List (DriveObs τ)) : Prop :=
  Armed (· = .enter t c) (LetsGo t c) tr

/-- In the handler that has re-armed the event of `c`, where nothing but the return follows. -/
def Rearmed (cfg : DriveCfg) (t : τ) (c : ℕ) (tr : List (DriveObs τ)) : Prop :=
  ∃ place, RearmAt.isLast cfg place = true ∧ Armed (· = .rearm t c place) (· = .done t) tr

/-- What `ExclusiveUse` says of one connection. -/
structure UsedWell (cfg : DriveCfg) (c : ℕ) (tr : List (DriveObs τ)) : Prop where
  lastUse : ∀ t place, place.isLast cfg = true →
    NoneBetween (· = .rearm t c place) (· = .done t) (· = .access (some t) c) tr
  alone : ∀ t, NoneBetween (· = .enter t c) (LetsGo t c) (OtherAccess t c) tr

/-- Observations of other connections. -/
lemma UsedWell.quiet (h : UsedWell cfg c tr) (ho : ∀ y ∈ o, y.about ≠ some c) :
    UsedWell cfg c (tr ++ o) := by
  refine ⟨fun t place hp => ?_, fun t => ?_⟩
  · refine (noneBetween_append_of_quiet (h.lastUse t place hp) fun y hy => ⟨?_, ?_⟩).1
    · rintro rfl
      exact ho _ hy rfl
    · rintro rfl
      exact ho _ hy rfl
  · refine (noneBetween_append_of_quiet (h.alone t) fun y hy => ⟨?_, ?_⟩).1
    · rintro rfl
      exact ho _ hy rfl
    · rintro ⟨u, -, rfl⟩
      exact ho _ hy rfl

/-- Without an entry. -/
lemma Drives.of_append (h : Drives t c (tr ++ o)) (ho : .enter t c ∉ o) :
    Drives t c tr ∧ ∀ z ∈ o, ¬ LetsGo t c z := by
  refine (armed_append h).resolve_left (not_armed ?_)
  rintro y hy rfl
  exact ho hy

/-- Without a re-arm. -/
lemma Rearmed.of_append (h : Rearmed cfg t c (tr ++ o)) (ho : ∀ place, .rearm t c place ∉ o) :
    Rearmed cfg t c tr ∧ .done t ∉ o := by
  obtain ⟨place, hlast, h⟩ := h
  obtain ⟨h, hdone⟩ := (armed_append h).resolve_left (not_armed (by
    rintro y hy rfl
    exact ho _ hy))
  exact ⟨⟨place, hlast, h⟩, fun hmem => hdone _ hmem rfl⟩

/-- What one thread does, its uses first.  If there is a use, nobody else is in `drive_machine(c)`, and
it does not follow a re-arm. -/
lemma UsedWell.act (acc rest : List (DriveObs τ)) (h : UsedWell cfg c tr)
    (hby : ∀ y ∈ acc ++ rest, y.actor = u) (hacc : ∀ y ∈ acc, y.isAccess = true)
    (hrest : ∀ y ∈ rest, y.isAccess = false)
    (halone : acc ≠ [] → ∀ v, some v ≠ u → ¬ Drives v c tr)
    (hlast : acc ≠ [] → ∀ v, some v = u → ¬ Rearmed cfg v c tr) :
    UsedWell cfg c (tr ++ (acc ++ rest)) := by
  refine ⟨fun v place hp => ?_, fun v => ?_⟩
  · refine noneBetween_append (h.lastUse v place hp) ?_ fun ha y hy => ?_
    · refine noneBetween_append (noneBetween_of_not_left ?_) (noneBetween_of_not_right ?_) ?_
      · rintro y hy rfl
        exact absurd (hacc _ hy) (by simp [DriveObs.isAccess])
      · rintro y hy rfl
        exact absurd (hrest _ hy) (by simp [DriveObs.isAccess])
      · rintro - y hy rfl
        exact absurd (hrest _ hy) (by simp [DriveObs.isAccess])
    · rintro rfl
      rcases List.mem_append.1 hy with hy' | hy'
      · exact hlast (List.ne_nil_of_mem hy') v (hby _ hy) ⟨place, hp, ha⟩
      · exact absurd (hrest _ hy') (by simp [DriveObs.isAccess])
  · by_cases hv : some v = u
    · -- all uses are its own
      have hown : ∀ y ∈ acc ++ rest, ¬ OtherAccess v c y := by
        rintro y hy ⟨w, hw, rfl⟩
        exact hw ((hby _ hy).trans hv.symm)
      exact noneBetween_append (h.alone v) (noneBetween_of_not_right hown) fun _ => hown
    · refine noneBetween_append (h.alone v) (noneBetween_of_not_left ?_) fun ha y hy => ?_
      · rintro y hy rfl
        exact hv (hby _ hy)
      · rintro ⟨w, -, rfl⟩
        rcases List.mem_append.1 hy with hy' | hy'
        · exact halone (List.ne_nil_of_mem hy') v hv ha
        · exact absurd (hrest _ hy') (by simp [DriveObs.isAccess])

end History

/-! ## The holder of a connection -/

namespace Driving

section Holders

variable {τ : Type} {cfg : DriveCfg} {s s' : Driving τ} {tr o : List (DriveObs τ)}
  {t u : τ} {c : ℕ} {x x' : Holder τ} {w : Driver}

/-- Whom connection `c` belongs to, and what this says of it. -/
structure Fits (cfg : DriveCfg) (s : Driving τ) (tr : List (DriveObs τ)) (c : ℕ) (x : Holder τ) :
    Prop where
  armed : s.ev c = .armed → x = .kernel ∨ ∃ t, x = .worker t ∧ (s.worker t).pc.late c = true
  taken : ∀ t, s.ev c = .taken t → x = .worker t
  busy : ∀ t, (s.worker t).pc.busy c = true → x = .worker t
  away : ∀ a, s.away c = some a → s.ev c = .deleted ∧ s.opened c = true ∧ (x = .away a ∨ a = .side ∧
    ∃ t, x = .worker t ∧ ((s.worker t).pc = .leaving c ∨
      (∃ n, (s.worker t).pc = .machine c n) ∧ (s.conn c).state = .watch))
  closed : s.opened c = false → s.ev c = .deleted ∧
    (x = .nobody ∨ ∃ t, x = .worker t ∧ (s.worker t).pc = .leaving c)
  todo : ∀ t, .conn c ∈ (s.worker t).todo → s.ev c = .taken t ∧ (s.worker t).pc.busy c = false
  drives : ∀ t, Drives t c tr → (s.worker t).pc.drives c = true ∧ x = .worker t ∧ s.ev c ≠ .armed
  rearmed : ∀ t, Rearmed cfg t c tr → (s.worker t).pc = .leaving c
  used : UsedWell cfg c tr

/-- A step that is not about the connection. -/
lemma Fits.frame (h : Fits cfg s tr c x)
    (hw : ∀ u, s'.worker u = s.worker u ∨ (s.worker u).pc.subject ≠ some c ∧
      (s'.worker u).pc.subject ≠ some c ∧ (.conn c ∈ (s'.worker u).todo → .conn c ∈ (s.worker u).todo))
    (hconn : s'.conn c = s.conn c) (hev : s'.ev c = s.ev c) (haway : s'.away c = s.away c)
    (hopened : s'.opened c = s.opened c) (ho : ∀ y ∈ o, y.about ≠ some c) :
    Fits cfg s' (tr ++ o) c x := by
  -- a worker that is at the connection has not moved
  have hold : ∀ u, (s.worker u).pc.subject = some c → s'.worker u = s.worker u := fun u hu =>
    (hw u).resolve_right fun hne => hne.1 hu
  have hnew : ∀ u, (s'.worker u).pc.subject = some c → s'.worker u = s.worker u := fun u hu =>
    (hw u).resolve_right fun hne => hne.2.1 hu
  have hleaving : ∀ u, (s.worker u).pc = .leaving c → (s'.worker u).pc = .leaving c := fun u hu => by
    rw [hold u (by rw [hu]; rfl), hu]
  refine ⟨fun he => ?_, fun u he => h.taken u (hev ▸ he), fun u hu => ?_, fun a ha => ?_, fun hc => ?_,
    fun u hu => ?_, fun u hu => ?_, fun u hu => ?_, h.used.quiet ho⟩
  · obtain hx | ⟨u, hx, hlate⟩ := h.armed (hev ▸ he)
    · exact .inl hx
    · refine .inr ⟨u, hx, ?_⟩
      rwa [hold u (DriverAt.subject_of_busy (DriverAt.busy_of_late hlate))]
  · rw [hnew u (DriverAt.subject_of_busy hu)] at hu
    exact h.busy u hu
  · obtain ⟨he, hop, hx | ⟨ha', u, hx, hpc | ⟨⟨n, hpc⟩, hst⟩⟩⟩ := h.away a (haway ▸ ha)
    · exact ⟨hev ▸ he, hopened ▸ hop, .inl hx⟩
    · exact ⟨hev ▸ he, hopened ▸ hop, .inr ⟨ha', u, hx, .inl (hleaving u hpc)⟩⟩
    · refine ⟨hev ▸ he, hopened ▸ hop, .inr ⟨ha', u, hx, .inr ⟨⟨n, ?_⟩, hconn ▸ hst⟩⟩⟩
      rw [hold u (by rw [hpc]; rfl), hpc]
  · obtain ⟨he, hx | ⟨u, hx, hpc⟩⟩ := h.closed (hopened ▸ hc)
    · exact ⟨hev ▸ he, .inl hx⟩
    · exact ⟨hev ▸ he, .inr ⟨u, hx, hleaving u hpc⟩⟩
  · rcases hw u with hsame | ⟨-, hne, hsub⟩
    · rw [hsame] at hu ⊢
      exact hev ▸ h.todo u hu
    · refine ⟨hev ▸ (h.todo u (hsub hu)).1, ?_⟩
      rw [← Bool.not_eq_true]
      exact fun hb => hne (DriverAt.subject_of_busy hb)
  · obtain ⟨hpc, hx, he⟩ := h.drives u (hu.of_append fun hy => ho _ hy rfl).1
    rw [hev, hold u (DriverAt.subject_of_drives hpc)]
    exact ⟨hpc, hx, he⟩
  · exact hleaving u (h.rearmed u (hu.of_append fun _ hy => ho _ hy rfl).1)

lemma other_ne (u : τ) (hu : u ≠ t) : Holder.worker t ≠ .worker u := fun he =>
  hu (Holder.worker.inj he).symm

/-- A worker that is not about to return may use a connection that belongs to no other one. -/
lemma Fits.use (h : Fits cfg s tr c x) (acc rest : List (DriveObs τ)) (hx : ∀ u, u ≠ t → x ≠ .worker u)
    (hby : ∀ y ∈ acc ++ rest, y.actor = some t) (hacc : ∀ y ∈ acc, y.isAccess = true)
    (hrest : ∀ y ∈ rest, y.isAccess = false) (hpc : acc ≠ [] → (s.worker t).pc ≠ .leaving c) :
    UsedWell cfg c (tr ++ (acc ++ rest)) := by
  refine h.used.act acc rest hby hacc hrest (fun _ v hv hd => ?_) fun ha v hv hr => ?_
  · exact hx v (fun hvt => hv (hvt ▸ rfl)) (h.drives v hd).2.1
  · obtain rfl : v = t := Option.some.inj hv
    exact hpc ha (h.rearmed v hr)

/-- The handler of a connection that is in use has been called. -/
lemma Fits.not_todo (h : Fits cfg s tr c x) (hbusy : (s.worker t).pc.busy c = true) :
    .conn c ∉ (s.worker t).todo := fun hmem => by
  have hidle := (h.todo t hmem).2
  rw [hbusy] at hidle
  cases hidle

/-- A connection that is in use is open. -/
lemma Fits.opened_of_busy (h : Fits cfg s tr c x) (hbusy : (s.worker t).pc.busy c = true) :
    s.opened c = true := by
  obtain rfl := h.busy t hbusy
  by_contra hclosed
  obtain ⟨-, hx | ⟨u, hx, hu⟩⟩ := h.closed (by simpa using hclosed)
  · cases hx
  · cases hx
    exact DriverAt.ne_leaving_of_busy hbusy hu

/-- What a worker has set up or taken back is nowhere else. -/
lemma Fits.not_away (h : Fits cfg s tr c x)
    (hpc : (s.worker t).pc = .attach c ∨ (s.worker t).pc = .readded c) : s.away c = none := by
  have hbusy : (s.worker t).pc.busy c = true := by
    rcases hpc with hpc | hpc <;> simp [hpc, DriverAt.busy]
  obtain rfl := h.busy t hbusy
  by_contra haway
  obtain ⟨a, ha⟩ := Option.ne_none_iff_exists'.1 haway
  obtain ⟨-, -, hx | ⟨-, u, hx, hu⟩⟩ := h.away a ha
  · cases hx
  · cases hx
    rcases hpc with hpc | hpc <;> simp [hpc] at hu

/-- What belongs to a worker by an active event is open, and nowhere else. -/
lemma Fits.of_taken (h : Fits cfg s tr c x) (he : s.ev c = .taken t) :
    s.away c = none ∧ s.opened c = true := by
  constructor
  · by_contra haway
    obtain ⟨a, ha⟩ := Option.ne_none_iff_exists'.1 haway
    have hdel := (h.away a ha).1
    rw [he] at hdel
    cases hdel
  · by_contra hopen
    have hdel := (h.closed (by simpa using hopen)).1
    rw [he] at hdel
    cases hdel

/-- Somebody uses a connection that nobody else drives. -/
lemma Fits.touched {v : Option τ} (h : Fits cfg s tr c x) (hun : s.Undriven v c)
    (hpc : ∀ u, some u = v → (s.worker u).pc ≠ .leaving c) :
    Fits cfg s (tr ++ [.access v c]) c x := by
  refine ⟨h.armed, h.taken, h.busy, h.away, h.closed, h.todo, fun u hu => ?_, fun u hu => ?_, ?_⟩
  · exact h.drives u (hu.of_append (by simp)).1
  · exact h.rearmed u (hu.of_append (by simp)).1
  · refine h.used.act (u := v) [.access v c] [] (by simp [DriveObs.actor])
      (by simp [DriveObs.isAccess]) (by simp) (fun _ u hu hd => ?_) fun _ u hu hr => ?_
    · have hdrives := (h.drives u hd).1
      rw [hun u hu] at hdrives
      cases hdrives
    · exact hpc u hu (h.rearmed u hr)

/-- A connection outside of the workers. -/
lemma Fits.aside {a : Away} (h : Fits cfg s tr c x) (ha : s.away c = some a)
    (hun : s.Undriven none c) : x = .away a ∧ s.ev c = .deleted ∧ s.opened c = true := by
  obtain ⟨he, hop, hx | ⟨-, u, -, hpc⟩⟩ := h.away a ha
  · exact ⟨hx, he, hop⟩
  · have hdrives : (s.worker u).pc.drives c = true := by
      rcases hpc with hpc | ⟨⟨n, hpc⟩, -⟩ <;> simp [hpc, DriverAt.drives]
    rw [hun u (by simp)] at hdrives
    cases hdrives

/-- What a thread a connection was handed over to does with it. -/
lemma Fits.handBack {a : Away} (h : Fits cfg s tr c x) (ha : s.away c = some a)
    (hun : s.Undriven none c) (hw : s'.worker = s.worker) (hev : s'.ev c = s.ev c)
    (hnew : (s'.opened c = s.opened c ∧ ∃ a', s'.away c = some a' ∧ x' = .away a') ∨
      s'.opened c = false ∧ s'.away c = none ∧ x' = .nobody) :
    Fits cfg s' (tr ++ [.access none c]) c x' := by
  obtain ⟨rfl, he, hop⟩ := h.aside ha hun
  have hused := (h.touched hun (by simp)).used
  refine ⟨fun harm => ?_, fun u hu => ?_, fun u hu => ?_, fun a' ha' => ?_, fun hc => ?_, fun u hu => ?_,
    fun u hu => ?_, fun u hu => ?_, hused⟩
  · rw [hev, he] at harm
    cases harm
  · rw [hev, he] at hu
    cases hu
  · rw [hw] at hu
    exact absurd (h.busy u hu) (by simp)
  · obtain ⟨hopen, b, hb, hx⟩ | ⟨-, hnone, -⟩ := hnew
    · obtain rfl : b = a' := Option.some.inj (hb.symm.trans ha')
      exact ⟨hev.trans he, hopen.trans hop, .inl hx⟩
    · rw [hnone] at ha'
      cases ha'
  · obtain ⟨hopen, -⟩ | ⟨-, -, hx⟩ := hnew
    · rw [hopen, hop] at hc
      cases hc
    · exact ⟨hev.trans he, .inl hx⟩
  · rw [hw] at hu
    exact absurd (h.taken u (h.todo u hu).1) (by simp)
  · exact absurd (h.drives u (hu.of_append (by simp)).1).2.1 (by simp)
  · rw [hw]
    exact h.rearmed u (hu.of_append (by simp)).1

/-- The fields of a connection that is not handed over do not matter. -/
lemma Fits.setConn {y : ClientConn τ} (h : Fits cfg s tr c x) (hnone : s.away c = none) :
    Fits cfg (s.setConn c y) tr c x := by
  refine ⟨h.armed, h.taken, h.busy, fun a ha => ?_, h.closed, h.todo, h.drives, h.rearmed, h.used⟩
  exact absurd (hnone.symm.trans ha) (by simp)

/-- What a worker at the head of the loop knows of its connection. -/
lemma Fits.of_machine {n : ℤ} (h : Fits cfg s tr c x) (hpc : (s.worker t).pc = .machine c n) :
    s.ev c ≠ .armed ∧ (s.away c = none ∨ (s.conn c).state = .watch) := by
  obtain rfl := h.busy t (by simp [hpc, DriverAt.busy])
  constructor
  · intro he
    obtain hx | ⟨u, hx, hlate⟩ := h.armed he
    · cases hx
    · cases hx
      simp [hpc, DriverAt.late] at hlate
  · by_contra hnot
    rw [not_or] at hnot
    obtain ⟨a, ha⟩ := Option.ne_none_iff_exists'.1 hnot.1
    obtain ⟨-, -, hx | ⟨-, u, hx, hu | ⟨-, hst⟩⟩⟩ := h.away a ha
    · cases hx
    · cases hx
      simp [hpc] at hu
    · exact hnot.2 hst

/-- The other connections stay as they are. -/
def SameElse (c : ℕ) (s s' : Driving τ) : Prop :=
  ∀ d, d ≠ c → s'.conn d = s.conn d ∧ s'.ev d = s.ev d ∧ s'.opened d = s.opened d ∧ s'.away d = s.away d

lemma sameElse_setConn {y : ClientConn τ} {s₁ : Driving τ} (h : SameElse c s s₁) :
    SameElse c s (s₁.setConn c y) := fun d hd => by
  obtain ⟨h₁, h₂, h₃, h₄⟩ := h d hd
  exact ⟨(Function.update_of_ne hd ..).trans h₁, h₂, h₃, h₄⟩

end Holders

variable {τ : Type} [DecidableEq τ] {cfg : DriveCfg} {s s' : Driving τ} {tr o : List (DriveObs τ)}
  {t u : τ} {c : ℕ} {x x' : Holder τ} {w : Driver}

/-- A step of a worker about a connection that belongs to no other one: what has to be shown is about
this worker. -/
lemma Fits.act (h : Fits cfg s tr c x) (hx : ∀ u, u ≠ t → x ≠ .worker u)
    (hw : s'.worker = Function.update s.worker t w)
    (harmed : s'.ev c = .armed → x' = .kernel ∨ x' = .worker t ∧ w.pc.late c = true)
    (htaken : ∀ u, s'.ev c = .taken u → x' = .worker u) (hbusy : w.pc.busy c = true → x' = .worker t)
    (haway : ∀ a, s'.away c = some a → s'.ev c = .deleted ∧ s'.opened c = true ∧ (x' = .away a ∨
      a = .side ∧ x' = .worker t ∧ (w.pc = .leaving c ∨
        (∃ n, w.pc = .machine c n) ∧ (s'.conn c).state = .watch)))
    (hclosed : s'.opened c = false → s'.ev c = .deleted ∧
      (x' = .nobody ∨ x' = .worker t ∧ w.pc = .leaving c))
    (htodo : .conn c ∈ w.todo → s'.ev c = .taken t ∧ w.pc.busy c = false)
    (hdrives : Drives t c (tr ++ o) → w.pc.drives c = true ∧ x' = .worker t ∧ s'.ev c ≠ .armed)
    (hrearmed : Rearmed cfg t c (tr ++ o) → w.pc = .leaving c) (hby : ∀ y ∈ o, y.actor = some t)
    (hused : UsedWell cfg c (tr ++ o)) : Fits cfg s' (tr ++ o) c x' := by
  have hself : s'.worker t = w := by rw [hw, Function.update_self]
  have hother : ∀ u, u ≠ t → s'.worker u = s.worker u := fun u hu => by
    rw [hw, Function.update_of_ne hu]
  have hactor : ∀ u y, y ∈ o → y.actor = some u → u = t := fun u y hy he => by
    rw [hby y hy] at he
    exact (Option.some.inj he).symm
  refine ⟨fun he => ?_, htaken, fun u hu => ?_, fun a ha => ?_, fun hc => ?_, fun u hu => ?_,
    fun u hu => ?_, fun u hu => ?_, hused⟩
  · obtain hx' | ⟨hx', hlate⟩ := harmed he
    · exact .inl hx'
    · exact .inr ⟨t, hx', hself ▸ hlate⟩
  · by_cases hut : u = t
    · subst hut
      exact hbusy (hself ▸ hu)
    · rw [hother u hut] at hu
      exact absurd (h.busy u hu) (hx u hut)
  · obtain ⟨he, hop, hx' | ⟨ha', hx', hpc⟩⟩ := haway a ha
    · exact ⟨he, hop, .inl hx'⟩
    · exact ⟨he, hop, .inr ⟨ha', t, hx', hself ▸ hpc⟩⟩
  · obtain ⟨he, hx' | ⟨hx', hpc⟩⟩ := hclosed hc
    · exact ⟨he, .inl hx'⟩
    · exact ⟨he, .inr ⟨t, hx', hself ▸ hpc⟩⟩
  · by_cases hut : u = t
    · subst hut
      rw [hself] at hu ⊢
      exact htodo hu
    · rw [hother u hut] at hu
      exact absurd (h.taken u (h.todo u hu).1) (hx u hut)
  · by_cases hut : u = t
    · subst hut
      rw [hself]
      exact hdrives hu
    · have hold := (hu.of_append fun hy => hut (hactor u _ hy rfl)).1
      exact absurd (h.drives u hold).2.1 (hx u hut)
  · by_cases hut : u = t
    · subst hut
      rw [hself]
      exact hrearmed hu
    · rw [hother u hut]
      exact h.rearmed u (hu.of_append fun _ hy => hut (hactor u _ hy rfl)).1

/-- The worker goes on in `drive_machine`, and the event is not armed. -/
lemma Fits.stay {n : ℤ} (h : Fits cfg s tr c x)
    (hpc : (s.worker t).pc = .machine c n ∨ (s.worker t).pc = .waited c)
    (hw : s'.worker = Function.update s.worker t w) (hdrives : w.pc.drives c = true)
    (htodo : w.todo = (s.worker t).todo) (hne : s.ev c ≠ .armed)
    (hev : s'.ev c = s.ev c ∨ s'.ev c = .deleted) (hopened : s'.opened c = s.opened c)
    (haway : s'.away c = s.away c) (hwatch : s.away c = none ∨ w.pc = .leaving c) :
    Fits cfg s' (tr ++ [.access (some t) c]) c (.worker t) := by
  have hbusy : (s.worker t).pc.busy c = true := by
    rcases hpc with hpc | hpc <;> simp [hpc, DriverAt.busy]
  have hleave := DriverAt.ne_leaving_of_busy hbusy
  obtain rfl := h.busy t hbusy
  have hnot : s'.ev c ≠ .armed := by
    rcases hev with hev | hev
    · rwa [hev]
    · simp [hev]
  refine h.act other_ne hw (fun he => absurd he hnot) (fun u hu => ?_)
    (fun _ => rfl) (fun a ha => ?_) (fun hc => ?_) (fun hmem => ?_) (fun _ => ⟨hdrives, rfl, hnot⟩)
    (fun hr => ?_) (by simp [DriveObs.actor]) ?_
  · rcases hev with hev | hev
    · exact h.taken u (hev ▸ hu)
    · rw [hev] at hu
      cases hu
  · rw [haway] at ha
    obtain ⟨he, hop, hx | ⟨ha', -⟩⟩ := h.away a ha
    · cases hx
    · refine ⟨?_, hopened ▸ hop, .inr ⟨ha', rfl, .inl (hwatch.resolve_left ?_)⟩⟩
      · rcases hev with hev | hev
        · rw [hev, he]
        · exact hev
      · simp [ha]
  · rw [hopened, h.opened_of_busy hbusy] at hc
    cases hc
  · exact absurd (htodo ▸ hmem) (h.not_todo hbusy)
  · exact absurd (h.rearmed t (hr.of_append (by simp)).1) hleave
  · exact h.use [.access (some t) c] [] other_ne
      (by simp [DriveObs.actor]) (by simp [DriveObs.isAccess]) (by simp) fun _ => hleave

/-- `update_event` has re-armed the event in `drive_machine`. -/
lemma Fits.rearm {n : ℤ} {st : ConnState} (h : Fits cfg s tr c x)
    (hpc : (s.worker t).pc = .machine c n) (hw : s'.worker = Function.update s.worker t w)
    (hold : s.ev c = .taken t) (hev : s'.ev c = .armed) (hopened : s'.opened c = s.opened c)
    (haway : s'.away c = s.away c) (htodo : w.todo = (s.worker t).todo)
    (hx' : w.pc = .waited c ∧ st = .waiting ∧ x' = .worker t ∨ w.pc = .leaving c ∧ x' = .kernel) :
    Fits cfg s' (tr ++ [.access (some t) c, .rearm t c (.machine st)]) c x' := by
  have hbusy : (s.worker t).pc.busy c = true := by simp [hpc, DriverAt.busy]
  have hleave := DriverAt.ne_leaving_of_busy hbusy
  obtain rfl := h.busy t hbusy
  obtain ⟨hnone, hopen⟩ := h.of_taken hold
  refine h.act other_ne hw (fun _ => ?_) (fun u hu => ?_) (fun hb => ?_) (fun a ha => ?_) (fun hc => ?_)
    (fun hmem => ?_) (fun hd => ?_) (fun hr => ?_) (by simp [DriveObs.actor]) ?_
  · rcases hx' with ⟨hpc', -, hx'⟩ | ⟨-, hx'⟩
    · exact .inr ⟨hx', by simp [hpc', DriverAt.late]⟩
    · exact .inl hx'
  · rw [hev] at hu
    cases hu
  · rcases hx' with ⟨-, -, hx'⟩ | ⟨hpc', -⟩
    · exact hx'
    · simp [hpc', DriverAt.busy] at hb
  · rw [haway, hnone] at ha
    cases ha
  · rw [hopened, hopen] at hc
    cases hc
  · exact absurd (htodo ▸ hmem) (h.not_todo hbusy)
  · exact absurd (.inr ⟨_, rfl⟩) ((hd.of_append (by simp)).2 (.rearm t c (.machine st)) (by simp))
  · rcases hx' with ⟨-, rfl, -⟩ | ⟨hpc', -⟩
    · obtain ⟨place, hlast, hr⟩ := hr
      rcases armed_append hr with hr | ⟨hr, -⟩
      · refine absurd hr (not_armed ?_)
        rintro y hy rfl
        obtain rfl : place = .machine .waiting := by simpa using hy
        cases hlast
      · exact absurd (h.rearmed t ⟨place, hlast, hr⟩) hleave
    · exact hpc'
  · exact h.use [.access (some t) c] [.rearm t c (.machine st)] other_ne
      (by simp [DriveObs.actor]) (by simp [DriveObs.isAccess]) (by simp [DriveObs.isAccess]) fun _ => hleave

/-- The connection is closed in `drive_machine`. -/
lemma Fits.close {n : ℤ} (h : Fits cfg s tr c x) (hpc : (s.worker t).pc = .machine c n)
    (hw : s'.worker = Function.update s.worker t w) (hpc' : w.pc = .leaving c)
    (htodo : w.todo = (s.worker t).todo) (hev : s'.ev c = .deleted) (haway : s'.away c = none) :
    Fits cfg s' (tr ++ [.access (some t) c]) c (.worker t) := by
  have hbusy : (s.worker t).pc.busy c = true := by simp [hpc, DriverAt.busy]
  have hleave := DriverAt.ne_leaving_of_busy hbusy
  obtain rfl := h.busy t hbusy
  refine h.act other_ne hw (fun he => ?_) (fun u hu => ?_) (fun _ => rfl) (fun a ha => ?_)
    (fun _ => ⟨hev, .inr ⟨rfl, hpc'⟩⟩) (fun hmem => ?_)
    (fun _ => ⟨by simp [hpc', DriverAt.drives], rfl, by simp [hev]⟩) (fun _ => hpc')
    (by simp [DriveObs.actor]) ?_
  · rw [hev] at he
    cases he
  · rw [hev] at hu
    cases hu
  · rw [haway] at ha
    cases ha
  · exact absurd (htodo ▸ hmem) (h.not_todo hbusy)
  · exact h.use [.access (some t) c] [] other_ne
      (by simp [DriveObs.actor]) (by simp [DriveObs.isAccess]) (by simp) fun _ => hleave

/-- The connection is handed over in `drive_machine`, and the worker has not returned yet. -/
lemma Fits.handOver {n : ℤ} (h : Fits cfg s tr c x) (hpc : (s.worker t).pc = .machine c n)
    (hw : s'.worker = Function.update s.worker t w) (hdrives : w.pc.drives c = true)
    (htodo : w.todo = (s.worker t).todo) (hev : s'.ev c = .deleted) (hopened : s'.opened c = s.opened c)
    (haway : s'.away c = some .side)
    (hwatch : w.pc = .leaving c ∨ (∃ n, w.pc = .machine c n) ∧ (s'.conn c).state = .watch) :
    Fits cfg s' (tr ++ [.access (some t) c]) c (.worker t) := by
  have hbusy : (s.worker t).pc.busy c = true := by simp [hpc, DriverAt.busy]
  have hleave := DriverAt.ne_leaving_of_busy hbusy
  obtain rfl := h.busy t hbusy
  have hopen : s'.opened c = true := by
    rw [hopened, h.opened_of_busy hbusy]
  refine h.act other_ne hw (fun he => ?_) (fun u hu => ?_) (fun _ => rfl) (fun a ha => ?_)
    (fun hc => ?_) (fun hmem => ?_) (fun _ => ⟨hdrives, rfl, by simp [hev]⟩) (fun hr => ?_)
    (by simp [DriveObs.actor]) ?_
  · rw [hev] at he
    cases he
  · rw [hev] at hu
    cases hu
  · rw [haway] at ha
    exact ⟨hev, hopen, .inr ⟨(Option.some.inj ha).symm, rfl, hwatch⟩⟩
  · rw [hopen] at hc
    cases hc
  · exact absurd (htodo ▸ hmem) (h.not_todo hbusy)
  · exact absurd (h.rearmed t (hr.of_append (by simp)).1) hleave
  · exact h.use [.access (some t) c] [] other_ne
      (by simp [DriveObs.actor]) (by simp [DriveObs.isAccess]) (by simp) fun _ => hleave

/-- A call of `drive_machine` begins, with the event not armed. -/
lemma Fits.enter {n : ℤ} (h : Fits cfg s tr c (.worker t)) (hleave : (s.worker t).pc ≠ .leaving c)
    (hw : s'.worker = Function.update s.worker t w) (hpc' : w.pc = .machine c n)
    (htodo : .conn c ∉ w.todo) (hne : s.ev c ≠ .armed) (hev : s'.ev c = s.ev c)
    (hopen : s'.opened c = true) (haway : s'.away c = none) :
    Fits cfg s' (tr ++ [.access (some t) c, .enter t c]) c (.worker t) := by
  refine h.act other_ne hw (fun he => ?_) (fun u hu => ?_) (fun _ => rfl) (fun a ha => ?_)
    (fun hc => ?_) (fun hmem => absurd hmem htodo)
    (fun _ => ⟨by simp [hpc', DriverAt.drives], rfl, hev ▸ hne⟩) (fun hr => ?_)
    (by simp [DriveObs.actor]) ?_
  · rw [hev] at he
    exact absurd he hne
  · exact h.taken u (hev ▸ hu)
  · rw [haway] at ha
    cases ha
  · rw [hopen] at hc
    cases hc
  · exact absurd (h.rearmed t (hr.of_append (by simp)).1) hleave
  · exact h.use [.access (some t) c] [.enter t c] other_ne
      (by simp [DriveObs.actor]) (by simp [DriveObs.isAccess]) (by simp [DriveObs.isAccess]) fun _ => hleave

/-- The worker has made its last use. -/
lemma Fits.release (h : Fits cfg s tr c x)
    (hpc : (s.worker t).pc = .attach c ∨ (s.worker t).pc = .readded c)
    (hw : s'.worker = Function.update s.worker t w) (hpc' : w.pc = .calling)
    (htodo : w.todo = (s.worker t).todo) (hev : s'.ev c = s.ev c) (hopened : s'.opened c = s.opened c)
    (haway : s'.away c = s.away c) :
    ∃ x', Fits cfg s' (tr ++ [.access (some t) c, .done t]) c x' := by
  have hbusy : (s.worker t).pc.busy c = true := by
    rcases hpc with hpc | hpc <;> simp [hpc, DriverAt.busy]
  have hleave := DriverAt.ne_leaving_of_busy hbusy
  have hout : (s.worker t).pc.drives c = false := by
    rcases hpc with hpc | hpc <;> simp [hpc, DriverAt.drives]
  obtain rfl := h.busy t hbusy
  refine ⟨match s.ev c with
    | .armed => .kernel
    | .taken u => .worker u
    | .deleted => .nobody, h.act other_ne hw (fun he => ?_) (fun u hu => ?_) (fun hb => ?_) (fun a ha => ?_)
    (fun hc => ?_) (fun hmem => ?_) (fun hd => ?_) (fun hr => ?_) (by simp [DriveObs.actor]) ?_⟩
  · rw [hev] at he
    exact .inl (by rw [he])
  · rw [hev] at hu
    rw [hu]
  · simp [hpc', DriverAt.busy] at hb
  · rw [haway, h.not_away hpc] at ha
    cases ha
  · rw [hopened, h.opened_of_busy hbusy] at hc
    cases hc
  · exact absurd (htodo ▸ hmem) (h.not_todo hbusy)
  · have hold := (h.drives t (hd.of_append (by simp)).1).1
    rw [hout] at hold
    cases hold
  · exact absurd (h.rearmed t (hr.of_append (by simp)).1) hleave
  · exact h.use [.access (some t) c] [.done t] other_ne
      (by simp [DriveObs.actor]) (by simp [DriveObs.isAccess]) (by simp [DriveObs.isAccess]) fun _ => hleave

/-- `drive_machine` returns. -/
lemma Fits.leave (h : Fits cfg s tr c x) (hpc : (s.worker t).pc = .leaving c)
    (hw : s'.worker = Function.update s.worker t w) (hpc' : w.pc = .calling)
    (htodo : w.todo = (s.worker t).todo) (hconn : s'.conn c = s.conn c) (hev : s'.ev c = s.ev c)
    (hopened : s'.opened c = s.opened c) (haway : s'.away c = s.away c) :
    ∃ x', Fits cfg s' (tr ++ [.leave t c, .done t]) c x' := by
  have hself : s'.worker t = w := by rw [hw, Function.update_self]
  have hother : ∀ u, u ≠ t → s'.worker u = s.worker u := fun u hu => by
    rw [hw, Function.update_of_ne hu]
  have hdrives : ¬ Drives t c (tr ++ [.leave t c, .done t]) := fun hd =>
    (hd.of_append (by simp)).2 (.leave t c) (by simp) (.inl rfl)
  have hrearmed : ¬ Rearmed cfg t c (tr ++ [.leave t c, .done t]) := fun hr =>
    (hr.of_append (by simp)).2 (by simp)
  have hused : UsedWell cfg c (tr ++ [.leave t c, .done t]) :=
    h.used.act (u := some t) [] [.leave t c, .done t] (by simp [DriveObs.actor])
      (by simp) (by simp [DriveObs.isAccess]) (fun hne => absurd rfl hne) fun hne => absurd rfl hne
  by_cases hx : x = .worker t
  · subst hx
    -- the event is active, or deleted
    have hne : s.ev c ≠ .armed := fun he => by
      obtain hx | ⟨u, hx, hlate⟩ := h.armed he
      · cases hx
      · cases hx
        simp [hpc, DriverAt.late] at hlate
    refine ⟨match s.ev c, s.away c with
      | .taken u, _ => .worker u
      | _, some a => .away a
      | _, none => .nobody, h.act other_ne hw (fun he => ?_) (fun u hu => ?_) (fun hb => ?_)
      (fun a ha => ?_) (fun hc => ?_) (fun hmem => ?_) (fun hd => absurd hd hdrives)
      (fun hr => absurd hr hrearmed) (by simp [DriveObs.actor]) hused⟩
    · exact absurd (hev ▸ he) hne
    · rw [hev] at hu
      simp only [hu]
    · simp [hpc', DriverAt.busy] at hb
    · rw [haway] at ha
      obtain ⟨he, hop, -⟩ := h.away a ha
      exact ⟨hev.trans he, hopened.trans hop, .inl (by simp only [he, ha])⟩
    · rw [hopened] at hc
      obtain ⟨he, -⟩ := h.closed hc
      have hnone : s.away c = none := by
        by_contra hsome
        obtain ⟨a, ha⟩ := Option.ne_none_iff_exists'.1 hsome
        rw [(h.away a ha).2.1] at hc
        cases hc
      exact ⟨hev.trans he, .inl (by simp only [he, hnone])⟩
    · have hmem' := htodo ▸ hmem
      exact ⟨hev.trans (h.todo t hmem').1, by simp [hpc', DriverAt.busy]⟩
  · refine ⟨x, fun he => ?_, fun u hu => h.taken u (hev ▸ hu), fun u hu => ?_, fun a ha => ?_, fun hc => ?_,
      fun u hu => ?_, fun u hu => ?_, fun u hu => ?_, hused⟩
    · obtain hx' | ⟨u, hx', hlate⟩ := h.armed (hev ▸ he)
      · exact .inl hx'
      · refine .inr ⟨u, hx', ?_⟩
        rwa [hother u fun hut => hx (hut ▸ hx')]
    · by_cases hut : u = t
      · subst hut
        simp [hself, hpc', DriverAt.busy] at hu
      · exact h.busy u (hother u hut ▸ hu)
    · obtain ⟨he, hop, hx' | ⟨ha', u, hx', hu⟩⟩ := h.away a (haway ▸ ha)
      · exact ⟨hev.trans he, hopened.trans hop, .inl hx'⟩
      · refine ⟨hev.trans he, hopened.trans hop, .inr ⟨ha', u, hx', ?_⟩⟩
        rwa [hother u fun hut => hx (hut ▸ hx'), hconn]
    · obtain ⟨he, hx' | ⟨u, hx', hu⟩⟩ := h.closed (hopened ▸ hc)
      · exact ⟨hev.trans he, .inl hx'⟩
      · refine ⟨hev.trans he, .inr ⟨u, hx', ?_⟩⟩
        rwa [hother u fun hut => hx (hut ▸ hx')]
    · by_cases hut : u = t
      · subst hut
        rw [hself, htodo] at hu
        exact absurd (h.taken u (h.todo u hu).1) hx
      · rw [hother u hut] at hu ⊢
        exact hev ▸ h.todo u hu
    · by_cases hut : u = t
      · subst hut
        exact absurd hu hdrives
      · rw [hother u hut, hev]
        exact h.drives u (hu.of_append (by simp)).1
    · by_cases hut : u = t
      · subst hut
        exact absurd hu hrearmed
      · rw [hother u hut]
        exact h.rearmed u (hu.of_append (by simp)).1

/-- `conn_new` has set up a connection. -/
lemma Fits.setUp (h : Fits cfg s tr c x) (hclosed : s.opened c = false) (hun : s.Undriven (some t) c)
    (hpc : (s.worker t).pc = .notified) (hw : s'.worker = Function.update s.worker t w)
    (hpc' : w.pc = .attach c) (htodo : w.todo = (s.worker t).todo) (hev : s'.ev c = .armed)
    (hopen : s'.opened c = true) (haway : s'.away c = s.away c) :
    Fits cfg s' (tr ++ [.access (some t) c, .rearm t c .newConn]) c (.worker t) := by
  have hleave : (s.worker t).pc ≠ .leaving c := by simp [hpc]
  obtain ⟨hdel, hx⟩ := h.closed hclosed
  obtain rfl : x = .nobody := by
    refine hx.resolve_right ?_
    rintro ⟨u, -, hu⟩
    have hdrives : (s.worker u).pc.drives c = true := by simp [hu, DriverAt.drives]
    rw [hun u fun hut => hleave (Option.some.inj hut ▸ hu)] at hdrives
    cases hdrives
  refine h.act (t := t) (by simp) hw (fun _ => .inr ⟨rfl, by simp [hpc', DriverAt.late]⟩) (fun u hu => ?_)
    (fun _ => rfl) (fun a ha => ?_) (fun hc => ?_) (fun hmem => ?_) (fun hd => ?_) (fun hr => ?_)
    (by simp [DriveObs.actor]) ?_
  · rw [hev] at hu
    cases hu
  · have hop := (h.away a (haway ▸ ha)).2.1
    rw [hclosed] at hop
    cases hop
  · rw [hopen] at hc
    cases hc
  · have htaken := (h.todo t (htodo ▸ hmem)).1
    rw [hdel] at htaken
    cases htaken
  · have hold := (h.drives t (hd.of_append (by simp)).1).2.1
    cases hold
  · obtain ⟨place, hlast, hr⟩ := hr
    rcases armed_append hr with hr | ⟨hr, -⟩
    · refine absurd hr (not_armed ?_)
      rintro y hy rfl
      obtain rfl : place = .newConn := by simpa using hy
      cases hlast
    · exact absurd (h.rearmed t ⟨place, hlast, hr⟩) hleave
  · exact h.use (t := t) [.access (some t) c] [.rearm t c .newConn] (by simp)
      (by simp [DriveObs.actor]) (by simp [DriveObs.isAccess]) (by simp [DriveObs.isAccess]) fun _ => hleave

/-- `conn_worker_readd` takes a connection back. -/
lemma Fits.readd {rest : List (DriveObs τ)} (h : Fits cfg s tr c x) (ha : s.away c = some .queued)
    (hpc : (s.worker t).pc = .notified) (hw : s'.worker = Function.update s.worker t w)
    (hpc' : w.pc = .readded c ∨ w.pc = .calling) (htodo : w.todo = (s.worker t).todo)
    (hev : s'.ev c = .armed ∨ s'.ev c = s.ev c) (hopened : s'.opened c = s.opened c)
    (haway : s'.away c = none) (hrest : ∀ y ∈ rest, y = .rearm t c .readd ∨ y = .done t)
    (hlast : ¬ Rearmed cfg t c (tr ++ .access (some t) c :: rest)) :
    ∃ x', Fits cfg s' (tr ++ .access (some t) c :: rest) c x' := by
  have hleave : (s.worker t).pc ≠ .leaving c := by simp [hpc]
  obtain ⟨hdel, hop, hx⟩ := h.away .queued ha
  obtain rfl : x = .away .queued := hx.resolve_right fun hside => by cases hside.1
  have hactor : ∀ y ∈ [.access (some t) c] ++ rest, y.actor = some t := by
    intro y hy
    rcases List.mem_append.1 hy with hy | hy
    · rw [List.mem_singleton.1 hy]
      rfl
    · rcases hrest y hy with rfl | rfl <;> rfl
  have huse : ∀ y ∈ rest, y.isAccess = false := fun y hy => by
    rcases hrest y hy with rfl | rfl <;> rfl
  refine ⟨if w.pc = .readded c then .worker t else if s'.ev c = .armed then .kernel else .nobody,
    h.act (t := t) (o := .access (some t) c :: rest) (by simp) hw (fun he => ?_) (fun u hu => ?_)
      (fun hb => ?_) (fun a ha => ?_) (fun hc => ?_) (fun hmem => ?_) (fun hd => ?_)
      (fun hr => absurd hr hlast) hactor ?_⟩
  · rcases hpc' with hpc' | hpc'
    · exact .inr ⟨by simp [hpc'], by simp [hpc', DriverAt.late]⟩
    · exact .inl (by simp [hpc', he])
  · rcases hev with hev | hev
    · rw [hev] at hu
      cases hu
    · rw [hev, hdel] at hu
      cases hu
  · rcases hpc' with hpc' | hpc'
    · simp [hpc']
    · simp [hpc', DriverAt.busy] at hb
  · rw [haway] at ha
    cases ha
  · rw [hopened, hop] at hc
    cases hc
  · have htaken := (h.todo t (htodo ▸ hmem)).1
    rw [hdel] at htaken
    cases htaken
  · have hno : .enter t c ∉ .access (some t) c :: rest := by
      rintro (_ | ⟨_, hy⟩)
      rcases hrest _ hy with hy | hy <;> cases hy
    have hold := (h.drives t (hd.of_append hno).1).2.1
    cases hold
  · exact h.use (t := t) [.access (some t) c] rest (by simp) hactor (by simp [DriveObs.isAccess]) huse
      fun _ => hleave

/-- `kevent()` returns the event of the connection. -/
lemma Fits.fetch (h : Fits cfg s tr c x) (he : s.ev c = .armed)
    (hlate : ∀ u, (s.worker u).pc.late c = false) (hpc : (s.worker t).pc = .loop)
    (hw : s'.worker = Function.update s.worker t w) (hpc' : w.pc = .calling)
    (hev : s'.ev c = .taken t) (hopened : s'.opened c = s.opened c) (haway : s'.away c = s.away c) :
    Fits cfg s' (tr ++ []) c (.worker t) := by
  obtain rfl : x = .kernel := by
    refine (h.armed he).resolve_right ?_
    rintro ⟨u, -, hu⟩
    rw [hlate u] at hu
    cases hu
  refine h.act (t := t) (by simp) hw (fun harm => ?_) (fun u hu => ?_) (fun _ => rfl) (fun a ha => ?_)
    (fun hc => ?_) (fun _ => ⟨hev, by simp [hpc', DriverAt.busy]⟩) (fun hd => ?_) (fun hr => ?_) (by simp) ?_
  · rw [hev] at harm
    cases harm
  · rw [hev] at hu
    cases hu
    rfl
  · have hdel := (h.away a (haway ▸ ha)).1
    rw [he] at hdel
    cases hdel
  · have hdel := (h.closed (hopened ▸ hc)).1
    rw [he] at hdel
    cases hdel
  · have hold := (h.drives t (hd.of_append (by simp)).1).2.1
    cases hold
  · have hleave := h.rearmed t (hr.of_append (by simp)).1
    rw [hpc] at hleave
    cases hleave
  · rw [List.append_nil]
    exact h.used

/-- The event of the connection is enabled again when the batch ends. -/
lemma Fits.finish (h : Fits cfg s tr c x) (he : s.ev c = .taken t) (hpc : s.worker t = ⟨.calling, []⟩)
    (hw : s'.worker = Function.update s.worker t w) (hpc' : w = ⟨.loop, []⟩) (hev : s'.ev c = .armed)
    (hopened : s'.opened c = s.opened c) (haway : s'.away c = s.away c) :
    Fits cfg s' (tr ++ []) c .kernel := by
  obtain rfl := h.taken t he
  obtain ⟨hnone, hopen⟩ := h.of_taken he
  refine h.act other_ne hw (fun _ => .inl rfl) (fun u hu => ?_) (fun hb => ?_) (fun a ha => ?_)
    (fun hc => ?_) (fun hmem => ?_) (fun hd => ?_) (fun hr => ?_) (by simp) ?_
  · rw [hev] at hu
    cases hu
  · simp [hpc', DriverAt.busy] at hb
  · rw [haway, hnone] at ha
    cases ha
  · rw [hopened, hopen] at hc
    cases hc
  · simp [hpc'] at hmem
  · have hold := (h.drives t (hd.of_append (by simp)).1).1
    simp [hpc, DriverAt.drives] at hold
  · have hleave := h.rearmed t (hr.of_append (by simp)).1
    simp [hpc] at hleave
  · rw [List.append_nil]
    exact h.used

end Driving

end Skq.Mem
