import SkqBench.Pingpong.Dispatch

/-!
# One worker at a time

What the moves of the hints say about the trace of a run: a connection that was fetched is not
fetched again before its `EV_ENABLE` is submitted or its knote deleted, a freed hint is neither used
nor freed again, and an `EV_ENABLE` hits the knote of the connection whose hint it carries.
-/

namespace Skq.Pingpong

open Lib

variable {τ : Type*} {s s' : Server τ} {place place' : ℕ → Place τ} {t t' : τ} {c hint : ℕ}
  {o tr : List (Obs τ)}

/-! ## The properties -/

/-- An event of the connection is fetched. -/
def Fetches (c : ℕ) : Obs τ → Prop
  | .fetch _ conn => conn = some c
  | _ => False

/-- The knote of the connection is enabled or deleted. -/
def Releases (c : ℕ) : Obs τ → Prop
  | .enable _ _ conn => conn = some c
  | .delete _ conn => conn = some c
  | _ => False

/-- The hint is freed. -/
def Frees (hint : ℕ) : Obs τ → Prop
  | .free _ hint' => hint' = hint
  | _ => False

/-- The hint is used or freed. -/
def Touches (hint : ℕ) : Obs τ → Prop
  | .use _ hint' => hint' = hint
  | .free _ hint' => hint' = hint
  | _ => False

/-- Nothing ends the time after a free. -/
def never : Obs τ → Prop := fun _ => False

/-- The worker `t` is in `proc_req`, with this hint. -/
def Server.InProc (s : Server τ) (t : τ) (hint : ℕ) : Prop :=
  (s.workers t).pc = .procReq ∧
    ((s.workers t).kev[(s.workers t).i]?).map Kev.udata = some hint

/-- An `EV_ENABLE` hit the knote of the connection its hint was allocated for. -/
def Aimed (s : Server τ) (tr : List (Obs τ)) : Prop :=
  ∀ t hint conn, .enable t hint conn ∈ tr → ∃ x, s.hints hint = some x ∧ conn = some x.conn

/-! ## Hints keep their connection -/

/-- Hints that exist keep their connection. -/
def Server.Extends (s s' : Server τ) : Prop :=
  ∀ hint x, s.hints hint = some x → ∃ y, s'.hints hint = some y ∧ y.conn = x.conn

/-- What a step does with the table of hints. -/
lemma step_hints [DecidableEq τ] {l : Label τ} (hs : s.step l = some (s', o)) :
    s'.hints = s.hints ∨
    (∃ hint, s'.hints = Function.update s.hints hint
      ((s.hints hint).map fun x => { x with freed := true })) ∨
    ∃ x, s'.hints = Function.update s.hints s.allocs x := by
  simp only [Server.step] at hs
  split at hs
  · cases hs
  · cases l with
    | enter t =>
      simp only [Server.enter] at hs
      split at hs <;> cases hs
      exact .inl rfl
    | change t =>
      simp only [Server.change] at hs
      split at hs
      · split at hs
        · cases hs
        · split at hs <;> cases hs <;> exact .inl rfl
      · cases hs
    | fetch t evs =>
      simp only [Server.fetch] at hs
      split at hs
      · split at hs
        · cases hs
        · split at hs
          · cases hs
            exact .inl rfl
          · split at hs <;> cases hs
            exact .inl rfl
      · cases hs
    | keventFails t =>
      simp only [Server.keventFails] at hs
      split at hs <;> cases hs
      exact .inl rfl
    | handle t =>
      simp only [Server.handle] at hs
      split at hs
      · split at hs
        · cases hs
        · split at hs <;> cases hs <;> exact .inl rfl
      · cases hs
    | procReturns t status =>
      simp only [Server.procReturns] at hs
      split at hs
      · split at hs
        · cases hs
        · split at hs <;> cases hs <;> exact .inl rfl
      · cases hs
    | drop t =>
      simp only [Server.drop] at hs
      split at hs
      · split at hs <;> cases hs <;> exact .inl rfl
      · cases hs
        exact .inl rfl
      · cases hs
        exact .inr (.inl ⟨_, rfl⟩)
      · cases hs
    | accept fd =>
      simp only [Server.accept] at hs
      split at hs <;> cases hs
      exact .inl rfl
    | setsockopt ok =>
      simp only [Server.setsockopt] at hs
      split at hs
      · split at hs <;> cases hs
        · exact .inr (.inr ⟨_, rfl⟩)
        · exact .inl rfl
      · cases hs
    | register ok =>
      simp only [Server.register] at hs
      split at hs
      · split at hs <;> cases hs <;> exact .inl rfl
      · cases hs

lemma step_extends [DecidableEq τ] (h : s.Inv place) {l : Label τ}
    (hs : s.step l = some (s', o)) : s.Extends s' := by
  intro hint x hx
  rcases step_hints hs with heq | ⟨hint', heq⟩ | ⟨y, heq⟩
  · exact ⟨x, by rw [heq, hx], rfl⟩
  · rw [heq]
    by_cases he : hint = hint'
    · subst he
      exact ⟨{ x with freed := true }, by rw [Function.update_self, hx]; rfl, rfl⟩
    · exact ⟨x, by rw [Function.update_of_ne he, hx], rfl⟩
  · have hne : hint ≠ s.allocs := Nat.ne_of_lt (h.places.numbered.hint_lt hx)
    exact ⟨x, by rw [heq, Function.update_of_ne hne, hx], rfl⟩

/-! ## What a move adds to the trace -/

/-- A connection that was fetched and not released is in the hands of a worker. -/
def HeldConn (s : Server τ) (place : ℕ → Place τ) (c : ℕ) : Prop :=
  ∃ hint x t fd, s.hints hint = some x ∧ x.conn = c ∧ place hint = .held t fd

/-- It stays there when another hint moves. -/
lemma HeldConn.update {p : Place τ} (h : HeldConn s place c) (hext : s.Extends s')
    (hne : ∀ x, s.hints hint = some x → x.conn = c → ∀ t fd, place hint ≠ .held t fd) :
    HeldConn s' (Function.update place hint p) c := by
  obtain ⟨hint', x, t, fd, hx, hc, hp⟩ := h
  obtain ⟨y, hy, hyc⟩ := hext _ _ hx
  refine ⟨hint', y, t, fd, hy, hyc.trans hc, ?_⟩
  rw [Function.update_of_ne, hp]
  rintro rfl
  exact hne x hx hc t fd hp

lemma HeldConn.extend (h : HeldConn s place c) (hext : s.Extends s') : HeldConn s' place c := by
  obtain ⟨hint', x, t, fd, hx, hc, hp⟩ := h
  obtain ⟨y, hy, hyc⟩ := hext _ _ hx
  exact ⟨hint', y, t, fd, hy, hyc.trans hc, hp⟩

/-- The history of the fetches of one connection. -/
structure Fetched (tr : List (Obs τ)) (s : Server τ) (place : ℕ → Place τ) (c : ℕ) : Prop where
  once : NoneBetween (Fetches c) (Releases c) (Fetches c) tr
  held : Armed (Fetches c) (Releases c) tr → HeldConn s place c

/-- Observations without a fetch. -/
lemma Fetched.quiet (h : Fetched tr s place c) (ho : ∀ y ∈ o, ¬ Fetches c y)
    (hheld : HeldConn s place c → HeldConn s' place' c) : Fetched (tr ++ o) s' place' c := by
  obtain ⟨honce, harmed⟩ := noneBetween_append_of_quiet h.once fun y hy => ⟨ho y hy, ho y hy⟩
  exact ⟨honce, fun ha => hheld (h.held (harmed ha))⟩

/-- The release of one connection. -/
lemma Fetched.release {y : Obs τ} {x : ConnHint} {p : Place τ} (h : Fetched tr s place c)
    (hext : s.Extends s') (hx : s.hints hint = some x) (hy : ∀ c, ¬ Fetches c y)
    (hrel : Releases x.conn y) :
    Fetched (tr ++ [y]) s' (Function.update place hint p) c := by
  obtain ⟨honce, harmed⟩ := noneBetween_append_last (o := []) h.once (by simp) fun _ => hy c
  refine ⟨honce, fun ha => ?_⟩
  rcases harmed ha with hf | ⟨ha', hno⟩
  · exact absurd hf (hy c)
  · refine (h.held ha').update hext fun x' hx' hc => ?_
    -- the hint that moves is the one of another connection
    obtain rfl : x = x' := Option.some.inj (hx.symm.trans hx')
    exact absurd (hc ▸ hrel) hno

lemma Fetched.deliver (h : Fetched tr s place c) (hp : Places s place) (hext : s.Extends s')
    {evs : List Kev} (hev : s.Deliverable evs) :
    Fetched (tr ++ evs.map fun x => .fetch t (s.fds x.ident)) s'
      (fun hint => (place hint).fetched t evs) c := by
  by_cases hno : ∀ x ∈ evs, s.fds x.ident ≠ some c
  · refine h.quiet ?_ ?_
    · intro y hy
      obtain ⟨x, hx, rfl⟩ := List.mem_map.1 hy
      exact hno x hx
    · intro hheld
      obtain ⟨hint, x, t', fd, hx, hc, hpl⟩ := hheld.extend hext
      refine ⟨hint, x, t', fd, hx, hc, ?_⟩
      show (place hint).fetched t evs = _
      rw [hpl]
      rfl
  · push Not at hno
    obtain ⟨x, hx, hfd⟩ := hno
    have hqueued := hp.place_of_event hev hx
    obtain ⟨c', hhint, hopen⟩ := (hp.located x.udata).conn (by rw [hqueued]; rfl)
    obtain rfl : c' = c := Option.some.inj (hopen.symm.trans hfd)
    -- the other events are of other connections
    obtain ⟨evs₁, evs₂, rfl⟩ := List.append_of_mem hx
    have hnodup := hev.2.2.1
    rw [List.map_append, List.map_cons, List.nodup_middle, List.nodup_cons] at hnodup
    have hother : ∀ y ∈ evs₁ ++ evs₂, ¬ Fetches c' (.fetch t (s.fds y.ident)) := by
      intro y hy hf
      have hident : y.ident = x.ident := hp.numbered.fds_inj hf hfd
      exact hnodup.1 (hident ▸ by simpa using List.mem_map_of_mem (f := Kev.ident) hy)
    have hquiet : ∀ evs' : List Kev, (∀ y ∈ evs', y ∈ evs₁ ++ evs₂) →
        ∀ z ∈ evs'.map fun x => Obs.fetch t (s.fds x.ident),
          ¬ Fetches c' z ∧ ¬ Fetches c' z := by
      intro evs' hsub z hz
      obtain ⟨y, hy, rfl⟩ := List.mem_map.1 hz
      exact ⟨hother y (hsub y hy), hother y (hsub y hy)⟩
    obtain ⟨y, hy, hyc⟩ := hext _ _ hhint
    refine ⟨?_, fun _ => ⟨x.udata, y, t, x.ident, hy, hyc, ?_⟩⟩
    · rw [List.map_append, List.map_cons]
      refine noneBetween_append_mid h.once
        (hquiet evs₁ fun y hy => List.mem_append_left _ hy)
        (hquiet evs₂ fun y hy => List.mem_append_right _ hy) fun ha => ?_
      obtain ⟨hint, x', t', fd, hx', hc, hpl⟩ := h.held ha
      obtain rfl : hint = x.udata := hp.numbered.hint_inj hx' hhint hc
      rw [hqueued] at hpl
      cases hpl
    · show (place x.udata).fetched t _ = _
      rw [hqueued, Place.fetched, if_pos (List.mem_map_of_mem hx)]

lemma Fetched.move (h : Fetched tr s place c) (hp : Places s place) (hext : s.Extends s')
    (hm : Moves s place o place') : Fetched (tr ++ o) s' place' c := by
  have hmoved : ∀ {hint p}, (∀ t fd, place hint ≠ .held t fd) → HeldConn s place c →
      HeldConn s' (Function.update place hint p) c :=
    fun hne hheld => hheld.update hext fun _ _ _ => hne
  cases hm with
  | stay => exact h.quiet (by simp) fun hheld => hheld.extend hext
  | use _ => exact h.quiet (by simp [Fetches]) fun hheld => hheld.extend hext
  | fetch hev => exact h.deliver hp hext hev
  | enable _ hx => exact h.release hext hx (fun _ => id) rfl
  | delete _ hx => exact h.release hext hx (fun _ => id) rfl
  | close hd => exact h.quiet (by simp) (hmoved (by rw [hd]; nofun))
  | free hc => exact h.quiet (by simp [Fetches]) (hmoved (by rw [hc]; nofun))
  | setup hu => exact h.quiet (by simp) (hmoved (by rw [hu]; nofun))
  | register hq => exact h.quiet (by simp) (hmoved (by rw [hq]; nofun))

/-- The history of one hint. -/
structure Freed (tr : List (Obs τ)) (place : ℕ → Place τ) (hint : ℕ) : Prop where
  once : NoneBetween (Frees hint) never (Touches hint) tr
  freed : Armed (Frees hint) never tr → place hint = .freed

lemma Freed.quiet (h : Freed tr place hint) (hm : Moves s place o place')
    (ho : ∀ y ∈ o, ¬ Frees hint y ∧ ¬ Touches hint y) : Freed (tr ++ o) place' hint := by
  obtain ⟨honce, harmed⟩ := noneBetween_append_of_quiet h.once ho
  exact ⟨honce, fun ha => hm.freed (h.freed (harmed ha))⟩

lemma Freed.move (h : Freed tr place hint) (hm : Moves s place o place') :
    Freed (tr ++ o) place' hint := by
  have hm' := hm
  cases hm with
  | stay => exact h.quiet hm' (by simp)
  | @use t hint₁ fd hheld =>
    obtain ⟨honce, harmed⟩ := noneBetween_append_last (o := []) (y := .use t hint₁) h.once (by simp)
      (by
        rintro ha rfl
        rw [h.freed ha] at hheld
        cases hheld)
    refine ⟨honce, fun ha => ?_⟩
    rcases harmed ha with hf | ⟨ha', -⟩
    · exact hf.elim
    · exact h.freed ha'
  | fetch hev => exact h.quiet hm' (by simp [Frees, Touches])
  | enable _ hx => exact h.quiet hm' (by simp [Frees, Touches])
  | delete _ hx => exact h.quiet hm' (by simp [Frees, Touches])
  | close hd => exact h.quiet hm' (by simp)
  | @free t hint₁ hc =>
    obtain ⟨honce, harmed⟩ := noneBetween_append_last (o := []) (y := .free t hint₁) h.once (by simp)
      (by
        rintro ha rfl
        rw [h.freed ha] at hc
        cases hc)
    refine ⟨honce, fun ha => ?_⟩
    rcases harmed ha with rfl | ⟨ha', -⟩
    · exact Function.update_self ..
    · exact hm'.freed (h.freed ha')
  | setup hu => exact h.quiet hm' (by simp)
  | register hq => exact h.quiet hm' (by simp)

lemma Aimed.move (h : Aimed s tr) (hext : s.Extends s') (hm : Moves s place o place') :
    Aimed s' (tr ++ o) := by
  intro t hint conn hmem
  rcases List.mem_append.1 hmem with hmem | hmem
  · obtain ⟨x, hx, hc⟩ := h t hint conn hmem
    obtain ⟨y, hy, hyc⟩ := hext _ _ hx
    exact ⟨y, hy, by rw [hc, hyc]⟩
  · cases hm with
    | stay => cases hmem
    | use _ => simp at hmem
    | fetch _ => simp at hmem
    | @enable t' hint' fd x _ hx =>
      simp only [List.mem_singleton, Obs.enable.injEq] at hmem
      obtain ⟨rfl, rfl, rfl⟩ := hmem
      obtain ⟨y, hy, hyc⟩ := hext _ _ hx
      exact ⟨y, hy, by rw [hyc]⟩
    | delete _ _ => simp at hmem
    | close _ => cases hmem
    | free _ => simp at hmem
    | setup _ => cases hmem
    | register _ => cases hmem

/-! ## The result -/

/-- The hint a processor works with. -/
lemma held_of_inProc (hin : s.InProc t hint) : ∃ fd, (fd, hint) ∈ (s.workers t).held := by
  obtain ⟨hpc, hmap⟩ := hin
  obtain ⟨x, hx, rfl⟩ := Option.map_eq_some_iff.1 hmap
  refine ⟨x.ident, ?_⟩
  rw [held_of_current hx (by simp [Worker.deletions, hpc]) (by simp [Worker.submitted, hpc])]
  exact List.mem_cons_self

variable [DecidableEq τ]

/-- What the trace says, in every reachable state. -/
lemma history_of_run (hr : Run Server.step anyStep ({} : Server τ) tr s) :
    ∃ place, s.Inv place ∧ (∀ c, Fetched tr s place c) ∧ (∀ hint, Freed tr place hint) ∧
      Aimed s tr := by
  refine hr.inv_trace (fun tr s => ∃ place, s.Inv place ∧ (∀ c, Fetched tr s place c) ∧
    (∀ hint, Freed tr place hint) ∧ Aimed s tr) ?_ ?_
  · exact ⟨_, init_inv, fun c => ⟨noneBetween_nil, fun ha => absurd ha not_armed_nil⟩,
      fun hint => ⟨noneBetween_nil, fun ha => absurd ha not_armed_nil⟩, nofun⟩
  · rintro tr s l s' o ⟨place, h, hfetch, hfree, haim⟩ - hs
    obtain ⟨place', hm, h'⟩ := step_moves h hs
    have hext := step_extends h hs
    exact ⟨place', h', fun c => (hfetch c).move h.places hext hm, fun hint => (hfree hint).move hm,
      haim.move hext hm⟩

/-- **One worker at a time.**  However the workers and the main thread interleave: a connection that
was fetched is not fetched again before it is enabled or its knote deleted; no two workers are in
`proc_req` with one hint; a hint in `proc_req` is not freed; a freed hint is neither used nor freed
again; and an `EV_ENABLE` hits the knote of the connection whose hint it carries. -/
theorem exclusive_of_run (hr : Run Server.step anyStep ({} : Server τ) tr s) :
    (∀ c, NoneBetween (Fetches c) (Releases c) (Fetches c) tr) ∧
    (∀ hint t t', s.InProc t hint → s.InProc t' hint → t = t') ∧
    (∀ hint t, s.InProc t hint → ∃ x, s.hints hint = some x ∧ x.freed = false) ∧
    (∀ hint, NoneBetween (Frees hint) never (Touches hint) tr) ∧
    Aimed s tr := by
  obtain ⟨place, h, hfetch, hfree, haim⟩ := history_of_run hr
  refine ⟨fun c => (hfetch c).once, fun hint t t' ht ht' => ?_, fun hint t ht => ?_,
    fun hint => (hfree hint).once, haim⟩
  · obtain ⟨fd, hmem⟩ := held_of_inProc ht
    obtain ⟨fd', hmem'⟩ := held_of_inProc ht'
    have hp := (h.places.attributed t).held hmem
    have hp' := (h.places.attributed t').held hmem'
    exact (Place.held.inj (hp.symm.trans hp')).1
  · obtain ⟨fd, hmem⟩ := held_of_inProc ht
    have hp := (h.places.attributed t).held hmem
    obtain ⟨c, hc, -⟩ := (h.places.located hint).conn (by rw [hp]; rfl)
    exact ⟨_, hc, rfl⟩

/-- A worker drops the connection at descriptor 8, which the next connection gets again, while the
first one is still in the batch of the worker. -/
def reusedDescriptor : List (Label ℕ) :=
  [.enter 0, .enter 1, .accept 8, .setsockopt true, .register true, .accept 7, .setsockopt true,
    .register true, .fetch 0 [⟨8, 0, true⟩, ⟨7, 1, false⟩], .handle 0, .drop 0, .drop 0, .accept 8,
    .setsockopt true, .drop 0, .register true, .handle 0, .fetch 1 [⟨8, 2, false⟩], .handle 1]

/-- Both workers are in `proc_req`, and the second one has the connection with the old
descriptor. -/
theorem exclusive_reusedDescriptor : ∃ s : Server ℕ, ∃ tr, Run Server.step anyStep {} tr s ∧
    s.InProc 0 1 ∧ s.InProc 1 2 ∧ s.fds 8 = some 2 ∧
    ((∀ c, NoneBetween (Fetches c) (Releases c) (Fetches c) tr) ∧
    (∀ hint t t', s.InProc t hint → s.InProc t' hint → t = t') ∧
    (∀ hint t, s.InProc t hint → ∃ x, s.hints hint = some x ∧ x.freed = false) ∧
    (∀ hint, NoneBetween (Frees hint) never (Touches hint) tr) ∧
    Aimed s tr) := by
  obtain ⟨s, tr, hr, hs⟩ := Run.exists_of_exec Server.step ({} : Server ℕ) reusedDescriptor
    (fun r => (r.1.workers 0, r.1.workers 1, r.1.fds 8))
    (⟨[⟨8, 0, true⟩, ⟨7, 1, false⟩], 1, [], 0, .procReq⟩, ⟨[⟨8, 2, false⟩], 0, [], 0, .procReq⟩,
      some 2) (by decide +kernel) guarded_anyStep
  simp only [Prod.mk.injEq] at hs
  obtain ⟨hw₀, hw₁, hfds⟩ := hs
  refine ⟨s, tr, hr, ?_, ?_, hfds, exclusive_of_run hr⟩
  · simp [Server.InProc, hw₀]
  · simp [Server.InProc, hw₁]

end Skq.Pingpong
