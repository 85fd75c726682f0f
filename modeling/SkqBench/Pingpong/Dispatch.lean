import Mathlib.Tactic.Set
import SkqBench.Lib.Run
import SkqBench.Lib.Trace
import SkqBench.Pingpong.Places

/-!
# Every connection is looked after

The steps of the server move the hints from place to place (`step_moves`): the life of a hint is the
small machine `Moves`, in which a hint that is in the hands of a worker is in the hands of no other,
and a freed hint stays freed.
-/

namespace Skq.Pingpong

open Lib

variable {τ : Type*}

/-! ## The life of a hint -/

/-- What a step may do with the hints, and what is observed of it. -/
inductive Moves (s : Server τ) (place : ℕ → Place τ) : List (Obs τ) → (ℕ → Place τ) → Prop
  | stay : Moves s place [] place
  | use {t hint fd} : place hint = .held t fd → Moves s place [.use t hint] place
  | fetch {t evs} : s.Deliverable evs →
      Moves s place (evs.map fun x => .fetch t (s.fds x.ident))
        (fun hint => (place hint).fetched t evs)
  | enable {t hint fd x} : place hint = .held t fd → s.hints hint = some x →
      Moves s place [.enable t hint (some x.conn)] (Function.update place hint (.queued fd))
  | delete {t hint fd x} : place hint = .held t fd → s.hints hint = some x →
      Moves s place [.delete t (some x.conn)] (Function.update place hint (.deleted t fd))
  | close {t hint fd} : place hint = .deleted t fd →
      Moves s place [] (Function.update place hint (.closed t))
  | free {t hint} : place hint = .closed t →
      Moves s place [.free t hint] (Function.update place hint .freed)
  | setup {hint fd} : place hint = .unborn →
      Moves s place [] (Function.update place hint (.setup fd))
  | register {hint fd} : place hint = .setup fd →
      Moves s place [] (Function.update place hint (.queued fd))

/-! ## The variables of a worker -/

/-- The change that enables the knote of an event again. -/
def Kev.again (x : Kev) : Kev := ⟨x.ident, x.udata, false⟩

/-- The invariant of `work_thread`: the events before `i` are in `skev` or their connections are
dropped, and `kevent` is called when all of them are handled. -/
structure Worker.Ok (w : Worker) (place : ℕ → Place τ) : Prop where
  room : w.kev.length ≤ nevent
  skev_le : w.skev.length ≤ w.i
  i_le : w.i ≤ w.kev.length
  current : w.pc = .procReq ∨ (∃ stage, w.pc = .dropConn stage) → w.i < w.kev.length
  kevent : ∀ {done errs}, w.pc = .kevent done errs → errs = [] ∧ w.i = w.kev.length
  handled : ∀ x ∈ w.kev.take w.i, x.again ∈ w.skev ∨ place x.udata = .freed

variable {s s' : Server τ} {place place' : ℕ → Place τ} {w : Worker} {t : τ} {hint : ℕ}
  {o : List (Obs τ)}

/-- A freed hint stays freed. -/
lemma Moves.freed (h : Moves s place o place') (hp : place hint = .freed) :
    place' hint = .freed := by
  have hupdate : ∀ {hint' p}, place hint' ≠ .freed →
      Function.update place hint' p hint = .freed := by
    intro hint' p hne
    rw [Function.update_of_ne, hp]
    rintro rfl
    exact hne hp
  cases h with
  | stay => exact hp
  | use _ => exact hp
  | fetch _ =>
    show (place hint).fetched _ _ = _
    rw [hp]
    rfl
  | enable h₁ _ => exact hupdate (by rw [h₁]; nofun)
  | delete h₁ _ => exact hupdate (by rw [h₁]; nofun)
  | close h₁ => exact hupdate (by rw [h₁]; nofun)
  | free h₁ => exact hupdate (by rw [h₁]; nofun)
  | setup h₁ => exact hupdate (by rw [h₁]; nofun)
  | register h₁ => exact hupdate (by rw [h₁]; nofun)

lemma Worker.Ok.mono (h : w.Ok place) (hm : Moves s place o place') : w.Ok place' :=
  ⟨h.room, h.skev_le, h.i_le, h.current, h.kevent,
    fun x hx => (h.handled x hx).imp_right hm.freed⟩

/-- A worker goes on with the current event. -/
lemma Worker.Ok.goOn (h : w.Ok place) (hlt : w.i < w.kev.length) {pc : At}
    (hpc : ∀ done errs, pc ≠ .kevent done errs) : Worker.Ok { w with pc } place :=
  ⟨h.room, h.skev_le, h.i_le, fun _ => hlt, fun heq => absurd heq (hpc _ _), h.handled⟩

/-- The invariant of the server. -/
structure Server.Inv (s : Server τ) (place : ℕ → Place τ) : Prop where
  places : Places s place
  ok : ∀ t, (s.workers t).Ok place
  exited : s.exited ≠ some .dropConn

variable [DecidableEq τ]

/-- A step of one worker. -/
lemma Server.Inv.worker (h : s.Inv place) (hm : Moves s place o place') (hp : Places s' place')
    (hworkers : s'.workers = Function.update s.workers t w) (hexit : s'.exited = s.exited)
    (hok : w.Ok place') : s'.Inv place' where
  places := hp
  exited := hexit ▸ h.exited
  ok := by
    intro t'
    rw [hworkers]
    by_cases ht : t' = t
    · subst ht
      rwa [Function.update_self]
    · rw [Function.update_of_ne ht]
      exact (h.ok t').mono hm

/-! ## Every step is a move -/

variable {l : Label τ}

lemma enter_moves (h : s.Inv place) (hs : s.enter t = some (s', o)) :
    ∃ place', Moves s place o place' ∧ s'.Inv place' := by
  simp only [Server.enter] at hs
  split at hs
  · next hpc =>
    obtain ⟨rfl, rfl⟩ := Prod.mk.inj (Option.some.inj hs)
    have hok := h.ok t
    refine ⟨place, .stay, h.worker .stay (h.places.swap ?_ ?_ ?_) rfl rfl ?_⟩
    · simp [Worker.held, Worker.deletions, Worker.submitted, hpc.1]
    · simp [Worker.deleted, hpc.1]
    · simp [Worker.closed, hpc.1]
    · refine ⟨hok.room, hok.skev_le, hok.i_le, ?_, ?_, hok.handled⟩
      · rintro (hpc' | ⟨stage, hpc'⟩) <;> cases hpc'
      · rintro done errs ⟨⟩
        exact ⟨rfl, Nat.le_antisymm hok.i_le hpc.2⟩
  · cases hs

/-- In `kevent` a worker holds the changes that are not made yet. -/
lemma held_of_kevent {done : ℕ} {errs : List Kev} (hpc : w.pc = .kevent done errs)
    (hi : w.i = w.kev.length) : w.held = (w.skev.drop done).map Kev.key := by
  simp [Worker.held, Worker.deletions, Worker.submitted, hpc, hi]

lemma whole_of_kevent {done : ℕ} {errs : List Kev} (hpc : w.pc = .kevent done errs) : w.Whole := by
  simp [Worker.Whole, Worker.deleted, Worker.closed, hpc]

lemma change_moves (h : s.Inv place) (hs : s.change t = some (s', o)) :
    ∃ place', Moves s place o place' ∧ s'.Inv place' := by
  have hok := h.ok t
  simp only [Server.change] at hs
  split at hs
  · next done errs hpc =>
    obtain ⟨-, hi⟩ := hok.kevent hpc
    cases hx : (s.workers t).skev[done]? with
    | none => simp [hx] at hs
    | some x =>
      obtain ⟨hlt, hget⟩ := List.getElem?_eq_some_iff.1 hx
      have hdrop : (s.workers t).skev.drop done = x :: (s.workers t).skev.drop (done + 1) := by
        rw [List.drop_eq_getElem_cons hlt, hget]
      have hheld : (s.workers t).held =
          (x.ident, x.udata) :: ((s.workers t).skev.drop (done + 1)).map Kev.key := by
        rw [held_of_kevent hpc hi, hdrop, List.map_cons]
        rfl
      have hmem : (x.ident, x.udata) ∈ (s.workers t).held := hheld ▸ List.mem_cons_self
      have hp := (h.places.attributed t).held hmem
      have hloc := h.places.located x.udata
      rw [hp] at hloc
      obtain ⟨c, hc, hopen, hq, -⟩ := hloc
      simp only [hx, hq, Server.knoteConn, Option.bind_some, hopen] at hs
      obtain ⟨rfl, rfl⟩ := Prod.mk.inj (Option.some.inj hs)
      have hmove := Moves.enable (s := s) (t := t) hp hc
      refine ⟨_, hmove, h.worker hmove (h.places.enable ?_ (whole_of_kevent hpc) ?_) rfl rfl ?_⟩
      · exact hheld.trans (congrArg _ (held_of_kevent (w := { s.workers t with
          pc := .kevent (done + 1) errs }) rfl hi).symm)
      · exact whole_of_kevent rfl
      · have hok' := hok.mono hmove
        refine ⟨hok'.room, hok'.skev_le, hok'.i_le, ?_, ?_, hok'.handled⟩
        · rintro (hpc' | ⟨stage, hpc'⟩) <;> cases hpc'
        · rintro done' errs' ⟨⟩
          exact hok.kevent hpc
  · cases hs

lemma fetch_moves (h : s.Inv place) {evs : List Kev} (hs : s.fetch t evs = some (s', o)) :
    ∃ place', Moves s place o place' ∧ s'.Inv place' := by
  have hok := h.ok t
  simp only [Server.fetch] at hs
  split at hs
  · next done errs hpc =>
    obtain ⟨rfl, hi⟩ := hok.kevent hpc
    split at hs
    · cases hs
    · next hdone =>
      rw [if_neg (by simp)] at hs
      split at hs
      · next hev =>
        obtain ⟨rfl, rfl⟩ := Prod.mk.inj (Option.some.inj hs)
        have hmove : Moves s place _ _ := Moves.fetch (t := t) hev
        refine ⟨_, hmove, h.worker hmove (h.places.fetch hev ?_ ?_ (whole_of_kevent hpc) ?_) rfl rfl ?_⟩
        · rw [held_of_kevent hpc hi, List.drop_eq_nil_of_le (Nat.le_of_not_lt hdone)]
          rfl
        · simp [Worker.held, Worker.deletions, Worker.submitted]
        · exact ⟨rfl, rfl⟩
        · refine ⟨hev.2.1, Nat.zero_le _, Nat.zero_le _, nofun, nofun, ?_⟩
          · intro x hx
            simp at hx
      · cases hs
  · cases hs

/-- The current event of a worker that is not in the second half of `drop_conn`. -/
lemma held_of_current {x : Kev} (hx : w.kev[w.i]? = some x) (hdel : w.deletions = 0)
    (hsub : w.submitted = 0) :
    w.held = x.key :: (w.kev.drop (w.i + 1) ++ w.skev).map Kev.key := by
  obtain ⟨hlt, hget⟩ := List.getElem?_eq_some_iff.1 hx
  rw [Worker.held, hdel, hsub, Nat.add_zero, List.drop_zero, List.drop_eq_getElem_cons hlt, hget]
  rfl

lemma handle_moves (h : s.Inv place) (hs : s.handle t = some (s', o)) :
    ∃ place', Moves s place o place' ∧ s'.Inv place' := by
  have hok := h.ok t
  simp only [Server.handle] at hs
  split at hs
  · next hpc =>
    cases hx : (s.workers t).kev[(s.workers t).i]? with
    | none => simp [hx] at hs
    | some x =>
      obtain ⟨hlt, -⟩ := List.getElem?_eq_some_iff.1 hx
      have hheld := held_of_current hx (by simp [Worker.deletions, hpc])
        (by simp [Worker.submitted, hpc])
      have hp := (h.places.attributed t).held (hheld ▸ List.mem_cons_self :
        (x.ident, x.udata) ∈ (s.workers t).held)
      simp only [hx] at hs
      split at hs
      · obtain ⟨rfl, rfl⟩ := Prod.mk.inj (Option.some.inj hs)
        refine ⟨place, .stay, h.worker .stay (h.places.swap ?_ ?_ ?_) rfl rfl ?_⟩
        · simp [Worker.held, Worker.deletions, Worker.submitted, hpc]
        · simp [Worker.deleted, hpc]
        · simp [Worker.closed, hpc]
        · exact hok.goOn hlt (by simp)
      · obtain ⟨rfl, rfl⟩ := Prod.mk.inj (Option.some.inj hs)
        refine ⟨place, .use hp, h.worker .stay (h.places.swap ?_ ?_ ?_) rfl rfl ?_⟩
        · simp [Worker.held, Worker.deletions, Worker.submitted, hpc]
        · simp [Worker.deleted, hpc]
        · simp [Worker.closed, hpc]
        · exact hok.goOn hlt (by simp)
  · cases hs

omit [DecidableEq τ] in
/-- An event more is handled. -/
lemma handled_succ {x : Kev} {skev : List Kev} (hok : w.Ok place) (hx : w.kev[w.i]? = some x)
    (hskev : ∀ y ∈ w.skev, y ∈ skev) (hdone : x.again ∈ skev ∨ place x.udata = .freed) :
    ∀ y ∈ w.kev.take (w.i + 1), y.again ∈ skev ∨ place y.udata = .freed := by
  intro y hy
  rw [List.take_add_one, hx] at hy
  rcases List.mem_append.1 hy with hy | hy
  · exact (hok.handled y hy).imp_left (hskev _)
  · obtain rfl : y = x := by simpa using hy
    exact hdone

lemma procReturns_moves (h : s.Inv place) {status : ℤ} (hs : s.procReturns t status = some (s', o)) :
    ∃ place', Moves s place o place' ∧ s'.Inv place' := by
  have hok := h.ok t
  simp only [Server.procReturns] at hs
  split at hs
  · next hpc =>
    cases hx : (s.workers t).kev[(s.workers t).i]? with
    | none => simp [hx] at hs
    | some x =>
      obtain ⟨hlt, -⟩ := List.getElem?_eq_some_iff.1 hx
      have hheld := held_of_current hx (by simp [Worker.deletions, hpc])
        (by simp [Worker.submitted, hpc])
      have hp := (h.places.attributed t).held (hheld ▸ List.mem_cons_self :
        (x.ident, x.udata) ∈ (s.workers t).held)
      simp only [hx] at hs
      split at hs
      · obtain ⟨rfl, rfl⟩ := Prod.mk.inj (Option.some.inj hs)
        refine ⟨place, .use hp, h.worker .stay (h.places.swap ?_ ?_ ?_) rfl rfl ?_⟩
        · simp [Worker.held, Worker.deletions, Worker.submitted, hpc]
        · simp [Worker.deleted, hpc]
        · simp [Worker.closed, hpc]
        · exact hok.goOn hlt (by simp)
      · obtain ⟨rfl, rfl⟩ := Prod.mk.inj (Option.some.inj hs)
        refine ⟨place, .use hp, h.worker .stay (h.places.swap ?_ ?_ ?_) rfl rfl ?_⟩
        · -- the event goes from the front of the batch to the end of the changes
          rw [hheld]
          simp only [Worker.held, Worker.deletions, Worker.submitted, Nat.add_zero, List.drop_zero,
            ← List.append_assoc, List.map_append, List.map_cons, List.map_nil]
          exact List.perm_append_singleton ..
        · simp [Worker.deleted, hpc]
        · simp [Worker.closed, hpc]
        · refine ⟨hok.room, ?_, hlt, nofun, nofun, ?_⟩
          · have hle := hok.skev_le
            simp
            omega
          · exact handled_succ hok hx (fun y hy => List.mem_append_left _ hy)
              (.inl (List.mem_append_right _ (List.mem_singleton_self _)))
  · cases hs

lemma drop_moves (h : s.Inv place) (hs : s.drop t = some (s', o)) :
    ∃ place', Moves s place o place' ∧ s'.Inv place' := by
  have hok := h.ok t
  simp only [Server.drop] at hs
  split at hs
  · next x hpc hx =>
    -- `EV_DELETE`
    obtain ⟨hlt, -⟩ := List.getElem?_eq_some_iff.1 hx
    have hheld := held_of_current hx (by simp [Worker.deletions, hpc])
      (by simp [Worker.submitted, hpc])
    have hmem : (x.ident, x.udata) ∈ (s.workers t).held := hheld ▸ List.mem_cons_self
    have hp := (h.places.attributed t).held hmem
    have hloc := h.places.located x.udata
    rw [hp] at hloc
    obtain ⟨c, hc, hopen, hq, -⟩ := hloc
    simp only [hq, Server.knoteConn, Option.bind_some, hopen] at hs
    obtain ⟨rfl, rfl⟩ := Prod.mk.inj (Option.some.inj hs)
    have hmove := Moves.delete (s := s) (t := t) hp hc
    refine ⟨_, hmove, h.worker hmove (h.places.delete ?_ ?_ ?_ ?_) rfl rfl ?_⟩
    · rw [hheld]
      simp [Worker.held, Worker.deletions, Worker.submitted, Kev.key]
    · simp [Worker.Whole, Worker.deleted, Worker.closed, hpc]
    · simp [Worker.deleted, hx, Kev.key]
    · rfl
    · exact (hok.mono hmove).goOn hlt (by simp)
  · next x hpc hx =>
    -- `close`
    obtain ⟨hlt, -⟩ := List.getElem?_eq_some_iff.1 hx
    have hdel : (s.workers t).deleted = some (x.ident, x.udata) := by
      simp [Worker.deleted, hpc, hx, Kev.key]
    have hp := (h.places.attributed t).deleted hdel
    obtain ⟨rfl, rfl⟩ := Prod.mk.inj (Option.some.inj hs)
    have hmove := Moves.close (s := s) hp
    refine ⟨_, hmove, h.worker hmove (h.places.close ?_ hdel ?_ ?_ ?_) rfl rfl ?_⟩
    · simp [Worker.held, Worker.deletions, Worker.submitted, hpc]
    · simp [Worker.closed, hpc]
    · rfl
    · simp [Worker.closed, hx]
    · exact (hok.mono hmove).goOn hlt (by simp)
  · next x hpc hx =>
    -- `conn_hint_destroy`
    obtain ⟨hlt, -⟩ := List.getElem?_eq_some_iff.1 hx
    have hclosed : (s.workers t).closed = some x.udata := by simp [Worker.closed, hpc, hx]
    have hp := (h.places.attributed t).closed hclosed
    set w' : Worker := { s.workers t with i := (s.workers t).i + 1, pc := .loop } with hw'
    obtain ⟨c, hc, hplaces⟩ := @Places.free _ _ _ w' _ _ _ h.places
      (by simp [Worker.held, Worker.deletions, Worker.submitted, hpc, hw']) hclosed
      (by simp [Worker.deleted, hpc]) ⟨rfl, rfl⟩
    simp only [hc, Option.map_some] at hs
    obtain ⟨rfl, rfl⟩ := Prod.mk.inj (Option.some.inj hs)
    have hmove := Moves.free (s := s) hp
    refine ⟨_, hmove, h.worker hmove hplaces rfl rfl ?_⟩
    have hok' := hok.mono hmove
    refine ⟨hok'.room, Nat.le_succ_of_le hok'.skev_le, hlt, by simp [hw'], by simp [hw'], ?_⟩
    exact handled_succ hok' hx (fun _ => id) (.inr (Function.update_self ..))
  · cases hs

/-! ### The main thread -/

section MainThread

omit [DecidableEq τ]

/-- A step of the main thread. -/
lemma Server.Inv.main (h : s.Inv place) (hm : Moves s place o place') (hp : Places s' place')
    (hworkers : s'.workers = s.workers) (hexit : s'.exited = s.exited) : s'.Inv place' where
  places := hp
  exited := hexit ▸ h.exited
  ok := fun t => by
    rw [hworkers]
    exact (h.ok t).mono hm

lemma accept_moves (h : s.Inv place) {fd : ℤ} (hs : s.accept fd = some (s', o)) :
    ∃ place', Moves s place o place' ∧ s'.Inv place' := by
  simp only [Server.accept] at hs
  split at hs
  · next hidle =>
    obtain ⟨rfl, rfl⟩ := Prod.mk.inj (Option.some.inj hs)
    exact ⟨place, .stay, h.main .stay (h.places.accept hidle.1 hidle.2) rfl rfl⟩
  · cases hs

lemma setsockopt_moves (h : s.Inv place) {ok : Bool} (hs : s.setsockopt ok = some (s', o)) :
    ∃ place', Moves s place o place' ∧ s'.Inv place' := by
  simp only [Server.setsockopt] at hs
  split at hs
  · next fd c hmain =>
    split at hs
    · obtain ⟨rfl, rfl⟩ := Prod.mk.inj (Option.some.inj hs)
      obtain ⟨hp, hplaces⟩ := h.places.allocate hmain
      exact ⟨_, .setup hp, h.main (.setup hp) hplaces rfl rfl⟩
    · obtain ⟨rfl, rfl⟩ := Prod.mk.inj (Option.some.inj hs)
      exact ⟨place, .stay, h.main .stay (h.places.giveUp hmain) rfl rfl⟩
  · cases hs

/-- The process ends with another message than that of `drop_conn`. -/
lemma Server.Inv.exit (h : s.Inv place) {e : Exit} (he : e ≠ .dropConn) :
    ({ s with exited := some e } : Server τ).Inv place where
  places :=
    { numbered := h.places.numbered.mono (fun _ _ => id) (fun _ x hx => ⟨x, hx, rfl⟩) rfl rfl
        fun _ _ hm => ⟨hm, id⟩
      located := fun hint => (h.places.located hint).frame rfl (fun _ _ => ⟨rfl, rfl⟩)
        (fun _ _ => id) (fun _ _ => rfl) fun _ => .refl _ _
      attributed := h.places.attributed
      knote := h.places.knote
      setup := h.places.setup }
  ok := h.ok
  exited := fun heq => he (Option.some.inj heq)

lemma register_moves (h : s.Inv place) {ok : Bool} (hs : s.register ok = some (s', o)) :
    ∃ place', Moves s place o place' ∧ s'.Inv place' := by
  simp only [Server.register] at hs
  split at hs
  · next fd hint hmain =>
    obtain ⟨hkq, hplaces⟩ := h.places.register hmain
    split at hs
    · simp only [hkq] at hs
      obtain ⟨rfl, rfl⟩ := Prod.mk.inj (Option.some.inj hs)
      have hp := h.places.setup hmain
      exact ⟨_, .register hp, h.main (.register hp) hplaces rfl rfl⟩
    · obtain ⟨rfl, rfl⟩ := Prod.mk.inj (Option.some.inj hs)
      exact ⟨place, .stay, h.exit nofun⟩
  · cases hs

lemma keventFails_moves (h : s.Inv place) (hs : s.keventFails t = some (s', o)) :
    ∃ place', Moves s place o place' ∧ s'.Inv place' := by
  simp only [Server.keventFails] at hs
  split at hs
  · obtain ⟨rfl, rfl⟩ := Prod.mk.inj (Option.some.inj hs)
    exact ⟨place, .stay, h.exit nofun⟩
  · cases hs

/-- The server at its start. -/
lemma init_inv : ({} : Server τ).Inv fun _ => .unborn where
  places :=
    { numbered := ⟨nofun, nofun, nofun, nofun, nofun, nofun⟩
      located := fun _ => rfl
      attributed := fun _ => ⟨nofun, List.nodup_nil, nofun, nofun⟩
      knote := nofun
      setup := nofun }
  ok := fun _ => ⟨Nat.zero_le _, Nat.le_refl _, Nat.le_refl _, by simp, nofun, nofun⟩
  exited := nofun

end MainThread

/-- **Every step of the server is a move of the hints.** -/
theorem step_moves (h : s.Inv place) (hs : s.step l = some (s', o)) :
    ∃ place', Moves s place o place' ∧ s'.Inv place' := by
  simp only [Server.step] at hs
  split at hs
  · cases hs
  · cases l with
    | enter t => exact enter_moves h hs
    | change t => exact change_moves h hs
    | fetch t evs => exact fetch_moves h hs
    | keventFails t => exact keventFails_moves h hs
    | handle t => exact handle_moves h hs
    | procReturns t status => exact procReturns_moves h hs
    | drop t => exact drop_moves h hs
    | accept fd => exact accept_moves h hs
    | setsockopt ok => exact setsockopt_moves h hs
    | register ok => exact register_moves h hs

/-- The invariant holds in every reachable state. -/
theorem inv_of_run {tr : List (Obs τ)} (hr : Run Server.step anyStep ({} : Server τ) tr s) :
    ∃ place, s.Inv place := by
  refine hr.inv (fun s => ∃ place, s.Inv place) ⟨_, init_inv⟩ ?_
  rintro s l s' o ⟨place, h⟩ - hs
  obtain ⟨place', -, h'⟩ := step_moves h hs
  exact ⟨place', h'⟩

/-! ## No connection is forgotten -/

/-- The connection of a hint was dropped: no knote carries the hint, the descriptor is closed and the
hint is freed. -/
def Server.Dropped (s : Server τ) (hint : ℕ) : Prop :=
  (∀ fd kn, s.kq fd = some kn → kn.udata ≠ hint) ∧
    ∃ c, s.hints hint = some ⟨c, true⟩ ∧ ∀ fd, s.fds fd ≠ some c

/-- Somebody will look after the connection `c`, open at `fd`: it was not given a hint, so that it
never was in the kqueue; or it has a hint that lives, and the main thread is about to register it,
or its knote is enabled, or its knote is disabled and exactly one worker has its event or its
`EV_ENABLE`, or exactly one worker is about to close it. -/
def Server.Attended (s : Server τ) (fd : ℤ) (c : ℕ) : Prop :=
  (∀ hint x, s.hints hint = some x → x.conn ≠ c) ∨
  ∃ hint, s.hints hint = some ⟨c, false⟩ ∧
    (s.main = .registering fd hint ∨
      s.kq fd = some ⟨hint, false⟩ ∨
      (s.kq fd = some ⟨hint, true⟩ ∧ ∃! t, (fd, hint) ∈ (s.workers t).held) ∨
      ∃! t, (s.workers t).deleted = some (fd, hint))

omit [DecidableEq τ] in
lemma dropped_of_freed (h : Places s place) (hp : place hint = .freed) : s.Dropped hint := by
  have hloc := h.located hint
  rw [hp] at hloc
  refine ⟨?_, hloc⟩
  rintro fd kn hkn rfl
  have hfd := h.knote hkn
  rw [hp] at hfd
  cases hfd

omit [DecidableEq τ] in
lemma attended_of_open (h : Places s place) {fd : ℤ} {c : ℕ} (hopen : s.fds fd = some c) :
    s.Attended fd c := by
  by_cases hno : ∀ hint x, s.hints hint = some x → x.conn ≠ c
  · exact .inl hno
  · push Not at hno
    obtain ⟨hint, x, hx, rfl⟩ := hno
    have hloc := h.located hint
    -- the hint is at an open descriptor, and that is `fd`
    have hfd : ∀ {fd' c'}, s.hints hint = some ⟨c', false⟩ → s.fds fd' = some c' →
        c' = x.conn ∧ fd' = fd := by
      intro fd' c' hc' hopen'
      obtain rfl : x = ⟨c', false⟩ := Option.some.inj (hx.symm.trans hc')
      exact ⟨rfl, h.numbered.fds_inj hopen' hopen⟩
    refine .inr ⟨hint, ?_⟩
    cases hp : place hint with
    | unborn =>
      rw [hp] at hloc
      cases (show s.hints hint = none from hloc).symm.trans hx
    | setup fd' =>
      rw [hp] at hloc
      obtain ⟨c', hc', hopen', -, hmain⟩ := hloc
      obtain ⟨rfl, rfl⟩ := hfd hc' hopen'
      exact ⟨hc', .inl hmain⟩
    | queued fd' =>
      rw [hp] at hloc
      obtain ⟨c', hc', hopen', hq⟩ := hloc
      obtain ⟨rfl, rfl⟩ := hfd hc' hopen'
      exact ⟨hc', .inr (.inl hq)⟩
    | held t fd' =>
      rw [hp] at hloc
      obtain ⟨c', hc', hopen', hq, hmem⟩ := hloc
      obtain ⟨rfl, rfl⟩ := hfd hc' hopen'
      refine ⟨hc', .inr (.inr (.inl ⟨hq, t, hmem, fun t' hmem' => ?_⟩))⟩
      exact (Place.held.inj (((h.attributed t').held hmem').symm.trans hp)).1
    | deleted t fd' =>
      rw [hp] at hloc
      obtain ⟨c', hc', hopen', -, hdel⟩ := hloc
      obtain ⟨rfl, rfl⟩ := hfd hc' hopen'
      refine ⟨hc', .inr (.inr (.inr ⟨t, hdel, fun t' hdel' => ?_⟩))⟩
      exact (Place.deleted.inj (((h.attributed t').deleted hdel').symm.trans hp)).1
    | closed t =>
      rw [hp] at hloc
      obtain ⟨c', hc', hshut, -⟩ := hloc
      obtain rfl : x = ⟨c', false⟩ := Option.some.inj (hx.symm.trans hc')
      exact absurd hopen (hshut fd)
    | freed =>
      rw [hp] at hloc
      obtain ⟨c', hc', hshut⟩ := hloc
      obtain rfl : x = ⟨c', true⟩ := Option.some.inj (hx.symm.trans hc')
      exact absurd hopen (hshut fd)

/-- **No connection is forgotten.**  Whatever events are delivered and whatever `proc_req` returns,
a handled event of a worker's batch is in the `skev` of the worker or its connection was dropped,
`drop_conn` does not fail, and every open connection is attended. -/
theorem attended_of_run {tr : List (Obs τ)}
    (hr : Run Server.step anyStep ({} : Server τ) tr s) :
    (∀ t, ∀ x ∈ (s.workers t).kev.take (s.workers t).i,
      x.again ∈ (s.workers t).skev ∨ s.Dropped x.udata) ∧
    (∀ fd c, s.fds fd = some c → s.Attended fd c) ∧ s.exited ≠ some .dropConn := by
  obtain ⟨place, h⟩ := inv_of_run hr
  refine ⟨fun t x hx => ?_, fun fd c hopen => attended_of_open h.places hopen, h.exited⟩
  exact ((h.ok t).handled x hx).imp_right (dropped_of_freed h.places)

/-- Two connections, one of which sends a request the processor answers, and the other closes. -/
def twoConns : List (Label ℕ) :=
  [.enter 0, .accept 7, .setsockopt true, .register true, .accept 8, .setsockopt true,
    .register true, .fetch 0 [⟨7, 0, false⟩, ⟨8, 1, true⟩], .handle 0, .procReturns 0 0,
    .handle 0, .drop 0, .drop 0, .drop 0, .enter 0]

/-- The first connection is in `skev`, the second one dropped. -/
theorem attended_twoConns : ∃ s : Server ℕ, ∃ tr, Run Server.step anyStep {} tr s ∧
    (s.workers 0).skev = [⟨7, 0, false⟩] ∧ s.fds 8 = none ∧
    ((∀ t, ∀ x ∈ (s.workers t).kev.take (s.workers t).i,
      x.again ∈ (s.workers t).skev ∨ s.Dropped x.udata) ∧
    (∀ fd c, s.fds fd = some c → s.Attended fd c) ∧ s.exited ≠ some .dropConn) := by
  obtain ⟨s, tr, hr, hs⟩ := Run.exists_of_exec Server.step ({} : Server ℕ) twoConns
    (fun r => ((r.1.workers 0).skev, r.1.fds 8)) ([⟨7, 0, false⟩], none) (by decide +kernel)
    guarded_anyStep
  obtain ⟨hskev, hfds⟩ := Prod.mk.inj hs
  exact ⟨s, tr, hr, hskev, hfds, attended_of_run hr⟩

end Skq.Pingpong
