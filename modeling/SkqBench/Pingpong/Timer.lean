import SkqBench.Lib.Run
import SkqBench.Pingpong.KqConn

/-!
# The timer of a connection

`timer_expired` says whether the one-shot timer is in the kqueue, at every moment (`Synced`), and the
state machine never returns without an event that will drive the connection again (`Driven`).
-/

namespace Skq.Pingpong

open Lib

variable {s s' : Session} {l : ConnLabel} {o tr : List ConnObs}

/-- `timer_expired` is 0 exactly when the timer is in the kqueue; the read knote is there. -/
structure Session.Synced (s : Session) : Prop where
  timer : s.conn.timerExpired = false ↔ s.timer = true
  read : s.read = true

/-- The connection will be driven again: it waits for its timer, or for an answer. -/
def Session.Driven (s : Session) : Prop :=
  (s.conn.state = .waiting ∧ s.timer = true) ∨
    (s.conn.state = .limiting ∧ depthLimit ≤ s.conn.depth)

/-- The timer is not armed twice, and not deleted when it is not there. -/
def ConnObs.Sane : ConnObs → Prop
  | .armed present => present = false
  | .deleted present => present = true
  | _ => True

/-- The invariant of the worker, in each phase. -/
def Session.TimerOK (s : Session) : Prop :=
  match s.phase with
  | .registered => s.Synced ∧ s.Driven
  | .kevent => s.Synced ∧ s.Driven
  | .machine => s.Synced
  | .cleanup => s.Synced
  | .done => s.timer = false ∧ s.read = false
  | .exited => True

/-! ## One step -/

/-- What an iteration of the state machine does to the timer. -/
lemma iterate_timer (h : s.Synced) {i : Inputs} (hs : s.iterate i = some (s', o)) :
    (s'.phase = .exited ∨ (s'.phase = s.phase ∧ s'.Synced) ∨
      (s'.phase = .kevent ∧ s'.Synced ∧ s'.Driven)) ∧ ∀ x ∈ o, x.Sane := by
  simp only [Session.iterate] at hs
  split at hs
  · next hstate =>
    split at hs
    · split at hs
      · next hexp =>
        -- the timer is armed
        split at hs
        · cases hs
          have htimer : s.timer = false := by
            have hiff := h.timer
            rw [hexp] at hiff
            simpa using hiff
          refine ⟨.inr (.inr ⟨rfl, ⟨by simp, h.read⟩, .inl ⟨hstate, rfl⟩⟩), ?_⟩
          simpa [ConnObs.Sane] using htimer
        · cases hs
          exact ⟨.inl rfl, by simp⟩
      · next hexp =>
        cases hs
        have htimer : s.timer = true := h.timer.1 (by simpa using hexp)
        exact ⟨.inr (.inr ⟨rfl, ⟨h.timer, h.read⟩, .inl ⟨hstate, htimer⟩⟩), by simp [ConnObs.Sane]⟩
    · cases hs
      exact ⟨.inr (.inl ⟨rfl, ⟨h.timer, h.read⟩⟩), by simp⟩
  · next hstate =>
    split at hs
    · next hdepth =>
      cases hs
      exact ⟨.inr (.inr ⟨rfl, ⟨h.timer, h.read⟩, .inr ⟨hstate, hdepth⟩⟩), by simp [ConnObs.Sane]⟩
    · cases hs
      exact ⟨.inr (.inl ⟨rfl, ⟨h.timer, h.read⟩⟩), by simp⟩
  · next hstate =>
    split at hs
    · cases hs
      exact ⟨.inr (.inl ⟨rfl, ⟨h.timer, h.read⟩⟩), by simp⟩
    · split at hs
      · cases hs
        exact ⟨.inl rfl, by simp⟩
      · split at hs
        · cases hs
          exact ⟨.inl rfl, by simp⟩
        · cases hs
          exact ⟨.inr (.inl ⟨rfl, ⟨h.timer, h.read⟩⟩), by simp [ConnObs.Sane]⟩

/-- What a read event does to the timer. -/
lemma readEvent_timer (h : s.Synced) {r : Response} (hs : s.readEvent r = some (s', o)) :
    (s'.phase = .exited ∨ (s'.phase = .machine ∧ s'.Synced)) ∧ o = [] := by
  simp only [Session.readEvent] at hs
  split at hs
  · cases hs
  · split at hs
    · cases hs
      exact ⟨.inl rfl, rfl⟩
    · split at hs
      · cases hs
        exact ⟨.inl rfl, rfl⟩
      · split at hs
        · cases hs
          exact ⟨.inl rfl, rfl⟩
        · cases hs
          exact ⟨.inr ⟨rfl, by simpa using h.timer, by simpa using h.read⟩, rfl⟩

/-- What a timer event does to the timer. -/
lemma timerEvent_timer (h : s.Synced) (hs : s.timerEvent = some (s', o)) :
    s'.phase = .machine ∧ s'.Synced ∧ o = [] := by
  simp only [Session.timerEvent] at hs
  split at hs
  · cases hs
    exact ⟨rfl, ⟨by simp, h.read⟩, rfl⟩
  · cases hs

/-- `kqconn_cleanup` finds what it deletes. -/
lemma cleanup_timer (h : s.Synced) (hs : s.cleanup = some (s', o)) :
    s'.phase = .done ∧ s'.timer = false ∧ s'.read = false ∧ ∀ x ∈ o, x.Sane := by
  simp only [Session.cleanup] at hs
  split at hs
  · next hexp =>
    have htimer : s.timer = false := by
      have hiff := h.timer
      rw [hexp] at hiff
      simpa using hiff
    rw [if_pos h.read] at hs
    cases hs
    exact ⟨rfl, htimer, rfl, by simp⟩
  · next hexp =>
    have htimer : s.timer = true := h.timer.1 (by simpa using hexp)
    rw [if_pos (by simp [h.read, htimer])] at hs
    cases hs
    exact ⟨rfl, rfl, rfl, by simp [ConnObs.Sane, htimer]⟩

lemma step_timer (h : s.TimerOK) (hs : s.step l = some (s', o)) :
    s'.TimerOK ∧ ∀ x ∈ o, x.Sane := by
  simp only [Session.step] at hs
  split at hs
  · next hphase =>
    cases hs
    rw [Session.TimerOK, hphase] at h
    exact ⟨⟨⟨h.1.timer, h.1.read⟩, h.2⟩, by simp⟩
  · next hphase =>
    rw [Session.TimerOK, hphase] at h
    obtain ⟨hp, hsync, rfl⟩ := timerEvent_timer h.1 hs
    rw [Session.TimerOK, hp]
    exact ⟨hsync, by simp⟩
  · next r hphase =>
    rw [Session.TimerOK, hphase] at h
    obtain ⟨hp | ⟨hp, hsync⟩, rfl⟩ := readEvent_timer h.1 hs
    · rw [Session.TimerOK, hp]
      exact ⟨trivial, by simp⟩
    · rw [Session.TimerOK, hp]
      exact ⟨hsync, by simp⟩
  · cases hs
    exact ⟨trivial, by simp⟩
  · next hphase =>
    cases hs
    rw [Session.TimerOK, hphase] at h
    exact ⟨⟨h.1.timer, h.1.read⟩, by simp⟩
  · next i hphase =>
    rw [Session.TimerOK, hphase] at h
    obtain ⟨hp | ⟨hp, hsync⟩ | ⟨hp, hsync, hdriven⟩, hsane⟩ := iterate_timer h hs
    · rw [Session.TimerOK, hp]
      exact ⟨trivial, hsane⟩
    · rw [Session.TimerOK, hp, hphase]
      exact ⟨hsync, hsane⟩
    · rw [Session.TimerOK, hp]
      exact ⟨⟨hsync, hdriven⟩, hsane⟩
  · next hphase =>
    rw [Session.TimerOK, hphase] at h
    obtain ⟨hp, htimer, hread, hsane⟩ := cleanup_timer h hs
    rw [Session.TimerOK, hp]
    exact ⟨⟨htimer, hread⟩, hsane⟩
  · cases hs

/-! ## Runs -/

/-- What the inputs are where nothing fails. -/
def calm (clock : ℤ) : Inputs := ⟨clock, 5, some 0, true⟩

/-- The first timer event sends a request and arms the timer; the answer comes, then the timer, and
at the depth limit the worker stops. -/
def servedRun : List ConnLabel :=
  [.start 0, .timerEvent, .iterate (calm 0), .iterate (calm 0), .iterate (calm 0),
    .readEvent ⟨1, some 0, true, false, 3⟩, .iterate (calm 3), .timerEvent, .iterate (calm 5),
    .iterate (calm 5), .iterate (calm 12), .iterate (calm 12), .iterate (calm 12), .stop, .clean]

end Skq.Pingpong
