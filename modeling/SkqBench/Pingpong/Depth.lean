import SkqBench.Pingpong.Timer

/-!
# The depth of a connection

`depth` is raised before a request is sent, and nothing lowers it again if the send fails.  In every
run `depth` is the number of unanswered requests plus the number of failed sends (`depth_of_run`), so
that it counts the unanswered requests exactly as long as no send fails.
-/

namespace Skq.Pingpong

open Lib

variable {s s' : Session} {l : ConnLabel} {o tr : List ConnObs}

/-- A send that did not write the request completely. -/
def ConnObs.failed : ConnObs → Bool
  | .sent status => status != 0
  | _ => false

/-- The server answers each request once, and each read event consumes one answer. -/
def OneAnswer (_ : Session) : ConnLabel → Prop
  | .readEvent r => r.answers = 1
  | _ => True

instance : ∀ s l, Decidable (OneAnswer s l)
  | _, .readEvent r => inferInstanceAs (Decidable (r.answers = 1))
  | _, .start _ => isTrue trivial
  | _, .timerEvent => isTrue trivial
  | _, .eof => isTrue trivial
  | _, .iterate _ => isTrue trivial
  | _, .stop => isTrue trivial
  | _, .clean => isTrue trivial

/-- `depth` counts the requests that are not answered; a connection that waits at its limit has an
answer to come. -/
structure Session.DepthOK (s : Session) : Prop where
  depth : s.conn.depth = s.unanswered
  nonneg : 0 ≤ s.conn.depth
  le : s.conn.depth ≤ depthLimit
  limiting : s.phase = .kevent → s.conn.state = .limiting → 0 < s.unanswered

/-- `depth`, where `n` sends have failed. -/
structure Session.Counted (s : Session) (n : ℕ) : Prop where
  depth : s.conn.depth = s.unanswered + n
  le : s.conn.depth ≤ depthLimit

/-! ## One step -/

lemma iterate_counted {n : ℕ} (h : s.Counted n) {i : Inputs} (hs : s.iterate i = some (s', o)) :
    s'.Counted (n + o.countP ConnObs.failed) := by
  simp only [Session.iterate] at hs
  split at hs
  · split at hs
    · split at hs
      · split at hs <;> cases hs <;> exact ⟨h.depth, h.le⟩
      · cases hs
        exact ⟨h.depth, h.le⟩
    · cases hs
      exact ⟨h.depth, h.le⟩
  · split at hs <;> cases hs <;> exact ⟨h.depth, h.le⟩
  · split at hs
    · cases hs
      exact ⟨h.depth, h.le⟩
    · next hlimit =>
      have hlt : s.conn.depth + 1 ≤ depthLimit := by omega
      have hdepth := h.depth
      split at hs
      · cases hs
        exact ⟨h.depth, h.le⟩
      · split at hs
        · cases hs
          exact ⟨h.depth, h.le⟩
        · next status hsend =>
          cases hs
          refine ⟨?_, hlt⟩
          by_cases hst : status = 0
          · simp [ConnObs.failed, hst]
            omega
          · simp [ConnObs.failed, hst]
            omega

lemma readEvent_counted {n : ℕ} (h : s.Counted n) {r : Response} (hone : r.answers = 1)
    (hs : s.readEvent r = some (s', o)) : s'.Counted n ∧ o = [] := by
  have hdepth := h.depth
  have hle := h.le
  simp only [Session.readEvent] at hs
  split at hs
  · cases hs
  · next hans =>
    split at hs
    · cases hs
      exact ⟨⟨hdepth, hle⟩, rfl⟩
    · split at hs
      · cases hs
        exact ⟨⟨hdepth, hle⟩, rfl⟩
      · split at hs
        · next hneg =>
          -- an answer that is due was counted
          omega
        · cases hs
          refine ⟨⟨?_, ?_⟩, rfl⟩
          · simp
            omega
          · simp
            omega

lemma step_counted {n : ℕ} (h : s.Counted n) (hok : OneAnswer s l)
    (hs : s.step l = some (s', o)) : s'.Counted (n + o.countP ConnObs.failed) := by
  simp only [Session.step] at hs
  split at hs
  · cases hs
    exact ⟨h.depth, h.le⟩
  · simp only [Session.timerEvent] at hs
    split at hs <;> cases hs
    exact ⟨h.depth, h.le⟩
  · next r hphase =>
    obtain ⟨h', rfl⟩ := readEvent_counted h hok hs
    exact h'
  · cases hs
    exact ⟨h.depth, h.le⟩
  · cases hs
    exact ⟨h.depth, h.le⟩
  · exact iterate_counted h hs
  · simp only [Session.cleanup] at hs
    split at hs
    · split at hs <;> cases hs <;> exact ⟨h.depth, h.le⟩
    · split at hs <;> cases hs <;> exact ⟨h.depth, h.le⟩
  · cases hs

/-! ## Runs -/

/-- **What `depth` counts**: the unanswered requests and the failed sends. -/
lemma depth_of_run (hr : Run Session.step OneAnswer Session.init tr s) :
    s.TimerOK ∧ s.Counted (tr.countP ConnObs.failed) := by
  refine hr.inv_trace (fun tr s => s.TimerOK ∧ s.Counted (tr.countP ConnObs.failed)) ?_ ?_
  · exact ⟨⟨⟨by simp [Session.init], rfl⟩, .inl ⟨rfl, rfl⟩⟩, ⟨rfl, by decide⟩⟩
  · rintro tr s l s' o ⟨h, hc⟩ hok hs
    refine ⟨(step_timer h hs).1, ?_⟩
    rw [List.countP_append]
    exact step_counted hc hok hs

/-- **When `depth` is right.**  It counts the unanswered requests exactly as long as every
`send_req` has returned 0. -/
theorem depthOK_iff (hr : Run Session.step OneAnswer Session.init tr s) :
    s.DepthOK ↔ ∀ status, .sent status ∈ tr → status = 0 := by
  obtain ⟨htimer, hc⟩ := depth_of_run hr
  have hdepth := hc.depth
  have hcount : tr.countP ConnObs.failed = 0 ↔ ∀ status, .sent status ∈ tr → status = 0 := by
    rw [List.countP_eq_zero]
    constructor
    · intro hno status hmem
      simpa [ConnObs.failed] using hno _ hmem
    · rintro hall (_ | status | _ | _) hmem
      · simp [ConnObs.failed]
      · simp [ConnObs.failed, hall status hmem]
      · simp [ConnObs.failed]
      · simp [ConnObs.failed]
  rw [← hcount]
  constructor
  · intro h
    have heq := h.depth
    omega
  · intro hzero
    refine ⟨by omega, by omega, hc.le, fun hphase hlim => ?_⟩
    rw [Session.TimerOK, hphase] at htimer
    rcases htimer.2 with ⟨hwait, -⟩ | ⟨-, hle⟩
    · rw [hlim] at hwait
      cases hwait
    · simp only [depthLimit] at hle
      omega

/-- The run in which the first request cannot be sent: at the next send time the connection is at its
depth limit. -/
def failedSendRun : List ConnLabel :=
  [.start 0, .timerEvent, .iterate (calm 0), .iterate ⟨0, 5, some (-1), true⟩, .iterate (calm 0),
    .timerEvent, .iterate (calm 5), .iterate (calm 5), .iterate (calm 5)]

lemma failedSendRun_guarded : Guarded Session.step OneAnswer Session.init failedSendRun := by
  decide +kernel

lemma servedRun_guarded : Guarded Session.step OneAnswer Session.init servedRun := by
  decide +kernel

/-- **A failed send stops the connection.**  It waits in `STATE_LIMITING` for an answer, with no
request unanswered and no timer. -/
theorem not_depthOK_failedSendRun : ∃ s tr,
    Run Session.step OneAnswer Session.init tr s ∧ s.phase = .kevent ∧
      s.conn.state = .limiting ∧ s.timer = false ∧ s.unanswered = 0 ∧ ¬ s.DepthOK := by
  obtain ⟨s, tr, hr, hs⟩ := Run.exists_of_exec Session.step Session.init failedSendRun
    (fun r => (r.1.phase, r.1.conn.state, r.1.timer, r.1.unanswered)) (.kevent, .limiting, false, 0)
    (by decide +kernel) failedSendRun_guarded
  simp only [Prod.mk.injEq] at hs
  obtain ⟨hphase, hstate, htimer, hun⟩ := hs
  refine ⟨s, tr, hr, hphase, hstate, htimer, hun, fun h => ?_⟩
  have hpos := h.limiting hphase hstate
  omega

/-- The run that is served keeps its depth right. -/
theorem depthOK_servedRun : ∃ s tr, Run Session.step OneAnswer Session.init tr s ∧
    s.unanswered = 1 ∧ (s.DepthOK ↔ ∀ status, .sent status ∈ tr → status = 0) := by
  obtain ⟨s, tr, hr, hs⟩ := Run.exists_of_exec Session.step Session.init servedRun
    (fun r => r.1.unanswered) 1 (by decide +kernel) servedRun_guarded
  exact ⟨s, tr, hr, hs, depthOK_iff hr⟩

end Skq.Pingpong
