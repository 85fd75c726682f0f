import SkqBench.Pingpong.Timer

/-!
# One call of the state machine

`kqconn_state_machine` loops over its three states until it returns.  With a clock that does not go
backwards it returns after a bounded number of iterations (`KqConn.rank`), has sent no more requests
than the depth limit allows and none too early, and is left in `STATE_WAITING` or `STATE_LIMITING`
(`callOK`), in which the next call finds it.
-/

namespace Skq.Pingpong

/-- An iteration: the connection before it, what it read, and what was observed. -/
structure Iteration where
  before : KqConn
  input : Inputs
  obs : List ConnObs
  deriving DecidableEq

/-- The first `n` iterations of a call, as long as it goes on; `is k` is read by the `k`-th. -/
def Session.iterations : ℕ → (ℕ → Inputs) → Session → Session × List Iteration
  | 0, _, s => (s, [])
  | n + 1, is, s =>
    if s.phase = .machine then
      match s.iterate (is 0) with
      | none => (s, [])
      | some (s', o) =>
        let r := iterations n (fun k => is (k + 1)) s'
        (r.1, ⟨s.conn, is 0, o⟩ :: r.2)
    else (s, [])

/-- A request is sent. -/
def ConnObs.isSent : ConnObs → Bool
  | .sent _ => true
  | _ => false

namespace Iteration

variable (it : Iteration)

/-- A request is sent. -/
def sends : Bool := it.obs.any ConnObs.isSent

/-- The branch "only STATE_WAITING transfers us to this state", which ends the process. -/
def Fatal : Prop :=
  it.before.state = .sending ∧ it.before.depth < depthLimit ∧
    toInt64 it.input.clock < toInt64 it.before.nextSend

instance : Decidable it.Fatal := inferInstanceAs (Decidable (_ ∧ _))

end Iteration

/-- What is asked of the iterations `its` of a call that began in `s` and ended in `s'`. -/
structure CallOK (s s' : Session) (its : List Iteration) : Prop where
  returns : s'.phase = .kevent ∨
    s'.phase = .exited ∧ ∃ it ∈ its, it.input.armed = false ∨ it.input.send = none
  sends : (its.countP Iteration.sends : ℤ) ≤ depthLimit - s.conn.depth
  early : ∀ it ∈ its, it.sends = true → it.before.nextSend ≤ it.input.clock
  depth : s'.conn.depth ≤ depthLimit
  fatal : ∀ it ∈ its, ¬ it.Fatal
  state : s'.phase = .kevent → s'.conn.state ≠ .sending

/-- The clock does not go back below `clk`, and the generator gives numbers of microseconds. -/
structure Timely (clk : ℤ) (is : ℕ → Inputs) : Prop where
  first : clk ≤ (is 0).clock
  mono : ∀ k, (is k).clock ≤ (is (k + 1)).clock
  clock : ∀ k, (is k).clock < 2 ^ 63
  gen : ∀ k, 0 ≤ (is k).gen ∧ (is k).gen < 2 ^ 31

/-- A connection of which the machine was in charge at time `clk`: it is in `STATE_SENDING` only if it
may send. -/
structure KqConn.Steady (conn : KqConn) (clk : ℤ) : Prop where
  depth : conn.depth ≤ depthLimit
  nonneg : 0 ≤ conn.nextSend
  near : conn.nextSend < 2 ^ 63 + clk
  sending : conn.state = .sending → conn.nextSend ≤ clk

/-- How many iterations there can be. -/
def KqConn.rank (conn : KqConn) : ℕ :=
  if conn.depth < depthLimit then
    3 * (depthLimit - conn.depth).toNat +
      match conn.state with
      | .limiting => 3
      | .waiting => 2
      | .sending => 1
  else
    match conn.state with
    | .waiting => 3
    | .sending => 2
    | .limiting => 1

variable {s s' : Session} {is : ℕ → Inputs} {i : Inputs} {clk : ℤ} {o : List ConnObs}

lemma Timely.tail (h : Timely clk is) : Timely (is 0).clock fun k => is (k + 1) :=
  ⟨h.mono 0, fun k => h.mono (k + 1), fun k => h.clock (k + 1), fun k => h.gen (k + 1)⟩

lemma toInt64_of_lt {x : ℤ} (h0 : -2 ^ 63 ≤ x) (h : x < 2 ^ 63) : toInt64 x = x := by
  rw [toInt64, Int.bmod_eq_of_le (by omega) (by omega)]

/-- How an iteration leaves the call, or goes on. -/
inductive Outcome (s : Session) (i : Inputs) (s' : Session) (o : List ConnObs) : Prop
  | returns (hphase : s'.phase = .kevent) (hstate : s'.conn.state ≠ .sending)
      (hdepth : s'.conn.depth = s.conn.depth) (ho : Iteration.sends ⟨s.conn, i, o⟩ = false)
  | exits (hphase : s'.phase = .exited) (hwhy : i.armed = false ∨ i.send = none)
      (hdepth : s'.conn.depth = s.conn.depth) (ho : Iteration.sends ⟨s.conn, i, o⟩ = false)
  | moves (hphase : s'.phase = .machine) (hsteady : s'.conn.Steady i.clock)
      (hrank : s'.conn.rank < s.conn.rank) (hdepth : s'.conn.depth = s.conn.depth)
      (ho : Iteration.sends ⟨s.conn, i, o⟩ = false)
  | sends (hphase : s'.phase = .machine) (hsteady : s'.conn.Steady i.clock)
      (hrank : s'.conn.rank < s.conn.rank) (hdepth : s'.conn.depth = s.conn.depth + 1)
      (ho : Iteration.sends ⟨s.conn, i, o⟩ = true) (hnext : s.conn.nextSend ≤ i.clock)

/-- A connection in `STATE_SENDING` is not early. -/
lemma KqConn.Steady.not_fatal {conn : KqConn} (h : conn.Steady clk) (hclk : clk ≤ i.clock)
    (hmax : i.clock < 2 ^ 63) : ¬ Iteration.Fatal ⟨conn, i, o⟩ := by
  rintro ⟨hstate, -, hlt⟩
  have hle := h.sending hstate
  have hnonneg := h.nonneg
  change toInt64 i.clock < toInt64 conn.nextSend at hlt
  rw [toInt64_of_lt (by omega) hmax, toInt64_of_lt (by omega) (by omega)] at hlt
  omega

/-- **One iteration.** -/
lemma iterate_steady (hphase : s.phase = .machine) (h : s.conn.Steady clk) (h0 : 0 ≤ clk)
    (hclk : clk ≤ i.clock) (hmax : i.clock < 2 ^ 63) (hgen : 0 ≤ i.gen ∧ i.gen < 2 ^ 31) :
    ∃ s' o, s.iterate i = some (s', o) ∧ Outcome s i s' o := by
  have hdepth := h.depth
  have hnonneg := h.nonneg
  have hnear := h.near
  simp only [Session.iterate]
  cases hstate : s.conn.state with
  | waiting =>
    have hnow : toInt64 (s.conn.nextSend - i.clock) = s.conn.nextSend - i.clock :=
      toInt64_of_lt (by omega) (by omega)
    simp only [hnow]
    split
    · split
      · split
        · exact ⟨_, _, rfl, .returns rfl (by simp) rfl rfl⟩
        · next harmed => exact ⟨_, _, rfl, .exits rfl (.inl (by simpa using harmed)) rfl rfl⟩
      · exact ⟨_, _, rfl, .returns rfl (by simp [hstate]) rfl rfl⟩
    · next hpast =>
      have hdue : s.conn.nextSend ≤ i.clock := by omega
      have hnear' : s.conn.nextSend < 2 ^ 63 + i.clock := by omega
      refine ⟨_, _, rfl, .moves hphase ⟨hdepth, hnonneg, hnear', fun _ => hdue⟩ ?_ rfl rfl⟩
      simp only [KqConn.rank, hstate]
      split <;> omega
  | limiting =>
    simp only
    split
    · exact ⟨_, _, rfl, .returns rfl (by simp [hstate]) rfl rfl⟩
    · next hlimit =>
      have hnear' : s.conn.nextSend < 2 ^ 63 + i.clock := by omega
      refine ⟨_, _, rfl, .moves hphase ⟨hdepth, hnonneg, hnear', by simp⟩ ?_ rfl rfl⟩
      simp only [KqConn.rank, hstate]
      split <;> omega
  | sending =>
    have hle := h.sending hstate
    simp only
    split
    · have hnear' : s.conn.nextSend < 2 ^ 63 + i.clock := by omega
      refine ⟨_, _, rfl, .moves hphase ⟨hdepth, hnonneg, hnear', by simp⟩ ?_ rfl rfl⟩
      simp only [KqConn.rank, hstate]
      split <;> omega
    · next hlimit =>
      have hnow : toInt64 i.clock = i.clock := toInt64_of_lt (by omega) hmax
      have hnext : toInt64 s.conn.nextSend = s.conn.nextSend := toInt64_of_lt (by omega) (by omega)
      have hsum : toUint64 (s.conn.nextSend + i.gen) = s.conn.nextSend + i.gen :=
        Int.emod_eq_of_lt (by omega) (by omega)
      rw [hnow, hnext, if_neg (by omega), hsum]
      cases hsend : i.send with
      | none => exact ⟨_, _, rfl, .exits rfl (.inr hsend) rfl rfl⟩
      | some status =>
        refine ⟨_, _, rfl, .sends hphase ⟨?_, ?_, ?_, ?_⟩ ?_ rfl rfl (by omega)⟩
        · simp
          omega
        · simp
          omega
        · simp
          omega
        · simp
        · simp only [KqConn.rank, hstate]
          split <;> split <;> omega

/-! ## The whole call -/

lemma iterations_of_returned (h : s.phase ≠ .machine) : ∀ n, s.iterations n is = (s, [])
  | 0 => rfl
  | n + 1 => by rw [Session.iterations, if_neg h]

lemma iterations_succ {n : ℕ} (hphase : s.phase = .machine) (hs : s.iterate (is 0) = some (s', o)) :
    s.iterations (n + 1) is = ((s'.iterations n fun k => is (k + 1)).1,
      ⟨s.conn, is 0, o⟩ :: (s'.iterations n fun k => is (k + 1)).2) := by
  rw [Session.iterations, if_pos hphase]
  simp only [hs]

lemma KqConn.rank_pos (conn : KqConn) : 0 < conn.rank := by
  rw [KqConn.rank]
  split <;> split <;> omega

/-- An iteration before a call that goes on. -/
lemma CallOK.cons {s'' : Session} {its : List Iteration} (h : CallOK s' s'' its)
    (hfatal : ¬ Iteration.Fatal ⟨s.conn, i, o⟩)
    (hdepth : s'.conn.depth = s.conn.depth + if Iteration.sends ⟨s.conn, i, o⟩ then 1 else 0)
    (hearly : Iteration.sends ⟨s.conn, i, o⟩ = true → s.conn.nextSend ≤ i.clock) :
    CallOK s s'' (⟨s.conn, i, o⟩ :: its) := by
  have hsends := h.sends
  refine ⟨?_, ?_, List.forall_mem_cons.2 ⟨hearly, h.early⟩, h.depth,
    List.forall_mem_cons.2 ⟨hfatal, h.fatal⟩, h.state⟩
  · rcases h.returns with hret | ⟨hret, it, hit, hwhy⟩
    · exact .inl hret
    · exact .inr ⟨hret, it, List.mem_cons_of_mem _ hit, hwhy⟩
  · cases ho : Iteration.sends ⟨s.conn, i, o⟩ with
    | false =>
      rw [List.countP_cons_of_neg (by simpa using ho)]
      simp [ho] at hdepth
      omega
    | true =>
      rw [List.countP_cons_of_pos ho]
      simp [ho] at hdepth
      push_cast
      omega

/-- A call that ends with this iteration. -/
lemma CallOK.last (hret : s'.phase = .kevent ∧ s'.conn.state ≠ .sending ∨
      s'.phase = .exited ∧ (i.armed = false ∨ i.send = none))
    (hfatal : ¬ Iteration.Fatal ⟨s.conn, i, o⟩) (hle : s.conn.depth ≤ depthLimit)
    (hdepth : s'.conn.depth = s.conn.depth) (ho : Iteration.sends ⟨s.conn, i, o⟩ = false) :
    CallOK s s' [⟨s.conn, i, o⟩] := by
  refine ⟨?_, ?_, by simp [ho], by omega, by simpa using hfatal, fun hphase => ?_⟩
  · rcases hret with ⟨hphase, -⟩ | ⟨hphase, hwhy⟩
    · exact .inl hphase
    · exact .inr ⟨hphase, _, List.mem_singleton_self _, hwhy⟩
  · simp [ho]
    omega
  · rcases hret with ⟨-, hstate⟩ | ⟨hexit, -⟩
    · exact hstate
    · rw [hphase] at hexit
      cases hexit

/-- The call has returned after as many iterations as the rank of the connection. -/
lemma iterations_ok (n : ℕ) (hphase : s.phase = .machine) (h : s.conn.Steady clk) (h0 : 0 ≤ clk)
    (his : Timely clk is) (hrank : s.conn.rank ≤ n) :
    CallOK s (s.iterations n is).1 (s.iterations n is).2 := by
  induction n generalizing s is clk with
  | zero =>
    have hpos := s.conn.rank_pos
    omega
  | succ n ih =>
    have hfirst := his.first
    obtain ⟨s', o, hs, hout⟩ := iterate_steady hphase h h0 his.first (his.clock 0) (his.gen 0)
    have hfatal : ¬ Iteration.Fatal ⟨s.conn, is 0, o⟩ := h.not_fatal his.first (his.clock 0)
    rw [iterations_succ hphase hs]
    cases hout with
    | returns hphase' hstate hdepth ho =>
      rw [iterations_of_returned (by simp [hphase'])]
      exact .last (.inl ⟨hphase', hstate⟩) hfatal h.depth hdepth ho
    | exits hphase' hwhy hdepth ho =>
      rw [iterations_of_returned (by simp [hphase'])]
      exact .last (.inr ⟨hphase', hwhy⟩) hfatal h.depth hdepth ho
    | moves hphase' hsteady hrank' hdepth ho =>
      refine (ih hphase' hsteady (by omega) his.tail (by omega)).cons hfatal ?_ ?_
      · simpa [ho] using hdepth
      · simp [ho]
    | sends hphase' hsteady hrank' hdepth ho hnext =>
      refine (ih hphase' hsteady (by omega) his.tail (by omega)).cons hfatal ?_ fun _ => hnext
      simpa [ho] using hdepth

lemma KqConn.rank_le (conn : KqConn) (h : conn.depth ≤ depthLimit) :
    (conn.rank : ℤ) ≤ 3 * (depthLimit - conn.depth) + 3 := by
  rw [KqConn.rank]
  split <;> split <;> omega

/-- **One call of the state machine** returns after at most `3 * (depth_limit - depth) + 3` iterations:
it waits, or the process has ended because the timer was refused or the request could not be
serialized.  It sends at most `depth_limit - depth` requests, none before `next_send`, and reaches
neither of its fatal branches. -/
theorem callOK (hphase : s.phase = .machine) (hdepth : 0 ≤ s.conn.depth ∧ s.conn.depth ≤ depthLimit)
    (hnext : 0 ≤ s.conn.nextSend ∧ s.conn.nextSend < 2 ^ 63)
    (hstate : s.conn.state = .sending → s.conn.nextSend ≤ (is 0).clock) (his : Timely 0 is) :
    ∃ n : ℕ, n ≤ 3 * (depthLimit - s.conn.depth) + 3 ∧
      CallOK s (s.iterations n is).1 (s.iterations n is).2 := by
  refine ⟨s.conn.rank, s.conn.rank_le hdepth.2, ?_⟩
  have hfirst := his.first
  have hsteady : s.conn.Steady (is 0).clock := ⟨hdepth.2, hnext.1, by omega, hstate⟩
  have htimely : Timely (is 0).clock is := ⟨Int.le_refl _, his.mono, his.clock, his.gen⟩
  exact iterations_ok _ hphase hsteady hfirst htimely (Nat.le_refl _)

/-- A connection in the given state, at depth 0. -/
def atDepthZero (state : ConnState) (nextSend : ℤ) : Session :=
  { Session.init with conn := ⟨true, 0, state, nextSend, 0⟩, phase := .machine }

/-- The timer has expired in time: one request is sent. -/
theorem callOK_due : ∃ n : ℕ, n ≤ 3 * (depthLimit - 0) + 3 ∧
    CallOK (atDepthZero .waiting 5) ((atDepthZero .waiting 5).iterations n fun _ => calm 5).1
      ((atDepthZero .waiting 5).iterations n fun _ => calm 5).2 :=
  @callOK (atDepthZero .waiting 5) (fun _ => calm 5) rfl (by decide) (by decide) (by decide)
    ⟨by decide, fun _ => Int.le_refl _, fun _ => by decide, fun _ => by decide⟩

/-- **A call that begins in `STATE_SENDING`** before `next_send` ends the process, and one that begins
in `STATE_WAITING` with a `next_send` of `2 ^ 63` microseconds or more may send before it. -/
theorem not_callOK_atDepthZero :
    (¬ ∃ n, CallOK (atDepthZero .sending 10)
      ((atDepthZero .sending 10).iterations n fun _ => calm 0).1
      ((atDepthZero .sending 10).iterations n fun _ => calm 0).2) ∧
    ¬ ∃ n, CallOK (atDepthZero .waiting (2 ^ 63 + 5))
      ((atDepthZero .waiting (2 ^ 63 + 5)).iterations n fun _ => calm 0).1
      ((atDepthZero .waiting (2 ^ 63 + 5)).iterations n fun _ => calm 0).2 := by
  constructor
  · rintro ⟨n, h⟩
    cases n with
    | zero =>
      have hret := h.returns
      simp [Session.iterations, atDepthZero] at hret
    | succ n =>
      refine h.fatal ⟨(atDepthZero .sending 10).conn, calm 0, []⟩ ?_ (by decide)
      rw [iterations_succ rfl rfl]
      exact List.mem_cons_self
  · rintro ⟨n, h⟩
    rcases n with _ | _ | n
    · have hret := h.returns
      simp [Session.iterations, atDepthZero] at hret
    · have hret := h.returns
      rw [iterations_succ rfl rfl] at hret
      simp [Session.iterations, atDepthZero, Session.init] at hret
    · have hearly := h.early
      rw [iterations_succ rfl rfl, iterations_succ rfl rfl] at hearly
      have hsend := hearly _ (List.mem_cons_of_mem _ List.mem_cons_self) rfl
      revert hsend
      decide

end Skq.Pingpong
