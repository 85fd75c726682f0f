import SkqBench.Pingpong.Completion

/-!
# What the values measure

There is one `last_send` for a connection, and one request at a time: whatever the order of the events,
the value that is appended for a response belongs to the request of that response (`latencyOK_of_run`).
The counter of a thread is the number of its values as long as that is an `int`.
-/

namespace Skq.Pingpong

open Lib

variable {ι : Type*} [DecidableEq ι] {cfg : ThreadCfg} {w : WorkerThread ι} {tr : List (ThreadObs ι)}
  {start lastSend : ι → ℤ} {io₀ : ι → Io}

/-- What is asked of the values, where the `k`-th response on a connection answers the `k`-th request
that was completely written to it.
* `response`: the `k`-th answer that is counted on a connection has read the `k`-th response.
* `value`: its value is what the clock says at its receipt, less what it said when the `k`-th request
  was sent.
* `one`: a value is appended for each answer after the warm-up, unless in client mode.
* `appended`: these are the values, in order.
* `counted`: without client mode there are as many as the counter says, if an `int` can say it. -/
structure LatencyOK (cfg : ThreadCfg) (w : WorkerThread ι) (tr : List (ThreadObs ι)) : Prop where
  response : ∀ c, (donesIn (ofConn c tr)).length = (readsIn (ofConn c tr)).length ∧
    readsIn (ofConn c tr) <+: responsesIn (ofConn c tr)
  value : ∀ c (k : ℕ) x, (donesIn (ofConn c tr))[k]? = some x → ∃ clock,
    (sendsIn (ofConn c tr))[k]? = some clock ∧ ∀ v ∈ x.lat, v = toUint64 (x.clock - clock) ∧
      (clock ≤ x.clock → x.clock < clock + 2 ^ 64 → v = x.clock - clock)
  one : ∀ x ∈ donesIn tr, x.lat.isSome = (x.warm && !cfg.clientMode)
  appended : w.stats = (donesIn tr).filterMap Done.lat
  counted : cfg.clientMode = false → w.stats.length < 2 ^ 31 → w.cnt = w.stats.length

/-- There is a value for each answer after the warm-up. -/
lemma length_lat {l : List Done} (hmode : cfg.clientMode = false)
    (h : ∀ x ∈ l, x.lat.isSome = (x.warm && !cfg.clientMode)) :
    (l.filterMap Done.lat).length = l.countP Done.warm := by
  induction l with
  | nil => rfl
  | cons x l ih =>
    have hx := h x List.mem_cons_self
    have hl := ih fun y hy => h y (List.mem_cons_of_mem _ hy)
    rw [hmode, Bool.not_false, Bool.and_true] at hx
    cases hlat : x.lat with
    | none =>
      have hwarm : ¬ x.warm = true := by simp [← hx, hlat]
      rw [List.filterMap_cons_none hlat, List.countP_cons_of_neg hwarm, hl]
    | some v =>
      have hwarm : x.warm = true := by simp [← hx, hlat]
      rw [List.filterMap_cons_some hlat, List.countP_cons_of_pos hwarm, List.length_cons, hl]

omit [DecidableEq ι] in
/-- A framed response needs no assumption. -/
lemma readsWhole_of_framed (hframed : cfg.workload ≠ .http) (l : ThreadLabel ι) :
    ReadsWhole cfg w l := by
  cases l with
  | readEvent => exact fun hhttp => absurd hhttp hframed
  | answer | arrive | timerEvent | eof | iterate | stop => trivial

/-- **Each value is the latency of a request.**  In every run of a framed workload, for all connections
of a thread and whatever the order of the events. -/
theorem latencyOK_of_run (hframed : cfg.workload ≠ .http)
    (hr : Run (WorkerThread.step cfg) anyStep (.init start lastSend io₀) tr w) : LatencyOK cfg w tr := by
  have h := WorkerThread.inv_of_run (fun w l _ => readsWhole_of_framed (w := w) hframed l) hr
  refine ⟨fun c => ⟨(h.flow c).done, ?_⟩, fun c k x hx => ?_, h.lat, h.stats, fun hmode hlt => ?_⟩
  · obtain ⟨pending, hsplit, -⟩ := (h.flow c).split
    exact ⟨pending, hsplit.symm⟩
  · obtain ⟨clock, hclock, hv⟩ := (h.flow c).lat k x hx
    refine ⟨clock, hclock, fun v hmem => ⟨hv v hmem, fun hle hlt => ?_⟩⟩
    rw [hv v hmem, toUint64, Int.emod_eq_of_lt (by omega) (by omega)]
  · have hlen := length_lat hmode h.lat
    rw [← h.stats] at hlen
    rw [h.counted, ← hlen, toInt_of_lt (by omega) (by omega)]

/-! ## A run as long as one likes -/

/-- The workload `echo`, without client mode. -/
def echoCfg : ThreadCfg := ⟨.echo, idlePb, 0, false⟩

/-- The next request is due at once. -/
def due : Inputs := ⟨0, 0, some 0, true⟩

/-- The thread waits for the response to its request. -/
def WorkerThread.Waits (w : WorkerThread Unit) : Prop :=
  ∃ mem tx sends cnt stats, w = ⟨fun _ =>
    ⟨⟨true, 1, .limiting, 0, 0⟩, false, ⟨mem, [], tx, fun _ => 4, sends⟩, [], 1⟩, .kevent, cnt, stats⟩

/-- The first request is sent. -/
def firstRun : List (ThreadLabel Unit) :=
  [.timerEvent (), .iterate due, .iterate due, .iterate due, .iterate due, .iterate due]

/-- The response arrives, and the next request is sent. -/
def nextRun : List (ThreadLabel Unit) :=
  [.answer () [], .arrive () 4, .readEvent () 0 true 0, .iterate due, .iterate due, .iterate due,
    .iterate due, .iterate due, .iterate due]

/-- Each response is followed by the next request. -/
lemma WorkerThread.Waits.next {w : WorkerThread Unit} (h : w.Waits) :
    ∃ w' tr, Run (WorkerThread.step echoCfg) anyStep w tr w' ∧ w'.Waits ∧
      donesIn tr = [⟨0, true, some 0⟩] := by
  obtain ⟨mem, tx, sends, cnt, stats, rfl⟩ := h
  refine ⟨_, _, .of_exec_any (show exec _ _ nextRun = some (_, _) from rfl), ?_, rfl⟩
  exact ⟨_, _, _, _, _, by congr⟩

lemma exists_run_waits (n : ℕ) : ∃ w tr, Run (WorkerThread.step echoCfg) anyStep oneConn tr w ∧
    w.Waits ∧ donesIn tr = List.replicate n ⟨0, true, some 0⟩ := by
  induction n with
  | zero =>
    refine ⟨_, _, .of_exec_any (show exec _ _ firstRun = some (_, _) from rfl), ?_, rfl⟩
    exact ⟨_, _, _, _, _, by congr⟩
  | succ n ih =>
    obtain ⟨w, tr, hr, hw, hdones⟩ := ih
    obtain ⟨w', tr', hr', hw', hdone⟩ := hw.next
    refine ⟨w', tr ++ tr', hr.append hr', hw', ?_⟩
    rw [List.replicate_succ', ← hdones, ← hdone]
    exact List.filterMap_append

/-- Two responses, with the value 0 each. -/
theorem latencyOK_two : ∃ w tr, Run (WorkerThread.step echoCfg) anyStep oneConn tr w ∧
    w.stats = [0, 0] ∧ LatencyOK echoCfg w tr := by
  obtain ⟨w, tr, hr, -, hdones⟩ := exists_run_waits 2
  have hok : LatencyOK echoCfg w tr := latencyOK_of_run (by decide) hr
  exact ⟨w, tr, hr, by rw [hok.appended, hdones]; rfl, hok⟩

/-- **The counter overflows**: with `2 ^ 31` values it is negative. -/
theorem cnt_ne_length_of_run : ∃ w tr, Run (WorkerThread.step echoCfg) anyStep oneConn tr w ∧
    w.stats.length = 2 ^ 31 ∧ w.cnt = -2 ^ 31 ∧ w.cnt ≠ w.stats.length := by
  obtain ⟨w, tr, hr, -, hdones⟩ := exists_run_waits (2 ^ 31)
  have hframed : echoCfg.workload ≠ .http := by decide
  have h := WorkerThread.inv_of_run (fun w l _ => readsWhole_of_framed (w := w) hframed l) hr
  have hlen : w.stats.length = 2 ^ 31 := by
    rw [h.stats, @length_lat echoCfg _ rfl h.lat, hdones, List.countP_replicate]
    rfl
  have hcnt : w.cnt = -2 ^ 31 := by
    rw [h.counted, hdones, List.countP_replicate]
    decide
  refine ⟨w, tr, hr, hlen, hcnt, ?_⟩
  rw [hlen, hcnt]
  decide

end Skq.Pingpong
