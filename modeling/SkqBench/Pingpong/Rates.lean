import Mathlib.Data.Rat.Floor
import Mathlib.Tactic.FieldSimp
import SkqBench.Pingpong.ConnIds

/-!
# The rates of master and clients

`prepare_clients` gives the master `master_qps`, or its share of all connections, and divides what is
left of the target rate among the clients.  All of this is `int` arithmetic on what the user asked
for; `ratesOK_iff` says up to which sizes it is right.
-/

namespace Skq.Pingpong

/-- The values of an `int`. -/
def FitsInt (x : ℤ) : Prop := -2 ^ 31 ≤ x ∧ x < 2 ^ 31

instance (x : ℤ) : Decidable (FitsInt x) := inferInstanceAs (Decidable (_ ∧ _))

/-- The connections of the master. -/
def Settings.masterConns (c : Settings) : ℤ := c.options.realConn * c.options.realThread

/-- The connections of all clients. -/
def Settings.clientConns (c : Settings) : ℤ := c.clientIps * c.clientConn * c.clientThreadCount

/-- The results of the `int` operations that lead to the two rates, in order. -/
def Options.intermediates (o : Options) : List ℤ :=
  let master := o.realConn * o.realThread
  let clients := o.clientNum * o.clientConn * o.clientThreadCount
  let share :=
    if o.masterQps ≠ -1 then []
    else [master, o.targetQps * master, o.clientNum * o.clientConn, clients, master + clients]
  share ++ [o.targetQps - o.realQps]

/-- The numbers of the command line are `int`s, and there are no more addresses than arguments. -/
structure Settings.InRange (c : Settings) : Prop where
  clientIps : c.clientIps < 2 ^ 31
  clientThreadCount : c.clientThreadCount < 2 ^ 31
  masterThreadCount : c.masterThreadCount < 2 ^ 31
  clientConn : c.clientConn < 2 ^ 31
  masterConn : c.masterConn < 2 ^ 31
  targetQps : c.targetQps < 2 ^ 31
  masterQps : c.masterQps < 2 ^ 31

/-- What is asked of the rate `r` of the master and the rate `s` of each client: they use up the target
rate but for less than one for each client, the master has what it was given or its share of all
connections, and nothing overflows on the way. -/
structure RatesOK (c : Settings) (r s : ℤ) : Prop where
  master : 0 ≤ r ∧ r ≤ c.targetQps
  client : 0 ≤ s
  split : c.targetQps - c.clientIps < r + c.clientIps * s ∧ r + c.clientIps * s ≤ c.targetQps
  share : r = if c.masterQps ≠ -1 then c.masterQps else
    ⌊(c.targetQps : ℚ) * (c.masterConns / (c.masterConns + c.clientConns))⌋
  fits : ∀ x ∈ c.options.intermediates, FitsInt x

variable {c : Settings} {own : ℕ → Options} {s : Experiment} {o : List (Party × ℤ)} {real : Real}
  {q r n : ℤ}

lemma Settings.masterConns_pos (c : Settings) : 0 < c.masterConns :=
  mul_pos c.realConn_pos c.realThread_pos

lemma Settings.clientConns_pos (c : Settings) : 0 < c.clientConns :=
  mul_pos (mul_pos (by exact_mod_cast c.clientIps_pos) c.clientConn_pos) c.clientThreadCount_pos

/-- What `prepare_clients` computes first. -/
lemma prepare_spec (hs : (Experiment.init c own).step c .prepare = some (s, o))
    (hpc : s.pc = .connecting real) : real.qps = c.options.realQps ∧
      (s.procs .master).options.targetQps = divSize (c.targetQps - c.options.realQps) c.clientIps := by
  simp only [Experiment.step, Experiment.init, if_true] at hs
  cases hs
  cases hpc
  exact ⟨rfl, by rw [Experiment.set_self]; rfl⟩

/-- Division of what fits. -/
lemma divSize_of_fits {x : ℤ} {n : ℕ} (h0 : 0 ≤ x) (hx : x < 2 ^ 31) (hn : 0 < n) :
    divSize x n = x / n := by
  have hle : x / n ≤ x := Int.ediv_le_self _ h0
  have hnonneg : 0 ≤ x / n := Int.ediv_nonneg h0 (by omega)
  rw [divSize, Int.emod_eq_of_lt h0 (by omega), toInt_of_lt hnonneg (by omega)]

/-- The rest of the target rate is used up but for less than one for each client. -/
lemma split_of_div (hn : 0 < n) : q - n < r + n * ((q - r) / n) ∧ r + n * ((q - r) / n) ≤ q := by
  have hdiv := Int.mul_ediv_add_emod (q - r) n
  have hlt := Int.emod_lt_of_pos (q - r) hn
  have hnonneg := Int.emod_nonneg (q - r) hn.ne'
  omega

/-- The share of the master, as a division of integers. -/
lemma floor_share (hm : 0 < c.masterConns + c.clientConns) :
    ⌊(c.targetQps : ℚ) * (c.masterConns / (c.masterConns + c.clientConns))⌋ =
      c.targetQps * c.masterConns / (c.masterConns + c.clientConns) := by
  obtain ⟨t, ht⟩ := Int.eq_ofNat_of_zero_le hm.le
  rw [ht, ← Rat.floor_intCast_div_natCast, ← mul_div_assoc]
  have hcast : (c.masterConns : ℚ) + c.clientConns = t := by exact_mod_cast ht
  rw [hcast]
  push_cast
  rfl

/-- The rate of the master, if nothing overflows. -/
lemma realQps_of_fits (hgiven : c.masterQps = -1) (hprod : c.targetQps * c.masterConns < 2 ^ 31) :
    c.options.realQps = c.targetQps * c.masterConns / (c.masterConns + c.clientConns) := by
  have hnonneg : 0 ≤ c.targetQps * c.masterConns := mul_nonneg c.targetQps_nonneg c.masterConns_pos.le
  have hrate : c.options.realQps = (toInt (c.targetQps * c.masterConns)).tdiv
      (c.masterConns + c.clientConns) := if_neg (by simpa [Settings.options] using hgiven)
  rw [hrate, toInt_of_lt hnonneg hprod, Int.tdiv_eq_ediv_of_nonneg hnonneg]

/-- Rates that leave something to the clients. -/
lemma RatesOK.of_master (hin : c.InRange) (h0 : 0 ≤ c.options.realQps)
    (hle : c.options.realQps ≤ c.targetQps)
    (hshare : c.options.realQps = if c.masterQps ≠ -1 then c.masterQps else
      ⌊(c.targetQps : ℚ) * (c.masterConns / (c.masterConns + c.clientConns))⌋)
    (hfits : ∀ x ∈ c.options.intermediates, FitsInt x) :
    RatesOK c c.options.realQps (divSize (c.targetQps - c.options.realQps) c.clientIps) := by
  have hips : (0 : ℤ) < c.clientIps := by exact_mod_cast c.clientIps_pos
  have hq := hin.targetQps
  rw [divSize_of_fits (by omega) (by omega) c.clientIps_pos]
  exact ⟨⟨h0, hle⟩, Int.ediv_nonneg (by omega) hips.le, split_of_div hips, hshare, hfits⟩

/-- What is left of the target rate fits if the rate of the master does. -/
lemma fitsInt_rest (hin : c.InRange) (h0 : 0 ≤ r) (hle : r ≤ c.targetQps) :
    FitsInt (c.targetQps - r) := by
  have hq := hin.targetQps
  have hnonneg := c.targetQps_nonneg
  rw [FitsInt]
  omega

/-- The intermediate results are at most the two that are the largest. -/
lemma fitsInt_intermediates (hprod : c.targetQps * c.masterConns < 2 ^ 31)
    (hsum : c.masterConns + c.clientConns < 2 ^ 31) :
    ∀ x ∈ [c.masterConns, c.targetQps * c.masterConns, c.clientIps * c.clientConn, c.clientConns,
      c.masterConns + c.clientConns], FitsInt x := by
  have hm := c.masterConns_pos
  have hc := c.clientConns_pos
  have hpnonneg : 0 ≤ c.targetQps * c.masterConns := mul_nonneg c.targetQps_nonneg hm.le
  have hips : 0 ≤ c.clientIps * c.clientConn := mul_nonneg (by omega) c.clientConn_pos.le
  have hpart : c.clientIps * c.clientConn ≤ c.clientConns :=
    le_mul_of_one_le_right hips c.clientThreadCount_pos
  intro x hx
  simp only [List.mem_cons, List.not_mem_nil, or_false] at hx
  rcases hx with rfl | rfl | rfl | rfl | rfl <;> exact ⟨by omega, by omega⟩

/-- **When the rates are right.**  `master_qps` is given, or the product of the target rate and the
connections of the master is an `int`, and so is the number of all connections. -/
theorem ratesOK_iff (hin : c.InRange) (hmaster : c.masterQps = -1 ∨ c.masterQps ≤ c.targetQps)
    (hs : (Experiment.init c own).step c .prepare = some (s, o)) (hpc : s.pc = .connecting real) :
    RatesOK c real.qps (s.procs .master).options.targetQps ↔
      c.masterQps ≠ -1 ∨ c.targetQps * c.masterConns < 2 ^ 31 ∧
        c.masterConns + c.clientConns < 2 ^ 31 := by
  obtain ⟨hr, hrate⟩ := prepare_spec hs hpc
  rw [hr, hrate]
  by_cases hgiven : c.masterQps = -1
  · have hinter : c.options.intermediates = [c.masterConns, c.targetQps * c.masterConns,
        c.clientIps * c.clientConn, c.clientConns, c.masterConns + c.clientConns] ++
        [c.targetQps - c.options.realQps] := by
      rw [Options.intermediates, if_neg (by simpa [Settings.options] using hgiven)]
      rfl
    simp only [hgiven, ne_eq, not_true_eq_false, false_or]
    constructor
    · intro h
      have hfits := h.fits
      rw [hinter] at hfits
      exact ⟨(hfits _ (by simp)).2, (hfits _ (by simp)).2⟩
    · rintro ⟨hprod, hsum⟩
      have hm := c.masterConns_pos
      have hc := c.clientConns_pos
      have hpnonneg : 0 ≤ c.targetQps * c.masterConns := mul_nonneg c.targetQps_nonneg hm.le
      have hreal := realQps_of_fits hgiven hprod
      have h0 : 0 ≤ c.options.realQps := by
        rw [hreal]
        exact Int.ediv_nonneg hpnonneg (by omega)
      have hle : c.options.realQps ≤ c.targetQps := by
        rw [hreal]
        refine Int.ediv_le_of_le_mul (by omega) ?_
        exact mul_le_mul_of_nonneg_left (by omega) c.targetQps_nonneg
      refine RatesOK.of_master hin h0 hle ?_ ?_
      · rw [if_neg (not_not.2 hgiven), floor_share (by omega), hreal]
      · rw [hinter, List.forall_mem_append]
        refine ⟨fitsInt_intermediates hprod hsum, ?_⟩
        simpa using fitsInt_rest hin h0 hle
  · -- the rate of the master is what it was given
    have hgiven' : c.options.masterQps ≠ -1 := hgiven
    have hreal : c.options.realQps = c.masterQps := if_pos hgiven'
    have h0 : 0 ≤ c.options.realQps := by
      rw [hreal]
      exact c.masterQps_nonneg.resolve_left hgiven
    have hle : c.options.realQps ≤ c.targetQps := by
      rw [hreal]
      exact hmaster.resolve_left hgiven
    refine iff_of_true (RatesOK.of_master hin h0 hle ?_ ?_) (.inl hgiven)
    · rw [if_pos hgiven, hreal]
    · have hfits := fitsInt_rest hin h0 hle
      rw [Options.intermediates, if_pos hgiven']
      simpa [Settings.options] using hfits

/-! ## Two experiments -/

/-- An experiment with one client, and one connection in each process. -/
def smallExperiment : Settings where
  clientIps := 1
  clientThreadCount := 1
  masterThreadCount := -1
  clientConn := 1
  masterConn := -1
  targetQps := 1001
  masterQps := -1
  clientIps_pos := Nat.one_pos
  clientThreadCount_pos := Int.one_pos
  masterThreadCount_pos := twoClients.masterThreadCount_pos
  clientConn_pos := Int.one_pos
  masterConn_pos := twoClients.masterConn_pos
  targetQps_nonneg := by decide
  masterQps_nonneg := twoClients.masterQps_nonneg

/-- An experiment with one client, ten threads with a hundred connections in each process, and a target
rate of three million. -/
def largeExperiment : Settings where
  clientIps := 1
  clientThreadCount := 10
  masterThreadCount := -1
  clientConn := 100
  masterConn := -1
  targetQps := 3000000
  masterQps := -1
  clientIps_pos := Nat.one_pos
  clientThreadCount_pos := by decide
  masterThreadCount_pos := twoClients.masterThreadCount_pos
  clientConn_pos := hundredAndOne.clientConn_pos
  masterConn_pos := twoClients.masterConn_pos
  targetQps_nonneg := by decide
  masterQps_nonneg := twoClients.masterQps_nonneg

/-- One half each, and one request per second is lost. -/
theorem ratesOK_smallExperiment : ∃ s o real,
    (Experiment.init smallExperiment fun _ => smallExperiment.options).step smallExperiment .prepare =
        some (s, o) ∧ s.pc = .connecting real ∧ real.qps = 500 ∧
      RatesOK smallExperiment real.qps (s.procs .master).options.targetQps := by
  refine ⟨_, _, _, rfl, rfl, by decide, ?_⟩
  have hin : smallExperiment.InRange :=
    ⟨by decide, by decide, by decide, by decide, by decide, by decide, by decide⟩
  exact (ratesOK_iff hin (.inl rfl) rfl rfl).2 (.inr ⟨by decide, by decide⟩)

/-- **The master gets a negative rate**: the product is 3 * 10 ^ 9. -/
theorem not_ratesOK_largeExperiment : ∃ s o real,
    (Experiment.init largeExperiment fun _ => largeExperiment.options).step largeExperiment .prepare =
        some (s, o) ∧ s.pc = .connecting real ∧ real.qps < 0 ∧
      ¬ RatesOK largeExperiment real.qps (s.procs .master).options.targetQps := by
  refine ⟨_, _, _, rfl, rfl, by decide, fun h => ?_⟩
  exact absurd h.master.1 (by decide)

end Skq.Pingpong
