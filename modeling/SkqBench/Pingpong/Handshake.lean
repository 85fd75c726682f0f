import Mathlib.Algebra.BigOperators.Group.Finset.Piecewise
import SkqBench.Pingpong.Control

/-!
# The control protocol comes to its end

To the master every client is in a stage, and the stage leaves few possibilities for what the client
does and what is under way between the two (`Link`).  As long as the timer event is not taken for a
message, every step either changes nothing or brings the protocol nearer to its end (`Control.rank`).
-/

namespace Skq.Pingpong

open Lib

/-- A client as the master sees it: not connected, connected, with its OK read, with START sent, with
STOP sent, with its count read and the ACK sent, closed. -/
inductive Stage
  | fresh | asked | ready | started | stopping | counted | gone
  deriving DecidableEq, Repr

/-- What a stage leaves open: the phase of the client, and the messages to it and from it. -/
inductive Link (qps : ℤ) : Stage → ClientPhase → List CtlMsg → List ℤ → Prop
  | fresh : Link qps .fresh .prepare [] []
  | options : Link qps .asked .prepare [.options] []
  | connect : Link qps .asked .connect [] []
  | ok : Link qps .asked .start [] [msgTestOk]
  | ready : Link qps .ready .start [] []
  | start : Link qps .started .start [.int msgTestStart] []
  | running : Link qps .started .running [] []
  | startStop : Link qps .stopping .start [.int msgTestStart, .int msgTestStop] []
  | stop : Link qps .stopping .running [.int msgTestStop] []
  | sendQps : Link qps .stopping .sendQps [] []
  | qps : Link qps .stopping .ack [] [qps]
  | ack : Link qps .counted .ack [.int msgTestQpsAck] []
  | closing : Link qps .counted .closing [] []
  | closed : Link qps .counted .closed [] []
  | gone : Link qps .gone .closed [] []

/-- The count of the client is read. -/
def Stage.isRead : Stage → Bool
  | counted => true
  | gone => true
  | _ => false

/-- The number of clients in a stage that satisfies `p`. -/
def stagesWith (n : ℕ) (p : Stage → Bool) (st : ℕ → Stage) : ℕ :=
  ∑ i ∈ Finset.range n, if p (st i) then 1 else 0

/-- The sum of the counts that are read. -/
def sumRead (c : ControlCfg) (st : ℕ → Stage) : ℤ :=
  ∑ i ∈ Finset.range c.clientNum, if (st i).isRead then (c.clientQps i : ℤ) else 0

/-- The stages of the clients in a phase of the master. -/
def MasterPhase.OK (c : ControlCfg) (st : ℕ → Stage) : MasterPhase → Prop
  | connecting k => k ≤ c.clientNum ∧ ∀ i < c.clientNum, st i = if i < k then .asked else .fresh
  | threads => ∀ i < c.clientNum, st i = .asked
  | waitOk acked => acked.Nodup ∧ (∀ i ∈ acked, i < c.clientNum) ∧
      ∀ i < c.clientNum, st i = if i ∈ acked then .ready else .asked
  | sendStart k => k ≤ c.clientNum ∧ ∀ i < c.clientNum, st i = if i < k then .started else .ready
  | running _ => ∀ i < c.clientNum, st i = .started
  | sendStop k => k ≤ c.clientNum ∧ ∀ i < c.clientNum, st i = if i < k then .stopping else .started
  | recvQps tot qps => (∀ i < c.clientNum, st i = .stopping ∨ st i = .counted) ∧
      tot = stagesWith c.clientNum Stage.isRead st ∧ qps = sumRead c st
  | waitClose stopCnt qps => (∀ i < c.clientNum, st i = .counted ∨ st i = .gone) ∧
      stopCnt = stagesWith c.clientNum (· == .gone) st ∧ qps = sumRead c st
  | done qps => (∀ i < c.clientNum, st i = .gone) ∧ qps = Control.sumQps c
  | failed => False

namespace Control

/-- The processes and the connections agree with the stages. -/
structure Linked (c : ControlCfg) (s : Control) (st : ℕ → Stage) : Prop where
  master : s.master.OK c st
  outside : ∀ i, c.clientNum ≤ i → st i = .fresh
  link : ∀ i, Link (c.clientQps i) (st i) (s.client i) (s.toClient i) (s.toMaster i)
  fd : ∀ i, s.clientFd i = true ↔ st i ≠ .gone

/-- The history agrees with the stages. -/
structure Told (c : ControlCfg) (s : Control) (st : ℕ → Stage) (tr : List CtlObs) : Prop where
  noTimer : ∀ p, .tookTimer p ∉ tr
  noExit : ∀ p, .exit p ∉ tr
  counts : ∀ i, countsOf i tr = if (st i).isRead then [(c.clientQps i : ℤ)] else []
  acked : ∀ i, s.client i = .closing → .readAck i ∈ tr
  ack : ∀ i, Precedes (· = .readAck i) (· = .closed i) tr
  total : ∀ qps, .total qps ∈ tr → s.master = .done qps

end Control

/-! ## What the phase of a client says -/

section Links

variable {qps : ℤ} {x : Stage} {lc : List CtlMsg} {lm : List ℤ} {rest : List CtlMsg}

lemma Link.of_prepare (h : Link qps x .prepare (.options :: rest) lm) :
    x = .asked ∧ rest = [] ∧ lm = [] := by
  cases h
  exact ⟨rfl, rfl, rfl⟩

lemma Link.of_connect (h : Link qps x .connect lc lm) : x = .asked ∧ lc = [] ∧ lm = [] := by
  cases h
  exact ⟨rfl, rfl, rfl⟩

lemma Link.of_sendQps (h : Link qps x .sendQps lc lm) : x = .stopping ∧ lc = [] ∧ lm = [] := by
  cases h
  exact ⟨rfl, rfl, rfl⟩

lemma Link.of_closing (h : Link qps x .closing lc lm) : x = .counted ∧ lc = [] ∧ lm = [] := by
  cases h
  exact ⟨rfl, rfl, rfl⟩

/-- A message the client waits for is the next one, if there is one. -/
lemma Link.of_start (h : Link qps x .start lc lm) : (x ≠ .fresh ∧ x ≠ .gone) ∧
    (lc = [] ∨ lc.head? = some (.int msgTestStart) ∧ Link qps x .running lc.tail lm) := by
  cases h
  · exact ⟨by simp, .inl rfl⟩
  · exact ⟨by simp, .inl rfl⟩
  · exact ⟨by simp, .inr ⟨rfl, .running⟩⟩
  · exact ⟨by simp, .inr ⟨rfl, .stop⟩⟩

lemma Link.of_running (h : Link qps x .running lc lm) : (x ≠ .fresh ∧ x ≠ .gone) ∧
    (lc = [] ∨ lc.head? = some (.int msgTestStop) ∧ Link qps x .sendQps lc.tail lm) := by
  cases h
  · exact ⟨by simp, .inl rfl⟩
  · exact ⟨by simp, .inr ⟨rfl, .sendQps⟩⟩

lemma Link.of_ack (h : Link qps x .ack lc lm) : (x ≠ .fresh ∧ x ≠ .gone) ∧
    (lc = [] ∨ lc.head? = some (.int msgTestQpsAck) ∧ Link qps x .closing lc.tail lm) := by
  cases h
  · exact ⟨by simp, .inl rfl⟩
  · exact ⟨by simp, .inr ⟨rfl, .closing⟩⟩

end Links

/-! ## Sums over the clients -/

section Sums

variable {n : ℕ} {p : Stage → Bool} {st : ℕ → Stage} {i : ℕ} {x : Stage} {c : ControlCfg}

lemma stagesWith_update (st : ℕ → Stage) (hi : i < n) :
    stagesWith n p (Function.update st i x) + (if p (st i) then 1 else 0) =
      stagesWith n p st + if p x then 1 else 0 := by
  have hsum := sum_move (f := fun j => if p (st j) then 1 else 0)
    (g := fun j => if p (Function.update st i x j) then 1 else 0) (Finset.mem_range.2 hi)
    fun j _ hj => by simp only [Function.update_of_ne hj]
  rw [Function.update_self] at hsum
  exact hsum

lemma sumRead_update (hi : i < c.clientNum) (hst : (st i).isRead = false) (hx : x.isRead = true) :
    sumRead c (Function.update st i x) = sumRead c st + c.clientQps i := by
  have hsum := sum_move (f := fun j => if (st j).isRead then (c.clientQps j : ℤ) else 0)
    (g := fun j => if (Function.update st i x j).isRead then (c.clientQps j : ℤ) else 0)
    (Finset.mem_range.2 hi) fun j _ hj => by simp only [Function.update_of_ne hj]
  rw [Function.update_self, hst, hx] at hsum
  simpa [sumRead] using hsum

lemma sumRead_congr {st' : ℕ → Stage} (h : ∀ i < c.clientNum, (st' i).isRead = (st i).isRead) :
    sumRead c st' = sumRead c st :=
  Finset.sum_congr rfl fun i hi => by rw [h i (Finset.mem_range.1 hi)]

/-- No more is read than there is. -/
lemma sumRead_le : sumRead c st + c.masterQps ≤ Control.sumQps c := by
  have hle : sumRead c st ≤ ∑ i ∈ Finset.range c.clientNum, (c.clientQps i : ℤ) :=
    Finset.sum_le_sum fun i _ => by
      split
      · exact le_rfl
      · exact Int.natCast_nonneg _
  rw [Control.sumQps]
  omega

lemma sumRead_nonneg : 0 ≤ sumRead c st := Finset.sum_nonneg fun i _ => by
  split
  · exact Int.natCast_nonneg _
  · exact le_rfl

/-- Everything is read. -/
lemma sumRead_full (h : ∀ i < c.clientNum, (st i).isRead = true) :
    c.masterQps + sumRead c st = Control.sumQps c := by
  rw [sumRead, Control.sumQps, Finset.sum_congr rfl fun i hi => by rw [h i (Finset.mem_range.1 hi)]]
  simp

lemma stagesWith_eq_card : stagesWith n p st = {i ∈ Finset.range n | p (st i)}.card :=
  (Finset.card_filter ..).symm

/-- Not all clients are counted, so one is left. -/
lemma exists_of_stagesWith_lt (h : stagesWith n p st < n) : ∃ i < n, p (st i) = false := by
  by_contra hnone
  have hall : ∀ i ∈ Finset.range n, p (st i) = true := fun i hi => by
    by_contra hi'
    exact hnone ⟨i, Finset.mem_range.1 hi, by simpa using hi'⟩
  rw [stagesWith_eq_card, Finset.filter_true_of_mem hall, Finset.card_range] at h
  exact lt_irrefl _ h

/-- All clients are counted. -/
lemma forall_of_stagesWith_ge (h : n ≤ stagesWith n p st) : ∀ i < n, p (st i) = true := by
  intro i hi
  rw [stagesWith_eq_card] at h
  have heq := Finset.eq_of_subset_of_card_le (Finset.filter_subset (fun i => p (st i)) _)
    ((Finset.card_range n).le.trans h)
  have hmem : i ∈ ({i ∈ Finset.range n | p (st i)} : Finset ℕ) := by
    rw [heq]
    exact Finset.mem_range.2 hi
  exact (Finset.mem_filter.1 hmem).2

end Sums

/-! ## How far it is to the end -/

/-- The ticks of the master's loop. -/
def ControlCfg.ticks (c : ControlCfg) : ℕ := (c.duration + c.warmup).toNat

/-- The steps the master still takes, at most. -/
def MasterPhase.rank (c : ControlCfg) : MasterPhase → ℕ
  | connecting k => 8 + 5 * c.clientNum + c.ticks + (c.clientNum - k)
  | threads => 7 + 5 * c.clientNum + c.ticks
  | waitOk acked => 6 + 4 * c.clientNum + c.ticks + (c.clientNum - acked.length)
  | sendStart k => 5 + 3 * c.clientNum + c.ticks + (c.clientNum - k)
  | running curTime => 4 + 3 * c.clientNum + (c.ticks - curTime)
  | sendStop k => 3 + 2 * c.clientNum + (c.clientNum - k)
  | recvQps tot _ => 2 + c.clientNum + (c.clientNum - tot)
  | waitClose stopCnt _ => 1 + (c.clientNum - stopCnt)
  | done _ => 0
  | failed => 0

/-- The steps a client still takes, at most. -/
def ClientPhase.rank : ClientPhase → ℕ
  | prepare => 7
  | connect => 6
  | start => 5
  | running => 4
  | sendQps => 3
  | ack => 2
  | closing => 1
  | closed => 0
  | failed => 0

/-- The steps all processes still take, at most. -/
def Control.rank (c : ControlCfg) (s : Control) : ℕ :=
  s.master.rank c + ∑ i ∈ Finset.range c.clientNum, (s.client i).rank

lemma timeIsUp_iff {c : ControlCfg} {t : ℕ} : Control.timeIsUp c t ↔ c.ticks ≤ t := by
  rw [Control.timeIsUp, ControlCfg.ticks]
  omega

namespace Control

variable {c : ControlCfg} {s s' : Control} {st : ℕ → Stage} {tr o : List CtlObs} {i : ℕ}
  {x : Stage} {l : CtlLabel} {m : MasterPhase}

/-- A step that keeps the invariant and brings the end nearer. -/
def Advances (c : ControlCfg) (s : Control) (tr : List CtlObs) (s' : Control) (o : List CtlObs) :
    Prop :=
  (∃ st, s'.Linked c st ∧ s'.Told c st (tr ++ o)) ∧ s'.rank c < s.rank c

/-! ## Steps of the master -/

/-- A step that tells nothing. -/
lemma told_quiet {st' : ℕ → Stage} (h : s.Told c st tr)
    (hread : ∀ i, (st' i).isRead = (st i).isRead)
    (hclosing : ∀ i, s'.client i = .closing → s.client i = .closing)
    (hdone : ∀ qps, s.master = .done qps → s'.master = .done qps) : s'.Told c st' (tr ++ []) := by
  rw [List.append_nil]
  exact ⟨h.noTimer, h.noExit, fun i => by rw [hread, h.counts], fun i hi => h.acked i (hclosing i hi),
    h.ack, fun qps hq => hdone qps (h.total qps hq)⟩

/-- The master goes on, and leaves the connections as they are. -/
lemma advance_master (hl : s.Linked c st) (ht : s.Told c st tr) (hm : m.OK c st)
    (hrank : m.rank c < s.master.rank c) : Advances c s tr (s.goMaster m) [] := by
  refine ⟨⟨st, ⟨hm, hl.outside, hl.link, hl.fd⟩, told_quiet ht (fun _ => rfl) (fun _ => id) ?_⟩, ?_⟩
  · intro qps hdone
    rw [hdone] at hrank
    cases hrank
  · exact Nat.add_lt_add_right hrank _

/-- A step on connection `i`: the others, and the stages of the other clients, stay as they are. -/
lemma linked_conn (hl : s.Linked c st) (hi : i < c.clientNum)
    (hm : s'.master.OK c (Function.update st i x))
    (hne : ∀ j, j ≠ i → s'.client j = s.client j ∧ s'.toClient j = s.toClient j ∧
      s'.toMaster j = s.toMaster j ∧ s'.clientFd j = s.clientFd j)
    (hlink : Link (c.clientQps i) x (s'.client i) (s'.toClient i) (s'.toMaster i))
    (hfd : s'.clientFd i = true ↔ x ≠ .gone) : s'.Linked c (Function.update st i x) := by
  refine ⟨hm, fun j hj => ?_, fun j => ?_, fun j => ?_⟩
  · rw [Function.update_of_ne (by omega), hl.outside j hj]
  · by_cases hji : j = i
    · subst hji
      rwa [Function.update_self]
    · obtain ⟨h₁, h₂, h₃, -⟩ := hne j hji
      rw [Function.update_of_ne hji, h₁, h₂, h₃]
      exact hl.link j
  · by_cases hji : j = i
    · subst hji
      rwa [Function.update_self]
    · rw [Function.update_of_ne hji, (hne j hji).2.2.2]
      exact hl.fd j

/-- The master goes on with connection `i`. -/
lemma advance_conn (hl : s.Linked c st) (ht : s.Told c st tr) (hi : i < c.clientNum)
    (hclient : s'.client = s.client) (hm : s'.master.OK c (Function.update st i x))
    (hne : ∀ j, j ≠ i → s'.toClient j = s.toClient j ∧ s'.toMaster j = s.toMaster j ∧
      s'.clientFd j = s.clientFd j)
    (hlink : Link (c.clientQps i) x (s'.client i) (s'.toClient i) (s'.toMaster i))
    (hfd : s'.clientFd i = true ↔ x ≠ .gone) (hread : x.isRead = (st i).isRead)
    (hrank : s'.master.rank c < s.master.rank c) : Advances c s tr s' [] := by
  refine ⟨⟨_, linked_conn hl hi hm (fun j hj => ⟨by rw [hclient], hne j hj⟩) hlink hfd,
    told_quiet ht (fun j => ?_) (fun j => by rw [hclient]; exact id) ?_⟩, ?_⟩
  · by_cases hji : j = i
    · subst hji
      rw [Function.update_self, hread]
    · rw [Function.update_of_ne hji]
  · intro qps hdone
    rw [hdone] at hrank
    cases hrank
  · rw [rank, rank, hclient]
    exact Nat.add_lt_add_right hrank _

/-- The stages when the master has dealt with one more client. -/
lemma stage_succ {k : ℕ} {a b : Stage} (h : ∀ j < c.clientNum, st j = if j < k then a else b)
    (j : ℕ) (hj : j < c.clientNum) :
    Function.update st k a j = if j < k + 1 then a else b := by
  by_cases hjk : j = k
  · subst hjk
    simp
  · rw [Function.update_of_ne hjk, h j hj]
    exact if_congr (by omega) rfl rfl

/-- The stages when the master has dealt with all clients. -/
lemma stage_all {k : ℕ} {a b : Stage} (h : ∀ j < c.clientNum, st j = if j < k then a else b)
    (hk : c.clientNum ≤ k) (j : ℕ) (hj : j < c.clientNum) : st j = a := by
  rw [h j hj, if_pos (by omega)]

/-- The stages before the master deals with the first client. -/
lemma stage_none {a b : Stage} (h : ∀ j < c.clientNum, st j = b) (j : ℕ) (hj : j < c.clientNum) :
    st j = if j < 0 then a else b := by
  rw [h j hj, if_neg (Nat.not_lt_zero j)]

/-- The master sends one more message to client `k`. -/
lemma advance_send {k : ℕ} {a b : Stage} {msg : CtlMsg} (hl : s.Linked c st) (ht : s.Told c st tr)
    (hk : k < c.clientNum) (hst : st k = b) (hm : m.OK c (Function.update st k a))
    (hlink : ∀ p lc lm, Link (c.clientQps k) b p lc lm → Link (c.clientQps k) a p (lc ++ [msg]) lm)
    (ha : a ≠ .gone) (hb : b ≠ .gone) (hread : a.isRead = b.isRead)
    (hrank : m.rank c < s.master.rank c) :
    Advances c s tr ((s.sendClient k msg).goMaster m) [] := by
  refine advance_conn (x := a) hl ht hk rfl hm (fun j hj => ?_) ?_ ?_ (by rw [hst, hread]) hrank
  · exact ⟨Function.update_of_ne hj .., rfl, rfl⟩
  · have hold := hl.link k
    rw [hst] at hold
    simpa [sendClient, goMaster] using hlink _ _ _ hold
  · have hfd := hl.fd k
    rw [hst] at hfd
    exact hfd.trans (iff_of_true hb ha)

/-- **The master between its waits.** -/
lemma stepMaster_advances (hl : s.Linked c st) (ht : s.Told c st tr) (hfit : sumQps c < 2 ^ 31)
    (hs : s.stepMaster c = some (s', o)) : Advances c s tr s' o := by
  have hm := hl.master
  simp only [stepMaster] at hs
  split at hs
  · next k hph =>
    rw [hph] at hm
    obtain ⟨hk, hst⟩ := hm
    split at hs
    · next hlt =>
      cases hs
      have hfresh : st k = .fresh := by rw [hst k hlt, if_neg (lt_irrefl k)]
      refine advance_send hl ht hlt hfresh ⟨hlt, stage_succ hst⟩ ?_ (by decide) (by decide) rfl ?_
      · intro p lc lm h
        cases h
        exact .options
      · simp only [hph, MasterPhase.rank]
        omega
    · next hge =>
      cases hs
      refine advance_master hl ht (stage_all hst (by omega)) ?_
      simp only [hph, MasterPhase.rank]
      omega
  · next hph =>
    rw [hph] at hm
    cases hs
    refine advance_master hl ht ⟨List.nodup_nil, by simp, fun j hj => by simpa using hm j hj⟩ ?_
    simp only [hph, MasterPhase.rank, List.length_nil]
    omega
  · next acked hph =>
    rw [hph] at hm
    obtain ⟨hnodup, hmem, hst⟩ := hm
    split at hs
    · cases hs
    · next hge =>
      cases hs
      -- every client is among the acked ones
      have hall : ∀ j < c.clientNum, st j = .ready := fun j hj => by
        have hsub : acked.toFinset = Finset.range c.clientNum := by
          refine Finset.eq_of_subset_of_card_le (fun k hk => ?_) ?_
          · exact Finset.mem_range.2 (hmem k (List.mem_toFinset.1 hk))
          · rw [Finset.card_range, List.toFinset_card_of_nodup hnodup]
            omega
        rw [hst j hj, if_pos (List.mem_toFinset.1 (hsub ▸ Finset.mem_range.2 hj))]
      refine advance_master hl ht ⟨Nat.zero_le _, stage_none hall⟩ ?_
      simp only [hph, MasterPhase.rank]
      omega
  · next k hph =>
    rw [hph] at hm
    obtain ⟨hk, hst⟩ := hm
    split at hs
    · next hlt =>
      cases hs
      have hready : st k = .ready := by rw [hst k hlt, if_neg (lt_irrefl k)]
      refine advance_send hl ht hlt hready ⟨hlt, stage_succ hst⟩ ?_ (by decide) (by decide) rfl ?_
      · intro p lc lm h
        cases h
        exact .start
      · simp only [hph, MasterPhase.rank]
        omega
    · next hge =>
      cases hs
      refine advance_master hl ht (stage_all hst (by omega)) ?_
      simp only [hph, MasterPhase.rank]
      omega
  · next t hph =>
    rw [hph] at hm
    split at hs
    · cases hs
      refine advance_master hl ht ⟨Nat.zero_le _, stage_none hm⟩ ?_
      simp only [hph, MasterPhase.rank]
      omega
    · cases hs
  · next k hph =>
    rw [hph] at hm
    obtain ⟨hk, hst⟩ := hm
    split at hs
    · next hlt =>
      cases hs
      have hstarted : st k = .started := by rw [hst k hlt, if_neg (lt_irrefl k)]
      refine advance_send hl ht hlt hstarted ⟨hlt, stage_succ hst⟩ ?_ (by decide) (by decide) rfl ?_
      · intro p lc lm h
        cases h
        · exact .startStop
        · exact .stop
      · simp only [hph, MasterPhase.rank]
        omega
    · next hge =>
      cases hs
      have hall := stage_all hst (by omega)
      have hnone : ∀ j ∈ Finset.range c.clientNum, (st j).isRead = false := fun j hj => by
        rw [hall j (Finset.mem_range.1 hj)]
        rfl
      refine advance_master hl ht ⟨fun j hj => .inl (hall j hj), ?_, ?_⟩ ?_
      · exact (Finset.sum_eq_zero fun j hj => by simp [hnone j hj]).symm
      · exact (Finset.sum_eq_zero fun j hj => by simp [hnone j hj]).symm
      · simp only [hph, MasterPhase.rank]
        omega
  · next tot qps hph =>
    rw [hph] at hm
    obtain ⟨hst, htot, hqps⟩ := hm
    split at hs
    · cases hs
    · next hge =>
      cases hs
      have hread : ∀ j < c.clientNum, (st j).isRead = true := forall_of_stagesWith_ge (by omega)
      have hall : ∀ j < c.clientNum, st j = .counted := fun j hj => by
        rcases hst j hj with h | h
        · have hj' := hread j hj
          rw [h] at hj'
          cases hj'
        · exact h
      refine advance_master hl ht ⟨fun j hj => .inl (hall j hj), ?_, hqps⟩ ?_
      · exact (Finset.sum_eq_zero fun j hj => by simp [hall j (Finset.mem_range.1 hj)]).symm
      · simp only [hph, MasterPhase.rank]
        omega
  · next stopCnt qps hph =>
    rw [hph] at hm
    obtain ⟨hst, hcnt, hqps⟩ := hm
    split at hs
    · cases hs
    · next hge =>
      cases hs
      have hgone : ∀ j < c.clientNum, (st j == .gone) = true :=
        forall_of_stagesWith_ge (p := (· == Stage.gone)) (by omega)
      have hall : ∀ j < c.clientNum, st j = .gone := fun j hj => by simpa using hgone j hj
      have hfull : c.masterQps + sumRead c st = sumQps c := sumRead_full fun j hj => by
        rw [hall j hj]
        rfl
      have hsum : toInt (c.masterQps + qps) = sumQps c := by
        have hnonneg : 0 ≤ sumRead c st := sumRead_nonneg
        rw [hqps, hfull, toInt_of_lt (by omega) hfit]
      obtain ⟨⟨st', hl', ht'⟩, hrank⟩ := advance_master (m := .done (toInt (c.masterQps + qps))) hl ht
        ⟨hall, hsum⟩ (by simp only [hph, MasterPhase.rank]; omega)
      refine ⟨⟨st', hl', ?_⟩, hrank⟩
      rw [List.append_nil] at ht'
      refine ⟨?_, ?_, fun j => ?_, fun j hj => ?_, fun j => ?_, fun q hq => ?_⟩
      · simpa using ht'.noTimer
      · simpa using ht'.noExit
      · rw [countsOf, List.filterMap_append]
        simpa [countsOf] using ht'.counts j
      · exact List.mem_append_left _ (ht'.acked j hj)
      · exact precedes_append (ht'.ack j) (by simp)
      · rcases List.mem_append.1 hq with hq | hq
        · have hdone := ht.total q hq
          rw [hph] at hdone
          cases hdone
        · obtain rfl : q = toInt (c.masterQps + qps) := by simpa using hq
          rfl
  · cases hs
  · cases hs

/-- An event of a connection at the master: what the stage is, and what there is to read. -/
lemma ready_cases (hl : s.Linked c st) (hready : s.readyAtMaster c i = true) :
    i < c.clientNum ∧ (st i = .asked ∧ s.client i = .start ∧ s.toClient i = [] ∧
        s.toMaster i = [msgTestOk] ∧ s.eofAtMaster i = false ∨
      st i = .stopping ∧ s.client i = .ack ∧ s.toClient i = [] ∧
        s.toMaster i = [(c.clientQps i : ℤ)] ∧ s.eofAtMaster i = false ∨
      st i = .counted ∧ s.client i = .closed ∧ s.toClient i = [] ∧ s.toMaster i = [] ∧
        s.eofAtMaster i = true) := by
  simp only [readyAtMaster, Bool.and_eq_true, Bool.or_eq_true, decide_eq_true_eq] at hready
  obtain ⟨⟨hi, hfd⟩, hready⟩ := hready
  refine ⟨hi, ?_⟩
  have hlink := hl.link i
  have hgone := (hl.fd i).1 hfd
  simp only [eofAtMaster] at hready ⊢
  generalize st i = x at hlink hgone ⊢
  generalize s.client i = p at hlink hready ⊢
  generalize s.toClient i = lc at hlink ⊢
  generalize s.toMaster i = lm at hlink hready ⊢
  cases hlink <;> simp_all

/-- The master reads the OK of client `i`. -/
lemma readOk_advances {acked : List ℕ} (hl : s.Linked c st) (ht : s.Told c st tr)
    (hph : s.master = .waitOk acked) (hi : i < c.clientNum) (hst : st i = .asked)
    (hclient : s.client i = .start) (hto : s.toClient i = []) (hmsg : s.toMaster i = [msgTestOk])
    (hlen : acked.length < c.clientNum) :
    Advances c s tr ((s.dropMaster i).goMaster (.waitOk (i :: acked))) [] := by
  have hm := hl.master
  rw [hph] at hm
  obtain ⟨hnodup, hmem, hall⟩ := hm
  have hnew : i ∉ acked := fun hin => by
    have hold := hall i hi
    rw [if_pos hin, hst] at hold
    cases hold
  refine advance_conn (x := .ready) hl ht hi rfl ?_ (fun j hj => ?_) ?_ ?_ (by rw [hst]; rfl) ?_
  · refine ⟨List.nodup_cons.2 ⟨hnew, hnodup⟩, ?_, fun j hj => ?_⟩
    · rintro j (_ | ⟨_, hj⟩)
      · exact hi
      · exact hmem j hj
    · by_cases hji : j = i
      · subst hji
        simp
      · rw [Function.update_of_ne hji, hall j hj]
        simp [hji]
  · exact ⟨rfl, Function.update_of_ne hj .., rfl⟩
  · simp only [dropMaster, goMaster, hclient, hto, Function.update_self, hmsg, List.tail_cons]
    exact .ready
  · have hfd := hl.fd i
    rw [hst] at hfd
    exact hfd.trans (iff_of_true (by decide) (by decide))
  · simp only [dropMaster, goMaster, hph, MasterPhase.rank, List.length_cons]
    omega

/-- The master reads the count of client `i`, and sends the ACK. -/
lemma readQps_advances {tot : ℕ} {qps : ℤ} (hl : s.Linked c st) (ht : s.Told c st tr)
    (hfit : sumQps c < 2 ^ 31) (hph : s.master = .recvQps tot qps) (hi : i < c.clientNum)
    (hst : st i = .stopping) (hclient : s.client i = .ack) (hto : s.toClient i = [])
    (hmsg : s.toMaster i = [(c.clientQps i : ℤ)]) (hlen : tot < c.clientNum) :
    Advances c s tr (((s.dropMaster i).sendClient i (.int msgTestQpsAck)).goMaster
      (.recvQps (tot + 1) (toInt (qps + c.clientQps i)))) [.readQps i (c.clientQps i)] := by
  have hm := hl.master
  rw [hph] at hm
  obtain ⟨hall, htot, hqps⟩ := hm
  have hunread : (st i).isRead = false := by
    rw [hst]
    rfl
  have hcounted : Stage.counted.isRead = true := rfl
  have hsum := sumRead_update (x := .counted) hi hunread hcounted
  have hone := stagesWith_update (p := Stage.isRead) (x := .counted) st hi
  rw [hunread] at hone
  have hle : sumRead c (Function.update st i .counted) + c.masterQps ≤ sumQps c := sumRead_le
  have hnonneg : 0 ≤ sumRead c st := sumRead_nonneg
  refine ⟨⟨Function.update st i .counted, linked_conn hl hi ⟨fun j hj => ?_, ?_, ?_⟩ (fun j hj => ?_)
    ?_ ?_, ?_, ?_, fun j => ?_, fun j hj => ?_, fun j => ?_, fun q hq => ?_⟩, ?_⟩
  · by_cases hji : j = i
    · subst hji
      simp
    · rw [Function.update_of_ne hji]
      exact hall j hj
  · simp only [hcounted, Bool.false_eq_true, if_false, if_true] at hone
    omega
  · rw [hsum, hqps, toInt_of_lt (by omega) (by omega)]
  · exact ⟨rfl, Function.update_of_ne hj .., Function.update_of_ne hj .., rfl⟩
  · simp only [dropMaster, sendClient, goMaster, hclient, hto, Function.update_self, hmsg,
      List.tail_cons, List.nil_append]
    exact .ack
  · have hfd := hl.fd i
    rw [hst] at hfd
    exact hfd.trans (iff_of_true (by decide) (by decide))
  · simpa using ht.noTimer
  · simpa using ht.noExit
  · have hcounts := ht.counts j
    rw [countsOf, List.filterMap_append, ← countsOf, hcounts]
    by_cases hji : j = i
    · subst hji
      simp [hunread, hcounted]
    · simp [Function.update_of_ne hji, Ne.symm hji]
  · exact List.mem_append_left _ (ht.acked j hj)
  · exact precedes_append (ht.ack j) (by simp)
  · rcases List.mem_append.1 hq with hq | hq
    · have hdone := ht.total q hq
      rw [hph] at hdone
      cases hdone
    · simp at hq
  · refine Nat.add_lt_add_right ?_ _
    simp only [goMaster, hph, MasterPhase.rank]
    omega

/-- The master closes its end of connection `i`. -/
lemma close_advances {stopCnt : ℕ} {qps : ℤ} (hl : s.Linked c st) (ht : s.Told c st tr)
    (hph : s.master = .waitClose stopCnt qps) (hi : i < c.clientNum) (hst : st i = .counted)
    (hclient : s.client i = .closed) (hto : s.toClient i = []) (hmsg : s.toMaster i = [])
    (hlen : stopCnt < c.clientNum) :
    Advances c s tr (goMaster { s with clientFd := Function.update s.clientFd i false }
      (.waitClose (stopCnt + 1) qps)) [] := by
  have hm := hl.master
  rw [hph] at hm
  obtain ⟨hall, hcnt, hqps⟩ := hm
  have hone := stagesWith_update (p := (· == Stage.gone)) (x := .gone) st hi
  have hread : ∀ j < c.clientNum, (Function.update st i .gone j).isRead = (st j).isRead := by
    intro j hj
    by_cases hji : j = i
    · subst hji
      rw [Function.update_self, hst]
      rfl
    · rw [Function.update_of_ne hji]
  refine advance_conn (x := .gone) hl ht hi rfl ⟨fun j hj => ?_, ?_, ?_⟩ (fun j hj => ?_) ?_ ?_
    (by rw [hst]; rfl) ?_
  · by_cases hji : j = i
    · subst hji
      simp
    · rw [Function.update_of_ne hji]
      exact hall j hj
  · simp [hst] at hone
    omega
  · rw [sumRead_congr hread, hqps]
  · exact ⟨rfl, rfl, Function.update_of_ne hj ..⟩
  · simp only [goMaster, hclient, hto, hmsg]
    exact .gone
  · simp [goMaster]
  · simp only [goMaster, hph, MasterPhase.rank]
    omega

/-- **The waits of the master.**  Unless the timer event is taken for a count, an event changes nothing
or is the one that is waited for. -/
lemma keventMaster_advances {ev : CtlEvent} (hl : s.Linked c st) (ht : s.Told c st tr)
    (hfit : sumQps c < 2 ^ 31) (hok : s.NoTimer (.masterKevent ev))
    (hs : s.keventMaster c ev = some (s', o)) : s' = s ∧ o = [] ∨ Advances c s tr s' o := by
  have hm := hl.master
  simp only [keventMaster] at hs
  split at hs
  · next acked i hph =>
    rw [hph] at hm
    obtain ⟨-, -, hall⟩ := hm
    simp only [Option.ite_none_right_eq_some] at hs
    obtain ⟨⟨hlen, hready⟩, hs⟩ := hs
    obtain ⟨hi, ⟨hst, hclient, hto, hmsg, -⟩ | ⟨hst, -⟩ | ⟨hst, -⟩⟩ := ready_cases hl hready
    · have hnew : i ∉ acked := fun hin => by
        have hold := hall i hi
        rw [if_pos hin, hst] at hold
        cases hold
      simp only [hmsg, ne_eq, not_true_eq_false, hnew, or_self, if_false] at hs
      cases hs
      exact .inr (readOk_advances hl ht hph hi hst hclient hto hmsg hlen)
    all_goals
      have hold := hall i hi
      rw [hst] at hold
      split at hold <;> cases hold
  · next t hph =>
    rw [hph] at hm
    split at hs
    · cases hs
    · next hup =>
      cases hs
      refine .inr (advance_master hl ht hm ?_)
      rw [timeIsUp_iff] at hup
      simp only [hph, MasterPhase.rank]
      omega
  · next t i hph =>
    rw [hph] at hm
    simp only [Option.ite_none_right_eq_some] at hs
    obtain ⟨⟨-, hready⟩, -⟩ := hs
    obtain ⟨hi, ⟨hst, -⟩ | ⟨hst, -⟩ | ⟨hst, -⟩⟩ := ready_cases hl hready
    all_goals
      rw [hm i hi] at hst
      cases hst
  · next tot qps hph => exact absurd hph (hok tot qps)
  · next tot qps i hph =>
    simp only [Option.ite_none_right_eq_some] at hs
    obtain ⟨⟨hlen, hready⟩, hs⟩ := hs
    obtain ⟨hi, ⟨hst, -⟩ | ⟨hst, hclient, hto, hmsg, heof⟩ | ⟨-, -, -, -, heof⟩⟩ :=
      ready_cases hl hready
    · rw [hph] at hm
      rcases hm.1 i hi with hold | hold
      · rw [hst] at hold
        cases hold
      · rw [hst] at hold
        cases hold
    · simp only [heof, hmsg] at hs
      cases hs
      exact .inr (readQps_advances hl ht hfit hph hi hst hclient hto hmsg hlen)
    · rw [if_pos heof] at hs
      cases hs
      exact .inl ⟨rfl, rfl⟩
  · simp only [Option.ite_none_right_eq_some] at hs
    obtain ⟨-, hs⟩ := hs
    cases hs
    exact .inl ⟨rfl, rfl⟩
  · next stopCnt qps i hph =>
    simp only [Option.ite_none_right_eq_some] at hs
    obtain ⟨⟨hlen, hready⟩, hs⟩ := hs
    split at hs
    · next heof =>
      cases hs
      obtain ⟨hi, ⟨-, -, -, -, hno⟩ | ⟨-, -, -, -, hno⟩ | ⟨hst, hclient, hto, hmsg, -⟩⟩ :=
        ready_cases hl hready
      · rw [heof] at hno
        cases hno
      · rw [heof] at hno
        cases hno
      · exact .inr (close_advances hl ht hph hi hst hclient hto hmsg hlen)
    · cases hs
      exact .inl ⟨rfl, rfl⟩
  · cases hs

/-! ## Steps of the clients -/

/-- Client `i` goes on; its stage stays as it is. -/
lemma advance_client {p : ClientPhase} (hl : s.Linked c st) (hi : i < c.clientNum)
    (hmaster : s'.master = s.master) (hfd : s'.clientFd = s.clientFd)
    (hclient : s'.client = Function.update s.client i p)
    (hne : ∀ j, j ≠ i → s'.toClient j = s.toClient j ∧ s'.toMaster j = s.toMaster j)
    (hlink : Link (c.clientQps i) (st i) p (s'.toClient i) (s'.toMaster i))
    (hrank : p.rank < (s.client i).rank)
    (htold : s'.Told c st (tr ++ o)) : Advances c s tr s' o := by
  refine ⟨⟨st, ?_, htold⟩, ?_⟩
  · have hlinked : s'.Linked c (Function.update st i (st i)) :=
      linked_conn hl hi ?_ (fun j hj => ?_) ?_ ?_
    · rwa [Function.update_eq_self] at hlinked
    · rw [Function.update_eq_self, hmaster]
      exact hl.master
    · rw [hclient, hfd, Function.update_of_ne hj]
      exact ⟨rfl, (hne j hj).1, (hne j hj).2, rfl⟩
    · rwa [hclient, Function.update_self]
    · rw [hfd]
      exact hl.fd i
  · have hsum := sum_move (f := fun j => (s.client j).rank) (g := fun j => (s'.client j).rank)
      (Finset.mem_range.2 hi) fun j _ hj => by simp only [hclient, Function.update_of_ne hj]
    have hself : (s'.client i).rank = p.rank := by rw [hclient, Function.update_self]
    rw [rank, rank, hmaster]
    omega

/-- A stage the client has left the first one for. -/
lemma lt_of_stage (hl : s.Linked c st) (h : st i ≠ .fresh) : i < c.clientNum := by
  by_contra hge
  exact h (hl.outside i (by omega))

/-- Before the master has closed a connection, the client does not see it closed. -/
lemma eofAtClient_eq_false (hl : s.Linked c st) (hfresh : st i ≠ .fresh) (hgone : st i ≠ .gone) :
    s.eofAtClient i = false := by
  have hm := hl.master
  have hi := lt_of_stage hl hfresh
  have hfd := (hl.fd i).2 hgone
  rw [eofAtClient, hfd]
  generalize s.master = m at hm
  cases m with
  | done qps => exact absurd (hm.1 i hi) hgone
  | failed => cases hm
  | _ => rfl

/-- A step of a client that tells nothing. -/
lemma told_client {p : ClientPhase} (ht : s.Told c st tr) (hmaster : s'.master = s.master)
    (hclient : s'.client = Function.update s.client i p) (hp : p ≠ .closing) :
    s'.Told c st (tr ++ []) := by
  refine told_quiet ht (fun _ => rfl) (fun j hj => ?_) fun qps hq => by rw [hmaster, hq]
  by_cases hji : j = i
  · subst hji
    rw [hclient, Function.update_self] at hj
    exact absurd hj hp
  · rwa [hclient, Function.update_of_ne hji] at hj

/-- A client writes to the master. -/
lemma write_advances {p p' : ClientPhase} {v : ℤ} (hl : s.Linked c st) (ht : s.Told c st tr)
    (hph : s.client i = p) (hfresh : st i ≠ .fresh) (hto : s.toClient i = [])
    (hmsg : s.toMaster i = []) (hlink : Link (c.clientQps i) (st i) p' [] [v])
    (hrank : p'.rank < p.rank) (hp : p' ≠ .closing) :
    Advances c s tr ((s.sendMaster i v).goClient i p') [] := by
  refine advance_client hl (lt_of_stage hl hfresh) rfl rfl rfl (fun j hj => ⟨rfl, ?_⟩) ?_
    (by rwa [hph]) (told_client ht rfl rfl hp)
  · exact Function.update_of_ne hj ..
  · simpa only [sendMaster, goClient, Function.update_self, hto, hmsg, List.nil_append] using hlink

/-- A client reads the next message from the master. -/
lemma read_advances {p p' : ClientPhase} (hl : s.Linked c st) (hph : s.client i = p)
    (hfresh : st i ≠ .fresh) (hlink : Link (c.clientQps i) (st i) p' (s.toClient i).tail (s.toMaster i))
    (hrank : p'.rank < p.rank) (htold : ((s.dropClient i).goClient i p').Told c st (tr ++ o)) :
    Advances c s tr ((s.dropClient i).goClient i p') o := by
  refine advance_client hl (lt_of_stage hl hfresh) rfl rfl rfl (fun j hj => ⟨?_, rfl⟩) ?_
    (by rwa [hph]) htold
  · exact Function.update_of_ne hj ..
  · simpa only [dropClient, goClient, Function.update_self] using hlink

/-- **A client between its waits.** -/
lemma stepClient_advances (hl : s.Linked c st) (ht : s.Told c st tr)
    (hs : s.stepClient c i = some (s', o)) : Advances c s tr s' o := by
  have hlink := hl.link i
  simp only [stepClient] at hs
  split at hs
  · next hph =>
    rw [hph] at hlink
    split at hs
    · next rest hto =>
      cases hs
      rw [hto] at hlink
      obtain ⟨hst, rfl, hmsg⟩ := hlink.of_prepare
      refine read_advances hl hph (by simp [hst]) ?_ (by decide) (told_client ht rfl rfl (by decide))
      rw [hst, hto, hmsg]
      exact .connect
    · cases hs
  · next hph =>
    cases hs
    rw [hph] at hlink
    obtain ⟨hst, hto, hmsg⟩ := hlink.of_connect
    exact write_advances hl ht hph (by simp [hst]) hto hmsg (hst ▸ .ok) (by decide) (by decide)
  · next hph =>
    cases hs
    rw [hph] at hlink
    obtain ⟨hst, hto, hmsg⟩ := hlink.of_sendQps
    exact write_advances hl ht hph (by simp [hst]) hto hmsg (hst ▸ .qps) (by decide) (by decide)
  · next hph =>
    cases hs
    have hack := ht.acked i hph
    rw [hph] at hlink
    obtain ⟨hst, hto, hmsg⟩ := hlink.of_closing
    refine advance_client (p := .closed) hl (lt_of_stage hl (by simp [hst])) rfl rfl rfl
      (fun _ _ => ⟨rfl, rfl⟩) ?_ (by rw [hph]; decide) ?_
    · simp only [goClient, hto, hst, hmsg]
      exact .closed
    · have htold : (s.goClient i .closed).Told c st (tr ++ []) :=
        told_client ht rfl rfl (by decide)
      rw [List.append_nil] at htold
      refine ⟨?_, ?_, fun j => ?_, fun j hj => ?_, fun j => ?_, fun q hq => ?_⟩
      · simpa using htold.noTimer
      · simpa using htold.noExit
      · rw [countsOf, List.filterMap_append]
        simpa [countsOf] using htold.counts j
      · exact List.mem_append_left _ (htold.acked j hj)
      · refine precedes_concat (htold.ack j) fun hj => ⟨_, hack, ?_⟩
        obtain rfl : i = j := by simpa using hj
        rfl
      · exact htold.total q (by simpa using hq)
  · cases hs

/-- **The waits of a client.**  Unless the timer event is taken for the ACK, an event changes nothing or
is the one that is waited for. -/
lemma keventClient_advances {ev : CtlEvent} (hl : s.Linked c st) (ht : s.Told c st tr)
    (hok : s.NoTimer (.clientKevent i ev)) (hs : s.keventClient i ev = some (s', o)) :
    s' = s ∧ o = [] ∨ Advances c s tr s' o := by
  have hlink := hl.link i
  simp only [keventClient] at hs
  split at hs
  · next j hph =>
    simp only [Option.ite_none_right_eq_some] at hs
    obtain ⟨⟨-, hready⟩, hs⟩ := hs
    rw [hph] at hlink
    obtain ⟨hstage, hnil | ⟨hhead, hnext⟩⟩ := hlink.of_start
    · rw [readyAtClient, hnil, eofAtClient_eq_false hl hstage.1 hstage.2] at hready
      cases hready
    · rw [if_pos hhead] at hs
      cases hs
      exact .inr (read_advances hl hph hstage.1 hnext (by decide) (told_client ht rfl rfl (by decide)))
  · cases hs
    exact .inl ⟨rfl, rfl⟩
  · next j hph =>
    simp only [Option.ite_none_right_eq_some] at hs
    obtain ⟨⟨-, hready⟩, hs⟩ := hs
    rw [hph] at hlink
    obtain ⟨hstage, hmem⟩ := hlink.of_running
    have heof := eofAtClient_eq_false hl hstage.1 hstage.2
    rcases hmem with hnil | ⟨hhead, hnext⟩
    · rw [readyAtClient, hnil, heof] at hready
      cases hready
    · rw [heof, if_neg Bool.false_ne_true, if_pos hhead] at hs
      cases hs
      exact .inr (read_advances hl hph hstage.1 hnext (by decide) (told_client ht rfl rfl (by decide)))
  · next hph => exact absurd hph hok
  · next j hph =>
    simp only [Option.ite_none_right_eq_some] at hs
    obtain ⟨⟨-, hready⟩, hs⟩ := hs
    rw [hph] at hlink
    obtain ⟨hstage, hnil | ⟨hhead, hnext⟩⟩ := hlink.of_ack
    · rw [readyAtClient, hnil, eofAtClient_eq_false hl hstage.1 hstage.2] at hready
      cases hready
    · rw [if_pos hhead] at hs
      cases hs
      refine .inr (read_advances hl hph hstage.1 hnext (by decide) ?_)
      refine ⟨?_, ?_, fun j => ?_, fun j hj => ?_, fun j => ?_, fun q hq => ?_⟩
      · simpa using ht.noTimer
      · simpa using ht.noExit
      · rw [countsOf, List.filterMap_append]
        simpa [countsOf] using ht.counts j
      · by_cases hji : j = i
        · subst hji
          simp
        · refine List.mem_append_left _ (ht.acked j ?_)
          simpa [dropClient, goClient, Function.update_of_ne hji] using hj
      · exact precedes_append (ht.ack j) (by simp)
      · exact ht.total q (by simpa using hq)
  · cases hs

/-- **One step.** -/
lemma step_advances (hl : s.Linked c st) (ht : s.Told c st tr) (hfit : sumQps c < 2 ^ 31)
    (hok : s.NoTimer l) (hs : s.step c l = some (s', o)) : s' = s ∧ o = [] ∨ Advances c s tr s' o := by
  cases l with
  | master => exact .inr (stepMaster_advances hl ht hfit hs)
  | masterKevent ev => exact keventMaster_advances hl ht hfit hok hs
  | client i => exact .inr (stepClient_advances hl ht hs)
  | clientKevent i ev => exact keventClient_advances hl ht hok hs

/-! ## Some process can go on -/

/-- A step that changes the state, and takes no timer event for a message. -/
def Moves (c : ControlCfg) (s : Control) : Prop :=
  ∃ l s' o, s.NoTimer l ∧ s.step c l = some (s', o) ∧ s' ≠ s

/-- The main thread of the master goes on. -/
lemma moves_master {m : MasterPhase} (hok : s.NoTimer l)
    (hs : (s.step c l).map (fun r => r.1.master) = some m) (hne : s.master ≠ m) : s.Moves c := by
  obtain ⟨⟨s', o⟩, hstep, hm⟩ := Option.map_eq_some_iff.1 hs
  refine ⟨l, s', o, hok, hstep, ?_⟩
  rintro rfl
  exact hne hm

/-- The main thread of a client goes on. -/
lemma moves_client {p : ClientPhase} (i : ℕ) (hok : s.NoTimer l)
    (hs : (s.step c l).map (fun r => r.1.client i) = some p) (hne : s.client i ≠ p) : s.Moves c := by
  obtain ⟨⟨s', o⟩, hstep, hp⟩ := Option.map_eq_some_iff.1 hs
  refine ⟨l, s', o, hok, hstep, ?_⟩
  rintro rfl
  exact hne hp

/-- A client that is about to write or to close. -/
lemma moves_of_writing (h : s.client i = .connect ∨ s.client i = .sendQps ∨ s.client i = .closing) :
    s.Moves c := by
  rcases h with h | h | h
  · exact moves_client i (l := .client i) (p := .start) trivial
      (by simp [step, stepClient, h, goClient]) (by simp [h])
  · exact moves_client i (l := .client i) (p := .ack) trivial
      (by simp [step, stepClient, h, goClient]) (by simp [h])
  · exact moves_client i (l := .client i) (p := .closed) trivial
      (by simp [step, stepClient, h, goClient]) (by simp [h])

/-- A client that gets what it waits for. -/
lemma moves_of_message {rest : List CtlMsg} (heof : s.eofAtClient i = false)
    (h : s.client i = .start ∧ s.toClient i = .int msgTestStart :: rest ∨
      s.client i = .running ∧ s.toClient i = .int msgTestStop :: rest ∨
      s.client i = .ack ∧ s.toClient i = .int msgTestQpsAck :: rest) : s.Moves c := by
  have hok : s.NoTimer (.clientKevent i (.conn i)) := trivial
  rcases h with ⟨h, hto⟩ | ⟨h, hto⟩ | ⟨h, hto⟩
  · exact moves_client i (p := .running) hok
      (by simp [step, keventClient, h, readyAtClient, hto, goClient]) (by simp [h])
  · exact moves_client i (p := .sendQps) hok
      (by simp [step, keventClient, h, readyAtClient, heof, hto, goClient]) (by simp [h])
  · exact moves_client i (p := .closing) hok
      (by simp [step, keventClient, h, readyAtClient, hto, goClient]) (by simp [h])

/-- The master has something to read. -/
lemma readyAtMaster_of_ne (hl : s.Linked c st) (hi : i < c.clientNum) (hgone : st i ≠ .gone)
    (h : s.toMaster i ≠ []) : s.readyAtMaster c i = true := by
  simp [readyAtMaster, hi, (hl.fd i).2 hgone, h]

/-- A client whose OK is not read. -/
lemma moves_of_asked {acked : List ℕ} (hl : s.Linked c st) (hph : s.master = .waitOk acked)
    (hlen : acked.length < c.clientNum) (hi : i < c.clientNum) (hst : st i = .asked)
    (hnew : i ∉ acked) : s.Moves c := by
  have hlink := hl.link i
  have hready := readyAtMaster_of_ne hl hi (by simp [hst])
  rw [hst] at hlink
  generalize hp : s.client i = p at hlink
  generalize hto : s.toClient i = lc at hlink
  generalize hmsg : s.toMaster i = lm at hlink
  cases hlink with
  | options =>
    exact moves_client i (l := .client i) (p := .connect) trivial
      (by simp [step, stepClient, hp, hto, goClient]) (by simp [hp])
  | connect => exact moves_of_writing (.inl hp)
  | ok =>
    have hok : s.NoTimer (.masterKevent (.conn i)) := trivial
    exact moves_master (m := .waitOk (i :: acked)) hok
      (by simp [step, keventMaster, hph, hlen, hready (by simp [hmsg]), hmsg, hnew, goMaster]) (by simp [hph])

/-- A client whose count is not read. -/
lemma moves_of_stopping {tot : ℕ} {qps : ℤ} (hl : s.Linked c st) (hph : s.master = .recvQps tot qps)
    (hlen : tot < c.clientNum) (hi : i < c.clientNum) (hst : st i = .stopping) : s.Moves c := by
  have hlink := hl.link i
  have hready := readyAtMaster_of_ne hl hi (by simp [hst])
  have heof := eofAtClient_eq_false (i := i) hl (by simp [hst]) (by simp [hst])
  rw [hst] at hlink
  generalize hp : s.client i = p at hlink
  generalize hto : s.toClient i = lc at hlink
  generalize hmsg : s.toMaster i = lm at hlink
  cases hlink with
  | startStop => exact moves_of_message heof (.inl ⟨hp, hto⟩)
  | stop => exact moves_of_message heof (.inr (.inl ⟨hp, hto⟩))
  | sendQps => exact moves_of_writing (.inr (.inl hp))
  | qps =>
    have hok : s.NoTimer (.masterKevent (.conn i)) := trivial
    have hlive : s.eofAtMaster i = false := by simp [eofAtMaster, hp]
    exact moves_master (m := .recvQps (tot + 1) (toInt (qps + c.clientQps i))) hok
      (by simp [step, keventMaster, hph, hlen, hready (by simp [hmsg]), hlive, hmsg, goMaster])
      (by simp [hph])

/-- A client that has not been closed by the master. -/
lemma moves_of_counted {stopCnt : ℕ} {qps : ℤ} (hl : s.Linked c st)
    (hph : s.master = .waitClose stopCnt qps) (hlen : stopCnt < c.clientNum) (hi : i < c.clientNum)
    (hst : st i = .counted) : s.Moves c := by
  have hlink := hl.link i
  have hfd := (hl.fd i).2 (by simp [hst])
  have heof := eofAtClient_eq_false (i := i) hl (by simp [hst]) (by simp [hst])
  rw [hst] at hlink
  generalize hp : s.client i = p at hlink
  generalize hto : s.toClient i = lc at hlink
  generalize hmsg : s.toMaster i = lm at hlink
  cases hlink with
  | ack => exact moves_of_message heof (.inr (.inr ⟨hp, hto⟩))
  | closing => exact moves_of_writing (.inr (.inr hp))
  | closed =>
    have hok : s.NoTimer (.masterKevent (.conn i)) := trivial
    exact moves_master (m := .waitClose (stopCnt + 1) qps) hok
      (by simp [step, keventMaster, hph, hlen, readyAtMaster, eofAtMaster, hp, hi, hfd, goMaster])
      (by simp [hph])

/-- **As long as the protocol is not finished, it can go on.** -/
lemma moves_of_not_finished (hl : s.Linked c st) (hne : ¬ s.Finished c) : s.Moves c := by
  have hm := hl.master
  have hok : s.NoTimer .master := trivial
  generalize hph : s.master = m at hm
  cases m with
  | connecting k =>
    by_cases hk : k < c.clientNum
    · exact moves_master (m := .connecting (k + 1)) hok
        (by simp [step, stepMaster, hph, hk, goMaster]) (by simp [hph])
    · exact moves_master (m := .threads) hok
        (by simp [step, stepMaster, hph, hk, goMaster]) (by simp [hph])
  | threads =>
    exact moves_master (m := .waitOk []) hok (by simp [step, stepMaster, hph, goMaster]) (by simp [hph])
  | waitOk acked =>
    obtain ⟨hnodup, hmem, hall⟩ := hm
    by_cases hlen : acked.length < c.clientNum
    · obtain ⟨i, hi, hnew⟩ : ∃ i < c.clientNum, i ∉ acked := by
        by_contra hnone
        have hsub : List.range c.clientNum ⊆ acked := fun i hi => by
          by_contra hnew
          exact hnone ⟨i, List.mem_range.1 hi, hnew⟩
        have hle := (List.nodup_range.subperm hsub).length_le
        rw [List.length_range] at hle
        omega
      exact moves_of_asked hl hph hlen hi (by rw [hall i hi, if_neg hnew]) hnew
    · exact moves_master (m := .sendStart 0) hok
        (by simp [step, stepMaster, hph, hlen, goMaster]) (by simp [hph])
  | sendStart k =>
    by_cases hk : k < c.clientNum
    · exact moves_master (m := .sendStart (k + 1)) hok
        (by simp [step, stepMaster, hph, hk, goMaster]) (by simp [hph])
    · exact moves_master (m := .running 0) hok
        (by simp [step, stepMaster, hph, hk, goMaster]) (by simp [hph])
  | running t =>
    by_cases hup : timeIsUp c t
    · exact moves_master (m := .sendStop 0) hok
        (by simp [step, stepMaster, hph, hup, goMaster]) (by simp [hph])
    · have htimer : s.NoTimer (.masterKevent .timer) := by simp [NoTimer, hph]
      exact moves_master (m := .running (t + 1)) htimer
        (by simp [step, keventMaster, hph, hup, goMaster]) (by simp [hph])
  | sendStop k =>
    by_cases hk : k < c.clientNum
    · exact moves_master (m := .sendStop (k + 1)) hok
        (by simp [step, stepMaster, hph, hk, goMaster]) (by simp [hph])
    · exact moves_master (m := .recvQps 0 0) hok
        (by simp [step, stepMaster, hph, hk, goMaster]) (by simp [hph])
  | recvQps tot qps =>
    obtain ⟨hall, htot, -⟩ := hm
    by_cases hlen : tot < c.clientNum
    · obtain ⟨i, hi, hunread⟩ := exists_of_stagesWith_lt (htot ▸ hlen)
      refine moves_of_stopping hl hph hlen hi ((hall i hi).resolve_right fun hst => ?_)
      rw [hst] at hunread
      cases hunread
    · exact moves_master (m := .waitClose 0 qps) hok
        (by simp [step, stepMaster, hph, hlen, goMaster]) (by simp [hph])
  | waitClose stopCnt qps =>
    obtain ⟨hall, hcnt, -⟩ := hm
    by_cases hlen : stopCnt < c.clientNum
    · obtain ⟨i, hi, hopen⟩ := exists_of_stagesWith_lt (hcnt ▸ hlen)
      refine moves_of_counted hl hph hlen hi ((hall i hi).resolve_right fun hst => ?_)
      simp [hst] at hopen
    · exact moves_master (m := .done (toInt (c.masterQps + qps))) hok
        (by simp [step, stepMaster, hph, hlen, goMaster]) (by simp [hph])
  | done qps =>
    refine absurd ⟨by rw [hph, hm.2], fun i hi => ?_⟩ hne
    have hlink := hl.link i
    rw [hm.1 i hi] at hlink
    generalize s.client i = p at hlink ⊢
    generalize s.toClient i = lc at hlink
    generalize s.toMaster i = lm at hlink
    cases hlink
    rfl
  | failed => cases hm

/-- From everywhere the protocol can be finished: what is left to do gets less. -/
lemma finishes_of_linked (hl : s.Linked c st) (ht : s.Told c st tr) (hfit : sumQps c < 2 ^ 31) :
    ∃ s' tr', Run (step c) NoTimer s tr' s' ∧ s'.Finished c := by
  induction hn : s.rank c using Nat.strong_induction_on generalizing s st tr with
  | h n ih =>
    by_cases hfin : s.Finished c
    · exact ⟨s, [], .nil, hfin⟩
    · obtain ⟨l, s₁, o, hok, hs, hne⟩ := moves_of_not_finished hl hfin
      obtain ⟨rfl, -⟩ | ⟨⟨st', hl', ht'⟩, hlt⟩ := step_advances hl ht hfit hok hs
      · exact absurd rfl hne
      · obtain ⟨s', tr', hr, hfin'⟩ := ih _ (hn ▸ hlt) hl' ht' rfl
        exact ⟨s', o ++ tr', .cons hok hs hr, hfin'⟩

/-! ## Runs -/

/-- The stages of the clients at the end of a run. -/
lemma linked_of_run (hfit : sumQps c < 2 ^ 31) (hr : Run (step c) NoTimer init tr s) :
    ∃ st, s.Linked c st ∧ s.Told c st tr := by
  refine hr.inv_trace (fun tr s => ∃ st, Linked c s st ∧ Told c s st tr) ?_ ?_
  · refine ⟨fun _ => .fresh, ⟨⟨Nat.zero_le _, fun i _ => ?_⟩, fun _ _ => rfl, fun _ => .fresh, ?_⟩, ?_⟩
    · rw [if_neg (Nat.not_lt_zero i)]
    · simp [init]
    · exact ⟨by simp, by simp, fun _ => rfl, by simp [init], by simp, by simp⟩
  · rintro tr s l s' o ⟨st, hl, ht⟩ hok hs
    obtain ⟨rfl, rfl⟩ | ⟨h, -⟩ := step_advances hl ht hfit hok hs
    · rw [List.append_nil]
      exact ⟨st, hl, ht⟩
    · exact h

/-- **The control protocol.**  As long as no `kevent()` of `master_recv_qps` or `client_send_qps` returns
the timer event, the master reads each count once, its total is their sum, every client has its ACK before
it closes, no process exits with an error, and the protocol can always be finished. -/
theorem protocolOK_of_run (hfit : sumQps c < 2 ^ 31) (hr : Run (step c) NoTimer init tr s) :
    s.ProtocolOK c tr := by
  obtain ⟨st, hl, ht⟩ := linked_of_run hfit hr
  refine ⟨ht.noTimer, ht.noExit, fun i => ?_, fun qps hq => ?_, ht.ack,
    finishes_of_linked hl ht hfit⟩
  · have hcounts := ht.counts i
    split at hcounts
    · next hread =>
      refine .inr ⟨lt_of_stage hl fun hfresh => ?_, hcounts⟩
      rw [hfresh] at hread
      cases hread
    · exact .inl hcounts
  · have hm := hl.master
    rw [ht.total qps hq] at hm
    refine ⟨hm.2, fun i hi => ?_⟩
    rw [ht.counts, hm.1 i hi]
    rfl

/-! ## Two runs -/

/-- One client with 5 operations, a master with 7, and one second. -/
def oneClient : ControlCfg := ⟨1, 1, 0, fun _ => 5, 7⟩

/-- Up to the STOP the client has got, and the write of its count. -/
def untilQps : List CtlLabel :=
  [.master, .client 0, .master, .client 0, .master, .masterKevent (.conn 0), .master, .master, .master,
    .clientKevent 0 (.conn 0), .clientKevent 0 .timer, .masterKevent .timer, .master, .master, .master,
    .clientKevent 0 (.conn 0), .client 0]

/-- The run in which the next tick of the client comes before the ACK. -/
def timerRun : List CtlLabel := untilQps ++ [.clientKevent 0 .timer]

/-- The run in which all go on. -/
def finishedRun : List CtlLabel :=
  untilQps ++ [.masterKevent (.conn 0), .clientKevent 0 (.conn 0), .client 0, .master,
    .masterKevent .timer, .masterKevent (.conn 0), .master]

/-- **A timer event taken for the ACK.**  The client reads from the descriptor of the timer, and exits. -/
theorem not_protocolOK_timerRun : ∃ s tr, Run (step oneClient) anyStep init tr s ∧
    .tookTimer (.client 0) ∈ tr ∧ .exit (.client 0) ∈ tr ∧ ¬ s.ProtocolOK oneClient tr := by
  obtain ⟨s, tr, hr, hs⟩ := Run.exists_of_exec (step oneClient) init timerRun (fun r => r.2)
    [.tookTimer (.client 0), .exit (.client 0)] (by decide +kernel) guarded_anyStep
  obtain rfl : tr = _ := hs
  exact ⟨s, _, hr, by simp, by simp, fun h => h.noTimer (.client 0) (by simp)⟩

instance : ∀ s l, Decidable (NoTimer s l)
  | s, .masterKevent .timer =>
    match h : s.master with
    | .recvQps tot qps => isFalse fun hok => hok tot qps h
    | .connecting _ => isTrue fun _ _ hph => by simp [h] at hph
    | .threads => isTrue fun _ _ hph => by simp [h] at hph
    | .waitOk _ => isTrue fun _ _ hph => by simp [h] at hph
    | .sendStart _ => isTrue fun _ _ hph => by simp [h] at hph
    | .running _ => isTrue fun _ _ hph => by simp [h] at hph
    | .sendStop _ => isTrue fun _ _ hph => by simp [h] at hph
    | .waitClose _ _ => isTrue fun _ _ hph => by simp [h] at hph
    | .done _ => isTrue fun _ _ hph => by simp [h] at hph
    | .failed => isTrue fun _ _ hph => by simp [h] at hph
  | s, .clientKevent i .timer => inferInstanceAs (Decidable (s.client i ≠ .ack))
  | _, .masterKevent (.conn _) => isTrue trivial
  | _, .clientKevent _ (.conn _) => isTrue trivial
  | _, .master => isTrue trivial
  | _, .client _ => isTrue trivial

/-- The run in which all go on ends with the sum. -/
theorem protocolOK_finishedRun : ∃ s tr, Run (step oneClient) NoTimer init tr s ∧
    .total 12 ∈ tr ∧ s.ProtocolOK oneClient tr := by
  obtain ⟨s, tr, hr, hs⟩ := Run.exists_of_exec (step oneClient) init finishedRun
    (fun r => r.2.getLast?) (some (.total 12)) (by decide +kernel)
    (show Guarded (step oneClient) NoTimer init finishedRun by decide +kernel)
  exact ⟨s, tr, hr, List.mem_of_getLast? hs, protocolOK_of_run (by decide) hr⟩

end Control

end Skq.Pingpong
