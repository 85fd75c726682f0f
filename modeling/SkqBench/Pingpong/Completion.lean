import SkqBench.Pingpong.Parsing
import SkqBench.Pingpong.Timer
import SkqBench.Pingpong.WorkerThread

/-!
# One completion for each response

The framed workloads read one message for each read event, however its bytes arrive; the HTTP workload
reads what is there.  As long as an HTTP response is read with one `read()`, every complete response is
counted once, and `depth` never gets below 0 (`completionOK_of_run`).
-/

namespace Skq.Pingpong

open Lib

/-! ## What happened on a connection -/

variable {ι : Type*}

/-- The connection an observation is about. -/
def ThreadObs.conn : ThreadObs ι → ι
  | .sent c _ _ => c
  | .answered c _ => c
  | .read c _ => c
  | .completed c _ => c
  | .overrun c => c

/-- The observations about one connection. -/
def ofConn [DecidableEq ι] (c : ι) (tr : List (ThreadObs ι)) : List (ThreadObs ι) :=
  tr.filter fun y => y.conn = c

/-- The clock readings at which requests were completely written. -/
def sendsIn (tr : List (ThreadObs ι)) : List ℤ :=
  tr.filterMap fun
    | .sent _ clock status => if status = 0 then some clock else none
    | _ => none

/-- How many requests were sent, with any result. -/
def attemptsIn (tr : List (ThreadObs ι)) : ℕ :=
  tr.countP fun
    | .sent _ _ _ => true
    | _ => false

/-- The responses of the server, as they are on the wire. -/
def responsesIn (tr : List (ThreadObs ι)) : List (List UInt8) :=
  tr.filterMap fun
    | .answered _ resp => some resp
    | _ => none

/-- What the calls of `read_resp` have read. -/
def readsIn (tr : List (ThreadObs ι)) : List (List UInt8) :=
  tr.filterMap fun
    | .read _ bytes => some bytes
    | _ => none

/-- The answers that were counted. -/
def donesIn (tr : List (ThreadObs ι)) : List Done :=
  tr.filterMap fun
    | .completed _ x => some x
    | _ => none

/-- How many of the responses, which follow each other on a stream, end within the first `n` bytes. -/
def received : List (List UInt8) → ℕ → ℕ
  | [], _ => 0
  | resp :: resps, n => if resp.length ≤ n then received resps (n - resp.length) + 1 else 0

/-- What is asked of the completions.
* `completed`: there is one for each response that was completely read.
* `depth`: it is one less for each of them.
* `counted`: `cnt` is the number of those after the warm-up.
* `overrun`: the process does not end with "More recved packets than sent". -/
structure CompletionOK [DecidableEq ι] (w : WorkerThread ι) (tr : List (ThreadObs ι)) : Prop where
  completed : ∀ c, (donesIn (ofConn c tr)).length =
    received (responsesIn (ofConn c tr)) (readsIn (ofConn c tr)).flatten.length
  depth : ∀ c, (w.flow c).conn.depth = attemptsIn (ofConn c tr) -
    (received (responsesIn (ofConn c tr)) (readsIn (ofConn c tr)).flatten.length : ℤ)
  counted : w.cnt = (donesIn tr).countP Done.warm
  overrun : ∀ c, .overrun c ∉ tr

/-- An HTTP response is read with one `read()`: all of it has arrived, and `read()` takes it as a
whole. -/
def ReadsWhole (cfg : ThreadCfg) (w : WorkerThread ι) : ThreadLabel ι → Prop
  | .readEvent c more _ _ => cfg.workload = .http → ((w.flow c).arrive more).wire = [] ∧
    ((w.flow c).arrive more).io.rx.length ≤ consSz ∧
      (((w.flow c).arrive more).io.rx.length : ℤ) ≤ ((w.flow c).arrive more).io.recvs 0
  | _ => True

instance (cfg : ThreadCfg) (w : WorkerThread ι) : ∀ l, Decidable (ReadsWhole cfg w l)
  | .readEvent _ _ _ _ => inferInstanceAs (Decidable (_ → _))
  | .answer _ _ | .arrive _ _ | .timerEvent _ | .eof | .iterate _ | .stop => isTrue trivial

/-- The next answer can be counted. -/
def CountFits (w : WorkerThread ι) : ThreadLabel ι → Prop
  | .readEvent _ _ warm _ => warm = true → w.cnt + 1 < 2 ^ 31
  | _ => True

instance (w : WorkerThread ι) : ∀ l, Decidable (CountFits w l)
  | .readEvent _ _ _ _ => inferInstanceAs (Decidable (_ → _))
  | .answer _ _ | .arrive _ _ | .timerEvent _ | .eof | .iterate _ | .stop => isTrue trivial

/-! ## `read_resp` -/

variable {cfg : ThreadCfg} {io : Io} {buf : ℕ} {r : RespRead} {p q bytes rest rest' wire : List UInt8}

lemma frame_append_inj (hp : p.length < 2 ^ 31) (hq : q.length < 2 ^ 31)
    (h : frame p ++ rest = frame q ++ rest') : p = q ∧ rest = rest' := by
  rw [frame, frame, List.append_assoc, List.append_assoc] at h
  obtain ⟨hhead, hbody⟩ := List.append_inj h (by rw [length_leBytes, length_leBytes])
  have hlen : p.length = q.length := by
    have hval := congrArg ofLeBytes hhead
    rw [ofLeBytes_leBytes, ofLeBytes_leBytes, Nat.mod_eq_of_lt (by simp [headerSize]; omega),
      Nat.mod_eq_of_lt (by simp [headerSize]; omega)] at hval
    exact hval
  exact List.append_inj hbody hlen

/-- The header of the next frame is what announces its size. -/
lemma size_of_announces {size : ℕ} (hp : p.length < 2 ^ 31) (hrx : io.rx ++ wire = frame p ++ rest)
    (h : Announces io buf size) : size = p.length := by
  obtain ⟨⟨io', hr⟩, hsize⟩ := h
  obtain ⟨bs, hbs, hlen, -⟩ := header_spec hr
  rw [hbs.rx, ← hlen, List.take_left] at hsize
  rw [hbs.rx, frame, List.append_assoc, List.append_assoc] at hrx
  obtain ⟨hhead, -⟩ := List.append_inj hrx (by rw [hlen, length_leBytes])
  rw [← hsize, hhead, ofLeBytes_leBytes]
  exact Nat.mod_eq_of_lt (by simp [headerSize]; omega)

/-- A framed `read_resp` that returns takes the next frame. -/
lemma readResp_frame {status : List UInt8 → ℤ} (hfit : headerSize + p.length ≤ maxBufSize)
    (hrx : io.rx ++ wire = frame p ++ rest) (h : readResp status buf io = some r)
    (hret : r.ret ≠ none) : io.rx = frame p ++ r.io.rx := by
  have hplen : p.length < 2 ^ 31 := by
    rw [maxBufSize] at hfit
    omega
  cases hread : io.readmsg buf maxBufSize with
  | none => simp [readResp, recvFrame, hread] at h
  | some res =>
    obtain ⟨ret, io'⟩ := res
    simp only [readResp, recvFrame, hread] at h
    rcases readmsg_cases (by decide) (by decide) hread with
      rfl | ⟨rfl, size, hann, hbig, -⟩ | ⟨rfl, payload, htook, hle, -⟩
    · cases h
      exact absurd rfl hret
    · rw [size_of_announces hplen hrx hann] at hbig
      omega
    · cases h
      have hqlen : payload.length < 2 ^ 31 := by
        rw [maxBufSize] at hle
        omega
      rw [htook.rx, List.append_assoc] at hrx
      obtain ⟨rfl, -⟩ := frame_append_inj hqlen hplen hrx
      exact htook.rx

/-- A `read()` that takes everything. -/
lemma httpReadResp_all (hlen : io.rx.length ≤ consSz) (hall : (io.rx.length : ℤ) ≤ io.recvs 0)
    (hne : io.rx ≠ []) (h : httpReadResp buf io = some r) : r.io.rx = [] := by
  have hpos : 0 < io.rx.length := List.length_pos_iff.2 hne
  simp only [httpReadResp, Io.recv, if_neg (show ¬ io.recvs 0 < 0 by omega),
    if_neg (show ¬ io.recvs 0 = 0 by omega), if_neg hne] at h
  cases h
  refine List.drop_eq_nil_iff.2 ?_
  omega

/-- **`read_resp` takes one response**, if it returns. -/
lemma readResp_whole (hresp : cfg.workload.encode p = some bytes)
    (hrx : io.rx ++ wire = bytes ++ rest)
    (hhttp : cfg.workload = .http → wire = [] ∧ rest = [] ∧ io.rx.length ≤ consSz ∧
      (io.rx.length : ℤ) ≤ io.recvs 0 ∧ io.rx ≠ [])
    (h : cfg.workload.readResp cfg.pb cfg.buf io = some r) (hret : r.ret ≠ none) :
    io.rx = bytes ++ r.io.rx := by
  cases hw : cfg.workload with
  | http =>
    obtain ⟨rfl, rfl, hlen, hall, hne⟩ := hhttp hw
    rw [hw] at h
    rw [httpReadResp_all hlen hall hne h]
    simpa using hrx
  | echo | touch | rdb =>
    simp only [hw, Workload.encode] at hresp
    split at hresp
    · next hfit =>
      cases hresp
      rw [hw] at h
      exact readResp_frame hfit hrx h hret
    · cases hresp

lemma encode_ne_nil (hresp : cfg.workload.encode p = some bytes) : bytes ≠ [] := by
  cases hw : cfg.workload with
  | http =>
    simp only [hw, Workload.encode] at hresp
    split at hresp
    · cases hresp
    · next hne =>
      cases hresp
      exact hne
  | echo | touch | rdb =>
    simp only [hw, Workload.encode] at hresp
    split at hresp
    · cases hresp
      rintro hnil
      have hlen := congrArg List.length hnil
      rw [frame, List.length_append, length_leBytes] at hlen
      simp [headerSize] at hlen
    · cases hresp

/-! ## The invariant of a connection -/

/-- What a connection knows of its observations `tr`.
* `split`: the responses that were not read are what is before the connection.
* `asked`, `sends`: who owes whom.
* `depth`, `le`: `depth` counts what was sent and not read.
* `slot`: `last_send` belongs to the request that is answered next.
* `done`, `lat`: an answer is counted for each read, with the value of its own request. -/
structure FlowOK (cfg : ThreadCfg) (tr : List (ThreadObs ι)) (flow : Flow) : Prop where
  split : ∃ pending, responsesIn tr = readsIn tr ++ pending ∧
    flow.io.rx ++ flow.wire = pending.flatten
  encoded : ∀ bytes ∈ responsesIn tr, ∃ resp, cfg.workload.encode resp = some bytes
  asked : (responsesIn tr).length + flow.asked = (sendsIn tr).length
  sends : (sendsIn tr).length ≤ attemptsIn tr
  depth : flow.conn.depth = attemptsIn tr - ((readsIn tr).length : ℤ)
  le : flow.conn.depth ≤ depthLimit
  slot : (readsIn tr).length < (sendsIn tr).length →
    ∃ clock, (sendsIn tr)[(readsIn tr).length]? = some clock ∧ flow.conn.lastSend = toInt64 clock
  done : (donesIn tr).length = (readsIn tr).length
  lat : ∀ (k : ℕ) (x : Done), (donesIn tr)[k]? = some x →
    ∃ clock, (sendsIn tr)[k]? = some clock ∧ ∀ v ∈ x.lat, v = toUint64 (x.clock - clock)

namespace FlowOK

variable {tr : List (ThreadObs ι)} {flow flow' : Flow} {c : ι}

lemma calm (h : FlowOK cfg tr flow) (hcalm : flow.Calm flow') : FlowOK cfg tr flow' where
  split := by
    rw [hcalm.bytes]
    exact h.split
  encoded := h.encoded
  asked := by
    rw [hcalm.asked]
    exact h.asked
  sends := h.sends
  depth := hcalm.depth.trans h.depth
  le := hcalm.depth.trans_le h.le
  slot := by
    rw [hcalm.lastSend]
    exact h.slot
  done := h.done
  lat := h.lat

/-- What was read, was answered before, and what was answered, was sent before. -/
lemma lengths (h : FlowOK cfg tr flow) : (readsIn tr).length ≤ (responsesIn tr).length ∧
    (responsesIn tr).length ≤ (sendsIn tr).length := by
  obtain ⟨pending, hsplit, -⟩ := h.split
  have hlen := congrArg List.length hsplit
  rw [List.length_append] at hlen
  have hasked := h.asked
  omega

/-- A request is sent: all earlier ones are answered and read. -/
lemma sent {clock status : ℤ} (h : FlowOK cfg tr flow) (hs : flow.Sends flow' clock status) :
    FlowOK cfg (tr ++ [.sent c clock status]) flow' := by
  have hlen := h.lengths
  have hroom := hs.room
  have hdepth := h.depth
  have hsends := h.sends
  have hresps : responsesIn (tr ++ [.sent c clock status]) = responsesIn tr := by simp [responsesIn]
  have hreads : readsIn (tr ++ [.sent c clock status]) = readsIn tr := by simp [readsIn]
  have hdones : donesIn (tr ++ [.sent c clock status]) = donesIn tr := by simp [donesIn]
  have hatt : attemptsIn (tr ++ [.sent c clock status]) = attemptsIn tr + 1 := by simp [attemptsIn]
  have hsent : sendsIn (tr ++ [.sent c clock status]) =
      sendsIn tr ++ if status = 0 then [clock] else [] := by
    by_cases hst : status = 0 <;> simp [sendsIn, hst]
  rw [depthLimit] at hroom
  have hall : (readsIn tr).length = (sendsIn tr).length := by omega
  refine ⟨?_, ?_, ?_, ?_, ?_, ?_, ?_, ?_, ?_⟩
  · rw [hresps, hreads, hs.bytes]
    exact h.split
  · rw [hresps]
    exact h.encoded
  · have hasked := h.asked
    rw [hresps, hs.asked, hsent, List.length_append]
    split
    · simp
      omega
    · simp
      omega
  · rw [hsent, hatt, List.length_append]
    split
    · simp
      omega
    · simp
      omega
  · rw [hatt, hreads, hs.depth]
    push_cast
    omega
  · rw [hs.depth, depthLimit]
    omega
  · rw [hreads, hsent, hs.lastSend]
    intro hlt
    refine ⟨clock, ?_, rfl⟩
    by_cases hst : status = 0
    · rw [if_pos hst, hall, List.getElem?_concat_length]
    · rw [if_neg hst, List.append_nil, hall] at hlt
      exact absurd hlt (lt_irrefl _)
  · rw [hdones, hreads]
    exact h.done
  · rw [hdones, hsent]
    intro k x hx
    obtain ⟨clk, hclk, hv⟩ := h.lat k x hx
    exact ⟨clk, List.getElem?_append_left (List.getElem?_eq_some_iff.1 hclk).1 ▸ hclk, hv⟩

/-- The server answers. -/
lemma answered (h : FlowOK cfg tr flow) (hresp : cfg.workload.encode p = some bytes)
    (hasked : flow.asked ≠ 0) : FlowOK cfg (tr ++ [.answered c bytes])
      { flow with wire := flow.wire ++ bytes, asked := flow.asked - 1 } := by
  have hresps : responsesIn (tr ++ [.answered c bytes]) = responsesIn tr ++ [bytes] := by
    simp [responsesIn]
  have hreads : readsIn (tr ++ [.answered c bytes]) = readsIn tr := by simp [readsIn]
  have hdones : donesIn (tr ++ [.answered c bytes]) = donesIn tr := by simp [donesIn]
  have hatt : attemptsIn (tr ++ [.answered c bytes]) = attemptsIn tr := by simp [attemptsIn]
  have hsent : sendsIn (tr ++ [.answered c bytes]) = sendsIn tr := by simp [sendsIn]
  refine ⟨?_, ?_, ?_, ?_, ?_, h.le, ?_, ?_, ?_⟩
  · obtain ⟨pending, hsplit, hbytes⟩ := h.split
    refine ⟨pending ++ [bytes], ?_, ?_⟩
    · rw [hresps, hreads, hsplit, List.append_assoc]
    · rw [← List.append_assoc, hbytes]
      simp
  · rw [hresps]
    intro b hb
    rcases List.mem_append.1 hb with hb | hb
    · exact h.encoded b hb
    · exact ⟨p, (List.mem_singleton.1 hb) ▸ hresp⟩
  · have hlen := h.asked
    rw [hresps, hsent, List.length_append]
    simp
    omega
  · rw [hsent, hatt]
    exact h.sends
  · rw [hatt, hreads]
    exact h.depth
  · rw [hreads, hsent]
    exact h.slot
  · rw [hdones, hreads]
    exact h.done
  · rw [hdones, hsent]
    exact h.lat

/-- What is before a connection with something to read is one response. -/
lemma pending (h : FlowOK cfg tr flow) (hrx : flow.io.rx ≠ []) : ∃ bytes p,
    cfg.workload.encode p = some bytes ∧ responsesIn tr = readsIn tr ++ [bytes] ∧
      flow.io.rx ++ flow.wire = bytes := by
  obtain ⟨pending, hsplit, hbytes⟩ := h.split
  have hlen := congrArg List.length hsplit
  rw [List.length_append] at hlen
  have hlengths := h.lengths
  have hsends := h.sends
  have hdepth := h.depth
  have hle := h.le
  rw [depthLimit] at hle
  -- the depth limit is 1
  match pending, hsplit, hbytes, hlen with
  | [], _, hbytes, _ => exact absurd (List.append_eq_nil_iff.1 hbytes).1 hrx
  | [bytes], hsplit, hbytes, _ =>
    obtain ⟨p, hp⟩ := h.encoded bytes (by simp [hsplit])
    exact ⟨bytes, p, hp, hsplit, by simpa using hbytes⟩
  | _ :: _ :: _, _, _, hlen =>
    simp only [List.length_cons] at hlen
    omega

/-- The difference of the clock readings. -/
lemma toUint64_sub_toInt64 (x y : ℤ) : toUint64 (x - toInt64 y) = toUint64 (x - y) := by
  have hmod : y.bmod (2 ^ 64) % 2 ^ 64 = y % 2 ^ 64 := by exact_mod_cast Int.bmod_emod
  rw [toUint64, toUint64, toInt64, Int.sub_emod, hmod, ← Int.sub_emod]

/-- The response that is before a connection has taken a place in `depth`. -/
lemma depth_pos (h : FlowOK cfg tr flow) (hsplit : responsesIn tr = readsIn tr ++ [bytes]) :
    0 < flow.conn.depth := by
  have hlen := congrArg List.length hsplit
  rw [List.length_append, List.length_singleton] at hlen
  have hlengths := h.lengths
  have hsends := h.sends
  have hdepth := h.depth
  omega

/-- `read_resp` takes the response that is before the connection, and nothing is left. -/
lemma takes (h : FlowOK cfg tr flow) (hrx : flow.io.rx ≠ [])
    (hhttp : cfg.workload = .http → flow.wire = [] ∧ flow.io.rx.length ≤ consSz ∧
      (flow.io.rx.length : ℤ) ≤ flow.io.recvs 0)
    (hread : cfg.workload.readResp cfg.pb cfg.buf flow.io = some r) (hret : r.ret ≠ none) :
    responsesIn tr = readsIn tr ++ [flow.io.rx.take (flow.io.rx.length - r.io.rx.length)] ∧
      r.io.rx ++ flow.wire = [] := by
  obtain ⟨bytes, p, hp, hsplit, hbytes⟩ := h.pending hrx
  have hbytes' : flow.io.rx ++ flow.wire = bytes ++ [] := by simpa using hbytes
  have htook : flow.io.rx = bytes ++ r.io.rx := by
    refine readResp_whole hp hbytes' (fun hw => ?_) hread hret
    obtain ⟨hwire, hlen, hall⟩ := hhttp hw
    exact ⟨hwire, rfl, hlen, hall, hrx⟩
  have htake : flow.io.rx.take (flow.io.rx.length - r.io.rx.length) = bytes := by
    rw [htook, List.length_append, Nat.add_sub_cancel, List.take_left]
  refine ⟨by rw [htake, hsplit], ?_⟩
  rw [htook, List.append_assoc] at hbytes
  simpa using hbytes

/-- A response is read, and counted. -/
lemma read {x : Done} {io' : Io} (h : FlowOK cfg tr flow)
    (hsplit : responsesIn tr = readsIn tr ++ [bytes]) (hrest : io'.rx ++ flow.wire = [])
    (hlat : ∀ v ∈ x.lat, v = toUint64 (x.clock - flow.conn.lastSend)) :
    FlowOK cfg (tr ++ [.read c bytes, .completed c x])
      { flow with conn := { flow.conn with depth := flow.conn.depth - 1 }, io := io' } := by
  have hlen := congrArg List.length hsplit
  rw [List.length_append, List.length_singleton] at hlen
  have hlengths := h.lengths
  have hsends := h.sends
  have hdepth := h.depth
  have hle := h.le
  rw [depthLimit] at hle
  have hresps : responsesIn (tr ++ [.read c bytes, .completed c x]) = responsesIn tr := by
    simp [responsesIn]
  have hreads : readsIn (tr ++ [.read c bytes, .completed c x]) = readsIn tr ++ [bytes] := by
    simp [readsIn]
  have hdones : donesIn (tr ++ [.read c bytes, .completed c x]) = donesIn tr ++ [x] := by
    simp [donesIn]
  have hatt : attemptsIn (tr ++ [.read c bytes, .completed c x]) = attemptsIn tr := by
    simp [attemptsIn]
  have hsent : sendsIn (tr ++ [.read c bytes, .completed c x]) = sendsIn tr := by simp [sendsIn]
  have hrlen : (readsIn tr ++ [bytes]).length = (readsIn tr).length + 1 := by simp
  refine ⟨⟨[], ?_, ?_⟩, ?_, ?_, ?_, ?_, ?_, ?_, ?_, ?_⟩
  · rw [hresps, hreads, hsplit, List.append_nil]
  · exact hrest
  · rw [hresps]
    exact h.encoded
  · rw [hresps, hsent]
    exact h.asked
  · rw [hsent, hatt]
    exact h.sends
  · rw [hatt, hreads, hrlen]
    push_cast
    omega
  · show flow.conn.depth - 1 ≤ depthLimit
    rw [depthLimit]
    omega
  · rw [hreads, hsent, hrlen]
    intro hlt
    omega
  · rw [hdones, hreads, hrlen, List.length_append, h.done]
    rfl
  · rw [hdones, hsent]
    intro k y hy
    rcases lt_or_ge k (donesIn tr).length with hk | hk
    · rw [List.getElem?_append_left hk] at hy
      exact h.lat k y hy
    · -- the answer that is counted now
      rw [List.getElem?_append_right hk, List.getElem?_singleton] at hy
      split at hy
      · next hk' =>
        obtain rfl := Option.some.inj hy
        have hdone := h.done
        obtain ⟨clock, hclock, hslot⟩ := h.slot (by omega)
        obtain rfl : k = (readsIn tr).length := by omega
        refine ⟨clock, hclock, fun v hv => ?_⟩
        rw [hlat v hv, hslot, toUint64_sub_toInt64]
      · cases hy

end FlowOK

/-! ## The invariant of the thread -/

variable [DecidableEq ι] {w w' : WorkerThread ι} {l : ThreadLabel ι} {tr o : List (ThreadObs ι)} {c : ι}

/-- The invariant of all connections, and what the thread has counted and appended. -/
structure WorkerThread.Inv (cfg : ThreadCfg) (w : WorkerThread ι) (tr : List (ThreadObs ι)) : Prop where
  flow : ∀ c, FlowOK cfg (ofConn c tr) (w.flow c)
  counted : w.cnt = toInt ((donesIn tr).countP Done.warm)
  stats : w.stats = (donesIn tr).filterMap Done.lat
  lat : ∀ x ∈ donesIn tr, x.lat.isSome = (x.warm && !cfg.clientMode)
  overrun : ∀ c, .overrun c ∉ tr

lemma ofConn_append_self (ho : ∀ y ∈ o, y.conn = c) : ofConn c (tr ++ o) = ofConn c tr ++ o := by
  have hall : o.filter (fun y => y.conn = c) = o := List.filter_eq_self.2 (by simpa using ho)
  rw [ofConn, List.filter_append, hall, ofConn]

lemma ofConn_append_of_ne {d : ι} (hd : d ≠ c) (ho : ∀ y ∈ o, y.conn = c) :
    ofConn d (tr ++ o) = ofConn d tr := by
  have hnone : o.filter (fun y => y.conn = d) = [] := by
    rw [List.filter_eq_nil_iff]
    intro y hy
    simpa [ho y hy] using hd.symm
  rw [ofConn, List.filter_append, hnone, List.append_nil, ofConn]

/-- One connection moves. -/
lemma flowOK_update {flow : Flow} (h : ∀ d, FlowOK cfg (ofConn d tr) (w.flow d))
    (ho : ∀ y ∈ o, y.conn = c) (hflow : w'.flow = Function.update w.flow c flow)
    (hc : FlowOK cfg (ofConn c tr ++ o) flow) (d : ι) :
    FlowOK cfg (ofConn d (tr ++ o)) (w'.flow d) := by
  rw [hflow]
  by_cases hd : d = c
  · subst hd
    rwa [Function.update_self, ofConn_append_self ho]
  · rw [Function.update_of_ne hd, ofConn_append_of_ne hd ho]
    exact h d

lemma toInt_succ (n : ℕ) : toInt (toInt n + 1) = toInt ((n + 1 : ℕ) : ℤ) := by
  rw [toInt, toInt, toInt, Int.bmod_add_bmod]
  push_cast
  rfl

/-- A step of one connection that counts nothing. -/
lemma WorkerThread.Inv.uncounted {flow : Flow} {y : ThreadObs ι} (h : w.Inv cfg tr) (hy : y.conn = c)
    (hdone : donesIn [y] = []) (hover : ∀ d, y ≠ .overrun d)
    (hflow : w'.flow = Function.update w.flow c flow) (hc : FlowOK cfg (ofConn c tr ++ [y]) flow)
    (hcnt : w'.cnt = w.cnt) (hstats : w'.stats = w.stats) : w'.Inv cfg (tr ++ [y]) := by
  have hdones : donesIn (tr ++ [y]) = donesIn tr := by
    rw [donesIn, List.filterMap_append]
    exact (congrArg (donesIn tr ++ ·) hdone).trans (List.append_nil _)
  refine ⟨flowOK_update h.flow (by simpa using hy) hflow hc, ?_, ?_, ?_, fun d hd => ?_⟩
  · rw [hcnt, hdones]
    exact h.counted
  · rw [hstats, hdones]
    exact h.stats
  · rw [hdones]
    exact h.lat
  · rcases List.mem_append.1 hd with hd | hd
    · exact h.overrun d hd
    · exact hover d (List.mem_singleton.1 hd).symm

/-- One step. -/
lemma WorkerThread.Inv.step (h : w.Inv cfg tr) (hok : ReadsWhole cfg w l)
    (hs : w.step cfg l = some (w', o)) : w'.Inv cfg (tr ++ o) := by
  cases WorkerThread.step_does hs with
  | calm hflow hcnt hstats =>
    rw [List.append_nil]
    exact ⟨fun c => (h.flow c).calm (hflow c), hcnt ▸ h.counted, hstats ▸ h.stats, h.lat, h.overrun⟩
  | sends c flow clock status hsends hflow hcnt hstats =>
    exact h.uncounted rfl rfl (by simp) hflow ((h.flow c).sent hsends) hcnt hstats
  | answers c resp bytes hresp hasked hflow hcnt hstats =>
    exact h.uncounted rfl rfl (by simp) hflow ((h.flow c).answered hresp hasked) hcnt hstats
  | reads c more x flow status r hl harr hrx hnonneg hread hret hdepth hlat hflow hcnt hstats =>
    subst hl harr
    have harrived := (h.flow c).calm (Flow.calm_arrive _ more)
    have hrx' : ((w.flow c).arrive more).io.rx ≠ [] := by simp [Flow.arrive, hrx]
    obtain ⟨hsplit, hrest⟩ := harrived.takes hrx' hok hread (by simp [hret])
    set bytes := ((w.flow c).arrive more).io.rx.take
      (((w.flow c).arrive more).io.rx.length - r.io.rx.length)
    have hdones : donesIn (tr ++ [.read c bytes, .completed c x]) = donesIn tr ++ [x] := by
      simp [donesIn]
    have hvalue : ∀ v ∈ x.lat, v = toUint64 (x.clock - ((w.flow c).arrive more).conn.lastSend) := by
      intro v hv
      rw [hlat] at hv
      split at hv
      · exact (Option.some.inj hv).symm
      · cases hv
    refine ⟨flowOK_update h.flow (by simp [ThreadObs.conn]) hflow (harrived.read hsplit hrest hvalue),
      ?_, ?_, ?_, ?_⟩
    · rw [hcnt, hdones, List.countP_append, h.counted]
      cases hwarm : x.warm with
      | true => simpa [hwarm] using toInt_succ _
      | false => simp [hwarm]
    · rw [hstats, hdones, List.filterMap_append, h.stats]
      cases hx : x.lat <;> simp [hx]
    · rw [hdones]
      intro y hy
      rcases List.mem_append.1 hy with hy | hy
      · exact h.lat y hy
      · obtain rfl := List.mem_singleton.1 hy
        rw [hlat]
        split
        · next hcond => simp [hcond]
        · next hcond => simpa using hcond
    · simpa using h.overrun
  | overruns c more warm clock flow status r hl harr hrx hnonneg hread hret hdepth hflow =>
    subst hl harr
    have harrived := (h.flow c).calm (Flow.calm_arrive _ more)
    have hrx' : ((w.flow c).arrive more).io.rx ≠ [] := by simp [Flow.arrive, hrx]
    -- a response is counted before it is read
    have hpos := harrived.depth_pos (harrived.takes hrx' hok hread (by simp [hret])).1
    omega

variable {start lastSend : ι → ℤ} {io₀ : ι → Io}

lemma WorkerThread.inv_init : (WorkerThread.init start lastSend io₀).Inv cfg [] := by
  refine ⟨fun c => ?_, by simp [init, donesIn, toInt], rfl, by simp [donesIn], by simp⟩
  exact ⟨⟨[], rfl, rfl⟩, by simp [ofConn, responsesIn], rfl, Nat.le_refl _, rfl,
    show (0 : ℤ) ≤ depthLimit by decide, by simp [ofConn, readsIn, sendsIn], rfl,
    by simp [ofConn, donesIn]⟩

/-- Runs in which every response is read with one call. -/
lemma WorkerThread.inv_of_run {ok : WorkerThread ι → ThreadLabel ι → Prop}
    (hok : ∀ w l, ok w l → ReadsWhole cfg w l)
    (hr : Run (WorkerThread.step cfg) ok (.init start lastSend io₀) tr w) : w.Inv cfg tr :=
  hr.inv_trace (fun tr w => w.Inv cfg tr) inv_init fun _ _ _ _ _ h hl hs => h.step (hok _ _ hl) hs

/-! ## Completions -/

lemma received_append {reads pending : List (List UInt8)} (hne : ∀ bytes ∈ pending, bytes ≠ []) :
    received (reads ++ pending) reads.flatten.length = reads.length := by
  induction reads with
  | nil =>
    cases pending with
    | nil => rfl
    | cons bytes pending =>
      have hpos : 0 < bytes.length := List.length_pos_iff.2 (hne bytes List.mem_cons_self)
      simp only [List.nil_append, received, List.flatten_nil, List.length_nil]
      rw [if_neg (by omega)]
  | cons bytes reads ih =>
    simp only [List.cons_append, received, List.flatten_cons, List.length_append, List.length_cons]
    rw [if_pos (by omega), Nat.add_sub_cancel_left, ih]

omit [DecidableEq ι] in
/-- The responses that were read completely are those that were read. -/
lemma FlowOK.received_eq {flow : Flow} (h : FlowOK cfg tr flow) :
    received (responsesIn tr) (readsIn tr).flatten.length = (readsIn tr).length := by
  obtain ⟨pending, hsplit, -⟩ := h.split
  rw [hsplit]
  refine received_append fun bytes hb => ?_
  obtain ⟨p, hp⟩ := h.encoded bytes (by simp [hsplit, hb])
  exact encode_ne_nil hp

/-- An `int` counts the next answer, too. -/
lemma countP_warm_lt (h : w.Inv cfg tr) (hfits : (donesIn tr).countP Done.warm < 2 ^ 31)
    (hcount : CountFits w l) (hs : w.step cfg l = some (w', o)) :
    (donesIn (tr ++ o)).countP Done.warm < 2 ^ 31 := by
  have hcnt : w.cnt = (donesIn tr).countP Done.warm := by
    rw [h.counted, toInt_of_lt (by omega) (by omega)]
  have hdones : donesIn (tr ++ o) = donesIn tr ++ donesIn o := List.filterMap_append
  rw [hdones, List.countP_append]
  cases WorkerThread.step_does hs with
  | calm | sends | answers | overruns => simpa [donesIn] using hfits
  | reads c more x flow status r hl =>
    subst hl
    have hone : (donesIn [.read c (flow.io.rx.take (flow.io.rx.length - r.io.rx.length)),
        .completed c x]).countP Done.warm = if x.warm then 1 else 0 := by simp [donesIn]
    rw [hone]
    split
    · next hwarm =>
      have hlt := hcount hwarm
      omega
    · exact hfits

/-- **One completion for each response.**  In every run in which an HTTP response is read with one
`read()`, and an `int` can count the answers: each complete response lowers `depth` once and is counted
once, and the process never ends with "More recved packets than sent".  A framed response may arrive
in any pieces. -/
theorem completionOK_of_run (hr : Run (WorkerThread.step cfg)
    (fun w l => ReadsWhole cfg w l ∧ CountFits w l) (.init start lastSend io₀) tr w) :
    CompletionOK w tr := by
  obtain ⟨h, hfits⟩ : w.Inv cfg tr ∧ (donesIn tr).countP Done.warm < 2 ^ 31 := by
    refine hr.inv_trace (fun tr w => w.Inv cfg tr ∧ (donesIn tr).countP Done.warm < 2 ^ 31)
      ⟨WorkerThread.inv_init, by simp [donesIn]⟩ ?_
    rintro tr w l w' o ⟨h, hfits⟩ ⟨hwhole, hcount⟩ hs
    exact ⟨h.step hwhole hs, countP_warm_lt h hfits hcount hs⟩
  refine ⟨fun c => ?_, fun c => ?_, ?_, h.overrun⟩
  · rw [(h.flow c).received_eq, (h.flow c).done]
  · rw [(h.flow c).received_eq, (h.flow c).depth]
  · rw [h.counted, toInt_of_lt (by omega) (by omega)]

/-- A protobuf without messages. -/
def idlePb : Protobuf where
  touchReq := fun _ => none
  echoReq := fun _ => none
  rdbReq := fun _ => none
  touchResp := fun _ => []
  echoResp := fun _ => []
  rdbResp := fun _ => []
  touchStatus := fun _ => 0
  echoStatus := fun _ => 0
  rdbStatus := fun _ => 0

/-- A worker with one connection, from which the kernel delivers up to four bytes at a time. -/
def oneConn : WorkerThread Unit :=
  .init (fun _ => 0) (fun _ => 0) fun _ => ⟨fun _ => 0, [], [], fun _ => 4, fun _ => 4⟩

/-- A request is sent, and its response arrives in two pieces, the second one while `read_resp`
waits. -/
def framedRun : List (ThreadLabel Unit) :=
  [.timerEvent (), .iterate (calm 0), .iterate (calm 0), .iterate (calm 0), .answer () [],
    .arrive () 3, .readEvent () 1 true 3]

/-- The same with a response of two bytes, and a read event for each of them. -/
def splitRun : List (ThreadLabel Unit) :=
  [.timerEvent (), .iterate (calm 0), .iterate (calm 0), .iterate (calm 0), .answer () [72, 84],
    .arrive () 1, .readEvent () 0 true 3, .iterate (calm 3), .arrive () 1, .readEvent () 0 true 4]

lemma framedRun_guarded : Guarded (WorkerThread.step ⟨.echo, idlePb, 0, false⟩)
    (fun w l => ReadsWhole ⟨.echo, idlePb, 0, false⟩ w l ∧ CountFits w l) oneConn framedRun := by
  decide +kernel

/-- A framed response in two pieces is counted once. -/
theorem completionOK_framedRun : ∃ w tr, Run (WorkerThread.step ⟨.echo, idlePb, 0, false⟩)
    (fun w l => ReadsWhole ⟨.echo, idlePb, 0, false⟩ w l ∧ CountFits w l) oneConn tr w ∧
      donesIn tr = [⟨3, true, some 3⟩] ∧ CompletionOK w tr := by
  obtain ⟨w, tr, hr, hdones⟩ := Run.exists_of_exec (WorkerThread.step ⟨.echo, idlePb, 0, false⟩) oneConn
    framedRun (fun r => donesIn r.2) [⟨3, true, some 3⟩] (by decide +kernel) framedRun_guarded
  exact ⟨w, tr, hr, hdones, completionOK_of_run hr⟩

/-- **A split HTTP response** is counted with its first piece, and ends the process with the second. -/
theorem not_completionOK_splitRun : ∃ w tr, Run (WorkerThread.step ⟨.http, idlePb, 0, false⟩) anyStep
    oneConn tr w ∧ .overrun () ∈ tr ∧ ¬ CompletionOK w tr := by
  obtain ⟨w, tr, hr, hover⟩ := Run.exists_of_exec (WorkerThread.step ⟨.http, idlePb, 0, false⟩) oneConn
    splitRun (fun r => decide (.overrun () ∈ r.2)) true (by decide +kernel) guarded_anyStep
  exact ⟨w, tr, hr, of_decide_eq_true hover, fun h => h.overrun () (of_decide_eq_true hover)⟩

end Skq.Pingpong
