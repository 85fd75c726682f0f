import SkqBench.Pingpong.Parsing

/-!
# The response of `rdb_proc`

One buffer receives the request, takes the values of a scan, and is what the response is sent from.
`rdb_proc::proc_req` computes the size of the response and sends that many bytes of the buffer, after
it has set the status to 0; the response is never serialized into the buffer.  `rdbReply_iff` says when
the peer gets the right response all the same.
-/

namespace Skq.Pingpong

open Lib

/-! ## What the response should be -/

/-- The values a scan of at most `n` entries copies; a `Next` that fails ends it. -/
def scanned : ℕ → List (List UInt8 × ℤ) → List (List UInt8)
  | 0, _ => []
  | _, [] => []
  | n + 1, (val, code) :: it => val :: if code ≠ 0 then [] else scanned n it

/-- The status code of such a scan, which was `code` before. -/
def scanCode : ℕ → List (List UInt8 × ℤ) → ℤ → ℤ
  | 0, _, code => code
  | _, [], code => code
  | n + 1, (_, code') :: it, code => if code' ≠ 0 then code' else scanCode n it code

/-- The status code of the operation, and the value that was read. -/
def rdbExpected (req : RdbReq) (answer : RdbAnswer) : RdbResp :=
  if req.op = rdbOpPut then ⟨answer.putCode, []⟩
  else if req.op = rdbOpGet then
    ⟨answer.getCode, if answer.getCode = 0 then answer.getVal else []⟩
  else
    ⟨scanCode req.optarg.toNat answer.iter answer.seekCode, (answer.iter.map Prod.fst).headD []⟩

/-- The values are copied to the buffer one after the other, as far as it holds them. -/
def overlay (buf : ℕ) (vals : List (List UInt8)) (m : Mem UInt8) : Mem UInt8 :=
  vals.foldl (fun m val => m.write buf (val.take maxBufSize.toNat)) m

/-- What the memory `m` is after a request. -/
def leftover (m : Mem UInt8) (buf : ℕ) (req : RdbReq) (answer : RdbAnswer) : Mem UInt8 :=
  if req.op = rdbOpSeek then overlay buf (scanned req.optarg.toNat answer.iter) m else m

/-- The response with the status it is sent with. -/
def RdbResp.zeroed (resp : RdbResp) : RdbResp := { resp with status := 0 }

/-! ## The three arms -/

variable {io io' : Io} {buf : ℕ} {len : ℤ} {pb : Protobuf} {db : RdbReq → RdbAnswer} {req : RdbReq}
  {r : Reply} {x : Parse}

/-- What the loop over the iterator does to the memory and to the status. -/
lemma seekLoop_eq (n : ℕ) (it : List (List UInt8 × ℤ)) (io : Io) (resp : RdbResp) :
    seekLoop buf n it io resp = ({ io with mem := overlay buf (scanned n it) io.mem },
      { resp with status := scanCode n it resp.status }) := by
  fun_induction seekLoop buf n it io resp with
  | case1 => rfl
  | case2 n => cases n <;> rfl
  | case3 n io resp val code it io' hcode => simp [scanned, scanCode, overlay, hcode, io']
  | case4 n io resp val code it io' hcode ih =>
    rw [ih]
    simp [scanned, scanCode, overlay, not_not.1 hcode, io']

/-- **What the `switch` computes** is the right response; the buffer holds what the scan has left. -/
lemma rdbSwitch_eq {res : Io × RdbResp} (h : rdbSwitch buf db req io = some res) :
    res = ({ io with mem := leftover io.mem buf req (db req) }, rdbExpected req (db req)) := by
  simp only [rdbSwitch] at h
  split at h
  · next hput =>
    cases h
    simp [leftover, rdbExpected, hput, rdbOpPut, rdbOpSeek]
  · next hput =>
    split at h
    · next hget =>
      cases h
      simp [leftover, rdbExpected, hget, rdbOpPut, rdbOpGet, rdbOpSeek]
    · next hget =>
      split at h
      · next hseek =>
        rw [seekLoop_eq] at h
        cases h
        simp only [leftover, rdbExpected, if_neg hput, if_neg hget, if_pos hseek]
        cases (db req).iter <;> rfl
      · cases h

/-! ## One call -/

/-- A `readmsg` that returns 0 has stored one frame. -/
lemma readmsg_zero (h4 : 4 ≤ len) (hmax : len < 2 ^ 31) (h : io.readmsg buf len = some (0, io')) :
    ∃ payload, Received io io' buf (frame payload) ∧ io'.msgSize buf = payload.length ∧
      io'.mem.read (buf + headerSize) payload.length = payload := by
  have huint : toUint len = len.toNat := toUint_of_lt (by omega) (by omega)
  have hroom : ¬ toUint len < headerSize := by
    rw [huint, headerSize]
    omega
  simp only [Io.readmsg, if_neg hroom] at h
  cases h₁ : io.readbuf buf headerSize with
  | none => simp [h₁] at h
  | some res =>
    obtain ⟨st, io₁⟩ := res
    simp only [h₁] at h
    split at h
    · next hne =>
      exact absurd (Prod.mk.inj (Option.some.inj h)).1 hne
    · next hne =>
      obtain rfl : st = 0 := not_not.1 hne
      obtain ⟨bs, hbs, hlen, hsize⟩ := header_spec h₁
      split at h
      · cases h
      · next hfit =>
        split at h
        · next hpos =>
          rw [toInt_of_lt (by omega) (by omega)] at h
          obtain ⟨payload, hp, ⟨-, hplen⟩ | ⟨hst, -⟩⟩ := readbuf_spec (by omega) (by omega) h
          · rw [Int.toNat_natCast] at hplen
            have hhead : frame payload = bs ++ payload := by
              rw [frame, hplen, hsize, ← hlen, leBytes_ofLeBytes]
            rw [← hlen] at hp
            refine ⟨payload, ?_, ?_, ?_⟩
            · rw [hhead]
              exact hbs.trans hp
            · rw [Io.msgSize, hp.mem, Mem.read_write_of_disjoint _ _ _ _ _ (.inl (by omega)), hplen]
              rfl
            · rw [hp.mem, ← hlen, Mem.read_write]
          · cases hst
        · next hzero =>
          obtain ⟨-, rfl⟩ := Prod.mk.inj (Option.some.inj h)
          have hzero' : io₁.msgSize buf = 0 := by omega
          refine ⟨[], ?_, hzero', rfl⟩
          have hhead : frame [] = bs := by
            rw [frame, List.length_nil, ← hzero', hsize, ← hlen, leBytes_ofLeBytes, List.append_nil]
          rwa [hhead]

/-- A response that is sent is as many bytes of the buffer. -/
lemma reply_tx {n : ℕ} (hn : n < 2 ^ 31 - 4) (h : (reply buf io n x).ret = 0) :
    (reply buf io n x).io.tx = io.tx ++ frame (io.mem.read buf n) := by
  obtain ⟨⟨st, io'⟩, hw⟩ : ∃ w, io.writemsg buf maxBufSize buf n = w := ⟨_, rfl⟩
  simp only [reply, hw] at h ⊢
  subst h
  exact writemsg_zero (Int.natCast_nonneg n) (by omega) (by decide) hw

/-- What `rdb_proc` parses was received as a frame. -/
lemma received_of_recvFrame {status : ℤ}
    (h : recvFrame (fun status => status ≠ 0) buf io = some (status, io', some x)) :
    Received io io' buf (frame x.bytes) := by
  cases hr : io.readmsg buf maxBufSize with
  | none => simp [recvFrame, hr] at h
  | some res =>
    obtain ⟨ret, io₁⟩ := res
    simp only [recvFrame, hr] at h
    split at h
    · cases h
    · next hok =>
      obtain rfl : ret = 0 := by simpa using hok
      cases h
      obtain ⟨payload, hp, hsize, hread⟩ := readmsg_zero (by decide) (by decide) hr
      simpa [hsize, hread] using hp

/-- **What is sent** by a call that returns 0: as many bytes of the buffer as the response with
status 0 has. -/
lemma rdbReply_spec (hcall : rdbProcReq pb buf db io = some r) (hret : r.ret = 0)
    (hparsed : r.parsed = [x]) (hreq : pb.rdbReq x.bytes = some req)
    (hsize : (pb.rdbResp (rdbExpected req (db req)).zeroed).length < 2 ^ 31 - 4) :
    r.io.tx = io.tx ++ frame ((leftover (io.mem.write buf (frame x.bytes)) buf req (db req)).read buf
      (pb.rdbResp (rdbExpected req (db req)).zeroed).length) := by
  simp only [rdbProcReq] at hcall
  split at hcall
  · cases hcall
  · cases hcall
    cases hparsed
  · next status io₁ y hrecv =>
    split at hcall
    · cases hcall
      cases hret
    · next req' hreq' =>
      split at hcall
      · cases hcall
        cases hret
      · next io₂ resp hswitch =>
        obtain rfl := Option.some.inj hcall
        obtain rfl : y = x := by simpa [reply] using hparsed
        obtain rfl : req' = req := Option.some.inj (hreq'.symm.trans hreq)
        obtain ⟨rfl, rfl⟩ := Prod.mk.inj (rdbSwitch_eq hswitch)
        have hrecv' := received_of_recvFrame hrecv
        have hread : io₁.mem = io.mem.write buf (frame y.bytes) := hrecv'.mem
        rw [← hread, ← hrecv'.tx]
        exact reply_tx hsize hret

lemma frame_inj {a b : List UInt8} : frame a = frame b ↔ a = b := by
  refine ⟨fun h => ?_, fun h => by rw [h]⟩
  exact (List.append_inj h (by rw [length_leBytes, length_leBytes])).2

/-- **When the peer gets the right response.**  What the request and the scan have left in the buffer
begins with the serialization of the right response, which has as many bytes as the one with
status 0. -/
theorem rdbReply_iff (hcall : rdbProcReq pb buf db io = some r) (hret : r.ret = 0)
    (hparsed : r.parsed = [x]) (hreq : pb.rdbReq x.bytes = some req)
    (hsize : (pb.rdbResp (rdbExpected req (db req)).zeroed).length < 2 ^ 31 - 4) :
    r.io.tx = io.tx ++ frame (pb.rdbResp (rdbExpected req (db req))) ↔
      (leftover (io.mem.write buf (frame x.bytes)) buf req (db req)).read buf
        (pb.rdbResp (rdbExpected req (db req)).zeroed).length = pb.rdbResp (rdbExpected req (db req)) := by
  rw [rdbReply_spec hcall hret hparsed hreq hsize, List.append_cancel_left_eq, frame_inj]

/-- An operation that succeeds and reads nothing has the right response: a message without fields has
no bytes. -/
lemma leftover_of_default {m : Mem UInt8} (hdefault : pb.rdbResp ⟨0, []⟩ = [])
    (h : rdbExpected req (db req) = ⟨0, []⟩) :
    (leftover m buf req (db req)).read buf (pb.rdbResp (rdbExpected req (db req)).zeroed).length =
      pb.rdbResp (rdbExpected req (db req)) := by
  rw [h, RdbResp.zeroed, hdefault]
  rfl

/-- An operation that fails never has: a field that is not 0 takes bytes. -/
lemma leftover_ne_of_status {m : Mem UInt8}
    (hfield : ∀ resp : RdbResp, resp.status ≠ 0 →
      (pb.rdbResp resp.zeroed).length < (pb.rdbResp resp).length)
    (h : (rdbExpected req (db req)).status ≠ 0) :
    (leftover m buf req (db req)).read buf (pb.rdbResp (rdbExpected req (db req)).zeroed).length ≠
      pb.rdbResp (rdbExpected req (db req)) := by
  intro heq
  have hlt := hfield _ h
  rw [← heq, Mem.length_read] at hlt
  exact lt_irrefl _ hlt

/-! ## Two requests -/

/-- The field `result` of a response, and before it the status, as long as both are short. -/
def shortResp (resp : RdbResp) : List UInt8 :=
  (if resp.status = 0 then [] else [8, UInt8.ofNat resp.status.toNat]) ++
    if resp.result = [] then [] else 18 :: UInt8.ofNat resp.result.length :: resp.result

/-- A protobuf that knows a `GET` and a `PUT` of one byte under the key 1. -/
def shortPb : Protobuf where
  touchReq := fun _ => none
  echoReq := fun _ => none
  rdbReq := fun bytes =>
    if bytes = [26, 1, 1] then some ⟨rdbOpGet, 0, [1], []⟩
    else if bytes = [8, 1, 26, 1, 1, 34, 1, 7] then some ⟨rdbOpPut, 0, [1], [7]⟩
    else none
  touchResp := fun _ => []
  echoResp := fun _ => []
  rdbResp := shortResp
  touchStatus := fun _ => 0
  echoStatus := fun _ => 0
  rdbStatus := fun _ => 0

/-- A database in which the key has the value 7. -/
def sevenDb : RdbReq → RdbAnswer := fun _ => ⟨0, 0, [7], 0, []⟩

/-- The response to the `PUT` is right. -/
theorem rdbReply_put : ∃ r, rdbProcReq shortPb 0 sevenDb
    (bytewise (frame [8, 1, 26, 1, 1, 34, 1, 7])) = some r ∧ r.ret = 0 ∧
      r.io.tx = [] ++ frame (shortPb.rdbResp
        (rdbExpected ⟨rdbOpPut, 0, [1], [7]⟩ (sevenDb ⟨rdbOpPut, 0, [1], [7]⟩))) := by
  have hcall : (rdbProcReq shortPb 0 sevenDb (bytewise (frame [8, 1, 26, 1, 1, 34, 1, 7]))).map
      (fun r => (r.ret, r.parsed)) = some (0, [⟨8, [8, 1, 26, 1, 1, 34, 1, 7]⟩]) := by decide +kernel
  obtain ⟨r, hr, hx⟩ := Option.map_eq_some_iff.1 hcall
  obtain ⟨hret, hparsed⟩ := Prod.mk.inj hx
  refine ⟨r, hr, hret, ?_⟩
  exact (rdbReply_iff hr hret hparsed rfl (by decide)).2 (by decide +kernel)

/-- **The response to the `GET`** is made of the first bytes of the request. -/
theorem not_rdbReply_get : ∃ r, rdbProcReq shortPb 0 sevenDb (bytewise (frame [26, 1, 1])) = some r ∧
    r.ret = 0 ∧ r.io.tx = frame [3, 0, 0] ∧
      r.io.tx ≠ frame (shortResp
        (rdbExpected ⟨rdbOpGet, 0, [1], []⟩ (sevenDb ⟨rdbOpGet, 0, [1], []⟩))) :=
  ⟨_, rfl, by decide +kernel, by decide +kernel, by decide +kernel⟩

end Skq.Pingpong
