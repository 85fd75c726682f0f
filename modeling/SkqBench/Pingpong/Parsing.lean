import SkqBench.Pingpong.ReqProc

/-!
# What is parsed

`readmsg_cases` says what a call of `readmsg` can do with an arbitrary stream.  A failure is below 0
or `EOVERFLOW`, which is above 0: a caller that tests `ret < 0` goes on after a header that
announces more than the buffer holds, and parses.  `parsesComplete_iff` says for which callers and
streams that is so.
-/

namespace Skq.Pingpong

open Lib

variable {io io' : Io} {buf : ℕ} {len status : ℤ}

/-! ## Every outcome of `readmsg` -/

/-- The header of a message is received, and announces `size` bytes. -/
def Announces (io : Io) (buf size : ℕ) : Prop :=
  (∃ io', io.readbuf buf headerSize = some (0, io')) ∧
    ofLeBytes (io.rx.take headerSize) = size

lemma header_spec (h : io.readbuf buf headerSize = some (0, io')) :
    ∃ bs, Received io io' buf bs ∧ bs.length = headerSize ∧ io'.msgSize buf = ofLeBytes bs := by
  obtain ⟨bs, hbs, ⟨-, hlen⟩ | ⟨hst, -⟩⟩ := readbuf_spec (by simp [headerSize])
    (by simp [headerSize]) h
  · have hlen' : bs.length = headerSize := hlen
    refine ⟨bs, hbs, hlen', ?_⟩
    have hread := Mem.read_write io.mem buf bs
    rw [hlen'] at hread
    rw [Io.msgSize, hbs.mem, hread]
  · cases hst

/-- A received header announces what the buffer then holds. -/
lemma announces_msgSize (h : io.readbuf buf headerSize = some (0, io')) :
    Announces io buf (io'.msgSize buf) := by
  obtain ⟨bs, hbs, hlen, hsize⟩ := header_spec h
  refine ⟨⟨io', h⟩, ?_⟩
  rw [hsize, hbs.rx, ← hlen, List.take_left]

/-- One frame was taken off the stream, and is in the buffer. -/
structure TookFrame (io io' : Io) (buf : ℕ) (payload : List UInt8) : Prop where
  rx : io.rx = frame payload ++ io'.rx
  size : io'.msgSize buf = payload.length
  mem : io'.mem.read (buf + headerSize) payload.length = payload

/-- The payload of a header that fits. -/
lemma payload_spec {io₁ : Io} (h₁ : io.readbuf buf headerSize = some (0, io₁))
    (hpos : 0 < io₁.msgSize buf) (hmax : io₁.msgSize buf < 2 ^ 31)
    (h : io₁.readbuf (buf + headerSize) (io₁.msgSize buf) = some (status, io')) :
    status = -1 ∨ status = 0 ∧ ∃ payload, TookFrame io io' buf payload ∧
      payload.length = io₁.msgSize buf := by
  obtain ⟨bs, hbs, hlen, hsize⟩ := header_spec h₁
  obtain ⟨payload, hp, ⟨rfl, hplen⟩ | ⟨rfl, -⟩⟩ := readbuf_spec (by omega) (by omega) h
  · rw [Int.toNat_natCast] at hplen
    refine .inr ⟨rfl, payload, ⟨?_, ?_, ?_⟩, hplen⟩
    · have hhead : leBytes headerSize payload.length = bs := by
        rw [hplen, hsize, ← hlen, leBytes_ofLeBytes]
      rw [frame, hhead, hbs.rx, hp.rx, List.append_assoc]
    · rw [Io.msgSize, hp.mem, Mem.read_write_of_disjoint _ _ _ _ _ (.inl le_rfl), hplen]
      rfl
    · rw [hp.mem, Mem.read_write]
  · exact .inl rfl

/-- A message without payload. -/
lemma emptyFrame_spec (h : io.readbuf buf headerSize = some (0, io'))
    (hzero : io'.msgSize buf = 0) : TookFrame io io' buf [] := by
  obtain ⟨bs, hbs, hlen, hsize⟩ := header_spec h
  refine ⟨?_, hzero, rfl⟩
  have hhead : leBytes headerSize 0 = bs := by
    rw [← hzero, hsize, ← hlen, leBytes_ofLeBytes]
  rw [hbs.rx, frame, List.length_nil, hhead, List.append_nil]

/-- **What `readmsg` can do**: fail, refuse a header that announces too much, or take a frame. -/
lemma readmsg_cases (h4 : 4 ≤ len) (hmax : len < 2 ^ 31)
    (h : io.readmsg buf len = some (status, io')) :
    status = -1 ∨
    (status = eoverflow ∧ ∃ size, Announces io buf size ∧ len < headerSize + size ∧
      io'.msgSize buf = size) ∨
    (status = 0 ∧ ∃ payload, TookFrame io io' buf payload ∧
      headerSize + payload.length ≤ len ∧ Announces io buf payload.length) := by
  have huint : toUint len = len.toNat := toUint_of_lt (by omega) (by omega)
  have hroom : ¬ toUint len < headerSize := by
    rw [huint, headerSize]
    omega
  simp only [Io.readmsg, if_neg hroom] at h
  cases h₁ : io.readbuf buf headerSize with
  | none => simp [h₁] at h
  | some r =>
    obtain ⟨st, io₁⟩ := r
    simp only [h₁] at h
    split at h
    · next hne =>
      obtain ⟨rfl, rfl⟩ := Prod.mk.inj (Option.some.inj h)
      obtain ⟨bs, -, ⟨hst, -⟩ | ⟨hst, -⟩⟩ := readbuf_spec (by simp [headerSize])
        (by simp [headerSize]) h₁
      · exact absurd hst hne
      · exact .inl hst
    · next hne =>
      obtain rfl : st = 0 := not_not.1 hne
      have hann := announces_msgSize h₁
      split at h
      · next hover =>
        obtain ⟨rfl, rfl⟩ := Prod.mk.inj (Option.some.inj h)
        exact .inr (.inl ⟨rfl, _, hann, by omega, rfl⟩)
      · next hfit =>
        split at h
        · next hpos =>
          rw [toInt_of_lt (by omega) (by omega)] at h
          rcases payload_spec h₁ hpos (by omega) h with hst | ⟨hst, payload, htook, hplen⟩
          · exact .inl hst
          · refine .inr (.inr ⟨hst, payload, htook, by omega, ?_⟩)
            rwa [hplen]
        · next hzero =>
          obtain ⟨rfl, rfl⟩ := Prod.mk.inj (Option.some.inj h)
          have hzero' : io₁.msgSize buf = 0 := by omega
          refine .inr (.inr ⟨rfl, [], emptyFrame_spec h₁ hzero', ?_, ?_⟩)
          · simp [headerSize]
            omega
          · rwa [hzero'] at hann

/-! ## The callers -/

/-- The functions that parse what they receive. -/
inductive Caller
  | touchProc | echoProc | rdbProc | touchGen | echoGen | rdbGen
  deriving DecidableEq, Repr

/-- What the functions use besides the connection: protobuf, the buffer of the object, the members
and the random number of a `touch_proc`, and the database. -/
structure Env where
  pb : Protobuf
  buf : ℕ
  touch : TouchProc
  rand : ℤ
  db : RdbReq → RdbAnswer

/-- The parses of a call, with what is left of the stream; `none` if the call blocks. -/
def Caller.parses (c : Caller) (e : Env) (io : Io) : Option (List Parse × List UInt8) :=
  match c with
  | .touchProc => (touchProcReq e.pb e.buf e.touch e.rand io).map fun r => (r.2.parsed, r.2.io.rx)
  | .echoProc => (echoProcReq e.pb e.buf io).map fun r => (r.parsed, r.io.rx)
  | .rdbProc => (rdbProcReq e.pb e.buf e.db io).map fun r => (r.parsed, r.io.rx)
  | .touchGen => (touchReadResp e.pb e.buf io).map fun r => (r.parsed, r.io.rx)
  | .echoGen => (echoReadResp e.pb e.buf io).map fun r => (r.parsed, r.io.rx)
  | .rdbGen => (rdbReadResp e.pb e.buf io).map fun r => (r.parsed, r.io.rx)

/-- The test the caller makes on the status of `readmsg`. -/
def Caller.failed : Caller → ℤ → Bool
  | .rdbProc => fun status => status ≠ 0
  | _ => fun ret => ret < 0

/-- A parse of a frame that was received completely, before the stream went on with `rest`. -/
structure Complete (io : Io) (rest : List UInt8) (x : Parse) : Prop where
  fits : headerSize + x.size ≤ maxBufSize
  length : x.bytes.length = x.size
  received : io.rx = frame x.bytes ++ rest

/-! ### Sending leaves the stream from the peer alone -/

lemma writebufLoop_rx (fuel : ℕ) : (Io.writebufLoop fuel io buf len).2.rx = io.rx := by
  induction fuel generalizing io buf len with
  | zero => rfl
  | succ fuel ih =>
    have hsend : (io.send buf (sizeT len)).2.rx = io.rx := by
      simp only [Io.send]
      split
      · rfl
      · split <;> rfl
    obtain ⟨⟨st, io₁⟩, hr⟩ : ∃ r, io.send buf (sizeT len) = r := ⟨_, rfl⟩
    rw [hr] at hsend
    simp only [Io.writebufLoop, hr]
    split
    · exact hsend
    · split
      · exact hsend
      · split
        · exact ih.trans hsend
        · exact hsend

lemma writemsg_rx (msg : ℕ) (mlen : ℤ) : (io.writemsg buf len msg mlen).2.rx = io.rx := by
  simp only [Io.writemsg]
  split
  · rfl
  · exact writebufLoop_rx _

lemma serializeTo_rx (size : ℤ) (bytes : List UInt8) :
    (serializeTo io buf size bytes).rx = io.rx := by
  rw [serializeTo]
  split <;> rfl

lemma reply_rx (mlen : ℤ) (x : Parse) : (reply buf io mlen x).io.rx = io.rx := by
  have hrx : (io.writemsg buf maxBufSize buf mlen).2.rx = io.rx := writemsg_rx buf mlen
  rwa [reply]

lemma reply_parsed (mlen : ℤ) (x : Parse) : (reply buf io mlen x).parsed = [x] := by
  rw [reply]

lemma seekLoop_rx (n : ℕ) (it : List (List UInt8 × ℤ)) (resp : RdbResp) :
    (seekLoop buf n it io resp).1.rx = io.rx := by
  fun_induction seekLoop buf n it io resp with
  | case1 => rfl
  | case2 => rfl
  | case3 => rfl
  | case4 n io resp val code it io' hok ih => exact ih

lemma rdbSwitch_rx {db : RdbReq → RdbAnswer} {req : RdbReq} {r : Io × RdbResp}
    (h : rdbSwitch buf db req io = some r) : r.1.rx = io.rx := by
  simp only [rdbSwitch] at h
  split at h
  · rw [← Option.some.inj h]
  · split at h
    · rw [← Option.some.inj h]
    · split at h
      · have hr := congrArg (fun r : Io × RdbResp => r.1.rx) (Option.some.inj h)
        exact hr.symm.trans (seekLoop_rx _ _ _)
      · cases h

/-! ### One call -/

/-- What a call of `recvFrame` makes a caller parse, and what it leaves of the stream. -/
def parseOf (r : Option (ℤ × Io × Option Parse)) : Option (List Parse × List UInt8) :=
  r.map fun r => (r.2.2.toList, r.2.1.rx)

lemma touchProcReq_parses (pb : Protobuf) (p : TouchProc) (rand : ℤ) :
    (touchProcReq pb buf p rand io).map (fun r => (r.2.parsed, r.2.io.rx)) =
      parseOf (recvFrame (fun ret => ret < 0) buf io) := by
  cases hr : recvFrame (fun ret => ret < 0) buf io with
  | none =>
    simp only [touchProcReq, hr]
    rfl
  | some r =>
    obtain ⟨ret, io', - | x⟩ := r
    · simp only [touchProcReq, hr]
      rfl
    · cases hreq : pb.touchReq x.bytes with
      | none =>
        simp only [touchProcReq, hr, hreq]
        rfl
      | some req =>
        simp only [touchProcReq, hr, hreq, Option.map_some, reply_rx, reply_parsed, serializeTo_rx]
        rfl

lemma echoProcReq_parses (pb : Protobuf) :
    (echoProcReq pb buf io).map (fun r => (r.parsed, r.io.rx)) =
      parseOf (recvFrame (fun ret => ret < 0) buf io) := by
  cases hr : recvFrame (fun ret => ret < 0) buf io with
  | none =>
    simp only [echoProcReq, hr]
    rfl
  | some r =>
    obtain ⟨ret, io', - | x⟩ := r
    · simp only [echoProcReq, hr]
      rfl
    · cases hreq : pb.echoReq x.bytes with
      | none =>
        simp only [echoProcReq, hr, hreq]
        rfl
      | some req =>
        simp only [echoProcReq, hr, hreq, Option.map_some, reply_rx, reply_parsed, serializeTo_rx]
        rfl

lemma rdbProcReq_parses (pb : Protobuf) (db : RdbReq → RdbAnswer) :
    (rdbProcReq pb buf db io).map (fun r => (r.parsed, r.io.rx)) =
      parseOf (recvFrame (fun status => status ≠ 0) buf io) := by
  cases hr : recvFrame (fun status => status ≠ 0) buf io with
  | none =>
    simp only [rdbProcReq, hr]
    rfl
  | some r =>
    obtain ⟨ret, io', - | x⟩ := r
    · simp only [rdbProcReq, hr]
      rfl
    · cases hreq : pb.rdbReq x.bytes with
      | none =>
        simp only [rdbProcReq, hr, hreq]
        rfl
      | some req =>
        cases hsw : rdbSwitch buf db req io' with
        | none =>
          simp only [rdbProcReq, hr, hreq, hsw]
          rfl
        | some r =>
          simp only [rdbProcReq, hr, hreq, hsw, Option.map_some, reply_rx, reply_parsed,
            rdbSwitch_rx hsw]
          rfl

lemma readResp_parses (status : List UInt8 → ℤ) :
    (readResp status buf io).map (fun r => (r.parsed, r.io.rx)) =
      parseOf (recvFrame (fun ret => ret < 0) buf io) := by
  rw [readResp]
  rcases recvFrame (fun ret => ret < 0) buf io with - | ⟨ret, io', - | x⟩
  · rfl
  · rfl
  · rfl

/-- **One shape for the six functions**: they parse what `recvFrame` gives them. -/
lemma parses_eq (c : Caller) (e : Env) :
    c.parses e io = parseOf (recvFrame c.failed e.buf io) := by
  cases c with
  | touchProc => exact touchProcReq_parses ..
  | echoProc => exact echoProcReq_parses ..
  | rdbProc => exact rdbProcReq_parses ..
  | touchGen => exact readResp_parses ..
  | echoGen => exact readResp_parses ..
  | rdbGen => exact readResp_parses ..

/-- The header of the next message announces more than the buffer holds. -/
def Oversize (io : Io) (buf : ℕ) : Prop :=
  ∃ size, Announces io buf size ∧ maxBufSize < headerSize + size

/-- `readmsg` refuses such a header with `EOVERFLOW`. -/
lemma readmsg_oversize {size : ℕ} (h : Announces io buf size)
    (hover : maxBufSize < headerSize + size) :
    ∃ io', io.readmsg buf maxBufSize = some (eoverflow, io') ∧ io'.msgSize buf = size := by
  obtain ⟨⟨io₁, h₁⟩, hsize⟩ := h
  have huint : toUint maxBufSize = maxBufSize.toNat := toUint_of_lt (by decide) (by decide)
  have hmax : 0 ≤ maxBufSize := by decide
  have hmsg : io₁.msgSize buf = size := by
    rw [← hsize]
    exact (announces_msgSize h₁).2.symm
  have hroom : ¬ toUint maxBufSize < headerSize := by decide
  refine ⟨io₁, ?_, hmsg⟩
  simp only [Io.readmsg, if_neg hroom, h₁, ne_eq, not_true_eq_false, if_false, hmsg]
  rw [if_pos (by rw [huint]; omega)]

/-- What a caller that does not take a positive status for a failure parses then. -/
lemma recvFrame_oversize {failed : ℤ → Bool} (hf : failed eoverflow = false) (h : Oversize io buf) :
    ∃ io' x, recvFrame failed buf io = some (eoverflow, io', some x) ∧
      maxBufSize < headerSize + x.size := by
  obtain ⟨size, hann, hover⟩ := h
  obtain ⟨io', hr, hsize⟩ := readmsg_oversize hann hover
  refine ⟨io', ⟨size, io'.mem.read (buf + headerSize) size⟩, ?_, hover⟩
  simp [recvFrame, hr, hf, hsize]

/-- What is parsed otherwise is a complete frame. -/
lemma complete_of_recvFrame {failed : ℤ → Bool} {x : Parse} (hneg : failed (-1) = true)
    (hover : failed eoverflow = true ∨ ¬ Oversize io buf)
    (h : recvFrame failed buf io = some (status, io', some x)) : Complete io io'.rx x := by
  cases hr : io.readmsg buf maxBufSize with
  | none => simp [recvFrame, hr] at h
  | some r =>
    obtain ⟨ret, io₁⟩ := r
    simp only [recvFrame, hr] at h
    split at h
    · cases h
    · next hok =>
      obtain ⟨-, rfl, rfl⟩ : ret = status ∧ io₁ = io' ∧
          (⟨io₁.msgSize buf, io₁.mem.read (buf + headerSize) (io₁.msgSize buf)⟩ : Parse) = x := by
        simpa using h
      rcases readmsg_cases (by decide) (by decide) hr with
        rfl | ⟨rfl, size, hann, hlen, -⟩ | ⟨-, payload, htook, hfit, -⟩
      · exact absurd hneg hok
      · rcases hover with hf | hno
        · exact absurd hf hok
        · exact absurd ⟨size, hann, hlen⟩ hno
      · refine ⟨?_, by simp, ?_⟩
        · rwa [htook.size]
        · rw [htook.size, htook.mem]
          exact htook.rx

/-- **When only complete frames are parsed.**  `rdb_proc::proc_req`, which fails on every status
that is not 0, parses complete frames only.  The other five do so as long as no header announces
more than the buffer holds. -/
theorem parsesComplete_iff (c : Caller) (e : Env) (io : Io) :
    (∀ ps rest, c.parses e io = some (ps, rest) → ∀ x ∈ ps, Complete io rest x) ↔
      c = .rdbProc ∨ ¬ Oversize io e.buf := by
  have hneg : c.failed (-1) = true := by cases c <;> decide
  constructor
  · intro hall
    by_contra hnot
    obtain ⟨hne, hover⟩ := not_or.1 hnot
    have hf : c.failed eoverflow = false := by cases c <;> first | rfl | exact absurd rfl hne
    obtain ⟨io', x, hr, hbig⟩ := recvFrame_oversize hf (not_not.1 hover)
    have hcall : c.parses e io = some ([x], io'.rx) := by
      rw [parses_eq, hr]
      rfl
    have hfits := (hall _ _ hcall x List.mem_cons_self).fits
    omega
  · intro hok ps rest hcall x hx
    rw [parses_eq, parseOf] at hcall
    obtain ⟨⟨ret, io', y⟩, hr, hmap⟩ := Option.map_eq_some_iff.1 hcall
    obtain ⟨rfl, rfl⟩ := Prod.mk.inj hmap
    obtain rfl : y = some x := by simpa using hx
    refine complete_of_recvFrame hneg ?_ hr
    rcases hok with rfl | hno
    · exact .inl rfl
    · exact .inr hno

/-- A connection on which a header that announces 2 ^ 24 bytes has arrived, and nothing else. -/
def hugeHeader : Io := bytewise [0, 0, 0, 1]

/-- A process without a database, whose buffer is at address 0. -/
def plainEnv : Env where
  pb := ⟨fun _ => none, fun _ => none, fun _ => none, fun _ => [], fun _ => [], fun _ => [],
    fun _ => 0, fun _ => 0, fun _ => 0⟩
  buf := 0
  touch := ⟨64, fun _ => 0⟩
  rand := 0
  db := fun _ => ⟨0, 0, [], 0, []⟩

lemma hugeHeader_oversize : Oversize hugeHeader 0 := by
  refine ⟨2 ^ 24, ⟨?_, by decide⟩, by decide⟩
  exact readbuf_total (fun _ => Int.one_pos) (by decide) (by decide) (by decide)

/-- **A header alone is parsed.**  After such a header `touch_proc::proc_req` parses more bytes than
the buffer holds, none of which were received. -/
theorem parses_hugeHeader : ∃ x rest,
    Caller.touchProc.parses plainEnv hugeHeader = some ([x], rest) ∧
      ¬ Complete hugeHeader rest x := by
  obtain ⟨io', x, hr, hbig⟩ := 
      recvFrame_oversize (show Caller.touchProc.failed eoverflow = false from rfl)
    hugeHeader_oversize
  refine ⟨x, io'.rx, ?_, fun h => ?_⟩
  · rw [parses_eq]
    exact congrArg parseOf hr
  · have hfits := h.fits
    omega

end Skq.Pingpong
