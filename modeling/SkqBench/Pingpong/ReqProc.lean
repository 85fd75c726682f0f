import SkqBench.Pingpong.Framing

/-!
# `reqproc.cc` and the receiving half of `reqgen.cc`

The request processors of ppd and the `read_resp` functions of dismember.  All of them receive one
message, test the status of `readmsg` in their own way, and hand the payload to protobuf, of which
only the result is known: `Protobuf` is what parsing and serializing give, `RdbAnswer` what the
RocksDB handle answers.  A call records the `ParseFromArray` it makes.

The delay of an echo request and the log messages have no effect here.
-/

namespace Skq.Pingpong

open Lib

/-! ## Messages -/

structure TouchReq where
  touchCnt : ℤ
  inc : ℤ
  deriving DecidableEq, Repr

structure EchoReq where
  enableDelay : ℤ
  deriving DecidableEq, Repr

structure RdbReq where
  op : ℤ
  optarg : ℤ
  key : List UInt8
  val : List UInt8
  deriving DecidableEq, Repr

structure RdbResp where
  status : ℤ
  result : List UInt8
  deriving DecidableEq, Repr

/-- What protobuf does: parsing a request, serializing a response, and `status()` of a response
after `ParseFromArray`, whether that succeeded or not. -/
structure Protobuf where
  touchReq : List UInt8 → Option TouchReq
  echoReq : List UInt8 → Option EchoReq
  rdbReq : List UInt8 → Option RdbReq
  touchResp : ℤ → List UInt8
  echoResp : ℤ → List UInt8
  rdbResp : RdbResp → List UInt8
  touchStatus : List UInt8 → ℤ
  echoStatus : List UInt8 → ℤ
  rdbStatus : List UInt8 → ℤ

/-- The arguments of a `ParseFromArray(msg->payload, msg->size)`. -/
structure Parse where
  size : ℕ
  bytes : List UInt8
  deriving DecidableEq, Repr

/-- `MAX_READ_BUF_SIZE` and `MAX_SEND_BUF_SIZE`. -/
def maxBufSize : ℤ := 1024 * 1024

/-- `readmsg` into the buffer at `buf`, and the arguments of the parse unless `failed` says that the
status is a failure. -/
def recvFrame (failed : ℤ → Bool) (buf : ℕ) (io : Io) : Option (ℤ × Io × Option Parse) :=
  match io.readmsg buf maxBufSize with
  | none => none
  | some (ret, io) =>
    if failed ret then some (ret, io, none)
    else
      let size := io.msgSize buf
      some (ret, io, some ⟨size, io.mem.read (buf + headerSize) size⟩)

/-- `SerializeToArray(buf, size)`. -/
def serializeTo (io : Io) (buf : ℕ) (size : ℤ) (bytes : List UInt8) : Io :=
  if (bytes.length : ℤ) ≤ size then { io with mem := io.mem.write buf bytes } else io

/-! ## The processors -/

/-- How `proc_req` ends. -/
structure Reply where
  ret : ℤ
  io : Io
  parsed : List Parse

/-- The members of `touch_proc`. -/
structure TouchProc where
  bufferSz : ℤ
  buffer : ℤ → ℤ

/-- The items a touch request touches, in order; `rand` is the start value drawn. -/
def TouchProc.touched (p : TouchProc) (req : TouchReq) (rand : ℤ) : List ℤ :=
  (List.range (toInt (rand + req.touchCnt) - rand).toNat).map fun k =>
    (rand + (k : ℤ)).tmod p.bufferSz

/-- The loop of `touch_proc::proc_req`. -/
def TouchProc.touch (p : TouchProc) (req : TouchReq) (rand : ℤ) : TouchProc :=
  -- otherwise it only reads
  if req.inc > 0 then
    let step := fun (buffer : ℤ → ℤ) i j => if j = i then toInt (buffer i + 1) else buffer j
    { p with buffer := (p.touched req rand).foldl step p.buffer }
  else p

/-- What RocksDB answers to a request: the status codes, the value of a `Get`, and for a `Seek` the
values from the position on, each with the status code after the `Next` that leaves it. -/
structure RdbAnswer where
  putCode : ℤ
  getCode : ℤ
  getVal : List UInt8
  seekCode : ℤ
  iter : List (List UInt8 × ℤ)

/-- `PPD_RDB_OP_GET`, `PPD_RDB_OP_PUT`, `PPD_RDB_OP_SEEK`. -/
def rdbOpGet : ℤ := 0
def rdbOpPut : ℤ := 1
def rdbOpSeek : ℤ := 2

/-- The loop over the iterator; `n` iterations are left. -/
def seekLoop (buf : ℕ) : ℕ → List (List UInt8 × ℤ) → Io → RdbResp → Io × RdbResp
  | 0, _, io, resp => (io, resp)
  | _, [], io, resp => (io, resp)
  | n + 1, (val, code) :: it, io, resp =>
    let io := { io with mem := io.mem.write buf (val.take maxBufSize.toNat) }
    if code ≠ 0 then (io, { resp with status := code })
    else seekLoop buf n it io resp

section Procs

variable (pb : Protobuf) (buf : ℕ)

/-- `writemsg` of a response of `mlen` bytes at the beginning of the read buffer. -/
def reply (io : Io) (mlen : ℤ) (x : Parse) : Reply :=
  let r := io.writemsg buf maxBufSize buf mlen
  ⟨r.1, r.2, [x]⟩

/-- `touch_proc::proc_req`; `none` if it blocks. -/
def touchProcReq (p : TouchProc) (rand : ℤ) (io : Io) : Option (TouchProc × Reply) :=
  match recvFrame (fun ret => ret < 0) buf io with
  | none => none
  | some (ret, io, none) => some (p, ⟨ret, io, []⟩)
  | some (_, io, some x) =>
    match pb.touchReq x.bytes with
    | none => some (p, ⟨einval, io, [x]⟩)
    | some req =>
      let resp := pb.touchResp 0
      some (p.touch req rand, reply buf (serializeTo io buf maxBufSize resp) resp.length x)

/-- `echo_proc::proc_req`. -/
def echoProcReq (io : Io) : Option Reply :=
  match recvFrame (fun ret => ret < 0) buf io with
  | none => none
  | some (ret, io, none) => some ⟨ret, io, []⟩
  | some (_, io, some x) =>
    match pb.echoReq x.bytes with
    | none => some ⟨einval, io, [x]⟩
    | some _ =>
      let resp := pb.echoResp 0
      some (reply buf (serializeTo io buf maxBufSize resp) resp.length x)

/-- The `switch` of `rdb_proc::proc_req`; `none` is an invalid opcode. -/
def rdbSwitch (db : RdbReq → RdbAnswer) (req : RdbReq) (io : Io) : Option (Io × RdbResp) :=
  let answer := db req
  if req.op = rdbOpPut then some (io, ⟨answer.putCode, []⟩)
  else if req.op = rdbOpGet then
    some (io, ⟨answer.getCode, if answer.getCode = 0 then answer.getVal else []⟩)
  else if req.op = rdbOpSeek then
    let result := match answer.iter with
      | [] => []
      | (val, _) :: _ => val
    some (seekLoop buf req.optarg.toNat answer.iter io ⟨answer.seekCode, result⟩)
  else none

/-- `rdb_proc::proc_req`. -/
def rdbProcReq (db : RdbReq → RdbAnswer) (io : Io) : Option Reply :=
  match recvFrame (fun status => status ≠ 0) buf io with
  | none => none
  | some (status, io, none) => some ⟨status, io, []⟩
  | some (_, io, some x) =>
    match pb.rdbReq x.bytes with
    | none => some ⟨einval, io, [x]⟩
    | some req =>
      match rdbSwitch buf db req io with
      | none => some ⟨einval, io, [x]⟩
      | some (io, resp) =>
        let resp := { resp with status := 0 }
        some (reply buf io (pb.rdbResp resp).length x)

end Procs

/-! ## The receivers of dismember -/

/-- How `read_resp` ends; `none` is `exit(1)`. -/
structure RespRead where
  ret : Option ℤ
  io : Io
  parsed : List Parse

/-- `read_resp` of a framed workload, whose response has the given `status()`. -/
def readResp (status : List UInt8 → ℤ) (buf : ℕ) (io : Io) : Option RespRead :=
  match recvFrame (fun ret => ret < 0) buf io with
  | none => none
  | some (_, io, none) => some ⟨none, io, []⟩
  | some (_, io, some x) => some ⟨some (status x.bytes), io, [x]⟩

/-- `touch_gen::read_resp`, `echo_gen::read_resp`, `rdb_gen::read_resp`. -/
def touchReadResp (pb : Protobuf) (buf : ℕ) (io : Io) : Option RespRead :=
  readResp pb.touchStatus buf io

def echoReadResp (pb : Protobuf) (buf : ℕ) (io : Io) : Option RespRead :=
  readResp pb.echoStatus buf io

def rdbReadResp (pb : Protobuf) (buf : ℕ) (io : Io) : Option RespRead :=
  readResp pb.rdbStatus buf io

end Skq.Pingpong
