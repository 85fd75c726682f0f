import Mathlib.Algebra.Ring.Int.Defs
import SkqBench.Lib.Memory

/-!
# `util.h`: buffers and framed messages over a TCP connection

`Io` is one end of a connection together with the memory of its process: the bytes the peer has
sent and that were not received yet, the bytes sent to the peer, and what the kernel will answer to
the calls of `recv()` and `send()` to come.  An answer below 0 is an error and 0 a closed
connection; any other one is the most the call transfers, so that the answers cut the stream
wherever they like.  A `recv()` without anything to receive blocks: the call has no result.

`size_t`, `int` and `uint32_t` arithmetic is explicit: `sizeT`, `toInt` and `toUint` are the
conversions.
-/

namespace Skq.Pingpong

open Lib

/-! ## Integer types -/

/-- Conversion to `int`. -/
def toInt (x : ℤ) : ℤ := Int.bmod x (2 ^ 32)

/-- Conversion to `uint` and `uint32_t`. -/
def toUint (x : ℤ) : ℕ := (x % 2 ^ 32).toNat

/-- Conversion to `size_t`. -/
def sizeT (x : ℤ) : ℕ := (x % 2 ^ 64).toNat

lemma toInt_of_lt {x : ℤ} (h0 : 0 ≤ x) (h : x < 2 ^ 31) : toInt x = x := by
  rw [toInt, Int.bmod_eq_of_le (by omega) (by omega)]

/-- The error numbers of the platform. -/
def einval : ℤ := 22
def econnreset : ℤ := 54
def eoverflow : ℤ := 84

/-- `sizeof(struct ppd_msg)`. -/
def headerSize : ℕ := 4

/-- One end of a connection. -/
structure Io where
  mem : Mem UInt8
  rx : List UInt8
  tx : List UInt8
  recvs : ℕ → ℤ
  sends : ℕ → ℤ

namespace Io

/-- `recv(fd, buf, len, 0)`; `none` if it blocks. -/
def recv (io : Io) (buf len : ℕ) : Option (ℤ × Io) :=
  let answer := io.recvs 0
  let io := { io with recvs := fun k => io.recvs (k + 1) }
  if answer < 0 then some (-1, io)
  else if answer = 0 then some (0, io)
  else if io.rx = [] then none
  else
    let n := min answer.toNat (min len io.rx.length)
    some (n, { io with mem := io.mem.write buf (io.rx.take n), rx := io.rx.drop n })

/-- `send(fd, buf, len, 0)`. -/
def send (io : Io) (buf len : ℕ) : ℤ × Io :=
  let answer := io.sends 0
  let io := { io with sends := fun k => io.sends (k + 1) }
  if answer < 0 then (-1, io)
  else if answer = 0 then (0, io)
  else
    let n := min answer.toNat len
    (n, { io with tx := io.tx ++ io.mem.read buf n })

/-- The loop of `readbuf`, at most `fuel` times. -/
def readbufLoop : ℕ → Io → ℕ → ℤ → Option (ℤ × Io)
  | 0, _, _, _ => none
  | fuel + 1, io, buf, len =>
    match io.recv buf (sizeT len) with
    | none => none
    | some (status, io) =>
      if status < 0 then some (-1, io)
      -- connection disconnected
      else if status = 0 then some (-1, io)
      else if len - status > 0 then readbufLoop fuel io (buf + status.toNat) (len - status)
      else some (0, io)

/-- `readbuf`.  Every iteration that goes on has received a byte. -/
def readbuf (io : Io) (buf : ℕ) (len : ℤ) : Option (ℤ × Io) :=
  readbufLoop (io.rx.length + 1) io buf len

/-- The loop of `writebuf`, at most `fuel` times. -/
def writebufLoop : ℕ → Io → ℕ → ℤ → ℤ × Io
  | 0, io, _, _ => (0, io)
  | fuel + 1, io, buf, len =>
    let (status, io) := io.send buf (sizeT len)
    if status < 0 then (-1, io)
    else if status = 0 then (-1, io)
    else if len - status > 0 then writebufLoop fuel io (buf + status.toNat) (len - status)
    else (0, io)

/-- `writebuf`.  Every iteration that goes on has sent a byte. -/
def writebuf (io : Io) (buf : ℕ) (len : ℤ) : ℤ × Io :=
  writebufLoop (sizeT len + 1) io buf len

/-- The field `size` of the message at `buf`. -/
def msgSize (io : Io) (buf : ℕ) : ℕ := ofLeBytes (io.mem.read buf headerSize)

/-- `readmsg`. -/
def readmsg (io : Io) (buf : ℕ) (len : ℤ) : Option (ℤ × Io) :=
  if toUint len < headerSize then some (eoverflow, io)
  else
    match io.readbuf buf headerSize with
    | none => none
    | some (status, io) =>
      if status ≠ 0 then some (status, io)
      else if io.msgSize buf + headerSize > toUint len then some (eoverflow, io)
      else if io.msgSize buf > 0 then
        io.readbuf (buf + headerSize) (toInt (io.msgSize buf))
      else some (status, io)

/-- `writemsg`; `msg` may be anywhere, in particular at `buf`. -/
def writemsg (io : Io) (buf : ℕ) (len : ℤ) (msg : ℕ) (mlen : ℤ) : ℤ × Io :=
  let realLen := toInt (headerSize + mlen)
  if len < realLen then (eoverflow, io)
  else
    let io := { io with mem := io.mem.move (buf + headerSize) msg (sizeT mlen) }
    let io := { io with mem := io.mem.write buf (leBytes headerSize (toUint mlen)) }
    io.writebuf buf realLen

end Io

end Skq.Pingpong
