import Mathlib.Tactic.Linarith
import SkqBench.Pingpong.Util

/-!
# The framing is a faithful stream codec

`readbuf` and `writebuf` transfer what they are asked for, however the kernel cuts it
(`readbuf_spec`, `writebuf_spec`), so that `writemsg` appends one frame to the stream and `readmsg`
takes one off it.  A sequence of messages is read back as it was written (`readAll_writeAll`).
-/

namespace Skq.Pingpong

open Lib

variable {io io' : Io} {buf : ℕ} {len status : ℤ}

/-! ## `readbuf` -/

/-- The bytes `bs` were received from address `buf` on. -/
structure Received (io io' : Io) (buf : ℕ) (bs : List UInt8) : Prop where
  rx : io.rx = bs ++ io'.rx
  mem : io'.mem = io.mem.write buf bs
  tx : io'.tx = io.tx
  sends : io'.sends = io.sends
  recvs : ∃ n, ∀ k, io'.recvs k = io.recvs (k + n)

lemma Received.trans {io'' : Io} {bs bs' : List UInt8} (h : Received io io' buf bs)
    (h' : Received io' io'' (buf + bs.length) bs') : Received io io'' buf (bs ++ bs') where
  rx := by rw [h.rx, h'.rx, List.append_assoc]
  mem := by rw [h'.mem, h.mem, Mem.write_append]
  tx := h'.tx.trans h.tx
  sends := h'.sends.trans h.sends
  recvs := by
    obtain ⟨n, hn⟩ := h.recvs
    obtain ⟨n', hn'⟩ := h'.recvs
    exact ⟨n' + n, fun k => by rw [hn', hn, Nat.add_assoc]⟩

lemma Received.pos {bs : List UInt8} (h : Received io io' buf bs) (hpos : ∀ k, 0 < io.recvs k)
    (k : ℕ) : 0 < io'.recvs k := by
  obtain ⟨n, hn⟩ := h.recvs
  rw [hn]
  exact hpos _

lemma sizeT_of_lt (h0 : 0 ≤ len) (h : len < 2 ^ 64) : sizeT len = len.toNat := by
  rw [sizeT, Int.emod_eq_of_lt h0 h]

/-- One `recv()`. -/
lemma recv_spec {n : ℕ} (hn : 0 < n) (h : io.recv buf n = some (status, io')) :
    ∃ bs, Received io io' buf bs ∧
      (status ≤ 0 ∧ bs = [] ∧ io.recvs 0 ≤ 0 ∨
        0 < status ∧ status = bs.length ∧ 0 < bs.length ∧ bs.length ≤ n) := by
  simp only [Io.recv] at h
  split at h
  · next hneg =>
    obtain ⟨rfl, rfl⟩ := Prod.mk.inj (Option.some.inj h)
    exact ⟨[], ⟨rfl, by simp, rfl, rfl, 1, fun _ => rfl⟩, .inl ⟨by omega, rfl, by omega⟩⟩
  · split at h
    · next hzero =>
      obtain ⟨rfl, rfl⟩ := Prod.mk.inj (Option.some.inj h)
      exact ⟨[], ⟨rfl, by simp, rfl, rfl, 1, fun _ => rfl⟩, .inl ⟨by omega, rfl, by omega⟩⟩
    · split at h
      · cases h
      · next hneg hzero hrx =>
        obtain ⟨rfl, rfl⟩ := Prod.mk.inj (Option.some.inj h)
        have hlen : 0 < io.rx.length := List.length_pos_iff.2 hrx
        set k := min (io.recvs 0).toNat (min n io.rx.length) with hk
        have hkpos : 0 < k := by omega
        have htake : (io.rx.take k).length = k := by
          rw [List.length_take]
          omega
        refine ⟨io.rx.take k, ⟨(List.take_append_drop _ _).symm, rfl, rfl, rfl, 1, fun _ => rfl⟩,
          .inr ?_⟩
        rw [htake]
        omega

lemma readbufLoop_spec (fuel : ℕ) (h0 : 0 < len) (hmax : len < 2 ^ 64)
    (h : Io.readbufLoop fuel io buf len = some (status, io')) :
    ∃ bs, Received io io' buf bs ∧
      (status = 0 ∧ bs.length = len.toNat ∨ status = -1 ∧ bs.length < len.toNat) := by
  induction fuel generalizing io buf len with
  | zero => cases h
  | succ fuel ih =>
    have hsize : sizeT len = len.toNat := sizeT_of_lt h0.le hmax
    simp only [Io.readbufLoop] at h
    cases hrecv : io.recv buf (sizeT len) with
    | none => simp [hrecv] at h
    | some r =>
      obtain ⟨st, io₁⟩ := r
      simp only [hrecv] at h
      rw [hsize] at hrecv
      obtain ⟨bs, hbs, hcase⟩ := recv_spec (by omega) hrecv
      rcases hcase with ⟨hst, rfl, -⟩ | ⟨hst, hlen, hpos, hle⟩
      · have hfail : status = -1 ∧ io' = io₁ := by
          split at h
          · obtain ⟨h₁, h₂⟩ := Prod.mk.inj (Option.some.inj h)
            exact ⟨h₁.symm, h₂.symm⟩
          · rw [if_pos (by omega)] at h
            obtain ⟨h₁, h₂⟩ := Prod.mk.inj (Option.some.inj h)
            exact ⟨h₁.symm, h₂.symm⟩
        obtain ⟨rfl, rfl⟩ := hfail
        exact ⟨[], hbs, .inr ⟨rfl, by simp; omega⟩⟩
      · rw [if_neg (by omega), if_neg (by omega)] at h
        split at h
        · -- the rest of the buffer
          have hbuf : buf + st.toNat = buf + bs.length := by omega
          rw [hbuf] at h
          obtain ⟨bs', hbs', hcase'⟩ := ih (by omega) (by omega) h
          refine ⟨bs ++ bs', hbs.trans hbs', ?_⟩
          rw [List.length_append]
          omega
        · obtain ⟨rfl, rfl⟩ := Prod.mk.inj (Option.some.inj h)
          exact ⟨bs, hbs, .inl ⟨rfl, by omega⟩⟩

/-- **`readbuf` receives exactly what it is asked for**, or fails. -/
lemma readbuf_spec (h0 : 0 < len) (hmax : len < 2 ^ 64)
    (h : io.readbuf buf len = some (status, io')) : ∃ bs, Received io io' buf bs ∧
      (status = 0 ∧ bs.length = len.toNat ∨ status = -1 ∧ bs.length < len.toNat) :=
  readbufLoop_spec _ h0 hmax h

lemma readbufLoop_total (fuel : ℕ) (hpos : ∀ k, 0 < io.recvs k) (h0 : 0 < len)
    (hmax : len < 2 ^ 64) (hle : len ≤ io.rx.length) (hfuel : io.rx.length < fuel) :
    ∃ io', Io.readbufLoop fuel io buf len = some (0, io') := by
  induction fuel generalizing io buf len with
  | zero => omega
  | succ fuel ih =>
    have hsize : sizeT len = len.toNat := sizeT_of_lt h0.le hmax
    have hrx : io.rx ≠ [] := by
      rintro hnil
      rw [hnil] at hle
      simp at hle
      omega
    have hp := hpos 0
    obtain ⟨st, io₁, hrecv⟩ : ∃ st io₁, io.recv buf len.toNat = some (st, io₁) := by
      simp only [Io.recv, if_neg (show ¬ io.recvs 0 < 0 by omega),
        if_neg (show ¬ io.recvs 0 = 0 by omega), if_neg hrx]
      exact ⟨_, _, rfl⟩
    obtain ⟨bs, hbs, hcase⟩ := recv_spec (by omega) hrecv
    rcases hcase with ⟨-, -, hfail⟩ | ⟨hst, hlen, hbpos, hble⟩
    · omega
    · have hsplit : io.rx.length = bs.length + io₁.rx.length := by rw [hbs.rx, List.length_append]
      simp only [Io.readbufLoop, hsize, hrecv]
      rw [if_neg (by omega), if_neg (by omega)]
      split
      · exact ih (hbs.pos hpos) (by omega) (by omega) (by omega) (by omega)
      · exact ⟨_, rfl⟩

/-- `readbuf` returns 0 if the bytes are there and the kernel delivers. -/
lemma readbuf_total (hpos : ∀ k, 0 < io.recvs k) (h0 : 0 < len) (hmax : len < 2 ^ 64)
    (hle : len ≤ io.rx.length) : ∃ io', io.readbuf buf len = some (0, io') :=
  readbufLoop_total _ hpos h0 hmax hle (Nat.lt_succ_self _)

/-! ## `writebuf` -/

/-- The first `n` bytes from address `buf` on were sent. -/
structure Sent (io io' : Io) (buf n : ℕ) : Prop where
  tx : io'.tx = io.tx ++ io.mem.read buf n
  mem : io'.mem = io.mem
  rx : io'.rx = io.rx
  recvs : io'.recvs = io.recvs
  sends : ∃ n, ∀ k, io'.sends k = io.sends (k + n)

lemma Sent.trans {io'' : Io} {n n' : ℕ} (h : Sent io io' buf n)
    (h' : Sent io' io'' (buf + n) n') : Sent io io'' buf (n + n') where
  tx := by rw [h'.tx, h.tx, h.mem, Mem.read_add, List.append_assoc]
  mem := h'.mem.trans h.mem
  rx := h'.rx.trans h.rx
  recvs := h'.recvs.trans h.recvs
  sends := by
    obtain ⟨n, hn⟩ := h.sends
    obtain ⟨n', hn'⟩ := h'.sends
    exact ⟨n' + n, fun k => by rw [hn', hn, Nat.add_assoc]⟩

lemma Sent.pos {n : ℕ} (h : Sent io io' buf n) (hpos : ∀ k, 0 < io.sends k) (k : ℕ) :
    0 < io'.sends k := by
  obtain ⟨n, hn⟩ := h.sends
  rw [hn]
  exact hpos _

/-- One `send()`. -/
lemma send_spec {n : ℕ} (hn : 0 < n) (h : io.send buf n = (status, io')) :
    ∃ k, Sent io io' buf k ∧ (status ≤ 0 ∧ k = 0 ∧ io.sends 0 ≤ 0 ∨
      0 < status ∧ status = k ∧ 0 < k ∧ k ≤ n) := by
  simp only [Io.send] at h
  split at h
  · obtain ⟨rfl, rfl⟩ := Prod.mk.inj h
    exact ⟨0, ⟨by simp, rfl, rfl, rfl, 1, fun _ => rfl⟩, .inl ⟨by omega, rfl, by omega⟩⟩
  · split at h
    · obtain ⟨rfl, rfl⟩ := Prod.mk.inj h
      exact ⟨0, ⟨by simp, rfl, rfl, rfl, 1, fun _ => rfl⟩, .inl ⟨by omega, rfl, by omega⟩⟩
    · obtain ⟨rfl, rfl⟩ := Prod.mk.inj h
      exact ⟨_, ⟨rfl, rfl, rfl, rfl, 1, fun _ => rfl⟩, .inr (by omega)⟩

lemma writebufLoop_spec (fuel : ℕ) (h0 : 0 < len) (hmax : len < 2 ^ 64) (hfuel : len.toNat < fuel)
    (h : Io.writebufLoop fuel io buf len = (status, io')) :
    ∃ n, Sent io io' buf n ∧ (status = 0 ∧ n = len.toNat ∨
      status = -1 ∧ n < len.toNat ∧ ∃ k, io.sends k ≤ 0) := by
  induction fuel generalizing io buf len with
  | zero => omega
  | succ fuel ih =>
    have hsize : sizeT len = len.toNat := sizeT_of_lt h0.le hmax
    simp only [Io.writebufLoop, hsize] at h
    obtain ⟨⟨st, io₁⟩, hr⟩ : ∃ r, io.send buf len.toNat = r := ⟨_, rfl⟩
    simp only [hr] at h
    obtain ⟨k, hk, hcase⟩ := send_spec (by omega) hr
    rcases hcase with ⟨hst, rfl, hneg⟩ | ⟨hst, hlen, hpos, hle⟩
    · have hfail : status = -1 ∧ io' = io₁ := by
        split at h
        · obtain ⟨h₁, h₂⟩ := Prod.mk.inj h
          exact ⟨h₁.symm, h₂.symm⟩
        · rw [if_pos (by omega)] at h
          obtain ⟨h₁, h₂⟩ := Prod.mk.inj h
          exact ⟨h₁.symm, h₂.symm⟩
      obtain ⟨rfl, rfl⟩ := hfail
      exact ⟨0, hk, .inr ⟨rfl, by omega, 0, hneg⟩⟩
    · rw [if_neg (by omega), if_neg (by omega)] at h
      split at h
      · have hbuf : buf + st.toNat = buf + k := by omega
        rw [hbuf] at h
        obtain ⟨n, hn, hcase'⟩ := ih (by omega) (by omega) (by omega) h
        refine ⟨k + n, hk.trans hn, ?_⟩
        rcases hcase' with ⟨rfl, hn'⟩ | ⟨rfl, hn', j, hj⟩
        · exact .inl ⟨rfl, by omega⟩
        · obtain ⟨i, hi⟩ := hk.sends
          exact .inr ⟨rfl, by omega, j + i, by rw [← hi]; exact hj⟩
      · obtain ⟨rfl, rfl⟩ := Prod.mk.inj h
        exact ⟨k, hk, .inl ⟨rfl, by omega⟩⟩

/-- **`writebuf` sends exactly what it is asked to**, or fails. -/
lemma writebuf_spec (h0 : 0 < len) (hmax : len < 2 ^ 64) (h : io.writebuf buf len = (status, io')) :
    ∃ n, Sent io io' buf n ∧ (status = 0 ∧ n = len.toNat ∨
      status = -1 ∧ n < len.toNat ∧ ∃ k, io.sends k ≤ 0) := by
  refine writebufLoop_spec _ h0 hmax ?_ h
  rw [sizeT_of_lt h0.le hmax]
  exact Nat.lt_succ_self _

/-! ## Frames -/

/-- A message on the wire. -/
def frame (payload : List UInt8) : List UInt8 :=
  leBytes headerSize payload.length ++ payload

lemma toUint_of_lt (h0 : 0 ≤ len) (h : len < 2 ^ 32) : toUint len = len.toNat := by
  rw [toUint, Int.emod_eq_of_lt h0 h]

/-- `writemsg` of what fits puts the frame into the buffer, and sends it. -/
lemma writemsg_eq (io : Io) (buf msg : ℕ) {mlen : ℤ} (h0 : 0 ≤ mlen) (hfit : 4 + mlen ≤ len)
    (hlen : len < 2 ^ 31) : ∃ io₁ : Io, io.writemsg buf len msg mlen = io₁.writebuf buf (4 + mlen) ∧
      io₁.mem.read buf (4 + mlen).toNat = frame (io.mem.read msg mlen.toNat) ∧ io₁.tx = io.tx ∧
        io₁.sends = io.sends := by
  have hreal : toInt (headerSize + mlen) = 4 + mlen := toInt_of_lt (by simp [headerSize]; omega)
    (by simp [headerSize]; omega)
  set payload := io.mem.read msg mlen.toNat with hp
  have hplen : payload.length = mlen.toNat := Mem.length_read ..
  set io₁ : Io := { io with
    mem := (io.mem.write (buf + headerSize) payload).write buf
      (leBytes headerSize mlen.toNat) } with hio
  have hcall : io.writemsg buf len msg mlen = io₁.writebuf buf (4 + mlen) := by
    simp only [Io.writemsg, hreal, if_neg (show ¬ len < 4 + mlen by omega), Mem.move,
      sizeT_of_lt h0 (by omega), toUint_of_lt h0 (by omega), hio, hp]
  -- what is in the buffer now is the frame
  have hn : (4 + mlen).toNat = 4 + payload.length := by omega
  have h₁ : io₁.mem.read buf 4 = leBytes headerSize mlen.toNat := by
    have h := Mem.read_write (io.mem.write (buf + headerSize) payload) buf
      (leBytes headerSize mlen.toNat)
    rwa [length_leBytes] at h
  have h₂ : io₁.mem.read (buf + 4) payload.length = payload := by
    rw [hio]
    refine (Mem.read_write_of_disjoint _ _ _ _ _ (.inr ?_)).trans (Mem.read_write ..)
    rw [length_leBytes, headerSize]
  refine ⟨io₁, hcall, ?_, rfl, rfl⟩
  rw [hn, Mem.read_add, h₁, h₂, frame, hplen]

/-- `writemsg` appends one frame to the stream. -/
lemma writemsg_spec {msg : ℕ} {mlen : ℤ} (h0 : 0 ≤ mlen) (hfit : 4 + mlen ≤ len)
    (hlen : len < 2 ^ 31) (hpos : ∀ k, 0 < io.sends k) :
    ∃ io', io.writemsg buf len msg mlen = (0, io') ∧
      io'.tx = io.tx ++ frame (io.mem.read msg mlen.toNat) ∧ ∀ k, 0 < io'.sends k := by
  obtain ⟨io₁, hcall, hread, htx, hsends⟩ := writemsg_eq io buf msg h0 hfit hlen
  obtain ⟨⟨st, io'⟩, hr⟩ : ∃ r, io₁.writebuf buf (4 + mlen) = r := ⟨_, rfl⟩
  rw [← hsends] at hpos
  obtain ⟨n, hn, hcase⟩ := writebuf_spec (by omega) (by omega) hr
  rcases hcase with ⟨rfl, rfl⟩ | ⟨-, -, k, hk⟩
  · refine ⟨io', hcall.trans hr, ?_, hn.pos hpos⟩
    rw [hn.tx, hread, htx]
  · exact absurd (hpos k) (by omega)

/-- A `writemsg` that returns 0 has appended one frame. -/
lemma writemsg_zero {msg : ℕ} {mlen : ℤ} (h0 : 0 ≤ mlen) (hmax : mlen < 2 ^ 31 - 4)
    (hlen : len < 2 ^ 31) (h : io.writemsg buf len msg mlen = (0, io')) :
    io'.tx = io.tx ++ frame (io.mem.read msg mlen.toNat) := by
  rcases lt_or_ge len (4 + mlen) with hbig | hfit
  · have hreal : toInt (headerSize + mlen) = 4 + mlen := toInt_of_lt (by simp [headerSize]; omega)
      (by simp [headerSize]; omega)
    simp only [Io.writemsg, hreal, if_pos hbig] at h
    cases h
  · obtain ⟨io₁, hcall, hread, htx, -⟩ := writemsg_eq io buf msg h0 hfit hlen
    obtain ⟨n, hn, ⟨-, rfl⟩ | ⟨hst, -⟩⟩ := writebuf_spec (by omega) (by omega) (hcall.symm.trans h)
    · rw [hn.tx, hread, htx]
    · cases hst

/-- `readmsg` takes one frame off the stream. -/
lemma readmsg_spec {payload rest : List UInt8} (hrx : io.rx = frame payload ++ rest)
    (hfit : 4 + (payload.length : ℤ) ≤ len) (hlen : len < 2 ^ 31)
    (hpos : ∀ k, 0 < io.recvs k) :
    ∃ io', io.readmsg buf len = some (0, io') ∧ io'.rx = rest ∧
      io'.msgSize buf = payload.length ∧
      io'.mem.read (buf + headerSize) payload.length = payload ∧ ∀ k, 0 < io'.recvs k := by
  have huint : toUint len = len.toNat := toUint_of_lt (by omega) (by omega)
  have hrx' : io.rx = leBytes headerSize payload.length ++ (payload ++ rest) := by
    rw [hrx, frame, List.append_assoc]
  obtain ⟨io₁, hr₁⟩ : ∃ io₁, io.readbuf buf headerSize = some (0, io₁) :=
    readbuf_total hpos (by simp [headerSize]) (by simp [headerSize])
      (by rw [hrx', List.length_append, length_leBytes]; omega)
  obtain ⟨bs, hbs, hcase⟩ := readbuf_spec (by simp [headerSize]) (by simp [headerSize]) hr₁
  have hblen : bs.length = headerSize := by
    rcases hcase with ⟨-, h⟩ | ⟨h, -⟩
    · exact h
    · cases h
  -- the header
  obtain ⟨hhead, hrest⟩ := List.append_inj (hrx'.symm.trans hbs.rx) (by rw [length_leBytes, hblen])
  have hsize : io₁.msgSize buf = payload.length := by
    have hmem := Mem.read_write io.mem buf bs
    rw [hblen] at hmem
    rw [Io.msgSize, hbs.mem, hmem, ← hhead, ofLeBytes_leBytes]
    exact Nat.mod_eq_of_lt (by simp [headerSize]; omega)
  have hcond : ¬ (payload.length + headerSize > toUint len) := by
    rw [huint, headerSize]
    omega
  simp only [Io.readmsg, if_neg (show ¬ toUint len < headerSize by rw [huint, headerSize]; omega),
    hr₁, ne_eq, not_true_eq_false, if_false, hsize, if_neg hcond]
  split
  · next hne =>
    have hint : toInt payload.length = payload.length := toInt_of_lt (by omega) (by omega)
    rw [hint]
    obtain ⟨io₂, hr₂⟩ : ∃ io₂, io₁.readbuf (buf + headerSize) payload.length = some (0, io₂) :=
      readbuf_total (hbs.pos hpos) (by omega) (by omega) (by rw [← hrest]; simp)
    obtain ⟨bs₂, hbs₂, hcase₂⟩ := readbuf_spec (by omega) (by omega) hr₂
    have hblen₂ : bs₂.length = payload.length := by
      rcases hcase₂ with ⟨-, h⟩ | ⟨h, -⟩
      · rw [h]
        omega
      · cases h
    obtain ⟨hbody, hrest₂⟩ := List.append_inj (hrest.trans hbs₂.rx) hblen₂.symm
    refine ⟨io₂, hr₂, hrest₂.symm, ?_, ?_, hbs₂.pos (hbs.pos hpos)⟩
    · rw [Io.msgSize, hbs₂.mem, Mem.read_write_of_disjoint _ _ _ _ _ (.inl le_rfl)]
      exact hsize
    · have hmem := Mem.read_write io₁.mem (buf + headerSize) bs₂
      rw [hblen₂] at hmem
      rw [hbs₂.mem, hmem, hbody]
  · next hzero =>
    have hnil : payload = [] := List.length_eq_zero_iff.1 (by omega)
    refine ⟨io₁, rfl, ?_, hsize, ?_, hbs.pos hpos⟩
    · rw [← hrest, hnil, List.nil_append]
    · rw [hnil]
      rfl

/-! ## Sequences of messages -/

/-- A call of `writemsg`: the memory when it is made, and where in it the payload is. -/
structure Msg where
  mem : Mem UInt8
  msg : ℕ
  mlen : ℤ

/-- The payload of a call. -/
def Msg.payload (x : Msg) : List UInt8 := x.mem.read x.msg x.mlen.toNat

/-- Send the messages in order; the statuses of the calls. -/
def writeAll (buf : ℕ) (len : ℤ) : List Msg → Io → List ℤ × Io
  | [], io => ([], io)
  | x :: xs, io =>
    let r := { io with mem := x.mem }.writemsg buf len x.msg x.mlen
    let rs := writeAll buf len xs r.2
    (r.1 :: rs.1, rs.2)

/-- Receive `n` messages; the status, the size and the payload of each; `none` if a call blocks. -/
def readAll (buf : ℕ) (len : ℤ) : ℕ → Io → Option (List (ℤ × ℕ × List UInt8) × Io)
  | 0, io => some ([], io)
  | n + 1, io => do
    let (status, io) ← io.readmsg buf len
    let size := io.msgSize buf
    let payload := io.mem.read (buf + headerSize) size
    let (rs, io) ← readAll buf len n io
    pure ((status, size, payload) :: rs, io)

lemma writeAll_spec (hlen : len < 2 ^ 31) : ∀ {xs : List Msg} {io : Io},
    (∀ x ∈ xs, 0 ≤ x.mlen ∧ 4 + x.mlen ≤ len) → (∀ k, 0 < io.sends k) →
    (∀ st ∈ (writeAll buf len xs io).1, st = 0) ∧
      (writeAll buf len xs io).2.tx = io.tx ++ (xs.map fun x => frame x.payload).flatten
  | [], io, hfit, hpos => by simp [writeAll]
  | x :: xs, io, hfit, hpos => by
      obtain ⟨h0, hle⟩ := hfit x List.mem_cons_self
      obtain ⟨io', hcall, htx, hpos'⟩ :=
        @writemsg_spec { io with mem := x.mem } buf len x.msg x.mlen h0 hle hlen hpos
      have hfit' : ∀ y ∈ xs, 0 ≤ y.mlen ∧ 4 + y.mlen ≤ len :=
        fun y hy => hfit y (List.mem_cons_of_mem _ hy)
      obtain ⟨hst, htx'⟩ := writeAll_spec hlen hfit' hpos'
      simp only [writeAll, hcall]
      refine ⟨List.forall_mem_cons.2 ⟨rfl, hst⟩, ?_⟩
      rw [htx', htx, List.map_cons, List.flatten_cons, List.append_assoc]
      rfl

lemma readAll_spec (hlen : len < 2 ^ 31) : ∀ {ps : List (List UInt8)} {rest : List UInt8} {io : Io},
    (∀ p ∈ ps, 4 + (p.length : ℤ) ≤ len) → io.rx = (ps.map frame).flatten ++ rest →
    (∀ k, 0 < io.recvs k) →
    ∃ io', readAll buf len ps.length io = some (ps.map fun p => (0, p.length, p), io') ∧
      io'.rx = rest
  | [], rest, io, hfit, hrx, hpos => ⟨io, rfl, hrx⟩
  | p :: ps, rest, io, hfit, hrx, hpos => by
      rw [List.map_cons, List.flatten_cons, List.append_assoc] at hrx
      obtain ⟨io₁, hcall, hrx₁, hsize, hread, hpos₁⟩ := @readmsg_spec io buf len p _ hrx
        (hfit p List.mem_cons_self) hlen hpos
      obtain ⟨io₂, hrec, hrx₂⟩ := readAll_spec hlen
        (fun q hq => hfit q (List.mem_cons_of_mem _ hq)) hrx₁ hpos₁
      refine ⟨io₂, ?_, hrx₂⟩
      simp only [List.length_cons, readAll, hcall, bind, Option.bind_some, hsize, hread, hrec, pure,
        List.map_cons]

/-- **The framing is faithful.**  However `send()` and `recv()` cut the stream, messages that fit
into a buffer of length `len` are read back in order with their sizes, every call returns 0, and
what follows on the stream is left alone. -/
theorem readAll_writeAll (hlen : len < 2 ^ 31) (xs : List Msg)
    (hfit : ∀ x ∈ xs, 0 ≤ x.mlen ∧ 4 + x.mlen ≤ len) (io jo : Io) (htx : io.tx = [])
    (hsends : ∀ k, 0 < io.sends k) (hrecvs : ∀ k, 0 < jo.recvs k) (rest : List UInt8)
    (hwire : jo.rx = (writeAll buf len xs io).2.tx ++ rest) (buf' : ℕ) :
    (∀ st ∈ (writeAll buf len xs io).1, st = 0) ∧
      ∃ jo', readAll buf' len xs.length jo =
        some (xs.map fun x => (0, x.mlen.toNat, x.payload), jo') ∧ jo'.rx = rest := by
  obtain ⟨hst, htx'⟩ := @writeAll_spec buf len hlen xs io hfit hsends
  refine ⟨hst, ?_⟩
  have hplen : ∀ x ∈ xs, x.payload.length = x.mlen.toNat := fun x _ => Mem.length_read ..
  have hfit' : ∀ p ∈ xs.map Msg.payload, 4 + (p.length : ℤ) ≤ len := by
    intro p hp
    obtain ⟨x, hx, rfl⟩ := List.mem_map.1 hp
    obtain ⟨h0, hle⟩ := hfit x hx
    rw [hplen x hx]
    omega
  have hrx' : jo.rx = ((xs.map Msg.payload).map frame).flatten ++ rest := by
    rw [hwire, htx', htx, List.nil_append, List.map_map]
    rfl
  obtain ⟨jo', hread, hrx⟩ := @readAll_spec buf' len hlen _ _ _ hfit' hrx' hrecvs
  refine ⟨jo', ?_, hrx⟩
  rw [List.length_map, List.map_map] at hread
  rw [hread]
  congr 2
  refine List.map_congr_left fun x hx => ?_
  simp [hplen x hx]

/-- A payload of three bytes at the address of the buffer, and an empty one. -/
def twoMsgs : List Msg := [⟨fun i => UInt8.ofNat i, 8, 3⟩, ⟨fun _ => 7, 100, 0⟩]

/-- A connection over which one byte goes at a time. -/
def bytewise (rx : List UInt8) : Io := ⟨fun _ => 0, rx, [], fun _ => 1, fun _ => 1⟩

/-- The two messages, sent and received byte by byte, with one more byte after them. -/
theorem readAll_writeAll_bytewise : ∃ jo',
    readAll 0 64 2 (bytewise ((writeAll 8 64 twoMsgs (bytewise [])).2.tx ++ [255])) =
      some ([(0, 3, [8, 9, 10]), (0, 0, [])], jo') ∧ jo'.rx = [255] :=
  (@readAll_writeAll 8 64 (by decide) twoMsgs (by simp [twoMsgs]) (bytewise [])
    (bytewise ((writeAll 8 64 twoMsgs (bytewise [])).2.tx ++ [255])) rfl (fun _ => Int.one_pos)
    (fun _ => Int.one_pos) [255] rfl 0).2

end Skq.Pingpong
