import Mathlib.Logic.Function.Iterate
import SkqBench.Pingpong.ReqProc

/-!
# The items of a touch request

`touch_proc` allocates as many items as its parameter `ENTRIES` says, and a request touches
`touch_cnt` of them from a random one on.  The bound of the loop is a sum of two `int`s, and the
parameter is the divisor of the index; neither is checked.  `touchOK_iff` says for which parameters
and requests the loop does what is asked of it.
-/

namespace Skq.Pingpong

open Lib

/-! ## The constructor -/

/-- `CACHE_LINE_SIZE`, to which `struct ppd_touch_cache_item` is aligned. -/
def cacheLineSize : ℕ := 64

/-- `PARAM_TBSZ_DEFAULT`. -/
def paramTbszDefault : ℤ := 64

/-- A `touch_proc`, and the number of items at `buffer`, which is 0 for a null pointer. -/
structure TouchServer where
  proc : TouchProc
  items : ℕ

/-- `touch_proc::touch_proc`.  `entries` is what `atoi` makes of the parameter `ENTRIES`, if it is
given; `alloc` are the sizes for which `aligned_alloc` has memory, with an arbitrary `content`. -/
def TouchServer.new (entries : Option ℤ) (alloc : ℕ → Bool) (content : ℤ → ℤ) : TouchServer :=
  let bufferSz := entries.getD paramTbszDefault
  let size := sizeT (bufferSz * cacheLineSize)
  ⟨⟨bufferSz, content⟩, if alloc size then size / cacheLineSize else 0⟩

/-! ## What is asked of a request -/

/-- The call of `proc_req` parses the request `req`, and leaves the members `p'`. -/
def TouchCall (pb : Protobuf) (buf : ℕ) (io : Io) (p : TouchProc) (req : TouchReq) (rand : ℤ)
    (p' : TouchProc) : Prop :=
  ∃ x r, touchProcReq pb buf p rand io = some (p', r) ∧ r.parsed = [x] ∧
    pb.touchReq x.bytes = some req

/-- What a request does to the items, where `p'` are the members after the call.
* `bound`: `rand + touch_cnt` does not overflow.
* `divisor`: no index is computed modulo 0.
* `touched`: as many items as asked for, consecutive modulo the size of the buffer.
* `inside`: all of them are in the buffer.
* `buffer`: one is added whenever an item is touched, and nothing else changes. -/
structure TouchOK (p : TouchServer) (req : TouchReq) (rand : ℤ) (p' : TouchProc) : Prop where
  bound : -2 ^ 31 ≤ rand + req.touchCnt ∧ rand + req.touchCnt < 2 ^ 31
  divisor : p.proc.touched req rand ≠ [] → p.proc.bufferSz ≠ 0
  touched : p.proc.touched req rand =
    (List.range (max req.touchCnt 0).toNat).map fun k : ℕ => (rand + k) % p.proc.bufferSz
  inside : ∀ i ∈ p.proc.touched req rand, 0 ≤ i ∧ i < p.items
  buffer : ∀ i, p'.buffer i =
    if req.inc > 0 then
      (fun val => toInt (val + 1))^[(p.proc.touched req rand).count i] (p.proc.buffer i)
    else p.proc.buffer i

/-! ## The loop -/

variable {pb : Protobuf} {buf : ℕ} {io : Io} {p : TouchServer} {q p' : TouchProc} {req : TouchReq}
  {rand : ℤ} {entries : Option ℤ} {alloc : ℕ → Bool} {content : ℤ → ℤ}

/-- A call touches the items of the request it parses. -/
lemma TouchCall.eq_touch (h : TouchCall pb buf io q req rand p') : p' = q.touch req rand := by
  obtain ⟨x, r, hcall, hparsed, hreq⟩ := h
  simp only [touchProcReq] at hcall
  split at hcall
  · cases hcall
  · cases hcall
    cases hparsed
  · next ret io' y hr =>
    split at hcall
    · next hnone =>
      cases hcall
      obtain rfl : y = x := by simpa using hparsed
      rw [hreq] at hnone
      cases hnone
    · next req' hsome =>
      cases hcall
      obtain rfl : y = x := by simpa [reply] using hparsed
      rw [hreq] at hsome
      rw [Option.some.inj hsome]

/-- One is added to an item whenever it is touched. -/
lemma foldl_count (l : List ℤ) (buffer : ℤ → ℤ) (i : ℤ) :
    l.foldl (fun (buffer : ℤ → ℤ) i j => if j = i then toInt (buffer i + 1) else buffer j) buffer i =
      (fun val => toInt (val + 1))^[l.count i] (buffer i) := by
  induction l generalizing buffer with
  | nil => rfl
  | cons a l ih =>
    rw [List.foldl_cons, ih, List.count_cons]
    by_cases h : i = a
    · subst h
      rw [if_pos rfl, if_pos (by simp), Function.iterate_succ_apply]
    · rw [if_neg h, if_neg (by simpa using fun he => h he.symm), Nat.add_zero]

lemma touch_buffer (i : ℤ) : (q.touch req rand).buffer i =
    if req.inc > 0 then (fun val => toInt (val + 1))^[(q.touched req rand).count i] (q.buffer i)
    else q.buffer i := by
  rw [TouchProc.touch]
  split
  · exact foldl_count _ _ _
  · rfl

lemma touched_eq_nil (hneg : req.touchCnt ≤ 0) (hmin : -2 ^ 31 ≤ req.touchCnt) (h0 : 0 ≤ rand)
    (hmax : rand < 2 ^ 31) : q.touched req rand = [] := by
  have hbound : toInt (rand + req.touchCnt) = rand + req.touchCnt := by
    rw [toInt, Int.bmod_eq_of_le (by omega) (by omega)]
  have hlen : (toInt (rand + req.touchCnt) - rand).toNat = 0 := by
    rw [hbound]
    omega
  rw [TouchProc.touched, hlen]
  rfl

/-- Without overflow, the items are consecutive. -/
lemma touched_eq (hpos : 0 < req.touchCnt) (h0 : 0 ≤ rand) (hmax : rand + req.touchCnt < 2 ^ 31) :
    q.touched req rand =
      (List.range req.touchCnt.toNat).map fun k : ℕ => (rand + k) % q.bufferSz := by
  have hbound : toInt (rand + req.touchCnt) - rand = req.touchCnt := by
    rw [toInt_of_lt (by omega) hmax]
    omega
  have hmod : ∀ k : ℕ, (rand + k).tmod q.bufferSz = (rand + k) % q.bufferSz := fun k =>
    Int.tmod_eq_emod_of_nonneg (by omega)
  rw [TouchProc.touched, hbound]
  simp [hmod, ← List.map_eq_flatMap]

/-- The items a buffer has, if there is memory for them. -/
lemma natAbs_le_items (hint : ∀ n ∈ entries, -2 ^ 31 ≤ n ∧ n < 2 ^ 31)
    (halloc : alloc (sizeT (entries.getD paramTbszDefault * cacheLineSize)) = true) :
    ((TouchServer.new entries alloc content).proc.bufferSz).natAbs ≤
      (TouchServer.new entries alloc content).items := by
  have hrange : -2 ^ 31 ≤ entries.getD paramTbszDefault ∧ entries.getD paramTbszDefault < 2 ^ 31 := by
    cases entries with
    | none => decide
    | some n => exact hint n rfl
  simp only [TouchServer.new, halloc, if_true]
  generalize entries.getD paramTbszDefault = n at hrange
  rw [sizeT, cacheLineSize]
  omega

lemma items_eq_zero
    (halloc : alloc (sizeT (entries.getD paramTbszDefault * cacheLineSize)) = false) :
    (TouchServer.new entries alloc content).items = 0 := by
  simp [TouchServer.new, halloc]

/-- Without a positive number of items nothing is touched. -/
lemma touchOK_of_nonpos (hneg : req.touchCnt ≤ 0) (hmin : -2 ^ 31 ≤ req.touchCnt)
    (hrand : 0 ≤ rand ∧ rand ≤ 2 ^ 31 - 1) (h : TouchCall pb buf io p.proc req rand p') :
    TouchOK p req rand p' := by
  have hnil : p.proc.touched req rand = [] := touched_eq_nil hneg hmin hrand.1 (by omega)
  refine ⟨by omega, fun hcons => absurd hnil hcons, ?_, ?_, ?_⟩
  · rw [hnil, max_eq_right hneg]
    rfl
  · rw [hnil]
    simp
  · rw [h.eq_touch]
    exact touch_buffer

/-- A positive number of items, in a buffer that is there. -/
lemma touchOK_of_pos (hpos : 0 < req.touchCnt) (hrand : 0 ≤ rand) (hdiv : p.proc.bufferSz ≠ 0)
    (hitems : p.proc.bufferSz.natAbs ≤ p.items) (hle : rand + req.touchCnt ≤ 2 ^ 31 - 1)
    (h : TouchCall pb buf io p.proc req rand p') : TouchOK p req rand p' := by
  have heq : p.proc.touched req rand = _ := touched_eq hpos hrand (by omega)
  refine ⟨by omega, fun _ => hdiv, ?_, ?_, ?_⟩
  · rw [heq, max_eq_left hpos.le]
  · intro i hi
    rw [heq] at hi
    obtain ⟨k, -, rfl⟩ := List.mem_map.1 hi
    have hlt := Int.emod_lt (rand + k) hdiv
    have hnonneg := Int.emod_nonneg (rand + k) hdiv
    omega
  · rw [h.eq_touch]
    exact touch_buffer

/-- **When a request touches what it asks for.**  `touch_cnt` is not positive; or there is a buffer,
whose size is not 0, and the start value and `touch_cnt` add up to an `int`. -/
theorem touchOK_iff (hint : ∀ n ∈ entries, -2 ^ 31 ≤ n ∧ n < 2 ^ 31)
    (hcnt : -2 ^ 31 ≤ req.touchCnt ∧ req.touchCnt < 2 ^ 31) (hrand : 0 ≤ rand ∧ rand ≤ 2 ^ 31 - 1)
    (h : TouchCall pb buf io (TouchServer.new entries alloc content).proc req rand p') :
    TouchOK (TouchServer.new entries alloc content) req rand p' ↔
      req.touchCnt ≤ 0 ∨ entries ≠ some 0 ∧
        alloc (sizeT (entries.getD paramTbszDefault * cacheLineSize)) = true ∧
          rand + req.touchCnt ≤ 2 ^ 31 - 1 := by
  have hzero : (TouchServer.new entries alloc content).proc.bufferSz = 0 ↔ entries = some 0 := by
    cases entries <;> simp [TouchServer.new, paramTbszDefault]
  constructor
  · intro hok
    rw [or_iff_not_imp_left, not_le]
    intro hpos
    -- the first item
    have hfirst : (rand + (0 : ℕ)) % (TouchServer.new entries alloc content).proc.bufferSz ∈
        (TouchServer.new entries alloc content).proc.touched req rand := by
      rw [hok.touched]
      refine List.mem_map_of_mem (List.mem_range.2 ?_)
      omega
    refine ⟨fun he => ?_, ?_, ?_⟩
    · exact hok.divisor (List.ne_nil_of_mem hfirst) (hzero.2 he)
    · by_contra halloc
      have hinside := hok.inside _ hfirst
      rw [items_eq_zero (by simpa using halloc)] at hinside
      omega
    · have hbound := hok.bound
      omega
  · rintro (hneg | ⟨hne, halloc, hle⟩)
    · exact touchOK_of_nonpos hneg hcnt.1 hrand h
    · rcases le_or_gt req.touchCnt 0 with hneg | hpos
      · exact touchOK_of_nonpos hneg hcnt.1 hrand h
      · have hsz : (TouchServer.new entries alloc content).proc.bufferSz ≠ 0 :=
          fun he => hne (hzero.1 he)
        exact touchOK_of_pos hpos hrand.1 hsz (natAbs_le_items hint halloc) hle h

/-! ## Two requests -/

/-- A protobuf with which every payload is the touch request `req`. -/
def touchOnly (req : TouchReq) : Protobuf where
  touchReq := fun _ => some req
  echoReq := fun _ => none
  rdbReq := fun _ => none
  touchResp := fun _ => []
  echoResp := fun _ => []
  rdbResp := fun _ => []
  touchStatus := fun _ => 0
  echoStatus := fun _ => 0
  rdbStatus := fun _ => 0

/-- A connection on which a frame without payload has arrived. -/
def emptyFrame : Io := bytewise [0, 0, 0, 0]

lemma touches_emptyFrame (q : TouchProc) (req : TouchReq) (rand : ℤ) :
    TouchCall (touchOnly req) 0 emptyFrame q req rand (q.touch req rand) :=
  ⟨⟨0, []⟩, _, rfl, rfl, rfl⟩

/-- Three of four items are touched, from the third on. -/
theorem touchOK_three : ∃ p', TouchCall (touchOnly ⟨3, 1⟩) 0 emptyFrame
    (TouchServer.new (some 4) (fun _ => true) fun _ => 0).proc ⟨3, 1⟩ 6 p' ∧
      TouchOK (TouchServer.new (some 4) (fun _ => true) fun _ => 0) ⟨3, 1⟩ 6 p' :=
  ⟨_, touches_emptyFrame .., (touchOK_iff (by decide) (by decide) (by decide)
    (touches_emptyFrame ..)).2 (.inr ⟨by decide, rfl, by decide⟩)⟩

/-- **A request for one item touches none** if the start value is the largest one. -/
theorem not_touchOK_one : ∃ p', TouchCall (touchOnly ⟨1, 1⟩) 0 emptyFrame
    (TouchServer.new none (fun _ => true) fun _ => 0).proc ⟨1, 1⟩ (2 ^ 31 - 1) p' ∧
      (TouchServer.new none (fun _ => true) fun _ => 0).proc.touched ⟨1, 1⟩ (2 ^ 31 - 1) = [] ∧
        ¬ TouchOK (TouchServer.new none (fun _ => true) fun _ => 0) ⟨1, 1⟩ (2 ^ 31 - 1) p' := by
  refine ⟨_, touches_emptyFrame .., by decide, fun h => ?_⟩
  have hbound := h.bound.2
  revert hbound
  decide

end Skq.Pingpong
