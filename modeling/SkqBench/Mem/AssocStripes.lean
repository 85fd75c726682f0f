import Mathlib.Data.List.Nodup
import SkqBench.Mem.Assoc

/-!
# What is under an item lock

The entries and the items fall into as many parts as there are item locks, and a call or a move stays
in the part whose lock is held: the lock takes the low bits of a hash value, and both tables have more
entries than there are locks.  The invariant says of each part that it is settled, or how far the
holder of its lock has come; a step has to be looked at in its own part only.
-/

namespace Skq.Mem

open Lib

/-! ## Who holds which lock -/

/-- The hash value of the item lock a thread holds. -/
def AssocAt.hv? {ι κ : Type*} : AssocAt ι κ → Option UInt32
  | idle => none
  | held hv => some hv
  | test hv _ => some hv
  | compare hv _ => some hv
  | decided hv _ _ => some hv
  | walk hv _ _ => some hv
  | link hv _ _ => some hv
  | seek hv _ _ => some hv
  | unlink hv _ _ => some hv

/-- The bucket whose item lock the maintenance thread holds. -/
def MaintAt.bucket? {ι : Type*} : MaintAt ι → Option ℕ
  | load b => some b
  | move b _ => some b
  | push b _ _ => some b
  | clear b => some b
  | bump b => some b
  | release b => some b
  | unlock b => some b
  | _ => none

namespace Assoc

variable {τ ι κ : Type*}

/-- What `expanding`, `expand_bucket` and `old_hashtable` are, for each place of the maintenance
thread. -/
def PhaseOK (s : Assoc τ ι κ) : MaintAt ι → Prop
  | .top => s.expanding = true → s.expandBucket < 2 ^ (s.hashpower - 1)
  | .unlock b => b < 2 ^ (s.hashpower - 1) ∧
      (s.expanding = true → s.expandBucket < 2 ^ (s.hashpower - 1))
  | .load b => s.expanding = true ∧ s.expandBucket = b ∧ b < 2 ^ (s.hashpower - 1)
  | .move b _ => s.expanding = true ∧ s.expandBucket = b ∧ b < 2 ^ (s.hashpower - 1)
  | .push b _ _ => s.expanding = true ∧ s.expandBucket = b ∧ b < 2 ^ (s.hashpower - 1)
  | .clear b => s.expanding = true ∧ s.expandBucket = b ∧ b < 2 ^ (s.hashpower - 1)
  | .bump b => s.expanding = true ∧ s.expandBucket = b + 1 ∧ b < 2 ^ (s.hashpower - 1)
  | .release b => s.expanding = false ∧ b < 2 ^ (s.hashpower - 1)
  | .reset => s.expanding = false
  | .waiting => s.expanding = false
  | .woken => s.expanding = false

/-- The sizes of the tables, and the item locks. -/
structure Ctl (e : Hashing ι κ) (s : Assoc τ ι κ) : Prop where
  power : e.lockPower < s.hashpower
  powerMax : s.hashpower < hashpowerMax
  primary : s.primary.size = 2 ^ s.hashpower
  old : s.expanding = true → ∃ t, s.old = some t ∧ t.size = 2 ^ (s.hashpower - 1)
  phase : s.PhaseOK s.maint
  lockThread : ∀ k t, s.locks k = some (.thread t) ↔ (s.threads t).hv?.map e.lockOf = some k
  lockMaint : ∀ k, s.locks k = some .maint ↔
    s.maint.bucket?.map (fun b => bucketOf e.lockPower b.toUInt32) = some k

/-- The item lock of an entry. -/
def slotLock (e : Hashing ι κ) (b : HashSlot) : ℕ := b.index % 2 ^ e.lockPower

/-- The item lock of an item. -/
def itemLock (e : Hashing ι κ) (it : ι) : ℕ := e.lockOf (e.hash (e.key it))

section Stripes

variable (e : Hashing ι κ) (s : Assoc τ ι κ) (L : HashSlot → List ι) (c : ι → Bool) (k : ℕ)

/-- The entry is in a table that is used. -/
def Live : HashSlot → Prop
  | .old _ => s.expanding = true
  | .new _ => True

/-- The lists of the entries under the lock, when `heads` points to their first items. -/
def Chains (heads : HashSlot → Option ι) : Prop :=
  ∀ b, slotLock e b = k → s.Live b → Chain s.hNext (heads b) (L b)

/-- The items under a lock: each is in the entry in which it is searched, or, if its bucket is being
moved, in its new one; and those linked are in one of the lists, except for the one in the hands of the
maintenance thread. -/
structure Stripe (moving : Option ℕ) (limbo : Option ι) : Prop where
  home : ∀ b it, slotLock e b = k → it ∈ L b →
    b = s.slotOf (e.hash (e.key it)) ∨
      moving = some (bucketOf (s.hashpower - 1) (e.hash (e.key it))) ∧
        b = .new (bucketOf s.hashpower (e.hash (e.key it)))
  mem : ∀ it, itemLock e it = k →
    (c it = true ↔ (∃ b, slotLock e b = k ∧ it ∈ L b) ∨ limbo = some it)
  limbo : ∀ it, limbo = some it → itemLock e it = k ∧ ∀ b, slotLock e b = k → it ∉ L b
  uniq : ∀ it it', itemLock e it = k → c it = true → c it' = true → e.key it = e.key it' → it = it'
  apart : ∀ i j it, slotLock e (.old i) = k → slotLock e (.new j) = k → it ∈ L (.old i) →
    it ∉ L (.new j)

/-- Nobody is in the middle of anything. -/
structure Settled : Prop where
  stripe : Stripe e s L c k none none
  chains : Chains e s L k s.headOf

/-- What a call relies on. -/
def CallOK (hv : UInt32) : AssocCall ι κ → Prop
  | .find key => e.hash key = hv
  | .insert it => e.hash (e.key it) = hv ∧ ∀ it', c it' = true → e.key it' ≠ e.key it
  | .delete key => e.hash key = hv ∧ ∃ it, c it = true ∧ e.key it = key

/-- `pos` is the pointer behind the first items `pre` of an entry. -/
def PosAt (b : HashSlot) (pos : ItemPos ι) (pre : List ι) : Prop :=
  pre = [] ∧ pos = .slot b ∨ ∃ l a, pre = l ++ [a] ∧ pos = .next a

/-- The thread that holds the lock. -/
def ThreadOK : AssocAt ι κ → Prop
  | .idle => True
  | .held _ => Settled e s L c k
  | .test hv call => Settled e s L c k ∧ CallOK e c hv call
  | .compare hv call => Settled e s L c k ∧ CallOK e c hv call ∧
      (s.expanding = true ∨ s.expandBucket = 2 ^ (s.hashpower - 1))
  | .decided hv call b => Settled e s L c k ∧ CallOK e c hv call ∧ b = s.slotOf hv
  | .walk hv key p => Settled e s L c k ∧ e.hash key = hv ∧
      ∃ pre post, L (s.slotOf hv) = pre ++ post ∧ Chain s.hNext p post ∧ ∀ a ∈ pre, e.key a ≠ key
  | .link hv it b => Settled e s L c k ∧ CallOK e c hv (.insert it) ∧ b = s.slotOf hv ∧
      s.hNext it = s.headOf b
  | .seek hv key pos => Settled e s L c k ∧ CallOK e c hv (.delete key) ∧
      ∃ pre post, L (s.slotOf hv) = pre ++ post ∧ PosAt (s.slotOf hv) pos pre ∧
        ∀ a ∈ pre, e.key a ≠ key
  | .unlink hv pos nxt => Stripe e s L c k none none ∧
      (∀ b, b ≠ s.slotOf hv → slotLock e b = k → s.Live b → Chain s.hNext (s.headOf b) (L b)) ∧
      ∃ pre post tail, L (s.slotOf hv) = pre ++ post ∧ (pre ++ post).Nodup ∧
        PosAt (s.slotOf hv) pos pre ∧ Seg s.hNext (s.headOf (s.slotOf hv)) pre tail ∧
        Chain s.hNext nxt post

/-- The maintenance thread, when it holds the lock. -/
def MoverOK [DecidableEq ι] : MaintAt ι → Prop
  | .move b p => Stripe e s L c k (some b) none ∧
      Chains e s L k (Function.update s.headOf (.old b) p)
  | .push b it nxt => Stripe e s L c k (some b) (some it) ∧
      Chains e s L k (Function.update s.headOf (.old b) nxt) ∧
      bucketOf (s.hashpower - 1) (e.hash (e.key it)) = b ∧
      s.hNext it = s.headOf (.new (bucketOf s.hashpower (e.hash (e.key it))))
  | .clear b => Stripe e s L c k (some b) none ∧ Chains e s L k s.headOf ∧ L (.old b) = []
  | _ => Settled e s L c k

/-- What is under the lock is settled, or it is as its holder knows it. -/
def HolderOK [DecidableEq ι] : Prop :=
  match s.locks k with
  | none => Settled e s L c k
  | some (.thread t) => ThreadOK e s L c k (s.threads t)
  | some .maint => MoverOK e s L c k s.maint

end Stripes

/-- The invariant: the tables have the lists `L`, and the items of `c` are in them. -/
structure Inv [DecidableEq ι] (e : Hashing ι κ) (s : Assoc τ ι κ) (L : HashSlot → List ι)
    (c : ι → Bool) : Prop where
  ctl : Ctl e s
  holder : ∀ k, HolderOK e s L c k

/-! ## Entries and locks -/

section Entries

variable {e : Hashing ι κ} {s s' : Assoc τ ι κ} {L L' : HashSlot → List ι} {c c' : ι → Bool} {k : ℕ}
  {hv : UInt32} {b : HashSlot} {it : ι} {moving : Option ℕ} {limbo : Option ι} {i : ℕ}

@[simp] lemma itemLock_def : itemLock e it = e.lockOf (e.hash (e.key it)) := rfl

/-- The new entry of a hash value is under its item lock. -/
lemma Ctl.slotLock_new (h : Ctl e s) (hv : UInt32) :
    slotLock e (.new (bucketOf s.hashpower hv)) = e.lockOf hv :=
  bucketOf_mod h.power.le h.powerMax hv

/-- So is the old one: there are fewer locks than entries in either table. -/
lemma Ctl.slotLock_old (h : Ctl e s) (hv : UInt32) :
    slotLock e (.old (bucketOf (s.hashpower - 1) hv)) = e.lockOf hv := by
  have hmax : s.hashpower < 32 := h.powerMax
  exact bucketOf_mod (by have := h.power; omega) (by omega) hv

lemma Ctl.slotLock_slotOf (h : Ctl e s) (hv : UInt32) : slotLock e (s.slotOf hv) = e.lockOf hv := by
  rw [slotOf]
  split
  · exact h.slotLock_old hv
  · exact h.slotLock_new hv

lemma live_slotOf (s : Assoc τ ι κ) (hv : UInt32) : s.Live (s.slotOf hv) := by
  rw [slotOf]
  split
  · next hold => exact hold.1
  · trivial

/-- The entry of a hash value can be read. -/
lemma Ctl.head?_slotOf (h : Ctl e s) (hv : UInt32) :
    s.head? (s.slotOf hv) = some (s.headOf (s.slotOf hv)) := by
  have hmax : s.hashpower < 32 := h.powerMax
  rw [slotOf]
  split
  · next hold =>
    obtain ⟨t, ht, hsize⟩ := h.old hold.1
    have hlt := bucketOf_lt (show s.hashpower - 1 < 32 by omega) hv
    simp [head?, headOf, ht, HashTable.load, hsize, hlt]
  · have hlt := bucketOf_lt hmax hv
    simp [head?, headOf, HashTable.load, h.primary, hlt]

/-- The new entry of a hash value can be read, too. -/
lemma Ctl.head?_new (h : Ctl e s) (hv : UInt32) :
    s.head? (.new (bucketOf s.hashpower hv)) = some (s.headOf (.new (bucketOf s.hashpower hv))) := by
  simp [head?, headOf, HashTable.load, h.primary, bucketOf_lt h.powerMax hv]

/-- A list has items of its own item lock only. -/
lemma Stripe.itemLock_eq (h : Ctl e s) (hs : Stripe e s L c k moving limbo) (hb : slotLock e b = k)
    (hit : it ∈ L b) : itemLock e it = k := by
  rcases hs.home b it hb hit with rfl | ⟨_, rfl⟩
  · rw [← hb, h.slotLock_slotOf, itemLock_def]
  · rw [← hb, h.slotLock_new, itemLock_def]

/-- Nobody moves the items of the lock: all that have the hash value are in its entry. -/
lemma Stripe.mem_slotOf (h : Ctl e s) (hs : Stripe e s L c k none none)
    (hk : itemLock e it = k) : c it = true ↔ it ∈ L (s.slotOf (e.hash (e.key it))) := by
  rw [hs.mem it hk]
  constructor
  · rintro (⟨b, hb, hit⟩ | hlimbo)
    · rcases hs.home b it hb hit with rfl | ⟨hmove, _⟩
      · exact hit
      · cases hmove
    · cases hlimbo
  · intro hit
    refine .inl ⟨_, ?_, hit⟩
    rw [h.slotLock_slotOf]
    exact hk

/-! ## What a step leaves as it is -/

/-- Nothing changes under a lock. -/
structure SameUnder (e : Hashing ι κ) (k : ℕ) (s : Assoc τ ι κ) (L : HashSlot → List ι) (c : ι → Bool)
    (s' : Assoc τ ι κ) (L' : HashSlot → List ι) (c' : ι → Bool) : Prop where
  power : s'.hashpower = s.hashpower
  slot : ∀ hv, e.lockOf hv = k → s'.slotOf hv = s.slotOf hv
  live : ∀ b, s'.Live b → s.Live b
  head : ∀ b, slotLock e b = k → s'.Live b → s'.headOf b = s.headOf b
  next : ∀ it, itemLock e it = k → s'.hNext it = s.hNext it
  lists : ∀ b, slotLock e b = k → L' b = L b
  content : ∀ it, itemLock e it = k → c' it = c it
  done : s.expanding = true ∨ s.expandBucket = 2 ^ (s.hashpower - 1) →
    s'.expanding = true ∨ s'.expandBucket = 2 ^ (s'.hashpower - 1)

/-- Where the threads are, and what is locked, is not under a lock. -/
lemma SameUnder.control (hsame : SameUnder e k s L c s' L' c') (locks : ℕ → Option (LockOwner τ))
    (threads : τ → AssocAt ι κ) (maint : MaintAt ι) (started : Bool) :
    SameUnder e k s L c { s' with
      locks := locks
      threads := threads
      maint := maint
      startedExpanding := started } L' c' :=
  ⟨hsame.power, hsame.slot, hsame.live, hsame.head, hsame.next, hsame.lists, hsame.content, hsame.done⟩

lemma SameUnder.refl (e : Hashing ι κ) (k : ℕ) (s : Assoc τ ι κ) (L : HashSlot → List ι)
    (c : ι → Bool) : SameUnder e k s L c s L c :=
  ⟨rfl, fun _ _ => rfl, fun _ => id, fun _ _ _ => rfl, fun _ _ => rfl, fun _ _ => rfl,
    fun _ _ => rfl, id⟩

lemma Stripe.congr (h : Ctl e s) (hsame : SameUnder e k s L c s' L' c')
    (hs : Stripe e s L c k moving limbo) : Stripe e s' L' c' k moving limbo where
  home b it hb hit := by
    rw [hsame.lists b hb] at hit
    rw [hsame.slot _ (hs.itemLock_eq h hb hit), hsame.power]
    exact hs.home b it hb hit
  mem it hk := by
    rw [hsame.content it hk, hs.mem it hk]
    refine or_congr_left (exists_congr fun b => and_congr_right fun hb => ?_)
    rw [hsame.lists b hb]
  limbo it hl := by
    refine ⟨(hs.limbo it hl).1, fun b hb => ?_⟩
    rw [hsame.lists b hb]
    exact (hs.limbo it hl).2 b hb
  uniq it it' hk hc hc' heq := by
    have hk' : itemLock e it' = k := by rwa [itemLock_def, ← heq]
    rw [hsame.content _ hk] at hc
    rw [hsame.content _ hk'] at hc'
    exact hs.uniq it it' hk hc hc' heq
  apart i j it hi hj hit := by
    rw [hsame.lists _ hi] at hit
    rw [hsame.lists _ hj]
    exact hs.apart i j it hi hj hit

/-- A list under the lock is still linked. -/
lemma SameUnder.chain (h : Ctl e s) (hsame : SameUnder e k s L c s' L' c')
    (hs : Stripe e s L c k moving limbo) (hb : slotLock e b = k) {p : Option ι} {l : List ι}
    (hl : ∀ a ∈ l, a ∈ L b) (hc : Chain s.hNext p l) : Chain s'.hNext p l :=
  chain_congr hc fun a ha => hsame.next a (hs.itemLock_eq h hb (hl a ha))

lemma Chains.congr (h : Ctl e s) (hsame : SameUnder e k s L c s' L' c')
    (hs : Stripe e s L c k moving limbo) {heads heads' : HashSlot → Option ι}
    (hc : Chains e s L k heads) (hheads : ∀ b, slotLock e b = k → s'.Live b → heads' b = heads b) : Chains e s' L' k heads' := by
  intro b hb hlive
  rw [hheads b hb hlive, hsame.lists b hb]
  exact hsame.chain h hs hb (fun _ ha => ha) (hc b hb (hsame.live b hlive))

lemma Settled.congr (h : Ctl e s) (hsame : SameUnder e k s L c s' L' c') (hs : Settled e s L c k) :
    Settled e s' L' c' k :=
  ⟨hs.stripe.congr h hsame, hs.chains.congr h hsame hs.stripe hsame.head⟩

lemma CallOK.congr (hsame : SameUnder e k s L c s' L' c') (hk : e.lockOf hv = k) {call : AssocCall ι κ}
    (hc : CallOK e c hv call) : CallOK e c' hv call := by
  cases call with
  | find key => exact hc
  | insert it =>
    refine ⟨hc.1, fun it' hit' heq => ?_⟩
    have hk' : itemLock e it' = k := by rw [itemLock_def, heq, hc.1, hk]
    rw [hsame.content it' hk'] at hit'
    exact hc.2 it' hit' heq
  | delete key =>
    obtain ⟨hhash, it, hit, rfl⟩ := hc
    refine ⟨hhash, it, ?_, rfl⟩
    rwa [hsame.content it (by rw [itemLock_def, hhash, hk])]

/-- What the holder of the lock knows stays true. -/
lemma ThreadOK.congr (h : Ctl e s) (hsame : SameUnder e k s L c s' L' c') {pc : AssocAt ι κ}
    (hk : pc.hv?.map e.lockOf = some k) (hok : ThreadOK e s L c k pc) : ThreadOK e s' L' c' k pc := by
  have hslot : ∀ hv, pc.hv? = some hv → s'.slotOf hv = s.slotOf hv ∧ slotLock e (s.slotOf hv) = k ∧
      s'.headOf (s.slotOf hv) = s.headOf (s.slotOf hv) ∧ L' (s.slotOf hv) = L (s.slotOf hv) := by
    intro hv hpc
    have hlock : e.lockOf hv = k := by simpa [hpc] using hk
    have hb : slotLock e (s.slotOf hv) = k := (h.slotLock_slotOf hv).trans hlock
    have heq := hsame.slot hv hlock
    exact ⟨heq, hb, hsame.head _ hb (heq ▸ live_slotOf s' hv), hsame.lists _ hb⟩
  have hcall : ∀ hv call, pc.hv? = some hv → CallOK e c hv call → CallOK e c' hv call := by
    intro hv call hpc
    exact CallOK.congr hsame (by simpa [hpc] using hk)
  cases pc with
  | idle => trivial
  | held hv => exact Settled.congr h hsame hok
  | test hv call => exact ⟨hok.1.congr h hsame, hcall hv call rfl hok.2⟩
  | compare hv call =>
    exact ⟨hok.1.congr h hsame, hcall hv call rfl hok.2.1, hsame.done hok.2.2⟩
  | decided hv call b =>
    exact ⟨hok.1.congr h hsame, hcall hv call rfl hok.2.1, hok.2.2.trans (hslot hv rfl).1.symm⟩
  | walk hv key p =>
    obtain ⟨hs, hhash, pre, post, hL, hchain, hpre⟩ := hok
    obtain ⟨heq, hb, _, hl⟩ := hslot hv rfl
    refine ⟨hs.congr h hsame, hhash, pre, post, by rw [heq, hl, hL], ?_, hpre⟩
    exact hsame.chain h hs.stripe hb (fun a ha => by simp [hL, ha]) hchain
  | link hv it b =>
    obtain ⟨hs, hcallok, rfl, hnext⟩ := hok
    obtain ⟨heq, _, hhead, _⟩ := hslot hv rfl
    have hlock : itemLock e it = k := by
      rw [itemLock_def, hcallok.1]
      simpa [AssocAt.hv?] using hk
    refine ⟨hs.congr h hsame, hcall hv _ rfl hcallok, heq.symm, ?_⟩
    rw [hsame.next it hlock, hnext, hhead]
  | seek hv key pos =>
    obtain ⟨hs, hcallok, pre, post, hL, hpos, hpre⟩ := hok
    obtain ⟨heq, _, _, hl⟩ := hslot hv rfl
    exact ⟨hs.congr h hsame, hcall hv _ rfl hcallok, pre, post, by rw [heq, hl, hL],
      by rwa [heq], hpre⟩
  | unlink hv pos nxt =>
    obtain ⟨hs, hother, pre, post, tail, hL, hnodup, hpos, hseg, hchain⟩ := hok
    obtain ⟨heq, hb, hhead, hl⟩ := hslot hv rfl
    refine ⟨hs.congr h hsame, ?_, pre, post, tail, by rw [heq, hl, hL], hnodup, by rwa [heq], ?_, ?_⟩
    · intro b hne hbk hlive
      rw [hsame.head b hbk hlive, hsame.lists b hbk]
      rw [heq] at hne
      exact hsame.chain h hs hbk (fun _ ha => ha) (hother b hne hbk (hsame.live b hlive))
    · rw [heq, hhead]
      exact seg_congr hseg fun a ha => hsame.next a (hs.itemLock_eq h hb (by simp [hL, ha]))
    · exact hsame.chain h hs hb (fun a ha => by simp [hL, ha]) hchain

lemma update_headOf_congr (hsame : SameUnder e k s L c s' L' c') {i : ℕ} {p : Option ι}
    (hb : slotLock e b = k) (hlive : s'.Live b) :
    Function.update s'.headOf (.old i) p b = Function.update s.headOf (.old i) p b := by
  by_cases hbi : b = .old i
  · rw [hbi, Function.update_self, Function.update_self]
  · rw [Function.update_of_ne hbi, Function.update_of_ne hbi]
    exact hsame.head b hb hlive

variable [DecidableEq ι]

lemma MoverOK.congr (h : Ctl e s) (hsame : SameUnder e k s L c s' L' c') {pc : MaintAt ι}
    (hk : ∀ b, pc.bucket? = some b → b % 2 ^ e.lockPower = k) (hok : MoverOK e s L c k pc) :
    MoverOK e s' L' c' k pc := by
  cases pc with
  | move b p =>
    exact ⟨hok.1.congr h hsame, hok.2.congr h hsame hok.1 fun b' hb' hlive =>
      update_headOf_congr hsame hb' hlive⟩
  | push b it nxt =>
    obtain ⟨hs, hchains, hbucket, hnext⟩ := hok
    have hlock := (hs.limbo it rfl).1
    refine ⟨hs.congr h hsame, hchains.congr h hsame hs fun b' hb' hlive =>
      update_headOf_congr hsame hb' hlive, by rw [hsame.power, hbucket], ?_⟩
    rw [hsame.next it hlock, hnext, hsame.power]
    exact (hsame.head _ ((h.slotLock_new _).trans hlock) trivial).symm
  | clear b =>
    refine ⟨hok.1.congr h hsame, hok.2.1.congr h hsame hok.1 hsame.head, ?_⟩
    rw [hsame.lists (.old b) (hk b rfl)]
    exact hok.2.2
  | _ => exact Settled.congr h hsame hok

omit [DecidableEq ι] in
/-- The item lock of the bucket that is moved. -/
lemma Ctl.bucket_mod (h : Ctl e s) {b : ℕ} (hb : s.maint.bucket? = some b) :
    bucketOf e.lockPower b.toUInt32 = b % 2 ^ e.lockPower := by
  have hlt : b < 2 ^ (s.hashpower - 1) := by
    have hphase := h.phase
    revert hphase hb
    cases s.maint <;> simp only [MaintAt.bucket?, PhaseOK, Option.some.injEq, reduceCtorEq,
      IsEmpty.forall_iff] <;> rintro rfl hphase <;> simp [hphase]
  have hmax : s.hashpower < 32 := h.powerMax
  have hpow : 2 ^ (s.hashpower - 1) ≤ 2 ^ 32 := Nat.pow_le_pow_right (by decide) (by omega)
  rw [bucketOf_eq (h.power.trans hmax), Nat.toUInt32_eq, UInt32.toNat_ofNat',
    Nat.mod_eq_of_lt (by omega : b < 2 ^ 32)]

/-- A lock under which nothing changes, and whose holder does not move. -/
lemma HolderOK.congr (h : Ctl e s) (hsame : SameUnder e k s L c s' L' c')
    (hlocks : s'.locks k = s.locks k)
    (hthread : ∀ t, s.locks k = some (.thread t) → s'.threads t = s.threads t)
    (hmaint : s.locks k = some .maint → s'.maint = s.maint) (hok : HolderOK e s L c k) :
    HolderOK e s' L' c' k := by
  unfold HolderOK at hok ⊢
  rw [hlocks]
  cases hk : s.locks k with
  | none =>
    rw [hk] at hok
    exact Settled.congr h hsame hok
  | some owner =>
    rw [hk] at hok
    cases owner with
    | thread t =>
      simp only
      rw [hthread t hk]
      exact ThreadOK.congr h hsame ((h.lockThread k t).1 hk) hok
    | maint =>
      simp only
      rw [hmaint hk]
      refine MoverOK.congr h hsame (fun b hb => ?_) hok
      have hlock := (h.lockMaint k).1 hk
      rw [hb, Option.map_some, Option.some.injEq, h.bucket_mod hb] at hlock
      exact hlock

/-! ## Steps of the threads -/

/-- Only memory under the lock is written. -/
structure Writes (e : Hashing ι κ) (k : ℕ) (s s' : Assoc τ ι κ) : Prop where
  power : s'.hashpower = s.hashpower
  expanding : s'.expanding = s.expanding
  bucket : s'.expandBucket = s.expandBucket
  locks : s'.locks = s.locks
  threads : s'.threads = s.threads
  maint : s'.maint = s.maint
  primary : s'.primary.size = s.primary.size
  old : ∀ t, s.old = some t → ∃ t', s'.old = some t' ∧ t'.size = t.size
  head : ∀ b, slotLock e b ≠ k → s'.headOf b = s.headOf b
  next : ∀ it, itemLock e it ≠ k → s'.hNext it = s.hNext it

omit [DecidableEq ι] in
lemma Writes.refl (e : Hashing ι κ) (k : ℕ) (s : Assoc τ ι κ) : Writes e k s s :=
  ⟨rfl, rfl, rfl, rfl, rfl, rfl, rfl, fun t ht => ⟨t, ht, rfl⟩, fun _ _ => rfl, fun _ _ => rfl⟩

lemma Writes.assign_next (s : Assoc τ ι κ) (p : Option ι) (hk : itemLock e it = k) :
    Writes e k s (s.assign (.next it) p) := by
  refine ⟨rfl, rfl, rfl, rfl, rfl, rfl, rfl, fun t ht => ⟨t, ht, rfl⟩, fun _ _ => rfl, ?_⟩
  intro it' hne
  refine Function.update_of_ne ?_ ..
  rintro rfl
  exact hne hk

omit [DecidableEq ι] in
lemma headOf_setHead_of_ne (s : Assoc τ ι κ) (p : Option ι) {b b' : HashSlot} (hne : b' ≠ b) :
    (s.setHead b p).headOf b' = s.headOf b' := by
  cases b <;> cases b' <;> simp only [setHead, headOf]
  case old.old i j =>
    have hij : j ≠ i := fun heq => hne (by rw [heq])
    cases s.old <;> simp [HashTable.store, Function.update_of_ne hij]
  case new.new i j =>
    have hij : j ≠ i := fun heq => hne (by rw [heq])
    simp [HashTable.store, Function.update_of_ne hij]

omit [DecidableEq ι] in
/-- The entry that has been written. -/
lemma headOf_setHead_self (s : Assoc τ ι κ) (p : Option ι) (h : (s.head? b).isSome) :
    (s.setHead b p).headOf b = p := by
  cases b with
  | old i =>
    simp only [head?] at h
    simp only [setHead, headOf]
    cases hold : s.old with
    | none => simp [hold] at h
    | some t => simp [HashTable.store]
  | new i => simp [setHead, headOf, HashTable.store]

omit [DecidableEq ι] in
lemma Writes.setHead (s : Assoc τ ι κ) (p : Option ι) (hk : slotLock e b = k) :
    Writes e k s (s.setHead b p) := by
  cases b with
  | old i =>
    refine ⟨rfl, rfl, rfl, rfl, rfl, rfl, rfl, fun t ht => ⟨t.store i p, ?_, rfl⟩, ?_, fun _ _ => rfl⟩
    · simp [Assoc.setHead, ht]
    · intro b' hne
      refine headOf_setHead_of_ne s p ?_
      rintro rfl
      exact hne hk
  | new i =>
    refine ⟨rfl, rfl, rfl, rfl, rfl, rfl, rfl, fun t ht => ⟨t, ht, rfl⟩, ?_, fun _ _ => rfl⟩
    intro b' hne
    refine headOf_setHead_of_ne s p ?_
    rintro rfl
    exact hne hk

omit [DecidableEq ι] in
lemma Writes.slotOf (hw : Writes e k s s') (hv : UInt32) : s'.slotOf hv = s.slotOf hv := by
  simp only [Assoc.slotOf, hw.power, hw.expanding, hw.bucket]

omit [DecidableEq ι] in
lemma Writes.live (hw : Writes e k s s') : s'.Live b ↔ s.Live b := by
  cases b with
  | old i => simp only [Live, hw.expanding]
  | new i => rfl

omit [DecidableEq ι] in
/-- What is written under one lock changes nothing under the others. -/
lemma Writes.sameUnder (hw : Writes e k s s') {k' : ℕ} (hk : k' ≠ k)
    (hL : ∀ b, slotLock e b ≠ k → L' b = L b) (hc : ∀ it, itemLock e it ≠ k → c' it = c it) :
    SameUnder e k' s L c s' L' c' where
  power := hw.power
  slot hv _ := hw.slotOf hv
  live _ := hw.live.1
  head b hb _ := hw.head b (hb ▸ hk)
  next it hit := hw.next it (hit ▸ hk)
  lists b hb := hL b (hb ▸ hk)
  content it hit := hc it (hit ▸ hk)
  done hd := by rwa [hw.power, hw.expanding, hw.bucket]

omit [DecidableEq ι] in
lemma Writes.ctl (hw : Writes e k s s') (h : Ctl e s) : Ctl e s' where
  power := hw.power ▸ h.power
  powerMax := hw.power ▸ h.powerMax
  primary := by rw [hw.primary, hw.power, h.primary]
  old hexp := by
    rw [hw.expanding] at hexp
    obtain ⟨t, ht, hsize⟩ := h.old hexp
    obtain ⟨t', ht', hsize'⟩ := hw.old t ht
    exact ⟨t', ht', by rw [hsize', hsize, hw.power]⟩
  phase := by
    have hphase := h.phase
    rw [hw.maint]
    revert hphase
    cases s.maint <;> simp only [PhaseOK, hw.power, hw.expanding, hw.bucket] <;> exact id
  lockThread k' t := by rw [hw.locks, hw.threads, h.lockThread]
  lockMaint k' := by rw [hw.locks, hw.maint, h.lockMaint]

variable [DecidableEq τ] {t : τ} {pc : AssocAt ι κ}

/-- A thread that holds a lock writes under it and goes on. -/
lemma Inv.work (h : Inv e s L c) (ht : (s.threads t).hv? = some hv)
    (hw : Writes e (e.lockOf hv) s s') (hpc : pc.hv? = some hv)
    (hL : ∀ b, slotLock e b ≠ e.lockOf hv → L' b = L b)
    (hc : ∀ it, itemLock e it ≠ e.lockOf hv → c' it = c it)
    (hok : ThreadOK e s' L' c' (e.lockOf hv) pc) : Inv e (s'.goto t pc) L' c' := by
  have hctl := hw.ctl h.ctl
  have howner : s.locks (e.lockOf hv) = some (.thread t) := by
    rw [h.ctl.lockThread, ht]
    rfl
  have hlock : ∀ k t', s'.locks k = some (.thread t') ↔
      (Function.update s'.threads t pc t').hv?.map e.lockOf = some k := by
    intro k t'
    rw [hctl.lockThread, hw.threads]
    by_cases htt : t' = t
    · rw [htt, Function.update_self, ht, hpc]
    · rw [Function.update_of_ne htt]
  refine ⟨⟨hctl.power, hctl.powerMax, hctl.primary, hctl.old, hctl.phase, hlock, hctl.lockMaint⟩,
    fun k => ?_⟩
  by_cases hk : k = e.lockOf hv
  · subst hk
    unfold HolderOK
    have howner' : (s'.goto t pc).locks (e.lockOf hv) = some (.thread t) := (hw.locks ▸ howner)
    rw [howner']
    simp only [goto, Function.update_self]
    refine ThreadOK.congr hctl ((SameUnder.refl e _ s' L' c').control ..) ?_ hok
    rw [hpc]
    rfl
  · refine HolderOK.congr h.ctl ?_ (congrFun hw.locks k) ?_ (fun _ => hw.maint)
      (h.holder k)
    · exact (hw.sameUnder hk hL hc).control ..
    · intro t' ht'
      have hne : t' ≠ t := by
        rintro rfl
        rw [h.ctl.lockThread, ht] at ht'
        exact hk (Option.some.inj ht').symm
      exact (Function.update_of_ne hne ..).trans (congrFun hw.threads t')

omit [DecidableEq τ] in
/-- A pointer of an item that is in no list may be written. -/
lemma Settled.assign_next (hs : Settled e s L c k) (p : Option ι)
    (hnot : ∀ b, slotLock e b = k → it ∉ L b) : Settled e (s.assign (.next it) p) L c k := by
  refine ⟨⟨hs.stripe.home, hs.stripe.mem, hs.stripe.limbo, hs.stripe.uniq, hs.stripe.apart⟩, ?_⟩
  intro b hb hlive
  refine chain_congr (hs.chains b hb hlive) fun a ha => Function.update_of_ne ?_ ..
  rintro rfl
  exact hnot b hb ha

omit [DecidableEq τ] in
/-- `assoc_insert`: an item without its like in the table is put in front of its list. -/
lemma Settled.link (h : Ctl e s) (hs : Settled e s L c k) (hk : itemLock e it = k)
    (hb : b = s.slotOf (e.hash (e.key it)))
    (hnew : ∀ it', c it' = true → e.key it' ≠ e.key it) (hnext : s.hNext it = s.headOf b) :
    Settled e (s.setHead b (some it)) (Function.update L b (it :: L b))
      (Function.update c it true) k := by
  have hbk : slotLock e b = k := by rw [hb, h.slotLock_slotOf, ← hk, itemLock_def]
  have hw : Writes e k s (s.setHead b (some it)) := .setHead s _ hbk
  have hfresh : c it = false := by
    cases hc : c it with
    | false => rfl
    | true => exact absurd rfl (hnew it hc)
  have hnot : ∀ b', slotLock e b' = k → it ∉ L b' := fun b' hb' hit => by
    rw [(hs.stripe.mem it hk).2 (.inl ⟨b', hb', hit⟩)] at hfresh
    cases hfresh
  have hmem : ∀ b' it', it' ∈ Function.update L b (it :: L b) b' ↔ it' = it ∧ b' = b ∨ it' ∈ L b' := by
    intro b' it'
    by_cases hbb : b' = b
    · subst hbb
      simp
    · simp [hbb]
  refine ⟨⟨?_, ?_, (fun _ hl => nomatch hl), ?_, ?_⟩, ?_⟩
  · intro b' it' hb' hit'
    rw [hw.slotOf, hw.power]
    rcases (hmem b' it').1 hit' with ⟨rfl, rfl⟩ | hit'
    · exact .inl hb
    · exact hs.stripe.home b' it' hb' hit'
  · intro it' hk'
    simp only [hmem]
    by_cases hii : it' = it
    · subst hii
      rw [Function.update_self]
      exact ⟨fun _ => .inl ⟨b, hbk, .inl ⟨rfl, rfl⟩⟩, fun _ => rfl⟩
    · rw [Function.update_of_ne hii, hs.stripe.mem it' hk']
      simp [hii]
  · intro it₁ it₂ hk₁ h₁ h₂ hkey
    rw [Function.update_apply] at h₁ h₂
    split at h₁ <;> split at h₂
    · next e₁ e₂ => rw [e₁, e₂]
    · next e₁ _ => exact absurd (hkey.symm.trans (by rw [e₁])) (hnew it₂ h₂)
    · next _ e₂ => exact absurd (hkey.trans (by rw [e₂])) (hnew it₁ h₁)
    · exact hs.stripe.uniq it₁ it₂ hk₁ h₁ h₂ hkey
  · intro i j it' hi hj hold hnew
    rcases (hmem _ it').1 hold with ⟨heq, hbi⟩ | hold'
    · rcases (hmem _ it').1 hnew with ⟨_, hbj⟩ | hnew'
      · rw [← hbi] at hbj
        cases hbj
      · exact hnot _ hj (heq ▸ hnew')
    · rcases (hmem _ it').1 hnew with ⟨heq, _⟩ | hnew'
      · exact hnot _ hi (heq ▸ hold')
      · exact hs.stripe.apart i j it' hi hj hold' hnew'
  · intro b' hb' hlive
    by_cases hbb : b' = b
    · subst hbb
      have hhead : (s.setHead b' (some it)).headOf b' = some it :=
        headOf_setHead_self s _ (by rw [hb, h.head?_slotOf]; rfl)
      rw [Function.update_self, hhead]
      refine ⟨rfl, ?_⟩
      have hsame : (s.setHead b' (some it)).hNext = s.hNext := by cases b' <;> rfl
      rw [hsame, hnext]
      exact hs.chains b' hb' (hw.live.1 hlive)
    · have hsame : (s.setHead b (some it)).hNext = s.hNext := by cases b <;> rfl
      rw [Function.update_of_ne hbb, headOf_setHead_of_ne s _ hbb, hsame]
      exact hs.chains b' hb' (hw.live.1 hlive)

omit [DecidableEq τ] in
/-- Without the item, the others are where they were. -/
lemma Stripe.erase (h : Ctl e s) (hs : Stripe e s L c k none none) (hk : itemLock e it = k)
    (hb : b = s.slotOf (e.hash (e.key it))) {pre post : List ι} (hL : L b = pre ++ it :: post)
    (hnodup : (L b).Nodup) :
    Stripe e s (Function.update L b (pre ++ post)) (Function.update c it false) k none none := by
  have hbk : slotLock e b = k := by rw [hb, h.slotLock_slotOf, ← hk, itemLock_def]
  have hout : it ∉ pre ++ post := by
    rw [hL] at hnodup
    exact (List.nodup_cons.1 (List.nodup_middle.1 hnodup)).1
  have hmem : ∀ b' it', slotLock e b' = k →
      (it' ∈ Function.update L b (pre ++ post) b' ↔ it' ≠ it ∧ it' ∈ L b') := by
    intro b' it' hb'
    by_cases hbb : b' = b
    · subst hbb
      rw [Function.update_self, hL]
      constructor
      · intro hit'
        refine ⟨fun heq => hout (heq ▸ hit'), ?_⟩
        simp only [List.mem_append, List.mem_cons] at hit' ⊢
        tauto
      · rintro ⟨hne, hit'⟩
        simp only [List.mem_append, List.mem_cons] at hit' ⊢
        tauto
    · rw [Function.update_of_ne hbb]
      constructor
      · intro hit'
        refine ⟨?_, hit'⟩
        rintro rfl
        rcases hs.home b' it' hb' hit' with heq | ⟨hmove, _⟩
        · exact hbb (heq.trans hb.symm)
        · cases hmove
      · exact fun hit' => hit'.2
  refine ⟨?_, ?_, (fun _ hl => nomatch hl), ?_, ?_⟩
  · intro b' it' hb' hit'
    exact hs.home b' it' hb' ((hmem b' it' hb').1 hit').2
  · intro it' hk'
    have hiff : (∃ b', slotLock e b' = k ∧ it' ∈ Function.update L b (pre ++ post) b') ↔
        it' ≠ it ∧ ∃ b', slotLock e b' = k ∧ it' ∈ L b' := by
      constructor
      · rintro ⟨b', hb', hit'⟩
        exact ⟨((hmem b' it' hb').1 hit').1, b', hb', ((hmem b' it' hb').1 hit').2⟩
      · rintro ⟨hne, b', hb', hit'⟩
        exact ⟨b', hb', (hmem b' it' hb').2 ⟨hne, hit'⟩⟩
    rw [hiff]
    by_cases hii : it' = it
    · simp [hii]
    · rw [Function.update_of_ne hii, hs.mem it' hk']
      simp [hii]
  · intro it₁ it₂ hk₁ h₁ h₂ hkey
    rw [Function.update_apply] at h₁ h₂
    split at h₁
    · cases h₁
    · split at h₂
      · cases h₂
      · exact hs.uniq it₁ it₂ hk₁ h₁ h₂ hkey
  · intro i j it' hi hj hit hit'
    exact hs.apart i j it' hi hj ((hmem _ it' hi).1 hit).2 ((hmem _ it' hj).1 hit').2

omit [DecidableEq τ] [DecidableEq ι] in
/-- What the position behind `pre` points to. -/
lemma PosAt.deref (h : Ctl e s) {pos : ItemPos ι} {pre post : List ι}
    (hpos : PosAt (s.slotOf hv) pos pre)
    (hchain : Chain s.hNext (s.headOf (s.slotOf hv)) (pre ++ post)) :
    ∃ p, s.deref? pos = some p ∧ Chain s.hNext p post := by
  rcases hpos with ⟨rfl, rfl⟩ | ⟨l, a, rfl, rfl⟩
  · exact ⟨_, h.head?_slotOf hv, hchain⟩
  · obtain ⟨tail, hseg, hpost⟩ := chain_append.1 hchain
    refine ⟨tail, ?_, hpost⟩
    rw [deref?, (seg_snoc.1 hseg).2]

omit [DecidableEq τ] in
/-- `assoc_delete`, up to the write of `h_next`. -/
lemma Settled.clear (h : Ctl e s) (hs : Settled e s L c k) (hk : itemLock e it = k)
    (hhash : e.hash (e.key it) = hv) {pos : ItemPos ι} {pre post : List ι}
    (hL : L (s.slotOf hv) = pre ++ it :: post) (hpos : PosAt (s.slotOf hv) pos pre) :
    ThreadOK e (s.assign (.next it) none) (Function.update L (s.slotOf hv) (pre ++ post))
      (Function.update c it false) k (.unlink hv pos (s.hNext it)) := by
  subst hhash
  have hbk : slotLock e (s.slotOf (e.hash (e.key it))) = k := by
    rw [h.slotLock_slotOf, ← hk, itemLock_def]
  have hchain := hs.chains _ hbk (live_slotOf s _)
  have hnodup := chain_nodup hchain
  have hstripe := hs.stripe.erase h hk rfl hL hnodup
  rw [hL] at hnodup hchain
  obtain ⟨hout, hnodup'⟩ := List.nodup_cons.1 (List.nodup_middle.1 hnodup)
  obtain ⟨tail, hseg, rfl, hpost⟩ := chain_append.1 hchain
  have hkeep : ∀ a, a ≠ it → (s.assign (.next it) none).hNext a = s.hNext a := fun a hne =>
    Function.update_of_ne hne ..
  refine ⟨⟨hstripe.home, hstripe.mem, hstripe.limbo, hstripe.uniq, hstripe.apart⟩, ?_,
    pre, post, some it, Function.update_self .., hnodup', hpos, ?_, ?_⟩
  · intro b hne hb hlive
    have hlist : Function.update L (s.slotOf (e.hash (e.key it))) (pre ++ post) b = L b :=
      Function.update_of_ne hne ..
    rw [hlist]
    refine chain_congr (hs.chains b hb hlive) fun a ha => hkeep a ?_
    rintro rfl
    rcases hs.stripe.home b a hb ha with heq | ⟨hmove, _⟩
    · exact hne heq
    · cases hmove
  · refine seg_congr hseg fun a ha => hkeep a ?_
    rintro rfl
    exact hout (List.mem_append_left _ ha)
  · refine chain_congr hpost fun a ha => hkeep a ?_
    rintro rfl
    exact hout (List.mem_append_right _ ha)

/-- `assoc_delete`, the write of `*before`. -/
lemma Inv.unlink (h : Inv e s L c) {pos : ItemPos ι} {nxt : Option ι}
    (ht : s.threads t = .unlink hv pos nxt)
    (hok : ThreadOK e s L c (e.lockOf hv) (.unlink hv pos nxt)) :
    (s.deref? pos).isSome ∧ Inv e ((s.assign pos nxt).goto t (.held hv)) L c := by
  obtain ⟨hs, hother, pre, post, tail, hL, hnodup, hpos, hseg, hpost⟩ := hok
  have hbk := h.ctl.slotLock_slotOf hv
  have hread := h.ctl.head?_slotOf hv
  have hself := headOf_setHead_self s nxt (b := s.slotOf hv) (by rw [hread]; rfl)
  rcases hpos with ⟨rfl, rfl⟩ | ⟨l, a, rfl, rfl⟩
  · have hw : Writes e (e.lockOf hv) s (s.setHead (s.slotOf hv) nxt) := .setHead s _ hbk
    rw [show s.assign (.slot (s.slotOf hv)) nxt = s.setHead (s.slotOf hv) nxt from rfl]
    refine ⟨by rw [deref?, hread]; rfl, h.work (by rw [ht]; rfl) hw rfl (fun _ _ => rfl)
      (fun _ _ => rfl) ⟨?_, ?_⟩⟩
    · refine ⟨?_, hs.mem, hs.limbo, hs.uniq, hs.apart⟩
      simp only [hw.slotOf, hw.power]
      exact hs.home
    · intro b hb hlive
      have hnext : (s.setHead (s.slotOf hv) nxt).hNext = s.hNext := by cases s.slotOf hv <;> rfl
      rw [hnext]
      by_cases hbb : b = s.slotOf hv
      · rw [hbb, hself, hL]
        exact hpost
      · rw [headOf_setHead_of_ne s nxt hbb]
        exact hother b hbb hb (hw.live.1 hlive)
  · have ha : a ∈ L (s.slotOf hv) := by simp [hL]
    have hw : Writes e (e.lockOf hv) s (s.assign (.next a) nxt) :=
      .assign_next s _ (hs.itemLock_eq h.ctl hbk ha)
    refine ⟨rfl, h.work (by rw [ht]; rfl) hw rfl (fun _ _ => rfl) (fun _ _ => rfl) ⟨?_, ?_⟩⟩
    · exact ⟨hs.home, hs.mem, hs.limbo, hs.uniq, hs.apart⟩
    · intro b hb hlive
      by_cases hbb : b = s.slotOf hv
      · rw [hbb, hL, chain_append]
        rw [List.append_assoc, List.nodup_append] at hnodup
        obtain ⟨_, hrest, hdisj⟩ := hnodup
        refine ⟨nxt, seg_set_last hseg fun hmem => hdisj a hmem a (by simp) rfl,
          chain_congr hpost fun x hx => Function.update_of_ne ?_ ..⟩
        rintro rfl
        exact (List.nodup_cons.1 hrest).1 hx
      · refine chain_congr (hother b hbb hb hlive) fun x hx => Function.update_of_ne ?_ ..
        rintro rfl
        have hx' := hs.home b x hb hx
        have ha' := hs.home _ x hbk ha
        simp only [reduceCtorEq, false_and, or_false] at hx' ha'
        exact hbb (hx'.trans ha'.symm)

omit [DecidableEq τ] in
/-- A thread may rely on what the invariant says about its place. -/
lemma Inv.thread (h : Inv e s L c) (ht : (s.threads t).hv? = some hv) :
    ThreadOK e s L c (e.lockOf hv) (s.threads t) := by
  have howner : s.locks (e.lockOf hv) = some (.thread t) := by
    rw [h.ctl.lockThread, ht]
    rfl
  have hok := h.holder (e.lockOf hv)
  unfold HolderOK at hok
  rw [howner] at hok
  exact hok

omit [DecidableEq τ] [DecidableEq ι] in
/-- Before `h_next` of a new item is written, the item is in no list. -/
lemma Settled.fresh (hs : Settled e s L c k) (hk : itemLock e it = k)
    (hnew : ∀ it', c it' = true → e.key it' ≠ e.key it) (hb : slotLock e b = k) : it ∉ L b :=
  fun hit => hnew it ((hs.stripe.mem it hk).2 (.inl ⟨b, hb, hit⟩)) rfl

variable [DecidableEq κ] {o : List (AssocObs ι κ)}

/-- **A step of a call.**  It keeps the invariant, and what it returns is right. -/
theorem Inv.stepWork (h : Inv e s L c) (hs : s.stepWork e t = some (s', o)) :
    AllRight after (Right e) c o ∧ ∃ L', Inv e s' L' (o.foldl after c) := by
  have hthread : ∀ hv, (s.threads t).hv? = some hv →
      ThreadOK e s L c (e.lockOf hv) (s.threads t) := fun hv => h.thread
  have hgo : ∀ {hv pc}, (s.threads t).hv? = some hv → pc.hv? = some hv →
      ThreadOK e s L c (e.lockOf hv) pc → Inv e (s.goto t pc) L c := fun ht hpc hok =>
    h.work ht (.refl ..) hpc (fun _ _ => rfl) (fun _ _ => rfl) hok
  unfold Assoc.stepWork at hs
  cases hpc : s.threads t with
  | idle => simp [hpc] at hs
  | held hv => simp [hpc] at hs
  | test hv call =>
    rw [hpc] at hthread hgo
    obtain ⟨hset, hcall⟩ := hthread hv rfl
    simp only [hpc] at hs
    split at hs <;> cases hs
    · next hexp => exact ⟨trivial, L, hgo rfl rfl ⟨hset, hcall, .inl hexp⟩⟩
    · next hexp =>
      refine ⟨trivial, L, hgo rfl rfl ⟨hset, hcall, ?_⟩⟩
      rw [slotOf, if_neg fun hold => hexp hold.1]
  | compare hv call =>
    rw [hpc] at hthread hgo
    obtain ⟨hset, hcall, hdone⟩ := hthread hv rfl
    simp only [hpc] at hs
    split at hs <;> cases hs
    · next hle =>
      refine ⟨trivial, L, hgo rfl rfl ⟨hset, hcall, ?_⟩⟩
      rcases hdone with hexp | hend
      · rw [slotOf, if_pos ⟨hexp, hle⟩]
      · -- an expansion that has ended since has moved all buckets
        have hmax : s.hashpower < 32 := h.ctl.powerMax
        have hlt := bucketOf_lt (show s.hashpower - 1 < 32 by omega) hv
        omega
    · next hle =>
      refine ⟨trivial, L, hgo rfl rfl ⟨hset, hcall, ?_⟩⟩
      rw [slotOf, if_neg fun hold => hle hold.2]
  | decided hv call b =>
    rw [hpc] at hthread hgo
    obtain ⟨hset, hcall, rfl⟩ := hthread hv rfl
    have hbk := h.ctl.slotLock_slotOf hv
    simp only [hpc] at hs
    cases call with
    | find key =>
      simp only [h.ctl.head?_slotOf hv, Option.some.injEq, Prod.mk.injEq] at hs
      obtain ⟨rfl, rfl⟩ := hs
      refine ⟨trivial, L, hgo rfl rfl ⟨hset, hcall, [], _, rfl, ?_, by simp⟩⟩
      exact hset.chains _ hbk (live_slotOf s hv)
    | insert it =>
      simp only [h.ctl.head?_slotOf hv, Option.some.injEq, Prod.mk.injEq] at hs
      obtain ⟨rfl, rfl⟩ := hs
      have hk : itemLock e it = e.lockOf hv := by rw [itemLock_def, hcall.1]
      refine ⟨trivial, L, h.work (by rw [hpc]; rfl) (.assign_next s _ hk) rfl (fun _ _ => rfl)
        (fun _ _ => rfl) ⟨?_, hcall, rfl, Function.update_self ..⟩⟩
      exact hset.assign_next _ fun b hb => hset.fresh hk hcall.2 hb
    | delete key =>
      simp only [Option.some.injEq, Prod.mk.injEq] at hs
      obtain ⟨rfl, rfl⟩ := hs
      exact ⟨trivial, L, hgo rfl rfl ⟨hset, hcall, [], _, rfl, .inl ⟨rfl, rfl⟩, by simp⟩⟩
  | walk hv key p =>
    rw [hpc] at hthread hgo
    obtain ⟨hset, rfl, pre, post, hL, hchain, hpre⟩ := hthread hv rfl
    rw [hpc] at hs
    cases p with
    | none =>
      simp only [Option.some.injEq, Prod.mk.injEq] at hs
      obtain ⟨rfl, rfl⟩ := hs
      obtain rfl := chain_none hchain
      refine ⟨⟨?_, trivial⟩, L, hgo rfl rfl hset⟩
      intro it hit hkey
      have hmem := (hset.stripe.mem_slotOf h.ctl (by rw [itemLock_def, hkey])).1 hit
      rw [hkey, hL, List.append_nil] at hmem
      exact hpre it hmem hkey
    | some it =>
      obtain ⟨post, rfl, hrest⟩ := chain_pop hchain
      have hmem : it ∈ L (s.slotOf (e.hash key)) := by simp [hL]
      simp only at hs
      split at hs <;> cases hs
      · next hkey =>
        refine ⟨⟨?_, trivial⟩, L, hgo rfl rfl hset⟩
        refine ⟨(hset.stripe.mem_slotOf h.ctl ?_).2 ?_, hkey⟩
        · rw [itemLock_def, hkey]
        · rwa [hkey]
      · next hkey =>
        refine ⟨trivial, L, hgo rfl rfl ⟨hset, rfl, pre ++ [it], post, by simp [hL], hrest, ?_⟩⟩
        simp only [List.mem_append, List.mem_singleton]
        rintro a (ha | rfl)
        · exact hpre a ha
        · exact hkey
  | link hv it b =>
    rw [hpc] at hthread
    obtain ⟨hset, hcall, rfl, hnext⟩ := hthread hv rfl
    have hbk := h.ctl.slotLock_slotOf hv
    have hk : itemLock e it = e.lockOf hv := by rw [itemLock_def, hcall.1]
    simp only [hpc, h.ctl.head?_slotOf hv, Option.some.injEq, Prod.mk.injEq] at hs
    obtain ⟨rfl, rfl⟩ := hs
    refine ⟨⟨hcall.2, trivial⟩, _, h.work (by rw [hpc]; rfl) (.setHead s _ hbk) rfl ?_ ?_
      (hset.link h.ctl hk (by rw [hcall.1]) hcall.2 hnext)⟩
    · intro b hne
      refine Function.update_of_ne ?_ ..
      rintro rfl
      exact hne hbk
    · intro it' hne
      refine Function.update_of_ne ?_ ..
      rintro rfl
      exact hne hk
  | seek hv key pos =>
    rw [hpc] at hthread hgo
    obtain ⟨hset, ⟨rfl, it₀, hc₀, hkey₀⟩, pre, post, hL, hpos, hpre⟩ := hthread hv rfl
    have hbk := h.ctl.slotLock_slotOf (e.hash key)
    have hchain := hset.chains _ hbk (live_slotOf s _)
    rw [hL] at hchain
    obtain ⟨p, hread, hpost⟩ := hpos.deref h.ctl hchain
    -- the item to be deleted has not been passed
    have hmem₀ : it₀ ∈ post := by
      have hmem := (hset.stripe.mem_slotOf h.ctl (by rw [itemLock_def, hkey₀])).1 hc₀
      rw [hkey₀, hL, List.mem_append] at hmem
      exact hmem.resolve_left fun hin => hpre it₀ hin hkey₀
    simp only [hpc, hread] at hs
    cases p with
    | none =>
      rw [chain_none hpost] at hmem₀
      cases hmem₀
    | some it =>
      obtain ⟨post, rfl, hrest⟩ := chain_pop hpost
      have hmem : it ∈ L (s.slotOf (e.hash key)) := by simp [hL]
      simp only at hs
      split at hs <;> cases hs
      · next hkey =>
        have hk : itemLock e it = e.lockOf (e.hash key) := by rw [itemLock_def, hkey]
        refine ⟨⟨?_, trivial⟩, _, h.work (by rw [hpc]; rfl) (.assign_next s _ hk) rfl ?_ ?_
          (hset.clear h.ctl hk (by rw [hkey]) hL hpos)⟩
        · exact (hset.stripe.mem_slotOf h.ctl hk).2 (by rwa [hkey])
        · intro b hne
          refine Function.update_of_ne ?_ ..
          rintro rfl
          exact hne hbk
        · intro it' hne
          refine Function.update_of_ne ?_ ..
          rintro rfl
          exact hne hk
      · next hkey =>
        refine ⟨trivial, L, hgo rfl rfl ⟨hset, ⟨rfl, it₀, hc₀, hkey₀⟩, pre ++ [it], post, by simp [hL],
          .inr ⟨pre, it, rfl, rfl⟩, ?_⟩⟩
        simp only [List.mem_append, List.mem_singleton]
        rintro a (ha | rfl)
        · exact hpre a ha
        · exact hkey
  | unlink hv pos nxt =>
    rw [hpc] at hthread
    obtain ⟨hread, hinv⟩ := h.unlink hpc (hthread hv rfl)
    obtain ⟨p, hp⟩ := Option.isSome_iff_exists.1 hread
    simp only [hpc, hp, Option.some.injEq, Prod.mk.injEq] at hs
    obtain ⟨rfl, rfl⟩ := hs
    exact ⟨trivial, L, hinv⟩

end Entries

end Assoc

end Skq.Mem
