import Mathlib.Algebra.Group.Nat.Defs
import Mathlib.Data.Nat.Bitwise
import SkqBench.Lib.Chain
import SkqBench.Lib.Run

/-!
# The hash table

`assoc.c`: buckets are lists threaded through `h_next`.  While the table is expanded there are two of
them; `assoc_maintenance_thread` moves the items over, one bucket of the old table at a time, and
`assoc_find`, `assoc_insert` and `assoc_delete` use the old table from `expand_bucket` on.  There is no
lock of the table: who uses a bucket holds the item lock of the hash value, and the maintenance thread
that of the bucket it moves.

A step is one access to a table or to a variable that another thread may write, with the access to the
item it finds there, or one call that takes or gives back a lock.  `expanding` and `expand_bucket` are
read one after the other, and the maintenance thread may write both in between.
-/

namespace Skq.Mem

open Lib

/-! ## Tables -/

/-- `hashsize(n)`, for `n < 32`. -/
def hashsize (n : ℕ) : UInt32 := 1 <<< n.toUInt32

/-- `hashmask(n)`. -/
def hashmask (n : ℕ) : UInt32 := hashsize n - 1

/-- The index of a hash value in a table with `hashsize(n)` entries. -/
def bucketOf (n : ℕ) (hv : UInt32) : ℕ := (hv &&& hashmask n).toNat

/-- `HASHPOWER_MAX`. -/
def hashpowerMax : ℕ := 32

/-- `hashsize(n)` is the power of two. -/
lemma hashsize_toNat {n : ℕ} (hn : n < 32) : (hashsize n).toNat = 2 ^ n := by
  have hpow : 2 ^ n < 2 ^ 32 := Nat.pow_lt_pow_right (by decide) hn
  have hmod : n % 2 ^ 32 = n := Nat.mod_eq_of_lt (by omega)
  simp only [hashsize, UInt32.toNat_shiftLeft, UInt32.toNat_one, Nat.toUInt32_eq,
    UInt32.toNat_ofNat', hmod, Nat.mod_eq_of_lt hn, Nat.shiftLeft_eq, Nat.one_mul]
  exact Nat.mod_eq_of_lt hpow

/-- The mask takes the low bits. -/
lemma bucketOf_eq {n : ℕ} (hn : n < 32) (hv : UInt32) : bucketOf n hv = hv.toNat % 2 ^ n := by
  have hle : (1 : UInt32) ≤ hashsize n := by
    rw [UInt32.le_iff_toNat_le, hashsize_toNat hn]
    exact Nat.one_le_two_pow
  have hmask : (hashmask n).toNat = 2 ^ n - 1 := by
    rw [hashmask, UInt32.toNat_sub_of_le _ _ hle, hashsize_toNat hn]
    rfl
  rw [bucketOf, UInt32.toNat_and, hmask, Nat.and_two_pow_sub_one_eq_mod]

lemma bucketOf_lt {n : ℕ} (hn : n < 32) (hv : UInt32) : bucketOf n hv < 2 ^ n := by
  rw [bucketOf_eq hn]
  exact Nat.mod_lt _ (Nat.two_pow_pos n)

/-- The low bits of the index are those of the hash value. -/
lemma bucketOf_mod {m n : ℕ} (hmn : m ≤ n) (hn : n < 32) (hv : UInt32) :
    bucketOf n hv % 2 ^ m = bucketOf m hv := by
  rw [bucketOf_eq hn, bucketOf_eq (by omega), Nat.mod_mod_of_dvd _ (Nat.pow_dvd_pow 2 hmn)]

/-- An array of `size` pointers to items. -/
structure HashTable (ι : Type*) where
  size : ℕ
  head : ℕ → Option ι

namespace HashTable

variable {ι : Type*}

/-- `calloc(hashsize(n), sizeof(void *))`. -/
def calloc (n : ℕ) : HashTable ι := ⟨(hashsize n).toNat, fun _ => none⟩

/-- Read an entry; `none` if the index is out of bounds. -/
def load (t : HashTable ι) (i : ℕ) : Option (Option ι) := if i < t.size then some (t.head i) else none

/-- Write an entry. -/
def store (t : HashTable ι) (i : ℕ) (p : Option ι) : HashTable ι :=
  { t with head := Function.update t.head i p }

end HashTable

/-- An entry of `old_hashtable`, or one of `primary_hashtable`. -/
inductive HashSlot
  | old (i : ℕ)
  | new (i : ℕ)
  deriving DecidableEq, Repr

/-- The index of the entry. -/
def HashSlot.index : HashSlot → ℕ
  | old i => i
  | new i => i

/-- What an `item **` points to: an entry of a table, or the `h_next` of an item. -/
inductive ItemPos (ι : Type*)
  | slot (b : HashSlot)
  | next (it : ι)
  deriving DecidableEq

/-- The items: `ITEM_key` of each, the hash function, and `item_lock_hashpower`. -/
structure Hashing (ι κ : Type*) where
  key : ι → κ
  hash : κ → UInt32
  lockPower : ℕ

/-- The item lock of a hash value. -/
def Hashing.lockOf {ι κ : Type*} (e : Hashing ι κ) (hv : UInt32) : ℕ := bucketOf e.lockPower hv

/-! ## Threads -/

/-- The calls of `assoc.c`, with the hash value of the lock that is held. -/
inductive AssocCall (ι κ : Type*)
  | find (key : κ)
  | insert (it : ι)
  | delete (key : κ)

/-- Where a thread is that uses the table with the item lock of `hv`.
* `test`, `compare`: before `expanding` is read, and before `expand_bucket` is.
* `decided`: the entry is known, and has not been read.
* `walk`: in the loop of `assoc_find`.
* `link`: in `assoc_insert`, after `h_next` of the item has been written.
* `seek`: in the loop of `_hashitem_before`.
* `unlink`: in `assoc_delete`, after `h_next` of the item has been cleared. -/
inductive AssocAt (ι κ : Type*)
  | idle
  | held (hv : UInt32)
  | test (hv : UInt32) (call : AssocCall ι κ)
  | compare (hv : UInt32) (call : AssocCall ι κ)
  | decided (hv : UInt32) (call : AssocCall ι κ) (slot : HashSlot)
  | walk (hv : UInt32) (key : κ) (it : Option ι)
  | link (hv : UInt32) (it : ι) (slot : HashSlot)
  | seek (hv : UInt32) (key : κ) (pos : ItemPos ι)
  | unlink (hv : UInt32) (pos : ItemPos ι) (nxt : Option ι)

/-- Where `assoc_maintenance_thread` is; `b` is the bucket whose item lock it holds.
* `top`: before the test of `expanding`, without a lock.
* `load`, `move`, `push`: in the loop over the items of the bucket, before the entry is read, before the
  `h_next` of `it` is written, and before `it` is put into its new bucket.
* `clear`, `bump`, `release`, `unlock`: before `expand_bucket++`, before its comparison with the size,
  before `free()`, and before the item lock is given back.
* `reset`, `waiting`, `woken`: before `pthread_cond_wait`, in it, and before `assoc_expand`. -/
inductive MaintAt (ι : Type*)
  | top
  | load (b : ℕ)
  | move (b : ℕ) (it : Option ι)
  | push (b : ℕ) (it : ι) (nxt : Option ι)
  | clear (b : ℕ)
  | bump (b : ℕ)
  | release (b : ℕ)
  | unlock (b : ℕ)
  | reset
  | waiting
  | woken

/-- `pthread_cond_signal(&maintenance_cond)` wakes the maintenance thread if it waits, and is lost
otherwise. -/
def MaintAt.signal {ι : Type*} : MaintAt ι → MaintAt ι
  | waiting => woken
  | m => m

/-- Who holds an item lock. -/
inductive LockOwner (τ : Type*)
  | thread (t : τ)
  | maint
  deriving DecidableEq

/-- The variables of `assoc.c`, the `h_next` of the items, the item locks, and where the threads are.
`old` is `none` when `old_hashtable` is not allocated. -/
structure Assoc (τ ι κ : Type*) where
  hashpower : ℕ
  primary : HashTable ι
  old : Option (HashTable ι)
  expanding : Bool
  startedExpanding : Bool
  expandBucket : ℕ
  hNext : ι → Option ι
  locks : ℕ → Option (LockOwner τ)
  threads : τ → AssocAt ι κ
  maint : MaintAt ι

/-- Who does something next.
* `lock`, `unlock`: `item_lock` and `item_unlock`, or their `trylock` variants.
* `call`: a call of `assoc.c` begins; `work`: it goes on.
* `maint`: the maintenance thread goes on; `expand`: it pauses all threads, calls `assoc_expand`, where
  `calloc` succeeds or not, and resumes them.
* `start`: `assoc_start_expand`; `wake`: `pthread_cond_wait` returns without a signal. -/
inductive AssocLabel (τ ι κ : Type*)
  | lock (t : τ) (hv : UInt32)
  | unlock (t : τ)
  | call (t : τ) (c : AssocCall ι κ)
  | work (t : τ)
  | maint
  | expand (calloc : Bool)
  | start (currItems : UInt64)
  | wake

/-- What happens to the items, what `assoc_find` returns, and an access outside of the tables or a
deletion of what is not there. -/
inductive AssocObs (ι κ : Type*)
  | inserted (it : ι)
  | deleted (it : ι)
  | found (key : κ) (it : Option ι)
  | fault
  deriving DecidableEq

namespace Assoc

variable {τ ι κ : Type*} [DecidableEq τ] [DecidableEq ι] [DecidableEq κ]

/-! ## Steps -/

section Steps

variable (e : Hashing ι κ) (s : Assoc τ ι κ)

/-- Read an entry of a table. -/
def head? : HashSlot → Option (Option ι)
  | .old i => s.old.bind fun t => t.load i
  | .new i => s.primary.load i

/-- Write an entry of a table. -/
def setHead (b : HashSlot) (p : Option ι) : Assoc τ ι κ :=
  match b with
  | .old i => { s with old := s.old.map fun t => t.store i p }
  | .new i => { s with primary := s.primary.store i p }

/-- `*pos`. -/
def deref? : ItemPos ι → Option (Option ι)
  | .slot b => s.head? b
  | .next it => some (s.hNext it)

/-- `*pos = p`. -/
def assign (pos : ItemPos ι) (p : Option ι) : Assoc τ ι κ :=
  match pos with
  | .slot b => s.setHead b p
  | .next it => { s with hNext := Function.update s.hNext it p }

/-- A thread goes on. -/
def goto (t : τ) (pc : AssocAt ι κ) : Assoc τ ι κ :=
  { s with threads := Function.update s.threads t pc }

/-- The maintenance thread goes on. -/
def mgoto (pc : MaintAt ι) : Assoc τ ι κ := { s with maint := pc }

/-- The next step of a call. -/
def stepWork (t : τ) : Option (Assoc τ ι κ × List (AssocObs ι κ)) :=
  match s.threads t with
  | .idle => none
  | .held _ => none
  | .test hv c =>
    if s.expanding then some (s.goto t (.compare hv c), [])
    else some (s.goto t (.decided hv c (.new (bucketOf s.hashpower hv))), [])
  | .compare hv c =>
    if s.expandBucket ≤ bucketOf (s.hashpower - 1) hv then
      some (s.goto t (.decided hv c (.old (bucketOf (s.hashpower - 1) hv))), [])
    else some (s.goto t (.decided hv c (.new (bucketOf s.hashpower hv))), [])
  | .decided hv (.find k) b =>
    match s.head? b with
    | none => some (s, [.fault])
    | some p => some (s.goto t (.walk hv k p), [])
  | .decided hv (.insert it) b =>
    match s.head? b with
    | none => some (s, [.fault])
    | some p => some ((s.assign (.next it) p).goto t (.link hv it b), [])
  | .decided hv (.delete k) b => some (s.goto t (.seek hv k (.slot b)), [])
  | .walk hv k none => some (s.goto t (.held hv), [.found k none])
  | .walk hv k (some it) =>
    if e.key it = k then some (s.goto t (.held hv), [.found k (some it)])
    else some (s.goto t (.walk hv k (s.hNext it)), [])
  | .link hv it b =>
    match s.head? b with
    | none => some (s, [.fault])
    | some _ => some ((s.setHead b (some it)).goto t (.held hv), [.inserted it])
  | .seek hv k pos =>
    match s.deref? pos with
    | none => some (s, [.fault])
    | some none => some (s, [.fault])
    | some (some it) =>
      if e.key it = k then
        some ((s.assign (.next it) none).goto t (.unlink hv pos (s.hNext it)), [.deleted it])
      else some (s.goto t (.seek hv k (.next it)), [])
  | .unlink hv pos nxt =>
    match s.deref? pos with
    | none => some (s, [.fault])
    | some _ => some ((s.assign pos nxt).goto t (.held hv), [])

/-- The next step of `assoc_maintenance_thread`. -/
def stepMaint : Option (Assoc τ ι κ × List (AssocObs ι κ)) :=
  match s.maint with
  | .top =>
    if s.expanding then
      -- item_trylock(expand_bucket); without the lock, usleep() and try again
      match s.locks (bucketOf e.lockPower s.expandBucket.toUInt32) with
      | some _ => some (s, [])
      | none =>
        some ({ s with
          locks := Function.update s.locks (bucketOf e.lockPower s.expandBucket.toUInt32) (some .maint)
          maint := .load s.expandBucket }, [])
    else some ({ s with startedExpanding := false, maint := .reset }, [])
  | .load b =>
    match s.head? (.old b) with
    | none => some (s, [.fault])
    | some p => some (s.mgoto (.move b p), [])
  | .move b (some it) =>
    match s.head? (.new (bucketOf s.hashpower (e.hash (e.key it)))) with
    | none => some (s, [.fault])
    | some p => some ((s.assign (.next it) p).mgoto (.push b it (s.hNext it)), [])
  | .push b it nxt =>
    some ((s.setHead (.new (bucketOf s.hashpower (e.hash (e.key it)))) (some it)).mgoto
      (.move b nxt), [])
  | .move b none =>
    match s.head? (.old b) with
    | none => some (s, [.fault])
    | some _ => some ((s.setHead (.old b) none).mgoto (.clear b), [])
  | .clear b => some ({ s with expandBucket := s.expandBucket + 1, maint := .bump b }, [])
  | .bump b =>
    if s.expandBucket = (hashsize (s.hashpower - 1)).toNat then
      some ({ s with expanding := false, maint := .release b }, [])
    else some (s.mgoto (.unlock b), [])
  | .release b => some ({ s with old := none, maint := .unlock b }, [])
  | .unlock b =>
    some ({ s with
      locks := Function.update s.locks (bucketOf e.lockPower b.toUInt32) none
      maint := .top }, [])
  | .reset => some (s.mgoto .waiting, [])
  | .waiting => none
  | .woken => none

/-- `assoc_expand`. -/
def assocExpand (calloc : Bool) : Assoc τ ι κ :=
  if calloc then
    { s with
      old := some s.primary
      primary := HashTable.calloc (s.hashpower + 1)
      hashpower := s.hashpower + 1
      expanding := true
      expandBucket := 0 }
  else s

/-- `assoc_start_expand`. -/
def assocStartExpand (currItems : UInt64) : Assoc τ ι κ :=
  if s.startedExpanding then s
  else if (hashsize s.hashpower * 3 / 2).toUInt64 < currItems ∧ s.hashpower < hashpowerMax then
    { s with
      startedExpanding := true
      maint := s.maint.signal }
  else s

/-- One step. -/
def step : AssocLabel τ ι κ → Option (Assoc τ ι κ × List (AssocObs ι κ))
  | .lock t hv =>
    match s.threads t, s.locks (e.lockOf hv) with
    | .idle, none =>
      some (goto { s with
        locks := Function.update s.locks (e.lockOf hv) (some (.thread t)) } t (.held hv), [])
    | _, _ => none
  | .unlock t =>
    match s.threads t with
    | .held hv =>
      some (goto { s with locks := Function.update s.locks (e.lockOf hv) none } t .idle, [])
    | _ => none
  | .call t c =>
    match s.threads t with
    | .held hv => some (s.goto t (.test hv c), [])
    | _ => none
  | .work t => s.stepWork e t
  | .maint => s.stepMaint e
  | .expand calloc =>
    match s.maint with
    | .woken => some ((s.assocExpand calloc).mgoto .top, [])
    | _ => none
  | .start n => some (s.assocStartExpand n, [])
  | .wake =>
    match s.maint with
    | .waiting => some (s.mgoto .woken, [])
    | _ => none

end Steps

/-- `assoc_init`, before any thread uses the table; `locks` are the item locks. -/
def init (hashpower : ℕ) (hNext : ι → Option ι) : Assoc τ ι κ where
  hashpower := hashpower
  primary := HashTable.calloc hashpower
  old := none
  expanding := false
  startedExpanding := false
  expandBucket := 0
  hNext := hNext
  locks := fun _ => none
  threads := fun _ => .idle
  maint := .top

/-! ## What is promised -/

/-- The items that are in the table after an observation. -/
def after (c : ι → Bool) : AssocObs ι κ → ι → Bool
  | .inserted it => Function.update c it true
  | .deleted it => Function.update c it false
  | .found .. => c
  | .fault => c

/-- The items that are in the table after what has been observed. -/
def linkedAfter (tr : List (AssocObs ι κ)) : ι → Bool := tr.foldl after fun _ => false

/-- What a search for the key has to return, when the items of `c` are in the table. -/
def Answer (e : Hashing ι κ) (c : ι → Bool) (k : κ) : Option ι → Prop
  | some it => c it = true ∧ e.key it = k
  | none => ∀ it, c it = true → e.key it ≠ k

/-- An observation is what the items of `c` call for. -/
def Right (e : Hashing ι κ) (c : ι → Bool) : AssocObs ι κ → Prop
  | .inserted it => ∀ it', c it' = true → e.key it' ≠ e.key it
  | .deleted it => c it = true
  | .found k r => Answer e c k r
  | .fault => False

/-- The entry in which the items with the hash value are, while nobody moves them. -/
def slotOf (s : Assoc τ ι κ) (hv : UInt32) : HashSlot :=
  if s.expanding = true ∧ s.expandBucket ≤ bucketOf (s.hashpower - 1) hv then
    .old (bucketOf (s.hashpower - 1) hv)
  else .new (bucketOf s.hashpower hv)

/-- The pointer in an entry. -/
def headOf (s : Assoc τ ι κ) : HashSlot → Option ι
  | .old i => s.old.bind fun t => t.head i
  | .new i => s.primary.head i

/-- What the callers and the maintenance thread keep to: the hash value is that of the key, an item is
inserted when no item with its key is there, a key is deleted when it is there, and the table is
swapped when all threads are paused and `hashsize` of the new size is defined. -/
def Disciplined (e : Hashing ι κ) (s : Assoc τ ι κ) : AssocLabel τ ι κ → Prop
  | .call t c => ∀ hv, s.threads t = .held hv →
    match c with
    | .find k => e.hash k = hv
    | .insert it => e.hash (e.key it) = hv ∧
        ∀ it', Reached s.hNext (s.headOf (s.slotOf hv)) it' → e.key it' ≠ e.key it
    | .delete k => e.hash k = hv ∧ ∃ it, Reached s.hNext (s.headOf (s.slotOf hv)) it ∧ e.key it = k
  | .expand _ => (∀ t, s.threads t = .idle) ∧ s.hashpower + 1 < hashpowerMax
  | _ => True

end Assoc

end Skq.Mem
