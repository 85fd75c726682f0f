import SkqBench.Lib.Count
import SkqBench.Mem.Lru
import SkqBench.Mem.Values

/-!
# The life of an item

`items.c` with its callers in `memcached.c`, `thread.c` and `crawler.c`: an item is allocated with one
reference, linked into the hash table and a queue, found, replaced and unlinked, and it is freed when
its last reference is given back.  Item locks, one for many keys, protect items, `lru_locks` the queues;
there is no other lock on an item, and the pointers of queues and connections keep freed items apart from
used ones only by the count of references.

An actor is a connection with the worker that serves it, or a maintenance thread.  What is left of the
function it is in is a list of operations, of which a step carries out the first.  A function that takes
an item lock does so in a step of its own, and so does every change of a queue.  What the hash table
finds is a map here.
-/

namespace Skq.Mem

open Lib

/-! ## Items -/

/-- The fields of an item; `linked`, `slabbed`, `fetched` and `active` are flags of `it_flags`.  Its
`slabs_clsid` is kept with the queues. -/
structure CacheItem (κ : Type*) where
  key : κ
  flags : UInt32
  data : List Char
  cas : UInt64
  exptime : UInt32
  time : UInt32
  refcount : UInt16
  linked : Bool
  slabbed : Bool
  fetched : Bool
  active : Bool

/-- `ITEM_UPDATE_INTERVAL`. -/
def itemUpdateInterval : UInt32 := 60

/-- `IT_REFCOUNT_LIMIT`. -/
def itRefcountLimit : UInt16 := 60000

/-- `HOT_LRU`, `WARM_LRU`, `COLD_LRU` and `TEMP_LRU`. -/
def hotLru : ℕ := 0
def warmLru : ℕ := 64
def coldLru : ℕ := 128
def tempLru : ℕ := 192

/-- `ITEM_clsid` and `ITEM_lruid` of a `slabs_clsid`. -/
def clearLru (c : ℕ) : ℕ := c % 64
def lruOf (c : ℕ) : ℕ := c - c % 64

/-- `NREAD_ADD` and so on. -/
inductive Nread
  | add
  | set
  | replace
  | append
  | prepend
  | cas
  deriving DecidableEq

/-- `store_item_type`. -/
inductive StoreResult
  | notStored
  | stored
  | exists
  | notFound
  deriving DecidableEq

/-- `delta_result_type`, when there is an item. -/
inductive DeltaResult
  | ok (value : UInt64)
  | nonNumeric
  | eom
  | casMismatch
  deriving DecidableEq

/-! ## Operations -/

/-- What `do_item_get` is called for.
* `reply`: `process_get_command`, with a new `exptime` if it is to touch the item.
* `touch`: `process_touch_command`; `delete`: `process_delete_command`.
* `discard`: `process_update_command`, when there is no memory for the new item.
* `store`: `do_store_item` of a new item; `delta`: `do_add_delta`. -/
inductive ItemUse (ι : Type*)
  | reply (exptime : Option UInt32)
  | touch (exptime : UInt32)
  | delete
  | discard
  | store (it : ι) (comm : Nread)
  | delta (incr : Bool) (delta cas : UInt64)
  deriving DecidableEq

/-- The flags of `lru_pull_tail`. -/
structure PullFlags where
  evict : Bool
  crawlBlocks : Bool
  deriving DecidableEq

/-- The operations.  `itemGet`, `itemRemove`, `itemUnlink` and `itemBump` are the functions that take an
item lock; `nolock` is for those that have that of the queue.  `itemRemoveHeld` is the `item_remove` of
`do_store_item`, which has the item lock; a mutex makes its own thread wait as well. -/
inductive ItemOp (ι κ : Type*)
  | itemGet (key : κ) (use : ItemUse ι)
  | itemRemove (it : ι)
  | itemUnlink (it : ι)
  | itemBump (it : ι)
  | itemRemoveHeld (it : ι)
  | itemUnlock (key : κ)
  | lruUnlock (c : ℕ)
  | doItemGet (key : κ) (use : ItemUse ι)
  | doItemTouch (it : ι) (exptime : UInt32)
  | doItemLink (it : ι)
  | itemLinkQ (it : ι)
  | doItemUnlink (it : ι) (nolock : Bool)
  | itemUnlinkQ (it : ι) (nolock : Bool)
  | doItemRemove (it : ι)
  | doItemUpdate (it : ι)
  | itemMoveQ (it : ι) (c : ℕ)
  | doStoreItem (key : κ) (it : ι) (comm : Nread) (old : Option ι)
  | storeAppend (key : κ) (it : ι) (comm : Nread) (old : ι)
  | doAddDelta (key : κ) (incr : Bool) (delta cas : UInt64) (it : ι)
  | deltaReplace (key : κ) (incr : Bool) (delta cas : UInt64) (it : ι) (value : UInt64)
  | setCas (it new : ι)
  | limitedGet (key : κ) (it : ι)
  | reply (key : κ) (it : ι)
  | itemAlloc (key : κ) (flags exptime : UInt32) (comm : Nread) (cas : UInt64)
  | lruPullTail (c : ℕ) (fl : PullFlags)
  | pullNext (c : ℕ) (fl : PullFlags) (tries : ℕ) (search : Option (LruNode ι))
  | crawl (c : ℕ) (expired : Bool)
  | crawlerEval (it : ι) (expired : Bool)
  deriving DecidableEq

namespace ItemUse

variable {ι κ : Type*}

/-- `DO_UPDATE`. -/
def update : ItemUse ι → Bool
  | .reply _ => true
  | .touch _ => true
  | _ => false

/-- What is left to do with the item lock, when `do_item_get` has found an item or none. -/
def inside (k : κ) : ItemUse ι → Option ι → List (ItemOp ι κ)
  | .reply (some e), some it => [.doItemTouch it e]
  | .touch e, some it => [.doItemTouch it e]
  | .delete, some it => [.doItemUnlink it false, .doItemRemove it]
  | .store it comm, old => [.doStoreItem k it comm old]
  | .delta incr n cas, some it => [.doAddDelta k incr n cas it]
  | _, _ => []

/-- What is left to do without it. -/
def outside (k : κ) : ItemUse ι → Option ι → List (ItemOp ι κ)
  | .reply _, some it => [.limitedGet k it]
  | .touch _, some it => [.itemRemove it]
  | .discard, some it => [.itemUnlink it, .itemRemove it]
  | _, _ => []

end ItemUse

/-- An answer to a `get`: the item, and the texts that are made of it at once. -/
structure HeldItem (ι κ : Type*) where
  key : κ
  it : ι
  flags : UInt32
  cas : UInt64
  deriving DecidableEq

/-- An actor: what is left to do, the `item` of the connection with its command, and the `ilist`. -/
structure ItemActor (ι κ : Type*) where
  todo : List (ItemOp ι κ)
  item : Option (ι × Nread)
  ilist : List (HeldItem ι κ)

/-- The settings, and the index of the item lock of a key. -/
structure ItemSettings (κ : Type*) where
  bucket : κ → ℕ
  lruSegmented : Bool
  useCas : Bool
  tempLru : Bool
  temporaryTtl : UInt32
  evictToFree : Bool

/-- The items, what is found under each key, the queues, the references of the bump buffers, who has
which lock, the actors, and the clocks. -/
structure ItemCache (τ ι κ : Type*) where
  items : ι → CacheItem κ
  table : κ → Option ι
  lru : Lru ι
  bumps : List ι
  itemLocks : ℕ → Option τ
  lruLocks : ℕ → Option τ
  actors : τ → ItemActor ι κ
  casId : UInt64
  currentTime : UInt32
  oldestLive : UInt32
  oldestCas : UInt64

/-- What the memory and the clients decide in a step. -/
inductive ItemChoice (ι : Type*)
  | plain
  | yes
  | take (new : ι) (cls : ℕ)
  | noCopy (new : ι) (cls : ℕ)
  | pull (c : ℕ) (fl : PullFlags)
  | behind (str : List Char)

/-- There is room in a buffer, or a limit is exceeded. -/
def ItemChoice.isYes {ι : Type*} : ItemChoice ι → Bool
  | .yes => true
  | _ => false

/-- What is behind the data of an item. -/
def ItemChoice.string {ι : Type*} : ItemChoice ι → List Char
  | .behind str => str
  | _ => []

/-- The commands.
* `get`, `touch`, `delete`, `delta`: of a client.
* `alloc`: a command with data begins; `nread`: the data is there, or something else than that.
* `transmit`: a reply goes out; `release`: its item is given back; `drop`: the connection is closed.
* `bump`: `lru_maintainer_bumps` takes an item of a buffer; `pull`, `crawl`: the maintenance threads. -/
inductive ItemCommand (ι κ : Type*)
  | get (key : κ) (exptime : Option UInt32)
  | touch (key : κ) (exptime : UInt32)
  | delete (key : κ)
  | delta (key : κ) (incr : Bool) (delta cas : UInt64)
  | alloc (key : κ) (flags exptime : UInt32) (comm : Nread) (cas : UInt64)
  | nread (data : List Char)
  | drop
  | transmit (held : HeldItem ι κ)
  | release (held : HeldItem ι κ)
  | bump (it : ι)
  | pull (c : ℕ) (fl : PullFlags)
  | crawl (c : ℕ) (expired : Bool)

/-- The steps: of an actor, the next command of one, and those of the world around. -/
inductive ItemLabel (τ ι κ : Type*)
  | run (a : τ) (choice : ItemChoice ι)
  | command (a : τ) (cmd : ItemCommand ι κ)
  | clock (now : UInt32)
  | flush (live : UInt32) (cas : UInt64)
  | crawlerStart (c : ℕ) (n : UInt32)
  | crawlerStop (c : ℕ)

/-- What is observed; `broken` would be an assertion that fails, or the use of an item that is free. -/
inductive ItemObs (κ : Type*)
  | hit (key : κ) (flags : UInt32) (data : List Char) (cas : UInt64)
  | miss (key : κ)
  | lapsed (key : κ)
  | linked (key : κ) (flags : UInt32) (data : List Char) (cas : UInt64)
  | unlinked (key : κ)
  | rewritten (key : κ) (data : List Char) (cas : UInt64)
  | stored (key : κ) (comm : Nread) (cas : UInt64) (result : StoreResult)
  | delta (key : κ) (incr : Bool) (delta cas : UInt64) (result : DeltaResult)
  | sent (key : κ) (flags : UInt32) (data : List Char) (cas : UInt64)
  | broken
  deriving DecidableEq

/-- What an operation does: the next state, what is to be done first of all then, and what is observed. -/
abbrev ItemResult (τ ι κ : Type*) :=
  Option (ItemCache τ ι κ × List (ItemOp ι κ) × List (ItemObs κ))

namespace ItemCache

variable {τ ι κ : Type*} [DecidableEq τ] [DecidableEq ι] [DecidableEq κ]

/-! ## The functions -/

section Functions

variable (cfg : ItemSettings κ) (s : ItemCache τ ι κ)

def setItem (it : ι) (x : CacheItem κ) : ItemCache τ ι κ :=
  { s with items := Function.update s.items it x }

def setActor (a : τ) (x : ItemActor ι κ) : ItemCache τ ι κ :=
  { s with actors := Function.update s.actors a x }

/-- `refcount_incr`. -/
def refcountIncr (it : ι) : ItemCache τ ι κ :=
  s.setItem it { s.items it with refcount := (s.items it).refcount + 1 }

/-- `refcount_decr`. -/
def refcountDecr (it : ι) : ItemCache τ ι κ :=
  s.setItem it { s.items it with refcount := (s.items it).refcount - 1 }

/-- `assert`. -/
def check (c : Bool) : List (ItemObs κ) := if c then [] else [.broken]

/-- `item_is_flushed`. -/
def itemIsFlushed (it : ι) : Bool :=
  if s.oldestLive = 0 ∨ s.oldestLive > s.currentTime then false
  else (s.items it).time ≤ s.oldestLive ∨
    s.oldestCas ≠ 0 ∧ (s.items it).cas ≠ 0 ∧ (s.items it).cas < s.oldestCas

/-- Whether `do_item_get` takes the item for gone. -/
def lapsed (it : ι) : Bool :=
  s.itemIsFlushed it || ((s.items it).exptime ≠ 0 ∧ (s.items it).exptime ≤ s.currentTime)

/-- Whether `lru_pull_tail` and `crawler_expired_eval` do. -/
def expired (it : ι) : Bool :=
  ((s.items it).exptime ≠ 0 ∧ (s.items it).exptime < s.currentTime) || s.itemIsFlushed it

/-- `item_lock`, and what is done with the lock. -/
def itemLock (a : τ) (k : κ) (todo : List (ItemOp ι κ)) : ItemResult τ ι κ :=
  if s.itemLocks (cfg.bucket k) = none then
    some ({ s with itemLocks := Function.update s.itemLocks (cfg.bucket k) (some a) }, todo, [])
  else none

/-- `do_item_link_q` into the queue of a class. -/
def linkInto (it : ι) (c : ℕ) : ItemCache τ ι κ :=
  { s with
    lru := ({ s.lru with clsid := Function.update s.lru.clsid it c } : Lru ι).doItemLinkQ it }

/-- `do_item_unlink_q`. -/
def unlinkFrom (it : ι) : ItemCache τ ι κ := { s with lru := s.lru.doItemUnlinkQ it }

/-- `get_cas_id`, if there are CAS ids. -/
def nextCas : UInt64 := if cfg.useCas then s.casId + 1 else 0

/-- `do_item_alloc`, with the memory that `slabs_alloc` has found. -/
def doItemAlloc (new : ι) (cls : ℕ) (k : κ) (flags exptime : UInt32) (data : List Char) (cas : UInt64) :
    ItemCache τ ι κ :=
  { s.setItem new { s.items new with
      key := k, flags := flags, data := data, cas := if cfg.useCas then cas else 0
      exptime := exptime, refcount := 1, slabbed := false } with
    lru := { s.lru with
      clsid := Function.update s.lru.clsid new <|
        if cfg.tempLru ∧ exptime - s.currentTime ≤ cfg.temporaryTtl then clearLru cls + Mem.tempLru
        else if cfg.lruSegmented then clearLru cls + hotLru else clearLru cls + coldLru } }

/-- `item_free`. -/
def itemFree (it : ι) : ItemCache τ ι κ :=
  { s.setItem it { s.items it with
      slabbed := true, linked := false, fetched := false, active := false } with
    lru := { s.lru with clsid := Function.update s.lru.clsid it 0 } }

/-- `lru_bump_async`, when there is room in the buffer. -/
def lruBumpAsync (it : ι) : ItemCache τ ι κ := { s.refcountIncr it with bumps := it :: s.bumps }

/-- The marks `do_item_get` makes for `DO_UPDATE`. -/
def markFetched (it : ι) (room : Bool) : ItemCache τ ι κ × List (ItemOp ι κ) :=
  if cfg.lruSegmented then
    if (s.items it).active then (s, [])
    else if ¬ (s.items it).fetched then (s.setItem it { s.items it with fetched := true }, [])
    else if lruOf (s.lru.clsid it) ≠ coldLru then
      (s.setItem it { s.items it with active := true }, [.doItemUpdate it])
    else if room then ((s.setItem it { s.items it with active := true }).lruBumpAsync it, [])
    else (s, [])
  else (s.setItem it { s.items it with fetched := true }, [.doItemUpdate it])

/-- What `do_item_get` does with an item that it returns. -/
def found (use : ItemUse ι) (it : ι) (room : Bool) : ItemCache τ ι κ × List (ItemOp ι κ) :=
  if use.update then (s.refcountIncr it).markFetched cfg it room else (s.refcountIncr it, [])

/-- `do_item_get`. -/
def doItemGet (k : κ) (use : ItemUse ι) (room : Bool) : ItemResult τ ι κ :=
  match s.table k with
  | none => some (s, use.inside k none ++ .itemUnlock k :: use.outside k none, [.miss k])
  | some it =>
    if s.lapsed it then
      some (s.refcountIncr it, [.doItemUnlink it false, .doItemRemove it] ++
        (use.inside k none ++ .itemUnlock k :: use.outside k none), [.lapsed k])
    else
      some ((s.found cfg use it room).1, (s.found cfg use it room).2 ++
          (use.inside k (some it) ++ .itemUnlock k :: use.outside k (some it)),
        [.hit k (s.items it).flags (s.items it).data (s.items it).cas])

/-- `do_item_link`, up to `item_link_q`. -/
def doItemLink (it : ι) : ItemResult τ ι κ :=
  some ({ s.setItem it { s.items it with
        linked := true, time := s.currentTime, cas := s.nextCas cfg } with
      casId := if cfg.useCas then s.casId + 1 else s.casId
      table := Function.update s.table (s.items it).key (some it) },
    [.itemLinkQ it],
    check (!(s.items it).linked) ++
      [.linked (s.items it).key (s.items it).flags (s.items it).data (s.nextCas cfg)])

/-- The rest of it. -/
def itemLinkQ (it : ι) : ItemResult τ ι κ :=
  if s.lruLocks (s.lru.clsid it) = none then
    some ((s.linkInto it (s.lru.clsid it)).refcountIncr it, [],
      check (s.lru.queues.head (s.lru.clsid it) ≠ some (.item it)))
  else none

/-- `do_item_unlink` and `do_item_unlink_nolock`, up to `item_unlink_q`. -/
def doItemUnlink (it : ι) (nolock : Bool) : ItemResult τ ι κ :=
  if (s.items it).linked then
    some ({ s.setItem it { s.items it with linked := false } with
        table := Function.update s.table (s.items it).key none },
      [.itemUnlinkQ it nolock, .doItemRemove it], [.unlinked (s.items it).key])
  else some (s, [], [])

/-- `item_unlink_q`; `do_item_unlink_q` for `nolock`. -/
def itemUnlinkQ (a : τ) (it : ι) (nolock : Bool) : ItemResult τ ι κ :=
  if s.lruLocks (s.lru.clsid it) = if nolock then some a else none then some (s.unlinkFrom it, [], [])
  else none

/-- `do_item_remove`. -/
def doItemRemove (it : ι) : ItemResult τ ι κ :=
  if (s.items it).refcount - 1 = 0 then
    some ((s.refcountDecr it).itemFree it, [],
      check (0 < (s.items it).refcount ∧ ¬ (s.items it).linked ∧
        s.lru.queues.head (s.lru.clsid it) ≠ some (.item it) ∧
        s.lru.queues.tail (s.lru.clsid it) ≠ some (.item it)))
  else some (s.refcountDecr it, [], check (0 < (s.items it).refcount))

/-- Whether an item is in a queue and has not been moved for a while. -/
def stale (it : ι) : Bool := (s.items it).time < s.currentTime - itemUpdateInterval

/-- `do_item_update`, up to `item_link_q`. -/
def doItemUpdate (it : ι) : ItemResult τ ι κ :=
  if ¬ (s.items it).linked then some (s, [], [])
  else if cfg.lruSegmented then
    if lruOf (s.lru.clsid it) = coldLru ∧ (s.items it).active then
      if s.lruLocks (s.lru.clsid it) = none then
        some ((s.setItem it { s.items it with time := s.currentTime, active := false }).unlinkFrom it,
          [.itemMoveQ it (clearLru (s.lru.clsid it) + warmLru)], [])
      else none
    else if s.stale it then some (s.setItem it { s.items it with time := s.currentTime }, [], [])
    else some (s, [], [])
  else if s.stale it then
    if s.lruLocks (s.lru.clsid it) = none then
      some ((s.setItem it { s.items it with time := s.currentTime }).unlinkFrom it,
        [.itemMoveQ it (s.lru.clsid it)], [])
    else none
  else some (s, [], [])

/-- `item_link_q` of an item whose class has been set. -/
def itemMoveQ (it : ι) (c : ℕ) : ItemResult τ ι κ :=
  if s.lruLocks c = none then
    some (s.linkInto it c, [], check (s.lru.queues.head c ≠ some (.item it)))
  else none

/-- `do_store_item`, after `do_item_get`. -/
def doStoreItem (k : κ) (it : ι) (comm : Nread) : Option ι → ItemResult τ ι κ
  | none =>
    if comm = .replace ∨ comm = .append ∨ comm = .prepend then
      some (s, [], [.stored k comm (s.items it).cas .notStored])
    else if comm = .cas then some (s, [], [.stored k comm (s.items it).cas .notFound])
    else some (s, [.doItemLink it], [.stored k comm (s.items it).cas .stored])
  | some old =>
    if comm = .add then
      some (s, [.doItemUpdate old, .doItemRemove old], [.stored k comm (s.items it).cas .notStored])
    else if comm = .cas then
      if (s.items it).cas = (s.items old).cas then
        some (s, [.doItemUnlink old false, .doItemLink it, .doItemRemove old],
          [.stored k comm (s.items it).cas .stored])
      else some (s, [.doItemRemove old], [.stored k comm (s.items it).cas .exists])
    else if comm = .append ∨ comm = .prepend then
      if (s.items it).cas ≠ 0 ∧ (s.items it).cas ≠ (s.items old).cas then
        some (s, [.doItemRemove old], [.stored k comm (s.items it).cas .exists])
      else some (s, [.storeAppend k it comm old], [])
    else
      some (s, [.doItemUnlink old false, .doItemLink it, .doItemRemove old],
        [.stored k comm (s.items it).cas .stored])

/-- `_store_item_copy_data`, of the data of two items that end with a line break. -/
def storeItemCopyData (comm : Nread) (old add : List Char) : List Char :=
  if comm = .append then old.take (old.length - 2) ++ add else add.take (add.length - 2) ++ old

/-- The `do_item_alloc` of an append or a prepend, and what comes after it. -/
def storeAppend (k : κ) (it : ι) (comm : Nread) (old : ι) : ItemChoice ι → ItemResult τ ι κ
  | .pull c fl => some (s, [.lruPullTail c fl, .storeAppend k it comm old], [])
  | .take new cls =>
    if (s.items new).slabbed then
      some (s.doItemAlloc cfg new cls k (s.items old).flags (s.items old).exptime
          (storeItemCopyData comm (s.items old).data (s.items it).data) 0,
        [.doItemUnlink old false, .doItemLink new, .doItemRemove old, .doItemRemove new],
        [.stored k comm (s.items it).cas .stored])
    else none
  | .noCopy new cls =>
    if (s.items new).slabbed then
      some (s.doItemAlloc cfg new cls k (s.items old).flags (s.items old).exptime [] 0,
        [.itemRemoveHeld new, .doItemRemove old, .doItemRemove new],
        [.stored k comm (s.items it).cas .notStored])
    else none
  | _ => some (s, [.doItemRemove old], [.stored k comm (s.items it).cas .notStored])

/-- `do_add_delta`, after `do_item_get`; `str` is what is behind the data in memory. -/
def doAddDelta (k : κ) (incr : Bool) (n cas : UInt64) (it : ι) (str : List Char) : ItemResult τ ι κ :=
  if (s.items it).data.length ≤ 2 then some (s, [.doItemRemove it], [.delta k incr n cas .nonNumeric])
  else if cas ≠ 0 ∧ (s.items it).cas ≠ cas then
    some (s, [.doItemRemove it], [.delta k incr n cas .casMismatch])
  else
    match safeStrtoull ((s.items it).data ++ str) with
    | none => some (s, [.doItemRemove it], [.delta k incr n cas .nonNumeric])
    | some value =>
      if (itoaU64 (deltaValue incr n value)).length + 2 ≤ (s.items it).data.length ∧
          (s.items it).refcount = 2 then
        some ({ s.setItem it { s.items it with
              data := inPlace (s.items it).data (itoaU64 (deltaValue incr n value))
              cas := s.nextCas cfg } with
            casId := if cfg.useCas then s.casId + 1 else s.casId },
          [.doItemUpdate it, .doItemRemove it],
          [.delta k incr n cas (.ok (deltaValue incr n value)),
            .rewritten k (inPlace (s.items it).data (itoaU64 (deltaValue incr n value)))
              (s.nextCas cfg)])
      else if (s.items it).refcount > 1 then
        some (s, [.deltaReplace k incr n cas it (deltaValue incr n value)], [])
      else some (s, if (s.items it).refcount = 1 then [.doItemRemove it] else [], [.broken])

/-- The `do_item_alloc` of `do_add_delta`, and what comes after it. -/
def deltaReplace (k : κ) (incr : Bool) (n cas : UInt64) (it : ι) (value : UInt64) :
    ItemChoice ι → ItemResult τ ι κ
  | .pull c fl => some (s, [.lruPullTail c fl, .deltaReplace k incr n cas it value], [])
  | .take new cls =>
    if (s.items new).slabbed then
      some (s.doItemAlloc cfg new cls k (s.items it).flags (s.items it).exptime
          (withCrlf (itoaU64 value)) 0,
        [.doItemUnlink it false, .doItemLink new, .setCas it new, .doItemRemove new, .doItemRemove it],
        [.delta k incr n cas (.ok value)])
    else none
  | .noCopy _ _ => none
  | _ => some (s, [.doItemRemove it], [.delta k incr n cas .eom])

/-- The `item_alloc` of `process_update_command`, and what comes after it. -/
def itemAlloc (a : τ) (k : κ) (flags exptime : UInt32) (comm : Nread) (cas : UInt64) :
    ItemChoice ι → ItemResult τ ι κ
  | .pull c fl => some (s, [.lruPullTail c fl, .itemAlloc k flags exptime comm cas], [])
  | .take new cls =>
    if (s.items new).slabbed then
      some ((s.doItemAlloc cfg new cls k flags exptime [] cas).setActor a
        { s.actors a with item := some (new, comm) }, [], [])
    else none
  | .noCopy _ _ => none
  | _ => some (s, if comm = .set then [.itemGet k .discard] else [], [])

/-- The last half of `limited_get`. -/
def limitedGet (k : κ) (it : ι) : ItemResult τ ι κ :=
  if (s.items it).refcount > itRefcountLimit then some (s, [.itemRemove it], [])
  else some (s, [.reply k it], [])

/-- `make_ascii_get_suffix`, and the item is put into the `ilist`. -/
def reply (a : τ) (k : κ) (it : ι) : ItemResult τ ι κ :=
  some (s.setActor a { s.actors a with
    ilist := ⟨k, it, (s.items it).flags, (s.items it).cas⟩ :: (s.actors a).ilist }, [], [])

/-! ## The maintenance threads -/

/-- `lru_pull_tail`, up to the loop. -/
def lruPullTail (a : τ) (c : ℕ) (fl : PullFlags) : ItemResult τ ι κ :=
  if s.lruLocks c = none then
    some ({ s with lruLocks := Function.update s.lruLocks c (some a) },
      [.pullNext c fl 5 (s.lru.queues.tail c)], [])
  else none

/-- `pthread_mutex_unlock(&lru_locks[id])`. -/
def lruUnlock (c : ℕ) : ItemCache τ ι κ := { s with lruLocks := Function.update s.lruLocks c none }

/-- What `lru_pull_tail` does with an item that is not expired; `excess` is whether the queue is too
large or the item too old. -/
def pullItem (k : κ) (it : ι) (c : ℕ) (fl : PullFlags) (excess : Bool) (rest : List (ItemOp ι κ)) :
    ItemResult τ ι κ :=
  if lruOf c = warmLru ∧ (s.items it).active then
    some (if s.stale it ∧ (s.items it).linked then
        ((s.setItem it { s.items it with active := false, time := s.currentTime }).unlinkFrom
          it).linkInto it c
      else s.setItem it { s.items it with active := false },
      .doItemRemove it :: .itemUnlock k :: rest, [])
  else if lruOf c = hotLru ∧ (s.items it).active then
    some (((s.setItem it { s.items it with active := false }).unlinkFrom it).lruUnlock c,
      [.itemMoveQ it (clearLru c + warmLru), .doItemRemove it, .itemUnlock k], [])
  else if (lruOf c = hotLru ∨ lruOf c = warmLru) ∧ excess then
    some ((s.unlinkFrom it).lruUnlock c,
      [.itemMoveQ it (clearLru c + coldLru), .doItemRemove it, .itemUnlock k], [])
  else if lruOf c = coldLru ∧ fl.evict ∧ cfg.evictToFree then
    some (s, [.doItemUnlink it true, .lruUnlock c, .doItemRemove it, .itemUnlock k], [])
  else if lruOf c = coldLru ∧ ¬ fl.evict ∧ (s.items it).active ∧ cfg.lruSegmented then
    some (((s.setItem it { s.items it with active := false }).unlinkFrom it).lruUnlock c,
      [.itemMoveQ it (clearLru c + warmLru), .doItemRemove it, .itemUnlock k], [])
  else some (s.lruUnlock c, [.doItemRemove it, .itemUnlock k], [])

/-- One round of the loop of `lru_pull_tail`. -/
def pullNext (a : τ) (c : ℕ) (fl : PullFlags) (excess : Bool) :
    ℕ → Option (LruNode ι) → ItemResult τ ι κ
  | 0, _ => some (s.lruUnlock c, [], [])
  | _, none => some (s.lruUnlock c, [], [])
  | tries + 1, some (.crawler d) =>
    if fl.crawlBlocks then some (s.lruUnlock c, [], [])
    else some (s, [.pullNext c fl (tries + 1) (s.lru.queues.prev (.crawler d))], [])
  | tries + 1, some (.item it) =>
    if s.itemLocks (cfg.bucket (s.items it).key) = none then
      match { s.refcountIncr it with
        itemLocks := Function.update s.itemLocks (cfg.bucket (s.items it).key) (some a) } with
      | s' =>
        if s.expired it then
          some (s', [.doItemUnlink it true, .doItemRemove it, .itemUnlock (s.items it).key,
            .pullNext c fl tries (s.lru.queues.prev (.item it))], [])
        else s'.pullItem cfg (s.items it).key it c fl excess
          [.pullNext c fl tries (s.lru.queues.prev (.item it))]
    else some (s, [.pullNext c fl tries (s.lru.queues.prev (.item it))], [])

/-- A round of `item_crawler_thread` for a class: what is done with the item. -/
def crawlItem (a : τ) (c : ℕ) (expired : Bool) (it : ι) : ItemResult τ ι κ :=
  if s.itemLocks (cfg.bucket (s.items it).key) = none ∧ (s.items it).refcount + 1 = 2 then
    some ({ s.refcountIncr it with
        itemLocks := Function.update s.itemLocks (cfg.bucket (s.items it).key) (some a)
        lruLocks := if expired then Function.update s.lruLocks c (some a) else s.lruLocks },
      if expired then [.crawlerEval it expired, .itemUnlock (s.items it).key, .lruUnlock c]
      else [.crawlerEval it expired, .itemUnlock (s.items it).key], [])
  else some (s, [], [])

/-- A round of `item_crawler_thread` for a class. -/
def crawl (a : τ) (c : ℕ) (expired : Bool) : ItemResult τ ι κ :=
  if s.lruLocks c = none ∧ s.lru.enabled c then
    match s.lru.itemCrawlerRound c with
    | (lru, [.crawled _ it]) => { s with lru := lru }.crawlItem cfg a c expired it
    | (lru, [.stray _]) => some ({ s with lru := lru }, [], [.broken])
    | (lru, _) => some ({ s with lru := lru }, [], [])
  else none

/-- `crawler_expired_eval`, and `crawler_metadump_eval`. -/
def crawlerEval (it : ι) (expired : Bool) : ItemResult τ ι κ :=
  if expired ∧ s.expired it then some (s, [.doItemUnlink it true, .doItemRemove it], [])
  else some (s.refcountDecr it, [], [])

end Functions

end ItemCache

/-- The items an operation uses. -/
def ItemOp.uses {ι κ : Type*} : ItemOp ι κ → List ι
  | .itemRemove it => [it]
  | .itemUnlink it => [it]
  | .itemBump it => [it]
  | .itemRemoveHeld it => [it]
  | .doItemTouch it _ => [it]
  | .doItemLink it => [it]
  | .itemLinkQ it => [it]
  | .doItemUnlink it _ => [it]
  | .itemUnlinkQ it _ => [it]
  | .doItemRemove it => [it]
  | .doItemUpdate it => [it]
  | .itemMoveQ it _ => [it]
  | .doStoreItem _ it _ old => it :: old.toList
  | .storeAppend _ it _ old => [it, old]
  | .doAddDelta _ _ _ _ it => [it]
  | .deltaReplace _ _ _ _ it _ => [it]
  | .setCas it new => [it, new]
  | .limitedGet _ it => [it]
  | .reply _ it => [it]
  | .crawlerEval it _ => [it]
  | .pullNext _ _ _ (some (.item it)) => [it]
  | _ => []

namespace ItemCache

variable {τ ι κ : Type*} [DecidableEq τ] [DecidableEq ι] [DecidableEq κ]

section Step

variable (cfg : ItemSettings κ) (s : ItemCache τ ι κ)

/-- Carry out an operation. -/
def runOp (a : τ) (choice : ItemChoice ι) : ItemOp ι κ → ItemResult τ ι κ
  | .itemGet k use => s.itemLock cfg a k [.doItemGet k use]
  | .itemRemove it =>
    s.itemLock cfg a (s.items it).key [.doItemRemove it, .itemUnlock (s.items it).key]
  | .itemUnlink it =>
    s.itemLock cfg a (s.items it).key [.doItemUnlink it false, .itemUnlock (s.items it).key]
  | .itemBump it =>
    s.itemLock cfg a (s.items it).key
      [.doItemUpdate it, .doItemRemove it, .itemUnlock (s.items it).key]
  | .itemRemoveHeld it =>
    s.itemLock cfg a (s.items it).key [.doItemRemove it, .itemUnlock (s.items it).key]
  | .itemUnlock k =>
    some ({ s with itemLocks := Function.update s.itemLocks (cfg.bucket k) none }, [], [])
  | .lruUnlock c => some (s.lruUnlock c, [], [])
  | .doItemGet k use => s.doItemGet cfg k use choice.isYes
  | .doItemTouch it e => some (s.setItem it { s.items it with exptime := e }, [], [])
  | .doItemLink it => s.doItemLink cfg it
  | .itemLinkQ it => s.itemLinkQ it
  | .doItemUnlink it nolock => s.doItemUnlink it nolock
  | .itemUnlinkQ it nolock => s.itemUnlinkQ a it nolock
  | .doItemRemove it => s.doItemRemove it
  | .doItemUpdate it => s.doItemUpdate cfg it
  | .itemMoveQ it c => s.itemMoveQ it c
  | .doStoreItem k it comm old => s.doStoreItem k it comm old
  | .storeAppend k it comm old => s.storeAppend cfg k it comm old choice
  | .doAddDelta k incr n cas it =>
    s.doAddDelta cfg k incr n cas it choice.string
  | .deltaReplace k incr n cas it value => s.deltaReplace cfg k incr n cas it value choice
  | .setCas it new =>
    some (s.setItem it { s.items it with cas := if cfg.useCas then (s.items new).cas else 0 }, [], [])
  | .limitedGet k it => s.limitedGet k it
  | .reply k it => s.reply a k it
  | .itemAlloc k flags e comm cas => s.itemAlloc cfg a k flags e comm cas choice
  | .lruPullTail c fl => s.lruPullTail a c fl
  | .pullNext c fl tries search => s.pullNext cfg a c fl choice.isYes tries search
  | .crawl c expired => s.crawl cfg a c expired
  | .crawlerEval it expired => s.crawlerEval it expired

/-- The first operation of an actor is carried out. -/
def runActor (a : τ) (choice : ItemChoice ι) : Option (ItemCache τ ι κ × List (ItemObs κ)) :=
  match (s.actors a).todo with
  | [] => none
  | op :: rest =>
    (s.runOp cfg a choice op).map fun (s', todo, obs) =>
      (s'.setActor a { s'.actors a with todo := todo ++ rest },
        check (op.uses.all fun it => !(s.items it).slabbed) ++ obs)

/-- The actor has nothing else to do. -/
def setTodo (a : τ) (todo : List (ItemOp ι κ)) : ItemCache τ ι κ :=
  s.setActor a { s.actors a with todo := todo }

/-- Whether data ends as `complete_nread_ascii` wants it to. -/
def endsWithCrlf (data : List Char) : Bool := data.drop (data.length - 2) = ['\r', '\n']

/-- The next command of an actor. -/
def runCommand (a : τ) : ItemCommand ι κ → Option (ItemCache τ ι κ × List (ItemObs κ))
  | .get k e => some (s.setTodo a [.itemGet k (.reply e)], [])
  | .touch k e => some (s.setTodo a [.itemGet k (.touch e)], [])
  | .delete k => some (s.setTodo a [.itemGet k .delete], [])
  | .delta k incr n cas => some (s.setTodo a [.itemGet k (.delta incr n cas)], [])
  | .alloc k flags e comm cas =>
    if (s.actors a).item = none then some (s.setTodo a [.itemAlloc k flags e comm cas], []) else none
  | .nread data =>
    match (s.actors a).item with
    | none => none
    | some (it, comm) =>
      some ((s.setItem it { s.items it with data := data }).setActor a { s.actors a with
          item := none
          todo := if endsWithCrlf data then
              [.itemGet (s.items it).key (.store it comm), .itemRemove it]
            else [.itemRemove it] }, [])
  | .drop =>
    match (s.actors a).item with
    | none => none
    | some (it, _) =>
      some (s.setActor a { s.actors a with item := none, todo := [.itemRemove it] }, [])
  | .transmit h =>
    if h ∈ (s.actors a).ilist then
      some (s, check (!(s.items h.it).slabbed) ++ [.sent h.key h.flags (s.items h.it).data h.cas])
    else none
  | .release h =>
    if h ∈ (s.actors a).ilist then
      some (s.setActor a { s.actors a with
        ilist := (s.actors a).ilist.erase h, todo := [.itemRemove h.it] }, [])
    else none
  | .bump it =>
    if it ∈ s.bumps then
      some ({ s.setTodo a [.itemBump it] with bumps := s.bumps.erase it }, [])
    else none
  | .pull c fl => some (s.setTodo a [.lruPullTail c fl], [])
  | .crawl c expired => some (s.setTodo a [.crawl c expired], [])

/-- One step. -/
def step : ItemLabel τ ι κ → Option (ItemCache τ ι κ × List (ItemObs κ))
  | .run a choice => s.runActor cfg a choice
  | .command a cmd => if (s.actors a).todo = [] then s.runCommand a cmd else none
  | .clock now => some ({ s with currentTime := now }, [])
  | .flush live cas => some ({ s with oldestLive := live, oldestCas := cas }, [])
  | .crawlerStart c n =>
    if s.lruLocks c = none then some ({ s with lru := (s.lru.doLruCrawlerStart c n).1 }, []) else none
  | .crawlerStop c =>
    if s.lruLocks c = none ∧ s.lru.enabled c then
      some ({ s with lru := s.lru.lruCrawlerClassDone c }, [])
    else none

end Step

/-- Before the first command: all memory is free. -/
def init (items : ι → CacheItem κ) (clsid : ι → ℕ) (next prev : LruNode ι → Option (LruNode ι))
    (now : UInt32) : ItemCache τ ι κ where
  items it := { items it with
    refcount := 0, linked := false, slabbed := true, fetched := false, active := false }
  table := fun _ => none
  lru := Lru.init clsid next prev
  bumps := []
  itemLocks := fun _ => none
  lruLocks := fun _ => none
  actors := fun _ => ⟨[], none, []⟩
  casId := 0
  currentTime := now
  oldestLive := 0
  oldestCas := 0

/-! ## What is promised -/

/-- What the cache is for: the flags, the data and the CAS id under each key. -/
abbrev StoreHistory (κ : Type*) := κ → Option (UInt32 × List Char × UInt64)

namespace StoreHistory

/-- Nothing has been stored. -/
def start : StoreHistory κ := fun _ => none

/-- The history after an observation. -/
def after (h : StoreHistory κ) : ItemObs κ → StoreHistory κ
  | .linked k flags data cas => Function.update h k (some (flags, data, cas))
  | .unlinked k => Function.update h k none
  | .rewritten k data cas => Function.update h k ((h k).map fun v => (v.1, data, cas))
  | _ => h

end StoreHistory

/-- What `do_store_item` is to answer, when something or nothing is there.  Without memory it does not
append. -/
def StoreOk (comm : Nread) (cas : UInt64) (there : Option (UInt32 × List Char × UInt64)) :
    StoreResult → Prop
  | .stored =>
    match comm with
    | .add => there = none
    | .set => True
    | .replace => there ≠ none
    | .cas => ∃ v, there = some v ∧ v.2.2 = cas
    | _ => ∃ v, there = some v ∧ (cas = 0 ∨ v.2.2 = cas)
  | .exists => (comm = .cas ∨ (comm = .append ∨ comm = .prepend) ∧ cas ≠ 0) ∧
      ∃ v, there = some v ∧ v.2.2 ≠ cas
  | .notFound => comm = .cas ∧ there = none
  | .notStored => comm = .add ∧ there ≠ none ∨ comm = .replace ∧ there = none ∨
      comm = .append ∨ comm = .prepend

/-- What `do_add_delta` is to answer. -/
def DeltaOk (incr : Bool) (n cas : UInt64) (v : UInt32 × List Char × UInt64) : DeltaResult → Prop
  | .ok value => (cas = 0 ∨ v.2.2 = cas) ∧
      ∃ str old, safeStrtoull (v.2.1 ++ str) = some old ∧ value = deltaValue incr n old
  | .nonNumeric => v.2.1.length ≤ 2 ∨ ∃ str, safeStrtoull (v.2.1 ++ str) = none
  | .casMismatch => cas ≠ 0 ∧ v.2.2 ≠ cas
  | .eom => True

/-- What an observation promises. -/
def Right (h : StoreHistory κ) : ItemObs κ → Prop
  | .hit k flags data cas => h k = some (flags, data, cas)
  | .miss k => h k = none
  | .lapsed k => h k ≠ none
  | .linked k _ _ _ => h k = none
  | .unlinked k => h k ≠ none
  | .rewritten k _ _ => h k ≠ none
  | .stored k comm cas result => StoreOk comm cas (h k) result
  | .delta k incr n cas result => ∃ v, h k = some v ∧ DeltaOk incr n cas v result
  | .sent _ _ _ _ => True
  | .broken => False

end ItemCache

end Skq.Mem
