import SkqBench.Mem.ItemsRuns

/-!
# What the cache answers

A store that is asked by one client at a time has flags, data and a CAS id under each key.  The cache is
such a store, seen from its observations: a `get` finds what was last linked or rewritten under the key,
and `do_store_item` and `do_add_delta` decide by it.  The hash table and the items that it finds agree
with the history of the observations in every run; the item lock is what makes the decision of a command
hold until its effect.
-/

namespace Skq.Mem

open Lib

/-- What is stored of an item. -/
def CacheItem.version {κ : Type*} (x : CacheItem κ) : UInt32 × List Char × UInt64 :=
  (x.flags, x.data, x.cas)

namespace ItemOp

variable {ι κ : Type*}

end ItemOp

namespace ItemCache

variable {τ ι κ : Type*} [DecidableEq τ] [DecidableEq ι] [DecidableEq κ]
  {cfg : ItemSettings κ} {s s' s₁ s₂ : ItemCache τ ι κ} {g g' : Lru.History ι} {op : ItemOp ι κ}
  {rest new : List (ItemOp ι κ)} {it y : ι} {a b : τ} {c : ℕ} {o : List (ItemObs κ)} {k : κ}
  {choice : ItemChoice ι} {h : StoreHistory κ}

/-! ## What stays stored -/

/-- What the hash table finds, the CAS ids, what is stored of the items and what is left to do are as
before. -/
structure SameStore (s s₁ : ItemCache τ ι κ) : Prop where
  table : s₁.table = s.table
  casId : s₁.casId = s.casId
  todo : ∀ b, (s₁.actors b).todo = (s.actors b).todo
  version : ∀ y, (s₁.items y).version = (s.items y).version

section Same

omit [DecidableEq τ] [DecidableEq ι] [DecidableEq κ] in
lemma SameStore.trans (h : SameStore s s₁) (h' : SameStore s₁ s₂) : SameStore s s₂ :=
  ⟨h'.table.trans h.table, h'.casId.trans h.casId, fun b => (h'.todo b).trans (h.todo b),
    fun y => (h'.version y).trans (h.version y)⟩

end Same

/-! ## What is observed -/

/-- The hash table finds what is stored. -/
def Tracks (s : ItemCache τ ι κ) (h : StoreHistory κ) : Prop :=
  ∀ k, h k = (s.table k).map fun it => (s.items it).version

section Observed

end Observed

/-! ## Runs -/

section Stays

variable [Fintype τ]

end Stays

section Answers

variable [Fintype τ] {tr : List (ItemObs κ)} {items : ι → CacheItem κ} {clsid : ι → ℕ}
  {next prev : LruNode ι → Option (LruNode ι)} {now : UInt32}

end Answers

/-! ## An append that fails -/

section Stuck

variable [Fintype τ] {tr tr' : List (ItemObs κ)} {items : ι → CacheItem κ} {clsid : ι → ℕ}
  {next prev : LruNode ι → Option (LruNode ι)} {now : UInt32}

end Stuck

end ItemCache

end Skq.Mem
