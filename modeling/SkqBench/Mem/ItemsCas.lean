import SkqBench.Mem.ItemsStore

/-!
# CAS ids

`get_cas_id` counts up, so a CAS id is given once and stands for what was stored with it.  Whoever
compares it, stores only if that is still there: nothing has been stored under the key since.
-/

namespace Skq.Mem

open Lib

namespace ItemObs

variable {κ : Type*}

end ItemObs

namespace ItemCache

variable {τ ι κ : Type*} [DecidableEq τ] [DecidableEq ι] [DecidableEq κ]
  {cfg : ItemSettings κ} {s s' s₁ : ItemCache τ ι κ} {op : ItemOp ι κ} {new : List (ItemOp ι κ)}
  {a : τ} {o tr : List (ItemObs κ)} {k : κ} {choice : ItemChoice ι} {h : StoreHistory κ}

section Steps

end Steps

/-! ## Compare and swap -/

section Compare

variable [Fintype τ] {items : ι → CacheItem κ} {clsid : ι → ℕ}
  {next prev : LruNode ι → Option (LruNode ι)} {now : UInt32}

/-- The guard of the runs: no `refcount` is about to overflow, and there are CAS ids left. -/
def Counted (s : ItemCache τ ι κ) (_ : ItemLabel τ ι κ) : Prop := Roomy s ∧ s.casId + 1 ≠ 0

instance Counted.decidable [Fintype ι] (s : ItemCache τ ι κ) (lab : ItemLabel τ ι κ) :
    Decidable (Counted s lab) :=
  inferInstanceAs (Decidable ((∀ it, (s.items it).refcount.toNat + 2 < 65536) ∧ s.casId + 1 ≠ 0))

end Compare

end ItemCache

end Skq.Mem
