import Mathlib.Logic.Relation
import Mathlib.Order.Basic

/-!
# Lock orders and deadlock cycles

Threads acquire resources one after another and keep what they hold.  `holds t r` says that `t`
holds `r`, `wants t r` that `t` is blocked on `r`.  A deadlock is a cycle of threads, each blocked
on a resource that the next one holds.  If there is an acyclic relation on the resources in which
every thread wants only what comes after everything it holds, there is no such cycle.  The
relation may change from state to state; nothing here fixes a global order in advance.
-/

namespace Skq.Lib

variable {τ ρ : Type*}

/-- `t` is blocked on a resource that `t'` holds. -/
def WaitsFor (holds wants : τ → ρ → Prop) (t t' : τ) : Prop := ∃ r, wants t r ∧ holds t' r

/-- A closed walk of waiting threads. -/
def Deadlock (holds wants : τ → ρ → Prop) : Prop :=
  ∃ t, Relation.TransGen (WaitsFor holds wants) t t

/-- No resource comes before itself. -/
def Acyclic (before : ρ → ρ → Prop) : Prop := ∀ r, ¬ Relation.TransGen before r r

lemma Acyclic.mono {before before' : ρ → ρ → Prop} (h : Acyclic before')
    (hsub : ∀ r r', before r r' → before' r r') : Acyclic before :=
  fun r hr => h r (Relation.TransGen.mono hsub _ _ hr)

/-- A static order: resources with ranks, taken in increasing rank. -/
lemma acyclic_of_lt [Preorder ρ] {before : ρ → ρ → Prop} (h : ∀ r r', before r r' → r < r') :
    Acyclic before := by
  have hlt : ∀ r r', Relation.TransGen before r r' → r < r' := by
    intro r r' hr
    induction hr with
    | single hw => exact h _ _ hw
    | tail _ hw ih => exact ih.trans (h _ _ hw)
  exact fun r hr => lt_irrefl r (hlt r r hr)

variable {holds wants : τ → ρ → Prop} {before : ρ → ρ → Prop}

/-- Along a walk of waiting threads the wanted resources go up in the order: what the first
thread wants comes before what the last one wants. -/
lemma wants_before_of_walk (hone : ∀ t r r', wants t r → wants t r' → r = r')
    (hord : ∀ t r r', holds t r → wants t r' → before r r') {t t' : τ} {r r' : ρ}
    (hwalk : Relation.TransGen (WaitsFor holds wants) t t') (hr : wants t r) (hr' : wants t' r') :
    Relation.TransGen before r r' := by
  induction hwalk generalizing r' with
  | single hw =>
    obtain ⟨x, hx, hheld⟩ := hw
    obtain rfl := hone _ _ _ hx hr
    exact .single (hord _ _ _ hheld hr')
  | tail _ hw ih =>
    obtain ⟨x, hx, hheld⟩ := hw
    exact (ih hx).tail (hord _ _ _ hheld hr')

/-- **Ordered acquisition has no deadlock.** -/
theorem not_deadlock_of_acyclic (hone : ∀ t r r', wants t r → wants t r' → r = r')
    (hord : ∀ t r r', holds t r → wants t r' → before r r') (hac : Acyclic before) :
    ¬ Deadlock holds wants := by
  rintro ⟨t, hcycle⟩
  obtain ⟨u, ⟨r, hr, -⟩, -⟩ := Relation.TransGen.head'_iff.1 hcycle
  exact hac r (wants_before_of_walk hone hord hcycle hr hr)

end Skq.Lib
