import Mathlib.Logic.Function.Basic

/-!
# Two tables that point at each other

A table of resources names the owner of each, and a table of owners names the resource of each.
`Inverse f g` says that the two agree.  Linking and unlinking one pair keeps the agreement, under
the conditions a caller has to check.
-/

namespace Skq.Lib

variable {α β : Type*} [DecidableEq α] [DecidableEq β]

/-- `f` names `b` at `a` exactly if `g` names `a` at `b`. -/
def Inverse (f : α → Option β) (g : β → Option α) : Prop := ∀ a b, f a = some b ↔ g b = some a

variable {f : α → Option β} {g : β → Option α} {a : α} {b : β}

/-- A new pair, if neither side is linked to anything else. -/
lemma Inverse.link (h : Inverse f g) (ha : ∀ b', f a = some b' → b' = b)
    (hb : ∀ a', g b = some a' → a' = a) :
    Inverse (Function.update f a (some b)) (Function.update g b (some a)) := by
  intro a' b'
  rw [Function.update_apply, Function.update_apply]
  by_cases hae : a' = a <;> by_cases hbe : b' = b
  · simp [hae, hbe]
  · rw [if_pos hae, if_neg hbe, ← h, Option.some.injEq]
    exact ⟨fun hb' => absurd hb'.symm hbe, fun hf => absurd (ha b' (hae ▸ hf)) hbe⟩
  · rw [if_neg hae, if_pos hbe, h, Option.some.injEq]
    exact ⟨fun hg => absurd (hb a' (hbe ▸ hg)) hae, fun ha' => absurd ha'.symm hae⟩
  · rw [if_neg hae, if_neg hbe, h]

/-- A pair is taken out on both sides. -/
lemma Inverse.unlink (h : Inverse f g) (hab : f a = some b) :
    Inverse (Function.update f a none) (Function.update g b none) := by
  intro a' b'
  rw [Function.update_apply, Function.update_apply]
  by_cases hae : a' = a <;> by_cases hbe : b' = b
  · simp [hae, hbe]
  · rw [if_pos hae, if_neg hbe, ← h, hae, hab, Option.some.injEq]
    exact ⟨fun hn => by simp at hn, fun hb' => absurd hb'.symm hbe⟩
  · rw [if_neg hae, if_pos hbe, h, hbe, (h a b).1 hab, Option.some.injEq]
    exact ⟨fun ha' => absurd ha'.symm hae, fun hn => by simp at hn⟩
  · rw [if_neg hae, if_neg hbe, h]

end Skq.Lib
