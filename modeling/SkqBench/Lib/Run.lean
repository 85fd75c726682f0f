import Mathlib.Data.List.Basic

/-!
# Guarded runs of a labelled, observed step function

A system is a partial step function: in a state, a label either is not enabled or gives the next
state together with the observations the step makes.  Which thread moves next, and every choice
the environment makes, is part of the label, so that a run of the step function is one
interleaving.

`Run step ok s₀ tr s` says that `s` is reached from `s₀` by steps that all meet the guard `ok`,
and that `tr` is what was observed on the way.  Guards are how an assumption about the callers is
written: it speaks about the state before a step and the label of the step.  `Run.inv` is the
induction every safety result uses, and `exec` runs a list of labels, for concrete runs.
-/

namespace Skq.Lib

variable {σ ℓ ο : Type*}

/-- The runs from `s₀` whose steps all meet the guard `ok`. -/
inductive Run (step : σ → ℓ → Option (σ × List ο)) (ok : σ → ℓ → Prop) (s₀ : σ) :
    List ο → σ → Prop
  | nil : Run step ok s₀ [] s₀
  | snoc {tr : List ο} {s s' : σ} {l : ℓ} {o : List ο} :
      Run step ok s₀ tr s → ok s l → step s l = some (s', o) → Run step ok s₀ (tr ++ o) s'

variable {step : σ → ℓ → Option (σ × List ο)} {ok ok' : σ → ℓ → Prop} {s₀ s s' : σ}
  {tr tr' : List ο}

/-- **The invariant rule.**  What holds at the start and is kept by every guarded step holds at
the end of every guarded run. -/
theorem Run.inv (I : σ → Prop) (hr : Run step ok s₀ tr s) (h0 : I s₀)
    (hstep : ∀ s l s' o, I s → ok s l → step s l = some (s', o) → I s') : I s := by
  induction hr with
  | nil => exact h0
  | snoc _ hok hs ih => exact hstep _ _ _ _ ih hok hs

/-- The invariant rule with the trace observed so far as a history variable. -/
theorem Run.inv_trace (I : List ο → σ → Prop) (hr : Run step ok s₀ tr s) (h0 : I [] s₀)
    (hstep : ∀ tr s l s' o, I tr s → ok s l → step s l = some (s', o) → I (tr ++ o) s') :
    I tr s := by
  induction hr with
  | nil => exact h0
  | snoc _ hok hs ih => exact hstep _ _ _ _ _ ih hok hs

/-- A weaker guard has more runs; the weakening may use an invariant of the stronger runs. -/
theorem Run.mono (I : σ → Prop) (hr : Run step ok s₀ tr s) (h0 : I s₀)
    (hstep : ∀ s l s' o, I s → ok s l → step s l = some (s', o) → I s')
    (hok : ∀ s l, I s → ok s l → ok' s l) : Run step ok' s₀ tr s := by
  induction hr with
  | nil => exact .nil
  | snoc hpre hl hs ih => exact .snoc ih (hok _ _ (hpre.inv I h0 hstep) hl) hs

/-- Runs compose. -/
theorem Run.append (hr : Run step ok s₀ tr s) (hr' : Run step ok s tr' s') :
    Run step ok s₀ (tr ++ tr') s' := by
  induction hr' with
  | nil => simpa using hr
  | snoc _ hok hs ih => rw [← List.append_assoc]; exact .snoc ih hok hs

/-- A first step followed by a run. -/
theorem Run.cons {l : ℓ} {o : List ο} (hok : ok s₀ l) (hs : step s₀ l = some (s, o))
    (hr : Run step ok s tr' s') : Run step ok s₀ (o ++ tr') s' :=
  (show Run step ok s₀ ([] ++ o) s from .snoc .nil hok hs).append hr

/-! ## Histories -/

section History

variable {η : Type*} {after : η → ο → η} {right : η → ο → Prop} {h : η}

/-- Every observation is right after those before it; `after` is what is remembered of them. -/
def AllRight (after : η → ο → η) (right : η → ο → Prop) : η → List ο → Prop
  | _, [] => True
  | h, x :: tr => right h x ∧ AllRight after right (after h x) tr

lemma allRight_append :
    AllRight after right h (tr ++ tr') ↔
      AllRight after right h tr ∧ AllRight after right (tr.foldl after h) tr' := by
  induction tr generalizing h with
  | nil => simp [AllRight]
  | cons x tr ih => simp only [List.cons_append, AllRight, List.foldl_cons, ih, and_assoc]

/-- The observation at one place of the trace. -/
lemma AllRight.at {x : ο} (hr : AllRight after right h (tr ++ x :: tr')) :
    right (tr.foldl after h) x :=
  (allRight_append.1 hr).2.1

/-- **The invariant rule with a history.**  If every guarded step observes what is right after the
history, and keeps what is known about history and state, so does every guarded run. -/
theorem Run.history (I : η → σ → Prop) (hr : Run step ok s₀ tr s) (h0 : I h s₀)
    (hstep : ∀ h s l s' o, I h s → ok s l → step s l = some (s', o) →
      AllRight after right h o ∧ I (o.foldl after h) s') :
    AllRight after right h tr ∧ I (tr.foldl after h) s := by
  induction hr with
  | nil => exact ⟨trivial, h0⟩
  | snoc _ hok hs ih =>
    obtain ⟨hright, hI⟩ := hstep _ _ _ _ _ ih.2 hok hs
    exact ⟨allRight_append.2 ⟨ih.1, hright⟩, by rwa [List.foldl_append]⟩

end History

/-! ## Concrete runs -/

/-- Run the labels in order; `none` if one of them is not enabled. -/
def exec (step : σ → ℓ → Option (σ × List ο)) : σ → List ℓ → Option (σ × List ο)
  | s, [] => some (s, [])
  | s, l :: ls =>
    match step s l with
    | none => none
    | some (s', o) => (exec step s' ls).map fun r => (r.1, o ++ r.2)

/-- Every step of a concrete run meets the guard. -/
def Guarded (step : σ → ℓ → Option (σ × List ο)) (ok : σ → ℓ → Prop) : σ → List ℓ → Prop
  | _, [] => True
  | s, l :: ls =>
    ok s l ∧
      match step s l with
      | none => True
      | some r => Guarded step ok r.1 ls

instance Guarded.decidable (step : σ → ℓ → Option (σ × List ο)) (ok : σ → ℓ → Prop)
    [∀ s l, Decidable (ok s l)] : ∀ (s : σ) (ls : List ℓ), Decidable (Guarded step ok s ls)
  | _, [] => isTrue trivial
  | s, l :: ls =>
    have : Decidable (match step s l with
        | none => True
        | some r => Guarded step ok r.1 ls) :=
      match step s l with
      | none => isTrue trivial
      | some r => Guarded.decidable step ok r.1 ls
    inferInstanceAs (Decidable (_ ∧ _))

/-- A concrete run is a run. -/
theorem Run.of_exec : ∀ {ls : List ℓ} {s₀ s : σ} {tr : List ο},
    exec step s₀ ls = some (s, tr) → Guarded step ok s₀ ls → Run step ok s₀ tr s
  | [], s₀, s, tr, h, _ => by
      simp only [exec, Option.some.injEq, Prod.mk.injEq] at h
      obtain ⟨rfl, rfl⟩ := h
      exact .nil
  | l :: ls, s₀, s, tr, h, ⟨hok, hrest⟩ => by
      simp only [exec] at h
      cases hs : step s₀ l with
      | none => simp [hs] at h
      | some r =>
        simp only [hs, Option.map_eq_some_iff, Prod.mk.injEq] at h hrest
        obtain ⟨⟨s₂, tr₂⟩, hex, rfl, rfl⟩ := h
        exact .cons hok hs (Run.of_exec hex hrest)

/-- The guard that allows every step. -/
def anyStep : σ → ℓ → Prop := fun _ _ => True

/-- A guard every label of the list meets in every state is met by the run. -/
lemma guarded_of_forall : ∀ {ls : List ℓ} {s : σ}, (∀ l ∈ ls, ∀ s, ok s l) → Guarded step ok s ls
  | [], _, _ => trivial
  | l :: ls, s, h => by
      refine ⟨h l (by simp) s, ?_⟩
      split
      · trivial
      · exact guarded_of_forall fun l' hl' => h l' (by simp [hl'])

lemma guarded_anyStep {ls : List ℓ} {s : σ} : Guarded step anyStep s ls :=
  guarded_of_forall fun _ _ _ => trivial

/-- A concrete run without assumptions on its steps. -/
theorem Run.of_exec_any {ls : List ℓ} (h : exec step s₀ ls = some (s, tr)) :
    Run step anyStep s₀ tr s :=
  .of_exec h guarded_anyStep

/-- A concrete run, known by what a function computes from its end. -/
theorem Run.exists_of_exec {α : Type*} (step : σ → ℓ → Option (σ × List ο)) (s₀ : σ)
    (ls : List ℓ) (f : σ × List ο → α) (x : α) (h : (exec step s₀ ls).map f = some x)
    (hg : Guarded step ok s₀ ls) :
    ∃ s tr, Run step ok s₀ tr s ∧ f (s, tr) = x := by
  obtain ⟨⟨s, tr⟩, hex, hf⟩ := Option.map_eq_some_iff.1 h
  exact ⟨s, tr, .of_exec hex hg, hf⟩

end Skq.Lib
