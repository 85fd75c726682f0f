import Mathlib.Data.List.Induction

/-!
# "After `p`, until `q`, no `r`"

The trace property behind statements of the form *between a `p` and the next `q` there is no
`r`*.  `Armed p q tr` is the monitor: some `p` occurred and no `q` since.  `NoneBetween` is the
property itself, stated by splitting the trace, and `noneBetween_append` reduces it for a longer
trace to the monitor, which is what an inductive proof over a run keeps.
-/

namespace Skq.Lib

variable {ο : Type*} {p q r : ο → Prop} {tr o : List ο}

/-- Some `p` occurred, and no `q` since. -/
def Armed (p q : ο → Prop) (tr : List ο) : Prop :=
  ∃ pre x mid, tr = pre ++ x :: mid ∧ p x ∧ ∀ z ∈ mid, ¬ q z

/-- No `r` occurs after a `p` unless a `q` came in between. -/
def NoneBetween (p q r : ο → Prop) (tr : List ο) : Prop :=
  ∀ pre x mid y post, tr = pre ++ x :: mid ++ y :: post → p x → (∀ z ∈ mid, ¬ q z) → ¬ r y

@[simp] lemma not_armed_nil : ¬ Armed p q [] := by
  rintro ⟨pre, x, mid, h, -⟩
  simp at h

@[simp] lemma noneBetween_nil : NoneBetween p q r [] := by
  intro pre x mid y post h
  simp at h

/-- One more observation: the monitor is on if this is a `p`, or if it was on and this is no
`q`. -/
lemma armed_concat {y : ο} : Armed p q (tr ++ [y]) ↔ p y ∨ Armed p q tr ∧ ¬ q y := by
  constructor
  · rintro ⟨pre, x, mid, h, hp, hq⟩
    rcases List.eq_nil_or_concat mid with rfl | ⟨mid', z, rfl⟩
    · obtain ⟨-, h⟩ := List.append_inj' h rfl
      simp only [List.cons.injEq, and_true] at h
      exact .inl (h ▸ hp)
    · rw [List.concat_eq_append, ← List.cons_append, ← List.append_assoc] at h
      obtain ⟨htr, h⟩ := List.append_inj' h rfl
      simp only [List.cons.injEq, and_true] at h
      subst h
      exact .inr ⟨⟨pre, x, mid', htr, hp, fun z hz => hq z (by simp [hz])⟩, hq y (by simp)⟩
  · rintro (hp | ⟨⟨pre, x, mid, rfl, hp, hq⟩, hy⟩)
    · exact ⟨tr, y, [], rfl, hp, by simp⟩
    · refine ⟨pre, x, mid ++ [y], by simp, hp, fun z hz => ?_⟩
      rcases List.mem_append.1 hz with hz | hz
      · exact hq z hz
      · rw [List.mem_singleton.1 hz]; exact hy

/-- One more observation keeps the property as long as the monitor allows it. -/
lemma noneBetween_concat {y : ο} :
    NoneBetween p q r (tr ++ [y]) ↔ NoneBetween p q r tr ∧ (Armed p q tr → ¬ r y) := by
  constructor
  · intro h
    refine ⟨fun pre x mid z post heq => h pre x mid z (post ++ [y]) (by simp [heq]), ?_⟩
    rintro ⟨pre, x, mid, rfl, hp, hq⟩
    exact h pre x mid y [] rfl hp hq
  · rintro ⟨h, hy⟩ pre x mid z post heq hp hq
    rcases List.eq_nil_or_concat post with rfl | ⟨post', w, rfl⟩
    · obtain ⟨htr, hz⟩ := List.append_inj' heq rfl
      simp only [List.cons.injEq, and_true] at hz
      exact hz ▸ hy ⟨pre, x, mid, htr, hp, hq⟩
    · rw [List.concat_eq_append, ← List.cons_append, ← List.append_assoc] at heq
      exact h pre x mid z post' (List.append_inj' heq rfl).1 hp hq

/-- Without a `p` the monitor stays off. -/
lemma not_armed (h : ∀ y ∈ o, ¬ p y) : ¬ Armed p q o := by
  rintro ⟨pre, x, mid, rfl, hp, -⟩
  exact h x (by simp) hp

/-- The monitor is on after more observations: one of them was a `p`, or it was on and none is a `q`. -/
lemma armed_append (h : Armed p q (tr ++ o)) : Armed p q o ∨ Armed p q tr ∧ ∀ z ∈ o, ¬ q z := by
  induction o using List.reverseRecOn with
  | nil => exact .inr ⟨by simpa using h, by simp⟩
  | append_singleton o y ih =>
    rw [← List.append_assoc, armed_concat] at h
    rw [armed_concat]
    rcases h with hp | ⟨h, hy⟩
    · exact .inl (.inl hp)
    · rcases ih h with ho | ⟨htr, ho⟩
      · exact .inl (.inr ⟨ho, hy⟩)
      · refine .inr ⟨htr, fun z hz => ?_⟩
        rcases List.mem_append.1 hz with hz | hz
        · exact ho z hz
        · rw [List.mem_singleton.1 hz]
          exact hy

lemma noneBetween_of_not_left (h : ∀ y ∈ o, ¬ p y) : NoneBetween p q r o := by
  rintro pre x mid y post rfl hp
  exact absurd hp (h x (by simp))

lemma noneBetween_of_not_right (h : ∀ y ∈ o, ¬ r y) : NoneBetween p q r o := by
  rintro pre x mid y post rfl - -
  exact h y (by simp)

/-- Two traces in a row, of which the second has no `r` if the monitor is on after the first. -/
lemma noneBetween_append (h : NoneBetween p q r tr) (h' : NoneBetween p q r o)
    (ho : Armed p q tr → ∀ y ∈ o, ¬ r y) : NoneBetween p q r (tr ++ o) := by
  induction o using List.reverseRecOn with
  | nil => simpa using h
  | append_singleton o y ih =>
    rw [noneBetween_concat] at h'
    rw [← List.append_assoc, noneBetween_concat]
    refine ⟨ih h'.1 fun ha z hz => ho ha z (by simp [hz]), fun ha => ?_⟩
    rcases armed_append ha with ha | ⟨ha, -⟩
    · exact h'.2 ha
    · exact ho ha y (by simp)

/-- Observations that are neither a `p` nor an `r` keep the property and do not switch the
monitor on. -/
lemma noneBetween_append_of_quiet (h : NoneBetween p q r tr)
    (ho : ∀ y ∈ o, ¬ p y ∧ ¬ r y) :
    NoneBetween p q r (tr ++ o) ∧ (Armed p q (tr ++ o) → Armed p q tr) := by
  have hr : ∀ y ∈ o, ¬ r y := fun y hy => (ho y hy).2
  refine ⟨noneBetween_append h (noneBetween_of_not_right hr) fun _ => hr, fun ha => ?_⟩
  exact ((armed_append ha).resolve_left (not_armed fun y hy => (ho y hy).1)).1

/-- Quiet observations and then `y`: the property is kept if the monitor allows `y`, and the
monitor is on afterwards only if `y` is a `p`, or if it was on and `y` is no `q`. -/
lemma noneBetween_append_last {y : ο} (h : NoneBetween p q r tr) (ho : ∀ z ∈ o, ¬ p z ∧ ¬ r z)
    (hy : Armed p q tr → ¬ r y) :
    NoneBetween p q r (tr ++ (o ++ [y])) ∧
      (Armed p q (tr ++ (o ++ [y])) → p y ∨ Armed p q tr ∧ ¬ q y) := by
  obtain ⟨hn, ha⟩ := noneBetween_append_of_quiet h ho
  rw [← List.append_assoc, noneBetween_concat, armed_concat]
  exact ⟨⟨hn, fun h => hy (ha h)⟩, fun h => h.imp_right fun h => ⟨ha h.1, h.2⟩⟩

/-- One observation among quiet ones: the property is kept if the monitor allows it. -/
lemma noneBetween_append_mid {o' : List ο} {y : ο} (h : NoneBetween p q r tr)
    (ho : ∀ z ∈ o, ¬ p z ∧ ¬ r z) (ho' : ∀ z ∈ o', ¬ p z ∧ ¬ r z) (hy : Armed p q tr → ¬ r y) :
    NoneBetween p q r (tr ++ (o ++ y :: o')) := by
  have hlast := (noneBetween_append_last h ho hy).1
  have hmid := (noneBetween_append_of_quiet hlast ho').1
  rwa [List.append_assoc, List.append_assoc, List.singleton_append] at hmid

/-! ## "No `q` without a `p` before it" -/

/-- Every `q` comes after some `p`. -/
def Precedes (p q : ο → Prop) (tr : List ο) : Prop :=
  ∀ pre y post, tr = pre ++ y :: post → q y → ∃ x ∈ pre, p x

@[simp] lemma precedes_nil : Precedes p q [] := by
  intro pre y post h
  simp at h

/-- One more observation, with a `p` before it if it is a `q`. -/
lemma precedes_concat {y : ο} (h : Precedes p q tr) (hy : q y → ∃ x ∈ tr, p x) :
    Precedes p q (tr ++ [y]) := by
  intro pre z post heq hz
  rcases List.eq_nil_or_concat post with rfl | ⟨post', w, rfl⟩
  · obtain ⟨rfl, hyz⟩ := List.append_inj' heq rfl
    simp only [List.cons.injEq, and_true] at hyz
    exact hy (hyz ▸ hz)
  · rw [List.concat_eq_append, ← List.cons_append, ← List.append_assoc] at heq
    exact h pre z post' (List.append_inj' heq rfl).1 hz

/-- Observations that are no `q`. -/
lemma precedes_append (h : Precedes p q tr) (ho : ∀ y ∈ o, ¬ q y) : Precedes p q (tr ++ o) := by
  induction o using List.reverseRecOn with
  | nil => simpa using h
  | append_singleton o y ih =>
    rw [← List.append_assoc]
    exact precedes_concat (ih fun z hz => ho z (by simp [hz])) fun hy => absurd hy (ho y (by simp))

end Skq.Lib
