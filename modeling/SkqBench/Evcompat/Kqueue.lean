import Mathlib.Data.Int.Basic
import Mathlib.Data.List.Nodup
import Mathlib.Logic.Function.Basic

/-!
# The kernel event queue

A kqueue is a map from `(ident, filter)` to a knote.  `EV_ADD` on an occupied slot modifies the
knote that is there (its `udata` included) and enables it; `EV_DELETE` and `EV_ENABLE` fail with
`ENOENT` on an empty slot; a knote registered with `EV_DISPATCH` is disabled in the moment
`kevent()` returns it.  Which enabled knotes are ready, and in which order a call returns them,
is the kernel's choice.
-/

namespace Skq.Evcompat

/-- A `struct event`, by its address. -/
abbrev EvId := ℕ

/-- A `struct event_base`, by its address.  Every base has its own kqueue. -/
abbrev BaseId := ℕ

/-- A thread, by its `pthread_t`. -/
abbrev Tid := ℕ

/-- `EVFILT_READ`, `EVFILT_WRITE` and `EVFILT_TIMER`. -/
inductive Filter
  | read
  | write
  | timer
  deriving DecidableEq, Repr

/-- What identifies a knote in a kqueue. -/
abbrev Slot := ℤ × Filter

/-- `struct kevent`.  The action flag (`EV_ADD`, `EV_DELETE`, `EV_ENABLE`) is the operation it is
submitted with; `dispatch` is `EV_DISPATCH` and `realtime` is `EV_REALTIME`. -/
structure KEvent where
  ident : ℤ
  filter : Filter
  dispatch : Bool
  realtime : Bool
  data : ℤ
  udata : EvId
  deriving DecidableEq, Repr

/-- The slot a change or a returned event names. -/
def KEvent.slot (k : KEvent) : Slot := (k.ident, k.filter)

/-- A registered event: what it was registered with, and whether it may be delivered. -/
structure Knote where
  kev : KEvent
  enabled : Bool
  deriving DecidableEq, Repr

/-- A kqueue. -/
abbrev Kqueue := Slot → Option Knote

namespace Kqueue

/-- `EV_ADD`. -/
def add (kq : Kqueue) (k : KEvent) : Kqueue := Function.update kq k.slot (some ⟨k, true⟩)

/-- `EV_DELETE`; `none` is `ENOENT`. -/
def delete (kq : Kqueue) (x : Slot) : Option Kqueue :=
  if (kq x).isSome then some (Function.update kq x none) else none

/-- `EV_ENABLE` of one knote; `none` is `ENOENT`. -/
def enable (kq : Kqueue) (x : Slot) : Option Kqueue :=
  match kq x with
  | some kn => some (Function.update kq x (some { kn with enabled := true }))
  | none => none

/-- A change list of `EV_ENABLE`s without room for errors: the kernel stops at the first change
that fails.  The flag is the success of the call. -/
def enableAll (kq : Kqueue) : List KEvent → Kqueue × Bool
  | [] => (kq, true)
  | k :: ks =>
    match kq.enable k.slot with
    | some kq' => enableAll kq' ks
    | none => (kq, false)

/-- A returned knote is disabled if it was registered with `EV_DISPATCH`. -/
def deliver (kn : Knote) : Knote := { kn with enabled := kn.enabled && !kn.kev.dispatch }

/-- `kevent()` with an event list: the knotes in the given slots are ready and are returned in
this order.  Only enabled knotes are returned, each at most once. -/
def fetch (kq : Kqueue) : List Slot → Option (List KEvent × Kqueue)
  | [] => some ([], kq)
  | x :: xs =>
    match kq x with
    | some kn =>
      if kn.enabled && !xs.contains x then
        (fetch kq xs).map fun r => (kn.kev :: r.1, Function.update r.2 x (some (deliver kn)))
      else none
    | none => none

/-- Closing a descriptor drops its knotes. -/
def close (kq : Kqueue) (fd : ℤ) : Kqueue := fun x =>
  if x.1 = fd ∧ x.2 ≠ .timer then none else kq x

/-! ## What the operations do to a slot -/

variable {kq kq' : Kqueue} {x y : Slot} {k : KEvent}

@[simp] lemma add_apply : kq.add k y = if y = k.slot then some ⟨k, true⟩ else kq y := by
  simp [add, Function.update_apply]

lemma delete_eq_some : kq.delete x = some kq' ↔
    (∃ kn, kq x = some kn) ∧ kq' = Function.update kq x none := by
  unfold delete
  cases kq x <;> simp [eq_comm]

lemma delete_eq_none : kq.delete x = none ↔ kq x = none := by
  unfold delete
  cases kq x <;> simp

lemma enable_eq_some : kq.enable x = some kq' ↔
    ∃ kn, kq x = some kn ∧ kq' = Function.update kq x (some { kn with enabled := true }) := by
  unfold enable
  cases kq x <;> simp [eq_comm]

/-- `EV_ENABLE` keeps every registration and enables at most the knotes it names. -/
lemma enableAll_apply : ∀ (ks : List KEvent) (kq : Kqueue) (y : Slot),
    (kq.enableAll ks).1 y = kq y ∨
      ∃ kn, kq y = some kn ∧ (kq.enableAll ks).1 y = some { kn with enabled := true } ∧
        ∃ k ∈ ks, k.slot = y
  | [], kq, y => by simp [enableAll]
  | k :: ks, kq, y => by
      rw [enableAll]
      split
      · next kq₁ h₁ =>
        obtain ⟨kn, hkn, rfl⟩ := enable_eq_some.1 h₁
        have ih := enableAll_apply ks (Function.update kq k.slot (some { kn with enabled := true })) y
        rw [Function.update_apply] at ih
        split at ih
        · next hy =>
          subst hy
          refine .inr ⟨kn, hkn, ?_, k, by simp, rfl⟩
          rcases ih with ih | ⟨kn', hkn', ih, -⟩
          · exact ih
          · rw [ih, ← Option.some.inj hkn']
        · rcases ih with ih | ⟨kn', hkn', ih, k', hk', hs⟩
          · exact .inl ih
          · exact .inr ⟨kn', hkn', ih, k', by simp [hk'], hs⟩
      · exact .inl rfl

/-- If every named knote exists, the call succeeds and enables all of them. -/
lemma enableAll_of_registered : ∀ (ks : List KEvent) (kq : Kqueue),
    (∀ k ∈ ks, ∃ kn, kq k.slot = some kn) →
      (kq.enableAll ks).2 = true ∧
        ∀ k ∈ ks, ∃ kn, (kq.enableAll ks).1 k.slot = some kn ∧ kn.enabled = true
  | [], kq, _ => by simp [enableAll]
  | k :: ks, kq, h => by
      obtain ⟨kn, hkn⟩ := h k (by simp)
      have henable : kq.enable k.slot =
          some (Function.update kq k.slot (some { kn with enabled := true })) :=
        enable_eq_some.2 ⟨kn, hkn, rfl⟩
      simp only [enableAll, henable]
      set kq₁ := Function.update kq k.slot (some { kn with enabled := true }) with hkq₁
      have hreg : ∀ k' ∈ ks, ∃ kn', kq₁ k'.slot = some kn' := by
        intro k' hk'
        rw [hkq₁, Function.update_apply]
        split
        · exact ⟨_, rfl⟩
        · exact h k' (by simp [hk'])
      obtain ⟨hok, hall⟩ := enableAll_of_registered ks kq₁ hreg
      refine ⟨hok, fun k' hk' => ?_⟩
      rcases List.mem_cons.1 hk' with rfl | hk'
      · rcases enableAll_apply ks kq₁ k'.slot with heq | ⟨kn', -, heq, -⟩
        · exact ⟨_, heq.trans (Function.update_self ..), rfl⟩
        · exact ⟨_, heq, rfl⟩
      · exact hall k' hk'

/-- What `kevent()` returns: enabled knotes of distinct slots, and the queue with exactly these
marked as delivered. -/
lemma fetch_spec : ∀ {xs : List Slot} {evs : List KEvent} {kq' : Kqueue},
    kq.fetch xs = some (evs, kq') →
      xs.Nodup ∧ (∀ y, kq' y = if y ∈ xs then (kq y).map deliver else kq y) ∧
        evs.length = xs.length ∧
        (∀ k, k ∈ evs ↔ ∃ y ∈ xs, ∃ kn, kq y = some kn ∧ kn.enabled = true ∧ kn.kev = k) ∧
        evs.map some = xs.map fun y => (kq y).map Knote.kev
  | [], evs, kq', h => by
      simp only [fetch, Option.some.injEq, Prod.mk.injEq] at h
      obtain ⟨rfl, rfl⟩ := h
      simp
  | x :: xs, evs, kq', h => by
      simp only [fetch] at h
      split at h
      · next kn hkn =>
        split at h
        · next hc =>
          simp only [Bool.and_eq_true, Bool.not_eq_true', List.contains_eq_mem,
            decide_eq_false_iff_not] at hc
          simp only [Option.map_eq_some_iff, Prod.mk.injEq] at h
          obtain ⟨⟨evs', kq₁⟩, hf, rfl, rfl⟩ := h
          obtain ⟨hnd, hkq, hlen, hmem, hmap⟩ := fetch_spec hf
          refine ⟨List.nodup_cons.2 ⟨hc.2, hnd⟩, fun y => ?_, by simp [hlen], fun k => ?_, ?_⟩
          · by_cases hy : y = x
            · subst hy; simp [hkn]
            · simp [hkq, hy]
          · simp only [List.mem_cons, hmem, exists_eq_or_imp, hkn, Option.some.injEq,
              exists_eq_left', hc.1, true_and]
            exact or_congr_left eq_comm
          · simp [hkn, hmap]
        · simp at h
      · simp at h

end Kqueue

end Skq.Evcompat
