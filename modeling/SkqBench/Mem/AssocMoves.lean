import Mathlib.Logic.Relation
import SkqBench.Mem.AssocStripes

/-!
# Moving the hash table

The steps of `assoc_maintenance_thread`, of the item locks and of `assoc_expand`, and what follows for
all runs: what `assoc_find` returns is what is in the table, whatever is moved meanwhile.
-/

namespace Skq.Mem

open Lib

namespace Assoc

variable {τ ι κ : Type*}

section Moves

variable [DecidableEq ι] {e : Hashing ι κ} {s s' : Assoc τ ι κ} {L L' : HashSlot → List ι}
  {c c' : ι → Bool} {k : ℕ} {hv : UInt32} {b : HashSlot} {it : ι} {moving : Option ℕ} {limbo : Option ι}
  {i : ℕ}

/-! ## Steps of the maintenance thread -/

omit [DecidableEq ι] in
/-- What a phase says, when the variables it is about have not changed. -/
lemma PhaseOK.congr {pc : MaintAt ι} (hpow : s'.hashpower = s.hashpower)
    (hexp : s'.expanding = s.expanding) (heb : s'.expandBucket = s.expandBucket)
    (h : s.PhaseOK pc) : s'.PhaseOK pc := by
  revert h
  cases pc <;> simp only [PhaseOK, hpow, hexp, heb] <;> exact id

/-- The maintenance thread does something with the lock of its bucket. -/
lemma Inv.mover (h : Inv e s L c) {i : ℕ} (hi : s.maint.bucket? = some i) (hctl : Ctl e s')
    (hlocks : s'.locks = s.locks) (hthreads : s'.threads = s.threads)
    (hsame : ∀ k, k ≠ i % 2 ^ e.lockPower → SameUnder e k s L c s' L' c)
    (hok : MoverOK e s' L' c (i % 2 ^ e.lockPower) s'.maint) : Inv e s' L' c := by
  refine ⟨hctl, fun k => ?_⟩
  have howner : s.locks (i % 2 ^ e.lockPower) = some .maint := by
    rw [h.ctl.lockMaint, hi, Option.map_some, h.ctl.bucket_mod hi]
  by_cases hk : k = i % 2 ^ e.lockPower
  · subst hk
    unfold HolderOK
    rw [hlocks, howner]
    exact hok
  · refine HolderOK.congr h.ctl (hsame k hk) (congrFun hlocks k) (fun t _ => congrFun hthreads t) ?_
      (h.holder k)
    intro hm
    rw [h.ctl.lockMaint, hi, Option.map_some, h.ctl.bucket_mod hi, Option.some.injEq] at hm
    exact absurd hm.symm hk

/-- It writes under the lock of its bucket and goes on. -/
lemma Inv.moverWrites (h : Inv e s L c) {i : ℕ} {pc : MaintAt ι} (hi : s.maint.bucket? = some i)
    (hw : Writes e (i % 2 ^ e.lockPower) s s') (hpc : pc.bucket? = some i) (hphase : s.PhaseOK pc)
    (hL : ∀ b, slotLock e b ≠ i % 2 ^ e.lockPower → L' b = L b)
    (hok : MoverOK e s' L' c (i % 2 ^ e.lockPower) pc) : Inv e (s'.mgoto pc) L' c := by
  have hctl := hw.ctl h.ctl
  have hphase' : s'.PhaseOK pc := hphase.congr hw.power hw.expanding hw.bucket
  refine h.mover hi ⟨hctl.power, hctl.powerMax, hctl.primary, hctl.old, ?_,
    hctl.lockThread, ?_⟩ hw.locks hw.threads ?_ ?_
  · exact hphase'.congr rfl rfl rfl
  · intro k
    have hmaint := hctl.lockMaint k
    rw [hw.maint, hi, ← hpc] at hmaint
    exact hmaint
  · exact fun k hk => (hw.sameUnder hk hL fun _ _ => rfl).control ..
  · refine MoverOK.congr hctl ((SameUnder.refl e _ s' L' c).control ..) (fun b hb => ?_) hok
    rw [show (s'.mgoto pc).maint = pc from rfl, hpc, Option.some.injEq] at hb
    rw [hb]

omit [DecidableEq ι] in
/-- Before its items are moved, a bucket is settled. -/
lemma Settled.toMoving (hs : Settled e s L c k) (moving : Option ℕ) : Stripe e s L c k moving none :=
  ⟨fun b it hb hit => .inl ((hs.stripe.home b it hb hit).resolve_right fun hm => nomatch hm.1),
    hs.stripe.mem, hs.stripe.limbo, hs.stripe.uniq, hs.stripe.apart⟩

omit [DecidableEq ι] in
/-- An item in the list of an old entry has the index of the entry. -/
lemma Stripe.old_index (hs : Stripe e s L c k moving limbo) {i : ℕ} (hk : slotLock e (.old i) = k)
    (hit : it ∈ L (.old i)) : bucketOf (s.hashpower - 1) (e.hash (e.key it)) = i := by
  rcases hs.home _ it hk hit with heq | ⟨_, heq⟩
  · rw [slotOf] at heq
    split at heq <;> cases heq
    rfl
  · cases heq

/-- The first item of the bucket leaves the old list. -/
lemma Stripe.take (hs : Stripe e s L c k (some i) none) (hk : slotLock e (.old i) = k)
    (h : Ctl e s) {rest : List ι} (hL : L (.old i) = it :: rest) (hnodup : (L (.old i)).Nodup) :
    Stripe e s (Function.update L (.old i) rest) c k (some i) (some it) := by
  have hmemOld : it ∈ L (.old i) := by simp [hL]
  have hout : it ∉ rest := by
    rw [hL] at hnodup
    exact (List.nodup_cons.1 hnodup).1
  have hlock : itemLock e it = k := hs.itemLock_eq h hk hmemOld
  have hmem : ∀ b it', slotLock e b = k →
      (it' ∈ Function.update L (.old i) rest b ↔ it' ≠ it ∧ it' ∈ L b) := by
    intro b it' hb
    by_cases hbi : b = .old i
    · subst hbi
      rw [Function.update_self, hL, List.mem_cons]
      constructor
      · intro hit'
        exact ⟨fun heq => hout (heq ▸ hit'), .inr hit'⟩
      · rintro ⟨hne, rfl | hit'⟩
        · exact absurd rfl hne
        · exact hit'
    · rw [Function.update_of_ne hbi]
      refine ⟨fun hit' => ⟨?_, hit'⟩, fun hit' => hit'.2⟩
      rintro rfl
      cases b with
      | old j =>
        have hj := hs.old_index hb hit'
        rw [hs.old_index hk hmemOld] at hj
        exact hbi (by rw [hj])
      | new j => exact hs.apart i j it' hk hb hmemOld hit'
  refine ⟨?_, ?_, ?_, hs.uniq, ?_⟩
  · intro b it' hb hit'
    exact hs.home b it' hb ((hmem b it' hb).1 hit').2
  · intro it' hk'
    rw [hs.mem it' hk']
    by_cases hii : it' = it
    · subst hii
      exact iff_of_true (.inl ⟨_, hk, hmemOld⟩) (.inr rfl)
    · simp only [reduceCtorEq, or_false, Option.some.injEq, Ne.symm hii]
      refine exists_congr fun b => and_congr_right fun hb => ?_
      rw [hmem b it' hb]
      exact (and_iff_right hii).symm
  · intro it' heq
    obtain rfl := Option.some.inj heq
    exact ⟨hlock, fun b hb hit' => ((hmem b it hb).1 hit').1 rfl⟩
  · intro i' j it' hi' hj hit hit'
    exact hs.apart i' j it' hi' hj ((hmem _ it' hi').1 hit).2 ((hmem _ it' hj).1 hit').2

omit [DecidableEq ι] in
/-- The item is put into its new list. -/
lemma Stripe.put (hs : Stripe e s L c k (some i) (some it))
    (hi : bucketOf (s.hashpower - 1) (e.hash (e.key it)) = i)
    (hb : b = .new (bucketOf s.hashpower (e.hash (e.key it)))) (hbk : slotLock e b = k) :
    Stripe e s (Function.update L b (it :: L b)) c k (some i) none := by
  obtain ⟨hlock, hnot⟩ := hs.limbo it rfl
  have hmem : ∀ b' it', it' ∈ Function.update L b (it :: L b) b' ↔ it' = it ∧ b' = b ∨ it' ∈ L b' := by
    intro b' it'
    by_cases hbb : b' = b
    · subst hbb
      simp
    · simp [hbb]
  refine ⟨?_, ?_, (fun _ hl => nomatch hl), hs.uniq, ?_⟩
  · intro b' it' hb' hit'
    rcases (hmem b' it').1 hit' with ⟨rfl, rfl⟩ | hit'
    · exact .inr ⟨by rw [hi], hb⟩
    · exact hs.home b' it' hb' hit'
  · intro it' hk'
    rw [hs.mem it' hk']
    simp only [hmem, Option.some.injEq, reduceCtorEq, or_false]
    constructor
    · rintro (⟨b', hb', hit'⟩ | rfl)
      · exact ⟨b', hb', .inr hit'⟩
      · exact ⟨b, hbk, .inl ⟨rfl, rfl⟩⟩
    · rintro ⟨b', hb', ⟨rfl, rfl⟩ | hit'⟩
      · exact .inr rfl
      · exact .inl ⟨b', hb', hit'⟩
  · intro i' j it' hi' hj hold hnew
    rcases (hmem _ it').1 hold with ⟨_, hbi⟩ | hold'
    · rw [hb] at hbi
      cases hbi
    · rcases (hmem _ it').1 hnew with ⟨rfl, _⟩ | hnew'
      · exact hnot _ hi' hold'
      · exact hs.apart i' j it' hi' hj hold' hnew'

/-- What the maintenance thread may rely on. -/
lemma Inv.maintOK (h : Inv e s L c) (hi : s.maint.bucket? = some i) :
    MoverOK e s L c (i % 2 ^ e.lockPower) s.maint := by
  have howner : s.locks (i % 2 ^ e.lockPower) = some .maint := by
    rw [h.ctl.lockMaint, hi, Option.map_some, h.ctl.bucket_mod hi]
  have hok := h.holder (i % 2 ^ e.lockPower)
  unfold HolderOK at hok
  rw [howner] at hok
  exact hok

omit [DecidableEq ι] in
/-- The entry of the bucket that is moved can be read. -/
lemma Ctl.head?_old (h : Ctl e s) (hexp : s.expanding = true) (hi : i < 2 ^ (s.hashpower - 1)) :
    s.head? (.old i) = some (s.headOf (.old i)) := by
  obtain ⟨t, ht, hsize⟩ := h.old hexp
  simp [head?, headOf, ht, HashTable.load, hsize, hi]

/-- The loop over the items, one step: the item leaves the old list. -/
lemma Inv.move (h : Inv e s L c) (hm : s.maint = .move i (some it)) :
    ∃ rest, L (.old i) = it :: rest ∧ Inv e ((s.assign (.next it)
      (s.headOf (.new (bucketOf s.hashpower (e.hash (e.key it)))))).mgoto (.push i it (s.hNext it)))
      (Function.update L (.old i) rest) c := by
  have hi : s.maint.bucket? = some i := by rw [hm]; rfl
  have hphase := h.ctl.phase
  obtain ⟨hs, hchains⟩ := show MoverOK e s L c (i % 2 ^ e.lockPower) (.move i (some it)) from
    hm ▸ h.maintOK hi
  rw [hm] at hphase
  have hk : slotLock e (.old i) = i % 2 ^ e.lockPower := rfl
  have hchain := hchains (.old i) hk hphase.1
  have hnodup := chain_nodup hchain
  rw [Function.update_self] at hchain
  obtain ⟨rest, hL, hrest⟩ := chain_pop hchain
  have hmemOld : it ∈ L (.old i) := by simp [hL]
  have hlock := hs.itemLock_eq h.ctl hk hmemOld
  have htake := hs.take hk h.ctl hL hnodup
  have hout : ∀ b, slotLock e b = i % 2 ^ e.lockPower →
      it ∉ Function.update L (.old i) rest b := (htake.limbo it rfl).2
  refine ⟨rest, hL, h.moverWrites hi (.assign_next s _ hlock) rfl hphase ?_ ⟨?_, ?_,
    hs.old_index hk hmemOld, Function.update_self ..⟩⟩
  · intro b hne
    refine Function.update_of_ne ?_ ..
    rintro rfl
    exact hne rfl
  · exact ⟨htake.home, htake.mem, htake.limbo, htake.uniq, htake.apart⟩
  · intro b hb hlive
    have hkeep : ∀ a ∈ Function.update L (.old i) rest b,
        (s.assign (.next it) (s.headOf (.new (bucketOf s.hashpower (e.hash (e.key it)))))).hNext a =
          s.hNext a := fun a ha => Function.update_of_ne (ne_of_mem_of_not_mem ha (hout b hb)) ..
    refine chain_congr ?_ hkeep
    by_cases hbi : b = .old i
    · subst hbi
      rw [Function.update_self, Function.update_self]
      exact hrest
    · have hch := hchains b hb hlive
      rw [Function.update_of_ne hbi] at hch
      rw [Function.update_of_ne hbi, Function.update_of_ne hbi]
      exact hch

/-- The loop over the items, the other step: the item is put into its new list. -/
lemma Inv.push (h : Inv e s L c) {nxt : Option ι} (hm : s.maint = .push i it nxt) :
    ∃ L', L' (.old i) = L (.old i) ∧ Inv e ((s.setHead (.new (bucketOf s.hashpower
      (e.hash (e.key it)))) (some it)).mgoto (.move i nxt)) L' c := by
  have hi : s.maint.bucket? = some i := by rw [hm]; rfl
  have hphase := h.ctl.phase
  obtain ⟨hs, hchains, hbucket, hnext⟩ :=
    show MoverOK e s L c (i % 2 ^ e.lockPower) (.push i it nxt) from hm ▸ h.maintOK hi
  rw [hm] at hphase
  generalize hb : HashSlot.new (bucketOf s.hashpower (e.hash (e.key it))) = b at hnext
  have hbk : slotLock e b = i % 2 ^ e.lockPower := by
    rw [← hb, h.ctl.slotLock_new]
    exact (hs.limbo it rfl).1
  have hput := hs.put hbucket hb.symm hbk
  have hw : Writes e (i % 2 ^ e.lockPower) s (s.setHead b (some it)) := .setHead s _ hbk
  have hsame : (s.setHead b (some it)).hNext = s.hNext := by cases b <;> rfl
  have hold : b ≠ .old i := by
    rw [← hb]
    exact nofun
  refine ⟨Function.update L b (it :: L b), Function.update_of_ne hold.symm .., h.moverWrites hi hw rfl
    hphase ?_ ⟨⟨?_, hput.mem, hput.limbo, hput.uniq, hput.apart⟩, ?_⟩⟩
  · intro b' hne
    refine Function.update_of_ne ?_ ..
    rintro rfl
    exact hne hbk
  · simp only [hw.slotOf, hw.power]
    exact hput.home
  · intro b' hb' hlive
    have hch := hchains b' hb' (hw.live.1 hlive)
    rw [hsame]
    by_cases hbb : b' = b
    · subst hbb
      rw [Function.update_of_ne hold] at hch
      rw [Function.update_of_ne hold, Function.update_self,
        headOf_setHead_self s _ (by rw [← hb, h.ctl.head?_new]; rfl)]
      refine ⟨rfl, ?_⟩
      rw [hnext]
      exact hch
    · rw [Function.update_of_ne hbb]
      by_cases hbi : b' = .old i
      · subst hbi
        rw [Function.update_self] at hch ⊢
        exact hch
      · rw [Function.update_of_ne hbi] at hch ⊢
        rwa [headOf_setHead_of_ne s _ hbb]

/-- The end of the loop: the old entry is cleared. -/
lemma Inv.moveEnd (h : Inv e s L c) (hm : s.maint = .move i none) :
    Inv e ((s.setHead (.old i) none).mgoto (.clear i)) L c := by
  have hi : s.maint.bucket? = some i := by rw [hm]; rfl
  have hphase := h.ctl.phase
  obtain ⟨hs, hchains⟩ := show MoverOK e s L c (i % 2 ^ e.lockPower) (.move i none) from
    hm ▸ h.maintOK hi
  rw [hm] at hphase
  have hk : slotLock e (.old i) = i % 2 ^ e.lockPower := rfl
  have hchain := hchains (.old i) hk hphase.1
  rw [Function.update_self] at hchain
  have hempty : L (.old i) = [] := chain_none hchain
  have hw : Writes e (i % 2 ^ e.lockPower) s (s.setHead (.old i) none) := .setHead s _ hk
  refine h.moverWrites hi hw rfl hphase (fun _ _ => rfl) ⟨⟨?_, hs.mem, hs.limbo, hs.uniq, hs.apart⟩, ?_,
    hempty⟩
  · simp only [hw.slotOf, hw.power]
    exact hs.home
  · intro b hb hlive
    by_cases hbi : b = .old i
    · subst hbi
      rw [headOf_setHead_self s _ (by rw [h.ctl.head?_old hphase.1 hphase.2.2]; rfl), hempty]
      rfl
    · have hch := hchains b hb hlive
      rw [Function.update_of_ne hbi] at hch
      rw [headOf_setHead_of_ne s _ hbi]
      exact hch

/-- `expand_bucket++`: what is in the bucket now is searched in the new table. -/
lemma Inv.clear (h : Inv e s L c) (hm : s.maint = .clear i) :
    Inv e { s with expandBucket := s.expandBucket + 1, maint := .bump i } L c := by
  have hi : s.maint.bucket? = some i := by rw [hm]; rfl
  have hphase := h.ctl.phase
  obtain ⟨hs, hchains, hempty⟩ := show MoverOK e s L c (i % 2 ^ e.lockPower) (.clear i) from
    hm ▸ h.maintOK hi
  rw [hm] at hphase
  obtain ⟨hexp, heb, hlt⟩ := hphase
  set s' : Assoc τ ι κ := { s with expandBucket := s.expandBucket + 1, maint := .bump i }
  have hslot : ∀ hv, bucketOf (s.hashpower - 1) hv ≠ i → s'.slotOf hv = s.slotOf hv := by
    intro hv hne
    have hiff : s.expandBucket + 1 ≤ bucketOf (s.hashpower - 1) hv ↔
        s.expandBucket ≤ bucketOf (s.hashpower - 1) hv := by omega
    simp only [slotOf, s', hiff]
  refine h.mover hi ⟨h.ctl.power, h.ctl.powerMax, h.ctl.primary, h.ctl.old,
    ⟨hexp, by simp [s', heb], hlt⟩, h.ctl.lockThread, ?_⟩ rfl rfl ?_ ⟨⟨?_, hs.mem, hs.limbo, hs.uniq, hs.apart⟩, hchains⟩
  · intro k
    have hmaint := h.ctl.lockMaint k
    rw [hm] at hmaint
    exact hmaint
  · intro k hk
    refine ⟨rfl, fun hv hkv => hslot hv ?_, fun _ => id, fun _ _ _ => rfl, fun _ _ => rfl,
      fun _ _ => rfl, fun _ _ => rfl, fun _ => .inl hexp⟩
    intro heq
    have hlock := h.ctl.slotLock_old hv
    rw [heq, hkv] at hlock
    exact hk hlock.symm
  · intro b it hb hit
    left
    by_cases hbi : bucketOf (s.hashpower - 1) (e.hash (e.key it)) = i
    · have hnew : s'.slotOf (e.hash (e.key it)) = .new (bucketOf s.hashpower (e.hash (e.key it))) := by
        rw [slotOf, if_neg]
        rintro ⟨_, hle⟩
        simp only [s'] at hle
        omega
      rcases hs.home b it hb hit with heq | ⟨_, heq⟩
      · have hold : s.slotOf (e.hash (e.key it)) = .old i := by
          rw [slotOf, if_pos ⟨hexp, by omega⟩, hbi]
        rw [heq, hold, hempty] at hit
        cases hit
      · rw [heq, hnew]
    · rcases hs.home b it hb hit with heq | ⟨hmove, _⟩
      · rw [heq, hslot _ hbi]
      · exact absurd (Option.some.inj hmove).symm hbi

/-- The last bucket has been moved: from now on, the old table is not used. -/
lemma Inv.finish (h : Inv e s L c) (hm : s.maint = .bump i)
    (hlast : s.expandBucket = 2 ^ (s.hashpower - 1)) :
    Inv e { s with expanding := false, maint := .release i } L c := by
  have hi : s.maint.bucket? = some i := by rw [hm]; rfl
  have hphase := h.ctl.phase
  have hset : Settled e s L c (i % 2 ^ e.lockPower) := by
    have hok := h.maintOK hi
    rw [hm] at hok
    exact hok
  rw [hm] at hphase
  set s' : Assoc τ ι κ := { s with expanding := false, maint := .release i }
  have hsame : ∀ k, SameUnder e k s L c s' L c := by
    intro k
    refine ⟨rfl, fun hv _ => ?_, ?_, fun _ _ _ => rfl, fun _ _ => rfl, fun _ _ => rfl,
      fun _ _ => rfl, fun _ => .inr hlast⟩
    · have hmax : s.hashpower < 32 := h.ctl.powerMax
      have hlt := bucketOf_lt (show s.hashpower - 1 < 32 by omega) hv
      rw [slotOf, slotOf, if_neg (by simp [s']), if_neg (fun hold => by omega)]
    · intro b hlive
      cases b with
      | old j => cases hlive
      | new j => trivial
  refine h.mover hi ⟨h.ctl.power, h.ctl.powerMax, h.ctl.primary, by simp [s'],
    ⟨rfl, hphase.2.2⟩, h.ctl.lockThread, ?_⟩ rfl rfl (fun k _ => hsame k) (hset.congr h.ctl (hsame _))
  intro k
  have hmaint := h.ctl.lockMaint k
  rw [hm] at hmaint
  exact hmaint

/-- `free(old_hashtable)`. -/
lemma Inv.release (h : Inv e s L c) (hm : s.maint = .release i) :
    Inv e { s with old := none, maint := .unlock i } L c := by
  have hi : s.maint.bucket? = some i := by rw [hm]; rfl
  have hphase := h.ctl.phase
  have hset : Settled e s L c (i % 2 ^ e.lockPower) := by
    have hok := h.maintOK hi
    rw [hm] at hok
    exact hok
  rw [hm] at hphase
  obtain ⟨hexp, hlt⟩ := hphase
  set s' : Assoc τ ι κ := { s with old := none, maint := .unlock i }
  have hsame : ∀ k, SameUnder e k s L c s' L c := by
    intro k
    refine ⟨rfl, fun _ _ => rfl, fun _ => id, fun b _ hlive => ?_, fun _ _ => rfl, fun _ _ => rfl,
      fun _ _ => rfl, id⟩
    cases b with
    | old j => exact absurd (hexp.symm.trans hlive) nofun
    | new j => rfl
  have hdone : s.expanding ≠ true := by simp [hexp]
  refine h.mover hi ⟨h.ctl.power, h.ctl.powerMax, h.ctl.primary, (fun he => absurd he hdone),
    ⟨hlt, fun he => absurd he hdone⟩, h.ctl.lockThread, ?_⟩ rfl rfl (fun k _ => hsame k)
    (hset.congr h.ctl (hsame _))
  intro k
  have hmaint := h.ctl.lockMaint k
  rw [hm] at hmaint
  exact hmaint

omit [DecidableEq ι] in
/-- What is locked changes, and whose it is. -/
lemma Ctl.relock (h : Ctl e s) {locks : ℕ → Option (LockOwner τ)} {threads : τ → AssocAt ι κ}
    {pc : MaintAt ι} (started : Bool) (hphase : s.PhaseOK pc)
    (hthread : ∀ k t, locks k = some (.thread t) ↔ (threads t).hv?.map e.lockOf = some k)
    (hmaint : ∀ k, locks k = some .maint ↔
      pc.bucket?.map (fun b => bucketOf e.lockPower b.toUInt32) = some k) :
    Ctl e { s with locks := locks, threads := threads, maint := pc, startedExpanding := started } :=
  ⟨h.power, h.powerMax, h.primary, h.old, hphase.congr rfl rfl rfl, hthread, hmaint⟩

/-- The maintenance thread goes on without a lock. -/
lemma Inv.maintFree (h : Inv e s L c) {pc : MaintAt ι} (started : Bool)
    (hfree : s.maint.bucket? = none) (hpc : pc.bucket? = none) (hphase : s.PhaseOK pc) :
    Inv e { s with startedExpanding := started, maint := pc } L c := by
  have hno : ∀ k, s.locks k ≠ some .maint := by
    intro k hk
    rw [h.ctl.lockMaint, hfree] at hk
    cases hk
  refine ⟨h.ctl.relock started hphase h.ctl.lockThread ?_, fun k => ?_⟩
  · intro k
    rw [hpc]
    exact iff_of_false (hno k) nofun
  · exact HolderOK.congr h.ctl ((SameUnder.refl e k s L c).control ..) rfl (fun _ _ => rfl)
      (fun hk => absurd hk (hno k)) (h.holder k)

/-- `assoc_start_expand`. -/
lemma Inv.signal (h : Inv e s L c) :
    Inv e { s with startedExpanding := true, maint := s.maint.signal } L c := by
  have hbucket : s.maint.signal.bucket? = s.maint.bucket? := by cases s.maint <;> rfl
  have hphase : s.PhaseOK s.maint.signal := by
    have hphase := h.ctl.phase
    revert hphase
    cases s.maint <;> exact id
  refine ⟨h.ctl.relock true hphase h.ctl.lockThread ?_, fun k => ?_⟩
  · rw [hbucket]
    exact h.ctl.lockMaint
  · refine HolderOK.congr h.ctl ((SameUnder.refl e k s L c).control ..) rfl (fun _ _ => rfl) ?_
      (h.holder k)
    intro hk
    rw [h.ctl.lockMaint] at hk
    revert hk
    cases s.maint <;> first | exact fun _ => rfl | exact nofun

/-- `item_trylock(expand_bucket)`. -/
lemma Inv.trylock (h : Inv e s L c) (hm : s.maint = .top) (hexp : s.expanding = true)
    (hfree : s.locks (bucketOf e.lockPower s.expandBucket.toUInt32) = none) :
    Inv e { s with
      locks := Function.update s.locks (bucketOf e.lockPower s.expandBucket.toUInt32) (some .maint)
      maint := .load s.expandBucket } L c := by
  set k₀ := bucketOf e.lockPower s.expandBucket.toUInt32
  have hphase := h.ctl.phase
  rw [hm] at hphase
  refine ⟨h.ctl.relock _ ⟨hexp, rfl, hphase hexp⟩ ?_ ?_, fun k => ?_⟩
  · intro k t
    rw [← h.ctl.lockThread, Function.update_apply]
    split
    · next hk => simp [hk, hfree]
    · rfl
  · intro k
    rw [Function.update_apply]
    split
    · next hk => simp [hk, MaintAt.bucket?, k₀]
    · next hk =>
      have hno := h.ctl.lockMaint k
      rw [hm] at hno
      simp [hno, MaintAt.bucket?, k₀, Ne.symm hk]
  · have hsame : SameUnder e k s L c { s with
        locks := Function.update s.locks k₀ (some .maint)
        maint := .load s.expandBucket } L c := (SameUnder.refl e k s L c).control ..
    by_cases hk : k = k₀
    · subst hk
      unfold HolderOK
      simp only [Function.update_self]
      have hok := h.holder k₀
      unfold HolderOK at hok
      rw [hfree] at hok
      exact Settled.congr h.ctl hsame hok
    · refine HolderOK.congr h.ctl hsame (Function.update_of_ne hk ..) (fun _ _ => rfl) ?_ (h.holder k)
      intro hk'
      rw [h.ctl.lockMaint, hm] at hk'
      cases hk'

/-- `item_trylock_unlock`. -/
lemma Inv.maintUnlock (h : Inv e s L c) (hm : s.maint = .unlock i) :
    Inv e { s with
      locks := Function.update s.locks (bucketOf e.lockPower i.toUInt32) none
      maint := .top } L c := by
  have hi : s.maint.bucket? = some i := by rw [hm]; rfl
  have hset := h.maintOK hi
  have hphase := h.ctl.phase
  rw [hm] at hset hphase
  rw [h.ctl.bucket_mod hi]
  set k₀ := i % 2 ^ e.lockPower
  have howner : s.locks k₀ = some .maint := by
    rw [h.ctl.lockMaint, hi, Option.map_some, h.ctl.bucket_mod hi]
  refine ⟨h.ctl.relock _ hphase.2 ?_ ?_, fun k => ?_⟩
  · intro k t
    rw [← h.ctl.lockThread, Function.update_apply]
    split
    · next hk => simp [hk, howner]
    · rfl
  · intro k
    rw [Function.update_apply]
    split
    · simp [MaintAt.bucket?]
    · next hk =>
      have hno := h.ctl.lockMaint k
      rw [hi, Option.map_some, h.ctl.bucket_mod hi] at hno
      simp [hno, MaintAt.bucket?, Ne.symm hk, k₀]
  · have hsame : SameUnder e k s L c { s with
        locks := Function.update s.locks k₀ none
        maint := .top } L c := (SameUnder.refl e k s L c).control ..
    by_cases hk : k = k₀
    · subst hk
      unfold HolderOK
      simp only [Function.update_self]
      exact Settled.congr h.ctl hsame hset
    · refine HolderOK.congr h.ctl hsame (Function.update_of_ne hk ..) (fun _ _ => rfl) ?_ (h.holder k)
      intro hk'
      rw [h.ctl.lockMaint, hi, Option.map_some, h.ctl.bucket_mod hi, Option.some.injEq] at hk'
      exact absurd hk'.symm hk

variable {o : List (AssocObs ι κ)}

/-- **A step of the maintenance thread.**  It keeps the invariant, with the same items. -/
theorem Inv.stepMaint (h : Inv e s L c) (hs : s.stepMaint e = some (s', o)) :
    (∃ L', Inv e s' L' c) ∧ o = [] := by
  unfold Assoc.stepMaint at hs
  have hphase := h.ctl.phase
  have hgo : ∀ {i pc}, s.maint.bucket? = some i → pc.bucket? = some i → s.PhaseOK pc →
      MoverOK e s L c (i % 2 ^ e.lockPower) pc → Inv e (s.mgoto pc) L c := fun hi hpc hph hok =>
    h.moverWrites hi (.refl ..) hpc hph (fun _ _ => rfl) hok
  cases hm : s.maint with
  | top =>
    simp only [hm] at hs
    rw [hm] at hphase
    split at hs
    · next hexp =>
      cases hfree : s.locks (bucketOf e.lockPower s.expandBucket.toUInt32) with
      | some owner =>
        simp only [hfree, Option.some.injEq, Prod.mk.injEq] at hs
        obtain ⟨rfl, rfl⟩ := hs
        exact ⟨⟨L, h⟩, rfl⟩
      | none =>
        simp only [hfree, Option.some.injEq, Prod.mk.injEq] at hs
        obtain ⟨rfl, rfl⟩ := hs
        exact ⟨⟨L, h.trylock hm hexp hfree⟩, rfl⟩
    · next hexp =>
      cases hs
      exact ⟨⟨L, h.maintFree false (by rw [hm]; rfl) rfl (by simpa [PhaseOK] using hexp)⟩, rfl⟩
  | load i =>
    have hok := h.maintOK (i := i) (by rw [hm]; rfl)
    rw [hm] at hphase hok
    simp only [hm, h.ctl.head?_old hphase.1 hphase.2.2, Option.some.injEq, Prod.mk.injEq] at hs
    obtain ⟨rfl, rfl⟩ := hs
    refine ⟨⟨L, hgo (by rw [hm]; rfl) rfl hphase ⟨hok.toMoving _, ?_⟩⟩, rfl⟩
    rw [Function.update_eq_self]
    exact hok.chains
  | move i p =>
    rw [hm] at hphase hs
    cases p with
    | none =>
      simp only [h.ctl.head?_old hphase.1 hphase.2.2, Option.some.injEq, Prod.mk.injEq] at hs
      obtain ⟨rfl, rfl⟩ := hs
      exact ⟨⟨L, h.moveEnd hm⟩, rfl⟩
    | some it =>
      simp only [h.ctl.head?_new, Option.some.injEq, Prod.mk.injEq] at hs
      obtain ⟨rfl, rfl⟩ := hs
      obtain ⟨rest, _, hinv⟩ := h.move hm
      exact ⟨⟨_, hinv⟩, rfl⟩
  | push i it nxt =>
    simp only [hm, Option.some.injEq, Prod.mk.injEq] at hs
    obtain ⟨rfl, rfl⟩ := hs
    obtain ⟨L', _, hinv⟩ := h.push hm
    exact ⟨⟨L', hinv⟩, rfl⟩
  | clear i =>
    simp only [hm, Option.some.injEq, Prod.mk.injEq] at hs
    obtain ⟨rfl, rfl⟩ := hs
    exact ⟨⟨L, h.clear hm⟩, rfl⟩
  | bump i =>
    have hok := h.maintOK (i := i) (by rw [hm]; rfl)
    rw [hm] at hphase hok
    have hmax : s.hashpower < 32 := h.ctl.powerMax
    simp only [hm, hashsize_toNat (show s.hashpower - 1 < 32 by omega)] at hs
    split at hs <;> cases hs
    · next hlast => exact ⟨⟨L, h.finish hm hlast⟩, rfl⟩
    · next hlast =>
      obtain ⟨hexp, heb, hlt⟩ := hphase
      exact ⟨⟨L, hgo (by rw [hm]; rfl) rfl ⟨hlt, fun _ => by omega⟩ hok⟩, rfl⟩
  | release i =>
    simp only [hm, Option.some.injEq, Prod.mk.injEq] at hs
    obtain ⟨rfl, rfl⟩ := hs
    exact ⟨⟨L, h.release hm⟩, rfl⟩
  | unlock i =>
    simp only [hm, Option.some.injEq, Prod.mk.injEq] at hs
    obtain ⟨rfl, rfl⟩ := hs
    exact ⟨⟨L, h.maintUnlock hm⟩, rfl⟩
  | reset =>
    simp only [hm, Option.some.injEq, Prod.mk.injEq] at hs
    obtain ⟨rfl, rfl⟩ := hs
    rw [hm] at hphase
    exact ⟨⟨L, h.maintFree _ (by rw [hm]; rfl) rfl hphase⟩, rfl⟩
  | waiting => simp [hm] at hs
  | woken => simp [hm] at hs

/-! ## Locks and expansion -/

section Locks

variable [DecidableEq τ] {t : τ}

/-- `item_lock`. -/
lemma Inv.lock (h : Inv e s L c) (ht : s.threads t = .idle) (hfree : s.locks (e.lockOf hv) = none) :
    Inv e (goto { s with locks := Function.update s.locks (e.lockOf hv) (some (.thread t)) } t
      (.held hv)) L c := by
  have hnot : ∀ k, s.locks k ≠ some (.thread t) := by
    intro k hk
    rw [h.ctl.lockThread, ht] at hk
    cases hk
  refine ⟨h.ctl.relock _ h.ctl.phase ?_ ?_, fun k => ?_⟩
  · intro k t'
    dsimp only
    by_cases htt : t' = t
    · subst htt
      rw [Function.update_self, Function.update_apply]
      split
      · next hk => simp [AssocAt.hv?, hk]
      · next hk => exact iff_of_false (hnot k) (by simp [AssocAt.hv?, Ne.symm hk])
    · rw [Function.update_of_ne htt, ← h.ctl.lockThread, Function.update_apply]
      split
      · next hk => simp [hk, hfree, Ne.symm htt]
      · rfl
  · intro k
    dsimp only
    rw [← h.ctl.lockMaint, Function.update_apply]
    split
    · next hk => simp [hk, hfree]
    · rfl
  · have hsame : SameUnder e k s L c (goto { s with
        locks := Function.update s.locks (e.lockOf hv) (some (.thread t)) } t (.held hv)) L c :=
      (SameUnder.refl e k s L c).control ..
    by_cases hk : k = e.lockOf hv
    · subst hk
      have hok := h.holder (e.lockOf hv)
      unfold HolderOK at hok ⊢
      rw [hfree] at hok
      simp only [goto, Function.update_self]
      exact Settled.congr h.ctl hsame hok
    · refine HolderOK.congr h.ctl hsame (Function.update_of_ne hk ..) ?_ (fun _ => rfl) (h.holder k)
      intro t' ht'
      refine Function.update_of_ne ?_ ..
      rintro rfl
      exact hnot k ht'

/-- `item_unlock`. -/
lemma Inv.unlock (h : Inv e s L c) (ht : s.threads t = .held hv) :
    Inv e (goto { s with locks := Function.update s.locks (e.lockOf hv) none } t .idle) L c := by
  have hhv : (s.threads t).hv? = some hv := by rw [ht]; rfl
  have hown : ∀ k, s.locks k = some (.thread t) ↔ e.lockOf hv = k := by
    intro k
    rw [h.ctl.lockThread, hhv, Option.map_some, Option.some.injEq]
  have hset := h.thread hhv
  rw [ht] at hset
  refine ⟨h.ctl.relock _ h.ctl.phase ?_ ?_, fun k => ?_⟩
  · intro k t'
    dsimp only
    by_cases htt : t' = t
    · subst htt
      rw [Function.update_self, Function.update_apply]
      refine iff_of_false ?_ nofun
      split
      · exact nofun
      · next hk => exact fun hk' => hk ((hown k).1 hk').symm
    · rw [Function.update_of_ne htt, ← h.ctl.lockThread, Function.update_apply]
      split
      · next hk => simp [hk, (hown (e.lockOf hv)).2 rfl, Ne.symm htt]
      · rfl
  · intro k
    dsimp only
    rw [← h.ctl.lockMaint, Function.update_apply]
    split
    · next hk => simp [hk, (hown (e.lockOf hv)).2 rfl]
    · rfl
  · have hsame : SameUnder e k s L c (goto { s with
        locks := Function.update s.locks (e.lockOf hv) none } t .idle) L c :=
      (SameUnder.refl e k s L c).control ..
    by_cases hk : k = e.lockOf hv
    · subst hk
      unfold HolderOK
      simp only [goto, Function.update_self]
      exact Settled.congr h.ctl hsame hset
    · refine HolderOK.congr h.ctl hsame (Function.update_of_ne hk ..) ?_ (fun _ => rfl) (h.holder k)
      intro t' ht'
      refine Function.update_of_ne ?_ ..
      rintro rfl
      exact hk ((hown k).1 ht').symm

omit [DecidableEq τ] [DecidableEq ι] in
/-- What is in the list of a settled entry is what is reached from it. -/
lemma Settled.reached (h : Ctl e s) (hs : Settled e s L c (e.lockOf hv)) (hk : e.hash (e.key it) = hv) :
    c it = true ↔ Reached s.hNext (s.headOf (s.slotOf hv)) it := by
  subst hk
  rw [hs.stripe.mem_slotOf h rfl]
  exact chain_mem (hs.chains _ (h.slotLock_slotOf _) (live_slotOf s _))

/-- A disciplined call begins. -/
lemma Inv.call (h : Inv e s L c) {call : AssocCall ι κ} (ht : s.threads t = .held hv)
    (hok : Disciplined e s (.call t call)) : Inv e (s.goto t (.test hv call)) L c := by
  have hhv : (s.threads t).hv? = some hv := by rw [ht]; rfl
  have hset := h.thread hhv
  rw [ht] at hset
  refine h.work hhv (.refl ..) rfl (fun _ _ => rfl) (fun _ _ => rfl) ⟨hset, ?_⟩
  have hcall := hok hv ht
  cases call with
  | find key => exact hcall
  | insert it =>
    obtain ⟨hhash, hnew⟩ := hcall
    refine ⟨hhash, fun it' hit' hkey => hnew it' ?_ hkey⟩
    exact (Settled.reached h.ctl hset (by rw [hkey, hhash])).1 hit'
  | delete key =>
    obtain ⟨hhash, it, hreach, rfl⟩ := hcall
    exact ⟨hhash, it, (Settled.reached h.ctl hset hhash).2 hreach, rfl⟩

omit [DecidableEq τ] in
/-- Nobody holds a lock: everything is settled. -/
lemma Inv.settled (h : Inv e s L c) (hidle : ∀ t, s.threads t = .idle)
    (hfree : s.maint.bucket? = none) (k : ℕ) : s.locks k = none ∧ Settled e s L c k := by
  have hnone : s.locks k = none := by
    cases hk : s.locks k with
    | none => rfl
    | some owner =>
      cases owner with
      | thread t =>
        rw [h.ctl.lockThread, hidle t] at hk
        cases hk
      | maint =>
        rw [h.ctl.lockMaint, hfree] at hk
        cases hk
  refine ⟨hnone, ?_⟩
  have hok := h.holder k
  unfold HolderOK at hok
  rwa [hnone] at hok

/-- All items are in the old table. -/
def allOld (L : HashSlot → List ι) : HashSlot → List ι
  | .old j => L (.new j)
  | .new _ => []

omit [DecidableEq τ] in
/-- **`assoc_expand`**, while all threads are paused: all items are in the old table now. -/
lemma Inv.expand (h : Inv e s L c) (hm : s.maint = .woken) (hidle : ∀ t, s.threads t = .idle)
    (hmax : s.hashpower + 1 < hashpowerMax) (calloc : Bool) :
    ∃ L', Inv e ((s.assocExpand calloc).mgoto .top) L' c := by
  have hphase := h.ctl.phase
  rw [hm] at hphase
  have hexp : s.expanding ≠ true := by simp [show s.expanding = false from hphase]
  have hall := h.settled hidle (by rw [hm]; rfl)
  have hno : ∀ k, s.locks k ≠ some .maint := fun k => by simp [(hall k).1]
  cases calloc with
  | false => exact ⟨L, h.maintFree _ (by rw [hm]; rfl) rfl (fun hexp' => absurd hexp' hexp)⟩
  | true =>
    have hslot : ∀ hv, s.slotOf hv = .new (bucketOf s.hashpower hv) := fun hv => by
      rw [slotOf, if_neg fun hold => hexp hold.1]
    have hslot' : ∀ hv, ((s.assocExpand true).mgoto .top).slotOf hv =
        .old (bucketOf s.hashpower hv) := fun hv => by
      rw [slotOf, if_pos ⟨rfl, Nat.zero_le _⟩]
      rfl
    refine ⟨allOld L, ⟨?_, hmax, hashsize_toNat hmax, fun _ => ⟨s.primary, rfl, h.ctl.primary⟩, ?_,
      h.ctl.lockThread, ?_⟩, fun k => ?_⟩
    · exact h.ctl.power.trans (Nat.lt_succ_self _)
    · exact fun _ => Nat.two_pow_pos _
    · exact fun k => iff_of_false (hno k) (by simp [mgoto, MaintAt.bucket?])
    · unfold HolderOK
      rw [show ((s.assocExpand true).mgoto .top).locks k = none from (hall k).1]
      obtain ⟨hs, hchains⟩ := (hall k).2
      have hold : ∀ j it, slotLock e (.old j) = k → it ∈ allOld L (.old j) →
          j = bucketOf s.hashpower (e.hash (e.key it)) := by
        intro j it hj hit
        rcases hs.home (.new j) it hj hit with heq | ⟨hmove, _⟩
        · rw [hslot] at heq
          cases heq
          rfl
        · cases hmove
      refine ⟨⟨?_, ?_, by simp, hs.uniq, ?_⟩, ?_⟩
      · intro b it hb hit
        left
        rw [hslot']
        cases b with
        | old j => rw [hold j it hb hit]
        | new j => cases hit
      · intro it hk
        rw [hs.mem it hk]
        refine or_congr_left ⟨?_, ?_⟩
        · rintro ⟨b, hb, hit⟩
          rcases hs.home b it hb hit with heq | ⟨hmove, _⟩
          · rw [hslot] at heq
            subst heq
            exact ⟨.old _, hb, hit⟩
          · cases hmove
        · rintro ⟨b, hb, hit⟩
          cases b with
          | old j => exact ⟨.new j, hb, hit⟩
          | new j => cases hit
      · intro i j it _ _ _ hit
        cases hit
      · intro b hb _
        cases b with
        | old j => exact hchains (.new j) hb trivial
        | new j => rfl

/-! ## All runs -/

variable [DecidableEq κ] {tr : List (AssocObs ι κ)} {o : List (AssocObs ι κ)} {l : AssocLabel τ ι κ}

/-- **The invariant is kept**, and what is observed is right. -/
theorem Inv.step (h : Inv e s L c) (hok : Disciplined e s l) (hs : Assoc.step e s l = some (s', o)) :
    AllRight after (Right e) c o ∧ ∃ L', Inv e s' L' (o.foldl after c) := by
  cases l with
  | lock t hv =>
    simp only [Assoc.step] at hs
    split at hs <;> cases hs
    next ht hfree => exact ⟨trivial, L, h.lock ht hfree⟩
  | unlock t =>
    simp only [Assoc.step] at hs
    split at hs <;> cases hs
    next ht => exact ⟨trivial, L, h.unlock ht⟩
  | call t call =>
    simp only [Assoc.step] at hs
    split at hs <;> cases hs
    next ht => exact ⟨trivial, L, h.call ht hok⟩
  | work t => exact h.stepWork hs
  | maint =>
    obtain ⟨hinv, rfl⟩ := h.stepMaint hs
    exact ⟨trivial, hinv⟩
  | expand calloc =>
    simp only [Assoc.step] at hs
    split at hs <;> cases hs
    next hm => exact ⟨trivial, h.expand hm hok.1 hok.2 calloc⟩
  | start n =>
    simp only [Assoc.step, assocStartExpand, Option.some.injEq, Prod.mk.injEq] at hs
    obtain ⟨rfl, rfl⟩ := hs
    refine ⟨trivial, L, ?_⟩
    split
    · exact h
    · split
      · exact h.signal
      · exact h
  | wake =>
    simp only [Assoc.step] at hs
    split at hs <;> cases hs
    next hm =>
      have hphase := h.ctl.phase
      rw [hm] at hphase
      exact ⟨trivial, L, h.maintFree _ (by rw [hm]; rfl) rfl hphase⟩

omit [DecidableEq τ] [DecidableEq κ] in
/-- The table is empty at first. -/
lemma inv_init {hp : ℕ} (next : ι → Option ι) (hpow : e.lockPower < hp) (hmax : hp < hashpowerMax) :
    Inv e (init hp next : Assoc τ ι κ) (fun _ => []) fun _ => false := by
  refine ⟨⟨hpow, hmax, hashsize_toNat hmax, nofun, nofun, ?_, ?_⟩,
    fun k => ⟨⟨?_, ?_, nofun, nofun, ?_⟩, ?_⟩⟩
  · exact fun k t => iff_of_false nofun nofun
  · exact fun k => iff_of_false nofun nofun
  · intro b it _ hit
    cases hit
  · intro it _
    simp
  · intro i j it _ _ hit
    cases hit
  · intro b _ _
    cases b <;> rfl

/-- What a whole run keeps: the invariant, and that all that has been observed was right. -/
lemma Inv.run {hp : ℕ} {next : ι → Option ι} (hpow : e.lockPower < hp) (hmax : hp < hashpowerMax)
    (hr : Run (Assoc.step e) (Disciplined e) (init hp next : Assoc τ ι κ) tr s) :
    AllRight after (Right e) (fun _ => false) tr ∧ ∃ L, Inv e s L (linkedAfter tr) := by
  refine hr.history (fun c s => ∃ L, Inv e s L c) ⟨_, inv_init next hpow hmax⟩ ?_
  rintro c s l s' o ⟨L, hinv⟩ hok hs
  exact hinv.step hok hs

variable {hp : ℕ} {next : ι → Option ι}

/-- **The hash table is a set of items.**  In every run, with any number of threads and while the table
is expanded, `assoc_find` returns the item with the key if there is one and nothing otherwise,
`assoc_delete` deletes what is there, and no access is out of bounds or to a table that has been
freed. -/
theorem assoc_right (hpow : e.lockPower < hp) (hmax : hp < hashpowerMax)
    (hr : Run (Assoc.step e) (Disciplined e) (init hp next : Assoc τ ι κ) tr s)
    {pre post : List (AssocObs ι κ)} {ob : AssocObs ι κ} (htr : tr = pre ++ ob :: post) :
    Right e (linkedAfter pre) ob :=
  (htr ▸ (Inv.run hpow hmax hr).1).at

/-- Items that are their own keys and hash values, and two item locks. -/
def numbered : Hashing ℕ ℕ := ⟨id, fun k => k.toUInt32, 1⟩

/-- An item is inserted, the table is expanded, and the item is found, before its bucket is moved. -/
def insertExpandFind : List (AssocLabel Unit ℕ ℕ) :=
  [.lock () 5, .call () (.insert 5), .work (), .work (), .work (), .unlock (), .maint, .maint, .wake,
    .expand true, .lock () 5, .call () (.find 5), .work (), .work (), .work (), .work ()]

/-- Its steps are disciplined. -/
lemma insertExpandFind_guarded :
    Guarded (Assoc.step numbered) (Disciplined numbered) (init 2 fun _ => none) insertExpandFind := by
  refine ⟨trivial, ?_, trivial, trivial, trivial, trivial, trivial, trivial, trivial,
    ⟨fun _ => rfl, by decide⟩, trivial, ?_, trivial, trivial, trivial, trivial, trivial⟩
  · rintro hv hheld
    cases hheld
    exact ⟨rfl, fun it hit => nomatch hit⟩
  · rintro hv hheld
    cases hheld
    rfl

lemma insertExpandFind_guarded_take :
    Guarded (Assoc.step numbered) (Disciplined numbered) (init 2 fun _ => none)
      (insertExpandFind.take 10) := by
  obtain ⟨h₁, h₂, h₃, h₄, h₅, h₆, h₇, h₈, h₉, h₁₀, _⟩ := insertExpandFind_guarded
  exact ⟨h₁, h₂, h₃, h₄, h₅, h₆, h₇, h₈, h₉, h₁₀, trivial⟩

theorem assoc_right_found :
    Answer numbered (linkedAfter ([.inserted 5] : List (AssocObs ℕ ℕ))) 5 (some 5) := by
  obtain ⟨s, tr, hr, htr⟩ := Run.exists_of_exec (Assoc.step numbered) (init 2 fun _ => none)
    insertExpandFind (fun r => r.2) [.inserted 5, .found 5 (some 5)] rfl insertExpandFind_guarded
  exact assoc_right (by decide) (by decide) hr
    (show tr = [.inserted 5] ++ .found 5 (some 5) :: [] from htr)

/-- **No item is lost or in two buckets.**  Behind an entry whose item lock is free, there are the items
that are in the table and are searched in this entry, and no others. -/
theorem assoc_content (hpow : e.lockPower < hp) (hmax : hp < hashpowerMax)
    (hr : Run (Assoc.step e) (Disciplined e) (init hp next : Assoc τ ι κ) tr s) (hlive : s.Live b)
    (hfree : s.locks (slotLock e b) = none) :
    Reached s.hNext (s.headOf b) it ↔
      linkedAfter tr it = true ∧ b = s.slotOf (e.hash (e.key it)) := by
  obtain ⟨_, L, hinv⟩ := Inv.run hpow hmax hr
  have hset : Settled e s L (linkedAfter tr) (slotLock e b) := by
    have hok := hinv.holder (slotLock e b)
    unfold HolderOK at hok
    rwa [hfree] at hok
  rw [← chain_mem (hset.chains b rfl hlive)]
  constructor
  · intro hit
    have hlock := hset.stripe.itemLock_eq hinv.ctl rfl hit
    refine ⟨(hset.stripe.mem it hlock).2 (.inl ⟨b, rfl, hit⟩), ?_⟩
    exact (hset.stripe.home b it rfl hit).resolve_right fun hmove => nomatch hmove.1
  · rintro ⟨hit, hslot⟩
    have hlock : itemLock e it = slotLock e b := by
      rw [hslot, hinv.ctl.slotLock_slotOf, itemLock_def]
    rw [hslot]
    exact (hset.stripe.mem_slotOf hinv.ctl hlock).1 hit

theorem assoc_content_found : ∃ s : Assoc Unit ℕ ℕ,
    s.expanding = true ∧ Reached s.hNext (s.headOf (.old 1)) 5 := by
  obtain ⟨s, tr, hr, hs⟩ := Run.exists_of_exec (Assoc.step numbered) (init 2 fun _ => none)
    (insertExpandFind.take 10)
    (fun r => (r.2, r.1.expanding, r.1.locks (slotLock numbered (.old 1)), r.1.slotOf 5))
    ([.inserted 5], true, none, .old 1) rfl insertExpandFind_guarded_take
  simp only [Prod.mk.injEq] at hs
  obtain ⟨rfl, hexp, hfree, hslot⟩ := hs
  have hlive : s.Live (.old 1) := hexp
  exact ⟨s, hexp, (assoc_content (by decide) (by decide) hr hlive hfree).2 ⟨by decide, hslot.symm⟩⟩

/-! ## The end of an expansion -/

variable (e) in
/-- The maintenance thread alone ends the expansion. -/
def Ends (s : Assoc τ ι κ) : Prop :=
  ∃ s', Relation.ReflTransGen (fun s s' => Assoc.step e s .maint = some (s', [])) s s' ∧
    s'.expanding = false ∧ s'.old = none ∧ s'.threads = s.threads

lemma Ends.step (hs : Assoc.step e s .maint = some (s', [])) (ht : s'.threads = s.threads)
    (h : Ends e s') : Ends e s := by
  obtain ⟨s₂, hrun, hexp, hold, hthreads⟩ := h
  exact ⟨s₂, .head hs hrun, hexp, hold, hthreads.trans ht⟩

variable (e c) in
/-- It does so from every state in which it comes to the bucket `n`. -/
def EndsFrom (τ : Type*) [DecidableEq τ] (hp n : ℕ) : Prop :=
  ∀ (s : Assoc τ ι κ) (L : HashSlot → List ι), Inv e s L c → (∀ t, s.threads t = .idle) →
    s.maint = .top → s.expanding = true → s.hashpower = hp → s.expandBucket = n → Ends e s

lemma ends_unlock (h : Inv e s L c) (hidle : ∀ t, s.threads t = .idle) (hm : s.maint = .unlock i)
    (hexp : s.expanding = true) (hnext : EndsFrom e c τ s.hashpower s.expandBucket) : Ends e s := by
  have hs : Assoc.step e s .maint = some ({ s with
      locks := Function.update s.locks (bucketOf e.lockPower i.toUInt32) none
      maint := .top }, []) := by
    simp only [Assoc.step, Assoc.stepMaint, hm]
  exact .step hs rfl (hnext _ L (h.maintUnlock hm) hidle rfl hexp rfl rfl)

lemma ends_bump (h : Inv e s L c) (hidle : ∀ t, s.threads t = .idle) (hm : s.maint = .bump i)
    (hnext : s.expandBucket < 2 ^ (s.hashpower - 1) →
      EndsFrom e c τ s.hashpower s.expandBucket) : Ends e s := by
  have hphase := h.ctl.phase
  rw [hm] at hphase
  obtain ⟨hexp, heb, hlt⟩ := hphase
  have hmax : s.hashpower < 32 := h.ctl.powerMax
  have hsize : (hashsize (s.hashpower - 1)).toNat = 2 ^ (s.hashpower - 1) :=
    hashsize_toNat (by omega)
  by_cases hlast : s.expandBucket = 2 ^ (s.hashpower - 1)
  · have hs : Assoc.step e s .maint =
        some ({ s with expanding := false, maint := .release i }, []) := by
      simp [Assoc.step, Assoc.stepMaint, hm, hsize, hlast]
    exact .step hs rfl ⟨_, .single rfl, rfl, rfl, rfl⟩
  · have hs : Assoc.step e s .maint = some (s.mgoto (.unlock i), []) := by
      simp [Assoc.step, Assoc.stepMaint, hm, hsize, hlast]
    refine .step hs rfl ?_
    have hgo : Inv e (s.mgoto (.unlock i)) L c := by
      have hok := h.maintOK (i := i) (by rw [hm]; rfl)
      rw [hm] at hok
      exact h.moverWrites (by rw [hm]; rfl) (.refl ..) rfl ⟨hlt, fun _ => by omega⟩ (fun _ _ => rfl) hok
    exact ends_unlock hgo hidle rfl hexp (hnext (by omega))

lemma ends_clear (h : Inv e s L c) (hidle : ∀ t, s.threads t = .idle) (hm : s.maint = .clear i)
    (hnext : i + 1 < 2 ^ (s.hashpower - 1) → EndsFrom e c τ s.hashpower (i + 1)) : Ends e s := by
  have hphase := h.ctl.phase
  rw [hm] at hphase
  have heb : s.expandBucket + 1 = i + 1 := by rw [hphase.2.1]
  have hs : Assoc.step e s .maint =
      some ({ s with expandBucket := s.expandBucket + 1, maint := .bump i }, []) := by
    simp [Assoc.step, Assoc.stepMaint, hm]
  refine .step hs rfl ?_
  refine ends_bump (h.clear hm) hidle rfl ?_
  simp only [heb]
  exact hnext

lemma ends_moveEnd (h : Inv e s L c) (hidle : ∀ t, s.threads t = .idle) (hm : s.maint = .move i none)
    (hnext : i + 1 < 2 ^ (s.hashpower - 1) → EndsFrom e c τ s.hashpower (i + 1)) : Ends e s := by
  have hphase := h.ctl.phase
  rw [hm] at hphase
  have hs : Assoc.step e s .maint = some ((s.setHead (.old i) none).mgoto (.clear i), []) := by
    simp only [Assoc.step, Assoc.stepMaint, hm, h.ctl.head?_old hphase.1 hphase.2.2]
  exact .step hs rfl (ends_clear (h.moveEnd hm) hidle rfl hnext)

/-- The loop over the items ends: the old list gets shorter. -/
lemma ends_move {n : ℕ} (h : Inv e s L c) (hn : (L (.old i)).length = n)
    (hidle : ∀ t, s.threads t = .idle) {p : Option ι} (hm : s.maint = .move i p)
    (hnext : i + 1 < 2 ^ (s.hashpower - 1) → EndsFrom e c τ s.hashpower (i + 1)) : Ends e s := by
  induction n generalizing s L p with
  | zero =>
    cases p with
    | none => exact ends_moveEnd h hidle hm hnext
    | some it =>
      obtain ⟨rest, hL, _⟩ := h.move hm
      simp [hL] at hn
  | succ n ih =>
    cases p with
    | none => exact ends_moveEnd h hidle hm hnext
    | some it =>
      obtain ⟨rest, hL, hinv⟩ := h.move hm
      have hs : Assoc.step e s .maint = some ((s.assign (.next it)
          (s.headOf (.new (bucketOf s.hashpower (e.hash (e.key it)))))).mgoto
            (.push i it (s.hNext it)), []) := by
        simp only [Assoc.step, Assoc.stepMaint, hm, h.ctl.head?_new]
      obtain ⟨L', hL', hinv'⟩ := hinv.push rfl
      have hs' : Assoc.step e ((s.assign (.next it)
          (s.headOf (.new (bucketOf s.hashpower (e.hash (e.key it)))))).mgoto
            (.push i it (s.hNext it))) .maint =
          some ((Assoc.setHead _ (.new (bucketOf s.hashpower (e.hash (e.key it)))) (some it)).mgoto
            (.move i (s.hNext it)), []) := rfl
      refine .step hs rfl (.step hs' rfl (ih hinv' ?_ hidle rfl hnext))
      rw [hL', Function.update_self]
      simpa [hL] using hn

lemma ends_load (h : Inv e s L c) (hidle : ∀ t, s.threads t = .idle) (hm : s.maint = .load i)
    (hnext : i + 1 < 2 ^ (s.hashpower - 1) → EndsFrom e c τ s.hashpower (i + 1)) : Ends e s := by
  have hphase := h.ctl.phase
  have hok := h.maintOK (i := i) (by rw [hm]; rfl)
  rw [hm] at hphase hok
  have hs : Assoc.step e s .maint = some (s.mgoto (.move i (s.headOf (.old i))), []) := by
    simp [Assoc.step, Assoc.stepMaint, hm, h.ctl.head?_old hphase.1 hphase.2.2]
  obtain ⟨⟨L', hinv⟩, _⟩ := h.stepMaint hs
  exact .step hs rfl (ends_move hinv rfl hidle rfl hnext)

/-- A bucket to come to is left after the others, as fewer remain. -/
lemma endsFrom (n : ℕ) : ∀ m, 2 ^ (hp - 1) - m = n → EndsFrom e c τ hp m := by
  induction n using Nat.strong_induction_on with
  | _ n ih =>
    rintro m hn s L h hidle hm hexp rfl rfl
    have hphase := h.ctl.phase
    rw [hm] at hphase
    have hlt := hphase hexp
    have hfree := (h.settled hidle (by rw [hm]; rfl) (bucketOf e.lockPower s.expandBucket.toUInt32)).1
    have hs : Assoc.step e s .maint = some ({ s with
        locks := Function.update s.locks (bucketOf e.lockPower s.expandBucket.toUInt32) (some .maint)
        maint := .load s.expandBucket }, []) := by
      simp only [Assoc.step, Assoc.stepMaint, hm, hexp, hfree, if_true]
    exact .step hs rfl (ends_load (h.trylock hm hexp hfree) hidle rfl fun _ => ih _ (by omega) _ rfl)

/-- **An expansion can always be completed.**  From every state that is reached, if no thread holds an
item lock, the maintenance thread moves all buckets that are left and frees the old table, without
waiting for anyone. -/
theorem assoc_expansion_ends (hpow : e.lockPower < hp) (hmax : hp < hashpowerMax)
    (hr : Run (Assoc.step e) (Disciplined e) (init hp next : Assoc τ ι κ) tr s)
    (hexp : s.expanding = true) (hidle : ∀ t, s.threads t = .idle) : Ends e s := by
  obtain ⟨_, L, h⟩ := Inv.run hpow hmax hr
  have hphase := h.ctl.phase
  have hnext : ∀ m, EndsFrom e (linkedAfter tr) τ s.hashpower m := fun m => endsFrom _ m rfl
  have hbusy : s.expanding ≠ false := by simp [hexp]
  cases hm : s.maint with
  | top => exact hnext _ s L h hidle hm hexp rfl rfl
  | load i => exact ends_load h hidle hm fun _ => hnext _
  | move i p => exact ends_move h rfl hidle hm fun _ => hnext _
  | push i it nxt =>
    obtain ⟨L', _, hinv⟩ := h.push hm
    have hs : Assoc.step e s .maint = some ((s.setHead (.new (bucketOf s.hashpower
        (e.hash (e.key it)))) (some it)).mgoto (.move i nxt), []) := by
      simp only [Assoc.step, Assoc.stepMaint, hm]
    exact .step hs rfl (ends_move hinv rfl hidle rfl fun _ => hnext _)
  | clear i => exact ends_clear h hidle hm fun _ => hnext _
  | bump i => exact ends_bump h hidle hm fun _ => hnext _
  | release i =>
    rw [hm] at hphase
    exact absurd hphase.1 hbusy
  | unlock i => exact ends_unlock h hidle hm hexp (hnext _)
  | reset =>
    rw [hm] at hphase
    exact absurd hphase hbusy
  | waiting =>
    rw [hm] at hphase
    exact absurd hphase hbusy
  | woken =>
    rw [hm] at hphase
    exact absurd hphase hbusy

theorem assoc_expansion_ends_here : ∃ s : Assoc Unit ℕ ℕ, s.expanding = true ∧ Ends numbered s := by
  obtain ⟨s, tr, hr, hs⟩ := Run.exists_of_exec (Assoc.step numbered) (init 2 fun _ => none)
    (insertExpandFind.take 10) (fun r => (r.1.expanding, r.1.threads ())) (true, .idle) rfl
    insertExpandFind_guarded_take
  simp only [Prod.mk.injEq] at hs
  exact ⟨s, hs.1, assoc_expansion_ends (by decide) (by decide) hr hs.1 fun _ => hs.2⟩

/-! ## A signal that is lost -/

/-- The expansion has been asked for, and the maintenance thread does not know. -/
structure Asleep (s : Assoc τ ι κ) (n : ℕ) : Prop where
  power : s.hashpower = n
  expanding : s.expanding = false
  started : s.startedExpanding = true
  maint : s.maint = .reset ∨ s.maint = .waiting

omit [DecidableEq ι] [DecidableEq τ] [DecidableEq κ] in
lemma Asleep.setHead {n : ℕ} (h : Asleep s n) (p : Option ι) : Asleep (s.setHead b p) n := by
  cases b <;> exact ⟨h.power, h.expanding, h.started, h.maint⟩

omit [DecidableEq τ] [DecidableEq κ] in
lemma Asleep.assign {n : ℕ} (h : Asleep s n) (pos : ItemPos ι) (p : Option ι) :
    Asleep (s.assign pos p) n := by
  cases pos with
  | slot b => exact h.setHead p
  | next it => exact ⟨h.power, h.expanding, h.started, h.maint⟩

omit [DecidableEq ι] [DecidableEq κ] in
lemma Asleep.goto {n : ℕ} (h : Asleep s n) (t : τ) (pc : AssocAt ι κ) : Asleep (s.goto t pc) n :=
  ⟨h.power, h.expanding, h.started, h.maint⟩

/-- It stays so. -/
lemma Asleep.step {n : ℕ} (h : Asleep s n) (hl : l ≠ .wake)
    (hs : Assoc.step e s l = some (s', o)) : Asleep s' n := by
  cases l with
  | lock t hv =>
    simp only [Assoc.step] at hs
    split at hs <;> cases hs
    exact ⟨h.power, h.expanding, h.started, h.maint⟩
  | unlock t =>
    simp only [Assoc.step] at hs
    split at hs <;> cases hs
    exact ⟨h.power, h.expanding, h.started, h.maint⟩
  | call t call =>
    simp only [Assoc.step] at hs
    split at hs <;> cases hs
    exact h.goto ..
  | work t =>
    change Assoc.stepWork e s t = some (s', o) at hs
    unfold Assoc.stepWork at hs
    repeat' split at hs
    all_goals cases hs
    all_goals
      first
        | exact h
        | exact h.goto ..
        | exact (h.assign ..).goto ..
        | exact (h.setHead _).goto ..
  | maint =>
    change Assoc.stepMaint e s = some (s', o) at hs
    unfold Assoc.stepMaint at hs
    rcases h.maint with hm | hm
    · simp only [hm, Option.some.injEq, Prod.mk.injEq] at hs
      obtain ⟨rfl, rfl⟩ := hs
      exact ⟨h.power, h.expanding, h.started, .inr rfl⟩
    · simp [hm] at hs
  | expand calloc =>
    simp only [Assoc.step] at hs
    rcases h.maint with hm | hm <;> simp [hm] at hs
  | start k =>
    simp only [Assoc.step, assocStartExpand, h.started, if_true, Option.some.injEq,
      Prod.mk.injEq] at hs
    obtain ⟨rfl, rfl⟩ := hs
    exact h
  | wake => exact absurd rfl hl

/-- **A signal can be lost for ever.**  If `assoc_start_expand` finds the table full between the reset
of `started_expanding` and `pthread_cond_wait`, its signal wakes nobody, and since `started_expanding`
is set, no later call signals again: in no run after it, unless `pthread_cond_wait` returns without a
signal, is the table expanded, however many items it has. -/
theorem assoc_lost_signal {n : UInt64} (hm : s.maint = .reset) (hexp : s.expanding = false)
    (hfull : (hashsize s.hashpower * 3 / 2).toUInt64 < n) (hmax : s.hashpower < hashpowerMax)
    (hs : Assoc.step e s (.start n) = some (s', o)) {s₂ : Assoc τ ι κ}
    (hr : Run (Assoc.step e) (fun _ l => l ≠ .wake) s' tr s₂) :
    s₂.hashpower = s.hashpower ∧ s₂.expanding = false := by
  have hstart : Asleep s' s.hashpower := by
    simp only [Assoc.step, assocStartExpand, Option.some.injEq, Prod.mk.injEq] at hs
    obtain ⟨rfl, rfl⟩ := hs
    split
    · next hstarted => exact ⟨rfl, hexp, hstarted, .inl hm⟩
    · rw [if_pos ⟨hfull, hmax⟩, hm]
      exact ⟨rfl, hexp, rfl, .inl rfl⟩
  have hend := hr.inv (fun s => Asleep s _) hstart fun s l s' o hs hl hstep => hs.step hl hstep
  exact ⟨hend.power, hend.expanding⟩

theorem assoc_lost_signal_here : ∃ s s₁ s₂ : Assoc Unit ℕ ℕ,
    exec (Assoc.step numbered) (init 2 fun _ => none) [.maint] = some (s, []) ∧
      Assoc.step numbered s (.start 100) = some (s₁, []) ∧
      exec (Assoc.step numbered) s₁ [.maint, .start 1000000] = some (s₂, []) ∧
      s₂.hashpower = 2 ∧ s₂.expanding = false := by
  refine ⟨{ init 2 (fun _ => none) with maint := .reset },
    { init 2 (fun _ => none) with maint := .reset, startedExpanding := true },
    { init 2 (fun _ => none) with maint := .waiting, startedExpanding := true }, rfl, rfl, rfl, ?_⟩
  have hr : Run (Assoc.step numbered) (fun (_ : Assoc Unit ℕ ℕ) l => l ≠ .wake)
      { init 2 (fun _ => none) with maint := .reset, startedExpanding := true } []
      { init 2 (fun _ => none) with maint := .waiting, startedExpanding := true } :=
    .of_exec (show exec _ _ [.maint, .start 1000000] = some _ from rfl) (guarded_of_forall (by simp))
  exact assoc_lost_signal (s := { init 2 (fun _ => none) with maint := .reset }) (n := 100) (o := [])
    rfl rfl (by decide) (by decide) rfl hr

end Locks

end Moves

end Assoc

end Skq.Mem
