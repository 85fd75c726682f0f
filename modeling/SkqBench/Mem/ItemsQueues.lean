import SkqBench.Mem.ItemsLife

/-!
# Items and their queues

The operations that move an item between the queues keep `Sound`, and so do the threads that start at a
queue: `lru_pull_tail` and the crawler come to an item without a reference and without its lock.
-/

namespace Skq.Mem

open Lib

namespace ItemCache

variable {τ ι κ : Type*} [DecidableEq τ] [DecidableEq ι] [Fintype τ] {cfg : ItemSettings κ}
  {s s' s₁ : ItemCache τ ι κ} {g g' : Lru.History ι} {U : List ι} {op : ItemOp ι κ}
  {rest new : List (ItemOp ι κ)} {it : ι} {a b : τ} {c : ℕ} {o : List (ItemObs κ)} {k : κ}

/-! ## The queues -/

section Lists

omit [DecidableEq τ] [Fintype τ]

/-- An item enters a queue. -/
lemma mem_linked {y : ι} {d : ℕ} :
    y ∈ (g.after (.linked it c)).lists d ↔ d = c ∧ y = it ∨ y ∈ g.lists d := by
  simp only [Lru.History.after]
  by_cases hd : d = c
  · subst hd
    rw [Function.update_self, List.mem_cons]
    simp
  · rw [Function.update_of_ne hd]
    simp [hd]

/-- An item leaves its queue. -/
lemma mem_unlinked {y : ι} {d : ℕ} (hy : y ≠ it) :
    y ∈ (g.after (.unlinked it)).lists d ↔ y ∈ g.lists d :=
  List.mem_erase_of_ne hy

/-- `do_item_link_q`. -/
lemma inv_linkInto (hinv : ∃ L, Lru.Inv s.lru L g) (hout : ∀ c, it ∉ g.lists c) (c : ℕ) :
    ∃ L, Lru.Inv (s.linkInto it c).lru L (g.after (.linked it c)) := by
  obtain ⟨L, hi⟩ := hinv
  refine ⟨_, hi.link fun d hin => hout d ?_⟩
  rw [← hi.items]
  exact Lru.mem_itemsOf.2 hin

/-- `do_item_unlink_q`. -/
lemma inv_unlinkFrom (hinv : ∃ L, Lru.Inv s.lru L g) (hin : it ∈ g.lists (s.lru.clsid it)) :
    (∃ L, Lru.Inv (s.unlinkFrom it).lru L (g.after (.unlinked it))) ∧
      ∀ c, it ∉ (g.after (.unlinked it)).lists c := by
  obtain ⟨L, hi⟩ := hinv
  rw [← hi.items, Lru.mem_itemsOf] at hin
  obtain ⟨L', hi', hout⟩ := hi.unlink hin
  refine ⟨⟨L', hi'⟩, fun c hc => hout c ?_⟩
  rw [← hi'.items] at hc
  exact Lru.mem_itemsOf.1 hc

omit [DecidableEq ι] in
/-- The head of a queue is in it. -/
lemma head_ne (hinv : ∃ L, Lru.Inv s.lru L g) (hout : it ∉ g.lists c) :
    s.lru.queues.head c ≠ some (.item it) := by
  obtain ⟨L, hi⟩ := hinv
  rw [hi.holds.head_eq]
  intro heq
  rw [← hi.items, Lru.mem_itemsOf] at hout
  exact hout (List.mem_of_mem_head? heq)

omit [DecidableEq ι] in
/-- The queue of an item is that of its class. -/
lemma class_of_mem (hinv : ∃ L, Lru.Inv s.lru L g) (hin : it ∈ g.lists c) : s.lru.clsid it = c := by
  obtain ⟨L, hi⟩ := hinv
  rw [← hi.items, Lru.mem_itemsOf] at hin
  exact hi.cls c it hin

end Lists

/-! ## One item moves -/

section Requeue

/-- An operation that moves an item between queues, under its lock. -/
lemma Sound.requeue (hs : Sound cfg s g) (htodo : (s.actors a).todo = op :: rest) (hit : it ∈ op.under)
    (new : List (ItemOp ι κ)) (x : CacheItem κ) (lru : Lru ι) (hinv : ∃ L, Lru.Inv lru L g')
    (hcls : ∀ y, y ≠ it → lru.clsid y = s.lru.clsid y)
    (hlists : ∀ y, y ≠ it → ∀ c, y ∈ g'.lists c ↔ y ∈ g.lists c) (henabled : lru.enabled = s.lru.enabled)
    (hkey : x.key = (s.items it).key) (hlinked : x.linked = (s.items it).linked)
    (hslabbed : x.slabbed = (s.items it).slabbed)
    (hwaiting : ∀ b, b ≠ a → ∀ c, s.lruLocks c = some b → it ∈ g.lists c → it ∈ g'.lists c)
    (hsearch : ∀ op' ∈ rest, ∀ c, op'.search = some (c, .item it) → it ∈ g.lists c → it ∈ g'.lists c)
    (hdrops : ∀ y, (new.flatMap ItemOp.drops).count y = op.drops.count y)
    (howes : ∀ b, Owes cfg new b ↔ ∃ k, op.lockKey = some k ∧ cfg.bucket k = b)
    (howesLru : ∀ c, OwesLru new c ↔ op.lruLock = some c)
    (hcount : x.refcount.toNat + (if ItemOp.isLinkQ it (new ++ rest).head? then 1 else 0) =
      (s.items it).refcount.toNat + if ItemOp.isLinkQ it (some op) then 1 else 0)
    (hqueued : (∀ op', (new ++ rest).head? = some op' → it ∉ op'.atQueue) →
      (it ∈ g'.lists (lru.clsid it) ↔ (s.items it).linked = true))
    (hhead : ∀ y ∈ op.atQueue, y = it) (hhead' : ∀ op' ∈ new, ∀ y ∈ op'.atQueue, y = it)
    (hunlinks : op.unlinks = []) (halloc : ∀ op' ∈ new, op'.isAlloc = false)
    (hprog : ∀ s' : ItemCache τ ι κ, s'.items = Function.update s.items it x → s'.lru = lru →
      Prog cfg s' g' [] rest → Prog cfg s' g' [] (new ++ rest)) :
    Sound cfg (setTodo { s with items := Function.update s.items it x, lru := lru } a
      (new ++ rest)) g' := by
  have hg : Goes s (setTodo { s with items := Function.update s.items it x, lru := lru } a (new ++ rest))
    a op new rest _ := .of_todo htodo rfl rfl fun op' hop' h => by simp [halloc op' hop'] at h
  have hself : Function.update s.items it x it = x := Function.update_self ..
  have hnode : ∀ {c n}, n ≠ .item it → s.Waiting g c n → (setTodo { s with
      items := Function.update s.items it x, lru := lru } a (new ++ rest)).Waiting g' c n := by
    intro c n hn hw
    cases n with
    | item y => exact (hlists y (fun h => hn (by rw [h])) c).2 hw
    | crawler d => exact ⟨hw.1, by rw [← hw.2]; exact congrFun henabled c⟩
  have he : Edits cfg s (setTodo { s with items := Function.update s.items it x, lru := lru } a
      (new ++ rest)) g g' a op new rest _ it :=
    { goes := hg
      got := fun y _ => hdrops y
      items := fun y hy => Function.update_of_ne hy ..
      cls := hcls
      lists := hlists
      use := .inr ⟨by rw [← hkey]; exact congrArg CacheItem.key hself, hs.under_locked htodo hit,
        .inl (hs.under_refs htodo hit)⟩
      waiting := fun b hb c n hlock hw => by
        by_cases hn : n = .item it
        · subst hn
          exact hwaiting b hb c hlock hw
        · exact hnode hn hw }
  obtain ⟨hok, _⟩ := hs.ok htodo
  have hrest := he.own_prog hs (hok.apart it (.inl hit)) (by
      intro hl
      refine .inl ?_
      rw [← hlinked, ← hl]
      exact congrArg CacheItem.linked hself.symm)
    (by simp [hunlinks]) fun op' hop' c n hsr hw => by
      by_cases hn : n = .item it
      · subst hn
        exact hsearch op' hop' c hsr hw
      · exact hnode hn hw
  refine hs.of_edits he hinv ?_ (fun h => ?_) (fun k y => ?_) ?_ hhead (fun op' hop' y hy => ?_)
    (fun _ _ _ => Iff.rfl) (fun b => ?_) (fun _ _ _ => Iff.rfl) (fun c => ?_) (hprog _ rfl rfl hrest)
    fun y hy => ?_
  · simp only [setTodo, setActor, hself, hlinked, hdrops]
    omega
  · simp only [setTodo, setActor, hself, hslabbed] at h
    have hno := hs.not_slabbed (hs.under_refs htodo hit)
    rw [h] at hno
    cases hno
  · have htable : (setTodo { s with items := Function.update s.items it x, lru := lru } a
      (new ++ rest)).table = s.table := rfl
    have hitems : (setTodo { s with items := Function.update s.items it x, lru := lru } a
      (new ++ rest)).items = Function.update s.items it x := rfl
    rw [htable, hitems, hs.table]
    by_cases hy : y = it
    · subst hy
      rw [hself, hlinked, hkey]
    · rw [Function.update_of_ne hy]
  · simp only [setTodo, setActor, hself, hlinked]
    exact hqueued
  · rcases List.mem_append.1 (List.mem_of_mem_head? hop') with hnew | hrest
    · exact hhead' op' hnew y hy
    · simp [hok.quiet op' hrest] at hy
  · rw [owes_append, howes, ← owes_cons, ← htodo]
    exact hs.locks b a
  · rw [owesLru_append, howesLru, ← owesLru_cons, ← htodo]
    exact hs.lruLocks c a
  · simp only [setTodo, setActor, Function.update_self] at hy
    exact hs.item_fresh hg (fun y _ => hdrops y) (fun y hy => Function.update_of_ne hy ..)
      (hs.under_item htodo hit) hy

end Requeue

/-! ## Operations on queues -/

section Ops

lemma keep_itemLinkQ (hs : Sound cfg s g) (hroom : Roomy s)
    (htodo : (s.actors a).todo = .itemLinkQ it :: rest) (h : s.itemLinkQ it = some (s₁, new, o)) :
    .broken ∉ o ∧ ∃ g', Sound cfg (s₁.setTodo a (new ++ rest)) g' := by
  obtain ⟨hok, hrest⟩ := hs.ok htodo
  have hunder : it ∈ (ItemOp.itemLinkQ (κ := κ) it).under := by simp [ItemOp.under]
  obtain ⟨hlinked, hout⟩ := hok.holds
  have hone : ((s.items it).refcount + 1).toNat = (s.items it).refcount.toNat + 1 :=
    refcount_succ (by have hlt := hroom it; omega)
  simp only [itemLinkQ] at h
  split at h
  · cases h
    refine ⟨by simp [check, head_ne hs.lru (hout _)], g.after (.linked it (s.lru.clsid it)), ?_⟩
    refine hs.requeue htodo hunder [] { s.items it with refcount := (s.items it).refcount + 1 }
      _ (inv_linkInto hs.lru hout _) (fun y hy => Function.update_of_ne hy ..)
      (fun y hy c => by rw [mem_linked]; simp [hy]) rfl rfl rfl rfl
      (fun _ _ c _ hin => mem_linked.2 (.inr hin)) (fun _ _ c _ hin => mem_linked.2 (.inr hin))
      (by simp [ItemOp.drops]) (by simp [ItemOp.lockKey]) (by simp [ItemOp.lruLock]) ?_ (fun _ => ?_)
      (by simp [ItemOp.atQueue]) (by simp) rfl (by simp) fun _ _ _ h => h
    · rw [isLinkQ_of_quiet _ (hs.head_quiet htodo (by simp)), hone]
      simp [ItemOp.isLinkQ]
    · refine iff_of_true (mem_linked.2 (.inl ⟨?_, rfl⟩)) hlinked
      simp [linkInto, Lru.doItemLinkQ]
  · cases h

lemma keep_itemMoveQ (hs : Sound cfg s g) (htodo : (s.actors a).todo = .itemMoveQ it c :: rest)
    (h : s.itemMoveQ it c = some (s₁, new, o)) :
    .broken ∉ o ∧ ∃ g', Sound cfg (s₁.setTodo a (new ++ rest)) g' := by
  obtain ⟨hok, hrest⟩ := hs.ok htodo
  have hunder : it ∈ (ItemOp.itemMoveQ (κ := κ) it c).under := by simp [ItemOp.under]
  obtain ⟨hlinked, hout⟩ := hok.holds
  have hsame : Function.update s.items it (s.items it) = s.items := Function.update_eq_self ..
  simp only [itemMoveQ] at h
  split at h
  · cases h
    refine ⟨by simp [check, head_ne hs.lru (hout _)], g.after (.linked it c), ?_⟩
    have hmove := hs.requeue htodo hunder [] (s.items it)
      _ (inv_linkInto hs.lru hout c) (fun y hy => Function.update_of_ne hy ..)
      (fun y hy c => by rw [mem_linked]; simp [hy]) rfl rfl rfl rfl
      (fun _ _ c _ hin => mem_linked.2 (.inr hin)) (fun _ _ c _ hin => mem_linked.2 (.inr hin))
      (by simp [ItemOp.drops]) (by simp [ItemOp.lockKey]) (by simp [ItemOp.lruLock]) (by
        rw [isLinkQ_of_quiet _ (hs.head_quiet htodo (by simp))]
        simp [ItemOp.isLinkQ]) (fun _ => iff_of_true (mem_linked.2 (.inl ⟨by
          simp [linkInto, Lru.doItemLinkQ], rfl⟩)) hlinked)
      (by simp [ItemOp.atQueue]) (by simp) rfl (by simp) fun _ _ _ h => h
    rwa [hsame] at hmove
  · cases h

lemma keep_itemUnlinkQ {nolock : Bool} (hs : Sound cfg s g)
    (htodo : (s.actors a).todo = .itemUnlinkQ it nolock :: rest)
    (h : s.itemUnlinkQ a it nolock = some (s₁, new, o)) :
    .broken ∉ o ∧ ∃ g', Sound cfg (s₁.setTodo a (new ++ rest)) g' := by
  obtain ⟨hok, hrest⟩ := hs.ok htodo
  have hunder : it ∈ (ItemOp.itemUnlinkQ (κ := κ) it nolock).under := by simp [ItemOp.under]
  obtain ⟨hlinked, hin⟩ := hok.holds
  obtain ⟨hinv, hout⟩ := inv_unlinkFrom hs.lru hin
  have hsame : Function.update s.items it (s.items it) = s.items := Function.update_eq_self ..
  by_cases hlock : s.lruLocks (s.lru.clsid it) = if nolock then some a else none
  · rw [itemUnlinkQ, if_pos hlock] at h
    cases h
    refine ⟨by simp, g.after (.unlinked it), ?_⟩
    have hmove := hs.requeue htodo hunder [] (s.items it) _ hinv (fun _ _ => rfl)
      (fun y hy c => mem_unlinked hy) rfl rfl rfl rfl (fun b hb c hc hin => ?_)
      (fun op' hop' c hsr hin => ?_) (by simp [ItemOp.drops]) (by simp [ItemOp.lockKey])
      (by simp [ItemOp.lruLock]) (by
        rw [isLinkQ_of_quiet _ (hs.head_quiet htodo (by simp))]
        simp [ItemOp.isLinkQ]) (fun _ => iff_of_false (hout _) (by simp [hlinked]))
      (by simp [ItemOp.atQueue]) (by simp) rfl (by simp) fun _ _ _ h => h
    · rwa [hsame] at hmove
    · rw [class_of_mem hs.lru hin, hc] at hlock
      cases nolock with
      | true => exact absurd (Option.some.inj hlock) hb
      | false => cases hlock
    · rw [class_of_mem hs.lru hin] at hlock
      cases nolock with
      | true => exact absurd rfl (hok.passed it (by simp [ItemOp.nolock]) op' hop' c _ hsr)
      | false =>
        have hheld : s.lruLocks c = some a := (hs.lruLocks c a).2
          ⟨op', by simp [htodo, hop'], ItemOp.lruLock_of_search hsr⟩
        rw [hheld] at hlock
        cases hlock
  · rw [itemUnlinkQ, if_neg hlock] at h
    cases h

lemma keep_doItemUpdate (hs : Sound cfg s g) (htodo : (s.actors a).todo = .doItemUpdate it :: rest)
    (h : s.doItemUpdate cfg it = some (s₁, new, o)) :
    .broken ∉ o ∧ ∃ g', Sound cfg (s₁.setTodo a (new ++ rest)) g' := by
  obtain ⟨hok, hrest⟩ := hs.ok htodo
  have hunder : it ∈ (ItemOp.doItemUpdate (κ := κ) it).under := by simp [ItemOp.under]
  have hnothing : Sound cfg (s.setTodo a ([] ++ rest)) g :=
    hs.goOn htodo (by simp [SameDues, ItemOp.drops, ItemOp.lockKey, ItemOp.lruLock, ItemOp.atQueue]) hrest
  have htime : ∀ now, Sound cfg ((s.setItem it { s.items it with time := now }).setTodo a
      ([] ++ rest)) g := fun now =>
    hs.rewrite htodo hunder _ s.casId rfl rfl rfl rfl (by simp [SameDues, ItemOp.drops, ItemOp.lockKey,
      ItemOp.lruLock, ItemOp.atQueue]) rfl fun _ _ _ h => h
  have hheld : ∃ op ∈ rest, it ∈ op.drops := by
    simpa [ItemOp.drops] using hok.held it (ItemOp.under_needs hunder)
  -- the item is taken out of its queue, and is to be put into another one
  have hmove : ∀ (x : CacheItem κ) (c : ℕ), s.lruLocks (s.lru.clsid it) = none →
      (s.items it).linked = true → x.key = (s.items it).key → x.linked = (s.items it).linked →
      x.slabbed = (s.items it).slabbed → x.refcount = (s.items it).refcount →
      ∃ g', Sound cfg (((s.setItem it x).unlinkFrom it).setTodo a ([.itemMoveQ it c] ++ rest)) g' := by
    intro x c hfree hlinked hkey hl hslabbed hrefcount
    have hin : it ∈ g.lists (s.lru.clsid it) :=
      (hs.queue_of_lock htodo (hs.under_locked htodo hunder) (by simp [ItemOp.atQueue])).2 hlinked
    obtain ⟨hinv, hout⟩ := inv_unlinkFrom hs.lru hin
    refine ⟨g.after (.unlinked it), hs.requeue htodo hunder _ x _ hinv (fun _ _ => rfl)
      (fun y hy c => mem_unlinked hy) rfl hkey hl hslabbed (fun b hb d hd hin => ?_)
      (fun op' hop' d hsr hin => ?_) (by simp [ItemOp.drops]) (by simp [ItemOp.lockKey])
      (by simp [ItemOp.lruLock]) (by simp [ItemOp.isLinkQ, hrefcount]) (fun hq => ?_)
      (by simp [ItemOp.atQueue]) (by simp [ItemOp.atQueue]) rfl (by simp [ItemOp.isAlloc])
      fun s' hitems hlru hp => ?_⟩
    · rw [class_of_mem hs.lru hin, hd] at hfree
      cases hfree
    · have hheld : s.lruLocks d = some a := (hs.lruLocks d a).2
        ⟨op', by simp [htodo, hop'], ItemOp.lruLock_of_search hsr⟩
      rw [class_of_mem hs.lru hin, hheld] at hfree
      cases hfree
    · exact absurd (by simp [ItemOp.atQueue]) (hq _ rfl)
    · have hself : s'.items it = x := by rw [hitems, Function.update_self]
      refine .cons (ok_itemMoveQ ?_ hheld (by rw [hself, hl, hlinked]) hout
        (hok.behind (.inl hunder))) hp
      rw [hself, hkey]
      exact hok.locked it hunder
  simp only [doItemUpdate] at h
  split at h
  · cases h
    exact ⟨by simp, g, hnothing⟩
  next hlinked =>
  have hlinked : (s.items it).linked = true := not_not.1 hlinked
  split at h
  · split at h
    · split at h
      · next hfree =>
        cases h
        exact ⟨by simp, hmove _ _ hfree hlinked rfl rfl rfl rfl⟩
      · cases h
    · split at h
      · cases h
        exact ⟨by simp, g, htime _⟩
      · cases h
        exact ⟨by simp, g, hnothing⟩
  · split at h
    · split at h
      · next hfree =>
        cases h
        exact ⟨by simp, hmove _ _ hfree hlinked rfl rfl rfl rfl⟩
      · cases h
    · cases h
      exact ⟨by simp, g, hnothing⟩

end Ops

/-! ## Coming to an item through its queue -/

section Grab

/-- A thread takes the lock of an item that it has found in a queue, refers to it, and does something
to it and the queue. -/
lemma Sound.grab (hs : Sound cfg s g) (htodo : (s.actors a).todo = op :: rest) (hdrops : op.drops = [])
    (hlock : op.lockKey = none) (hat : op.atQueue = []) (hunlinks : op.unlinks = [])
    (hfree : s.itemLocks (cfg.bucket (s.items it).key) = none) (hlinked : (s.items it).linked = true)
    (hroom : Roomy s) (x : CacheItem κ) (lru : Lru ι) (lruLocks : ℕ → Option τ)
    (hinv : ∃ L, Lru.Inv lru L g') (hcls : ∀ y, y ≠ it → lru.clsid y = s.lru.clsid y)
    (hlists : ∀ y, y ≠ it → ∀ c, y ∈ g'.lists c ↔ y ∈ g.lists c) (henabled : lru.enabled = s.lru.enabled)
    (hkey : x.key = (s.items it).key) (hx : x.linked = (s.items it).linked)
    (hslabbed : x.slabbed = (s.items it).slabbed) (hrefcount : x.refcount = (s.items it).refcount + 1)
    (hwaiting : ∀ b, b ≠ a → ∀ c, s.lruLocks c = some b → it ∈ g.lists c → it ∈ g'.lists c)
    (hsearch : ∀ op' ∈ rest, ∀ c, op'.search = some (c, .item it) → it ∈ g.lists c → it ∈ g'.lists c)
    (hgets : ∀ y, (new.flatMap ItemOp.drops).count y = [it].count y)
    (howes : ∀ b, Owes cfg new b ↔ cfg.bucket (s.items it).key = b)
    (hlruLocks : ∀ c b, b ≠ a → (lruLocks c = some b ↔ s.lruLocks c = some b))
    (hlruLocksA : ∀ c, lruLocks c = some a ↔ OwesLru (new ++ rest) c)
    (hqueued : (∀ op', (new ++ rest).head? = some op' → it ∉ op'.atQueue) →
      it ∈ g'.lists (lru.clsid it))
    (hnew : ∀ op' ∈ new, (∀ y ∈ op'.atQueue, y = it) ∧ ItemOp.isLinkQ it (some op') = false ∧
      op'.isAlloc = false)
    (hprog : ∀ s' : ItemCache τ ι κ, s'.items = Function.update s.items it x → s'.lru = lru →
      Prog cfg s' g' [] rest → Prog cfg s' g' [] (new ++ rest)) :
    Sound cfg (setTodo { s with
      items := Function.update s.items it x, lru := lru
      itemLocks := Function.update s.itemLocks (cfg.bucket (s.items it).key) (some a)
      lruLocks := lruLocks } a (new ++ rest)) g' := by
  have hg : Goes s (setTodo { s with
      items := Function.update s.items it x, lru := lru
      itemLocks := Function.update s.itemLocks (cfg.bucket (s.items it).key) (some a)
      lruLocks := lruLocks } a (new ++ rest))
    a op new rest _ := .of_todo htodo rfl rfl fun op' hop' h => by simp [(hnew op' hop').2.2] at h
  have hself : Function.update s.items it x it = x := Function.update_self ..
  have hnode : ∀ {c n}, n ≠ .item it → s.Waiting g c n → (setTodo { s with
      items := Function.update s.items it x, lru := lru
      itemLocks := Function.update s.itemLocks (cfg.bucket (s.items it).key) (some a)
      lruLocks := lruLocks } a (new ++ rest)).Waiting g' c n := by
    intro c n hn hw
    cases n with
    | item y => exact (hlists y (fun h => hn (by rw [h])) c).2 hw
    | crawler d => exact ⟨hw.1, by rw [← hw.2]; exact congrFun henabled c⟩
  have hnone : ∀ b, b ≠ a → s.itemLocks (cfg.bucket (s.items it).key) ≠ some b := by simp [hfree]
  have he : Edits cfg s (setTodo { s with
      items := Function.update s.items it x, lru := lru
      itemLocks := Function.update s.itemLocks (cfg.bucket (s.items it).key) (some a)
      lruLocks := lruLocks } a (new ++ rest)) g g' a op new rest _ it :=
    { goes := hg
      got := fun y hy => by rw [hgets, hdrops, List.count_nil, List.count_eq_zero]; simpa using hy
      items := fun y hy => Function.update_of_ne hy ..
      cls := hcls
      lists := hlists
      use := .inr ⟨by rw [← hkey]; exact congrArg CacheItem.key hself, hnone, .inr hlinked⟩
      waiting := fun b hb c n hlock hw => by
        by_cases hn : n = .item it
        · subst hn
          exact hwaiting b hb c hlock hw
        · exact hnode hn hw }
  obtain ⟨hok, _⟩ := hs.ok htodo
  have hmem : ∀ op' ∈ rest, op' ∈ (s.actors a).todo := fun op' h => by simp [htodo, h]
  have hfresh : ∀ y, s.Fresh y → y ≠ it := by
    rintro y hf rfl
    rw [hf.linked] at hlinked
    cases hlinked
  have hrest := he.own_prog hs (fun op' hop' => ⟨fun h => ?_, fun h => ?_⟩) (fun _ => .inl hlinked)
    (by simp [hunlinks]) fun op' hop' c n hsr hw => by
      by_cases hn : n = .item it
      · subst hn
        exact hsearch op' hop' c hsr hw
      · exact hnode hn hw
  · refine hs.of_edits he hinv ?_ (fun h => ?_) (fun k y => ?_) (fun hq => ?_) (by simp [hat])
      (fun op' hop' y hy => ?_) (fun b d hd => ?_) (fun b => ?_) hlruLocks hlruLocksA
      (hprog _ rfl rfl hrest) fun y hy => ?_
    · have hquiet : ItemOp.isLinkQ it (new ++ rest).head? = false := by
        cases hhead : (new ++ rest).head? with
        | none => rfl
        | some op' =>
          rcases List.mem_append.1 (List.mem_of_mem_head? hhead) with hin | hin
          · exact (hnew op' hin).2.1
          · exact isLinkQ_of_quiet it (t := some op') fun op'' h => by
              cases h
              exact hok.quiet op' hin
      have hlt := hroom it
      simp only [setTodo, setActor, hself, hx, hdrops, hgets, hquiet, hrefcount,
        isLinkQ_of_quiet it (t := some op) (by simp [hat]), List.count_singleton_self,
        List.count_nil, refcount_succ (r := (s.items it).refcount) (by omega)]
    · simp only [setTodo, setActor, hself, hslabbed] at h
      rw [(hs.free it h).1] at hlinked
      cases hlinked
    · have hitems : (setTodo { s with
        items := Function.update s.items it x, lru := lru
        itemLocks := Function.update s.itemLocks (cfg.bucket (s.items it).key) (some a)
        lruLocks := lruLocks } a (new ++ rest)).items = Function.update s.items it x := rfl
      have htable := hs.table k y
      rw [hitems]
      by_cases hy : y = it
      · subst hy
        rw [hself, hx, hkey]
        exact htable
      · rw [Function.update_of_ne hy]
        exact htable
    · simp only [setTodo, setActor, hself, hx, hlinked]
      exact iff_of_true (hqueued hq) trivial
    · rcases List.mem_append.1 (List.mem_of_mem_head? hop') with hin | hin
      · exact (hnew op' hin).1 y hy
      · simp [hok.quiet op' hin] at hy
    · by_cases hb : b = cfg.bucket (s.items it).key
      · subst hb
        simp [setTodo, setActor, hfree, Ne.symm hd]
      · simp [setTodo, setActor, Function.update_of_ne hb]
    · rw [owes_append, howes]
      by_cases hb : b = cfg.bucket (s.items it).key
      · subst hb
        simp [setTodo, setActor]
      · simp [setTodo, setActor, Function.update_of_ne hb, Ne.symm hb, hs.owes_rest htodo hlock]
    · simp only [setTodo, setActor, Function.update_self] at hy
      refine hs.item_fresh hg (fun y hy => ?_) (fun y hy => Function.update_of_ne hy ..)
        (fun y hy => hfresh y.1 (hs.item a y hy).1) hy
      rw [hgets, hdrops, List.count_nil, List.count_eq_zero]
      simpa using hy
  · have hheld := hs.locked (hmem op' hop') (ItemOp.firm_under h)
    rw [hfree] at hheld
    cases hheld
  · obtain ⟨_, _, hok'⟩ := (hs.progs a).ok (hmem op' hop')
    exact hfresh it (hok'.fresh it h) rfl

end Grab

/-! ## `lru_pull_tail` -/

section Pull

variable {fl : PullFlags} {tries : ℕ} {search : Option (LruNode ι)}

omit [DecidableEq τ] in
/-- An item of a queue whose lock nobody has is linked. -/
lemma Sound.linked_of_mem (hs : Sound cfg s g)
    (hfree : s.itemLocks (cfg.bucket (s.items it).key) = none) (hin : it ∈ g.lists c) :
    (s.items it).linked = true := by
  refine (hs.queued it fun b op hop hit => ?_).1 (by rwa [class_of_mem hs.lru hin])
  have hheld : s.itemLocks (cfg.bucket (s.items it).key) = some b :=
    hs.locked (List.mem_of_mem_head? hop) (ItemOp.firm_under (by simp [ItemOp.firm, hit]))
  rw [hfree] at hheld
  cases hheld

omit [DecidableEq τ] in
/-- Nobody relies on it then. -/
lemma Sound.behind_of_free (hs : Sound cfg s g) (htodo : (s.actors a).todo = op :: rest)
    (hfree : s.itemLocks (cfg.bucket (s.items it).key) = none)
    (hlinked : (s.items it).linked = true) : Behind it rest := by
  intro op' hop'
  have hmem : op' ∈ (s.actors a).todo := by simp [htodo, hop']
  refine ⟨(hs.ok htodo).1.quiet op' hop', fun h => ?_, fun h => ?_⟩
  · have hheld := hs.locked hmem (ItemOp.firm_under h)
    rw [hfree] at hheld
    cases hheld
  · obtain ⟨_, _, hok⟩ := (hs.progs a).ok hmem
    have hno := (hok.fresh it h).linked
    rw [hlinked] at hno
    cases hno

omit [DecidableEq τ] in
/-- The search of a queue is the only one there. -/
lemma Sound.past_of_pull (hs : Sound cfg s g)
    (htodo : (s.actors a).todo = .pullNext c fl tries search :: rest) (hin : it ∈ g.lists c) :
    Past it rest := by
  rintro op' hop' d n hsr rfl
  obtain ⟨_, _, hok⟩ := (hs.progs a).ok (htodo ▸ List.mem_cons_of_mem _ hop')
  have hd : it ∈ g.lists d := hok.search d _ hsr
  rw [← class_of_mem hs.lru hd, class_of_mem hs.lru hin] at hsr
  exact (hs.ok htodo).1.onceLru c rfl ⟨op', hop', ItemOp.lruLock_of_search hsr⟩

/-- What `lru_pull_tail` does to the item it has come to, with its lock and a reference. -/
lemma Sound.pull (hs : Sound cfg s g) (hroom : Roomy s)
    (htodo : (s.actors a).todo = .pullNext c fl tries search :: rest) (hin : it ∈ g.lists c)
    (hfree : s.itemLocks (cfg.bucket (s.items it).key) = none) (new : List (ItemOp ι κ))
    (x : CacheItem κ) (lru : Lru ι) (lruLocks : ℕ → Option τ) (hinv : ∃ L, Lru.Inv lru L g')
    (hcls : ∀ y, y ≠ it → lru.clsid y = s.lru.clsid y)
    (hlists : ∀ y, y ≠ it → ∀ c, y ∈ g'.lists c ↔ y ∈ g.lists c) (henabled : lru.enabled = s.lru.enabled)
    (hkey : x.key = (s.items it).key) (hx : x.linked = (s.items it).linked)
    (hslabbed : x.slabbed = (s.items it).slabbed) (hrefcount : x.refcount = (s.items it).refcount + 1)
    (hgets : ∀ y, (new.flatMap ItemOp.drops).count y = [it].count y)
    (howes : ∀ b, Owes cfg new b ↔ cfg.bucket (s.items it).key = b)
    (hlru : lruLocks = s.lruLocks ∧ (∀ d, OwesLru new d ↔ d = c) ∨
      lruLocks = Function.update s.lruLocks c none ∧ ∀ d, ¬ OwesLru new d)
    (hqueued : (∀ op', (new ++ rest).head? = some op' → it ∉ op'.atQueue) →
      it ∈ g'.lists (lru.clsid it))
    (hnew : ∀ op' ∈ new, (∀ y ∈ op'.atQueue, y = it) ∧ ItemOp.isLinkQ it (some op') = false ∧
      op'.isAlloc = false)
    (hprog : ∀ s' : ItemCache τ ι κ, (s'.items it).key = (s.items it).key →
      (s'.items it).linked = true → s'.lru = lru → ¬ Owes cfg rest (cfg.bucket (s.items it).key) →
      ¬ OwesLru rest c → Behind it rest → Prog cfg s' g' [] rest → Prog cfg s' g' [] (new ++ rest)) :
    Sound cfg (setTodo { s with
      items := Function.update s.items it x, lru := lru
      itemLocks := Function.update s.itemLocks (cfg.bucket (s.items it).key) (some a)
      lruLocks := lruLocks } a (new ++ rest)) g' := by
  obtain ⟨hok, _⟩ := hs.ok htodo
  have hlinked := hs.linked_of_mem hfree hin
  have honce : ¬ OwesLru rest c := hok.onceLru c rfl
  have hheld : s.lruLocks c = some a := (hs.lruLocks c a).2 (by rw [htodo]; exact owesLru_cons.2 (.inl rfl))
  have hlocksA : ∀ d, s.lruLocks d = some a ↔ d = c ∨ OwesLru rest d := fun d => by
    rw [hs.lruLocks, htodo, owesLru_cons]
    simp [ItemOp.lruLock, eq_comm]
  refine hs.grab htodo rfl rfl rfl rfl hfree hlinked hroom x lru lruLocks hinv hcls hlists henabled hkey hx
    hslabbed hrefcount (fun b hb d hd hin' => ?_) (fun op' hop' d hsr _ => ?_) hgets howes
    (fun d b hb => ?_) (fun d => ?_) hqueued hnew fun s' hitems hlru' hp => ?_
  · rw [← class_of_mem hs.lru hin', class_of_mem hs.lru hin, hheld] at hd
    exact absurd (Option.some.inj hd).symm hb
  · exact absurd rfl (hs.past_of_pull htodo hin op' hop' d _ hsr)
  · rcases hlru with ⟨rfl, _⟩ | ⟨rfl, _⟩
    · exact Iff.rfl
    · by_cases hd : d = c
      · subst hd
        simp [hheld, Ne.symm hb]
      · rw [Function.update_of_ne hd]
  · rw [owesLru_append]
    rcases hlru with ⟨rfl, howesLru⟩ | ⟨rfl, howesLru⟩
    · rw [hlocksA, howesLru]
    · by_cases hd : d = c
      · subst hd
        simp [howesLru, honce]
      · rw [Function.update_of_ne hd, hlocksA]
        simp [hd, howesLru]
  · have hself : s'.items it = x := by rw [hitems, Function.update_self]
    exact hprog s' (by rw [hself, hkey]) (by rw [hself, hx, hlinked]) hlru'
      (hs.not_owes htodo (by simp [hfree])) honce (hs.behind_of_free htodo hfree hlinked) hp

end Pull

section PullItem

variable {fl : PullFlags} {tries : ℕ} {excess : Bool} {node : Option (LruNode ι)}

lemma keep_pullItem (hs : Sound cfg s g) (hroom : Roomy s)
    (htodo : (s.actors a).todo = .pullNext c fl (tries + 1) (some (.item it)) :: rest)
    (hfree : s.itemLocks (cfg.bucket (s.items it).key) = none)
    (h : ItemCache.pullItem cfg { s.refcountIncr it with
        itemLocks := Function.update s.itemLocks (cfg.bucket (s.items it).key) (some a) }
      (s.items it).key it c fl excess [.pullNext c fl tries (s.lru.queues.prev (.item it))] =
        some (s₁, new, o)) :
    .broken ∉ o ∧ ∃ g', Sound cfg (s₁.setTodo a (new ++ rest)) g' := by
  obtain ⟨hok, hrest⟩ := hs.ok htodo
  have hin : it ∈ g.lists c := hok.search c _ rfl
  have hcls : s.lru.clsid it = c := class_of_mem hs.lru hin
  have hlinked := hs.linked_of_mem hfree hin
  obtain ⟨hinv, hout⟩ := inv_unlinkFrom hs.lru (by rwa [hcls])
  have hself : (s.refcountIncr it).items it =
      { s.items it with refcount := (s.items it).refcount + 1 } := by simp [refcountIncr, setItem]
  have hitems : ∀ x, Function.update (s.refcountIncr it).items it x = Function.update s.items it x :=
    fun x => by simp [refcountIncr, setItem]
  have hremove : ∀ {s' : ItemCache τ ι κ} {g' : Lru.History ι} {p : List (ItemOp ι κ)},
      (s'.items it).key = (s.items it).key → Behind it p →
      ¬ Owes cfg p (cfg.bucket (s.items it).key) → Prog cfg s' g' [] p →
      Prog cfg s' g' [] (.doItemRemove it :: .itemUnlock (s.items it).key :: p) := by
    intro s' g' p hkey hbehind hnot hp
    refine .cons (ok_doItemRemove (by simp [ItemOp.lockKey, hkey]) (behind_cons.2 ⟨by
      simp [ItemOp.atQueue, ItemOp.firm, ItemOp.fresh, ItemOp.found, ItemOp.nolock], hbehind⟩))
      (.cons (ok_itemUnlock hnot hbehind.quiet) hp)
  -- the item leaves the queue, and enters another one later
  have hmove : ∀ (x : CacheItem κ) (d : ℕ), x.key = (s.items it).key → x.linked = (s.items it).linked →
      x.slabbed = (s.items it).slabbed → x.refcount = (s.items it).refcount + 1 →
      ∃ g', Sound cfg (setTodo { s with
        items := Function.update s.items it x, lru := s.lru.doItemUnlinkQ it
        itemLocks := Function.update s.itemLocks (cfg.bucket (s.items it).key) (some a)
        lruLocks := Function.update s.lruLocks c none } a
          ([.itemMoveQ it d, .doItemRemove it, .itemUnlock (s.items it).key] ++ rest)) g' := by
    intro x d hkey hx hslabbed hrefcount
    refine ⟨_, hs.pull hroom htodo hin hfree _ x _ _ hinv (fun _ _ => rfl) (fun y hy c => mem_unlinked hy)
      rfl hkey hx hslabbed hrefcount (by simp [ItemOp.drops]) (by simp [ItemOp.lockKey])
      (.inr ⟨rfl, by simp [ItemOp.lruLock]⟩) (fun hq => absurd (by simp [ItemOp.atQueue]) (hq _ rfl))
      (by simp [ItemOp.atQueue, ItemOp.isLinkQ, ItemOp.isAlloc])
      fun s' hkey' hl hlru hnot _ hbehind hp => ?_⟩
    refine .cons (ok_itemMoveQ (by simp [ItemOp.lockKey, hkey']) ⟨_, List.mem_cons_self, by
      simp [ItemOp.drops]⟩ hl hout ?_) (hremove hkey' hbehind hnot hp)
    simp [ItemOp.atQueue, ItemOp.firm, ItemOp.fresh, ItemOp.found, ItemOp.nolock, hbehind]
  -- the item stays in its queue, and the search goes on
  have hstay : ∀ (x : CacheItem κ) (lru : Lru ι) (g' : Lru.History ι), x.key = (s.items it).key →
      x.linked = (s.items it).linked → x.slabbed = (s.items it).slabbed →
      x.refcount = (s.items it).refcount + 1 → (∃ L, Lru.Inv lru L g') →
      (∀ y, y ≠ it → lru.clsid y = s.lru.clsid y) →
      (∀ y, y ≠ it → ∀ c, y ∈ g'.lists c ↔ y ∈ g.lists c) → lru.enabled = s.lru.enabled →
      it ∈ g'.lists (lru.clsid it) →
      Sound cfg (setTodo { s with
        items := Function.update s.items it x, lru := lru
        itemLocks := Function.update s.itemLocks (cfg.bucket (s.items it).key) (some a) } a
          ([.doItemRemove it, .itemUnlock (s.items it).key,
            .pullNext c fl tries (s.lru.queues.prev (.item it))] ++ rest)) g' := by
    intro x lru g' hkey hx hslabbed hrefcount hinv' hcls' hlists henabled hin'
    refine hs.pull hroom htodo hin hfree _ x lru s.lruLocks hinv' hcls' hlists henabled hkey hx hslabbed
      hrefcount (by simp [ItemOp.drops]) (by simp [ItemOp.lockKey])
      (.inl ⟨rfl, by simp [ItemOp.lruLock, eq_comm]⟩) (fun _ => hin')
      (by simp [ItemOp.atQueue, ItemOp.isLinkQ, ItemOp.isAlloc])
      fun s' hkey' hl hlru hnot honce hbehind hp => ?_
    refine hremove hkey' (behind_cons.2 ⟨by simp [ItemOp.atQueue, ItemOp.firm, ItemOp.fresh,
      ItemOp.found, ItemOp.nolock], hbehind⟩) (by simpa [ItemOp.lockKey] using hnot)
      (.cons (ok_pullNext (fun m hm => ?_) honce hbehind.quiet) hp)
    obtain ⟨hw, hne⟩ := hs.waiting_prev (hok.search c _ rfl) hm
    cases m with
    | item y => exact (hlists y (fun h => hne (by rw [h])) c).2 hw
    | crawler d => exact ⟨hw.1, by rw [hlru, henabled]; exact hw.2⟩
  simp only [pullItem] at h
  split at h
  · simp only [Option.some.injEq, Prod.mk.injEq] at h
    obtain ⟨rfl, rfl, rfl⟩ := h
    refine ⟨by simp, ?_⟩
    split
    · obtain ⟨hinv', hin'⟩ : (∃ L, Lru.Inv ((s.unlinkFrom it).linkInto it c).lru L
          ((g.after (.unlinked it)).after (.linked it c))) ∧ it ∈
            ((g.after (.unlinked it)).after (.linked it c)).lists c :=
        ⟨inv_linkInto hinv hout c, mem_linked.2 (.inl ⟨rfl, rfl⟩)⟩
      refine ⟨(g.after (.unlinked it)).after (.linked it c), ?_⟩
      have hm := hstay { s.items it with
        refcount := (s.items it).refcount + 1, active := false, time := s.currentTime } _ _ rfl rfl rfl rfl
        hinv' (fun y hy => Function.update_of_ne hy ..)
        (fun y hy d => by rw [mem_linked, mem_unlinked hy]; simp [hy]) rfl
        (by simpa [linkInto, Lru.doItemLinkQ] using hin')
      simp only [setItem, unlinkFrom, linkInto, hitems, hself] at hm ⊢
      exact hm
    · refine ⟨g, ?_⟩
      have hm := hstay { s.items it with
        refcount := (s.items it).refcount + 1, active := false } s.lru g rfl rfl rfl rfl hs.lru
        (fun _ _ => rfl) (fun _ _ _ => Iff.rfl) rfl (by rwa [hcls])
      simp only [setItem, hitems, hself]
      exact hm
  split at h
  · cases h
    refine ⟨by simp, ?_⟩
    have hm := hmove { s.items it with refcount := (s.items it).refcount + 1, active := false }
      (clearLru c + warmLru) rfl rfl rfl rfl
    simp only [setItem, unlinkFrom, lruUnlock, hitems, hself]
    exact hm
  split at h
  · cases h
    refine ⟨by simp, ?_⟩
    have hm := hmove { s.items it with refcount := (s.items it).refcount + 1 }
      (clearLru c + coldLru) rfl rfl rfl rfl
    exact hm
  split at h
  · -- the item is evicted
    cases h
    refine ⟨by simp, g, ?_⟩
    have hm := hs.pull hroom htodo hin hfree [.doItemUnlink it true, .lruUnlock c, .doItemRemove it,
        .itemUnlock (s.items it).key]
      { s.items it with refcount := (s.items it).refcount + 1 } s.lru s.lruLocks hs.lru
      (fun _ _ => rfl) (fun _ _ _ => Iff.rfl) rfl rfl rfl rfl rfl (by simp [ItemOp.drops])
      (by simp [ItemOp.lockKey]) (.inl ⟨rfl, by simp [ItemOp.lruLock, eq_comm]⟩)
      (fun _ => by rwa [hcls]) (by simp [ItemOp.atQueue, ItemOp.isLinkQ, ItemOp.isAlloc])
      fun s' hkey' hl hlru hnot honce hbehind hp => ?_
    · exact hm
    · have hbehind' : Behind it (.doItemRemove it :: .itemUnlock (s.items it).key :: rest) := by
        simp [ItemOp.atQueue, ItemOp.firm, ItemOp.fresh, ItemOp.found, ItemOp.nolock, hbehind]
      refine .cons (ok_doItemUnlink_nolock (by simp [ItemOp.lockKey, hkey'])
        ⟨.doItemRemove it, by simp, by simp [ItemOp.drops]⟩ ?_ ?_ ?_)
        (.cons (ok_lruUnlock (by simp [ItemOp.lruLock, honce]) hbehind'.quiet)
          ((hremove hkey' hbehind hnot hp).mono (by simp)))
      · rw [hlru, hcls]
        simp [ItemOp.lruLock]
      · simp [ItemOp.search, hs.past_of_pull htodo hin]
      · simp [ItemOp.atQueue, ItemOp.firm, ItemOp.fresh, ItemOp.found, ItemOp.nolock, hbehind]
  split at h
  · cases h
    refine ⟨by simp, ?_⟩
    have hm := hmove { s.items it with refcount := (s.items it).refcount + 1, active := false }
      (clearLru c + warmLru) rfl rfl rfl rfl
    simp only [setItem, unlinkFrom, lruUnlock, hitems, hself]
    exact hm
  · cases h
    refine ⟨by simp, g, ?_⟩
    have hm := hs.pull hroom htodo hin hfree [.doItemRemove it, .itemUnlock (s.items it).key]
      { s.items it with refcount := (s.items it).refcount + 1 } s.lru _ hs.lru
      (fun _ _ => rfl) (fun _ _ _ => Iff.rfl) rfl rfl rfl rfl rfl (by simp [ItemOp.drops])
      (by simp [ItemOp.lockKey]) (.inr ⟨rfl, by simp [ItemOp.lruLock]⟩)
      (fun _ => by rwa [hcls]) (by simp [ItemOp.atQueue, ItemOp.isLinkQ, ItemOp.isAlloc])
      fun s' hkey' hl hlru hnot honce hbehind hp => hremove hkey' hbehind hnot hp
    exact hm

lemma keep_pullNext (hs : Sound cfg s g) (hroom : Roomy s)
    (htodo : (s.actors a).todo = .pullNext c fl tries node :: rest)
    (h : s.pullNext cfg a c fl excess tries node = some (s₁, new, o)) :
    .broken ∉ o ∧ ∃ g', Sound cfg (s₁.setTodo a (new ++ rest)) g' := by
  obtain ⟨hok, hrest⟩ := hs.ok htodo
  have hend : Sound cfg ((s.lruUnlock c).setTodo a ([] ++ rest)) g :=
    hs.lruUnlock htodo rfl rfl rfl rfl rfl
  have hnext : ∀ (n : LruNode ι) (tries : ℕ), s.Waiting g c n →
      Sound cfg (s.setTodo a ([.pullNext c fl tries (s.lru.queues.prev n)] ++ rest)) g := by
    intro n tries hn
    refine hs.goOn htodo (by simp [SameDues, ItemOp.drops, ItemOp.lockKey, ItemOp.lruLock,
      ItemOp.atQueue, ItemOp.isAlloc]) (.cons (ok_pullNext (fun m hm => ?_) (hok.onceLru c rfl) hok.quiet)
      hrest)
    exact (hs.waiting_prev hn hm).1
  cases tries with
  | zero =>
    cases h
    exact ⟨by simp, g, hend⟩
  | succ tries =>
    cases node with
    | none =>
      cases h
      exact ⟨by simp, g, hend⟩
    | some n =>
      have hn : s.Waiting g c n := hok.search c n rfl
      cases n with
      | crawler d =>
        simp only [pullNext] at h
        split at h
        · cases h
          exact ⟨by simp, g, hend⟩
        · cases h
          exact ⟨by simp, g, hnext _ _ hn⟩
      | item it =>
        simp only [pullNext] at h
        split at h
        · next hfree =>
          split at h
          · -- the item has expired
            cases h
            have hcls : s.lru.clsid it = c := class_of_mem hs.lru hn
            refine ⟨by simp, g, ?_⟩
            refine hs.pull hroom htodo hn hfree [.doItemUnlink it true, .doItemRemove it,
                .itemUnlock (s.items it).key, .pullNext c fl tries (s.lru.queues.prev (.item it))]
              { s.items it with refcount := (s.items it).refcount + 1 } s.lru s.lruLocks hs.lru
              (fun _ _ => rfl) (fun _ _ _ => Iff.rfl) rfl rfl rfl rfl rfl (by simp [ItemOp.drops])
              (by simp [ItemOp.lockKey]) (.inl ⟨rfl, by simp [ItemOp.lruLock, eq_comm]⟩)
              (fun _ => by rw [hcls]; exact hn) (by simp [ItemOp.atQueue, ItemOp.isLinkQ, ItemOp.isAlloc])
              fun s' hkey' hl hlru hnot honce hbehind hp => ?_
            have hbehind' : Behind it (.pullNext c fl tries (s.lru.queues.prev (.item it)) :: rest) := by
              simp [ItemOp.atQueue, ItemOp.firm, ItemOp.fresh, ItemOp.found, ItemOp.nolock, hbehind]
            refine .cons (ok_doItemUnlink_nolock (by simp [ItemOp.lockKey, hkey']) ⟨_, List.mem_cons_self,
                by simp [ItemOp.drops]⟩ (by rw [hlru, hcls]; simp [ItemOp.lruLock]) ?_ ?_)
              (.cons (ok_doItemRemove (by simp [ItemOp.lockKey, hkey']) ?_)
                (.cons (ok_itemUnlock (by simpa [ItemOp.lockKey] using hnot) hbehind'.quiet)
                  (.cons (ok_pullNext (fun m hm => ?_) honce hbehind.quiet) (hp.mono (by simp)))))
            · refine past_cons.2 ⟨by simp [ItemOp.search], past_cons.2 ⟨by simp [ItemOp.search],
                past_cons.2 ⟨fun d m hm => ?_, hs.past_of_pull htodo hn⟩⟩⟩
              cases hprev : s.lru.queues.prev (.item it) with
              | none =>
                rw [hprev] at hm
                cases hm
              | some m' =>
                rw [hprev] at hm
                cases hm
                exact (hs.waiting_prev hn hprev).2
            · simp [ItemOp.atQueue, ItemOp.firm, ItemOp.fresh, ItemOp.found, ItemOp.nolock, hbehind]
            · simp [ItemOp.atQueue, ItemOp.firm, ItemOp.fresh, ItemOp.found, ItemOp.nolock, hbehind]
            · have hw := (hs.waiting_prev hn hm).1
              cases m with
              | item y => exact hw
              | crawler d => exact ⟨hw.1, by rw [hlru]; exact hw.2⟩
          · exact keep_pullItem hs hroom htodo hfree h
        · cases h
          exact ⟨by simp, g, hnext _ _ hn⟩

end PullItem

/-! ## The crawler -/

section Crawl

variable {expired : Bool}

omit [DecidableEq τ] in
/-- The crawler of a queue that nobody has locked moves. -/
lemma Sound.of_lru (hs : Sound cfg s g) {lru : Lru ι} (hinv : ∃ L, Lru.Inv lru L g')
    (hlists : g'.lists = g.lists) (hcls : lru.clsid = s.lru.clsid)
    (henabled : ∀ d, d ≠ c → lru.enabled d = s.lru.enabled d) (hfree : s.lruLocks c = none) :
    Sound cfg { s with lru := lru } g' := by
  refine ⟨hinv, hs.count, hs.free, hs.table, fun it hq => ?_, hs.locks, hs.lruLocks, fun b => ?_,
    fun b x hx => ⟨⟨(hs.item b x hx).1.linked, (hs.item b x hx).1.refs⟩, (hs.item b x hx).2⟩⟩
  · simp only [hlists, hcls]
    exact hs.queued it hq
  · refine (hs.progs b).congr (fun x hx => by cases hx) (fun _ _ _ _ => rfl)
      (fun _ _ _ _ => ⟨rfl, by rw [hcls], fun c => by rw [hlists]⟩)
      (fun _ _ _ _ h => ⟨h.linked, h.refs⟩) (fun _ _ _ _ h => h) (fun _ _ _ _ _ hl hk => ⟨hl, hk⟩)
      fun op hop d n hsr hw => ?_
    cases n with
    | item it =>
      simp only [Waiting, hlists]
      exact hw
    | crawler e =>
      refine ⟨hw.1, ?_⟩
      simp only
      rw [henabled d ?_]
      · exact hw.2
      · rintro rfl
        have hheld := (hs.lruLocks d b).2 ⟨op, hop, ItemOp.lruLock_of_search hsr⟩
        rw [hfree] at hheld
        cases hheld

lemma keep_crawlItem (hs : Sound cfg s g) (hroom : Roomy s)
    (htodo : (s.actors a).todo = .crawl c expired :: rest) (hfreeLru : s.lruLocks c = none)
    (hin : it ∈ g.lists c) (h : s.crawlItem cfg a c expired it = some (s₁, new, o)) :
    .broken ∉ o ∧ ∃ g', Sound cfg (s₁.setTodo a (new ++ rest)) g' := by
  obtain ⟨hok, hrest⟩ := hs.ok htodo
  have hcls : s.lru.clsid it = c := class_of_mem hs.lru hin
  simp only [crawlItem] at h
  split at h
  · next hfree =>
    obtain ⟨hfree, _⟩ := hfree
    have hlinked := hs.linked_of_mem hfree hin
    have hbehind := hs.behind_of_free htodo hfree hlinked
    have hnot : ¬ Owes cfg rest (cfg.bucket (s.items it).key) := hs.not_owes htodo (by simp [hfree])
    have hnotLru : ¬ OwesLru rest c := hs.not_owesLru htodo (by simp [hfreeLru])
    have hpast : Past it rest := by
      rintro op' hop' d n hsr rfl
      obtain ⟨_, _, hok'⟩ := (hs.progs a).ok (htodo ▸ List.mem_cons_of_mem _ hop')
      have hd : it ∈ g.lists d := hok'.search d _ hsr
      rw [← class_of_mem hs.lru hd, hcls] at hsr
      exact hnotLru ⟨op', hop', ItemOp.lruLock_of_search hsr⟩
    have hlruA : ∀ d, s.lruLocks d = some a ↔ OwesLru rest d := hs.owesLru_rest htodo rfl
    cases expired with
    | false =>
      simp only [Bool.false_eq_true, if_false, Option.some.injEq, Prod.mk.injEq] at h
      obtain ⟨rfl, rfl, rfl⟩ := h
      refine ⟨by simp, g, hs.grab htodo rfl rfl rfl rfl hfree hlinked hroom
        { s.items it with refcount := (s.items it).refcount + 1 } s.lru s.lruLocks hs.lru
        (fun _ _ => rfl) (fun _ _ _ => Iff.rfl) rfl rfl rfl rfl rfl (fun _ _ _ _ h => h)
        (fun _ _ _ _ h => h) (by simp [ItemOp.drops]) (by simp [ItemOp.lockKey]) (fun _ _ _ => Iff.rfl)
        (fun d => ?_) (fun _ => by rwa [hcls]) (by simp [ItemOp.atQueue, ItemOp.isLinkQ, ItemOp.isAlloc])
        fun s' hitems hlru hp => ?_⟩
      · rw [hlruA, owesLru_append]
        simp [ItemOp.lruLock]
      · have hkey : (s'.items it).key = (s.items it).key := by rw [hitems, Function.update_self]
        refine .cons (ok_crawlerEval (by simp [ItemOp.lockKey, hkey]) (fun h => by cases h) ?_ ?_)
          (.cons (ok_itemUnlock hnot hbehind.quiet) hp)
        · exact past_cons.2 ⟨by simp [ItemOp.search], hpast⟩
        · simp [ItemOp.atQueue, ItemOp.firm, ItemOp.fresh, ItemOp.found, ItemOp.nolock, hbehind]
    | true =>
      simp only [if_true, Option.some.injEq, Prod.mk.injEq] at h
      obtain ⟨rfl, rfl, rfl⟩ := h
      refine ⟨by simp, g, hs.grab htodo rfl rfl rfl rfl hfree hlinked hroom
        { s.items it with refcount := (s.items it).refcount + 1 } s.lru _ hs.lru
        (fun _ _ => rfl) (fun _ _ _ => Iff.rfl) rfl rfl rfl rfl rfl (fun _ _ _ _ h => h)
        (fun _ _ _ _ h => h) (by simp [ItemOp.drops]) (by simp [ItemOp.lockKey]) (fun d b hb => ?_)
        (fun d => ?_) (fun _ => by rwa [hcls]) (by simp [ItemOp.atQueue, ItemOp.isLinkQ, ItemOp.isAlloc])
        fun s' hitems hlru hp => ?_⟩
      · by_cases hd : d = c
        · subst hd
          simp [hfreeLru, Ne.symm hb]
        · rw [Function.update_of_ne hd]
      · rw [owesLru_append]
        by_cases hd : d = c
        · subst hd
          simp [ItemOp.lruLock]
        · rw [Function.update_of_ne hd, hlruA]
          simp [ItemOp.lruLock, Ne.symm hd]
      · have hkey : (s'.items it).key = (s.items it).key := by rw [hitems, Function.update_self]
        refine .cons (ok_crawlerEval (by simp [ItemOp.lockKey, hkey]) (fun _ => ?_) ?_ ?_)
          (.cons (ok_itemUnlock (by simpa [ItemOp.lockKey] using hnot) ?_)
            (.cons (ok_lruUnlock hnotLru hbehind.quiet) hp))
        · rw [hlru, hcls]
          simp [ItemOp.lruLock]
        · exact past_cons.2 ⟨by simp [ItemOp.search], past_cons.2 ⟨by simp [ItemOp.search], hpast⟩⟩
        · simp [ItemOp.atQueue, ItemOp.firm, ItemOp.fresh, ItemOp.found, ItemOp.nolock, hbehind]
        · exact List.forall_mem_cons.2 ⟨rfl, hbehind.quiet⟩
  · cases h
    exact ⟨by simp, g, hs.goOn htodo (by simp [SameDues, ItemOp.drops, ItemOp.lockKey, ItemOp.lruLock,
      ItemOp.atQueue]) hrest⟩

lemma keep_crawlerEval (hs : Sound cfg s g) (htodo : (s.actors a).todo = .crawlerEval it expired :: rest)
    (h : s.crawlerEval it expired = some (s₁, new, o)) :
    .broken ∉ o ∧ Sound cfg (s₁.setTodo a (new ++ rest)) g := by
  obtain ⟨hok, hrest⟩ := hs.ok htodo
  have hunder : it ∈ (ItemOp.crawlerEval (κ := κ) it expired).under := by simp [ItemOp.under]
  have hlock := hok.locked it hunder
  have hbehind : Behind it rest := hok.behind (.inl hunder)
  simp only [crawlerEval] at h
  split at h
  · next hexp =>
    cases h
    have hnolock : it ∈ (ItemOp.crawlerEval (κ := κ) it expired).nolock := by simp [ItemOp.nolock, hexp.1]
    refine ⟨by simp, hs.goOn htodo (by simp [SameDues, ItemOp.drops, ItemOp.lockKey, ItemOp.lruLock,
      ItemOp.atQueue, ItemOp.isAlloc]) (.cons (ok_doItemUnlink_nolock ?_ ⟨_, List.mem_cons_self, by
        simp [ItemOp.drops]⟩ ?_ ?_ ?_) (.cons (ok_doItemRemove hlock hbehind) (hrest.mono (by
          simp [ItemOp.unlinks]))))⟩
    · exact owes_cons.2 (.inr hlock)
    · exact owesLru_cons.2 (.inr (hok.nolock it hnolock))
    · exact past_cons.2 ⟨by simp [ItemOp.search], fun op hop => hok.passed it hnolock op hop⟩
    · simp [ItemOp.atQueue, ItemOp.firm, ItemOp.fresh, ItemOp.found, ItemOp.nolock, hbehind]
  · cases h
    exact ⟨by simp, keep_crawlerEval_keep hs htodo⟩

omit [DecidableEq τ] [Fintype τ] in
/-- What a round of the crawler changes, and what it comes to. -/
lemma round_spec (lru : Lru ι) (c : ℕ) : (lru.itemCrawlerRound c).1.clsid = lru.clsid ∧
    (∀ d, d ≠ c → (lru.itemCrawlerRound c).1.enabled d = lru.enabled d) ∧
    ((lru.itemCrawlerRound c).2 = [.finished c] ∨
      (∃ it, (lru.itemCrawlerRound c).2 = [.crawled c it]) ∨
      (lru.itemCrawlerRound c).2 = [.stray c]) := by
  have hdone : ∀ l : Lru ι, (l.lruCrawlerClassDone c).clsid = l.clsid ∧
      ∀ d, d ≠ c → (l.lruCrawlerClassDone c).enabled d = l.enabled d := fun l =>
    ⟨rfl, fun d hd => Function.update_of_ne hd ..⟩
  unfold Lru.itemCrawlerRound Lru.doItemCrawlQ
  cases lru.queues.prev (.crawler c) with
  | none => exact ⟨(hdone _).1, (hdone _).2, .inl rfl⟩
  | some n =>
    simp only
    cases (lru.queues.advance c (.crawler c) n).next (.crawler c) with
    | none => exact ⟨(hdone _).1, (hdone _).2, .inl rfl⟩
    | some m =>
      simp only
      split
      · cases m with
        | item it => exact ⟨rfl, fun _ _ => rfl, .inr (.inl ⟨it, rfl⟩)⟩
        | crawler d => exact ⟨rfl, fun _ _ => rfl, .inr (.inr rfl)⟩
      · split
        · exact ⟨(hdone _).1, (hdone _).2, .inl rfl⟩
        · cases m with
          | item it => exact ⟨rfl, fun _ _ => rfl, .inr (.inl ⟨it, rfl⟩)⟩
          | crawler d => exact ⟨rfl, fun _ _ => rfl, .inr (.inr rfl)⟩

/-- A round of the crawler. -/
lemma keep_crawl (hs : Sound cfg s g) (hroom : Roomy s)
    (htodo : (s.actors a).todo = .crawl c expired :: rest)
    (h : s.crawl cfg a c expired = some (s₁, new, o)) :
    .broken ∉ o ∧ ∃ g', Sound cfg (s₁.setTodo a (new ++ rest)) g' := by
  simp only [crawl] at h
  split at h
  · next hfree =>
    obtain ⟨hfree, hon⟩ := hfree
    obtain ⟨L, hi⟩ := hs.lru
    obtain ⟨hright, L', hi'⟩ := hi.round hon
    obtain ⟨hcls, hen, hobs⟩ := round_spec s.lru c
    generalize s.lru.itemCrawlerRound c = r at *
    obtain ⟨lru, obs⟩ := r
    have hnext : ∀ {g'}, (∃ L, Lru.Inv lru L g') → g'.lists = g.lists →
        Sound cfg { s with lru := lru } g' := fun hinv hlists =>
      hs.of_lru hinv hlists hcls hen hfree
    have hstop : ∀ {g'}, Sound cfg { s with lru := lru } g' →
        Sound cfg (setTodo { s with lru := lru } a ([] ++ rest)) g' := by
      intro g' hs'
      exact hs'.goOn htodo (by simp [SameDues, ItemOp.drops, ItemOp.lockKey, ItemOp.lruLock,
        ItemOp.atQueue]) (hs'.ok htodo).2
    rcases hobs with hobs | ⟨it, hobs⟩ | hobs
    · simp only at hobs
      subst hobs
      cases h
      exact ⟨by simp, _, hstop (hnext ⟨L', hi'⟩ rfl)⟩
    · simp only at hobs
      subst hobs
      have hs' := hnext ⟨L', hi'⟩ rfl
      exact keep_crawlItem hs' hroom htodo hfree hright.1.1 h
    · simp only at hobs
      subst hobs
      exact absurd hright.1 id
  · cases h

end Crawl

end ItemCache

end Skq.Mem
