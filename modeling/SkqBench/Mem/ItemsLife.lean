import SkqBench.Mem.ItemsRules

/-!
# Items live as long as they are referred to

Every step keeps `Sound`.  The operations that change nothing but what is left to do come first, then
those that change an item, and last those that change a queue.
-/

namespace Skq.Mem

open Lib

namespace ItemCache

variable {τ ι κ : Type*} [DecidableEq ι] [Fintype τ] {cfg : ItemSettings κ} {s s' : ItemCache τ ι κ}
  {g g' : Lru.History ι} {U U' : List ι} {op : ItemOp ι κ} {p rest new : List (ItemOp ι κ)} {it : ι}
  {a b : τ} {c : ℕ}

section Keep

variable [DecidableEq τ] {s₁ : ItemCache τ ι κ} {o : List (ItemObs κ)} {k : κ} {comm : Nread}

/-! ## Operations that only go on to others -/

section GoOn

variable {old : Option ι}

lemma keep_doStoreItem (hs : Sound cfg s g)
    (htodo : (s.actors a).todo = .doStoreItem k it comm old :: rest)
    (h : s.doStoreItem k it comm old = some (s₁, new, o)) :
    .broken ∉ o ∧ Sound cfg (s₁.setTodo a (new ++ rest)) g := by
  obtain ⟨hok, hrest⟩ := hs.ok htodo
  have hcalm : AllCalm rest := hok.last rfl
  have hfresh : s.Fresh it := hok.fresh it (by simp [ItemOp.fresh])
  have hkey : (s.items it).key = k := hok.keyed (k, it) List.mem_cons_self
  have hlock : Owes cfg rest (cfg.bucket k) := hkey ▸ hok.locked it (by simp [ItemOp.under])
  have hlinked : ∀ x, old = some x → (s.items x).linked = true := fun x hx =>
    hok.found x (by simp [hx, ItemOp.found])
  have hkeyOld : ∀ x, old = some x → (s.items x).key = k := fun x hx =>
    hok.keyed (k, x) (by simp [ItemOp.keyed, hx])
  have hne : ∀ x, old = some x → x ≠ it := by
    rintro x hx rfl
    have hno := hfresh.linked
    rw [hlinked x hx] at hno
    cases hno
  have hheld : ∃ op ∈ rest, it ∈ op.drops := by
    rcases hok.held it (ItemOp.under_needs (by simp [ItemOp.under])) with hdrop | hheld
    · exact absurd rfl (hne it (by simpa [ItemOp.drops] using hdrop))
    · exact hheld
  have hcalmLink : ∀ op ∈ rest, it ∉ op.gone ∧ ∀ key : ι → κ, op.absent key = none := fun op hop => by
    simp [(hcalm op hop).2.2.1, ItemOp.absent_of_fresh (hcalm op hop).2.1]
  cases old with
  | none =>
    have hdues : ∀ new : List (ItemOp ι κ), new = [] ∨ new = [.doItemLink it] →
        SameDues cfg (.doStoreItem k it comm none) new := by
      rintro new (rfl | rfl) <;>
        simp [SameDues, ItemOp.drops, ItemOp.lockKey, ItemOp.lruLock, ItemOp.atQueue, ItemOp.isAlloc]
    simp only [doStoreItem] at h
    split at h
    · cases h
      exact ⟨by simp, hs.goOn htodo (hdues _ (.inl rfl)) hrest⟩
    · split at h
      · cases h
        exact ⟨by simp, hs.goOn htodo (hdues _ (.inl rfl)) hrest⟩
      · cases h
        refine ⟨by simp, hs.goOn htodo (hdues _ (.inr rfl)) (.cons ?_ hrest)⟩
        exact ok_doItemLink (hkey ▸ hlock) hheld hfresh (by simpa [hkey] using hok.absent k rfl)
          hcalm.behind hcalmLink
  | some x =>
    have hx := hlinked x rfl
    have hkx := hkeyOld x rfl
    have hnx := hne x rfl
    have hremove : ∀ {U}, Prog cfg s g U (.doItemRemove x :: rest) := fun {U} =>
      .cons (ok_doItemRemove (hkx ▸ hlock) hcalm.behind) (hrest.mono (by simp [ItemOp.unlinks]))
    have hbehind : ∀ {y}, Behind y (.doItemRemove x :: rest) := fun {y} => by
      simp [ItemOp.atQueue, ItemOp.firm, ItemOp.fresh, ItemOp.found, ItemOp.nolock, hcalm.behind]
    have hreplace : Prog cfg s g []
        (.doItemUnlink x false :: .doItemLink it :: .doItemRemove x :: rest) := by
      obtain ⟨op, hop, hdrop⟩ := hheld
      refine prog_replace ?_ hx (hkx.trans hkey.symm) hfresh ?_ ⟨_, List.mem_cons_self, by
        simp [ItemOp.drops]⟩ ⟨op, List.mem_cons_of_mem _ hop, hdrop⟩ hbehind hbehind ?_ hremove
      · intro y hy hky
        have htable := (hs.table k y).2 ⟨hy, hky.trans hkey⟩
        rw [(hs.table k x).2 ⟨hx, hkx⟩] at htable
        exact (Option.some.inj htable).symm
      · rw [hkey]
        exact owes_cons.2 (.inr hlock)
      · simpa [ItemOp.gone, ItemOp.absent] using hcalmLink
    have hdues : ∀ new : List (ItemOp ι κ), new = [.doItemRemove x] ∨
        new = [.doItemUpdate x, .doItemRemove x] ∨
        new = [.doItemUnlink x false, .doItemLink it, .doItemRemove x] ∨
        new = [.storeAppend k it comm x] → SameDues cfg (.doStoreItem k it comm (some x)) new := by
      rintro new (rfl | rfl | rfl | rfl) <;>
        simp [SameDues, ItemOp.drops, ItemOp.lockKey, ItemOp.lruLock, ItemOp.atQueue, ItemOp.isAlloc]
    have hupdate : Prog cfg s g [] (.doItemUpdate x :: .doItemRemove x :: rest) := by
      refine .cons (ok_doItemUpdate ?_ ⟨_, List.mem_cons_self, by simp [ItemOp.drops]⟩ hbehind) hremove
      rw [hkx]
      exact owes_cons.2 (.inr hlock)
    have happend : Prog cfg s g [] (.storeAppend k it comm x :: rest) :=
      .cons (ok_storeAppend hlock hheld hfresh hkey hx hkx hcalm) hrest
    simp only [doStoreItem] at h
    split at h
    · cases h
      exact ⟨by simp, hs.goOn htodo (hdues _ (.inr (.inl rfl))) hupdate⟩
    · split at h
      · split at h <;> cases h
        · exact ⟨by simp, hs.goOn htodo (hdues _ (.inr (.inr (.inl rfl)))) hreplace⟩
        · exact ⟨by simp, hs.goOn htodo (hdues _ (.inl rfl)) hremove⟩
      · split at h
        · split at h <;> cases h
          · exact ⟨by simp, hs.goOn htodo (hdues _ (.inl rfl)) hremove⟩
          · exact ⟨by simp, hs.goOn htodo (hdues _ (.inr (.inr (.inr rfl)))) happend⟩
        · cases h
          exact ⟨by simp, hs.goOn htodo (hdues _ (.inr (.inr (.inl rfl)))) hreplace⟩

end GoOn

/-! ## Operations that take a lock or give it back -/

section Locks

variable {todo : List (ItemOp ι κ)}

/-- `item_lock`. -/
lemma keep_itemLock (hs : Sound cfg s g) (htodo : (s.actors a).todo = op :: rest)
    (hlock : op.lockKey = none) (hlru : op.lruLock = none)
    (hdrops : ∀ it, (todo.flatMap ItemOp.drops).count it = op.drops.count it)
    (hat : ∀ op' ∈ op :: todo, op'.atQueue = [])
    (halloc : ∀ op' ∈ todo, op'.isAlloc = false)
    (howes : ∀ b, Owes cfg todo b ↔ cfg.bucket k = b) (howesLru : ∀ c, ¬ OwesLru todo c)
    (hprog : ¬ Owes cfg rest (cfg.bucket k) → Prog cfg s g [] (todo ++ rest))
    (h : s.itemLock cfg a k todo = some (s₁, new, o)) :
    .broken ∉ o ∧ Sound cfg (s₁.setTodo a (new ++ rest)) g := by
  simp only [itemLock] at h
  split at h
  · next hfree =>
    cases h
    have hnot : ¬ Owes cfg rest (cfg.bucket k) := hs.not_owes htodo (by simp [hfree])
    refine ⟨by simp, hs.goOnLocks htodo _ _ s.lruLocks hdrops hat
      (fun op' hop' h => by simp [halloc op' hop'] at h) (fun b c hc => ?_) (fun b => ?_)
      (fun _ _ _ => Iff.rfl) (fun c => ?_) (hprog hnot)⟩
    · by_cases hb : b = cfg.bucket k
      · subst hb
        simp [hfree, Ne.symm hc]
      · rw [Function.update_of_ne hb]
    · rw [owes_append, howes]
      by_cases hb : b = cfg.bucket k
      · subst hb
        simp
      · rw [Function.update_of_ne hb, hs.owes_rest htodo hlock]
        simp [Ne.symm hb]
    · rw [owesLru_append, hs.owesLru_rest htodo hlru]
      simp [howesLru c]
  · cases h

lemma keep_itemGet {use : ItemUse ι} (hs : Sound cfg s g)
    (htodo : (s.actors a).todo = .itemGet k use :: rest)
    (h : s.itemLock cfg a k [.doItemGet k use] = some (s₁, new, o)) :
    .broken ∉ o ∧ Sound cfg (s₁.setTodo a (new ++ rest)) g := by
  obtain ⟨hok, hrest⟩ := hs.ok htodo
  refine keep_itemLock hs htodo rfl rfl (by simp [ItemOp.drops]) (by simp [ItemOp.atQueue])
    (by simp [ItemOp.isAlloc]) (by simp [ItemOp.lockKey]) (by simp [ItemOp.lruLock])
    (fun hnot => .cons (ok_doItemGet (fun x hx => ?_) hnot (hok.last rfl)) hrest) h
  have hheld := hok.held x (ItemOp.fresh_needs hx)
  simp only [ItemOp.drops, List.not_mem_nil, false_or] at hheld
  exact ⟨hok.fresh x hx, hok.keyed (k, x) (List.mem_map.2 ⟨x, hx, rfl⟩), hheld⟩

lemma keep_itemRemove (hs : Sound cfg s g) (htodo : (s.actors a).todo = .itemRemove it :: rest)
    (h : s.itemLock cfg a (s.items it).key [.doItemRemove it, .itemUnlock (s.items it).key] =
      some (s₁, new, o)) :
    .broken ∉ o ∧ Sound cfg (s₁.setTodo a (new ++ rest)) g := by
  obtain ⟨hok, hrest⟩ := hs.ok htodo
  have hbehind : Behind it rest := hok.behind (.inr (by simp [ItemOp.drops]))
  refine keep_itemLock hs htodo rfl rfl (by simp [ItemOp.drops]) (by simp [ItemOp.atQueue])
    (by simp [ItemOp.isAlloc]) (by simp [ItemOp.lockKey]) (by simp [ItemOp.lruLock]) (fun hnot => ?_) h
  refine .cons (ok_doItemRemove (by simp [ItemOp.lockKey]) ?_)
    (.cons (ok_itemUnlock hnot hbehind.quiet) hrest)
  exact behind_cons.2 ⟨by simp [ItemOp.atQueue, ItemOp.firm, ItemOp.fresh, ItemOp.found,
    ItemOp.nolock], hbehind⟩

lemma keep_itemUnlink (hs : Sound cfg s g) (htodo : (s.actors a).todo = .itemUnlink it :: rest)
    (h : s.itemLock cfg a (s.items it).key [.doItemUnlink it false, .itemUnlock (s.items it).key] =
      some (s₁, new, o)) :
    .broken ∉ o ∧ Sound cfg (s₁.setTodo a (new ++ rest)) g := by
  obtain ⟨hok, hrest⟩ := hs.ok htodo
  have hcalm : AllCalm rest := hok.last rfl
  have hbehind : Behind it rest := hcalm.behind
  refine keep_itemLock hs htodo rfl rfl (by simp [ItemOp.drops]) (by simp [ItemOp.atQueue])
    (by simp [ItemOp.isAlloc]) (by simp [ItemOp.lockKey]) (by simp [ItemOp.lruLock]) (fun hnot => ?_) h
  have hheld := hok.held it (by simp [ItemOp.needs])
  simp only [ItemOp.drops, List.not_mem_nil, false_or] at hheld
  obtain ⟨op, hop, hdrop⟩ := hheld
  refine .cons (ok_doItemUnlink (by simp [ItemOp.lockKey]) ⟨op, List.mem_cons_of_mem _ hop, hdrop⟩ ?_)
    (.cons (ok_itemUnlock hnot hbehind.quiet) (hrest.mono (by simp [ItemOp.unlinks])))
  exact behind_cons.2 ⟨by simp [ItemOp.atQueue, ItemOp.firm, ItemOp.fresh, ItemOp.found,
    ItemOp.nolock], hbehind⟩

lemma keep_itemBump (hs : Sound cfg s g) (htodo : (s.actors a).todo = .itemBump it :: rest)
    (h : s.itemLock cfg a (s.items it).key
      [.doItemUpdate it, .doItemRemove it, .itemUnlock (s.items it).key] = some (s₁, new, o)) :
    .broken ∉ o ∧ Sound cfg (s₁.setTodo a (new ++ rest)) g := by
  obtain ⟨hok, hrest⟩ := hs.ok htodo
  have hbehind : Behind it (.itemUnlock (s.items it).key :: rest) :=
    behind_cons.2 ⟨by simp [ItemOp.atQueue, ItemOp.firm, ItemOp.fresh, ItemOp.found, ItemOp.nolock],
      hok.behind (.inr (by simp [ItemOp.drops]))⟩
  refine keep_itemLock hs htodo rfl rfl (by simp [ItemOp.drops]) (by simp [ItemOp.atQueue])
    (by simp [ItemOp.isAlloc]) (by simp [ItemOp.lockKey]) (by simp [ItemOp.lruLock]) (fun hnot => ?_) h
  refine .cons (ok_doItemUpdate (by simp [ItemOp.lockKey])
      ⟨_, List.mem_cons_self, by simp [ItemOp.drops]⟩ ?_)
    (.cons (ok_doItemRemove (by simp [ItemOp.lockKey]) hbehind)
      (.cons (ok_itemUnlock hnot hok.quiet) hrest))
  exact behind_cons.2 ⟨by simp [ItemOp.atQueue, ItemOp.firm, ItemOp.fresh, ItemOp.found,
    ItemOp.nolock], hbehind⟩

omit [DecidableEq τ] in
/-- The lock that is to be taken is already held. -/
lemma stuck_itemRemoveHeld (hs : Sound cfg s g)
    (htodo : (s.actors a).todo = .itemRemoveHeld it :: rest) (todo : List (ItemOp ι κ)) :
    s.itemLock cfg a (s.items it).key todo = none := by
  have hlocked := hs.locked (mem_of_todo htodo) (List.mem_singleton_self it)
  simp [itemLock, hlocked]

lemma keep_itemUnlock (hs : Sound cfg s g) (htodo : (s.actors a).todo = .itemUnlock k :: rest) :
    Sound cfg (setTodo { s with
      itemLocks := Function.update s.itemLocks (cfg.bucket k) none } a rest) g := by
  obtain ⟨hok, hrest⟩ := hs.ok htodo
  have hheld : s.itemLocks (cfg.bucket k) = some a :=
    (hs.locks _ a).2 (by rw [htodo]; exact owes_cons.2 (.inl ⟨k, rfl, rfl⟩))
  refine hs.goOnLocks htodo [] _ s.lruLocks (by simp [ItemOp.drops]) (by simp [ItemOp.atQueue])
    (by simp) (fun b c hc => ?_) (fun b => ?_) (fun _ _ _ => Iff.rfl) (fun c => ?_) hrest
  · by_cases hb : b = cfg.bucket k
    · subst hb
      simp [hheld, Ne.symm hc]
    · rw [Function.update_of_ne hb]
  · by_cases hb : b = cfg.bucket k
    · subst hb
      simpa using hok.once k rfl
    · have hlocks := hs.locks b a
      rw [htodo, owes_cons] at hlocks
      rw [Function.update_of_ne hb, hlocks]
      simp [ItemOp.lockKey, Ne.symm hb]
  · rw [hs.owesLru_rest htodo rfl]
    simp

/-- The lock of a queue is given back. -/
lemma Sound.lruUnlock (hs : Sound cfg s g) (htodo : (s.actors a).todo = op :: rest)
    (hlock : op.lockKey = none) (hlru : op.lruLock = some c) (hdrops : op.drops = [])
    (hat : op.atQueue = []) (hunlinks : op.unlinks = []) :
    Sound cfg ((s.lruUnlock c).setTodo a rest) g := by
  obtain ⟨hok, hrest⟩ := hs.ok htodo
  rw [hunlinks] at hrest
  have hheld : s.lruLocks c = some a :=
    (hs.lruLocks _ a).2 (by rw [htodo]; exact owesLru_cons.2 (.inl hlru))
  refine hs.goOnLocks htodo [] s.itemLocks _ (by simp [hdrops]) (by simp [hat]) (by simp)
    (fun _ _ _ => Iff.rfl) (fun b => ?_) (fun d b hb => ?_) (fun d => ?_) hrest
  · rw [hs.owes_rest htodo hlock]
    simp
  · by_cases hd : d = c
    · subst hd
      simp [hheld, Ne.symm hb]
    · rw [Function.update_of_ne hd]
  · by_cases hd : d = c
    · subst hd
      simpa using hok.onceLru d hlru
    · have hlocks := hs.lruLocks d a
      rw [htodo, owesLru_cons, hlru] at hlocks
      rw [Function.update_of_ne hd, hlocks]
      simp [Ne.symm hd]

lemma keep_lruPullTail {fl : PullFlags} (hs : Sound cfg s g)
    (htodo : (s.actors a).todo = .lruPullTail c fl :: rest)
    (h : s.lruPullTail a c fl = some (s₁, new, o)) :
    .broken ∉ o ∧ Sound cfg (s₁.setTodo a (new ++ rest)) g := by
  obtain ⟨hok, hrest⟩ := hs.ok htodo
  simp only [lruPullTail] at h
  split at h
  · next hfree =>
    cases h
    have hnot : ¬ OwesLru rest c := hs.not_owesLru htodo (by simp [hfree])
    refine ⟨by simp, hs.goOnLocks htodo _ s.itemLocks _ (by simp [ItemOp.drops]) (by simp [ItemOp.atQueue])
      (by simp [ItemOp.isAlloc]) (fun _ _ _ => Iff.rfl) (fun b => ?_) (fun d b hb => ?_) (fun d => ?_)
      (.cons (ok_pullNext (fun n hn => hs.waiting_tail hn) hnot hok.quiet) hrest)⟩
    · rw [hs.owes_rest htodo rfl]
      simp [ItemOp.lockKey]
    · by_cases hd : d = c
      · subst hd
        simp [hfree, Ne.symm hb]
      · rw [Function.update_of_ne hd]
    · by_cases hd : d = c
      · subst hd
        simp [ItemOp.lruLock]
      · rw [Function.update_of_ne hd, hs.owesLru_rest htodo rfl]
        simp [ItemOp.lruLock, Ne.symm hd]
  · cases h

end Locks

/-! ## Operations that rewrite an item -/

lemma keep_doItemTouch {e : UInt32} (hs : Sound cfg s g)
    (htodo : (s.actors a).todo = .doItemTouch it e :: rest) :
    Sound cfg ((s.setItem it { s.items it with exptime := e }).setTodo a ([] ++ rest)) g :=
  hs.rewrite htodo (by simp [ItemOp.under]) _ s.casId rfl rfl rfl rfl
    (by simp [SameDues, ItemOp.drops, ItemOp.lockKey, ItemOp.lruLock, ItemOp.atQueue, ItemOp.isAlloc]) rfl
    fun _ _ _ h => h

lemma keep_setCas {it' : ι} {cas : UInt64} (hs : Sound cfg s g)
    (htodo : (s.actors a).todo = .setCas it it' :: rest) :
    Sound cfg ((s.setItem it { s.items it with cas := cas }).setTodo a ([] ++ rest)) g :=
  hs.rewrite htodo (by simp [ItemOp.under]) _ s.casId rfl rfl rfl rfl
    (by simp [SameDues, ItemOp.drops, ItemOp.lockKey, ItemOp.lruLock, ItemOp.atQueue, ItemOp.isAlloc]) rfl
    fun _ _ _ h => h

lemma keep_doAddDelta {incr : Bool} {n cas : UInt64} {str : List Char} (hs : Sound cfg s g)
    (htodo : (s.actors a).todo = .doAddDelta k incr n cas it :: rest)
    (h : s.doAddDelta cfg k incr n cas it str = some (s₁, new, o)) :
    .broken ∉ o ∧ Sound cfg (s₁.setTodo a (new ++ rest)) g := by
  obtain ⟨hok, hrest⟩ := hs.ok htodo
  have hcalm : AllCalm rest := hok.last rfl
  have hkey : (s.items it).key = k := hok.keyed (k, it) List.mem_cons_self
  have hlinked : (s.items it).linked = true := hok.found it (by simp [ItemOp.found])
  have hlock : Owes cfg rest (cfg.bucket k) := hkey ▸ hok.locked it (by simp [ItemOp.under])
  have hremove : ∀ s' : ItemCache τ ι κ, (s'.items it).key = k → Prog cfg s' g [] rest →
      Prog cfg s' g [] (.doItemRemove it :: rest) := fun s' hk hp =>
    .cons (ok_doItemRemove (hk ▸ hlock) hcalm.behind) hp
  have hgiveUp : Sound cfg (s.setTodo a ([.doItemRemove it] ++ rest)) g :=
    hs.goOn htodo (by simp [SameDues, ItemOp.drops, ItemOp.lockKey, ItemOp.lruLock, ItemOp.atQueue, ItemOp.isAlloc])
      (hremove s hkey hrest)
  simp only [doAddDelta] at h
  split at h
  · cases h
    exact ⟨by simp, hgiveUp⟩
  split at h
  · cases h
    exact ⟨by simp, hgiveUp⟩
  next hcas =>
  split at h
  · cases h
    exact ⟨by simp, hgiveUp⟩
  next value hvalue =>
  split at h
  · cases h
    refine ⟨by simp, hs.rewrite htodo (by simp [ItemOp.under]) _ _ rfl rfl rfl rfl
      (by simp [SameDues, ItemOp.drops, ItemOp.lockKey, ItemOp.lruLock, ItemOp.atQueue, ItemOp.isAlloc]) rfl
      fun s' hitems _ hp => ?_⟩
    have hk : (s'.items it).key = k := by rw [hitems, Function.update_self, ← hkey]
    refine .cons (ok_doItemUpdate ?_ ⟨_, List.mem_cons_self, by simp [ItemOp.drops]⟩ ?_)
      (hremove s' hk hp)
    · rw [hk]
      exact owes_cons.2 (.inr hlock)
    · exact behind_cons.2 ⟨by simp [ItemOp.atQueue, ItemOp.firm, ItemOp.fresh, ItemOp.found,
        ItemOp.nolock], hcalm.behind⟩
  split at h
  · cases h
    refine ⟨by simp, hs.goOn htodo
      (by simp [SameDues, ItemOp.drops, ItemOp.lockKey, ItemOp.lruLock, ItemOp.atQueue, ItemOp.isAlloc])
      (.cons (ok_deltaReplace hlock hlinked hkey ⟨?_, str, value, hvalue, rfl⟩ hcalm) hrest)⟩
    by_contra hnot
    exact hcas ⟨fun h => hnot (.inl h), fun h => hnot (.inr h)⟩
  · next hone =>
    have htwo := hs.two_le_refcount htodo (by simp [ItemOp.under]) rfl hlinked
    refine absurd ?_ hone
    rw [gt_iff_lt, UInt16.lt_iff_toNat_lt]
    exact htwo

/-! ## Linking, unlinking and freeing -/

lemma keep_doItemLink [DecidableEq κ] (hs : Sound cfg s g) (htodo : (s.actors a).todo = .doItemLink it :: rest)
    (h : s.doItemLink cfg it = some (s₁, new, o)) :
    .broken ∉ o ∧ Sound cfg (s₁.setTodo a (new ++ rest)) g := by
  obtain ⟨hok, hrest⟩ := hs.ok htodo
  have hunder : it ∈ (ItemOp.doItemLink (κ := κ) it).under := by simp [ItemOp.under]
  have hfresh : s.Fresh it := hok.fresh it (by simp [ItemOp.fresh])
  have hheld : ∃ op ∈ rest, it ∈ op.drops := by
    have hheld := hok.held it (ItemOp.under_needs hunder)
    simpa [ItemOp.drops] using hheld
  have habsent : ∀ x, (s.items x).linked = true → (s.items x).key ≠ (s.items it).key :=
    fun x hx hk => by simpa using hok.absent _ rfl x hx hk
  have hout : ∀ c, it ∉ g.lists c := hs.not_queued fun hin => by
    have hlinked := (hs.queue_of_lock htodo (hs.under_locked htodo hunder) (by simp [ItemOp.atQueue])).1 hin
    rw [hfresh.linked] at hlinked
    cases hlinked
  cases h
  refine ⟨by simp [check, hfresh.linked], ?_⟩
  refine hs.editUnder htodo hunder _ _ _ rfl rfl (by simp [ItemOp.drops]) (by simp [ItemOp.lockKey])
    (by simp [ItemOp.lruLock]) ?_ (fun k y => ?_) (fun hq => ?_) rfl (by simp [ItemOp.atQueue])
    (fun _ => .inr (by simp [ItemOp.links])) (by simp [ItemOp.unlinks])
    (by simp [ItemOp.isAlloc]) fun s' hitems hlru hp => ?_
  · simp [hfresh.linked, ItemOp.drops, ItemOp.isLinkQ]
  · by_cases hy : y = it
    · subst hy
      rw [Function.update_self]
      by_cases hk : k = (s.items y).key
      · subst hk
        simp
      · rw [Function.update_of_ne hk, hs.table]
        simp [hfresh.linked, Ne.symm hk]
    · rw [Function.update_of_ne hy]
      by_cases hk : k = (s.items it).key
      · subst hk
        rw [Function.update_self]
        refine iff_of_false (fun heq => hy (Option.some.inj heq).symm) ?_
        rintro ⟨hl, hk⟩
        exact habsent y hl hk
      · rw [Function.update_of_ne hk]
        exact hs.table k y
  · exact absurd (by simp [ItemOp.atQueue]) (hq _ rfl)
  · refine .cons (ok_itemLinkQ ?_ hheld (by rw [hitems, Function.update_self]) hout
      (hok.behind (.inl hunder))) hp
    rw [hitems, Function.update_self]
    exact hok.locked it hunder

lemma keep_doItemUnlink [DecidableEq κ] {nolock : Bool} (hs : Sound cfg s g)
    (htodo : (s.actors a).todo = .doItemUnlink it nolock :: rest)
    (h : s.doItemUnlink it nolock = some (s₁, new, o)) :
    .broken ∉ o ∧ Sound cfg (s₁.setTodo a (new ++ rest)) g := by
  obtain ⟨hok, hrest⟩ := hs.ok htodo
  have hunder : it ∈ (ItemOp.doItemUnlink (κ := κ) it nolock).under := by simp [ItemOp.under]
  have hbehind : Behind it rest := hok.behind (.inl hunder)
  simp only [doItemUnlink] at h
  split at h
  · next hlinked =>
    have hin : it ∈ g.lists (s.lru.clsid it) :=
      (hs.queue_of_lock htodo (hs.under_locked htodo hunder) (by simp [ItemOp.atQueue])).2 hlinked
    cases h
    refine ⟨by simp, ?_⟩
    refine hs.editUnder htodo hunder _ _ _ rfl rfl (fun y hy => ?_) (by simp [ItemOp.lockKey])
      (by simp [ItemOp.lruLock]) ?_ (fun k y => ?_) (fun hq => ?_) rfl (by simp [ItemOp.atQueue])
      (fun h => by cases h) (by simp [ItemOp.unlinks]) (by simp [ItemOp.isAlloc]) fun s' hitems hlru hp => ?_
    · simp [ItemOp.drops, Ne.symm hy]
    · simp [hlinked, ItemOp.drops, ItemOp.isLinkQ]
    · by_cases hy : y = it
      · subst hy
        rw [Function.update_self]
        by_cases hk : k = (s.items y).key
        · subst hk
          simp
        · rw [Function.update_of_ne hk, hs.table]
          simp [Ne.symm hk]
      · rw [Function.update_of_ne hy]
        by_cases hk : k = (s.items it).key
        · subst hk
          rw [Function.update_self]
          refine iff_of_false (by simp) ?_
          rintro ⟨hl, hk⟩
          exact hy (hs.linked_inj hl hlinked hk)
        · rw [Function.update_of_ne hk]
          exact hs.table k y
    · exact absurd (by simp [ItemOp.atQueue]) (hq _ rfl)
    · have hlock : Owes cfg rest (cfg.bucket (s'.items it).key) := by
        rw [hitems, Function.update_self]
        exact hok.locked it hunder
      have hremove : Behind it (.doItemRemove it :: rest) := behind_cons.2
        ⟨by simp [ItemOp.atQueue, ItemOp.firm, ItemOp.fresh, ItemOp.found, ItemOp.nolock], hbehind⟩
      refine .cons (ok_itemUnlinkQ (owes_cons.2 (.inr hlock)) ⟨_, List.mem_cons_self, by
        simp [ItemOp.drops]⟩ ?_ (by rw [hitems, Function.update_self]) (by rwa [hlru]) ?_ hremove)
        (.cons (ok_doItemRemove hlock hbehind) hp)
      · rintro rfl
        rw [hlru]
        exact owesLru_cons.2 (.inr (hok.nolock it (by simp [ItemOp.nolock])))
      · rintro rfl
        exact past_cons.2 ⟨by simp [ItemOp.search], fun op hop =>
          hok.passed it (by simp [ItemOp.nolock]) op hop⟩
  · next hlinked =>
    cases h
    have hprog : Prog cfg s g [] rest := hrest.congr
      (fun x hx hl => by
        rw [show x = it by simpa [ItemOp.unlinks] using hx] at hl
        exact absurd hl hlinked)
      (fun _ _ _ _ => rfl) (fun _ _ _ _ => ⟨rfl, rfl, fun _ => Iff.rfl⟩) (fun _ _ _ _ h => h)
      (fun _ _ _ _ h => h) (fun _ _ _ _ _ hl hk => ⟨hl, hk⟩) (fun _ _ _ _ _ h => h)
    exact ⟨by simp, hs.goOn htodo
      (by simp [SameDues, ItemOp.drops, ItemOp.lockKey, ItemOp.lruLock, ItemOp.atQueue, ItemOp.isAlloc]) hprog⟩

/-- A reference is given back, and it is not the last one. -/
lemma Sound.decr (hs : Sound cfg s g) (htodo : (s.actors a).todo = op :: rest) (hunder : it ∈ op.under)
    (hdrops : op.drops = [it]) (hlock : op.lockKey = none) (hlru : op.lruLock = none)
    (hat : op.atQueue = []) (hunlinks : op.unlinks = []) :
    0 < (s.items it).refcount.toNat ∧ Sound cfg ((s.refcountDecr it).setTodo a ([] ++ rest)) g := by
  have hnot : ItemOp.isLinkQ it (some op) = false := isLinkQ_of_quiet _ (by simp [hat])
  have hcount := hs.count it
  have hpos := refs_pos (hs.under_refs htodo hunder)
  rw [hs.linking_zero htodo (hs.under_locked htodo hunder) hnot] at hcount
  have hone : 1 ≤ (s.items it).refcount.toNat := by omega
  have hsub : ((s.items it).refcount - 1).toNat = (s.items it).refcount.toNat - 1 :=
    UInt16.toNat_sub_of_le _ _ (by rw [UInt16.le_iff_toNat_le]; exact hone)
  refine ⟨hone, hs.editUnder htodo hunder { s.items it with refcount := (s.items it).refcount - 1 }
    s.table s.casId rfl rfl (fun y hy => ?_) (by simp [hlock]) (by simp [hlru]) ?_ (fun k y => ?_)
    (fun _ => ?_) hat (by simp) .inl (by simp [hunlinks]) (by simp) fun _ _ _ h => h⟩
  · simp [hdrops, Ne.symm hy]
  · rw [hnot, isLinkQ_of_quiet _ (hs.head_quiet htodo (by simp))]
    simp [hdrops, hsub]
    omega
  · rw [hs.table]
    by_cases hy : y = it
    · subst hy
      rw [Function.update_self]
    · rw [Function.update_of_ne hy]
  · exact hs.queue_of_lock htodo (hs.under_locked htodo hunder) (by simp [hat])

lemma keep_crawlerEval_keep {expired : Bool} (hs : Sound cfg s g)
    (htodo : (s.actors a).todo = .crawlerEval it expired :: rest) :
    Sound cfg ((s.refcountDecr it).setTodo a ([] ++ rest)) g :=
  (hs.decr htodo (by simp [ItemOp.under]) rfl rfl rfl rfl rfl).2

lemma keep_doItemRemove (hs : Sound cfg s g) (htodo : (s.actors a).todo = .doItemRemove it :: rest)
    (h : s.doItemRemove it = some (s₁, new, o)) :
    .broken ∉ o ∧ Sound cfg (s₁.setTodo a (new ++ rest)) g := by
  have hunder : it ∈ (ItemOp.doItemRemove (κ := κ) it).under := by simp [ItemOp.under]
  obtain ⟨hpos, hdecr⟩ := hs.decr htodo hunder rfl rfl rfl rfl rfl
  have hcheck : 0 < (s.items it).refcount := by
    rw [UInt16.lt_iff_toNat_lt]
    exact hpos
  simp only [doItemRemove] at h
  split at h
  · next hlast =>
    -- it is the last reference
    have hone : (s.items it).refcount.toNat = 1 := by
      have hsub : ((s.items it).refcount - 1).toNat = (s.items it).refcount.toNat - 1 :=
        UInt16.toNat_sub_of_le _ _ (by rw [UInt16.le_iff_toNat_le]; exact hpos)
      rw [hlast, UInt16.toNat_zero] at hsub
      omega
    have hcount := hs.count it
    have hrefs := refs_pos (hs.under_refs htodo hunder)
    rw [hs.linking_zero htodo (hs.under_locked htodo hunder) rfl, hone] at hcount
    have hlinked : (s.items it).linked = false := by
      refine Bool.eq_false_iff.2 fun hl => ?_
      rw [hl, if_pos rfl] at hcount
      omega
    rw [hlinked] at hcount
    have hout : ∀ c, it ∉ g.lists c := hs.not_queued fun hin => by
      have hl := (hs.queue_of_lock htodo (hs.under_locked htodo hunder) (by simp [ItemOp.atQueue])).1 hin
      rw [hlinked] at hl
      cases hl
    cases h
    refine ⟨?_, ?_⟩
    · obtain ⟨L, hi⟩ := hs.lru
      have hnode : ∀ c, .item it ∉ L c := fun c hin => hout c (by
        rw [← hi.items]
        exact Lru.mem_itemsOf.2 hin)
      have hhead : s.lru.queues.head (s.lru.clsid it) ≠ some (.item it) := by
        rw [hi.holds.head_eq]
        exact fun heq => hnode _ (List.mem_of_mem_head? heq)
      have htail : s.lru.queues.tail (s.lru.clsid it) ≠ some (.item it) := by
        rw [hi.holds.tail_eq]
        exact fun heq => hnode _ (List.mem_of_getLast? heq)
      simp [check, hcheck, hlinked, hhead, htail]
    · have hg : Goes s (((s.refcountDecr it).itemFree it).setTodo a ([] ++ rest)) a
        (.doItemRemove it) [] rest _ := .of_todo htodo rfl rfl (by simp)
      have hzero : ((s.refcountDecr it).items it).refcount.toNat = 0 := by
        simp [refcountDecr, setItem, hlast]
      refine hs.edit hg { (s.refcountDecr it).items it with
          slabbed := true, linked := false, fetched := false, active := false } (c := 0) ?_ rfl
        (.inr hout) (.inr ⟨?_, hs.under_locked htodo hunder, .inl (hs.under_refs htodo hunder)⟩)
        (fun y hy => ?_) ?_ (fun _ => ⟨rfl, ?_⟩) (fun k y => ?_) (fun _ => ?_) rfl (by simp)
        ((hs.ok htodo).1.apart it (.inl hunder)) (fun h => by cases h) (by simp [ItemOp.unlinks])
        (fun _ _ _ => Iff.rfl) (fun b => ?_) (fun _ _ _ => Iff.rfl) (fun c => ?_) (fun h => h)
        fun y hy => ?_
      · exact Function.update_idem ..
      · simp [refcountDecr, setItem]
      · simp [ItemOp.drops, Ne.symm hy]
      · rw [isLinkQ_of_quiet _ (hs.head_quiet htodo (by simp)), hzero, hone, hlinked]
        simp [ItemOp.drops, ItemOp.isLinkQ]
      · have hstep := hg.refs it
        simp only [ItemOp.drops, List.count_singleton_self, List.flatMap_nil, List.count_nil] at hstep
        simp only [Bool.false_eq_true, if_false] at hcount
        omega
      · have htable : (((s.refcountDecr it).itemFree it).setTodo a ([] ++ rest)).table = s.table := rfl
        rw [htable, hs.table]
        by_cases hy : y = it
        · subst hy
          rw [Function.update_self]
          simp [hlinked]
        · rw [Function.update_of_ne hy]
      · simp [hout]
      · exact hs.owes_rest htodo rfl b
      · exact hs.owesLru_rest htodo rfl c
      · refine hs.item_fresh hg (fun y hy => ?_) (fun y hy => ?_)
          (hs.under_item htodo hunder) (y := y) ?_
        · simp [ItemOp.drops, Ne.symm hy]
        · simp [itemFree, setTodo, setActor, setItem, refcountDecr, hy]
        · simpa [setTodo, setActor, itemFree, setItem, refcountDecr] using hy
  · cases h
    exact ⟨by simp [check, hcheck], hdecr⟩

/-! ## Operations that allocate an item -/

/-- A new item, and what is done with it. -/
lemma keep_doItemAlloc {x : ι} {cls : ℕ} {flags e : UInt32} {data : List Char} {cas : UInt64}
    (hs : Sound cfg s g) (htodo : (s.actors a).todo = op :: rest)
    (hslabbed : (s.items x).slabbed = true) (hat : op.atQueue = []) (hunlinks : op.unlinks = [])
    (hlock : op.lockKey = none) (hlru : op.lruLock = none)
    (hdrops : ∀ y, (new.flatMap ItemOp.drops).count y = op.drops.count y + if y = x then 1 else 0)
    (hnew : ∀ op' ∈ new, op'.atQueue = [] ∧ op'.lockKey = none ∧ op'.lruLock = none ∧
      op'.isAlloc = false)
    (hprog : ∀ s' : ItemCache τ ι κ, s'.Fresh x → (s'.items x).key = k →
      (∀ y, y ≠ x → s'.items y = s.items y) → Prog cfg s' g [] rest → Prog cfg s' g [] (new ++ rest)) :
    Sound cfg ((s.doItemAlloc cfg x cls k flags e data cas).setTodo a (new ++ rest)) g := by
  have hg : Goes s ((s.doItemAlloc cfg x cls k flags e data cas).setTodo a (new ++ rest)) a op new rest _ :=
    .of_todo htodo rfl rfl fun op' hop' h => by simp [(hnew op' hop').2.2.2] at h
  refine hs.alloc hg _ hslabbed rfl rfl rfl rfl rfl rfl rfl rfl hdrops hat (fun op' h => (hnew op' h).1)
    hunlinks (fun b => ?_) (fun c => ?_) (fun hfresh hp => hprog _ hfresh ?_ (fun y hy => ?_) hp)
    fun y hy => .inl ?_
  · rw [hlock]
    exact iff_of_false (fun ⟨op', hop', k, hk, _⟩ => by simp [(hnew op' hop').2.1] at hk) (by simp)
  · rw [hlru]
    exact iff_of_false (fun ⟨op', hop', hk⟩ => by simp [(hnew op' hop').2.2.1] at hk) (by simp)
  · simp [setTodo, setActor, doItemAlloc, setItem]
  · simp [setTodo, setActor, doItemAlloc, setItem, hy]
  · simpa [setTodo, setActor, doItemAlloc, setItem] using hy

lemma keep_storeAppend {old : ι} {choice : ItemChoice ι} (hs : Sound cfg s g)
    (htodo : (s.actors a).todo = .storeAppend k it comm old :: rest)
    (h : s.storeAppend cfg k it comm old choice = some (s₁, new, o)) :
    .broken ∉ o ∧ Sound cfg (s₁.setTodo a (new ++ rest)) g := by
  obtain ⟨hok, hrest⟩ := hs.ok htodo
  have hcalm : AllCalm rest := hok.last rfl
  have hkey : (s.items old).key = k := hok.keyed (k, old) (by simp [ItemOp.keyed])
  have hlinked : (s.items old).linked = true := hok.found old (by simp [ItemOp.found])
  have hlock : Owes cfg rest (cfg.bucket k) := hkey ▸ hok.locked old (by simp [ItemOp.under])
  have hbehind : ∀ {y z : ι}, Behind y (.doItemRemove z :: rest) := by
    intro y z
    exact behind_cons.2 ⟨by simp [ItemOp.atQueue, ItemOp.firm, ItemOp.fresh, ItemOp.found,
      ItemOp.nolock], hcalm.behind⟩
  have hgiveUp : Sound cfg (s.setTodo a ([.doItemRemove old] ++ rest)) g :=
    hs.goOn htodo (by simp [SameDues, ItemOp.drops, ItemOp.lockKey, ItemOp.lruLock, ItemOp.atQueue, ItemOp.isAlloc])
      (.cons (ok_doItemRemove (hkey ▸ hlock) hcalm.behind) hrest)
  -- both references are given back
  have hremove : ∀ {U : List ι} {s' : ItemCache τ ι κ} {x : ι}, (s'.items old).key = k →
      (s'.items x).key = k → Prog cfg s' g [] rest →
      Prog cfg s' g U (.doItemRemove old :: .doItemRemove x :: rest) := by
    intro U s' x hko hkx hp
    refine .cons (ok_doItemRemove ?_ hbehind) (.cons (ok_doItemRemove ?_ hcalm.behind)
      (hp.mono (by simp)))
    · rw [hko]
      exact owes_cons.2 (.inr hlock)
    · rwa [hkx]
  have hne : ∀ x, (s.items x).slabbed = true → old ≠ x := by
    rintro x hslabbed rfl
    rw [(hs.free old hslabbed).1] at hlinked
    cases hlinked
  cases choice with
  | pull c fl =>
    cases h
    refine ⟨by simp, hs.goOn htodo (by simp [SameDues, ItemOp.drops, ItemOp.lockKey, ItemOp.lruLock,
      ItemOp.atQueue, ItemOp.isAlloc]) (.cons (ok_lruPullTail ?_) (.cons hok hrest))⟩
    exact List.forall_mem_cons.2 ⟨rfl, hok.quiet⟩
  | take x cls =>
    simp only [storeAppend] at h
    split at h
    · next hslabbed =>
      cases h
      refine ⟨by simp, keep_doItemAlloc hs htodo hslabbed rfl rfl rfl rfl (fun y => ?_) (by
        simp [ItemOp.atQueue, ItemOp.lockKey, ItemOp.lruLock, ItemOp.isAlloc]) fun s' hfresh hkx hsame hp => ?_⟩
      · exact count_snoc [old] x y
      · have hold := hsame old (hne x hslabbed)
        have hko : (s'.items old).key = k := by rw [hold, hkey]
        refine prog_replace (fun y hy hky => ?_) (by rwa [hold]) (hko.trans hkx.symm) hfresh ?_
          ⟨_, List.mem_cons_self, by simp [ItemOp.drops]⟩
          ⟨_, List.mem_cons_of_mem _ List.mem_cons_self, by simp [ItemOp.drops]⟩ ?_ ?_ ?_
          (hremove hko hkx hp)
        · have hyx : y ≠ x := by
            rintro rfl
            rw [hfresh.linked] at hy
            cases hy
          rw [hsame y hyx] at hy hky
          exact hs.linked_inj hy hlinked (by rw [hky, hkx, hkey])
        · rw [hkx]
          simp [hlock]
        · exact behind_cons.2 ⟨by simp [ItemOp.atQueue, ItemOp.firm, ItemOp.fresh, ItemOp.found,
            ItemOp.nolock], hbehind⟩
        · exact behind_cons.2 ⟨by simp [ItemOp.atQueue, ItemOp.firm, ItemOp.fresh, ItemOp.found,
            ItemOp.nolock], hbehind⟩
        · refine List.forall_mem_cons.2 ⟨by simp [ItemOp.gone, ItemOp.absent],
            List.forall_mem_cons.2 ⟨by simp [ItemOp.gone, ItemOp.absent], fun op hop => ?_⟩⟩
          simp [(hcalm op hop).2.2.1, ItemOp.absent_of_fresh (hcalm op hop).2.1]
    · cases h
  | noCopy x cls =>
    simp only [storeAppend] at h
    split at h
    · next hslabbed =>
      cases h
      refine ⟨by simp, keep_doItemAlloc hs htodo hslabbed rfl rfl rfl rfl (fun y => ?_) (by
        simp [ItemOp.atQueue, ItemOp.lockKey, ItemOp.lruLock, ItemOp.isAlloc]) fun s' hfresh hkx hsame hp => ?_⟩
      · exact count_snoc [old] x y
      · have hko : (s'.items old).key = k := by rw [hsame old (hne x hslabbed), hkey]
        refine .cons (ok_itemRemoveHeld ?_
          ⟨_, List.mem_cons_of_mem _ List.mem_cons_self, by simp [ItemOp.drops]⟩ ?_) (hremove hko hkx hp)
        · rw [hkx]
          simp [hlock]
        · exact behind_cons.2 ⟨by simp [ItemOp.atQueue, ItemOp.firm, ItemOp.fresh, ItemOp.found,
            ItemOp.nolock], hbehind⟩
    · cases h
  | plain =>
    cases h
    exact ⟨by simp, hgiveUp⟩
  | yes =>
    cases h
    exact ⟨by simp, hgiveUp⟩
  | behind str =>
    cases h
    exact ⟨by simp, hgiveUp⟩

lemma keep_deltaReplace {incr : Bool} {n cas value : UInt64} {choice : ItemChoice ι} (hs : Sound cfg s g)
    (htodo : (s.actors a).todo = .deltaReplace k incr n cas it value :: rest)
    (h : s.deltaReplace cfg k incr n cas it value choice = some (s₁, new, o)) :
    .broken ∉ o ∧ Sound cfg (s₁.setTodo a (new ++ rest)) g := by
  obtain ⟨hok, hrest⟩ := hs.ok htodo
  have hcalm : AllCalm rest := hok.last rfl
  have hkey : (s.items it).key = k := hok.keyed (k, it) (by simp [ItemOp.keyed])
  have hlinked : (s.items it).linked = true := hok.found it (by simp [ItemOp.found])
  have hlock : Owes cfg rest (cfg.bucket k) := hkey ▸ hok.locked it (by simp [ItemOp.under])
  have hbehind : ∀ {y z : ι}, Behind y (.doItemRemove z :: rest) := by
    intro y z
    exact behind_cons.2 ⟨by simp [ItemOp.atQueue, ItemOp.firm, ItemOp.fresh, ItemOp.found,
      ItemOp.nolock], hcalm.behind⟩
  have hgiveUp : Sound cfg (s.setTodo a ([.doItemRemove it] ++ rest)) g :=
    hs.goOn htodo (by simp [SameDues, ItemOp.drops, ItemOp.lockKey, ItemOp.lruLock, ItemOp.atQueue, ItemOp.isAlloc])
      (.cons (ok_doItemRemove (hkey ▸ hlock) hcalm.behind) hrest)
  cases choice with
  | pull c fl =>
    cases h
    refine ⟨by simp, hs.goOn htodo (by simp [SameDues, ItemOp.drops, ItemOp.lockKey, ItemOp.lruLock,
      ItemOp.atQueue, ItemOp.isAlloc]) (.cons (ok_lruPullTail ?_) (.cons hok hrest))⟩
    exact List.forall_mem_cons.2 ⟨rfl, hok.quiet⟩
  | take x cls =>
    simp only [deltaReplace] at h
    split at h
    · next hslabbed =>
      cases h
      have hne : it ≠ x := by
        rintro rfl
        rw [(hs.free it hslabbed).1] at hlinked
        cases hlinked
      refine ⟨by simp, keep_doItemAlloc hs htodo hslabbed rfl rfl rfl rfl (fun y => ?_) (by
        simp [ItemOp.atQueue, ItemOp.lockKey, ItemOp.lruLock, ItemOp.isAlloc]) fun s' hfresh hkx hsame hp => ?_⟩
      · rw [← count_snoc]
        exact (List.Perm.swap it x []).count_eq y
      · have hko : (s'.items it).key = k := by rw [hsame it hne, hkey]
        have hlast : Prog cfg s' g [it] (.setCas it x :: .doItemRemove x :: .doItemRemove it :: rest) := by
          refine .cons (ok_setCas ?_ ?_ ⟨_, List.mem_cons_of_mem _ List.mem_cons_self, by
              simp [ItemOp.drops]⟩ ⟨_, List.mem_cons_self, by simp [ItemOp.drops]⟩ hne (by simp) ?_)
            (.cons (ok_doItemRemove ?_ hbehind) (.cons (ok_doItemRemove ?_ hcalm.behind)
              (hp.mono (by simp))))
          · rw [hko]
            simp [hlock]
          · rw [hkx]
            simp [hlock]
          · simp [hcalm, ItemOp.Calm, ItemOp.firm, ItemOp.found, ItemOp.nolock, ItemOp.atQueue,
              ItemOp.fresh, ItemOp.gone, ItemOp.isAlloc]
          · rw [hkx]
            simp [hlock]
          · rwa [hko]
        refine prog_replace (fun y hy hky => ?_) (by rw [hsame it hne, hlinked]) (hko.trans hkx.symm)
          hfresh ?_ ⟨.doItemRemove it, by simp, by simp [ItemOp.drops]⟩
          ⟨.doItemRemove x, by simp, by simp [ItemOp.drops]⟩ ?_ ?_ ?_ hlast
        · have hyx : y ≠ x := by
            rintro rfl
            rw [hfresh.linked] at hy
            cases hy
          rw [hsame y hyx] at hy hky
          exact hs.linked_inj hy hlinked (by rw [hky, hkx, hkey])
        · rw [hkx]
          simp [hlock]
        · simp [ItemOp.atQueue, ItemOp.firm, ItemOp.fresh, ItemOp.found, ItemOp.nolock, hcalm.behind]
        · simp [ItemOp.atQueue, ItemOp.firm, ItemOp.fresh, ItemOp.found, ItemOp.nolock, hcalm.behind]
        · refine List.forall_mem_cons.2 ⟨by simp [ItemOp.gone, ItemOp.absent, Ne.symm hne],
            List.forall_mem_cons.2 ⟨by simp [ItemOp.gone, ItemOp.absent],
              List.forall_mem_cons.2 ⟨by simp [ItemOp.gone, ItemOp.absent], fun op hop => ?_⟩⟩⟩
          simp [(hcalm op hop).2.2.1, ItemOp.absent_of_fresh (hcalm op hop).2.1]
    · cases h
  | noCopy x cls => cases h
  | plain =>
    cases h
    exact ⟨by simp, hgiveUp⟩
  | yes =>
    cases h
    exact ⟨by simp, hgiveUp⟩
  | behind str =>
    cases h
    exact ⟨by simp, hgiveUp⟩

lemma keep_itemAlloc {flags e : UInt32} {cas : UInt64} {choice : ItemChoice ι} (hs : Sound cfg s g)
    (htodo : (s.actors a).todo = .itemAlloc k flags e comm cas :: rest)
    (h : s.itemAlloc cfg a k flags e comm cas choice = some (s₁, new, o)) :
    .broken ∉ o ∧ Sound cfg (s₁.setTodo a (new ++ rest)) g := by
  obtain ⟨hok, hrest⟩ := hs.ok htodo
  have hcalm : AllCalm rest := hok.last rfl
  have hfail : ∀ new : List (ItemOp ι κ), new = (if comm = .set then [.itemGet k .discard] else []) →
      Sound cfg (s.setTodo a (new ++ rest)) g := by
    rintro new rfl
    by_cases hset : comm = .set
    · simp only [hset, if_true]
      exact hs.goOn htodo
        (by simp [SameDues, ItemOp.drops, ItemOp.lockKey, ItemOp.lruLock, ItemOp.atQueue, ItemOp.isAlloc])
        (.cons (ok_itemGet (by simp [ItemUse.newItem]) hcalm) hrest)
    · simp only [hset, if_false]
      exact hs.goOn htodo
        (by simp [SameDues, ItemOp.drops, ItemOp.lockKey, ItemOp.lruLock, ItemOp.atQueue, ItemOp.isAlloc]) hrest
  cases choice with
  | pull c fl =>
    cases h
    refine ⟨by simp, hs.goOn htodo (by simp [SameDues, ItemOp.drops, ItemOp.lockKey, ItemOp.lruLock,
      ItemOp.atQueue, ItemOp.isAlloc]) (.cons (ok_lruPullTail ?_) (.cons hok hrest))⟩
    exact List.forall_mem_cons.2 ⟨rfl, hok.quiet⟩
  | take x cls =>
    simp only [itemAlloc] at h
    split at h
    · next hslabbed =>
      cases h
      have hnone : (s.actors a).item = none := by
        cases hx : (s.actors a).item with
        | none => rfl
        | some y =>
          have hno := (hs.item a y hx).2 (.itemAlloc k flags e comm cas) (by simp [htodo])
          cases hno
      refine ⟨by simp, ?_⟩
      have hother : ∀ b, b ≠ a → (((s.doItemAlloc cfg x cls k flags e [] cas).setActor a
          { s.actors a with item := some (x, comm) }).setTodo a ([] ++ rest)).actors b = s.actors b := by
        intro b hb
        simp [setTodo, setActor, doItemAlloc, setItem, hb]
      have hself : (((s.doItemAlloc cfg x cls k flags e [] cas).setActor a
          { s.actors a with item := some (x, comm) }).setTodo a ([] ++ rest)).actors a =
            { s.actors a with item := some (x, comm), todo := rest } := by
        simp [setTodo, setActor]
      have hg : Goes s (((s.doItemAlloc cfg x cls k flags e [] cas).setActor a
          { s.actors a with item := some (x, comm) }).setTodo a ([] ++ rest)) a
            (.itemAlloc k flags e comm cas) [] rest [x] := by
        refine ⟨htodo, by rw [hself]; rfl, hother, fun y => ?_, by simp⟩
        have hstep := refs_step hother y
        have hbumps : (((s.doItemAlloc cfg x cls k flags e [] cas).setActor a
          { s.actors a with item := some (x, comm) }).setTodo a ([] ++ rest)).bumps = s.bumps := rfl
        rw [hself, hbumps] at hstep
        simp only [ItemActor.refs, htodo, hnone, List.flatMap_cons, ItemOp.drops,
          Option.toList_none, Option.toList_some, List.map_nil, List.map_cons, List.append_nil,
          List.nil_append, List.count_append, List.count_nil] at hstep ⊢
        omega
      refine hs.alloc hg _ hslabbed rfl rfl rfl rfl rfl rfl rfl rfl (fun y => ?_) rfl (by simp) rfl
        (by simp [ItemOp.lockKey]) (by simp [ItemOp.lruLock]) (fun _ h => h) fun y hy => .inr ?_
      · exact count_snoc [] x y
      · rw [hself] at hy ⊢
        cases hy
        exact ⟨rfl, fun op hop => (hcalm op hop).2.2.2⟩
    · cases h
  | noCopy x cls => cases h
  | plain =>
    cases h
    exact ⟨by simp, hfail _ rfl⟩
  | yes =>
    cases h
    exact ⟨by simp, hfail _ rfl⟩
  | behind str =>
    cases h
    exact ⟨by simp, hfail _ rfl⟩

/-! ## Finding an item -/

lemma keep_limitedGet (hs : Sound cfg s g) (htodo : (s.actors a).todo = .limitedGet k it :: rest)
    (h : s.limitedGet k it = some (s₁, new, o)) :
    .broken ∉ o ∧ Sound cfg (s₁.setTodo a (new ++ rest)) g := by
  obtain ⟨hok, hrest⟩ := hs.ok htodo
  have hbehind : Behind it rest := hok.behind (.inr (by simp [ItemOp.drops]))
  simp only [limitedGet] at h
  split at h <;> cases h
  · exact ⟨by simp, hs.goOn htodo (by simp [SameDues, ItemOp.drops, ItemOp.lockKey, ItemOp.lruLock,
      ItemOp.atQueue, ItemOp.isAlloc]) (.cons (ok_itemRemove hbehind) hrest)⟩
  · exact ⟨by simp, hs.goOn htodo (by simp [SameDues, ItemOp.drops, ItemOp.lockKey, ItemOp.lruLock,
      ItemOp.atQueue, ItemOp.isAlloc])
      (.cons (ok_reply (hok.keyed (k, it) (by simp [ItemOp.keyed])) hbehind) hrest)⟩

lemma keep_reply (hs : Sound cfg s g) (htodo : (s.actors a).todo = .reply k it :: rest)
    (h : s.reply a k it = some (s₁, new, o)) :
    .broken ∉ o ∧ Sound cfg (s₁.setTodo a (new ++ rest)) g := by
  obtain ⟨hok, hrest⟩ := hs.ok htodo
  cases h
  refine ⟨by simp, ?_⟩
  generalize hheld : (⟨k, it, (s.items it).flags, (s.items it).cas⟩ : HeldItem ι κ) = held
  have hit : held.it = it := by rw [← hheld]
  have hother : ∀ b, b ≠ a → ((s.setActor a { s.actors a with
      ilist := held :: (s.actors a).ilist }).setTodo a ([] ++ rest)).actors b = s.actors b := by
    intro b hb
    simp [setTodo, setActor, hb]
  have hself : ((s.setActor a { s.actors a with
      ilist := held :: (s.actors a).ilist }).setTodo a ([] ++ rest)).actors a =
        { s.actors a with ilist := held :: (s.actors a).ilist, todo := rest } := by
    simp [setTodo, setActor]
  refine hs.turn hother rfl rfl rfl (fun y => ?_) (fun op hop => ?_) (fun op hop => ?_)
    (fun _ _ _ => Iff.rfl) (fun b => ?_) (fun _ _ _ => Iff.rfl) (fun c => ?_) ?_ fun x hx => ?_
  · have hstep := refs_step hother y
    have hbumps : ((s.setActor a { s.actors a with
      ilist := held :: (s.actors a).ilist }).setTodo a ([] ++ rest)).bumps = s.bumps := rfl
    rw [hself, hbumps] at hstep
    simp only [ItemActor.refs, htodo, List.flatMap_cons, ItemOp.drops, List.map_cons, hit,
      List.count_append, List.count_cons, List.count_nil] at hstep ⊢
    omega
  · rw [htodo] at hop
    cases hop
    rfl
  · rw [hself] at hop
    exact hok.quiet op (List.mem_of_mem_head? hop)
  · rw [hself]
    exact hs.owes_rest htodo rfl b
  · rw [hself]
    exact hs.owesLru_rest htodo rfl c
  · rw [hself]
    exact hrest
  · rw [hself] at hx ⊢
    obtain ⟨hfresh, halloc⟩ := hs.item a x hx
    rw [htodo] at halloc
    exact ⟨hfresh, fun op hop => halloc op (List.mem_cons_of_mem _ hop)⟩

section Found

variable {use : ItemUse ι}

omit [DecidableEq τ] in
/-- What is left to do after `do_item_get` has found an item. -/
lemma prog_found (hlinked : (s.items it).linked = true) (hkey : (s.items it).key = k)
    (hnew : ∀ x ∈ use.newItem, s.Fresh x ∧ (s.items x).key = k ∧ ∃ op ∈ rest, x ∈ op.drops)
    (honce : ¬ Owes cfg rest (cfg.bucket k)) (hcalm : AllCalm rest) (hrest : Prog cfg s g [] rest) :
    Prog cfg s g []
      (use.inside k (some it) ++ .itemUnlock k :: use.outside k (some it) ++ rest) := by
  have hunlock : ∀ {p : List (ItemOp ι κ)}, AllCalm p → ¬ Owes cfg p (cfg.bucket k) →
      Prog cfg s g [] p → Prog cfg s g [] (.itemUnlock k :: p) := fun hp hnot h =>
    .cons (ok_itemUnlock hnot hp.quiet) h
  have hcalmUnlock : ∀ {p : List (ItemOp ι κ)}, AllCalm p → AllCalm (.itemUnlock k :: p) := fun hp =>
    allCalm_cons.2 ⟨⟨rfl, rfl, rfl, rfl⟩, hp⟩
  have howes : ∀ {p : List (ItemOp ι κ)},
      Owes cfg (.itemUnlock k :: p) (cfg.bucket (s.items it).key) := fun {p} => by
    simp [ItemOp.lockKey, hkey]
  cases use with
  | reply e =>
    have hcalmGet : AllCalm (.limitedGet k it :: rest) := allCalm_cons.2 ⟨⟨rfl, rfl, rfl, rfl⟩, hcalm⟩
    have hget : Prog cfg s g [] (.itemUnlock k :: .limitedGet k it :: rest) :=
      hunlock hcalmGet (by simpa [ItemOp.lockKey] using honce)
        (.cons (ok_limitedGet hkey hcalm.behind) hrest)
    cases e with
    | none => exact hget
    | some e =>
      exact .cons (ok_doItemTouch howes ⟨.limitedGet k it, by simp [ItemUse.outside], by
        simp [ItemOp.drops]⟩
        (hcalmUnlock hcalmGet).behind) hget
  | touch e =>
    have hcalmRemove : AllCalm (.itemRemove it :: rest) := allCalm_cons.2 ⟨⟨rfl, rfl, rfl, rfl⟩, hcalm⟩
    exact .cons (ok_doItemTouch howes ⟨.itemRemove it, by simp [ItemUse.outside], by
        simp [ItemOp.drops]⟩
        (hcalmUnlock hcalmRemove).behind)
      (hunlock hcalmRemove (by
        simpa [ItemOp.lockKey, ItemUse.outside] using honce)
        (.cons (ok_itemRemove hcalm.behind) hrest))
  | delete =>
    have hcalmRemove : AllCalm (.doItemRemove it :: .itemUnlock k :: rest) :=
      allCalm_cons.2 ⟨⟨rfl, rfl, rfl, rfl⟩, hcalmUnlock hcalm⟩
    exact .cons (ok_doItemUnlink (owes_cons.2 (.inr howes)) ⟨_, List.mem_cons_self, by
        simp [ItemOp.drops]⟩ hcalmRemove.behind)
      (.cons (ok_doItemRemove howes (hcalmUnlock hcalm).behind)
        ((hunlock hcalm honce hrest).mono (by simp)))
  | discard =>
    have hcalmRemove : AllCalm (.itemRemove it :: rest) := allCalm_cons.2 ⟨⟨rfl, rfl, rfl, rfl⟩, hcalm⟩
    refine hunlock (allCalm_cons.2 ⟨⟨rfl, rfl, rfl, rfl⟩, hcalmRemove⟩)
      (by
        simpa [ItemOp.lockKey, ItemUse.outside] using honce) ?_
    exact .cons (ok_itemUnlink ⟨_, List.mem_cons_self, by simp [ItemOp.drops]⟩ hcalmRemove)
      (.cons (ok_itemRemove hcalm.behind) hrest)
  | store x comm =>
    obtain ⟨hfresh, hkx, op, hop, hdrop⟩ := hnew x (by simp [ItemUse.newItem])
    refine .cons (ok_doStoreItem (hkey ▸ howes) ⟨op, List.mem_cons_of_mem _ hop, hdrop⟩ hfresh hkx
      (fun y hy => ?_) (fun h => by cases h) (hcalmUnlock hcalm)) (hunlock hcalm honce hrest)
    cases hy
    exact ⟨hlinked, hkey⟩
  | delta incr n cas =>
    exact .cons (ok_doAddDelta (hkey ▸ howes) hlinked hkey (hcalmUnlock hcalm))
      (hunlock hcalm honce hrest)

omit [DecidableEq τ] in
/-- What is left to do when `do_item_get` has found nothing. -/
lemma prog_missed (habsent : ∀ x, (s.items x).linked = true → (s.items x).key = k → x ∈ U)
    (hnew : ∀ x ∈ use.newItem, s.Fresh x ∧ (s.items x).key = k ∧ ∃ op ∈ rest, x ∈ op.drops)
    (honce : ¬ Owes cfg rest (cfg.bucket k)) (hcalm : AllCalm rest) (hrest : Prog cfg s g U rest) :
    Prog cfg s g U (use.inside k none ++ .itemUnlock k :: use.outside k none ++ rest) := by
  have hunlock : Prog cfg s g U (.itemUnlock k :: rest) :=
    .cons (ok_itemUnlock honce hcalm.quiet) hrest
  cases use with
  | store x comm =>
    obtain ⟨hfresh, hkx, op, hop, hdrop⟩ := hnew x (by simp [ItemUse.newItem])
    exact .cons (ok_doStoreItem (by simp [ItemOp.lockKey]) ⟨op, List.mem_cons_of_mem _ hop, hdrop⟩
      hfresh hkx (fun y hy => by cases hy) (fun _ => habsent)
      (allCalm_cons.2 ⟨⟨rfl, rfl, rfl, rfl⟩, hcalm⟩)) hunlock
  | reply e =>
    cases e with
    | none => exact hunlock
    | some e => exact hunlock
  | touch e => exact hunlock
  | delete => exact hunlock
  | discard => exact hunlock
  | delta incr n cas => exact hunlock

omit [DecidableEq ι] [Fintype τ] [DecidableEq τ] in
/-- What the operations behind `do_item_get` give back. -/
lemma dues_found (cfg : ItemSettings κ) (k : κ) (use : ItemUse ι) (old : Option ι) :
    (use.inside k old ++ .itemUnlock k :: use.outside k old).flatMap ItemOp.drops = old.toList ∧
    (∀ op' ∈ use.inside k old ++ .itemUnlock k :: use.outside k old,
      op'.atQueue = [] ∧ op'.lruLock = none ∧ op'.isAlloc = false) ∧
    ∀ b, Owes cfg (use.inside k old ++ .itemUnlock k :: use.outside k old) b ↔ cfg.bucket k = b := by
  cases old with
  | none =>
    cases use with
    | reply e => cases e <;> simp [ItemUse.inside, ItemUse.outside, ItemOp.drops, ItemOp.atQueue,
        ItemOp.lruLock, ItemOp.isAlloc, ItemOp.lockKey]
    | _ => simp [ItemUse.inside, ItemUse.outside, ItemOp.drops, ItemOp.atQueue, ItemOp.lruLock,
        ItemOp.isAlloc, ItemOp.lockKey]
  | some it =>
    cases use with
    | reply e => cases e <;> simp [ItemUse.inside, ItemUse.outside, ItemOp.drops, ItemOp.atQueue,
        ItemOp.lruLock, ItemOp.isAlloc, ItemOp.lockKey]
    | _ => simp [ItemUse.inside, ItemUse.outside, ItemOp.drops, ItemOp.atQueue, ItemOp.lruLock,
        ItemOp.isAlloc, ItemOp.lockKey]

/-- `do_item_get` refers to the item it has found. -/
lemma Sound.findItem {got : List ι} (hs : Sound cfg s g)
    (hg : Goes s s' a (.doItemGet k use) new rest got) (x : CacheItem κ) (hfound : s.table k = some it)
    (hitems : s'.items = Function.update s.items it x) (hlru : s'.lru = s.lru)
    (htable : s'.table = s.table) (hitemLocks : s'.itemLocks = s.itemLocks)
    (hlruLocks : s'.lruLocks = s.lruLocks) (hactor : (s'.actors a).item = (s.actors a).item)
    (hkey : x.key = (s.items it).key) (hlinked : x.linked = (s.items it).linked)
    (hslabbed : x.slabbed = (s.items it).slabbed)
    (hrefcount : x.refcount.toNat = (s.items it).refcount.toNat + got.count it)
    (hgot : ∀ y, y ≠ it → got.count y = 0)
    (hquiet : ∀ op' ∈ new, op'.atQueue = [] ∧ op'.lruLock = none)
    (howes : ∀ b, Owes cfg new b ↔ cfg.bucket k = b)
    (hprog : (s'.items it).linked = true → (s'.items it).key = k →
      (∀ y, (s'.items y).linked = true → (s'.items y).key = k → y = it) →
      (∀ y ∈ use.newItem, s'.Fresh y ∧ (s'.items y).key = k ∧ ∃ op ∈ rest, y ∈ op.drops) →
      Prog cfg s' g [] rest → Prog cfg s' g [] (new ++ rest)) : Sound cfg s' g := by
  obtain ⟨hok, _⟩ := hs.ok hg.todo
  obtain ⟨hl, hk⟩ := (hs.table k it).1 hfound
  have hlock : s.itemLocks (cfg.bucket (s.items it).key) = some a := by
    rw [hk]
    exact (hs.locks _ a).2 (by rw [hg.todo]; exact owes_cons.2 (.inl ⟨k, rfl, rfl⟩))
  have hlocked : ∀ b, b ≠ a → s.itemLocks (cfg.bucket (s.items it).key) ≠ some b := fun b hb h =>
    hb (Option.some.inj (h.symm.trans hlock))
  have hcalm : AllCalm rest := hok.last rfl
  have hne : ∀ y, s.Fresh y → y ≠ it := by
    rintro y hf rfl
    rw [hf.linked] at hl
    cases hl
  have hother : ∀ y, y ≠ it → s'.items y = s.items y := fun y hy => by
    rw [hitems, Function.update_of_ne hy]
  have hself : s'.items it = x := by rw [hitems, Function.update_self]
  refine hs.edit hg x hitems (c := s.lru.clsid it) (by simp only [hlru, Function.update_eq_self])
    (.inl rfl) (.inr ⟨hkey, hlocked, .inr hl⟩) (fun y hy => by simp [hgot y hy, ItemOp.drops]) ?_
    (fun h => ?_) (fun k' y => ?_) (fun _ => ?_) rfl
    (fun op' hop' y hy => by simp [(hquiet op' hop').1] at hy) hcalm.apart (fun _ => .inl hl)
    (by simp [ItemOp.unlinks]) (by rw [hitemLocks]; exact fun _ _ _ => Iff.rfl) (fun b => ?_)
    (by rw [hlruLocks]; exact fun _ _ _ => Iff.rfl) (fun c => ?_) (fun hp => ?_) fun y hy => ?_
  · rw [isLinkQ_of_quiet _ (hs.head_quiet hg.todo fun op' h => (hquiet op' h).1), hlinked, hrefcount]
    simp [ItemOp.drops, ItemOp.isLinkQ]
  · rw [hslabbed] at h
    rw [(hs.free it h).1] at hl
    cases hl
  · rw [htable, hs.table]
    by_cases hy : y = it
    · subst hy
      rw [Function.update_self, hlinked, hkey]
    · rw [Function.update_of_ne hy]
  · rw [hlinked]
    exact hs.queue_of_lock hg.todo hlocked (by simp [ItemOp.atQueue])
  · rw [hitemLocks, hs.locks, hg.todo, owes_append, owes_cons, howes]
    simp [ItemOp.lockKey]
  · rw [hlruLocks, owesLru_append, hs.owesLru_rest hg.todo rfl]
    refine (or_iff_right ?_).symm
    rintro ⟨op', hop', h⟩
    simp [(hquiet op' hop').2] at h
  · refine hprog (by rw [hself, hlinked, hl]) (by rw [hself, hkey, hk]) (fun y hy hky => ?_)
      (fun y hy => ?_) hp
    · by_contra hyit
      rw [hother y hyit] at hy hky
      exact hyit (hs.linked_inj hy hl (hky.trans hk.symm))
    · have hf := hok.fresh y hy
      have hrefs := hg.refs y
      rw [hgot y (hne y hf)] at hrefs
      simp only [ItemOp.drops, List.count_nil, Nat.add_zero] at hrefs
      have hheld := hok.held y (ItemOp.fresh_needs hy)
      simp only [ItemOp.drops, List.not_mem_nil, false_or] at hheld
      rw [hother y (hne y hf)]
      exact ⟨⟨by rw [hother y (hne y hf)]; exact hf.linked, by rw [hrefs]; exact hf.refs⟩,
        hok.keyed (k, y) (List.mem_map.2 ⟨y, hy, rfl⟩), hheld⟩
  · rw [hactor] at hy
    exact hs.item_fresh hg (fun y hy => by simp [hgot y hy, ItemOp.drops]) hother
      (fun y hy => hne y.1 (hs.item a y hy).1) hy

omit [DecidableEq τ] [Fintype τ] in
/-- What `do_item_get` does with the item that it returns. -/
lemma found_eq (cfg : ItemSettings κ) (s : ItemCache τ ι κ) (use : ItemUse ι) (it : ι) (room : Bool) :
    ∃ x bumps,
    (s.found cfg use it room).1 = { s with items := Function.update s.items it x, bumps := bumps } ∧
    x.key = (s.items it).key ∧ x.linked = (s.items it).linked ∧ x.slabbed = (s.items it).slabbed ∧
    (bumps = s.bumps ∧ x.refcount = (s.items it).refcount + 1 ∨
      bumps = it :: s.bumps ∧ x.refcount = (s.items it).refcount + 1 + 1) ∧
    ((s.found cfg use it room).2 = [] ∨
      (s.found cfg use it room).2 = [.doItemUpdate it] ∧ use.update = true) := by
  have hsame : ∀ x : CacheItem κ, (s.refcountIncr it).setItem it x =
      { s with items := Function.update s.items it x } := fun x => by
    simp [refcountIncr, setItem, Function.update_idem]
  have hself : (s.refcountIncr it).items it =
      { s.items it with refcount := (s.items it).refcount + 1 } := by
    simp [refcountIncr, setItem]
  unfold found
  split
  · next hupdate =>
    unfold markFetched
    split
    · split
      · exact ⟨_, _, rfl, rfl, rfl, rfl, .inl ⟨rfl, rfl⟩, .inl rfl⟩
      · split
        · exact ⟨_, _, hsame _, by rw [hself], by rw [hself], by rw [hself], .inl ⟨rfl, by rw [hself]⟩,
            .inl rfl⟩
        · split
          · exact ⟨_, _, hsame _, by rw [hself], by rw [hself], by rw [hself],
              .inl ⟨rfl, by rw [hself]⟩, .inr ⟨rfl, hupdate⟩⟩
          · split
            · refine ⟨{ s.items it with
                refcount := (s.items it).refcount + 1 + 1, active := true }, it :: s.bumps, ?_, rfl, rfl,
                rfl, .inr ⟨rfl, rfl⟩, .inl rfl⟩
              simp [lruBumpAsync, refcountIncr, setItem, Function.update_idem]
            · exact ⟨_, _, rfl, rfl, rfl, rfl, .inl ⟨rfl, rfl⟩, .inl rfl⟩
    · exact ⟨_, _, hsame _, by rw [hself], by rw [hself], by rw [hself], .inl ⟨rfl, by rw [hself]⟩,
        .inr ⟨rfl, hupdate⟩⟩
  · exact ⟨_, _, rfl, rfl, rfl, rfl, .inl ⟨rfl, rfl⟩, .inl rfl⟩

/-- There is room for two more references in each `refcount`. -/
def Roomy (s : ItemCache τ ι κ) : Prop := ∀ it, (s.items it).refcount.toNat + 2 < 65536

lemma refcount_succ {r : UInt16} (h : r.toNat + 1 < 65536) : (r + 1).toNat = r.toNat + 1 := by
  rw [UInt16.toNat_add, UInt16.toNat_one, Nat.mod_eq_of_lt h]

/-- The same with the operations that are left to do then, and the reference of a bump buffer. -/
lemma keep_found (hs : Sound cfg s g) (htodo : (s.actors a).todo = .doItemGet k use :: rest)
    (hfound : s.table k = some it) (x : CacheItem κ) (bumps : List ι) (marks : List (ItemOp ι κ))
    (old : Option ι)
    (hmarks : ∀ op' ∈ marks, op'.atQueue = [] ∧ op'.lruLock = none ∧ op'.isAlloc = false ∧
      op'.lockKey = none)
    (hgets : marks.flatMap ItemOp.drops ++ old.toList = [it]) (hkey : x.key = (s.items it).key)
    (hlinked : x.linked = (s.items it).linked) (hslabbed : x.slabbed = (s.items it).slabbed)
    (hrefcount : bumps = s.bumps ∧ x.refcount = (s.items it).refcount + 1 ∨
      bumps = it :: s.bumps ∧ x.refcount = (s.items it).refcount + 1 + 1)
    (hroom : (s.items it).refcount.toNat + 2 < 65536)
    (hprog : ∀ s' : ItemCache τ ι κ, (s'.items it).linked = true → (s'.items it).key = k →
      (∀ y, (s'.items y).linked = true → (s'.items y).key = k → y = it) →
      (∀ y ∈ use.newItem, s'.Fresh y ∧ (s'.items y).key = k ∧ ∃ op ∈ rest, y ∈ op.drops) →
      Prog cfg s' g [] rest →
      Prog cfg s' g [] (marks ++ (use.inside k old ++ .itemUnlock k :: use.outside k old ++ rest))) :
    Sound cfg (setTodo { s with items := Function.update s.items it x, bumps := bumps } a
      (marks ++ (use.inside k old ++ .itemUnlock k :: use.outside k old) ++ rest)) g := by
  obtain ⟨hdrops, hafter, howes⟩ := dues_found cfg k use old
  generalize hrest : use.inside k old ++ .itemUnlock k :: use.outside k old = after at *
  have hall : ∀ op' ∈ marks ++ after, op'.atQueue = [] ∧ op'.lruLock = none ∧ op'.isAlloc = false := by
    intro op' hop'
    rcases List.mem_append.1 hop' with hop' | hop'
    · exact ⟨(hmarks op' hop').1, (hmarks op' hop').2.1, (hmarks op' hop').2.2.1⟩
    · exact hafter op' hop'
  have hother : ∀ b, b ≠ a → (setTodo { s with items := Function.update s.items it x, bumps := bumps } a
      (marks ++ after ++ rest)).actors b = s.actors b := fun b hb => by simp [setTodo, setActor, hb]
  have hself : (setTodo { s with items := Function.update s.items it x, bumps := bumps } a
      (marks ++ after ++ rest)).actors a = { s.actors a with todo := marks ++ after ++ rest } := by
    simp [setTodo, setActor]
  have hg : ∀ got : List ι, (∀ y, bumps.count y + [it].count y = s.bumps.count y + got.count y) →
      Goes s (setTodo { s with items := Function.update s.items it x, bumps := bumps } a
        (marks ++ after ++ rest)) a (.doItemGet k use) (marks ++ after) rest got := by
    intro got hgot
    refine ⟨htodo, by rw [hself], hother, fun y => ?_, fun op' hop' h => by
      simp [(hall op' hop').2.2] at h⟩
    have hstep := refs_step hother y
    have hbumps : (setTodo { s with items := Function.update s.items it x, bumps := bumps } a
      (marks ++ after ++ rest)).bumps = bumps := rfl
    have hcount := congrArg (List.count y) hgets
    have hy := hgot y
    rw [hself, hbumps] at hstep
    simp only [ItemActor.refs, htodo, List.flatMap_cons, List.flatMap_append, hdrops, ItemOp.drops,
      List.count_append, List.count_nil] at hstep hcount ⊢
    omega
  have hfind : ∀ got : List ι, (∀ y, bumps.count y + [it].count y = s.bumps.count y + got.count y) →
      x.refcount.toNat = (s.items it).refcount.toNat + got.count it → (∀ y, y ≠ it → got.count y = 0) →
      Sound cfg (setTodo { s with items := Function.update s.items it x, bumps := bumps } a
        (marks ++ after ++ rest)) g := by
    intro got hbumps hcount hgot
    refine hs.findItem (hg got hbumps) x hfound rfl rfl rfl rfl rfl (by rw [hself]) hkey hlinked hslabbed
      hcount hgot (fun op' h => ⟨(hall op' h).1, (hall op' h).2.1⟩) (fun b => ?_)
      fun hl hk huniq hfresh hp => ?_
    · rw [owes_append, howes]
      refine or_iff_right ?_
      rintro ⟨op', hop', k', hk', _⟩
      simp [(hmarks op' hop').2.2.2] at hk'
    · have hall := hprog _ hl hk huniq hfresh hp
      rwa [← List.append_assoc] at hall
  have hone : ((s.items it).refcount + 1).toNat = (s.items it).refcount.toNat + 1 :=
    refcount_succ (by omega)
  rcases hrefcount with ⟨rfl, hr⟩ | ⟨rfl, hr⟩
  · refine hfind [it] (fun _ => rfl) ?_ fun y hy => by simp [Ne.symm hy]
    rw [hr, hone, List.count_singleton_self]
  · refine hfind [it, it] (fun y => ?_) ?_ fun y hy => by simp [Ne.symm hy]
    · simp only [List.count_cons, List.count_nil]
      omega
    · rw [hr, refcount_succ (by omega), hone]
      simp

lemma keep_doItemGet {room : Bool} (hs : Sound cfg s g) (hroom : Roomy s)
    (htodo : (s.actors a).todo = .doItemGet k use :: rest)
    (h : s.doItemGet cfg k use room = some (s₁, new, o)) :
    .broken ∉ o ∧ Sound cfg (s₁.setTodo a (new ++ rest)) g := by
  obtain ⟨hok, hrest⟩ := hs.ok htodo
  have hcalm : AllCalm rest := hok.last rfl
  have honce : ¬ Owes cfg rest (cfg.bucket k) := hok.once k rfl
  simp only [doItemGet] at h
  split at h
  · next hnone =>
    cases h
    obtain ⟨hdrops, hnew, howes⟩ := dues_found cfg k use none
    refine ⟨by simp, hs.goOn htodo ⟨fun y => by rw [hdrops]; rfl, fun b => ?_, fun c => ?_, rfl,
      fun op' h => (hnew op' h).1, fun op' hop' h => by simp [(hnew op' hop').2.2] at h⟩
      (prog_missed (fun x hx hk => ?_) (fun x hx => ?_) honce hcalm hrest)⟩
    · rw [howes]
      simp [ItemOp.lockKey]
    · refine iff_of_false ?_ (by simp [ItemOp.lruLock])
      rintro ⟨op', hop', h⟩
      simp [(hnew op' hop').2.1] at h
    · rw [(hs.table k x).2 ⟨hx, hk⟩] at hnone
      cases hnone
    · have hheld := hok.held x (ItemOp.fresh_needs hx)
      simp only [ItemOp.drops, List.not_mem_nil, false_or] at hheld
      exact ⟨hok.fresh x hx, hok.keyed (k, x) (List.mem_map.2 ⟨x, hx, rfl⟩), hheld⟩
  next it hfound =>
  split at h
  · -- the item is unlinked
    cases h
    refine ⟨by simp, keep_found hs htodo hfound _ s.bumps [.doItemUnlink it false, .doItemRemove it] none
      (by simp [ItemOp.atQueue, ItemOp.lruLock, ItemOp.isAlloc, ItemOp.lockKey]) rfl rfl rfl rfl
      (.inl ⟨rfl, rfl⟩) (by have hlt := hroom it; omega) fun s' hl hk huniq hfresh hp => ?_⟩
    have hbehind : Behind it (use.inside k none ++ .itemUnlock k :: use.outside k none ++ rest) := by
      have hne : ∀ y ∈ use.newItem, it ≠ y := by
        rintro y hy rfl
        rw [(hfresh it hy).1.linked] at hl
        cases hl
      cases use with
      | store y comm =>
        have hy : it ≠ y := hne y (by simp [ItemUse.newItem])
        simp [ItemUse.inside, ItemUse.outside, ItemOp.atQueue, ItemOp.firm, ItemOp.fresh, ItemOp.found,
          ItemOp.nolock, hcalm.behind, hy]
      | reply e => cases e <;> simp [ItemUse.inside, ItemUse.outside, ItemOp.atQueue, ItemOp.firm,
          ItemOp.fresh, ItemOp.found, ItemOp.nolock, hcalm.behind]
      | _ => simp [ItemUse.inside, ItemUse.outside, ItemOp.atQueue, ItemOp.firm, ItemOp.fresh,
          ItemOp.found, ItemOp.nolock, hcalm.behind]
    have howes : Owes cfg (use.inside k none ++ .itemUnlock k :: use.outside k none ++ rest)
        (cfg.bucket (s'.items it).key) := by
      rw [hk]
      simp [ItemOp.lockKey]
    refine .cons (ok_doItemUnlink (owes_cons.2 (.inr howes)) ⟨_, List.mem_cons_self, by
      simp [ItemOp.drops]⟩ (behind_cons.2 ⟨by simp [ItemOp.atQueue, ItemOp.firm, ItemOp.fresh,
        ItemOp.found, ItemOp.nolock], hbehind⟩)) (.cons (ok_doItemRemove howes hbehind)
        (prog_missed (fun y hy hky => ?_) hfresh honce hcalm (hp.mono (by simp))))
    simp [ItemOp.unlinks, huniq y hy hky]
  · cases h
    obtain ⟨x, bumps, heq, hkey, hlinked, hslabbed, hrefcount, hmarks⟩ :=
      found_eq cfg s use it room
    refine ⟨by simp, ?_⟩
    rw [heq]
    rcases hmarks with hmarks | ⟨hmarks, hupdate⟩
    · rw [hmarks]
      exact keep_found hs htodo hfound x bumps [] (some it) (by simp) rfl hkey hlinked hslabbed hrefcount
        (hroom it) fun s' hl hk huniq hfresh hp => prog_found hl hk hfresh honce hcalm hp
    · rw [hmarks]
      refine keep_found hs htodo hfound x bumps [.doItemUpdate it] (some it)
        (by simp [ItemOp.atQueue, ItemOp.lruLock, ItemOp.isAlloc, ItemOp.lockKey]) rfl hkey hlinked
        hslabbed hrefcount (hroom it) fun s' hl hk huniq hfresh hp => ?_
      refine .cons (ok_doItemUpdate ?_ ?_ ?_) (prog_found hl hk hfresh honce hcalm hp)
      · rw [hk]
        simp [ItemOp.lockKey]
      · cases use with
        | reply e => exact ⟨.limitedGet k it, by simp [ItemUse.outside], by simp [ItemOp.drops]⟩
        | touch e => exact ⟨.itemRemove it, by simp [ItemUse.outside], by simp [ItemOp.drops]⟩
        | _ => cases hupdate
      · cases use with
        | reply e => cases e <;> simp [ItemUse.inside, ItemUse.outside, ItemOp.atQueue, ItemOp.firm,
            ItemOp.fresh, ItemOp.found, ItemOp.nolock, hcalm.behind]
        | touch e => simp [ItemUse.inside, ItemUse.outside, ItemOp.atQueue, ItemOp.firm,
            ItemOp.fresh, ItemOp.found, ItemOp.nolock, hcalm.behind]
        | _ => cases hupdate

end Found

end Keep

end ItemCache

end Skq.Mem
