import SkqBench.Mem.ItemsQueues
import SkqBench.Lib.Run

/-!
# Runs of the cache

Every operation and every command keeps `Sound`, and none observes `broken`.  So in every run no
assertion fails and no item is used that is free, and what `refcount` counts is known exactly for every
item whose lock nobody has.
-/

namespace Skq.Mem

open Lib

namespace ItemCache

variable {τ ι κ : Type*} [DecidableEq τ] [DecidableEq ι] [DecidableEq κ] [Fintype τ]
  {cfg : ItemSettings κ} {s s' s₁ : ItemCache τ ι κ} {g g' : Lru.History ι} {op : ItemOp ι κ}
  {rest new : List (ItemOp ι κ)} {it : ι} {a b : τ} {c : ℕ} {o : List (ItemObs κ)} {k : κ}
  {choice : ItemChoice ι}

/-! ## Operations -/

section Operations

/-- **Every operation keeps the cache sound.** -/
lemma keep_runOp (hs : Sound cfg s g) (hroom : Roomy s) (htodo : (s.actors a).todo = op :: rest)
    (h : s.runOp cfg a choice op = some (s₁, new, o)) :
    .broken ∉ o ∧ ∃ g', Sound cfg (s₁.setTodo a (new ++ rest)) g' := by
  have hsame : ∀ {s₁ : ItemCache τ ι κ} {new : List (ItemOp ι κ)} {o : List (ItemObs κ)},
      .broken ∉ o ∧ Sound cfg (s₁.setTodo a (new ++ rest)) g →
      .broken ∉ o ∧ ∃ g', Sound cfg (s₁.setTodo a (new ++ rest)) g' := fun h => ⟨h.1, g, h.2⟩
  cases op with
  | itemGet k use => exact hsame (keep_itemGet hs htodo h)
  | itemRemove it => exact hsame (keep_itemRemove hs htodo h)
  | itemUnlink it => exact hsame (keep_itemUnlink hs htodo h)
  | itemBump it => exact hsame (keep_itemBump hs htodo h)
  | itemRemoveHeld it =>
    simp only [runOp, stuck_itemRemoveHeld hs htodo] at h
    cases h
  | itemUnlock k =>
    cases h
    exact ⟨by simp, g, keep_itemUnlock hs htodo⟩
  | lruUnlock c =>
    cases h
    exact ⟨by simp, g, hs.lruUnlock htodo rfl rfl rfl rfl rfl⟩
  | doItemGet k use => exact hsame (keep_doItemGet hs hroom htodo h)
  | doItemTouch it e =>
    cases h
    exact ⟨by simp, g, keep_doItemTouch hs htodo⟩
  | doItemLink it => exact hsame (keep_doItemLink hs htodo h)
  | itemLinkQ it => exact keep_itemLinkQ hs hroom htodo h
  | doItemUnlink it nolock => exact hsame (keep_doItemUnlink hs htodo h)
  | itemUnlinkQ it nolock => exact keep_itemUnlinkQ hs htodo h
  | doItemRemove it => exact hsame (keep_doItemRemove hs htodo h)
  | doItemUpdate it => exact keep_doItemUpdate hs htodo h
  | itemMoveQ it c => exact keep_itemMoveQ hs htodo h
  | doStoreItem k it comm old => exact hsame (keep_doStoreItem hs htodo h)
  | storeAppend k it comm old => exact hsame (keep_storeAppend hs htodo h)
  | doAddDelta k incr n cas it => exact hsame (keep_doAddDelta hs htodo h)
  | deltaReplace k incr n cas it value => exact hsame (keep_deltaReplace hs htodo h)
  | setCas it new =>
    cases h
    exact ⟨by simp, g, keep_setCas hs htodo⟩
  | limitedGet k it => exact hsame (keep_limitedGet hs htodo h)
  | reply k it => exact hsame (keep_reply hs htodo h)
  | itemAlloc k flags e comm cas => exact hsame (keep_itemAlloc hs htodo h)
  | lruPullTail c fl => exact hsame (keep_lruPullTail hs htodo h)
  | pullNext c fl tries search => exact keep_pullNext hs hroom htodo h
  | crawl c expired => exact keep_crawl hs hroom htodo h
  | crawlerEval it expired => exact hsame (keep_crawlerEval hs htodo h)

omit [DecidableEq τ] [DecidableEq ι] [DecidableEq κ] [Fintype τ] in
/-- An item that is used is referred to, or found in a queue. -/
lemma uses_needs (hit : it ∈ op.uses) : it ∈ op.needs ∨ ∃ c, op.search = some (c, .item it) := by
  cases op with
  | pullNext c fl tries search =>
    match search with
    | none => cases hit
    | some (.crawler d) => cases hit
    | some (.item it') =>
      cases List.mem_singleton.1 hit
      exact .inr ⟨c, rfl⟩
  | _ => exact .inl (by simp_all [ItemOp.uses, ItemOp.needs, ItemOp.under, ItemOp.fresh, ItemOp.drops])

omit [DecidableEq τ] [DecidableEq κ] in
/-- No operation uses an item that is free. -/
lemma Sound.uses_ok (hs : Sound cfg s g) (hop : op ∈ (s.actors a).todo) (hit : it ∈ op.uses) :
    (s.items it).slabbed = false := by
  rcases uses_needs hit with hneeds | ⟨c, hsr⟩
  · exact hs.not_slabbed (hs.held hop hneeds)
  · obtain ⟨_, _, hok⟩ := (hs.progs a).ok hop
    exact Bool.eq_false_iff.2 fun hslabbed => hs.free_out hslabbed c (hok.search c _ hsr)

/-- A step of an actor. -/
lemma keep_runActor (hs : Sound cfg s g) (hroom : Roomy s)
    (h : s.runActor cfg a choice = some (s', o)) : .broken ∉ o ∧ ∃ g', Sound cfg s' g' := by
  unfold runActor at h
  split at h
  · cases h
  · next op rest htodo =>
    obtain ⟨⟨s₁, new, obs⟩, hop, heq⟩ := Option.map_eq_some_iff.1 h
    cases heq
    obtain ⟨hbroken, hsound⟩ := keep_runOp hs hroom htodo hop
    refine ⟨?_, hsound⟩
    have huses : (op.uses.all fun it => !(s.items it).slabbed) = true := by
      refine List.all_eq_true.2 fun it hit => ?_
      rw [hs.uses_ok (mem_of_todo htodo) hit]
      rfl
    simpa [check, huses] using hbroken

end Operations

/-! ## Commands -/

section Commands

omit [DecidableEq κ] in
/-- A command begins: the references of the actor are those it had, and those it takes over from the
bump buffers. -/
lemma Sound.begin (hs : Sound cfg s g) (htodo : (s.actors a).todo = []) (y : ItemActor ι κ)
    (bumps : List ι) (hrefs : ∀ it, y.refs.count it + bumps.count it =
      (s.actors a).refs.count it + s.bumps.count it)
    (hnew : ∀ op ∈ y.todo, op.atQueue = [] ∧ op.lockKey = none ∧ op.lruLock = none)
    (hprog : Prog cfg s g [] y.todo)
    (hitem : ∀ x, y.item = some x → s.Fresh x.1 ∧ ∀ op ∈ y.todo, op.isAlloc = false) :
    Sound cfg { s.setActor a y with bumps := bumps } g := by
  have hother : ∀ b, b ≠ a → ({ s.setActor a y with bumps := bumps } : ItemCache τ ι κ).actors b =
      s.actors b := fun b hb => Function.update_of_ne hb ..
  have hself : ({ s.setActor a y with bumps := bumps } : ItemCache τ ι κ).actors a = y :=
    Function.update_self ..
  refine hs.turn hother rfl rfl rfl (fun it => ?_) (fun op hop => ?_) (fun op hop => ?_)
    (fun _ _ _ => Iff.rfl) (fun b => ?_) (fun _ _ _ => Iff.rfl) (fun c => ?_) (by rwa [hself])
    fun x hx => ?_
  · have hstep := refs_step hother it
    rw [hself] at hstep
    have hcount := hrefs it
    simp only at hstep ⊢
    omega
  · rw [htodo] at hop
    cases hop
  · rw [hself] at hop
    exact (hnew op (List.mem_of_mem_head? hop)).1
  · rw [hself]
    refine (hs.locks b a).trans ?_
    rw [htodo]
    refine iff_of_false owes_nil ?_
    rintro ⟨op, hop, k, hk, _⟩
    simp [(hnew op hop).2.1] at hk
  · rw [hself]
    refine (hs.lruLocks c a).trans ?_
    rw [htodo]
    refine iff_of_false owesLru_nil ?_
    rintro ⟨op, hop, hk⟩
    simp [(hnew op hop).2.2] at hk
  · rw [hself] at hx ⊢
    exact hitem x hx

omit [DecidableEq κ] in
/-- The data of a new item is read. -/
lemma Sound.fill (hs : Sound cfg s g) (htodo : (s.actors a).todo = []) {x : ι × Nread}
    (hx : (s.actors a).item = some x) (data : List Char) :
    Sound cfg (s.setItem x.1 { s.items x.1 with data := data }) g := by
  have hfield : ∀ y, ((s.setItem x.1 { s.items x.1 with data := data }).items y).linked =
        (s.items y).linked ∧
      ((s.setItem x.1 { s.items x.1 with data := data }).items y).key = (s.items y).key ∧
      ((s.setItem x.1 { s.items x.1 with data := data }).items y).refcount = (s.items y).refcount ∧
      ((s.setItem x.1 { s.items x.1 with data := data }).items y).slabbed = (s.items y).slabbed := by
    intro y
    by_cases hy : y = x.1
    · subst hy
      simp [setItem]
    · simp [setItem, hy]
  have hkeep : ∀ {y}, s.Fresh y → (s.setItem x.1 { s.items x.1 with data := data }).Fresh y :=
    fun hf => ⟨by rw [(hfield _).1]; exact hf.linked, hf.refs⟩
  refine ⟨hs.lru, fun y => ?_, fun y => ?_, fun k y => ?_, fun y hq => ?_, hs.locks, hs.lruLocks,
    fun b => ?_, fun b y hy => ⟨hkeep (hs.item b y hy).1, (hs.item b y hy).2⟩⟩
  · rw [(hfield y).1, (hfield y).2.2.1]
    exact hs.count y
  · rw [(hfield y).1, (hfield y).2.2.2]
    exact hs.free y
  · rw [(hfield y).1, (hfield y).2.1]
    exact hs.table k y
  · rw [(hfield y).1]
    exact hs.queued y hq
  · refine (hs.progs b).congr (fun y hy => by cases hy) (fun _ _ y _ => (hfield y).2.1)
      (fun op hop y hy => ⟨?_, rfl, fun _ => Iff.rfl⟩) (fun _ _ _ _ h => hkeep h)
      (fun _ _ y _ h => by rwa [(hfield y).1] at h)
      (fun _ _ _ _ y hl hk => by rw [(hfield y).1] at hl; rw [(hfield y).2.1] at hk; exact ⟨hl, hk⟩)
      fun _ _ c n _ h => by cases n <;> exact h
    -- nobody else refers to the new item
    have hne : y ≠ x.1 := by
      rintro rfl
      have hheld := hs.held hop (ItemOp.under_needs (ItemOp.firm_under hy))
      by_cases hb : b = a
      · subst hb
        rw [htodo] at hop
        cases hop
      · have htwo := two_le_refs hb hheld (b := a) (by simp [ItemActor.refs, hx])
        rw [(hs.item a x hx).1.refs] at htwo
        omega
    exact Function.update_of_ne hne ..

omit [DecidableEq κ] in
/-- The commands that begin with `do_item_get`. -/
lemma Sound.beginGet (hs : Sound cfg s g) (htodo : (s.actors a).todo = []) {use : ItemUse ι}
    (huse : use.newItem = []) : Sound cfg (s.setTodo a [.itemGet k use]) g := by
  refine hs.begin htodo _ s.bumps (fun it => ?_) (by simp [ItemOp.atQueue, ItemOp.lockKey, ItemOp.lruLock])
    (.cons (ok_itemGet (by simp [huse]) (by simp)) trivial) fun x hx => ?_
  · simp [ItemActor.refs, htodo, ItemOp.drops]
  · exact ⟨(hs.item a x hx).1, by simp [ItemOp.isAlloc]⟩

lemma keep_runCommand {cmd : ItemCommand ι κ} (hs : Sound cfg s g) (htodo : (s.actors a).todo = [])
    (h : s.runCommand a cmd = some (s', o)) : .broken ∉ o ∧ Sound cfg s' g := by
  cases cmd with
  | get k e =>
    cases h
    exact ⟨by simp, hs.beginGet htodo rfl⟩
  | touch k e =>
    cases h
    exact ⟨by simp, hs.beginGet htodo rfl⟩
  | delete k =>
    cases h
    exact ⟨by simp, hs.beginGet htodo rfl⟩
  | delta k incr n cas =>
    cases h
    exact ⟨by simp, hs.beginGet htodo rfl⟩
  | alloc k flags e comm cas =>
    simp only [runCommand] at h
    split at h
    · next hnone =>
      cases h
      refine ⟨by simp, hs.begin htodo _ s.bumps (fun it => ?_)
        (by simp [ItemOp.atQueue, ItemOp.lockKey, ItemOp.lruLock])
        (.cons (ok_itemAlloc (by simp)) trivial) fun x hx => ?_⟩
      · simp [ItemActor.refs, htodo, ItemOp.drops]
      · simp only [hnone] at hx
        cases hx
    · cases h
  | nread data =>
    simp only [runCommand] at h
    split at h
    · cases h
    · next it comm hitem =>
      cases h
      have hfill := hs.fill htodo hitem data
      have hfresh : Fresh (s.setItem it { s.items it with data := data }) it := (hfill.item a _ hitem).1
      have hkey : ((s.setItem it { s.items it with data := data }).items it).key = (s.items it).key := by
        simp [setItem]
      refine ⟨by simp, hfill.begin htodo _ s.bumps (fun y => ?_) (fun op hop => ?_) ?_
        fun x hx => by cases hx⟩
      · split <;> simp [ItemActor.refs, htodo, ItemOp.drops, hitem, setItem]
      · simp only at hop
        split at hop <;> simp only [List.mem_cons, List.not_mem_nil, or_false] at hop
        · rcases hop with rfl | rfl <;> exact ⟨rfl, rfl, rfl⟩
        · subst hop
          exact ⟨rfl, rfl, rfl⟩
      · simp only
        split
        · refine .cons (ok_itemGet (fun x hx => ?_) ?_) (.cons (ok_itemRemove (by simp)) trivial)
          · cases List.mem_singleton.1 hx
            exact ⟨hfresh, hkey, _, List.mem_cons_self, by simp [ItemOp.drops]⟩
          · exact allCalm_cons.2 ⟨⟨rfl, rfl, rfl, rfl⟩, by simp⟩
        · exact .cons (ok_itemRemove (by simp)) trivial
  | drop =>
    simp only [runCommand] at h
    split at h
    · cases h
    · next it comm hitem =>
      cases h
      refine ⟨by simp, hs.begin htodo _ s.bumps (fun y => ?_)
        (by simp [ItemOp.atQueue, ItemOp.lockKey, ItemOp.lruLock])
        (.cons (ok_itemRemove (by simp)) trivial) fun x hx => by cases hx⟩
      simp [ItemActor.refs, htodo, ItemOp.drops, hitem]
  | transmit held =>
    simp only [runCommand] at h
    split at h
    · next hin =>
      cases h
      have hmem : held.it ∈ (s.actors a).refs := by
        simp only [ItemActor.refs, List.mem_append, List.mem_map]
        exact .inr ⟨held, hin, rfl⟩
      exact ⟨by simp [check, hs.not_slabbed hmem], hs⟩
    · cases h
  | release held =>
    simp only [runCommand] at h
    split at h
    · next hin =>
      cases h
      refine ⟨by simp, hs.begin htodo _ s.bumps (fun y => ?_)
        (by simp [ItemOp.atQueue, ItemOp.lockKey, ItemOp.lruLock])
        (.cons (ok_itemRemove (by simp)) trivial) fun x hx =>
          ⟨(hs.item a x hx).1, by simp [ItemOp.isAlloc]⟩⟩
      have hperm := ((List.perm_cons_erase hin).map HeldItem.it).count_eq y
      simp only [List.map_cons, List.count_cons] at hperm
      simp only [ItemActor.refs, htodo, ItemOp.drops, List.flatMap_cons, List.flatMap_nil,
        List.append_nil, List.nil_append, List.count_append, List.count_cons, List.count_nil]
      omega
    · cases h
  | bump it =>
    simp only [runCommand] at h
    split at h
    · next hin =>
      cases h
      refine ⟨by simp, hs.begin htodo _ (s.bumps.erase it) (fun y => ?_)
        (by simp [ItemOp.atQueue, ItemOp.lockKey, ItemOp.lruLock])
        (.cons (ok_itemBump (by simp)) trivial) fun x hx =>
          ⟨(hs.item a x hx).1, by simp [ItemOp.isAlloc]⟩⟩
      have hperm := (List.perm_cons_erase hin).count_eq y
      simp only [List.count_cons] at hperm
      simp only [ItemActor.refs, htodo, ItemOp.drops, List.flatMap_cons, List.flatMap_nil,
        List.append_nil, List.nil_append, List.count_append, List.count_cons, List.count_nil]
      omega
    · cases h
  | pull c fl =>
    cases h
    refine ⟨by simp, hs.begin htodo _ s.bumps (fun y => ?_)
      (by simp [ItemOp.atQueue, ItemOp.lockKey, ItemOp.lruLock])
      (.cons (ok_lruPullTail (by simp)) trivial) fun x hx =>
        ⟨(hs.item a x hx).1, by simp [ItemOp.isAlloc]⟩⟩
    simp [ItemActor.refs, htodo, ItemOp.drops]
  | crawl c expired =>
    cases h
    refine ⟨by simp, hs.begin htodo _ s.bumps (fun y => ?_)
      (by simp [ItemOp.atQueue, ItemOp.lockKey, ItemOp.lruLock])
      (.cons ok_crawl trivial) fun x hx => ⟨(hs.item a x hx).1, by simp [ItemOp.isAlloc]⟩⟩
    simp [ItemActor.refs, htodo, ItemOp.drops]

end Commands

/-! ## Runs -/

section Runs

omit [DecidableEq τ] [DecidableEq κ] in
/-- A step of the world around that touches nothing but the clocks. -/
lemma Sound.of_clocks (hs : Sound cfg s g) (now live : UInt32) (cas : UInt64) :
    Sound cfg { s with currentTime := now, oldestLive := live, oldestCas := cas } g := by
  refine ⟨hs.lru, hs.count, hs.free, hs.table, hs.queued, hs.locks, hs.lruLocks, fun b => ?_,
    fun b x hx => ⟨⟨(hs.item b x hx).1.linked, (hs.item b x hx).1.refs⟩, (hs.item b x hx).2⟩⟩
  exact (hs.progs b).congr (fun x hx => by cases hx) (fun _ _ _ _ => rfl)
    (fun _ _ _ _ => ⟨rfl, rfl, fun _ => Iff.rfl⟩) (fun _ _ _ _ h => ⟨h.linked, h.refs⟩)
    (fun _ _ _ _ h => h) (fun _ _ _ _ _ hl hk => ⟨hl, hk⟩)
    fun _ _ c n _ h => by cases n <;> exact h

omit [DecidableEq τ] [DecidableEq κ] [Fintype τ] in
/-- What the start of a crawler changes. -/
lemma start_spec (g : Lru.History ι) (lru : Lru ι) (c : ℕ) (n : UInt32) :
    (lru.doLruCrawlerStart c n).1.clsid = lru.clsid ∧
    (∀ d, d ≠ c → (lru.doLruCrawlerStart c n).1.enabled d = lru.enabled d) ∧
    ((lru.doLruCrawlerStart c n).2.foldl Lru.History.after g).lists = g.lists := by
  unfold Lru.doLruCrawlerStart
  split
  · exact ⟨rfl, fun _ _ => rfl, rfl⟩
  · exact ⟨rfl, fun d hd => Function.update_of_ne hd .., rfl⟩

/-- **Every step keeps the cache sound, and none breaks it.** -/
lemma Sound.step {lab : ItemLabel τ ι κ} (hs : Sound cfg s g) (hroom : Roomy s)
    (h : ItemCache.step cfg s lab = some (s', o)) : .broken ∉ o ∧ ∃ g', Sound cfg s' g' := by
  cases lab with
  | run a choice => exact keep_runActor hs hroom h
  | command a cmd =>
    simp only [ItemCache.step] at h
    split at h
    · next htodo =>
      obtain ⟨hbroken, hsound⟩ := keep_runCommand hs htodo h
      exact ⟨hbroken, g, hsound⟩
    · cases h
  | clock now =>
    cases h
    exact ⟨by simp, g, hs.of_clocks now s.oldestLive s.oldestCas⟩
  | flush live cas =>
    cases h
    exact ⟨by simp, g, hs.of_clocks s.currentTime live cas⟩
  | crawlerStart c n =>
    simp only [ItemCache.step] at h
    split at h
    · next hfree =>
      cases h
      obtain ⟨L, hi⟩ := hs.lru
      have hstart : Lru.step s.lru (.start c n) = some (s.lru.doLruCrawlerStart c n) := rfl
      obtain ⟨_, hinv⟩ := hi.step (show Lru.Disciplined s.lru (.start c n) from trivial) hstart
      obtain ⟨hcls, hen, hlists⟩ := start_spec g s.lru c n
      exact ⟨by simp, _, hs.of_lru (c := c) hinv hlists hcls hen hfree⟩
    · cases h
  | crawlerStop c =>
    simp only [ItemCache.step] at h
    split at h
    · next hfree =>
      cases h
      obtain ⟨L, hi⟩ := hs.lru
      have hstop : Lru.step s.lru (.abandon c) = some (s.lru.lruCrawlerClassDone c, [.abandoned c]) :=
        if_pos hfree.2
      obtain ⟨_, hinv⟩ := hi.step (show Lru.Disciplined s.lru (.abandon c) from trivial) hstop
      exact ⟨by simp, _, hs.of_lru (c := c) hinv rfl rfl (fun d hd => Function.update_of_ne hd ..) hfree.1⟩
    · cases h

omit [DecidableEq τ] [DecidableEq κ] in
/-- Before the first command. -/
lemma sound_init (items : ι → CacheItem κ) (clsid : ι → ℕ)
    (next prev : LruNode ι → Option (LruNode ι)) (now : UInt32) :
    Sound cfg (init (τ := τ) items clsid next prev now) .start := by
  have hrefs : ∀ it, (init (τ := τ) items clsid next prev now).refs it = 0 := fun it => by
    simp [refs, init, ItemActor.refs]
  refine ⟨⟨_, Lru.inv_init clsid next prev⟩, fun it => ?_, fun it _ => ⟨rfl, hrefs it⟩, fun k it => ?_,
    fun it _ => ?_, fun b a => ?_, fun c a => ?_, fun a => trivial, fun a x hx => by cases hx⟩
  · have hlinking : (init (τ := τ) items clsid next prev now).linking it = 0 :=
      threadsAt_eq_zero fun _ => rfl
    rw [hrefs, hlinking]
    rfl
  · exact iff_of_false (fun h => by cases h) (fun h => by cases h.1)
  · exact iff_of_false (fun h => by cases h) (fun h => by cases h)
  · exact iff_of_false (fun h => by cases h) owes_nil
  · exact iff_of_false (fun h => by cases h) owesLru_nil

/-- The guard of the runs: no `refcount` is about to overflow. -/
def Roomed (s : ItemCache τ ι κ) (_ : ItemLabel τ ι κ) : Prop := Roomy s

variable {tr : List (ItemObs κ)} {items : ι → CacheItem κ} {clsid : ι → ℕ}
  {next prev : LruNode ι → Option (LruNode ι)} {now : UInt32}

/-- What a whole run keeps. -/
lemma Sound.run (hr : Run (ItemCache.step cfg) Roomed (init items clsid next prev now) tr s) :
    .broken ∉ tr ∧ ∃ g, Sound cfg s g := by
  refine hr.inv_trace (fun tr s => .broken ∉ tr ∧ ∃ g, Sound cfg s g)
    ⟨by simp, _, sound_init items clsid next prev now⟩ ?_
  rintro tr s lab s' o ⟨hbroken, g, hs⟩ hroom h
  obtain ⟨hbroken', hsound⟩ := hs.step hroom h
  exact ⟨fun hmem => (List.mem_append.1 hmem).elim hbroken hbroken', hsound⟩

instance Roomed.decidable [Fintype ι] (s : ItemCache τ ι κ) (lab : ItemLabel τ ι κ) :
    Decidable (Roomed s lab) :=
  inferInstanceAs (Decidable (∀ it, (s.items it).refcount.toNat + 2 < 65536))

end Runs

end ItemCache

end Skq.Mem
