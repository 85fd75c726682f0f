import SkqBench.Mem.ItemsOrder

/-!
# The rules for one step

What a step has to keep so that the cache is sound after it: a step that changes nothing but what is
left to do and the locks, and a step that changes one item.
-/

namespace Skq.Mem

open Lib

namespace ItemCache

variable {τ ι κ : Type*} [DecidableEq ι] [Fintype τ] {cfg : ItemSettings κ} {s s' : ItemCache τ ι κ}
  {g g' : Lru.History ι} {U U' : List ι} {op : ItemOp ι κ} {p rest new : List (ItemOp ι κ)} {it : ι}
  {a b : τ} {c : ℕ}

/-! ## Steps of one actor -/

/-- An operation is carried out: `new` is to be done first of all then, and `got` are the references
that the actor has then for those it has given back. -/
structure Goes (s s' : ItemCache τ ι κ) (a : τ) (op : ItemOp ι κ) (new rest : List (ItemOp ι κ))
    (got : List ι) : Prop where
  todo : (s.actors a).todo = op :: rest
  todo' : (s'.actors a).todo = new ++ rest
  other : ∀ b, b ≠ a → s'.actors b = s.actors b
  refs : ∀ it, s'.refs it + op.drops.count it = s.refs it + got.count it
  alloc : ∀ op' ∈ new, op'.isAlloc = true → op.isAlloc = true

section Goes

variable [DecidableEq τ] {got : List ι} {s₁ : ItemCache τ ι κ}

/-- Nothing of the actor changes but what is left to do. -/
lemma Goes.of_todo (htodo : (s.actors a).todo = op :: rest) (hactors : s₁.actors = s.actors)
    (hbumps : s₁.bumps = s.bumps) (halloc : ∀ op' ∈ new, op'.isAlloc = true → op.isAlloc = true) :
    Goes s (s₁.setTodo a (new ++ rest)) a op new rest (new.flatMap ItemOp.drops) := by
  have hself : (s₁.setTodo a (new ++ rest)).actors a = { s.actors a with todo := new ++ rest } := by
    simp only [setTodo, setActor, Function.update_self, hactors]
  have hother : ∀ b, b ≠ a → (s₁.setTodo a (new ++ rest)).actors b = s.actors b := by
    intro b hb
    simp only [setTodo, setActor, Function.update_of_ne hb, hactors]
  refine ⟨htodo, by rw [hself], hother, fun it => ?_, halloc⟩
  have hstep := refs_step hother it
  have hbumps : (s₁.setTodo a (new ++ rest)).bumps = s.bumps := hbumps
  simp only [hself, hbumps, ItemActor.refs, htodo, List.flatMap_cons, List.flatMap_append,
    List.count_append] at hstep
  omega

omit [DecidableEq τ] in
/-- A connection that has an item does not allocate one. -/
lemma Goes.slot (hg : Goes s s' a op new rest got) (hs : Sound cfg s g) {x : ι × Nread}
    (hx : (s.actors a).item = some x) : ∀ op' ∈ (s'.actors a).todo, op'.isAlloc = false := by
  have hold := (hs.item a x hx).2
  rw [hg.todo] at hold
  intro op' hop'
  rw [hg.todo'] at hop'
  rcases List.mem_append.1 hop' with hnew | hrest
  · refine Bool.eq_false_iff.2 fun h => ?_
    have hop := hg.alloc op' hnew h
    rw [hold op List.mem_cons_self] at hop
    cases hop
  · exact hold op' (List.mem_cons_of_mem _ hrest)

/-- What is to hold of the count of an item. -/
lemma Sound.count_of (hs : Sound cfg s g) (hg : Goes s s' a op new rest got)
    (h : (s'.items it).refcount.toNat + op.drops.count it +
        (if (s.items it).linked then 1 else 0) +
        (if ItemOp.isLinkQ it (new ++ rest).head? then 1 else 0) =
      (s.items it).refcount.toNat + got.count it + (if (s'.items it).linked then 1 else 0) +
        if ItemOp.isLinkQ it (some op) then 1 else 0) :
    (s'.items it).refcount.toNat + s'.linking it =
      (if (s'.items it).linked then 1 else 0) + s'.refs it := by
  have hcount := hs.count it
  have hlinking := linking_step hg.other it
  have hrefs := hg.refs it
  rw [hg.todo, hg.todo', List.head?_cons] at hlinking
  omega

/-- The rule for a step that changes no item and no queue. -/
lemma Sound.turn (hs : Sound cfg s g) (hother : ∀ b, b ≠ a → s'.actors b = s.actors b)
    (hitems : s'.items = s.items) (htable : s'.table = s.table) (hlru : s'.lru = s.lru)
    (hrefs : ∀ it, s'.refs it = s.refs it)
    (hhead : ∀ op, (s.actors a).todo.head? = some op → op.atQueue = [])
    (hhead' : ∀ op, (s'.actors a).todo.head? = some op → op.atQueue = [])
    (hlocks : ∀ b c, c ≠ a → (s'.itemLocks b = some c ↔ s.itemLocks b = some c))
    (hlocksA : ∀ b, s'.itemLocks b = some a ↔ Owes cfg (s'.actors a).todo b)
    (hlruLocks : ∀ c b, b ≠ a → (s'.lruLocks c = some b ↔ s.lruLocks c = some b))
    (hlruLocksA : ∀ c, s'.lruLocks c = some a ↔ OwesLru (s'.actors a).todo c)
    (hprog : Prog cfg s g [] (s'.actors a).todo)
    (hitem : ∀ x, (s'.actors a).item = some x →
      s.Fresh x.1 ∧ ∀ op ∈ (s'.actors a).todo, op.isAlloc = false) : Sound cfg s' g := by
  have hfresh : ∀ {it}, s.Fresh it → s'.Fresh it := fun hf =>
    ⟨by rw [hitems]; exact hf.linked, by rw [hrefs]; exact hf.refs⟩
  have hwaiting : ∀ {c n}, s.Waiting g c n → s'.Waiting g c n := by
    intro c n hn
    cases n with
    | item it => exact hn
    | crawler d => exact ⟨hn.1, by rw [hlru]; exact hn.2⟩
  have hm : Moves cfg s s' g g a fun _ => False := by
    refine ⟨hother, fun it _ => ⟨by rw [hitems], by rw [hlru], fun _ => Iff.rfl, hrefs it⟩,
      fun it h => h.elim, fun x hx => ?_, fun _ _ _ _ _ h => hwaiting h⟩
    rw [hitems] at hx
    exact .inl ⟨hx, by rw [hitems]⟩
  refine hs.of_moves hm (by rw [hlru]; exact hs.lru) (fun _ h => h.elim) (fun _ h => h.elim) ?_
    (fun _ h => h.elim) ?_ ?_ hlocks hlocksA hlruLocks hlruLocksA ?_
    fun x hx => ⟨hfresh (hitem x hx).1, (hitem x hx).2⟩
  · intro k it
    rw [htable, hitems]
    exact hs.table k it
  · intro op hop it hit
    simp [hhead op hop] at hit
  · intro op hop it hit
    simp [hhead' op hop] at hit
  · refine hprog.congr (fun x hx => by cases hx) (fun _ _ _ _ => by rw [hitems])
      (fun _ _ _ _ => ⟨by rw [hitems], by rw [hlru], fun _ => Iff.rfl⟩) (fun _ _ _ _ h => hfresh h)
      (fun _ _ _ _ h => by rwa [hitems] at h)
      (fun _ _ _ _ _ hl hk => by rw [hitems] at hl hk; exact ⟨hl, hk⟩) (fun _ _ _ _ _ h => hwaiting h)

omit [DecidableEq τ] in
/-- What is in order when an operation is carried out. -/
lemma Sound.ok (hs : Sound cfg s g) (htodo : (s.actors a).todo = op :: rest) :
    OpOk cfg s g [] op rest ∧ Prog cfg s g op.unlinks rest := by
  have hp := hs.progs a
  rw [htodo] at hp
  exact ⟨hp.1, List.append_nil op.unlinks ▸ hp.2⟩

omit [DecidableEq τ] in
/-- An item is replaced by a new one. -/
lemma prog_replace {x : ι} (htable : ∀ y, (s.items y).linked = true →
      (s.items y).key = (s.items it).key → y = x)
    (hx : (s.items x).linked = true) (hkey : (s.items x).key = (s.items it).key) (hfresh : s.Fresh it)
    (hlock : Owes cfg rest (cfg.bucket (s.items it).key))
    (hheld : ∃ op ∈ rest, x ∈ op.drops) (hheld' : ∃ op ∈ rest, it ∈ op.drops)
    (hbehind : Behind x rest) (hbehind' : Behind it rest)
    (hlast : ∀ op ∈ rest, it ∉ op.gone ∧ ∀ key : ι → κ, op.absent key = none)
    (hrest : Prog cfg s g [x] rest) :
    Prog cfg s g [] (.doItemUnlink x false :: .doItemLink it :: rest) := by
  have hne : x ≠ it := by
    rintro rfl
    have hno := hfresh.linked
    rw [hx] at hno
    cases hno
  obtain ⟨op, hop, hdrop⟩ := hheld
  refine .cons (ok_doItemUnlink ?_ ⟨op, List.mem_cons_of_mem _ hop, hdrop⟩ ?_)
    (.cons (ok_doItemLink hlock hheld' hfresh ?_ hbehind' hlast) ?_)
  · exact owes_cons.2 (.inr (hkey ▸ hlock))
  · exact behind_cons.2 ⟨by simp [ItemOp.atQueue, ItemOp.firm, ItemOp.fresh, ItemOp.found,
      ItemOp.nolock, hne], hbehind⟩
  · intro y hy hky
    simp [ItemOp.unlinks, htable y hy hky]
  · exact hrest

/-- The operations `new` give back what `op` does. -/
def SameDues (cfg : ItemSettings κ) (op : ItemOp ι κ) (new : List (ItemOp ι κ)) : Prop :=
  (∀ it, (new.flatMap ItemOp.drops).count it = op.drops.count it) ∧
  (∀ b, Owes cfg new b ↔ ∃ k, op.lockKey = some k ∧ cfg.bucket k = b) ∧
  (∀ c, OwesLru new c ↔ op.lruLock = some c) ∧ op.atQueue = [] ∧ (∀ op' ∈ new, op'.atQueue = []) ∧
  ∀ op' ∈ new, op'.isAlloc = true → op.isAlloc = true

/-- The rule for an operation that takes or gives back locks, and goes on to others. -/
lemma Sound.goOnLocks (hs : Sound cfg s g) (htodo : (s.actors a).todo = op :: rest)
    (new : List (ItemOp ι κ)) (itemLocks lruLocks : ℕ → Option τ)
    (hdrops : ∀ it, (new.flatMap ItemOp.drops).count it = op.drops.count it)
    (hat : ∀ op' ∈ op :: new, op'.atQueue = [])
    (halloc : ∀ op' ∈ new, op'.isAlloc = true → op.isAlloc = true)
    (hlocks : ∀ b c, c ≠ a → (itemLocks b = some c ↔ s.itemLocks b = some c))
    (hlocksA : ∀ b, itemLocks b = some a ↔ Owes cfg (new ++ rest) b)
    (hlruLocks : ∀ c b, b ≠ a → (lruLocks c = some b ↔ s.lruLocks c = some b))
    (hlruLocksA : ∀ c, lruLocks c = some a ↔ OwesLru (new ++ rest) c)
    (hprog : Prog cfg s g [] (new ++ rest)) :
    Sound cfg (setTodo { s with itemLocks := itemLocks, lruLocks := lruLocks } a (new ++ rest)) g := by
  have hself : (setTodo { s with itemLocks := itemLocks, lruLocks := lruLocks } a
      (new ++ rest)).actors a = { s.actors a with todo := new ++ rest } := by
    simp only [setTodo, setActor, Function.update_self]
  have hg : Goes s (setTodo { s with itemLocks := itemLocks, lruLocks := lruLocks } a (new ++ rest))
    a op new rest _ := .of_todo htodo rfl rfl halloc
  obtain ⟨hok, _⟩ := hs.ok htodo
  refine hs.turn hg.other rfl rfl rfl (fun it => ?_) ?_ ?_ hlocks (fun b => ?_) hlruLocks
    (fun c => ?_) ?_ ?_
  · have hrefs := hg.refs it
    rw [hdrops] at hrefs
    omega
  · intro op' hop'
    rw [htodo] at hop'
    cases hop'
    exact hat op List.mem_cons_self
  · intro op' hop'
    rw [hself] at hop'
    rcases List.mem_append.1 (List.mem_of_mem_head? hop') with hnew | hrest
    · exact hat op' (List.mem_cons_of_mem _ hnew)
    · exact hok.quiet op' hrest
  · rw [hself]
    exact hlocksA b
  · rw [hself]
    exact hlruLocksA c
  · rw [hself]
    exact hprog
  · intro x hx
    refine ⟨?_, hg.slot hs ?_ (x := x)⟩ <;> rw [hself] at hx
    · exact (hs.item a x hx).1
    · exact hx

/-- The rule for an operation that only goes on to others. -/
lemma Sound.goOn (hs : Sound cfg s g) (htodo : (s.actors a).todo = op :: rest)
    (hsame : SameDues cfg op new) (hprog : Prog cfg s g [] (new ++ rest)) :
    Sound cfg (s.setTodo a (new ++ rest)) g := by
  obtain ⟨hdrops, howes, howesLru, hat, hat', halloc⟩ := hsame
  refine hs.goOnLocks htodo _ s.itemLocks s.lruLocks hdrops
    (List.forall_mem_cons.2 ⟨hat, hat'⟩) halloc (fun _ _ _ => Iff.rfl) (fun b => ?_) (fun _ _ _ => Iff.rfl)
    (fun c => ?_) hprog
  · rw [owes_append, howes, ← owes_cons, ← htodo]
    exact hs.locks b a
  · rw [owesLru_append, howesLru, ← owesLru_cons, ← htodo]
    exact hs.lruLocks c a

/-! ## Locks -/

section Locks

omit [DecidableEq τ] in
lemma Sound.not_owes (hs : Sound cfg s g) (htodo : (s.actors a).todo = op :: rest) {b : ℕ}
    (hfree : s.itemLocks b ≠ some a) : ¬ Owes cfg rest b := fun howes =>
  hfree ((hs.locks b a).2 (by rw [htodo]; exact owes_cons.2 (.inr howes)))

omit [DecidableEq τ] in
lemma Sound.not_owesLru (hs : Sound cfg s g) (htodo : (s.actors a).todo = op :: rest)
    (hfree : s.lruLocks c ≠ some a) : ¬ OwesLru rest c := fun howes =>
  hfree ((hs.lruLocks c a).2 (by rw [htodo]; exact owesLru_cons.2 (.inr howes)))

omit [DecidableEq τ] in
/-- The locks that are given back behind an operation that gives back none. -/
lemma Sound.owes_rest (hs : Sound cfg s g) (htodo : (s.actors a).todo = op :: rest)
    (hlock : op.lockKey = none) (b : ℕ) : s.itemLocks b = some a ↔ Owes cfg rest b := by
  rw [hs.locks, htodo, owes_cons, hlock]
  simp

omit [DecidableEq τ] in
lemma Sound.owesLru_rest (hs : Sound cfg s g) (htodo : (s.actors a).todo = op :: rest)
    (hlru : op.lruLock = none) (c : ℕ) : s.lruLocks c = some a ↔ OwesLru rest c := by
  rw [hs.lruLocks, htodo, owesLru_cons, hlru]
  simp

omit [DecidableEq ι] [Fintype τ] [DecidableEq τ] in
lemma OpOk.behind [DecidableEq ι] [Fintype τ] (hok : OpOk cfg s g U op rest)
    (hit : it ∈ op.under ∨ it ∈ op.drops) : Behind it rest := fun op' hop' =>
  ⟨hok.quiet op' hop', hok.apart it hit op' hop'⟩

end Locks

/-! ## Looking at a queue -/

omit [DecidableEq ι] [Fintype τ] [DecidableEq τ] in
/-- The nodes of a queue. -/
lemma waiting_iff [DecidableEq ι] {L : ℕ → List (LruNode ι)} (hi : Lru.Inv s.lru L g)
    {n : LruNode ι} : s.Waiting g c n ↔ n ∈ L c := by
  cases n with
  | item it =>
    rw [← Lru.mem_itemsOf, hi.items]
    exact Iff.rfl
  | crawler d => exact (hi.crawler c d).symm

omit [DecidableEq τ] in
lemma Sound.waiting_tail (hs : Sound cfg s g) {n : LruNode ι} (h : s.lru.queues.tail c = some n) :
    s.Waiting g c n := by
  obtain ⟨L, hi⟩ := hs.lru
  rw [hi.holds.tail_eq] at h
  exact (waiting_iff hi).2 (List.mem_of_getLast? h)

omit [DecidableEq τ] in
lemma Sound.waiting_prev (hs : Sound cfg s g) {m n : LruNode ι} (hm : s.Waiting g c m)
    (h : s.lru.queues.prev m = some n) : s.Waiting g c n ∧ n ≠ m := by
  obtain ⟨L, hi⟩ := hs.lru
  obtain ⟨l, r, hL⟩ := List.append_of_mem ((waiting_iff hi).1 hm)
  rw [hi.holds.prev_eq hL] at h
  have hn : n ∈ l := List.mem_of_getLast? h
  refine ⟨(waiting_iff hi).2 (by simp [hL, hn]), ?_⟩
  rintro rfl
  have hnodup := (hi.holds.linked c).nodup
  rw [hL, List.nodup_middle, List.nodup_cons] at hnodup
  exact hnodup.1 (by simp [hn])

/-! ## Operations that change an item -/

/-- An operation changes the item `it` and no other. -/
structure Edits (cfg : ItemSettings κ) (s s' : ItemCache τ ι κ) (g g' : Lru.History ι) (a : τ)
    (op : ItemOp ι κ) (new rest : List (ItemOp ι κ)) (got : List ι) (it : ι) : Prop where
  goes : Goes s s' a op new rest got
  got : ∀ x, x ≠ it → got.count x = op.drops.count x
  items : ∀ x, x ≠ it → s'.items x = s.items x
  cls : ∀ x, x ≠ it → s'.lru.clsid x = s.lru.clsid x
  lists : ∀ x, x ≠ it → ∀ c, x ∈ g'.lists c ↔ x ∈ g.lists c
  use : (s.items it).slabbed = true ∧ (s'.items it).linked = false ∨
    (s'.items it).key = (s.items it).key ∧
      (∀ b, b ≠ a → s.itemLocks (cfg.bucket (s.items it).key) ≠ some b) ∧
      (it ∈ (s.actors a).refs ∨ (s.items it).linked = true)
  waiting : ∀ b, b ≠ a → ∀ c n, s.lruLocks c = some b → s.Waiting g c n → s'.Waiting g' c n

section Edits

variable {got : List ι}

omit [DecidableEq τ] in
lemma Edits.moves (he : Edits cfg s s' g g' a op new rest got it) : Moves cfg s s' g g' a (· = it) where
  other := he.goes.other
  kept x hx := by
    have hrefs := he.goes.refs x
    rw [he.got x hx] at hrefs
    exact ⟨he.items x hx, he.cls x hx, he.lists x hx, by omega⟩
  touched x hx := by
    subst hx
    exact he.use.imp And.left id
  linked x hlinked := by
    by_cases hx : x = it
    · subst hx
      rcases he.use with ⟨_, hno⟩ | ⟨hkey, hlock, _⟩
      · rw [hno] at hlinked
        cases hlinked
      · rw [hkey]
        exact .inr hlock
    · rw [he.items x hx] at hlinked ⊢
      exact .inl ⟨hlinked, rfl⟩
  waiting := he.waiting

omit [DecidableEq τ] in
/-- What is left behind the operation stays in order. -/
lemma Edits.own_prog (he : Edits cfg s s' g g' a op new rest got it) (hs : Sound cfg s g)
    (hown : ∀ op' ∈ rest, it ∉ op'.firm ∧ it ∉ op'.fresh)
    (hlinks : (s'.items it).linked = true → (s.items it).linked = true ∨ it ∈ op.links)
    (hunlinks : ∀ x ∈ op.unlinks, (s'.items x).linked = false)
    (hsearch : ∀ op' ∈ rest, ∀ c n, op'.search = some (c, n) → s.Waiting g c n → s'.Waiting g' c n) :
    Prog cfg s' g' [] rest := by
  refine hs.own_prog he.moves he.goes.todo (fun x hx => by rwa [hx]) (fun x hlinked => ?_) hunlinks
    hsearch
  by_cases hx : x = it
  · subst hx
    rcases hlinks hlinked with hold | hlink
    · rcases he.use with ⟨_, hno⟩ | ⟨hkey, _⟩
      · rw [hno] at hlinked
        cases hlinked
      · exact .inl ⟨hold, hkey⟩
    · exact .inr hlink
  · rw [he.items x hx] at hlinked ⊢
    exact .inl ⟨hlinked, rfl⟩

/-- The rule for an operation that changes an item. -/
lemma Sound.of_edits (hs : Sound cfg s g) (he : Edits cfg s s' g g' a op new rest got it)
    (hlru : ∃ L, Lru.Inv s'.lru L g')
    (hcount : (s'.items it).refcount.toNat + op.drops.count it +
        (if (s.items it).linked then 1 else 0) +
        (if ItemOp.isLinkQ it (new ++ rest).head? then 1 else 0) =
      (s.items it).refcount.toNat + got.count it + (if (s'.items it).linked then 1 else 0) +
        if ItemOp.isLinkQ it (some op) then 1 else 0)
    (hfree : (s'.items it).slabbed = true → (s'.items it).linked = false ∧ s'.refs it = 0)
    (htable : ∀ k x, s'.table k = some x ↔ (s'.items x).linked = true ∧ (s'.items x).key = k)
    (hqueued : (∀ op', (new ++ rest).head? = some op' → it ∉ op'.atQueue) →
      (it ∈ g'.lists (s'.lru.clsid it) ↔ (s'.items it).linked = true))
    (hhead : ∀ x ∈ op.atQueue, x = it)
    (hhead' : ∀ op', (new ++ rest).head? = some op' → ∀ x ∈ op'.atQueue, x = it)
    (hlocks : ∀ b c, c ≠ a → (s'.itemLocks b = some c ↔ s.itemLocks b = some c))
    (hlocksA : ∀ b, s'.itemLocks b = some a ↔ Owes cfg (new ++ rest) b)
    (hlruLocks : ∀ c b, b ≠ a → (s'.lruLocks c = some b ↔ s.lruLocks c = some b))
    (hlruLocksA : ∀ c, s'.lruLocks c = some a ↔ OwesLru (new ++ rest) c)
    (hprog : Prog cfg s' g' [] (new ++ rest))
    (hitem : ∀ x, (s'.actors a).item = some x →
      s'.Fresh x.1 ∧ ∀ op ∈ (s'.actors a).todo, op.isAlloc = false) : Sound cfg s' g' := by
  have htodo' := he.goes.todo'
  refine hs.of_moves he.moves hlru (fun x hx => ?_) (fun x hx => by rwa [hx]) htable
    (fun x hx hq => ?_) (fun op' hop' => ?_) (fun op' hop' => ?_) hlocks (fun b => ?_) hlruLocks
    (fun c => ?_) ?_ hitem
  · subst hx
    exact hs.count_of he.goes hcount
  · subst hx
    exact hqueued fun op' hop' => hq a op' (by rw [htodo']; exact hop')
  · rw [he.goes.todo] at hop'
    cases hop'
    exact hhead
  · rw [htodo'] at hop'
    exact hhead' op' hop'
  · rw [htodo']
    exact hlocksA b
  · rw [htodo']
    exact hlruLocksA c
  · rw [htodo']
    exact hprog

end Edits

section Edit

variable {got : List ι}

omit [DecidableEq τ] in
/-- Who holds an item in a function does not hold it as a new one. -/
lemma Sound.item_ne (hs : Sound cfg s g) (hop : op ∈ (s.actors a).todo) (hit : it ∈ op.drops)
    {x : ι × Nread} (hx : (s.actors a).item = some x) : x.1 ≠ it := by
  rintro rfl
  have htwo : 2 ≤ (s.actors a).refs.count x.1 := by
    have hpos : 0 < ((s.actors a).todo.flatMap ItemOp.drops).count x.1 :=
      List.count_pos_iff.2 (List.mem_flatMap.2 ⟨op, hop, hit⟩)
    simp only [ItemActor.refs, hx, Option.toList_some, List.map_cons, List.map_nil, List.count_append,
      List.count_cons_self]
    omega
  have hle : (s.actors a).refs.count x.1 ≤ ∑ b, (s.actors b).refs.count x.1 :=
    Finset.single_le_sum (f := fun b => (s.actors b).refs.count x.1) (fun _ _ => Nat.zero_le _)
      (Finset.mem_univ a)
  have hone := (hs.item a x hx).1.refs
  simp only [ItemCache.refs] at hone
  omega

omit [DecidableEq τ] in
/-- The new item of a connection stays as it is while another one changes. -/
lemma Sound.item_fresh (hs : Sound cfg s g) (hg : Goes s s' a op new rest got)
    (hgot : ∀ y, y ≠ it → got.count y = op.drops.count y)
    (hitems : ∀ y, y ≠ it → s'.items y = s.items y)
    (hne : ∀ y, (s.actors a).item = some y → y.1 ≠ it) {y : ι × Nread}
    (hy : (s.actors a).item = some y) :
    s'.Fresh y.1 ∧ ∀ op ∈ (s'.actors a).todo, op.isAlloc = false := by
  have hfresh := (hs.item a y hy).1
  have hrefs := hg.refs y.1
  rw [hgot y.1 (hne y hy)] at hrefs
  exact ⟨⟨by rw [hitems y.1 (hne y hy)]; exact hfresh.linked, by rw [← hfresh.refs]; omega⟩,
    hg.slot hs hy⟩

omit [Fintype τ] [DecidableEq τ] in
/-- The class of an item that is in no queue is set. -/
lemma inv_setClass {L : ℕ → List (LruNode ι)} {lru : Lru ι} (hi : Lru.Inv lru L g)
    (h : c = lru.clsid it ∨ ∀ c, it ∉ g.lists c) :
    Lru.Inv { lru with clsid := Function.update lru.clsid it c } L g := by
  refine ⟨hi.holds, hi.items, hi.crawler, fun d y hy => ?_, hi.sizes, hi.ahead, hi.once, hi.whole,
    hi.part⟩
  rcases h with rfl | hout
  · simp only [Function.update_eq_self]
    exact hi.cls d y hy
  · have hne : y ≠ it := by
      rintro rfl
      exact hout d (by rw [← hi.items]; exact Lru.mem_itemsOf.2 hy)
    simp only [Function.update_of_ne hne]
    exact hi.cls d y hy

/-- An operation that changes an item, and its class if it is in no queue. -/
lemma Sound.edit (hs : Sound cfg s g) (hg : Goes s s' a op new rest got) (x : CacheItem κ)
    (hitems : s'.items = Function.update s.items it x)
    (hlru : s'.lru = { s.lru with clsid := Function.update s.lru.clsid it c })
    (hcls : c = s.lru.clsid it ∨ ∀ c, it ∉ g.lists c)
    (huse : (s.items it).slabbed = true ∧ x.linked = false ∨ x.key = (s.items it).key ∧
      (∀ b, b ≠ a → s.itemLocks (cfg.bucket (s.items it).key) ≠ some b) ∧
      (it ∈ (s.actors a).refs ∨ (s.items it).linked = true))
    (hgot : ∀ y, y ≠ it → got.count y = op.drops.count y)
    (hcount : x.refcount.toNat + op.drops.count it + (if (s.items it).linked then 1 else 0) +
        (if ItemOp.isLinkQ it (new ++ rest).head? then 1 else 0) =
      (s.items it).refcount.toNat + got.count it + (if x.linked then 1 else 0) +
        if ItemOp.isLinkQ it (some op) then 1 else 0)
    (hfree : x.slabbed = true → x.linked = false ∧ s'.refs it = 0)
    (htable : ∀ k y, s'.table k = some y ↔
      (Function.update s.items it x y).linked = true ∧ (Function.update s.items it x y).key = k)
    (hqueued : (∀ op', (new ++ rest).head? = some op' → it ∉ op'.atQueue) →
      (it ∈ g.lists c ↔ x.linked = true))
    (hhead : op.atQueue = []) (hhead' : ∀ op' ∈ new, ∀ y ∈ op'.atQueue, y = it)
    (hown : ∀ op' ∈ rest, it ∉ op'.firm ∧ it ∉ op'.fresh)
    (hlinks : x.linked = true → (s.items it).linked = true ∨ it ∈ op.links)
    (hunlinks : ∀ y ∈ op.unlinks, y = it ∧ x.linked = false)
    (hlocks : ∀ b c, c ≠ a → (s'.itemLocks b = some c ↔ s.itemLocks b = some c))
    (hlocksA : ∀ b, s'.itemLocks b = some a ↔ Owes cfg (new ++ rest) b)
    (hlruLocks : ∀ c b, b ≠ a → (s'.lruLocks c = some b ↔ s.lruLocks c = some b))
    (hlruLocksA : ∀ c, s'.lruLocks c = some a ↔ OwesLru (new ++ rest) c)
    (hprog : Prog cfg s' g [] rest → Prog cfg s' g [] (new ++ rest))
    (hitem : ∀ y, (s'.actors a).item = some y →
      s'.Fresh y.1 ∧ ∀ op ∈ (s'.actors a).todo, op.isAlloc = false) : Sound cfg s' g := by
  have hwaiting : ∀ {c n}, s.Waiting g c n → s'.Waiting g c n := by
    intro c n hn
    cases n with
    | item it => exact hn
    | crawler d => exact ⟨hn.1, by rw [hlru]; exact hn.2⟩
  have hit : s'.items it = x := by rw [hitems, Function.update_self]
  have hother : ∀ y, y ≠ it → s'.items y = s.items y := fun y hy => by
    rw [hitems, Function.update_of_ne hy]
  have he : Edits cfg s s' g g a op new rest got it :=
    { goes := hg
      got := hgot
      items := hother
      cls := fun y hy => by simp only [hlru, Function.update_of_ne hy]
      lists := fun _ _ _ => Iff.rfl
      use := by rwa [hit]
      waiting := fun _ _ _ _ _ h => hwaiting h }
  obtain ⟨hok, _⟩ := hs.ok hg.todo
  have hrest := he.own_prog hs hown (by rwa [hit]) (fun y hy => by
      obtain ⟨rfl, hno⟩ := hunlinks y hy
      rwa [hit]) fun _ _ _ _ _ h => hwaiting h
  obtain ⟨L, hi⟩ := hs.lru
  refine hs.of_edits he ⟨L, by rw [hlru]; exact inv_setClass hi hcls⟩ (by rwa [hit]) (by rwa [hit])
    (by rwa [hitems]) ?_ (by simp [hhead]) (fun op' hop' y hy => ?_) hlocks hlocksA hlruLocks hlruLocksA
    (hprog hrest) hitem
  · rw [hit, hlru]
    simp only [Function.update_self]
    exact hqueued
  · rcases List.mem_append.1 (List.mem_of_mem_head? hop') with hnew | hrest
    · exact hhead' op' hnew y hy
    · simp [hok.quiet op' hrest] at hy

end Edit

section Under

omit [DecidableEq τ] in
/-- Who uses an item under its lock. -/
lemma Sound.under_locked (hs : Sound cfg s g) (htodo : (s.actors a).todo = op :: rest)
    (hit : it ∈ op.under) : ∀ b, b ≠ a → s.itemLocks (cfg.bucket (s.items it).key) ≠ some b := by
  intro b hb hlock
  rw [hs.locked (mem_of_todo htodo) hit] at hlock
  exact hb (Option.some.inj hlock).symm

omit [DecidableEq τ] in
lemma Sound.under_refs (hs : Sound cfg s g) (htodo : (s.actors a).todo = op :: rest)
    (hit : it ∈ op.under) : it ∈ (s.actors a).refs :=
  hs.held (mem_of_todo htodo) (ItemOp.under_needs hit)

omit [DecidableEq τ] in
lemma Sound.under_item (hs : Sound cfg s g) (htodo : (s.actors a).todo = op :: rest)
    (hit : it ∈ op.under) : ∀ y, (s.actors a).item = some y → y.1 ≠ it := by
  intro y hy
  obtain ⟨op', hop', hdrop⟩ := (hs.progs a).held (mem_of_todo htodo) (ItemOp.under_needs hit)
  exact hs.item_ne hop' hdrop hy

omit [DecidableEq τ] in
/-- When nobody works at its queue, an item is linked if and only if it is in a queue. -/
lemma Sound.queue_of_lock (hs : Sound cfg s g) (htodo : (s.actors a).todo = op :: rest)
    (hlock : ∀ b, b ≠ a → s.itemLocks (cfg.bucket (s.items it).key) ≠ some b) (hat : it ∉ op.atQueue) :
    it ∈ g.lists (s.lru.clsid it) ↔ (s.items it).linked = true := by
  refine hs.queued it fun b op' hop' hit => ?_
  by_cases hb : b = a
  · subst hb
    rw [htodo] at hop'
    cases hop'
    exact hat hit
  · have hmem : op' ∈ (s.actors b).todo := List.mem_of_mem_head? hop'
    refine hlock b hb (hs.locked hmem (ItemOp.firm_under ?_))
    simp [ItemOp.firm, hit]

omit [Fintype τ] [DecidableEq τ] in
lemma isLinkQ_of_quiet (it : ι) {t : Option (ItemOp ι κ)} (h : ∀ op, t = some op → op.atQueue = []) :
    ItemOp.isLinkQ it t = false := by
  cases t with
  | none => rfl
  | some op =>
    cases op with
    | itemLinkQ it' => exact absurd (h _ rfl) (by simp [ItemOp.atQueue])
    | _ => rfl

omit [DecidableEq τ] in
lemma Sound.head_quiet (hs : Sound cfg s g) (htodo : (s.actors a).todo = op :: rest)
    (hnew : ∀ op' ∈ new, op'.atQueue = []) : ∀ op', (new ++ rest).head? = some op' → op'.atQueue = [] := by
  intro op' hop'
  rcases List.mem_append.1 (List.mem_of_mem_head? hop') with hop' | hop'
  · exact hnew op' hop'
  · exact (hs.ok htodo).1.quiet op' hop'

/-- An operation that changes an item under its lock, and takes or gives back no lock. -/
lemma Sound.editUnder (hs : Sound cfg s g) (htodo : (s.actors a).todo = op :: rest)
    (hit : it ∈ op.under) (x : CacheItem κ) (table : κ → Option ι) (casId : UInt64)
    (hkey : x.key = (s.items it).key) (hslabbed : x.slabbed = (s.items it).slabbed)
    (hdrops : ∀ y, y ≠ it → (new.flatMap ItemOp.drops).count y = op.drops.count y)
    (howes : ∀ b, Owes cfg new b ↔ ∃ k, op.lockKey = some k ∧ cfg.bucket k = b)
    (howesLru : ∀ c, OwesLru new c ↔ op.lruLock = some c)
    (hcount : x.refcount.toNat + op.drops.count it + (if (s.items it).linked then 1 else 0) +
        (if ItemOp.isLinkQ it (new ++ rest).head? then 1 else 0) =
      (s.items it).refcount.toNat + (new.flatMap ItemOp.drops).count it +
        (if x.linked then 1 else 0) + if ItemOp.isLinkQ it (some op) then 1 else 0)
    (htable : ∀ k y, table k = some y ↔
      (Function.update s.items it x y).linked = true ∧ (Function.update s.items it x y).key = k)
    (hqueued : (∀ op', (new ++ rest).head? = some op' → it ∉ op'.atQueue) →
      (it ∈ g.lists (s.lru.clsid it) ↔ x.linked = true))
    (hhead : op.atQueue = []) (hhead' : ∀ op' ∈ new, ∀ y ∈ op'.atQueue, y = it)
    (hlinks : x.linked = true → (s.items it).linked = true ∨ it ∈ op.links)
    (hunlinks : ∀ y ∈ op.unlinks, y = it ∧ x.linked = false)
    (halloc : ∀ op' ∈ new, op'.isAlloc = true → op.isAlloc = true)
    (hprog : ∀ s' : ItemCache τ ι κ, s'.items = Function.update s.items it x → s'.lru = s.lru →
      Prog cfg s' g [] rest → Prog cfg s' g [] (new ++ rest)) :
    Sound cfg (setTodo { s with
      items := Function.update s.items it x, table := table, casId := casId } a (new ++ rest)) g := by
  have hg : Goes s (setTodo { s with
      items := Function.update s.items it x, table := table, casId := casId } a (new ++ rest))
    a op new rest _ := .of_todo htodo rfl rfl halloc
  refine hs.edit hg x rfl (c := s.lru.clsid it) ?_ (.inl rfl)
    (.inr ⟨hkey, hs.under_locked htodo hit, .inl (hs.under_refs htodo hit)⟩) hdrops hcount ?_ htable
    hqueued hhead hhead' ((hs.ok htodo).1.apart it (.inl hit)) hlinks hunlinks (fun _ _ _ => Iff.rfl)
    (fun b => ?_) (fun _ _ _ => Iff.rfl) (fun c => ?_) (hprog _ rfl rfl) fun y hy => ?_
  · simp only [Function.update_eq_self]
    rfl
  · rw [hslabbed, hs.not_slabbed (hs.under_refs htodo hit)]
    exact fun h => by cases h
  · rw [owes_append, howes, ← owes_cons, ← htodo]
    exact hs.locks b a
  · rw [owesLru_append, howesLru, ← owesLru_cons, ← htodo]
    exact hs.lruLocks c a
  · simp only [setTodo, setActor, Function.update_self] at hy
    exact hs.item_fresh hg hdrops (fun y hy => Function.update_of_ne hy ..) (hs.under_item htodo hit) hy

/-- An operation that changes what an item is, but not who refers to it. -/
lemma Sound.rewrite (hs : Sound cfg s g) (htodo : (s.actors a).todo = op :: rest) (hit : it ∈ op.under)
    (x : CacheItem κ) (casId : UInt64) (hkey : x.key = (s.items it).key)
    (hlinked : x.linked = (s.items it).linked) (hrefcount : x.refcount = (s.items it).refcount)
    (hslabbed : x.slabbed = (s.items it).slabbed) (hsame : SameDues cfg op new)
    (hunlinks : op.unlinks = [])
    (hprog : ∀ s' : ItemCache τ ι κ, s'.items = Function.update s.items it x → s'.lru = s.lru →
      Prog cfg s' g [] rest → Prog cfg s' g [] (new ++ rest)) :
    Sound cfg (setTodo { s with
      items := Function.update s.items it x, casId := casId } a (new ++ rest)) g := by
  obtain ⟨hdrops, howes, howesLru, hat, hat', halloc⟩ := hsame
  have hok := (hs.ok htodo).1
  refine hs.editUnder htodo hit x s.table casId hkey hslabbed (fun y _ => hdrops y) howes howesLru ?_
    (fun k y => ?_) ?_ hat (fun op' hop' y hy => by simp [hat' op' hop'] at hy)
    (fun h => .inl (hlinked ▸ h)) (by simp [hunlinks]) halloc hprog
  · rw [hlinked, hrefcount, hdrops, isLinkQ_of_quiet _ (hs.head_quiet htodo hat'),
      isLinkQ_of_quiet _ (t := some op) (by simp [hat])]
  · rw [hs.table]
    by_cases hy : y = it
    · subst hy
      rw [Function.update_self, hlinked, hkey]
    · rw [Function.update_of_ne hy]
  · rw [hlinked]
    exact fun _ => hs.queue_of_lock htodo (hs.under_locked htodo hit) (by simp [hat])

omit [DecidableEq τ] in
/-- Nobody is about to count the reference of the queue. -/
lemma Sound.linking_zero (hs : Sound cfg s g) (htodo : (s.actors a).todo = op :: rest)
    (hlock : ∀ b, b ≠ a → s.itemLocks (cfg.bucket (s.items it).key) ≠ some b)
    (hop : ItemOp.isLinkQ it (some op) = false) : s.linking it = 0 := by
  refine threadsAt_eq_zero fun b => ?_
  by_cases hb : b = a
  · subst hb
    rw [htodo]
    exact hop
  · cases hhead : (s.actors b).todo.head? with
    | none => rfl
    | some op' =>
      cases op' with
      | itemLinkQ it' =>
        refine decide_eq_false fun heq => ?_
        subst heq
        exact hlock b hb (hs.locked (List.mem_of_mem_head? hhead) (by simp [ItemOp.under]))
      | _ => rfl

omit [DecidableEq τ] in
/-- A linked item that somebody uses has two references. -/
lemma Sound.two_le_refcount (hs : Sound cfg s g) (htodo : (s.actors a).todo = op :: rest)
    (hit : it ∈ op.under) (hop : ItemOp.isLinkQ it (some op) = false)
    (hlinked : (s.items it).linked = true) : 2 ≤ (s.items it).refcount.toNat := by
  have hcount := hs.count it
  have hpos := refs_pos (hs.under_refs htodo hit)
  rw [hs.linking_zero htodo (hs.under_locked htodo hit) hop, hlinked, if_pos rfl] at hcount
  omega

omit [DecidableEq τ] in
/-- An item of no queue. -/
lemma Sound.not_queued (hs : Sound cfg s g) (h : it ∉ g.lists (s.lru.clsid it)) (c : ℕ) :
    it ∉ g.lists c := by
  intro hin
  obtain ⟨L, hi⟩ := hs.lru
  rw [← hi.items, Lru.mem_itemsOf] at hin
  refine h ?_
  rw [hi.cls c it hin, ← hi.items, Lru.mem_itemsOf]
  exact hin

omit [DecidableEq τ] in
/-- Two linked items have different keys. -/
lemma Sound.linked_inj (hs : Sound cfg s g) {x y : ι} (hx : (s.items x).linked = true)
    (hy : (s.items y).linked = true) (hkey : (s.items x).key = (s.items y).key) : x = y := by
  have htable := (hs.table (s.items y).key x).2 ⟨hx, hkey⟩
  rw [(hs.table _ y).2 ⟨hy, rfl⟩] at htable
  exact (Option.some.inj htable).symm

end Under

/-! ## New items -/

section Alloc

variable {got : List ι}

omit [Fintype τ] [DecidableEq τ] in
lemma count_snoc (l : List ι) (x y : ι) : (l ++ [x]).count y = l.count y + if y = x then 1 else 0 := by
  rw [List.count_append]
  by_cases hy : y = x
  · simp [hy]
  · simp [hy, Ne.symm hy]

omit [DecidableEq τ] in
/-- An item that is free is not used. -/
lemma Sound.not_needed (hs : Sound cfg s g) (hslabbed : (s.items it).slabbed = true)
    (hop : op ∈ (s.actors a).todo) : it ∉ op.needs := fun hit => by
  have hno := hs.not_slabbed (hs.held hop hit)
  rw [hslabbed] at hno
  cases hno

omit [DecidableEq τ] in
lemma Sound.free_out (hs : Sound cfg s g) (hslabbed : (s.items it).slabbed = true) (c : ℕ) :
    it ∉ g.lists c := by
  refine hs.not_queued (fun hin => ?_) c
  have hl := (hs.queued it fun b op hop hit => ?_).1 hin
  · rw [(hs.free it hslabbed).1] at hl
    cases hl
  · refine hs.not_needed hslabbed (List.mem_of_mem_head? hop) (ItemOp.under_needs (ItemOp.firm_under ?_))
    simp [ItemOp.firm, hit]

/-- `do_item_alloc`. -/
lemma Sound.alloc (hs : Sound cfg s g) (hg : Goes s s' a op new rest got) (x : CacheItem κ)
    (hslabbed : (s.items it).slabbed = true) (hitems : s'.items = Function.update s.items it x)
    (hlru : s'.lru = { s.lru with clsid := Function.update s.lru.clsid it c })
    (hlinked : x.linked = (s.items it).linked) (hrefcount : x.refcount = 1) (hfree : x.slabbed = false)
    (htable : s'.table = s.table) (hitemLocks : s'.itemLocks = s.itemLocks)
    (hlruLocks : s'.lruLocks = s.lruLocks)
    (hgot : ∀ y, got.count y = op.drops.count y + if y = it then 1 else 0)
    (hat : op.atQueue = []) (hat' : ∀ op' ∈ new, op'.atQueue = []) (hunlinks : op.unlinks = [])
    (howes : ∀ b, Owes cfg new b ↔ ∃ k, op.lockKey = some k ∧ cfg.bucket k = b)
    (howesLru : ∀ c, OwesLru new c ↔ op.lruLock = some c)
    (hprog : s'.Fresh it → Prog cfg s' g [] rest → Prog cfg s' g [] (new ++ rest))
    (hitem : ∀ y, (s'.actors a).item = some y → (s.actors a).item = some y ∨
      y.1 = it ∧ ∀ op ∈ (s'.actors a).todo, op.isAlloc = false) : Sound cfg s' g := by
  obtain ⟨hno, hrefs⟩ := hs.free it hslabbed
  have hcount := hs.count it
  rw [hno, hrefs] at hcount
  have hop : op ∈ (s.actors a).todo := by simp [hg.todo]
  have hmem : ∀ op' ∈ rest, op' ∈ (s.actors a).todo := fun op' h => by simp [hg.todo, h]
  have hdrops : op.drops.count it = 0 :=
    List.count_eq_zero.2 fun h => hs.not_needed hslabbed hop (ItemOp.drops_needs h)
  have hgotit := hgot it
  rw [hdrops, if_pos rfl] at hgotit
  have hfresh : s'.Fresh it := by
    have hstep := hg.refs it
    refine ⟨by rw [hitems, Function.update_self, hlinked, hno], ?_⟩
    omega
  have hne : ∀ y, (s.actors a).item = some y → y.1 ≠ it := by
    rintro y hy rfl
    have hone := (hs.item a y hy).1.refs
    omega
  have hgot' : ∀ y, y ≠ it → got.count y = op.drops.count y := fun y hy => by simp [hgot y, hy]
  have hone : (1 : UInt16).toNat = 1 := rfl
  refine hs.edit hg x hitems hlru (.inr (hs.free_out hslabbed)) (.inl ⟨hslabbed, by rw [hlinked, hno]⟩)
    hgot' ?_ (fun h => ?_) (fun k y => ?_) (fun _ => ?_) hat
    (fun op' hop' y hy => by simp [hat' op' hop'] at hy)
    (fun op' hop' => ⟨fun h => ?_, fun h => ?_⟩) (fun h => ?_) (by simp [hunlinks])
    (by rw [hitemLocks]; exact fun _ _ _ => Iff.rfl) (fun b => ?_)
    (by rw [hlruLocks]; exact fun _ _ _ => Iff.rfl) (fun c => ?_) (hprog hfresh) fun y hy => ?_
  · rw [isLinkQ_of_quiet _ (hs.head_quiet hg.todo hat'), isLinkQ_of_quiet _ (t := some op) (by simp [hat]),
      hlinked, hrefcount, hdrops, hgotit, hone]
    simp only [Bool.false_eq_true, if_false] at hcount ⊢
    omega
  · rw [hfree] at h
    cases h
  · rw [htable, hs.table]
    by_cases hy : y = it
    · subst hy
      rw [Function.update_self, hlinked, hno]
      simp
    · rw [Function.update_of_ne hy]
  · rw [hlinked, hno]
    simp [hs.free_out hslabbed]
  · exact hs.not_needed hslabbed (hmem op' hop') (ItemOp.under_needs (ItemOp.firm_under h))
  · exact hs.not_needed hslabbed (hmem op' hop') (ItemOp.fresh_needs h)
  · rw [hlinked, hno] at h
    cases h
  · rw [hitemLocks, owes_append, howes, ← owes_cons, ← hg.todo]
    exact hs.locks b a
  · rw [hlruLocks, owesLru_append, howesLru, ← owesLru_cons, ← hg.todo]
    exact hs.lruLocks c a
  · rcases hitem y hy with hold | ⟨rfl, halloc⟩
    · exact hs.item_fresh hg hgot' (fun y hy => by rw [hitems, Function.update_of_ne hy]) hne hold
    · exact ⟨hfresh, halloc⟩

end Alloc

end Goes

end ItemCache

end Skq.Mem
