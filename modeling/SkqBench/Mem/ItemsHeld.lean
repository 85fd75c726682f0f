import SkqBench.Mem.Items

/-!
# References and locks

What an actor that is inside a function owes is in the operations that are left: the references it gives
back, the locks it gives back, and the items it may use until then.  `Prog` says that the operations are
in order, each of them by what comes behind it; `Sound` is the invariant of the cache.
-/

namespace Skq.Mem

open Lib

/-! ## What an operation owes -/

/-- The item that is to be stored. -/
def ItemUse.newItem {ι : Type*} : ItemUse ι → List ι
  | .store it _ => [it]
  | _ => []

namespace ItemOp

variable {ι κ : Type*}

/-- The references it gives back, or hands on. -/
def drops : ItemOp ι κ → List ι
  | .itemRemove it => [it]
  | .itemBump it => [it]
  | .doItemRemove it => [it]
  | .doStoreItem _ _ _ old => old.toList
  | .storeAppend _ _ _ old => [old]
  | .doAddDelta _ _ _ _ it => [it]
  | .deltaReplace _ _ _ _ it _ => [it]
  | .limitedGet _ it => [it]
  | .reply _ it => [it]
  | .crawlerEval it _ => [it]
  | _ => []

/-- The items it uses with the item lock. -/
def under : ItemOp ι κ → List ι
  | .itemRemoveHeld it => [it]
  | .doItemTouch it _ => [it]
  | .doItemLink it => [it]
  | .itemLinkQ it => [it]
  | .doItemUnlink it _ => [it]
  | .itemUnlinkQ it _ => [it]
  | .doItemRemove it => [it]
  | .doItemUpdate it => [it]
  | .itemMoveQ it _ => [it]
  | .doStoreItem _ it _ old => it :: old.toList
  | .storeAppend _ it _ old => [it, old]
  | .doAddDelta _ _ _ _ it => [it]
  | .deltaReplace _ _ _ _ it _ => [it]
  | .setCas it new => [it, new]
  | .crawlerEval it _ => [it]
  | _ => []

/-- The new item it is to store. -/
def fresh : ItemOp ι κ → List ι
  | .itemGet _ use => use.newItem
  | .doItemGet _ use => use.newItem
  | .doStoreItem _ it _ _ => [it]
  | .storeAppend _ it _ _ => [it]
  | .doItemLink it => [it]
  | _ => []

/-- The items it needs a reference of. -/
def needs (op : ItemOp ι κ) : List ι :=
  op.under ++ op.fresh ++ op.drops ++ match op with
    | .itemUnlink it => [it]
    | _ => []

/-- The items and their keys. -/
def keyed : ItemOp ι κ → List (κ × ι)
  | .itemGet k use => use.newItem.map fun it => (k, it)
  | .doItemGet k use => use.newItem.map fun it => (k, it)
  | .doStoreItem k it _ old => (k, it) :: old.toList.map fun o => (k, o)
  | .storeAppend k it _ old => [(k, it), (k, old)]
  | .doAddDelta k _ _ _ it => [(k, it)]
  | .deltaReplace k _ _ _ it _ => [(k, it)]
  | .limitedGet k it => [(k, it)]
  | .reply k it => [(k, it)]
  | _ => []

/-- The item that has been found in the hash table. -/
def found : ItemOp ι κ → List ι
  | .doStoreItem _ _ _ old => old.toList
  | .storeAppend _ _ _ old => [old]
  | .doAddDelta _ _ _ _ it => [it]
  | .deltaReplace _ _ _ _ it _ => [it]
  | _ => []

/-- The item it takes out of the queue with the lock of the queue. -/
def nolock : ItemOp ι κ → List ι
  | .doItemUnlink it nolock => if nolock then [it] else []
  | .itemUnlinkQ it nolock => if nolock then [it] else []
  | .crawlerEval it expired => if expired then [it] else []
  | _ => []

/-- The item it puts into a queue, or takes out of it. -/
def atQueue : ItemOp ι κ → List ι
  | .itemLinkQ it => [it]
  | .itemUnlinkQ it _ => [it]
  | .itemMoveQ it _ => [it]
  | _ => []

/-- The items whose state it relies on. -/
def firm (op : ItemOp ι κ) : List ι := op.found ++ op.nolock ++ op.atQueue

/-- An item that is no longer linked then. -/
def gone : ItemOp ι κ → List ι
  | .setCas it _ => [it]
  | _ => []

/-- The item it unlinks, or links. -/
def unlinks : ItemOp ι κ → List ι
  | .doItemUnlink it _ => [it]
  | _ => []

def links : ItemOp ι κ → List ι
  | .doItemLink it => [it]
  | _ => []

/-- The key under which there must be nothing. -/
def absent (key : ι → κ) : ItemOp ι κ → Option κ
  | .doStoreItem k _ _ none => some k
  | .doItemLink it => some (key it)
  | _ => none

/-- The item lock and the lock of a queue that it gives back in the end. -/
def lockKey : ItemOp ι κ → Option κ
  | .itemUnlock k => some k
  | .doItemGet k _ => some k
  | _ => none

def lruLock : ItemOp ι κ → Option ℕ
  | .lruUnlock c => some c
  | .pullNext c _ _ _ => some c
  | _ => none

/-- Where `lru_pull_tail` goes on. -/
def search : ItemOp ι κ → Option (ℕ × LruNode ι)
  | .pullNext c _ _ (some n) => some (c, n)
  | _ => none

/-- Whether it is the body of a command: what is left behind it only gives back. -/
def isBody : ItemOp ι κ → Bool
  | .itemGet _ _ => true
  | .doItemGet _ _ => true
  | .doStoreItem _ _ _ _ => true
  | .storeAppend _ _ _ _ => true
  | .doAddDelta _ _ _ _ _ => true
  | .deltaReplace _ _ _ _ _ _ => true
  | .itemAlloc _ _ _ _ _ => true
  | .itemUnlink _ => true
  | _ => false

/-- Whether it allocates the item of a command. -/
def isAlloc : ItemOp ι κ → Bool
  | .itemAlloc _ _ _ _ _ => true
  | _ => false

/-- It relies on nothing. -/
def Calm (op : ItemOp ι κ) : Prop :=
  op.firm = [] ∧ op.fresh = [] ∧ op.gone = [] ∧ op.isAlloc = false

/-- Whether it is the rest of `do_item_link`. -/
def isLinkQ [DecidableEq ι] (it : ι) : Option (ItemOp ι κ) → Bool
  | some (.itemLinkQ it') => it' = it
  | _ => false

/-! ### How these are related -/

section Related

variable {op : ItemOp ι κ} {it : ι} {k : κ}

/-- What an operation relies on, it uses with the item lock. -/
lemma firm_under (h : it ∈ op.firm) : it ∈ op.under := by
  have hif : ∀ {b : Bool} {x : ι}, it ∈ (if b then [x] else []) → it = x := by
    intro b x h
    split at h
    · exact List.mem_singleton.1 h
    · cases h
  cases op <;> simp only [firm, found, nolock, atQueue, under, List.append_nil, List.nil_append,
    List.mem_append, List.mem_cons, List.not_mem_nil, or_false] at h ⊢ <;>
    first | exact h | exact .inr h | exact hif h | exact h.elim hif id

lemma under_needs (h : it ∈ op.under) : it ∈ op.needs := by
  simp only [needs, List.mem_append]
  exact .inl (.inl (.inl h))

lemma fresh_needs (h : it ∈ op.fresh) : it ∈ op.needs := by
  simp only [needs, List.mem_append]
  exact .inl (.inl (.inr h))

lemma drops_needs (h : it ∈ op.drops) : it ∈ op.needs := by
  simp only [needs, List.mem_append]
  exact .inl (.inr h)

lemma keyed_needs (h : (k, it) ∈ op.keyed) : it ∈ op.needs := by
  cases op with
  | itemGet k' use =>
    obtain ⟨x, hx, heq⟩ := List.mem_map.1 h
    cases heq
    exact fresh_needs hx
  | doItemGet k' use =>
    obtain ⟨x, hx, heq⟩ := List.mem_map.1 h
    cases heq
    exact fresh_needs hx
  | doStoreItem k' x comm old =>
    refine under_needs ?_
    rcases List.mem_cons.1 h with heq | h
    · cases heq
      exact List.mem_cons_self
    · obtain ⟨o, ho, heq⟩ := List.mem_map.1 h
      cases heq
      exact List.mem_cons_of_mem _ ho
  | storeAppend k' x comm old =>
    refine under_needs ?_
    rcases List.mem_cons.1 h with heq | h
    · cases heq
      exact List.mem_cons_self
    · cases List.mem_singleton.1 h
      exact List.mem_cons_of_mem _ (List.mem_singleton_self _)
  | _ => simp_all [keyed, needs, under, fresh, drops]

lemma lruLock_of_search {c : ℕ} {n : LruNode ι} (h : op.search = some (c, n)) :
    op.lruLock = some c := by
  cases op with
  | pullNext c' fl tries node =>
    cases node with
    | none => cases h
    | some n' =>
      cases h
      rfl
  | _ => cases h

lemma gone_under (h : it ∈ op.gone) : it ∈ op.under := by
  cases op <;> simp_all [gone, under]

end Related

end ItemOp

/-- The operations give back an item lock, or the lock of a queue. -/
def Owes {ι κ : Type*} (cfg : ItemSettings κ) (p : List (ItemOp ι κ)) (b : ℕ) : Prop :=
  ∃ op ∈ p, ∃ k, op.lockKey = some k ∧ cfg.bucket k = b

def OwesLru {ι κ : Type*} (p : List (ItemOp ι κ)) (c : ℕ) : Prop := ∃ op ∈ p, op.lruLock = some c

section Owing

variable {ι κ : Type*} {cfg : ItemSettings κ} {op : ItemOp ι κ} {p q : List (ItemOp ι κ)} {b c : ℕ}

@[simp] lemma owes_nil : ¬ Owes cfg ([] : List (ItemOp ι κ)) b := by simp [Owes]

@[simp] lemma owes_cons :
    Owes cfg (op :: p) b ↔ (∃ k, op.lockKey = some k ∧ cfg.bucket k = b) ∨ Owes cfg p b := by
  simp [Owes]

@[simp] lemma owes_append : Owes cfg (p ++ q) b ↔ Owes cfg p b ∨ Owes cfg q b := by
  simp [Owes, or_and_right, exists_or]

@[simp] lemma owesLru_nil : ¬ OwesLru ([] : List (ItemOp ι κ)) c := by simp [OwesLru]

@[simp] lemma owesLru_cons : OwesLru (op :: p) c ↔ op.lruLock = some c ∨ OwesLru p c := by
  simp [OwesLru]

@[simp] lemma owesLru_append : OwesLru (p ++ q) c ↔ OwesLru p c ∨ OwesLru q c := by
  simp [OwesLru, or_and_right, exists_or]

end Owing

/-- The references of an actor. -/
def ItemActor.refs {ι κ : Type*} (x : ItemActor ι κ) : List ι :=
  x.todo.flatMap ItemOp.drops ++ x.item.toList.map Prod.fst ++ x.ilist.map HeldItem.it

namespace ItemCache

variable {τ ι κ : Type*} [DecidableEq ι] [Fintype τ]

/-- How many references of an item there are. -/
def refs (s : ItemCache τ ι κ) (it : ι) : ℕ := ∑ a, (s.actors a).refs.count it + s.bumps.count it

/-- How many actors are going to raise its count. -/
def linking (s : ItemCache τ ι κ) (it : ι) : ℕ :=
  threadsAt (fun a => (s.actors a).todo.head?) (ItemOp.isLinkQ it)

/-- A new item, with one reference. -/
structure Fresh (s : ItemCache τ ι κ) (it : ι) : Prop where
  linked : (s.items it).linked = false
  refs : s.refs it = 1

/-- A node is in a queue. -/
def Waiting (s : ItemCache τ ι κ) (g : Lru.History ι) (c : ℕ) : LruNode ι → Prop
  | .item it => it ∈ g.lists c
  | .crawler d => d = c ∧ s.lru.enabled c = true

/-- What an operation relies on when it is carried out. -/
def Holds (s : ItemCache τ ι κ) (g : Lru.History ι) : ItemOp ι κ → Prop
  | .itemLinkQ it => (s.items it).linked = true ∧ ∀ c, it ∉ g.lists c
  | .itemMoveQ it _ => (s.items it).linked = true ∧ ∀ c, it ∉ g.lists c
  | .itemUnlinkQ it _ => (s.items it).linked = false ∧ it ∈ g.lists (s.lru.clsid it)
  | .deltaReplace _ incr n cas it value => DeltaOk incr n cas
      ((s.items it).flags, (s.items it).data, (s.items it).cas) (.ok value)
  | .setCas it new => it ≠ new
  | _ => True

/-- An operation in front of others.  `U` are the items that will have been unlinked by then. -/
structure OpOk (cfg : ItemSettings κ) (s : ItemCache τ ι κ) (g : Lru.History ι) (U : List ι)
    (op : ItemOp ι κ) (rest : List (ItemOp ι κ)) : Prop where
  locked : ∀ it ∈ op.under, Owes cfg rest (cfg.bucket (s.items it).key)
  held : ∀ it ∈ op.needs, it ∈ op.drops ∨ ∃ op' ∈ rest, it ∈ op'.drops
  keyed : ∀ p ∈ op.keyed, (s.items p.2).key = p.1
  fresh : ∀ it ∈ op.fresh, s.Fresh it
  found : ∀ it ∈ op.found, (s.items it).linked = true
  gone : ∀ it ∈ op.gone, (s.items it).linked = true → it ∈ U
  absent : ∀ k, op.absent (fun it => (s.items it).key) = some k →
    ∀ x, (s.items x).linked = true → (s.items x).key = k → x ∈ U
  nolock : ∀ it ∈ op.nolock, OwesLru rest (s.lru.clsid it)
  search : ∀ c n, op.search = some (c, n) → s.Waiting g c n
  holds : s.Holds g op
  -- what keeps the operations apart
  once : ∀ k, op.lockKey = some k → ¬ Owes cfg rest (cfg.bucket k)
  onceLru : ∀ c, op.lruLock = some c → ¬ OwesLru rest c
  quiet : ∀ op' ∈ rest, op'.atQueue = []
  apart : ∀ it, it ∈ op.under ∨ it ∈ op.drops → ∀ op' ∈ rest, it ∉ op'.firm ∧ it ∉ op'.fresh
  passed : ∀ it ∈ op.nolock, ∀ op' ∈ rest, ∀ c n, op'.search = some (c, n) → n ≠ .item it
  linksLast : op.links ≠ [] → ∀ op' ∈ rest, (∀ it ∈ op.links, it ∉ op'.gone) ∧
    ∀ key, op'.absent key = none
  last : op.isBody = true → ∀ op' ∈ rest, op'.Calm

/-- The operations that are left are in order. -/
def Prog (cfg : ItemSettings κ) (s : ItemCache τ ι κ) (g : Lru.History ι) :
    List ι → List (ItemOp ι κ) → Prop
  | _, [] => True
  | U, op :: rest => OpOk cfg s g U op rest ∧ Prog cfg s g (op.unlinks ++ U) rest

/-- The invariant; `g` is the history of the queues. -/
structure Sound (cfg : ItemSettings κ) (s : ItemCache τ ι κ) (g : Lru.History ι) : Prop where
  lru : ∃ L, Lru.Inv s.lru L g
  count : ∀ it, (s.items it).refcount.toNat + s.linking it =
    (if (s.items it).linked then 1 else 0) + s.refs it
  free : ∀ it, (s.items it).slabbed = true → (s.items it).linked = false ∧ s.refs it = 0
  table : ∀ k it, s.table k = some it ↔ (s.items it).linked = true ∧ (s.items it).key = k
  queued : ∀ it, (∀ a op, (s.actors a).todo.head? = some op → it ∉ op.atQueue) →
    (it ∈ g.lists (s.lru.clsid it) ↔ (s.items it).linked = true)
  locks : ∀ b a, s.itemLocks b = some a ↔ Owes cfg (s.actors a).todo b
  lruLocks : ∀ c a, s.lruLocks c = some a ↔ OwesLru (s.actors a).todo c
  progs : ∀ a, Prog cfg s g [] (s.actors a).todo
  item : ∀ a x, (s.actors a).item = some x →
    s.Fresh x.1 ∧ ∀ op ∈ (s.actors a).todo, op.isAlloc = false

/-! ## Programs -/

section Programs

variable {cfg : ItemSettings κ} {s s' : ItemCache τ ι κ} {g g' : Lru.History ι} {U U' : List ι}
  {op : ItemOp ι κ} {p rest : List (ItemOp ι κ)} {it : ι}

omit [DecidableEq ι] [Fintype τ] in
lemma mem_of_todo {x : ItemActor ι κ} (h : x.todo = op :: rest) : op ∈ x.todo :=
  h ▸ List.mem_cons_self

/-- Which reference an item is used with. -/
lemma Prog.held (hp : Prog cfg s g U p) (hop : op ∈ p) (hit : it ∈ op.needs) :
    ∃ op' ∈ p, it ∈ op'.drops := by
  induction p generalizing U with
  | nil => cases hop
  | cons op' rest ih =>
    obtain ⟨hok, hrest⟩ := hp
    rcases List.mem_cons.1 hop with rfl | hop
    · rcases hok.held it hit with hdrop | ⟨op', hop', hdrop⟩
      · exact ⟨op, List.mem_cons_self, hdrop⟩
      · exact ⟨op', List.mem_cons_of_mem _ hop', hdrop⟩
    · obtain ⟨op', hop', hdrop⟩ := ih hrest hop
      exact ⟨op', List.mem_cons_of_mem _ hop', hdrop⟩

/-- Which lock it is used with. -/
lemma Prog.locked (hp : Prog cfg s g U p) (hop : op ∈ p) (hit : it ∈ op.under) :
    Owes cfg p (cfg.bucket (s.items it).key) := by
  induction p generalizing U with
  | nil => cases hop
  | cons op' rest ih =>
    obtain ⟨hok, hrest⟩ := hp
    rcases List.mem_cons.1 hop with rfl | hop
    · exact owes_cons.2 (.inr (hok.locked it hit))
    · exact owes_cons.2 (.inr (ih hrest hop))

/-- One of the operations. -/
lemma Prog.ok (hp : Prog cfg s g U p) (hop : op ∈ p) : ∃ U' rest, OpOk cfg s g U' op rest := by
  induction p generalizing U with
  | nil => cases hop
  | cons op' rest ih =>
    obtain ⟨hok, hrest⟩ := hp
    rcases List.mem_cons.1 hop with rfl | hop
    · exact ⟨U, rest, hok⟩
    · exact ih hrest hop

/-- The key under which there must be nothing is that of an item in use. -/
lemma Prog.absent_key (hp : Prog cfg s g U p) (hop : op ∈ p) {k : κ}
    (hk : op.absent (fun it => (s.items it).key) = some k) :
    ∃ it ∈ op.under, (s.items it).key = k := by
  obtain ⟨_, _, hok⟩ := hp.ok hop
  cases op with
  | doItemLink it =>
    cases hk
    exact ⟨it, List.mem_singleton_self _, rfl⟩
  | doStoreItem k' it comm old =>
    cases old with
    | none =>
      cases hk
      exact ⟨it, List.mem_cons_self, hok.keyed (_, it) List.mem_cons_self⟩
    | some old => cases hk
  | _ => cases hk

/-- What an operation in order relies on, it still can after a step that leaves that as it is. -/
lemma OpOk.congr (hok : OpOk cfg s g U op rest)
    (hU : ∀ x ∈ U, (s'.items x).linked = true → x ∈ U')
    (hkey : ∀ it ∈ op.needs, (s'.items it).key = (s.items it).key)
    (hfirm : ∀ it ∈ op.firm, s'.items it = s.items it ∧ s'.lru.clsid it = s.lru.clsid it ∧
      ∀ c, it ∈ g'.lists c ↔ it ∈ g.lists c)
    (hfresh : ∀ it ∈ op.fresh, s.Fresh it → s'.Fresh it)
    (hgone : ∀ it ∈ op.gone, (s'.items it).linked = true → (s.items it).linked = true)
    (habsent : ∀ k, op.absent (fun it => (s.items it).key) = some k → ∀ x,
      (s'.items x).linked = true → (s'.items x).key = k →
        (s.items x).linked = true ∧ (s.items x).key = k)
    (hsearch : ∀ c n, op.search = some (c, n) → s.Waiting g c n → s'.Waiting g' c n) :
    OpOk cfg s' g' U' op rest := by
  have hkey' : ∀ {k}, op.absent (fun it => (s'.items it).key) = some k →
      op.absent (fun it => (s.items it).key) = some k := by
    intro k hk
    cases op with
    | doItemLink it =>
      rw [← hk]
      exact congrArg some (hkey it (ItemOp.under_needs (List.mem_singleton_self _))).symm
    | doStoreItem k' it comm old =>
      cases old with
      | none => exact hk
      | some old => cases hk
    | _ => exact hk
  refine ⟨?_, hok.held, ?_, ?_, ?_, ?_, ?_, ?_, ?_, ?_, hok.once, hok.onceLru, hok.quiet, hok.apart,
    hok.passed, hok.linksLast, hok.last⟩
  · intro it hit
    rw [hkey it (ItemOp.under_needs hit)]
    exact hok.locked it hit
  · rintro ⟨k, it⟩ hp
    rw [hkey it (ItemOp.keyed_needs hp)]
    exact hok.keyed _ hp
  · intro it hit
    exact hfresh it hit (hok.fresh it hit)
  · intro it hit
    have hit' : it ∈ op.firm := List.mem_append_left _ (List.mem_append_left _ hit)
    rw [(hfirm it hit').1]
    exact hok.found it hit
  · intro it hit hlinked
    exact hU it (hok.gone it hit (hgone it hit hlinked)) hlinked
  · intro k hk x hlinked hxk
    obtain ⟨hold, hxk⟩ := habsent k (hkey' hk) x hlinked hxk
    exact hU x (hok.absent k (hkey' hk) x hold hxk) hlinked
  · intro it hit
    have hit' : it ∈ op.firm := List.mem_append_left _ (List.mem_append_right _ hit)
    rw [(hfirm it hit').2.1]
    exact hok.nolock it hit
  · intro c n hc
    exact hsearch c n hc (hok.search c n hc)
  · have hholds := hok.holds
    cases op with
    | itemLinkQ it =>
      obtain ⟨hitem, _, hlists⟩ := hfirm it (by simp [ItemOp.firm, ItemOp.atQueue])
      exact ⟨by rw [hitem]; exact hholds.1, fun c hc => hholds.2 c ((hlists c).1 hc)⟩
    | itemMoveQ it c =>
      obtain ⟨hitem, _, hlists⟩ := hfirm it (by simp [ItemOp.firm, ItemOp.atQueue])
      exact ⟨by rw [hitem]; exact hholds.1, fun c hc => hholds.2 c ((hlists c).1 hc)⟩
    | itemUnlinkQ it nolock =>
      obtain ⟨hitem, hcls, hlists⟩ := hfirm it (by simp [ItemOp.firm, ItemOp.atQueue])
      exact ⟨by rw [hitem]; exact hholds.1, by rw [hcls, hlists]; exact hholds.2⟩
    | deltaReplace k incr n cas it value =>
      obtain ⟨hitem, _, _⟩ := hfirm it (by simp [ItemOp.firm, ItemOp.found])
      simp only [Holds, hitem]
      exact hholds
    | setCas it new => exact hholds
    | _ => trivial

/-- The same for all operations that are left. -/
lemma Prog.congr (hp : Prog cfg s g U p)
    (hU : ∀ x ∈ U, (s'.items x).linked = true → x ∈ U')
    (hkey : ∀ op ∈ p, ∀ it ∈ op.needs, (s'.items it).key = (s.items it).key)
    (hfirm : ∀ op ∈ p, ∀ it ∈ op.firm, s'.items it = s.items it ∧ s'.lru.clsid it = s.lru.clsid it ∧
      ∀ c, it ∈ g'.lists c ↔ it ∈ g.lists c)
    (hfresh : ∀ op ∈ p, ∀ it ∈ op.fresh, s.Fresh it → s'.Fresh it)
    (hgone : ∀ op ∈ p, ∀ it ∈ op.gone, (s'.items it).linked = true → (s.items it).linked = true)
    (habsent : ∀ op ∈ p, ∀ k, op.absent (fun it => (s.items it).key) = some k → ∀ x,
      (s'.items x).linked = true → (s'.items x).key = k →
        (s.items x).linked = true ∧ (s.items x).key = k)
    (hsearch : ∀ op ∈ p, ∀ c n, op.search = some (c, n) → s.Waiting g c n → s'.Waiting g' c n) :
    Prog cfg s' g' U' p := by
  induction p generalizing U U' with
  | nil => trivial
  | cons op rest ih =>
    obtain ⟨hok, hrest⟩ := hp
    have hhead : op ∈ op :: rest := List.mem_cons_self
    refine ⟨hok.congr hU (hkey op hhead) (hfirm op hhead) (hfresh op hhead) (hgone op hhead)
      (habsent op hhead) (hsearch op hhead), ih hrest ?_ ?_ ?_ ?_ ?_ ?_ ?_⟩
    · intro x hx hlinked
      rcases List.mem_append.1 hx with hx | hx
      · exact List.mem_append_left _ hx
      · exact List.mem_append_right _ (hU x hx hlinked)
    · exact fun op' hop' => hkey op' (List.mem_cons_of_mem _ hop')
    · exact fun op' hop' => hfirm op' (List.mem_cons_of_mem _ hop')
    · exact fun op' hop' => hfresh op' (List.mem_cons_of_mem _ hop')
    · exact fun op' hop' => hgone op' (List.mem_cons_of_mem _ hop')
    · exact fun op' hop' => habsent op' (List.mem_cons_of_mem _ hop')
    · exact fun op' hop' => hsearch op' (List.mem_cons_of_mem _ hop')

end Programs

/-! ## Steps -/

section Moves

variable {cfg : ItemSettings κ} {s s' : ItemCache τ ι κ} {g g' : Lru.History ι} {a b : τ} {T : ι → Prop}
  {op : ItemOp ι κ} {rest : List (ItemOp ι κ)} {it : ι}

/-- What a step of the actor `a` does that changes only the items `T`: these are free, or the actor
may use them. -/
structure Moves (cfg : ItemSettings κ) (s s' : ItemCache τ ι κ) (g g' : Lru.History ι) (a : τ)
    (T : ι → Prop) : Prop where
  other : ∀ b, b ≠ a → s'.actors b = s.actors b
  kept : ∀ it, ¬ T it → s'.items it = s.items it ∧ s'.lru.clsid it = s.lru.clsid it ∧
    (∀ c, it ∈ g'.lists c ↔ it ∈ g.lists c) ∧ s'.refs it = s.refs it
  touched : ∀ it, T it → (s.items it).slabbed = true ∨ (s'.items it).key = (s.items it).key ∧
    (∀ b, b ≠ a → s.itemLocks (cfg.bucket (s.items it).key) ≠ some b) ∧
    (it ∈ (s.actors a).refs ∨ (s.items it).linked = true)
  linked : ∀ x, (s'.items x).linked = true →
    (s.items x).linked = true ∧ (s'.items x).key = (s.items x).key ∨
      ∀ b, b ≠ a → s.itemLocks (cfg.bucket (s'.items x).key) ≠ some b
  waiting : ∀ b, b ≠ a → ∀ c n, s.lruLocks c = some b → s.Waiting g c n → s'.Waiting g' c n

lemma refs_pos (h : it ∈ (s.actors a).refs) : 0 < s.refs it := by
  have hle : (s.actors a).refs.count it ≤ ∑ a, (s.actors a).refs.count it :=
    Finset.single_le_sum (f := fun a => (s.actors a).refs.count it) (fun _ _ => Nat.zero_le _)
      (Finset.mem_univ a)
  have hpos := List.count_pos_iff.2 h
  simp only [refs]
  omega

omit [DecidableEq ι] [Fintype τ] in
lemma mem_refs (hop : op ∈ (s.actors a).todo) (hit : it ∈ op.drops) : it ∈ (s.actors a).refs :=
  List.mem_append_left _ (List.mem_append_left _ (List.mem_flatMap.2 ⟨op, hop, hit⟩))

/-- Two actors have two references. -/
lemma two_le_refs [DecidableEq τ] (hab : a ≠ b) (ha : it ∈ (s.actors a).refs)
    (hb : it ∈ (s.actors b).refs) : 2 ≤ s.refs it := by
  have hle : (s.actors a).refs.count it + (s.actors b).refs.count it ≤
      ∑ a, (s.actors a).refs.count it := by
    rw [← Finset.sum_pair (f := fun a => (s.actors a).refs.count it) hab]
    exact Finset.sum_le_sum_of_subset (Finset.subset_univ _)
  have hposa := List.count_pos_iff.2 ha
  have hposb := List.count_pos_iff.2 hb
  simp only [refs]
  omega

/-- Who uses an item has a reference. -/
lemma Sound.held (hs : Sound cfg s g) (hop : op ∈ (s.actors a).todo) (hit : it ∈ op.needs) :
    it ∈ (s.actors a).refs := by
  obtain ⟨op', hop', hdrop⟩ := (hs.progs a).held hop hit
  exact mem_refs hop' hdrop

lemma Sound.not_slabbed (hs : Sound cfg s g) (hit : it ∈ (s.actors a).refs) :
    (s.items it).slabbed = false := by
  refine Bool.eq_false_iff.2 fun hslabbed => ?_
  have hpos := refs_pos hit
  rw [(hs.free it hslabbed).2] at hpos
  exact absurd hpos (by decide)

/-- Who uses an item with its lock has the lock. -/
lemma Sound.locked (hs : Sound cfg s g) (hop : op ∈ (s.actors a).todo) (hit : it ∈ op.under) :
    s.itemLocks (cfg.bucket (s.items it).key) = some a := by
  exact (hs.locks _ _).2 ((hs.progs a).locked hop hit)

/-- A new item of another actor stays one. -/
lemma Sound.other_fresh [DecidableEq τ] (hs : Sound cfg s g) (hm : Moves cfg s s' g g' a T)
    (hb : b ≠ a) (href : it ∈ (s.actors b).refs) (hfresh : s.Fresh it) : s'.Fresh it := by
  have hT : ¬ T it := by
    intro hT
    rcases hm.touched it hT with hslabbed | ⟨_, _, hown | hlinked⟩
    · rw [hs.not_slabbed href] at hslabbed
      cases hslabbed
    · have htwo := two_le_refs hb href hown
      rw [hfresh.refs] at htwo
      exact absurd htwo (by decide)
    · rw [hfresh.linked] at hlinked
      cases hlinked
  obtain ⟨hitem, _, _, hrefs⟩ := hm.kept it hT
  exact ⟨by rw [hitem]; exact hfresh.linked, by rw [hrefs]; exact hfresh.refs⟩

/-- What the others are doing is in order after the step. -/
lemma Sound.other_prog [DecidableEq τ] (hs : Sound cfg s g) (hm : Moves cfg s s' g g' a T)
    (hb : b ≠ a) : Prog cfg s' g' [] (s.actors b).todo := by
  have hkey : ∀ op ∈ (s.actors b).todo, ∀ it ∈ op.needs, (s'.items it).key = (s.items it).key := by
    intro op hop it hit
    by_cases hT : T it
    · rcases hm.touched it hT with hslabbed | ⟨hsame, _⟩
      · rw [hs.not_slabbed (hs.held hop hit)] at hslabbed
        cases hslabbed
      · exact hsame
    · rw [(hm.kept it hT).1]
  have hunder : ∀ op ∈ (s.actors b).todo, ∀ it ∈ op.under, ¬ T it := by
    intro op hop it hit hT
    rcases hm.touched it hT with hslabbed | ⟨_, hlock, _⟩
    · rw [hs.not_slabbed (hs.held hop (ItemOp.under_needs hit))] at hslabbed
      cases hslabbed
    · exact hlock b hb (hs.locked hop hit)
  refine (hs.progs b).congr (fun x hx => by cases hx) hkey ?_ ?_ ?_ ?_ ?_
  · intro op hop it hit
    obtain ⟨hitem, hcls, hlists, _⟩ := hm.kept it (hunder op hop it (ItemOp.firm_under hit))
    exact ⟨hitem, hcls, hlists⟩
  · intro op hop it hit hfresh
    exact hs.other_fresh hm hb (hs.held hop (ItemOp.fresh_needs hit)) hfresh
  · intro op hop it hit hlinked
    have hu := ItemOp.gone_under hit
    rcases hm.linked it hlinked with ⟨hlinked, _⟩ | hlock
    · exact hlinked
    · refine absurd (hs.locked hop hu) ?_
      rw [← hkey op hop it (ItemOp.under_needs hu)]
      exact hlock b hb
  · intro op hop k hk x hlinked hxk
    have hlocked : s.itemLocks (cfg.bucket k) = some b := by
      obtain ⟨it, hit, rfl⟩ := (hs.progs b).absent_key hop hk
      exact hs.locked hop hit
    rcases hm.linked x hlinked with ⟨hold, hsame⟩ | hlock
    · exact ⟨hold, hsame ▸ hxk⟩
    · rw [hxk] at hlock
      exact absurd hlocked (hlock b hb)
  · intro op hop c n hsearch hwaiting
    have hlru : s.lruLocks c = some b := (hs.lruLocks c b).2 ⟨op, hop, ItemOp.lruLock_of_search hsearch⟩
    exact hm.waiting b hb c n hlru hwaiting

/-- What the actor itself has still to do is in order after the step. -/
lemma Sound.own_prog (hs : Sound cfg s g) (hm : Moves cfg s s' g g' a T)
    (htodo : (s.actors a).todo = op :: rest)
    (hown : ∀ it, T it → ∀ op' ∈ rest, it ∉ op'.firm ∧ it ∉ op'.fresh)
    (hlinks : ∀ x, (s'.items x).linked = true →
      (s.items x).linked = true ∧ (s'.items x).key = (s.items x).key ∨ x ∈ op.links)
    (hunlinks : ∀ x ∈ op.unlinks, (s'.items x).linked = false)
    (hsearch : ∀ op' ∈ rest, ∀ c n, op'.search = some (c, n) → s.Waiting g c n → s'.Waiting g' c n) :
    Prog cfg s' g' [] rest := by
  have hprog := hs.progs a
  rw [htodo] at hprog
  obtain ⟨hok, hrest⟩ := hprog
  have hmem : ∀ op' ∈ rest, op' ∈ (s.actors a).todo := fun op' hop' => by
    rw [htodo]
    exact List.mem_cons_of_mem _ hop'
  have hkey : ∀ op' ∈ rest, ∀ it ∈ op'.needs, (s'.items it).key = (s.items it).key := by
    intro op' hop' it hit
    by_cases hT : T it
    · rcases hm.touched it hT with hslabbed | ⟨hsame, _⟩
      · rw [hs.not_slabbed (hs.held (hmem op' hop') hit)] at hslabbed
        cases hslabbed
      · exact hsame
    · rw [(hm.kept it hT).1]
  refine hrest.congr ?_ hkey ?_ ?_ ?_ ?_ hsearch
  · intro x hx hlinked
    rw [List.append_nil] at hx
    rw [hunlinks x hx] at hlinked
    cases hlinked
  · intro op' hop' it hit
    obtain ⟨hitem, hcls, hlists, _⟩ := hm.kept it fun hT => (hown it hT op' hop').1 hit
    exact ⟨hitem, hcls, hlists⟩
  · intro op' hop' it hit hfresh
    obtain ⟨hitem, _, _, hrefs⟩ := hm.kept it fun hT => (hown it hT op' hop').2 hit
    exact ⟨by rw [hitem]; exact hfresh.linked, by rw [hrefs]; exact hfresh.refs⟩
  · intro op' hop' it hit hlinked
    rcases hlinks it hlinked with ⟨hlinked, _⟩ | hlink
    · exact hlinked
    · have hlast := (hok.linksLast (List.ne_nil_of_mem hlink) op' hop').1 it hlink
      exact absurd hit hlast
  · intro op' hop' k hk x hlinked hxk
    rcases hlinks x hlinked with ⟨hold, hsame⟩ | hlink
    · exact ⟨hold, hsame ▸ hxk⟩
    · rw [(hok.linksLast (List.ne_nil_of_mem hlink) op' hop').2] at hk
      cases hk

variable [DecidableEq τ]

/-- How the references change when one actor moves. -/
lemma refs_step (hother : ∀ b, b ≠ a → s'.actors b = s.actors b) (it : ι) :
    s'.refs it + ((s.actors a).refs.count it + s.bumps.count it) =
      s.refs it + ((s'.actors a).refs.count it + s'.bumps.count it) := by
  have hsum := sum_move (f := fun b => (s.actors b).refs.count it)
    (g := fun b => (s'.actors b).refs.count it) (Finset.mem_univ a)
    fun b _ hb => by rw [hother b hb]
  simp only [refs]
  omega

lemma linking_step (hother : ∀ b, b ≠ a → s'.actors b = s.actors b) (it : ι) :
    s'.linking it + (if ItemOp.isLinkQ it (s.actors a).todo.head? then 1 else 0) =
      s.linking it + if ItemOp.isLinkQ it (s'.actors a).todo.head? then 1 else 0 :=
  sum_move (f := fun b => if ItemOp.isLinkQ it (s.actors b).todo.head? then 1 else 0)
    (g := fun b => if ItemOp.isLinkQ it (s'.actors b).todo.head? then 1 else 0) (Finset.mem_univ a)
    fun b _ hb => by rw [hother b hb]

/-- **The step rule.** -/
lemma Sound.of_moves (hs : Sound cfg s g) (hm : Moves cfg s s' g g' a T)
    (hlru : ∃ L, Lru.Inv s'.lru L g')
    (hcount : ∀ it, T it → (s'.items it).refcount.toNat + s'.linking it =
      (if (s'.items it).linked then 1 else 0) + s'.refs it)
    (hfree : ∀ it, T it → (s'.items it).slabbed = true → (s'.items it).linked = false ∧ s'.refs it = 0)
    (htable : ∀ k it, s'.table k = some it ↔ (s'.items it).linked = true ∧ (s'.items it).key = k)
    (hqueued : ∀ it, T it → (∀ b op, (s'.actors b).todo.head? = some op → it ∉ op.atQueue) →
      (it ∈ g'.lists (s'.lru.clsid it) ↔ (s'.items it).linked = true))
    (hhead : ∀ op, (s.actors a).todo.head? = some op → ∀ it ∈ op.atQueue, T it)
    (hhead' : ∀ op, (s'.actors a).todo.head? = some op → ∀ it ∈ op.atQueue, T it)
    (hlocks : ∀ b c, c ≠ a → (s'.itemLocks b = some c ↔ s.itemLocks b = some c))
    (hlocksA : ∀ b, s'.itemLocks b = some a ↔ Owes cfg (s'.actors a).todo b)
    (hlruLocks : ∀ c b, b ≠ a → (s'.lruLocks c = some b ↔ s.lruLocks c = some b))
    (hlruLocksA : ∀ c, s'.lruLocks c = some a ↔ OwesLru (s'.actors a).todo c)
    (hprog : Prog cfg s' g' [] (s'.actors a).todo)
    (hitem : ∀ x, (s'.actors a).item = some x →
      s'.Fresh x.1 ∧ ∀ op ∈ (s'.actors a).todo, op.isAlloc = false) : Sound cfg s' g' := by
  have hlink : ∀ {t : Option (ItemOp ι κ)} {it : ι}, ItemOp.isLinkQ it t = true →
      ∃ op, t = some op ∧ it ∈ op.atQueue := by
    intro t it h
    match t with
    | none => cases h
    | some op =>
      cases op with
      | itemLinkQ it' =>
        have heq : it' = it := of_decide_eq_true h
        exact ⟨_, rfl, by simp [ItemOp.atQueue, heq]⟩
      | _ => cases h
  refine ⟨hlru, fun it => ?_, fun it => ?_, htable, fun it hq => ?_, fun b c => ?_, fun c b => ?_,
    fun b => ?_, fun b x hx => ?_⟩
  · by_cases hT : T it
    · exact hcount it hT
    · have hl := linking_step hm.other it
      have hno : ItemOp.isLinkQ it (s.actors a).todo.head? = false := by
        refine Bool.eq_false_iff.2 fun h => ?_
        obtain ⟨op, hop, hit⟩ := hlink h
        exact hT (hhead op hop it hit)
      have hno' : ItemOp.isLinkQ it (s'.actors a).todo.head? = false := by
        refine Bool.eq_false_iff.2 fun h => ?_
        obtain ⟨op, hop, hit⟩ := hlink h
        exact hT (hhead' op hop it hit)
      obtain ⟨hitem, _, _, hrefs⟩ := hm.kept it hT
      simp only [hno, hno', Bool.false_eq_true, if_false, Nat.add_zero] at hl
      rw [hitem, hrefs, hl]
      exact hs.count it
  · by_cases hT : T it
    · exact hfree it hT
    · obtain ⟨hitem, _, _, hrefs⟩ := hm.kept it hT
      rw [hitem, hrefs]
      exact hs.free it
  · by_cases hT : T it
    · exact hqueued it hT hq
    · obtain ⟨hitem, hcls, hlists, _⟩ := hm.kept it hT
      rw [hitem, hcls, hlists]
      refine hs.queued it fun b op hop hit => ?_
      by_cases hb : b = a
      · subst hb
        exact hT (hhead op hop it hit)
      · exact hq b op (by rw [hm.other b hb]; exact hop) hit
  · by_cases hc : c = a
    · subst hc
      exact hlocksA b
    · rw [hlocks b c hc, hm.other c hc]
      exact hs.locks b c
  · by_cases hb : b = a
    · subst hb
      exact hlruLocksA c
    · rw [hlruLocks c b hb, hm.other b hb]
      exact hs.lruLocks c b
  · by_cases hb : b = a
    · subst hb
      exact hprog
    · rw [hm.other b hb]
      exact hs.other_prog hm hb
  · by_cases hb : b = a
    · subst hb
      exact hitem x hx
    · rw [hm.other b hb] at hx ⊢
      refine ⟨hs.other_fresh hm hb ?_ (hs.item b x hx).1, (hs.item b x hx).2⟩
      simp [ItemActor.refs, hx]

end Moves

end ItemCache

end Skq.Mem
