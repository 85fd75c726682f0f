import SkqBench.Mem.ItemsHeld

/-!
# Which operations may come when

For each operation, what makes it one in order (`OpOk`): what it needs of the operations behind it, and
what of the cache.
-/

namespace Skq.Mem

open Lib

/-! ## Operations that rely on nothing -/

namespace ItemOp

variable {ι κ : Type*} {op : ItemOp ι κ}

lemma absent_of_fresh (h : op.fresh = []) (key : ι → κ) : op.absent key = none := by
  cases op with
  | doStoreItem k it comm old => cases h
  | doItemLink it => cases h
  | _ => rfl

lemma Calm.found (h : op.Calm) : op.found = [] := by
  have hfirm := h.1
  simp only [firm, List.append_eq_nil_iff] at hfirm
  exact hfirm.1.1

lemma Calm.nolock (h : op.Calm) : op.nolock = [] := by
  have hfirm := h.1
  simp only [firm, List.append_eq_nil_iff] at hfirm
  exact hfirm.1.2

lemma Calm.atQueue (h : op.Calm) : op.atQueue = [] := by
  have hfirm := h.1
  simp only [firm, List.append_eq_nil_iff] at hfirm
  exact hfirm.2

end ItemOp

namespace ItemCache

variable {τ ι κ : Type*} [DecidableEq ι] [Fintype τ] {cfg : ItemSettings κ} {s s' : ItemCache τ ι κ}
  {g g' : Lru.History ι} {U U' : List ι} {op : ItemOp ι κ} {p rest new : List (ItemOp ι κ)} {it : ι}
  {a b : τ} {c : ℕ}

omit [DecidableEq ι] [Fintype τ] in
lemma Holds.of_calm (h : op.Calm) : Holds s g op := by
  cases op with
  | itemLinkQ it => cases h.atQueue
  | itemMoveQ it c => cases h.atQueue
  | itemUnlinkQ it nolock => cases h.atQueue
  | deltaReplace k incr n cas it value => cases h.found
  | setCas it new => cases h.2.2.1
  | _ => trivial

/-- An operation that relies on nothing is in order when the locks and references are. -/
lemma OpOk.of_calm (hop : op.Calm) (hlinks : op.links = []) (hsearch : op.search = none)
    (hlast : op.isBody = true → ∀ op' ∈ rest, op'.Calm)
    (hlocked : ∀ it ∈ op.under, Owes cfg rest (cfg.bucket (s.items it).key))
    (hheld : ∀ it ∈ op.needs, it ∈ op.drops ∨ ∃ op' ∈ rest, it ∈ op'.drops)
    (hkeyed : ∀ p ∈ op.keyed, (s.items p.2).key = p.1)
    (honce : ∀ k, op.lockKey = some k → ¬ Owes cfg rest (cfg.bucket k))
    (honceLru : ∀ c, op.lruLock = some c → ¬ OwesLru rest c)
    (hquiet : ∀ op' ∈ rest, op'.atQueue = [])
    (hapart : ∀ it, it ∈ op.under ∨ it ∈ op.drops → ∀ op' ∈ rest, it ∉ op'.firm ∧ it ∉ op'.fresh) :
    OpOk cfg s g U op rest where
  locked := hlocked
  held := hheld
  keyed := hkeyed
  fresh it hit := by simp [hop.2.1] at hit
  found it hit := by simp [hop.found] at hit
  gone it hit := by simp [hop.2.2.1] at hit
  absent k hk := by simp [ItemOp.absent_of_fresh hop.2.1] at hk
  nolock it hit := by simp [hop.nolock] at hit
  search c n hn := by simp [hsearch] at hn
  holds := Holds.of_calm hop
  once := honce
  onceLru := honceLru
  quiet := hquiet
  apart := hapart
  passed it hit := by simp [hop.nolock] at hit
  linksLast h := absurd hlinks h
  last := hlast

lemma Prog.cons (hop : OpOk cfg s g U op rest) (hrest : Prog cfg s g (op.unlinks ++ U) rest) :
    Prog cfg s g U (op :: rest) := ⟨hop, hrest⟩

/-- What is left is calm. -/
def AllCalm (p : List (ItemOp ι κ)) : Prop := ∀ op ∈ p, op.Calm

omit [DecidableEq ι] in
@[simp] lemma allCalm_nil : AllCalm ([] : List (ItemOp ι κ)) := by simp [AllCalm]

omit [DecidableEq ι] in
@[simp] lemma allCalm_cons : AllCalm (op :: p) ↔ op.Calm ∧ AllCalm p := by simp [AllCalm]

omit [DecidableEq ι] in
@[simp] lemma allCalm_append : AllCalm (p ++ new) ↔ AllCalm p ∧ AllCalm new := by
  simp [AllCalm, or_imp, forall_and]

omit [DecidableEq ι] in
lemma AllCalm.quiet (h : AllCalm p) : ∀ op' ∈ p, op'.atQueue = [] := fun op' hop' =>
  (h op' hop').atQueue

omit [DecidableEq ι] in
lemma AllCalm.apart (h : AllCalm p) : ∀ op' ∈ p, it ∉ op'.firm ∧ it ∉ op'.fresh := fun op' hop' => by
  simp [(h op' hop').1, (h op' hop').2.1]

/-- What holds for the items that are unlinked by then, holds for more of them. -/
lemma Prog.mono (hp : Prog cfg s g U p) (hU : ∀ x ∈ U, x ∈ U') : Prog cfg s g U' p :=
  hp.congr (fun x hx _ => hU x hx) (fun _ _ _ _ => rfl) (fun _ _ _ _ => ⟨rfl, rfl, fun _ => Iff.rfl⟩)
    (fun _ _ _ _ h => h) (fun _ _ _ _ h => h) (fun _ _ _ _ _ hl hk => ⟨hl, hk⟩)
    (fun _ _ _ _ _ h => h)

/-! ## Operations that use an item, or none -/

section Order

variable {k : κ}

/-- The operations behind an item: they do not work at a queue, and do not rely on the item. -/
def Behind (it : ι) (p : List (ItemOp ι κ)) : Prop :=
  ∀ op ∈ p, op.atQueue = [] ∧ it ∉ op.firm ∧ it ∉ op.fresh

omit [DecidableEq ι] in
@[simp] lemma behind_nil : Behind it ([] : List (ItemOp ι κ)) := by simp [Behind]

omit [DecidableEq ι] in
@[simp] lemma behind_cons :
    Behind it (op :: p) ↔ (op.atQueue = [] ∧ it ∉ op.firm ∧ it ∉ op.fresh) ∧ Behind it p := by
  simp [Behind]

omit [DecidableEq ι] in
lemma AllCalm.behind (h : AllCalm p) : Behind it p := fun op hop => by
  simp [(h op hop).1, (h op hop).2.1, (h op hop).atQueue]

omit [DecidableEq ι] in
lemma Behind.quiet (h : Behind it p) : ∀ op ∈ p, op.atQueue = [] := fun op hop => (h op hop).1

omit [DecidableEq ι] in
lemma Behind.apart (h : Behind it p) {x : ι} (hx : x = it) : ∀ op ∈ p, x ∉ op.firm ∧ x ∉ op.fresh := by
  subst hx
  exact fun op hop => (h op hop).2

lemma ok_doItemRemove (hlock : Owes cfg rest (cfg.bucket (s.items it).key)) (hrest : Behind it rest) :
    OpOk cfg s g U (.doItemRemove it) rest :=
  .of_calm ⟨rfl, rfl, rfl, rfl⟩ rfl rfl (by simp [ItemOp.isBody]) (by simpa [ItemOp.under] using hlock)
    (by simp [ItemOp.needs, ItemOp.under, ItemOp.fresh, ItemOp.drops]) (by simp [ItemOp.keyed])
    (by simp [ItemOp.lockKey]) (by simp [ItemOp.lruLock]) hrest.quiet
    fun x hx => hrest.apart (by simpa [ItemOp.under, ItemOp.drops] using hx)

lemma ok_itemRemove (hrest : Behind it rest) : OpOk cfg s g U (.itemRemove it) rest :=
  .of_calm ⟨rfl, rfl, rfl, rfl⟩ rfl rfl (by simp [ItemOp.isBody]) (by simp [ItemOp.under])
    (by simp [ItemOp.needs, ItemOp.under, ItemOp.fresh, ItemOp.drops]) (by simp [ItemOp.keyed])
    (by simp [ItemOp.lockKey]) (by simp [ItemOp.lruLock]) hrest.quiet
    fun x hx => hrest.apart (by simpa [ItemOp.under, ItemOp.drops] using hx)

lemma ok_itemBump (hrest : Behind it rest) : OpOk cfg s g U (.itemBump it) rest :=
  .of_calm ⟨rfl, rfl, rfl, rfl⟩ rfl rfl (by simp [ItemOp.isBody]) (by simp [ItemOp.under])
    (by simp [ItemOp.needs, ItemOp.under, ItemOp.fresh, ItemOp.drops]) (by simp [ItemOp.keyed])
    (by simp [ItemOp.lockKey]) (by simp [ItemOp.lruLock]) hrest.quiet
    fun x hx => hrest.apart (by simpa [ItemOp.under, ItemOp.drops] using hx)

lemma ok_limitedGet (hkey : (s.items it).key = k) (hrest : Behind it rest) :
    OpOk cfg s g U (.limitedGet k it) rest :=
  .of_calm ⟨rfl, rfl, rfl, rfl⟩ rfl rfl (by simp [ItemOp.isBody]) (by simp [ItemOp.under])
    (by simp [ItemOp.needs, ItemOp.under, ItemOp.fresh, ItemOp.drops])
    (by simpa [ItemOp.keyed] using hkey) (by simp [ItemOp.lockKey]) (by simp [ItemOp.lruLock])
    hrest.quiet fun x hx => hrest.apart (by simpa [ItemOp.under, ItemOp.drops] using hx)

lemma ok_reply (hkey : (s.items it).key = k) (hrest : Behind it rest) :
    OpOk cfg s g U (.reply k it) rest :=
  .of_calm ⟨rfl, rfl, rfl, rfl⟩ rfl rfl (by simp [ItemOp.isBody]) (by simp [ItemOp.under])
    (by simp [ItemOp.needs, ItemOp.under, ItemOp.fresh, ItemOp.drops])
    (by simpa [ItemOp.keyed] using hkey) (by simp [ItemOp.lockKey]) (by simp [ItemOp.lruLock])
    hrest.quiet fun x hx => hrest.apart (by simpa [ItemOp.under, ItemOp.drops] using hx)

/-- The operations that use an item of which a reference is given back later. -/
lemma ok_itemUnlink (hheld : ∃ op ∈ rest, it ∈ op.drops) (hrest : AllCalm rest) :
    OpOk cfg s g U (.itemUnlink it) rest :=
  .of_calm ⟨rfl, rfl, rfl, rfl⟩ rfl rfl (fun _ => hrest) (by simp [ItemOp.under])
    (by simpa [ItemOp.needs, ItemOp.under, ItemOp.fresh, ItemOp.drops] using hheld)
    (by simp [ItemOp.keyed]) (by simp [ItemOp.lockKey]) (by simp [ItemOp.lruLock]) hrest.quiet
    (by simp [ItemOp.under, ItemOp.drops])

lemma ok_itemRemoveHeld (hlock : Owes cfg rest (cfg.bucket (s.items it).key))
    (hheld : ∃ op ∈ rest, it ∈ op.drops) (hrest : Behind it rest) :
    OpOk cfg s g U (.itemRemoveHeld it) rest :=
  .of_calm ⟨rfl, rfl, rfl, rfl⟩ rfl rfl (by simp [ItemOp.isBody]) (by simpa [ItemOp.under] using hlock)
    (by simpa [ItemOp.needs, ItemOp.under, ItemOp.fresh, ItemOp.drops] using hheld)
    (by simp [ItemOp.keyed]) (by simp [ItemOp.lockKey]) (by simp [ItemOp.lruLock]) hrest.quiet
    fun x hx => hrest.apart (by simpa [ItemOp.under, ItemOp.drops] using hx)

lemma ok_doItemTouch {e : UInt32} (hlock : Owes cfg rest (cfg.bucket (s.items it).key))
    (hheld : ∃ op ∈ rest, it ∈ op.drops) (hrest : Behind it rest) :
    OpOk cfg s g U (.doItemTouch it e) rest :=
  .of_calm ⟨rfl, rfl, rfl, rfl⟩ rfl rfl (by simp [ItemOp.isBody]) (by simpa [ItemOp.under] using hlock)
    (by simpa [ItemOp.needs, ItemOp.under, ItemOp.fresh, ItemOp.drops] using hheld)
    (by simp [ItemOp.keyed]) (by simp [ItemOp.lockKey]) (by simp [ItemOp.lruLock]) hrest.quiet
    fun x hx => hrest.apart (by simpa [ItemOp.under, ItemOp.drops] using hx)

lemma ok_doItemUpdate (hlock : Owes cfg rest (cfg.bucket (s.items it).key))
    (hheld : ∃ op ∈ rest, it ∈ op.drops) (hrest : Behind it rest) :
    OpOk cfg s g U (.doItemUpdate it) rest :=
  .of_calm ⟨rfl, rfl, rfl, rfl⟩ rfl rfl (by simp [ItemOp.isBody]) (by simpa [ItemOp.under] using hlock)
    (by simpa [ItemOp.needs, ItemOp.under, ItemOp.fresh, ItemOp.drops] using hheld)
    (by simp [ItemOp.keyed]) (by simp [ItemOp.lockKey]) (by simp [ItemOp.lruLock]) hrest.quiet
    fun x hx => hrest.apart (by simpa [ItemOp.under, ItemOp.drops] using hx)

lemma ok_doItemUnlink (hlock : Owes cfg rest (cfg.bucket (s.items it).key))
    (hheld : ∃ op ∈ rest, it ∈ op.drops) (hrest : Behind it rest) :
    OpOk cfg s g U (.doItemUnlink it false) rest :=
  .of_calm ⟨rfl, rfl, rfl, rfl⟩ rfl rfl (by simp [ItemOp.isBody]) (by simpa [ItemOp.under] using hlock)
    (by simpa [ItemOp.needs, ItemOp.under, ItemOp.fresh, ItemOp.drops] using hheld)
    (by simp [ItemOp.keyed]) (by simp [ItemOp.lockKey]) (by simp [ItemOp.lruLock]) hrest.quiet
    fun x hx => hrest.apart (by simpa [ItemOp.under, ItemOp.drops] using hx)

/-- The operations that use no item. -/
lemma ok_itemUnlock (hrest : ¬ Owes cfg rest (cfg.bucket k)) (hquiet : ∀ op ∈ rest, op.atQueue = []) :
    OpOk cfg s g U (.itemUnlock k) rest :=
  .of_calm ⟨rfl, rfl, rfl, rfl⟩ rfl rfl (by simp [ItemOp.isBody]) (by simp [ItemOp.under])
    (by simp [ItemOp.needs, ItemOp.under, ItemOp.fresh, ItemOp.drops]) (by simp [ItemOp.keyed])
    (by simpa [ItemOp.lockKey] using hrest) (by simp [ItemOp.lruLock]) hquiet
    (by simp [ItemOp.under, ItemOp.drops])

lemma ok_lruUnlock (hrest : ¬ OwesLru rest c) (hquiet : ∀ op ∈ rest, op.atQueue = []) :
    OpOk cfg s g U (.lruUnlock c) rest :=
  .of_calm ⟨rfl, rfl, rfl, rfl⟩ rfl rfl (by simp [ItemOp.isBody]) (by simp [ItemOp.under])
    (by simp [ItemOp.needs, ItemOp.under, ItemOp.fresh, ItemOp.drops]) (by simp [ItemOp.keyed])
    (by simp [ItemOp.lockKey]) (by simpa [ItemOp.lruLock] using hrest) hquiet
    (by simp [ItemOp.under, ItemOp.drops])

lemma ok_lruPullTail {fl : PullFlags} (hquiet : ∀ op ∈ rest, op.atQueue = []) :
    OpOk cfg s g U (.lruPullTail c fl) rest :=
  .of_calm ⟨rfl, rfl, rfl, rfl⟩ rfl rfl (by simp [ItemOp.isBody]) (by simp [ItemOp.under])
    (by simp [ItemOp.needs, ItemOp.under, ItemOp.fresh, ItemOp.drops]) (by simp [ItemOp.keyed])
    (by simp [ItemOp.lockKey]) (by simp [ItemOp.lruLock]) hquiet (by simp [ItemOp.under, ItemOp.drops])

lemma ok_crawl {expired : Bool} : OpOk cfg s g U (.crawl c expired) [] :=
  .of_calm ⟨rfl, rfl, rfl, rfl⟩ rfl rfl (by simp [ItemOp.isBody]) (by simp [ItemOp.under])
    (by simp [ItemOp.needs, ItemOp.under, ItemOp.fresh, ItemOp.drops]) (by simp [ItemOp.keyed])
    (by simp [ItemOp.lockKey]) (by simp [ItemOp.lruLock]) (by simp) (by simp)

end Order

/-! ## Operations that rely on something -/

section Firm

variable {k : κ} {n : Option (LruNode ι)} {fl : PullFlags} {tries : ℕ} {comm : Nread} {old : Option ι}
  {it' : ι} {incr : Bool} {delta cas value : UInt64} {use : ItemUse ι} {flags exptime : UInt32}

/-- A search goes on at a node of the queue. -/
lemma ok_pullNext (hn : ∀ m, n = some m → s.Waiting g c m) (honce : ¬ OwesLru rest c)
    (hquiet : ∀ op ∈ rest, op.atQueue = []) : OpOk cfg s g U (.pullNext c fl tries n) rest where
  locked := by simp [ItemOp.under]
  held := by simp [ItemOp.needs, ItemOp.under, ItemOp.fresh, ItemOp.drops]
  keyed := by simp [ItemOp.keyed]
  fresh := by simp [ItemOp.fresh]
  found := by simp [ItemOp.found]
  gone := by simp [ItemOp.gone]
  absent := by simp [ItemOp.absent]
  nolock := by simp [ItemOp.nolock]
  search d m hm := by
    cases n with
    | none => cases hm
    | some m' =>
      cases hm
      exact hn m rfl
  holds := trivial
  once := by simp [ItemOp.lockKey]
  onceLru := by simpa [ItemOp.lruLock] using honce
  quiet := hquiet
  apart := by simp [ItemOp.under, ItemOp.drops]
  passed := by simp [ItemOp.nolock]
  linksLast := by simp [ItemOp.links]
  last := by simp [ItemOp.isBody]

/-- The operations that the search does not come back to. -/
def Past (it : ι) (p : List (ItemOp ι κ)) : Prop :=
  ∀ op ∈ p, ∀ c n, op.search = some (c, n) → n ≠ .item it

omit [DecidableEq ι] in
@[simp] lemma past_nil : Past it ([] : List (ItemOp ι κ)) := by simp [Past]

omit [DecidableEq ι] in
@[simp] lemma past_cons :
    Past it (op :: p) ↔ (∀ c n, op.search = some (c, n) → n ≠ .item it) ∧ Past it p := by
  simp [Past]

lemma ok_doItemUnlink_nolock (hlock : Owes cfg rest (cfg.bucket (s.items it).key))
    (hheld : ∃ op ∈ rest, it ∈ op.drops) (hlru : OwesLru rest (s.lru.clsid it)) (hpast : Past it rest)
    (hrest : Behind it rest) : OpOk cfg s g U (.doItemUnlink it true) rest where
  locked := by simpa [ItemOp.under] using hlock
  held := by simpa [ItemOp.needs, ItemOp.under, ItemOp.fresh, ItemOp.drops] using hheld
  keyed := by simp [ItemOp.keyed]
  fresh := by simp [ItemOp.fresh]
  found := by simp [ItemOp.found]
  gone := by simp [ItemOp.gone]
  absent := by simp [ItemOp.absent]
  nolock := by simpa [ItemOp.nolock] using hlru
  search := by simp [ItemOp.search]
  holds := trivial
  once := by simp [ItemOp.lockKey]
  onceLru := by simp [ItemOp.lruLock]
  quiet := hrest.quiet
  apart x hx := hrest.apart (by simpa [ItemOp.under, ItemOp.drops] using hx)
  passed := by simpa [ItemOp.nolock, Past] using hpast
  linksLast := by simp [ItemOp.links]
  last := by simp [ItemOp.isBody]

lemma ok_crawlerEval {expired : Bool} (hlock : Owes cfg rest (cfg.bucket (s.items it).key))
    (hlru : expired = true → OwesLru rest (s.lru.clsid it)) (hpast : Past it rest)
    (hrest : Behind it rest) : OpOk cfg s g U (.crawlerEval it expired) rest where
  locked := by simpa [ItemOp.under] using hlock
  held := by simp [ItemOp.needs, ItemOp.under, ItemOp.fresh, ItemOp.drops]
  keyed := by simp [ItemOp.keyed]
  fresh := by simp [ItemOp.fresh]
  found := by simp [ItemOp.found]
  gone := by simp [ItemOp.gone]
  absent := by simp [ItemOp.absent]
  nolock x hx := by
    cases expired with
    | false => simp [ItemOp.nolock] at hx
    | true =>
      have heq : x = it := by simpa [ItemOp.nolock] using hx
      rw [heq]
      exact hlru rfl
  search := by simp [ItemOp.search]
  holds := trivial
  once := by simp [ItemOp.lockKey]
  onceLru := by simp [ItemOp.lruLock]
  quiet := hrest.quiet
  apart x hx := hrest.apart (by simpa [ItemOp.under, ItemOp.drops] using hx)
  passed x hx := by
    have heq : x = it := by
      cases expired with
      | false => simp [ItemOp.nolock] at hx
      | true => simpa [ItemOp.nolock] using hx
    rw [heq]
    exact hpast
  linksLast := by simp [ItemOp.links]
  last := by simp [ItemOp.isBody]

/-- An item that has been unlinked leaves its queue. -/
lemma ok_itemUnlinkQ {nolock : Bool} (hlock : Owes cfg rest (cfg.bucket (s.items it).key))
    (hheld : ∃ op ∈ rest, it ∈ op.drops) (hlru : nolock = true → OwesLru rest (s.lru.clsid it))
    (hlinked : (s.items it).linked = false) (hin : it ∈ g.lists (s.lru.clsid it))
    (hpast : nolock = true → Past it rest) (hrest : Behind it rest) :
    OpOk cfg s g U (.itemUnlinkQ it nolock) rest where
  locked := by simpa [ItemOp.under] using hlock
  held := by simpa [ItemOp.needs, ItemOp.under, ItemOp.fresh, ItemOp.drops] using hheld
  keyed := by simp [ItemOp.keyed]
  fresh := by simp [ItemOp.fresh]
  found := by simp [ItemOp.found]
  gone := by simp [ItemOp.gone]
  absent := by simp [ItemOp.absent]
  nolock x hx := by
    cases nolock with
    | false => simp [ItemOp.nolock] at hx
    | true =>
      have heq : x = it := by simpa [ItemOp.nolock] using hx
      rw [heq]
      exact hlru rfl
  search := by simp [ItemOp.search]
  holds := ⟨hlinked, hin⟩
  once := by simp [ItemOp.lockKey]
  onceLru := by simp [ItemOp.lruLock]
  quiet := hrest.quiet
  apart x hx := hrest.apart (by simpa [ItemOp.under, ItemOp.drops] using hx)
  passed x hx := by
    cases nolock with
    | false => simp [ItemOp.nolock] at hx
    | true =>
      have heq : x = it := by simpa [ItemOp.nolock] using hx
      rw [heq]
      exact hpast rfl
  linksLast := by simp [ItemOp.links]
  last := by simp [ItemOp.isBody]

/-- A linked item enters a queue. -/
lemma ok_itemLinkQ (hlock : Owes cfg rest (cfg.bucket (s.items it).key))
    (hheld : ∃ op ∈ rest, it ∈ op.drops) (hlinked : (s.items it).linked = true)
    (hout : ∀ c, it ∉ g.lists c) (hrest : Behind it rest) :
    OpOk cfg s g U (.itemLinkQ it) rest where
  locked := by simpa [ItemOp.under] using hlock
  held := by simpa [ItemOp.needs, ItemOp.under, ItemOp.fresh, ItemOp.drops] using hheld
  keyed := by simp [ItemOp.keyed]
  fresh := by simp [ItemOp.fresh]
  found := by simp [ItemOp.found]
  gone := by simp [ItemOp.gone]
  absent := by simp [ItemOp.absent]
  nolock := by simp [ItemOp.nolock]
  search := by simp [ItemOp.search]
  holds := ⟨hlinked, hout⟩
  once := by simp [ItemOp.lockKey]
  onceLru := by simp [ItemOp.lruLock]
  quiet := hrest.quiet
  apart x hx := hrest.apart (by simpa [ItemOp.under, ItemOp.drops] using hx)
  passed := by simp [ItemOp.nolock]
  linksLast := by simp [ItemOp.links]
  last := by simp [ItemOp.isBody]

lemma ok_itemMoveQ (hlock : Owes cfg rest (cfg.bucket (s.items it).key))
    (hheld : ∃ op ∈ rest, it ∈ op.drops) (hlinked : (s.items it).linked = true)
    (hout : ∀ c, it ∉ g.lists c) (hrest : Behind it rest) :
    OpOk cfg s g U (.itemMoveQ it c) rest where
  locked := by simpa [ItemOp.under] using hlock
  held := by simpa [ItemOp.needs, ItemOp.under, ItemOp.fresh, ItemOp.drops] using hheld
  keyed := by simp [ItemOp.keyed]
  fresh := by simp [ItemOp.fresh]
  found := by simp [ItemOp.found]
  gone := by simp [ItemOp.gone]
  absent := by simp [ItemOp.absent]
  nolock := by simp [ItemOp.nolock]
  search := by simp [ItemOp.search]
  holds := ⟨hlinked, hout⟩
  once := by simp [ItemOp.lockKey]
  onceLru := by simp [ItemOp.lruLock]
  quiet := hrest.quiet
  apart x hx := hrest.apart (by simpa [ItemOp.under, ItemOp.drops] using hx)
  passed := by simp [ItemOp.nolock]
  linksLast := by simp [ItemOp.links]
  last := by simp [ItemOp.isBody]

/-- A new item is linked. -/
lemma ok_doItemLink (hlock : Owes cfg rest (cfg.bucket (s.items it).key))
    (hheld : ∃ op ∈ rest, it ∈ op.drops) (hfresh : s.Fresh it)
    (habsent : ∀ x, (s.items x).linked = true → (s.items x).key = (s.items it).key → x ∈ U)
    (hrest : Behind it rest)
    (hlast : ∀ op ∈ rest, it ∉ op.gone ∧ ∀ key : ι → κ, op.absent key = none) :
    OpOk cfg s g U (.doItemLink it) rest where
  locked := by simpa [ItemOp.under] using hlock
  held := by simpa [ItemOp.needs, ItemOp.under, ItemOp.fresh, ItemOp.drops] using hheld
  keyed := by simp [ItemOp.keyed]
  fresh := by simpa [ItemOp.fresh] using hfresh
  found := by simp [ItemOp.found]
  gone := by simp [ItemOp.gone]
  absent k hk := by
    cases hk
    exact habsent
  nolock := by simp [ItemOp.nolock]
  search := by simp [ItemOp.search]
  holds := trivial
  once := by simp [ItemOp.lockKey]
  onceLru := by simp [ItemOp.lruLock]
  quiet := hrest.quiet
  apart x hx := hrest.apart (by simpa [ItemOp.under, ItemOp.drops] using hx)
  passed := by simp [ItemOp.nolock]
  linksLast _ op hop := by simpa [ItemOp.links] using hlast op hop
  last := by simp [ItemOp.isBody]

/-- The item that has been replaced gets the CAS id. -/
lemma ok_setCas (hlock : Owes cfg rest (cfg.bucket (s.items it).key))
    (hlock' : Owes cfg rest (cfg.bucket (s.items it').key)) (hheld : ∃ op ∈ rest, it ∈ op.drops)
    (hheld' : ∃ op ∈ rest, it' ∈ op.drops) (hne : it ≠ it') (hU : it ∈ U) (hrest : AllCalm rest) :
    OpOk cfg s g U (.setCas it it') rest where
  locked := by simpa [ItemOp.under] using ⟨hlock, hlock'⟩
  held := by simpa [ItemOp.needs, ItemOp.under, ItemOp.fresh, ItemOp.drops] using ⟨hheld, hheld'⟩
  keyed := by simp [ItemOp.keyed]
  fresh := by simp [ItemOp.fresh]
  found := by simp [ItemOp.found]
  gone x hx _ := by
    have heq : x = it := by simpa [ItemOp.gone] using hx
    rwa [heq]
  absent := by simp [ItemOp.absent]
  nolock := by simp [ItemOp.nolock]
  search := by simp [ItemOp.search]
  holds := hne
  once := by simp [ItemOp.lockKey]
  onceLru := by simp [ItemOp.lruLock]
  quiet := hrest.quiet
  apart _ _ := hrest.apart
  passed := by simp [ItemOp.nolock]
  linksLast := by simp [ItemOp.links]
  last := by simp [ItemOp.isBody]

/-- A new item is stored over an old one or over none. -/
lemma ok_doStoreItem (hlock : Owes cfg rest (cfg.bucket k)) (hheld : ∃ op ∈ rest, it ∈ op.drops)
    (hfresh : s.Fresh it) (hkey : (s.items it).key = k)
    (hold : ∀ o, old = some o → (s.items o).linked = true ∧ (s.items o).key = k)
    (habsent : old = none → ∀ x, (s.items x).linked = true → (s.items x).key = k → x ∈ U)
    (hrest : AllCalm rest) : OpOk cfg s g U (.doStoreItem k it comm old) rest where
  locked x hx := by
    rcases List.mem_cons.1 hx with rfl | hx
    · rwa [hkey]
    · rw [(hold x (Option.mem_toList.1 hx)).2]
      exact hlock
  held x hx := by
    simp only [ItemOp.needs, ItemOp.under, ItemOp.fresh, ItemOp.drops, List.append_nil,
      List.mem_append, List.mem_cons, List.not_mem_nil, or_false] at hx ⊢
    rcases hx with ((rfl | hx) | rfl) | hx
    · exact .inr hheld
    · exact .inl hx
    · exact .inr hheld
    · exact .inl hx
  keyed p hp := by
    rcases List.mem_cons.1 hp with rfl | hp
    · exact hkey
    · obtain ⟨o, ho, rfl⟩ := List.mem_map.1 hp
      exact (hold o (Option.mem_toList.1 ho)).2
  fresh := by simpa [ItemOp.fresh] using hfresh
  found x hx := (hold x (Option.mem_toList.1 hx)).1
  gone := by simp [ItemOp.gone]
  absent k' hk' := by
    cases old with
    | none =>
      cases hk'
      exact habsent rfl
    | some o => cases hk'
  nolock := by simp [ItemOp.nolock]
  search := by simp [ItemOp.search]
  holds := trivial
  once := by simp [ItemOp.lockKey]
  onceLru := by simp [ItemOp.lruLock]
  quiet := hrest.quiet
  apart _ _ := hrest.apart
  passed := by simp [ItemOp.nolock]
  linksLast := by simp [ItemOp.links]
  last _ := hrest

lemma ok_storeAppend (hlock : Owes cfg rest (cfg.bucket k)) (hheld : ∃ op ∈ rest, it ∈ op.drops)
    (hfresh : s.Fresh it) (hkey : (s.items it).key = k) (hlinked : (s.items it').linked = true)
    (hkey' : (s.items it').key = k) (hrest : AllCalm rest) :
    OpOk cfg s g U (.storeAppend k it comm it') rest where
  locked := by simpa [ItemOp.under, hkey, hkey'] using hlock
  held := by simpa [ItemOp.needs, ItemOp.under, ItemOp.fresh, ItemOp.drops] using .inr hheld
  keyed := by simp [ItemOp.keyed, hkey, hkey']
  fresh := by simpa [ItemOp.fresh] using hfresh
  found := by simpa [ItemOp.found] using hlinked
  gone := by simp [ItemOp.gone]
  absent := by simp [ItemOp.absent]
  nolock := by simp [ItemOp.nolock]
  search := by simp [ItemOp.search]
  holds := trivial
  once := by simp [ItemOp.lockKey]
  onceLru := by simp [ItemOp.lruLock]
  quiet := hrest.quiet
  apart _ _ := hrest.apart
  passed := by simp [ItemOp.nolock]
  linksLast := by simp [ItemOp.links]
  last _ := hrest

lemma ok_doAddDelta (hlock : Owes cfg rest (cfg.bucket k)) (hlinked : (s.items it).linked = true)
    (hkey : (s.items it).key = k) (hrest : AllCalm rest) :
    OpOk cfg s g U (.doAddDelta k incr delta cas it) rest where
  locked := by simpa [ItemOp.under, hkey] using hlock
  held := by simp [ItemOp.needs, ItemOp.under, ItemOp.fresh, ItemOp.drops]
  keyed := by simp [ItemOp.keyed, hkey]
  fresh := by simp [ItemOp.fresh]
  found := by simpa [ItemOp.found] using hlinked
  gone := by simp [ItemOp.gone]
  absent := by simp [ItemOp.absent]
  nolock := by simp [ItemOp.nolock]
  search := by simp [ItemOp.search]
  holds := trivial
  once := by simp [ItemOp.lockKey]
  onceLru := by simp [ItemOp.lruLock]
  quiet := hrest.quiet
  apart _ _ := hrest.apart
  passed := by simp [ItemOp.nolock]
  linksLast := by simp [ItemOp.links]
  last _ := hrest

lemma ok_deltaReplace (hlock : Owes cfg rest (cfg.bucket k)) (hlinked : (s.items it).linked = true)
    (hkey : (s.items it).key = k)
    (hvalue : Holds s g (ItemOp.deltaReplace k incr delta cas it value)) (hrest : AllCalm rest) :
    OpOk cfg s g U (.deltaReplace k incr delta cas it value) rest where
  locked := by simpa [ItemOp.under, hkey] using hlock
  held := by simp [ItemOp.needs, ItemOp.under, ItemOp.fresh, ItemOp.drops]
  keyed := by simp [ItemOp.keyed, hkey]
  fresh := by simp [ItemOp.fresh]
  found := by simpa [ItemOp.found] using hlinked
  gone := by simp [ItemOp.gone]
  absent := by simp [ItemOp.absent]
  nolock := by simp [ItemOp.nolock]
  search := by simp [ItemOp.search]
  holds := hvalue
  once := by simp [ItemOp.lockKey]
  onceLru := by simp [ItemOp.lruLock]
  quiet := hrest.quiet
  apart _ _ := hrest.apart
  passed := by simp [ItemOp.nolock]
  linksLast := by simp [ItemOp.links]
  last _ := hrest

/-- The beginning of a command. -/
lemma ok_itemGet (hnew : ∀ x ∈ use.newItem, s.Fresh x ∧ (s.items x).key = k ∧ ∃ op ∈ rest, x ∈ op.drops)
    (hrest : AllCalm rest) : OpOk cfg s g U (.itemGet k use) rest where
  locked := by simp [ItemOp.under]
  held x hx := .inr (hnew x (by
    simpa [ItemOp.needs, ItemOp.under, ItemOp.fresh, ItemOp.drops] using hx)).2.2
  keyed p hp := by
    obtain ⟨x, hx, rfl⟩ := List.mem_map.1 hp
    exact (hnew x hx).2.1
  fresh x hx := (hnew x hx).1
  found := by simp [ItemOp.found]
  gone := by simp [ItemOp.gone]
  absent := by simp [ItemOp.absent]
  nolock := by simp [ItemOp.nolock]
  search := by simp [ItemOp.search]
  holds := trivial
  once := by simp [ItemOp.lockKey]
  onceLru := by simp [ItemOp.lruLock]
  quiet := hrest.quiet
  apart _ _ := hrest.apart
  passed := by simp [ItemOp.nolock]
  linksLast := by simp [ItemOp.links]
  last _ := hrest

lemma ok_doItemGet
    (hnew : ∀ x ∈ use.newItem, s.Fresh x ∧ (s.items x).key = k ∧ ∃ op ∈ rest, x ∈ op.drops)
    (honce : ¬ Owes cfg rest (cfg.bucket k)) (hrest : AllCalm rest) :
    OpOk cfg s g U (.doItemGet k use) rest where
  locked := by simp [ItemOp.under]
  held x hx := .inr (hnew x (by
    simpa [ItemOp.needs, ItemOp.under, ItemOp.fresh, ItemOp.drops] using hx)).2.2
  keyed p hp := by
    obtain ⟨x, hx, rfl⟩ := List.mem_map.1 hp
    exact (hnew x hx).2.1
  fresh x hx := (hnew x hx).1
  found := by simp [ItemOp.found]
  gone := by simp [ItemOp.gone]
  absent := by simp [ItemOp.absent]
  nolock := by simp [ItemOp.nolock]
  search := by simp [ItemOp.search]
  holds := trivial
  once := by simpa [ItemOp.lockKey] using honce
  onceLru := by simp [ItemOp.lruLock]
  quiet := hrest.quiet
  apart _ _ := hrest.apart
  passed := by simp [ItemOp.nolock]
  linksLast := by simp [ItemOp.links]
  last _ := hrest

lemma ok_itemAlloc (hrest : AllCalm rest) :
    OpOk cfg s g U (.itemAlloc k flags exptime comm cas) rest where
  locked := by simp [ItemOp.under]
  held := by simp [ItemOp.needs, ItemOp.under, ItemOp.fresh, ItemOp.drops]
  keyed := by simp [ItemOp.keyed]
  fresh := by simp [ItemOp.fresh]
  found := by simp [ItemOp.found]
  gone := by simp [ItemOp.gone]
  absent := by simp [ItemOp.absent]
  nolock := by simp [ItemOp.nolock]
  search := by simp [ItemOp.search]
  holds := trivial
  once := by simp [ItemOp.lockKey]
  onceLru := by simp [ItemOp.lruLock]
  quiet := hrest.quiet
  apart _ _ := hrest.apart
  passed := by simp [ItemOp.nolock]
  linksLast := by simp [ItemOp.links]
  last _ := hrest

end Firm

end ItemCache

end Skq.Mem
