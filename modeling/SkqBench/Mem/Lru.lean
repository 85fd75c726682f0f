import Mathlib.Data.List.Basic
import Mathlib.Data.List.Nodup
import SkqBench.Lib.Queues
import SkqBench.Lib.Run

/-!
# The queues of the items and their crawlers

`items.c` keeps the items of each class in a queue, the one linked last in front.  A crawler of
`crawler.c` is a node of such a queue, too: it is put behind the last item, and each round of
`item_crawler_thread` moves it one place to the front and looks at the item it has passed, while the
workers go on to link and unlink items.  All steps on the queue of a class are made under its
`lru_locks`, so that a step here is what is done between taking the lock and giving it back.
-/

namespace Skq.Mem

open Lib

/-- A node of a queue: an item, or the crawler of a class. -/
inductive LruNode (ι : Type*)
  | item (it : ι)
  | crawler (c : ℕ)
  deriving DecidableEq

/-- The item of a node. -/
def LruNode.item? {ι : Type*} : LruNode ι → Option ι
  | item it => some it
  | crawler _ => none

/-- `LRU_CRAWLER_CAP_REMAINING`. -/
def lruCrawlerCapRemaining : UInt32 := 0xffffffff

/-- The queues with `sizes`, the `slabs_clsid` of the items, and of each crawler whether `it_flags` is
one and how many nodes are `remaining`. -/
structure Lru (ι : Type*) where
  queues : Queues ℕ (LruNode ι)
  sizes : ℕ → UInt32
  clsid : ι → ℕ
  enabled : ℕ → Bool
  remaining : ℕ → UInt32

/-- What happens to the queues.
* `link it c`: an item whose `slabs_clsid` has been set to `c` is linked; `unlink`: it is unlinked.
* `bump`: both, under one lock (`do_item_update`).
* `start c n`: `do_lru_crawler_start`; `crawl c`: a round of `item_crawler_thread` for the class.
* `abandon c`: the client of the crawler has gone away. -/
inductive LruLabel (ι : Type*)
  | link (it : ι) (c : ℕ)
  | unlink (it : ι)
  | bump (it : ι)
  | start (c : ℕ) (n : UInt32)
  | crawl (c : ℕ)
  | abandon (c : ℕ)

/-- What is observed; `crawled c it` is an item that is looked at, and `stray` would be a crawler that
is taken for an item. -/
inductive LruObs (ι : Type*)
  | linked (it : ι) (c : ℕ)
  | unlinked (it : ι)
  | started (c : ℕ) (remaining : UInt32)
  | crawled (c : ℕ) (it : ι)
  | finished (c : ℕ)
  | abandoned (c : ℕ)
  | stray (c : ℕ)
  deriving DecidableEq

namespace Lru

variable {ι : Type*} [DecidableEq ι]

section Steps

variable (s : Lru ι)

/-- `do_item_link_q`. -/
def doItemLinkQ (it : ι) : Lru ι :=
  { s with
    queues := s.queues.pushFront (s.clsid it) (.item it)
    sizes := Function.update s.sizes (s.clsid it) (s.sizes (s.clsid it) + 1) }

/-- `do_item_unlink_q`. -/
def doItemUnlinkQ (it : ι) : Lru ι :=
  { s with
    queues := s.queues.unlink (s.clsid it) (.item it)
    sizes := Function.update s.sizes (s.clsid it) (s.sizes (s.clsid it) - 1) }

/-- `do_item_linktail_q`, for the crawler of a class. -/
def doItemLinktailQ (c : ℕ) : Lru ι := { s with queues := s.queues.pushBack c (.crawler c) }

/-- `do_item_unlinktail_q`. -/
def doItemUnlinktailQ (c : ℕ) : Lru ι := { s with queues := s.queues.unlink c (.crawler c) }

/-- `do_item_crawl_q`, with the node it returns. -/
def doItemCrawlQ (c : ℕ) : Lru ι × Option (LruNode ι) :=
  match s.queues.prev (.crawler c) with
  | none => ({ s with queues := s.queues.popFront c (.crawler c) }, none)
  | some b =>
    let queues := s.queues.advance c (.crawler c) b
    ({ s with queues := queues }, queues.next (.crawler c))

/-- `lru_crawler_class_done`. -/
def lruCrawlerClassDone (c : ℕ) : Lru ι :=
  doItemUnlinktailQ { s with enabled := Function.update s.enabled c false } c

/-- `do_lru_crawler_start`. -/
def doLruCrawlerStart (c : ℕ) (n : UInt32) : Lru ι × List (LruObs ι) :=
  if s.enabled c then (s, [])
  else
    let n := if n = lruCrawlerCapRemaining then s.sizes c else n
    let n := if n = 0 then 0 else n + 1
    (doItemLinktailQ { s with
      enabled := Function.update s.enabled c true
      remaining := Function.update s.remaining c n } c, [.started c n])

/-- A round of `item_crawler_thread` for a class whose crawler is enabled. -/
def itemCrawlerRound (c : ℕ) : Lru ι × List (LruObs ι) :=
  match s.doItemCrawlQ c with
  | (s, none) => (s.lruCrawlerClassDone c, [.finished c])
  | (s, some search) =>
    let obs := match search with
      | .item it => .crawled c it
      | .crawler _ => .stray c
    if s.remaining c = 0 then (s, [obs])
    else
      let left := { s with remaining := Function.update s.remaining c (s.remaining c - 1) }
      if s.remaining c - 1 < 1 then (left.lruCrawlerClassDone c, [.finished c]) else (left, [obs])

/-- One step. -/
def step : LruLabel ι → Option (Lru ι × List (LruObs ι))
  | .link it c =>
    some (doItemLinkQ { s with clsid := Function.update s.clsid it c } it, [.linked it c])
  | .unlink it => some (s.doItemUnlinkQ it, [.unlinked it])
  | .bump it => some ((s.doItemUnlinkQ it).doItemLinkQ it, [.unlinked it, .linked it (s.clsid it)])
  | .start c n => some (s.doLruCrawlerStart c n)
  | .crawl c => if s.enabled c then some (s.itemCrawlerRound c) else none
  | .abandon c => if s.enabled c then some (s.lruCrawlerClassDone c, [.abandoned c]) else none

end Steps

/-- The queues before the first item is linked. -/
def init (clsid : ι → ℕ) (next prev : LruNode ι → Option (LruNode ι)) : Lru ι where
  queues := ⟨fun _ => none, fun _ => none, next, prev⟩
  sizes := fun _ => 0
  clsid := clsid
  enabled := fun _ => false
  remaining := fun _ => 0

/-- The item is reached from the head of the queue. -/
def InQueue (s : Lru ι) (c : ℕ) (it : ι) : Prop :=
  Reached s.queues.next (s.queues.head c) (.item it)

/-- What the callers keep to: an item is linked when it is in no queue, and unlinked when it is in the
queue of its class. -/
def Disciplined (s : Lru ι) : LruLabel ι → Prop
  | .link it _ => ∀ c, ¬ s.InQueue c it
  | .unlink it => s.InQueue (s.clsid it) it
  | .bump it => s.InQueue (s.clsid it) it
  | _ => True

/-! ## What is promised -/

/-- What the queues are for: the items of each class, the one linked last in front; how often each has
been looked at since its crawl began or it was linked; and the `remaining` with which the crawl of a
class began, and how many items it has looked at. -/
structure History (ι : Type*) where
  lists : ℕ → List ι
  crawls : ℕ → ι → ℕ
  limit : ℕ → UInt32
  total : ℕ → ℕ

/-- Nothing has happened. -/
def History.start : History ι := ⟨fun _ => [], fun _ _ => 0, fun _ => 0, fun _ => 0⟩

/-- The history after an observation. -/
def History.after (h : History ι) : LruObs ι → History ι
  | .linked it c =>
    { h with
      lists := Function.update h.lists c (it :: h.lists c)
      crawls := fun c' => Function.update (h.crawls c') it 0 }
  | .unlinked it => { h with lists := fun c => (h.lists c).erase it }
  | .started c n =>
    { h with
      crawls := Function.update h.crawls c fun _ => 0
      limit := Function.update h.limit c n
      total := Function.update h.total c 0 }
  | .crawled c it =>
    { h with
      crawls := Function.update h.crawls c (Function.update (h.crawls c) it (h.crawls c it + 1))
      total := Function.update h.total c (h.total c + 1) }
  | .finished _ => h
  | .abandoned _ => h
  | .stray _ => h

/-- The history of what has been observed. -/
def historyOf (tr : List (LruObs ι)) : History ι := tr.foldl History.after .start

/-! ## The items of a queue -/

/-- The items among the nodes. -/
def itemsOf (l : List (LruNode ι)) : List ι := l.filterMap LruNode.item?

section Items

variable {l m : List (LruNode ι)} {it : ι} {c : ℕ}

omit [DecidableEq ι]

@[simp] lemma itemsOf_nil : itemsOf ([] : List (LruNode ι)) = [] := rfl

@[simp] lemma itemsOf_item : itemsOf (.item it :: l) = it :: itemsOf l := rfl

@[simp] lemma itemsOf_crawler : itemsOf (.crawler c :: l) = itemsOf l := rfl

@[simp] lemma itemsOf_append : itemsOf (l ++ m) = itemsOf l ++ itemsOf m := List.filterMap_append

@[simp] lemma mem_itemsOf : it ∈ itemsOf l ↔ .item it ∈ l := by
  constructor
  · intro h
    obtain ⟨a, ha, heq⟩ := List.mem_filterMap.1 h
    cases a with
    | item it' =>
      cases heq
      exact ha
    | crawler c => cases heq
  · exact fun h => List.mem_filterMap.2 ⟨_, h, rfl⟩

end Items

/-! ## One step -/

/-- The invariant: the queues are the lists `L`, their items are those of the history, and a crawler
has the items it has looked at behind it. -/
structure Inv (s : Lru ι) (L : ℕ → List (LruNode ι)) (h : History ι) : Prop where
  holds : s.queues.Holds L
  items : ∀ c, itemsOf (L c) = h.lists c
  crawler : ∀ c c', .crawler c' ∈ L c ↔ c' = c ∧ s.enabled c = true
  cls : ∀ c it, .item it ∈ L c → s.clsid it = c
  sizes : ∀ c, s.sizes c = UInt32.ofNat (h.lists c).length
  ahead : ∀ c l m, L c = l ++ .crawler c :: m →
    (∀ it, .item it ∈ l → h.crawls c it = 0) ∧ ∀ it, .item it ∈ m → h.crawls c it = 1
  once : ∀ c it, it ∈ h.lists c → h.crawls c it ≤ 1
  whole : ∀ c, s.enabled c = true → h.limit c = 0 → s.remaining c = 0
  part : ∀ c, s.enabled c = true → h.limit c ≠ 0 →
    s.remaining c ≠ 0 ∧ (s.remaining c).toNat + h.total c = (h.limit c).toNat

section Step

variable {s s' : Lru ι} {L : ℕ → List (LruNode ι)} {h : History ι} {it : ι} {c : ℕ}
  {l m : List (LruNode ι)}

omit [DecidableEq ι] in
lemma inv_init (clsid : ι → ℕ) (next prev : LruNode ι → Option (LruNode ι)) :
    Inv (init clsid next prev) (fun _ => []) .start where
  holds := Queues.holds_nil next prev
  items _ := rfl
  crawler c c' := by simp [init]
  cls c it hit := by cases hit
  sizes _ := rfl
  ahead c l m hl := by simp at hl
  once c it hit := by cases hit
  whole c hc := by cases hc
  part c hc := by cases hc

omit [DecidableEq ι] in
/-- Being in a queue. -/
lemma Inv.inQueue (hi : Inv s L h) : s.InQueue c it ↔ .item it ∈ L c :=
  (chain_mem (hi.holds.linked c).1).symm

/-- `do_item_link_q` of an item that is in no queue. -/
lemma Inv.link (hi : Inv s L h) (hout : ∀ c, .item it ∉ L c) :
    Inv (doItemLinkQ { s with clsid := Function.update s.clsid it c } it)
      (Function.update L c (.item it :: L c)) (h.after (.linked it c)) := by
  have hcls : Function.update s.clsid it c it = c := Function.update_self ..
  have hother : ∀ c' it', .item it' ∈ L c' → it' ≠ it := fun c' it' hit heq => hout c' (heq ▸ hit)
  have hmem : ∀ c' a, a ∈ Function.update L c (.item it :: L c) c' ↔
      c' = c ∧ a = .item it ∨ a ∈ L c' := by
    intro c' a
    by_cases hc : c' = c
    · subst hc
      simp
    · simp [hc]
  have hlists : ∀ c', Function.update h.lists c (it :: h.lists c) c' =
      itemsOf (Function.update L c (.item it :: L c) c') := by
    intro c'
    by_cases hc : c' = c
    · subst hc
      rw [Function.update_self, Function.update_self, itemsOf_item, hi.items]
    · rw [Function.update_of_ne hc, Function.update_of_ne hc, hi.items]
  refine ⟨?_, fun c' => (hlists c').symm, ?_, ?_, ?_, ?_, ?_, hi.whole, hi.part⟩
  · simp only [doItemLinkQ, hcls]
    exact hi.holds.pushFront hout
  · intro c' c''
    rw [hmem]
    simp only [reduceCtorEq, and_false, false_or]
    exact hi.crawler c' c''
  · intro c' it' hit
    simp only [doItemLinkQ]
    rcases (hmem c' _).1 hit with ⟨rfl, heq⟩ | hit
    · cases heq
      exact hcls
    · rw [Function.update_of_ne (hother c' it' hit)]
      exact hi.cls c' it' hit
  · intro c'
    simp only [doItemLinkQ, hcls, History.after]
    by_cases hc : c' = c
    · subst hc
      rw [Function.update_self, Function.update_self, List.length_cons, hi.sizes, UInt32.ofNat_add]
      rfl
    · rw [Function.update_of_ne hc, Function.update_of_ne hc]
      exact hi.sizes c'
  · intro c' l m hl
    simp only [History.after]
    have hkeep : ∀ it', .item it' ∈ L c' →
        Function.update (h.crawls c') it 0 it' = h.crawls c' it' := fun it' hit =>
      Function.update_of_ne (hother c' it' hit) ..
    by_cases hc : c' = c
    · subst hc
      rw [Function.update_self] at hl
      cases l with
      | nil => simp at hl
      | cons a l =>
        rw [List.cons_append, List.cons.injEq] at hl
        obtain ⟨rfl, hrest⟩ := hl
        obtain ⟨hahead, hbehind⟩ := hi.ahead c' l m hrest
        refine ⟨fun it' hit => ?_, fun it' hit => ?_⟩
        · rcases List.mem_cons.1 hit with heq | hit
          · cases heq
            exact Function.update_self ..
          · rw [hkeep it' (by simp [hrest, hit]), hahead it' hit]
        · rw [hkeep it' (by simp [hrest, hit]), hbehind it' hit]
    · rw [Function.update_of_ne hc] at hl
      obtain ⟨hahead, hbehind⟩ := hi.ahead c' l m hl
      refine ⟨fun it' hit => ?_, fun it' hit => ?_⟩
      · rw [hkeep it' (by simp [hl, hit]), hahead it' hit]
      · rw [hkeep it' (by simp [hl, hit]), hbehind it' hit]
  · intro c' it' hit
    simp only [History.after]
    by_cases heq : it' = it
    · subst heq
      rw [Function.update_self]
      exact Nat.zero_le _
    · rw [Function.update_of_ne heq]
      refine hi.once c' it' ?_
      simp only [History.after] at hit
      rw [hlists, mem_itemsOf, hmem] at hit
      rcases hit with ⟨_, hit⟩ | hit
      · cases hit
        exact absurd rfl heq
      · rw [← hi.items, mem_itemsOf]
        exact hit

/-- `do_item_unlink_q` of an item of the class. -/
lemma Inv.unlink (hi : Inv s L h) (hit : .item it ∈ L (s.clsid it)) :
    ∃ L', Inv (s.doItemUnlinkQ it) L' (h.after (.unlinked it)) ∧ ∀ c, .item it ∉ L' c := by
  generalize hc : s.clsid it = c at hit
  obtain ⟨l, m, hL⟩ := List.append_of_mem hit
  have hnodup := (hi.holds.linked c).nodup
  rw [hL] at hnodup
  have hnot : .item it ∉ l ++ m := (List.nodup_cons.1 (List.nodup_middle.1 hnodup)).1
  have hmem : ∀ c' a, a ∈ Function.update L c (l ++ m) c' ↔ a ∈ L c' ∧ a ≠ .item it := by
    intro c' a
    by_cases hcc : c' = c
    · subst hcc
      rw [Function.update_self, hL]
      constructor
      · intro ha
        refine ⟨?_, fun heq => hnot (heq ▸ ha)⟩
        simp only [List.mem_append, List.mem_cons] at ha ⊢
        tauto
      · rintro ⟨ha, hne⟩
        simp only [List.mem_append, List.mem_cons] at ha ⊢
        tauto
    · rw [Function.update_of_ne hcc]
      refine ⟨fun ha => ⟨ha, ?_⟩, fun ha => ha.1⟩
      rintro rfl
      exact hcc (hi.holds.apart c' c _ ha hit)
  have hlists : ∀ c', (h.lists c').erase it = itemsOf (Function.update L c (l ++ m) c') := by
    intro c'
    by_cases hcc : c' = c
    · subst hcc
      have hl : it ∉ itemsOf l := fun hin => hnot (by simp [mem_itemsOf.1 hin])
      rw [Function.update_self, ← hi.items, hL, itemsOf_append, itemsOf_item, itemsOf_append,
        List.erase_append_right _ hl, List.erase_cons_head]
    · rw [Function.update_of_ne hcc, List.erase_of_not_mem, hi.items]
      rw [← hi.items, mem_itemsOf]
      intro ha
      exact hcc (hi.holds.apart c' c _ ha hit)
  refine ⟨Function.update L c (l ++ m), ⟨?_, fun c' => (hlists c').symm, ?_, ?_, ?_, ?_, ?_, hi.whole,
    hi.part⟩, fun c' ha => ((hmem c' _).1 ha).2 rfl⟩
  · simp only [doItemUnlinkQ, hc]
    exact hi.holds.unlink hL
  · intro c' c''
    rw [hmem, hi.crawler]
    simp [doItemUnlinkQ]
  · intro c' it' ha
    exact hi.cls c' it' ((hmem c' _).1 ha).1
  · intro c'
    simp only [doItemUnlinkQ, hc, History.after]
    by_cases hcc : c' = c
    · subst hcc
      have hin : it ∈ h.lists c' := by
        rw [← hi.items, mem_itemsOf]
        exact hit
      have hpos : 1 ≤ (h.lists c').length := List.length_pos_of_mem hin
      rw [Function.update_self, List.length_erase_of_mem hin, hi.sizes, UInt32.ofNat_sub hpos]
      rfl
    · rw [Function.update_of_ne hcc, List.erase_of_not_mem]
      · exact hi.sizes c'
      · rw [← hi.items, mem_itemsOf]
        intro ha
        exact hcc (hi.holds.apart c' c _ ha hit)
  · intro c' l' m' hl'
    by_cases hcc : c' = c
    · subst hcc
      rw [Function.update_self] at hl'
      -- the crawler is on one side of the item or on the other
      rcases List.append_eq_append_iff.1 hl' with ⟨k, rfl, hk⟩ | ⟨k, rfl, hk⟩
      · obtain ⟨hahead, hbehind⟩ := hi.ahead c' (l ++ .item it :: k) m' (by rw [hL, hk]; simp)
        exact ⟨fun it' ha => hahead it' (by
          simp only [List.mem_append, List.mem_cons] at ha ⊢
          tauto), hbehind⟩
      · cases k with
        | nil =>
          obtain ⟨hahead, hbehind⟩ := hi.ahead c' (l' ++ [.item it]) m' (by
            rw [List.append_nil, List.nil_append] at *
            rw [hL, ← hk]
            simp)
          exact ⟨fun it' ha => hahead it' (by simp [ha]), hbehind⟩
        | cons a k =>
          rw [List.cons_append, List.cons.injEq] at hk
          obtain ⟨rfl, rfl⟩ := hk
          obtain ⟨hahead, hbehind⟩ := hi.ahead c' l' (k ++ .item it :: m) (by rw [hL]; simp)
          exact ⟨hahead, fun it' ha => hbehind it' (by
            simp only [List.mem_append, List.mem_cons] at ha ⊢
            tauto)⟩
    · rw [Function.update_of_ne hcc] at hl'
      exact hi.ahead c' l' m' hl'
  · intro c' it' ha
    exact hi.once c' it' (List.mem_of_mem_erase ha)

/-- `do_lru_crawler_start`: all items are ahead of the crawler. -/
lemma Inv.start (hi : Inv s L h) (hoff : s.enabled c = false) (n : UInt32) :
    Inv (doItemLinktailQ { s with
        enabled := Function.update s.enabled c true
        remaining := Function.update s.remaining c n } c)
      (Function.update L c (L c ++ [.crawler c])) (h.after (.started c n)) := by
  have hout : ∀ c', .crawler c ∉ L c' := by
    intro c' hc
    obtain ⟨rfl, hon⟩ := (hi.crawler c' c).1 hc
    rw [hoff] at hon
    cases hon
  have hitem : ∀ c' it, .item it ∈ Function.update L c (L c ++ [.crawler c]) c' ↔
      .item it ∈ L c' := by
    intro c' it
    by_cases hc : c' = c
    · subst hc
      simp
    · rw [Function.update_of_ne hc]
  refine ⟨hi.holds.pushBack hout, ?_, ?_, ?_, hi.sizes, ?_, ?_, ?_, ?_⟩
  · intro c'
    by_cases hc : c' = c
    · subst hc
      rw [Function.update_self, itemsOf_append, itemsOf_crawler, itemsOf_nil, List.append_nil]
      exact hi.items c'
    · rw [Function.update_of_ne hc]
      exact hi.items c'
  · intro c' c''
    simp only [doItemLinktailQ]
    by_cases hc : c' = c
    · subst hc
      have hno : ∀ d, .crawler d ∉ L c' := by
        intro d hd
        obtain ⟨rfl, _⟩ := (hi.crawler c' d).1 hd
        exact hout d hd
      simp [hno]
    · rw [Function.update_of_ne hc, Function.update_of_ne hc]
      exact hi.crawler c' c''
  · exact fun c' it hit => hi.cls c' it ((hitem c' it).1 hit)
  · intro c' l m hl
    simp only [History.after]
    by_cases hc : c' = c
    · subst hc
      rw [Function.update_self] at hl
      obtain ⟨rfl, _, rfl⟩ := (List.append_cons_inj_of_notMem (hout c') (by simp)).1 hl
      rw [Function.update_self]
      exact ⟨fun _ _ => rfl, fun _ hit => nomatch hit⟩
    · rw [Function.update_of_ne hc] at hl ⊢
      exact hi.ahead c' l m hl
  · intro c' it hit
    simp only [History.after]
    by_cases hc : c' = c
    · subst hc
      rw [Function.update_self]
      exact Nat.zero_le _
    · rw [Function.update_of_ne hc]
      exact hi.once c' it hit
  · intro c' hon hlimit
    simp only [doItemLinktailQ, History.after] at hon hlimit ⊢
    by_cases hc : c' = c
    · subst hc
      rw [Function.update_self] at hlimit ⊢
      exact hlimit
    · rw [Function.update_of_ne hc] at hon hlimit ⊢
      exact hi.whole c' hon hlimit
  · intro c' hon hlimit
    simp only [doItemLinktailQ, History.after] at hon hlimit ⊢
    by_cases hc : c' = c
    · subst hc
      rw [Function.update_self] at hlimit
      simp only [Function.update_self]
      exact ⟨hlimit, rfl⟩
    · rw [Function.update_of_ne hc] at hon hlimit
      simp only [Function.update_of_ne hc]
      exact hi.part c' hon hlimit

omit [DecidableEq ι] in
/-- A crawler leaves its queue. -/
lemma Inv.done {queues : Queues ℕ (LruNode ι)} (hi : Inv s L h) (hL : L c = l ++ .crawler c :: m)
    (hq : queues.Holds (Function.update L c (l ++ m))) (r : UInt32) :
    Inv { s with
      queues := queues
      enabled := Function.update s.enabled c false
      remaining := Function.update s.remaining c r } (Function.update L c (l ++ m)) h := by
  have hnodup := (hi.holds.linked c).nodup
  rw [hL] at hnodup
  have hnot : .crawler c ∉ l ++ m := (List.nodup_cons.1 (List.nodup_middle.1 hnodup)).1
  have hsub : ∀ c' a, a ∈ Function.update L c (l ++ m) c' → a ∈ L c' := by
    intro c' a ha
    by_cases hc : c' = c
    · subst hc
      rw [Function.update_self] at ha
      rw [hL]
      simp only [List.mem_append, List.mem_cons] at ha ⊢
      tauto
    · rwa [Function.update_of_ne hc] at ha
  have hno : ∀ d, .crawler d ∉ l ++ m := by
    intro d hd
    obtain ⟨rfl, _⟩ := (hi.crawler c d).1 (hsub c _ (by rwa [Function.update_self]))
    exact hnot hd
  refine ⟨hq, ?_, ?_, fun c' it hit => hi.cls c' it (hsub c' _ hit), hi.sizes, ?_, hi.once, ?_, ?_⟩
  · intro c'
    by_cases hc : c' = c
    · subst hc
      rw [Function.update_self, itemsOf_append, ← hi.items, hL, itemsOf_append, itemsOf_crawler]
    · rw [Function.update_of_ne hc]
      exact hi.items c'
  · intro c' c''
    by_cases hc : c' = c
    · subst hc
      rw [Function.update_self]
      simp [hno]
    · rw [Function.update_of_ne hc]
      simp only [Function.update_of_ne hc]
      exact hi.crawler c' c''
  · intro c' l' m' hl
    by_cases hc : c' = c
    · subst hc
      rw [Function.update_self] at hl
      exact absurd (by simp [hl]) (hno c')
    · rw [Function.update_of_ne hc] at hl
      exact hi.ahead c' l' m' hl
  · intro c' hon hlimit
    by_cases hc : c' = c
    · subst hc
      simp at hon
    · simp only [Function.update_of_ne hc] at hon ⊢
      exact hi.whole c' hon hlimit
  · intro c' hon hlimit
    by_cases hc : c' = c
    · subst hc
      simp at hon
    · simp only [Function.update_of_ne hc] at hon ⊢
      exact hi.part c' hon hlimit

/-- A crawler passes an item. -/
lemma Inv.pass {queues : Queues ℕ (LruNode ι)} (hi : Inv s L h)
    (hL : L c = l ++ .item it :: .crawler c :: m)
    (hq : queues.Holds (Function.update L c (l ++ .crawler c :: .item it :: m))) {r : UInt32}
    (hwhole : h.limit c = 0 → r = 0)
    (hpart : h.limit c ≠ 0 → r ≠ 0 ∧ r.toNat + (h.total c + 1) = (h.limit c).toNat) :
    Inv { s with queues := queues, remaining := Function.update s.remaining c r }
      (Function.update L c (l ++ .crawler c :: .item it :: m)) (h.after (.crawled c it)) := by
  have hnodup := (hi.holds.linked c).nodup
  rw [hL] at hnodup
  have hmem : ∀ c' a, a ∈ Function.update L c (l ++ .crawler c :: .item it :: m) c' ↔ a ∈ L c' := by
    intro c' a
    by_cases hc : c' = c
    · subst hc
      rw [Function.update_self, hL]
      simp only [List.mem_append, List.mem_cons]
      tauto
    · rw [Function.update_of_ne hc]
  obtain ⟨hahead, hbehind⟩ := hi.ahead c (l ++ [.item it]) m (by rw [hL]; simp)
  have hnot : .item it ∉ l ++ .crawler c :: m := (List.nodup_cons.1 (List.nodup_middle.1 hnodup)).1
  have hkeep : ∀ it', it' ≠ it → Function.update (h.crawls c) it (h.crawls c it + 1) it' =
      h.crawls c it' := fun it' hne => Function.update_of_ne hne ..
  have hzero : h.crawls c it = 0 := hahead it (by simp)
  refine ⟨hq, ?_, ?_, fun c' it' hit => hi.cls c' it' ((hmem c' _).1 hit), hi.sizes, ?_, ?_, ?_, ?_⟩
  · intro c'
    by_cases hc : c' = c
    · subst hc
      rw [Function.update_self]
      simp only [History.after, ← hi.items, hL, itemsOf_append, itemsOf_crawler, itemsOf_item]
    · rw [Function.update_of_ne hc]
      exact hi.items c'
  · intro c' c''
    rw [hmem]
    exact hi.crawler c' c''
  · intro c' l' m' hl
    simp only [History.after]
    by_cases hc : c' = c
    · subst hc
      rw [Function.update_self] at hl
      have hcl : .crawler c' ∉ l ∧ .crawler c' ∉ .item it :: m := by
        have hn := hnodup
        rw [List.append_cons, List.nodup_middle, List.nodup_cons] at hn
        have hn := hn.1
        simp only [List.mem_append, List.mem_cons, not_or] at hn ⊢
        exact ⟨hn.1.1, by simp, hn.2⟩
      obtain ⟨rfl, _, rfl⟩ := (List.append_cons_inj_of_notMem hcl.1 hcl.2).1 hl
      rw [Function.update_self]
      refine ⟨fun it' hit => ?_, fun it' hit => ?_⟩
      · rw [hkeep it' (by
          rintro rfl
          exact hnot (by simp [hit]))]
        exact hahead it' (by simp [hit])
      · rcases List.mem_cons.1 hit with heq | hitm
        · cases heq
          rw [Function.update_self, hzero]
        · have hne : it' ≠ it := by
            rintro rfl
            exact hnot (by simp [hitm])
          rw [hkeep it' hne]
          exact hbehind it' hitm
    · rw [Function.update_of_ne hc] at hl ⊢
      exact hi.ahead c' l' m' hl
  · intro c' it' hit
    simp only [History.after]
    by_cases hc : c' = c
    · subst hc
      rw [Function.update_self]
      by_cases heq : it' = it
      · have hone : Function.update (h.crawls c') it (h.crawls c' it + 1) it' = 1 := by
          rw [heq, Function.update_self, hzero]
        exact Nat.le_of_eq hone
      · rw [hkeep it' heq]
        exact hi.once c' it' hit
    · rw [Function.update_of_ne hc]
      exact hi.once c' it' hit
  · intro c' hon hlimit
    simp only [History.after] at hlimit ⊢
    by_cases hc : c' = c
    · subst hc
      rw [Function.update_self]
      exact hwhole hlimit
    · rw [Function.update_of_ne hc]
      exact hi.whole c' hon hlimit
  · intro c' hon hlimit
    simp only [History.after] at hlimit ⊢
    by_cases hc : c' = c
    · subst hc
      simp only [Function.update_self]
      exact hpart hlimit
    · simp only [Function.update_of_ne hc]
      exact hi.part c' hon hlimit

/-! ## Runs -/

/-- What an observation says, after what has been observed before: an item is in one queue at most; a
crawl looks at items of its queue that it has not looked at, and not at more than it was started for;
and when it ends, it has looked at all of them or at as many as it was started for. -/
def Right (h : History ι) : LruObs ι → Prop
  | .linked it _ => ∀ c, it ∉ h.lists c
  | .unlinked it => ∃ c, it ∈ h.lists c
  | .started _ _ => True
  | .crawled c it => it ∈ h.lists c ∧ h.crawls c it = 0 ∧
      (h.limit c = 0 ∨ h.total c + 1 < (h.limit c).toNat)
  | .finished c => (∀ it ∈ h.lists c, h.crawls c it = 1) ∨
      h.limit c ≠ 0 ∧ h.total c + 1 = (h.limit c).toNat
  | .abandoned _ => True
  | .stray _ => False

/-- A round of the crawler. -/
lemma Inv.round (hi : Inv s L h) (hon : s.enabled c = true) :
    AllRight History.after Right h (s.itemCrawlerRound c).2 ∧
      ∃ L', Inv (s.itemCrawlerRound c).1 L' ((s.itemCrawlerRound c).2.foldl History.after h) := by
  obtain ⟨l, m, hL⟩ := List.append_of_mem ((hi.crawler c c).2 ⟨rfl, hon⟩)
  obtain ⟨hahead, hbehind⟩ := hi.ahead c l m hL
  have hprev := hi.holds.prev_eq hL
  have hsame : Function.update s.remaining c (s.remaining c) = s.remaining :=
    Function.update_eq_self ..
  rcases List.eq_nil_or_concat' l with rfl | ⟨l, a, rfl⟩
  · -- the crawler has come to the head
    have hdone := hi.done hL (hi.holds.popFront hL) (s.remaining c)
    simp only [itemCrawlerRound, doItemCrawlQ, hprev, List.getLast?_nil]
    rw [hsame] at hdone
    refine ⟨⟨.inl fun it hit => hbehind it ?_, trivial⟩, _, hdone⟩
    rw [← hi.items, hL, mem_itemsOf] at hit
    simpa using hit
  · rw [List.append_assoc, List.singleton_append] at hL
    have hadv := hi.holds.advance hL
    obtain ⟨it, rfl⟩ : ∃ it, a = .item it := by
      cases a with
      | item it => exact ⟨it, rfl⟩
      | crawler d =>
        obtain ⟨rfl, _⟩ := (hi.crawler c d).1 (by simp [hL])
        have hnodup := (hi.holds.linked d).nodup
        rw [hL, List.nodup_middle, List.nodup_cons] at hnodup
        exact absurd (by simp) hnodup.1
    have hnext : (s.queues.advance c (.crawler c) (.item it)).next (.crawler c) = some (.item it) :=
      hadv.next_eq (Function.update_self ..)
    have hin : it ∈ h.lists c := by
      rw [← hi.items, hL]
      simp
    have hzero : h.crawls c it = 0 := hahead it (by simp)
    simp only [itemCrawlerRound, doItemCrawlQ, hprev, List.getLast?_concat, hnext]
    by_cases hrem : s.remaining c = 0
    · have hlimit : h.limit c = 0 := by
        by_contra hlimit
        exact (hi.part c hon hlimit).1 hrem
      simp only [hrem, if_true]
      have hpass := hi.pass hL hadv (r := 0) (fun _ => rfl) (fun hne => absurd hlimit hne)
      rw [← hrem, hsame] at hpass
      exact ⟨⟨⟨hin, hzero, .inl hlimit⟩, trivial⟩, _, hpass⟩
    · have hlimit : h.limit c ≠ 0 := fun hlimit => hrem (hi.whole c hon hlimit)
      obtain ⟨_, htotal⟩ := hi.part c hon hlimit
      have hpos : 1 ≤ (s.remaining c).toNat := by
        rw [Nat.one_le_iff_ne_zero]
        exact fun heq => hrem (UInt32.toNat_inj.1 heq)
      have hsub : (s.remaining c - 1).toNat = (s.remaining c).toNat - 1 :=
        UInt32.toNat_sub_of_le _ _ (by rw [UInt32.le_iff_toNat_le]; exact hpos)
      rw [if_neg hrem]
      by_cases hlast : s.remaining c - 1 < 1
      · -- the last one is passed, and not looked at
        rw [if_pos hlast]
        have hone : (s.remaining c).toNat = 1 := by
          rw [UInt32.lt_iff_toNat_lt, hsub, UInt32.toNat_one] at hlast
          omega
        have hout := hadv.unlink (k := c) (Function.update_self ..)
        rw [Function.update_idem] at hout
        have hL' : L c = (l ++ [.item it]) ++ .crawler c :: m := by
          rw [hL, List.append_assoc, List.singleton_append]
        have hlist : l ++ .item it :: m = (l ++ [.item it]) ++ m := by simp
        rw [hlist] at hout
        exact ⟨⟨.inr ⟨hlimit, by omega⟩, trivial⟩, _, hi.done hL' hout (s.remaining c - 1)⟩
      · rw [if_neg hlast]
        rw [UInt32.lt_iff_toNat_lt, hsub, UInt32.toNat_one] at hlast
        have hleft : s.remaining c - 1 ≠ 0 := fun heq => by
          rw [← UInt32.toNat_inj, hsub, UInt32.toNat_zero] at heq
          omega
        exact ⟨⟨⟨hin, hzero, .inr (by omega)⟩, trivial⟩, _,
          hi.pass hL hadv (fun hne => absurd hne hlimit) fun _ => ⟨hleft, by omega⟩⟩

/-- **One step of the queues.** -/
theorem Inv.step {lab : LruLabel ι} {o : List (LruObs ι)} (hi : Inv s L h) (hok : Disciplined s lab)
    (hs : Lru.step s lab = some (s', o)) :
    AllRight History.after Right h o ∧ ∃ L', Inv s' L' (o.foldl History.after h) := by
  have hout : ∀ {h : History ι} {L : ℕ → List (LruNode ι)} {it : ι},
      (∀ c, itemsOf (L c) = h.lists c) → (∀ c, .item it ∉ L c) → ∀ c, it ∉ h.lists c := by
    intro h L it hitems hnot c hin
    rw [← hitems, mem_itemsOf] at hin
    exact hnot c hin
  cases lab with
  | link it c =>
    cases hs
    have hnot : ∀ c, .item it ∉ L c := fun c hit => hok c (hi.inQueue.2 hit)
    exact ⟨⟨hout hi.items hnot, trivial⟩, _, hi.link hnot⟩
  | unlink it =>
    cases hs
    have hit := hi.inQueue.1 hok
    obtain ⟨L', hi', _⟩ := hi.unlink hit
    exact ⟨⟨⟨s.clsid it, by rw [← hi.items]; simpa using hit⟩, trivial⟩, L', hi'⟩
  | bump it =>
    cases hs
    have hit := hi.inQueue.1 hok
    obtain ⟨L', hi', hnot⟩ := hi.unlink hit
    have hlink := hi'.link (c := s.clsid it) hnot
    have hsame : Function.update (s.doItemUnlinkQ it).clsid it (s.clsid it) =
        (s.doItemUnlinkQ it).clsid := Function.update_eq_self ..
    rw [hsame] at hlink
    exact ⟨⟨⟨s.clsid it, by rw [← hi.items]; simpa using hit⟩, hout hi'.items hnot, trivial⟩, _, hlink⟩
  | start c n =>
    simp only [Lru.step, doLruCrawlerStart, Option.some.injEq] at hs
    split at hs <;> cases hs
    · exact ⟨trivial, L, hi⟩
    · next hoff => exact ⟨⟨trivial, trivial⟩, _, hi.start (by simpa using hoff) _⟩
  | crawl c =>
    simp only [Lru.step] at hs
    split at hs
    · next hon =>
      have hround := hi.round hon
      rw [Option.some.inj hs] at hround
      exact hround
    · cases hs
  | abandon c =>
    simp only [Lru.step] at hs
    split at hs <;> cases hs
    next hon =>
      obtain ⟨l, m, hL⟩ := List.append_of_mem ((hi.crawler c c).2 ⟨rfl, hon⟩)
      have hdone := hi.done hL (hi.holds.unlink hL) (s.remaining c)
      rw [Function.update_eq_self] at hdone
      exact ⟨⟨trivial, trivial⟩, _, hdone⟩

variable {tr : List (LruObs ι)} {clsid : ι → ℕ} {next prev : LruNode ι → Option (LruNode ι)}

/-- What a whole run keeps. -/
lemma Inv.run (hr : Run Lru.step Disciplined (init clsid next prev) tr s) :
    AllRight History.after Right .start tr ∧ ∃ L, Inv s L (historyOf tr) := by
  refine hr.history (fun h s => ∃ L, Inv s L h) ⟨_, inv_init clsid next prev⟩ ?_
  rintro h s lab s' o ⟨L, hi⟩ hok hs
  exact hi.step hok hs

end Step

end Lru

end Skq.Mem
