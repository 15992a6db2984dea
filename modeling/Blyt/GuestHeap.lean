import Blyt.Lib.ByteMemory
import Blyt.Lib.Exec
import Mathlib.Data.Finset.Card
import Mathlib.Order.Interval.Finset.Nat

namespace Blyt
open ByteMemory

/-- `HEAP_SIZE`. -/
def heapSize : Nat := 8 * 1024 * 1024

/-- Where the linker has put `heap`. -/
structure HeapPlace where
  base : Nat
  nonNull : 0 < base
  fits : base + heapSize ≤ 2 ^ 32

/-- The guest's memory, `brk` and `freelist`, which is 0 for NULL. A `size_t` and a pointer have
32 bits. -/
structure GuestHeap where
  mem : Nat → UInt8
  brk : Nat
  freelist : Nat

/-- `align_up`. -/
def alignUp (n : Nat) : Nat := (n + 7) % 2 ^ 32 / 8 * 8

/-- The size of the block that `malloc` looks for. -/
def need (n : Nat) : Nat := alignUp (((if n = 0 then 1 else n) + 4) % 2 ^ 32)

namespace GuestHeap
variable (place : HeapPlace)

/-- `*(size_t *)p`. What is outside the heap is not the allocator's. -/
def load (h : GuestHeap) (p : Nat) : Exec Nat :=
  if place.base ≤ p ∧ p + 4 ≤ place.base + heapSize then .returns (word h.mem p) else .outOfBounds

def store (h : GuestHeap) (p v : Nat) : Exec GuestHeap :=
  if place.base ≤ p ∧ p + 4 ≤ place.base + heapSize then .returns { h with mem := setWord h.mem p v } else .outOfBounds

/-- `*pp`, where `pp` is the address of `freelist` or of a block's `next`. -/
def link (h : GuestHeap) : Option Nat → Exec Nat
  | none => .returns h.freelist
  | some b => h.load place (b + 4)

def setLink (h : GuestHeap) : Option Nat → Nat → Exec GuestHeap
  | none, v => .returns { h with freelist := v }
  | some b, v => h.store place (b + 4) v

/-- The loop of `malloc`: the link to the first block that is large enough. -/
def findFit (h : GuestHeap) (need : Nat) : Nat → Option Nat → Exec (Option (Option Nat))
  | 0, _ => .spins
  | fuel + 1, pp => do
    let b ← h.link place pp
    if b = 0 then return none
    let size ← h.load place b
    if need ≤ size then return some pp
    findFit h need fuel (some b)

/-- A loop that follows more links than there are addresses has come back to one of them. -/
def malloc (h : GuestHeap) (n : Nat) : Exec (GuestHeap × Nat) := do
  match ← h.findFit place (need n) (2 ^ 32) none with
  | some pp =>
    let b ← h.link place pp
    let next ← h.load place (b + 4)
    let h ← h.setLink place pp next
    return (h, b + 4)
  | none =>
    if heapSize < (h.brk + need n) % 2 ^ 32 then return (h, 0)
    let p := place.base + h.brk
    let stored ← h.store place p (need n)
    return ({ stored with brk := (h.brk + need n) % 2 ^ 32 }, p + 4)

/-- `memset(p, 0, total)`. -/
def zero (h : GuestHeap) (p total : Nat) : Exec GuestHeap :=
  if total = 0 ∨ place.base ≤ p ∧ p + total ≤ place.base + heapSize then .returns { h with mem := fill h.mem p total 0 }
  else .outOfBounds

/-- `memcpy(q, p, n)`. -/
def move (h : GuestHeap) (q p n : Nat) : Exec GuestHeap :=
  if n = 0 ∨ (place.base ≤ p ∧ p + n ≤ place.base + heapSize) ∧ (place.base ≤ q ∧ q + n ≤ place.base + heapSize) ∧
      (p + n ≤ q ∨ q + n ≤ p) then .returns { h with mem := copy h.mem q p n }
  else .outOfBounds

def calloc (h : GuestHeap) (n sz : Nat) : Exec (GuestHeap × Nat) := do
  let total := n * sz % 2 ^ 32
  let (h, p) ← h.malloc place total
  if p = 0 then return (h, p)
  let h ← h.zero place p total
  return (h, p)

def free (h : GuestHeap) (p : Nat) : Exec GuestHeap := do
  if p = 0 then return h
  let block := (p + 2 ^ 32 - 4) % 2 ^ 32
  let sz ← h.load place block
  let h ← h.store place block sz
  let h ← h.store place (block + 4) h.freelist
  return { h with freelist := block }

def realloc (h : GuestHeap) (p n : Nat) : Exec (GuestHeap × Nat) := do
  if p = 0 then h.malloc place n
  else if n = 0 then
    let h ← h.free place p
    return (h, 0)
  else
    let block := (p + 2 ^ 32 - 4) % 2 ^ 32
    let oldTotal ← h.load place block
    let old := (oldTotal + 2 ^ 32 - 4) % 2 ^ 32
    if n ≤ old then return (h, p)
    let (h, q) ← h.malloc place n
    if q = 0 then return (h, 0)
    let h ← h.move place q p old
    let h ← h.free place p
    return (h, q)

end GuestHeap

/-- A block with its header. -/
structure HeapBlock where
  start : Nat
  size : Nat

namespace HeapBlock

def Apart (b c : HeapBlock) : Prop := b.start + b.size ≤ c.start ∨ c.start + c.size ≤ b.start

/-- The free list from a pointer on. -/
def Chain (m : Nat → UInt8) (p : Nat) : List HeapBlock → Prop
  | [] => p = 0
  | b :: bs => p = b.start ∧ p ≠ 0 ∧ word m p = b.size ∧ Chain m (word m (p + 4)) bs

theorem Apart.symm {b c : HeapBlock} (apart : b.Apart c) : c.Apart b := Or.symm apart

instance : Std.Symm Apart := ⟨fun _ _ => Apart.symm⟩

variable {m m' : Nat → UInt8} {p : Nat} {bs cs : List HeapBlock}

theorem Chain.unique (chain : Chain m p bs) (other : Chain m p cs) : bs = cs := by
  induction bs generalizing p cs with
  | nil =>
    cases cs with
    | nil => rfl
    | cons c cs => exact absurd chain other.2.1
  | cons b bs ih =>
    cases cs with
    | nil => exact absurd other chain.2.1
    | cons c cs =>
      obtain ⟨start, -, size, rest⟩ := chain
      obtain ⟨start', -, size', rest'⟩ := other
      have same : b = c := by
        cases b
        cases c
        simp_all
      rw [same, ih rest rest']

theorem Chain.header {b : HeapBlock} (chain : Chain m p bs) (member : b ∈ bs) : word m b.start = b.size := by
  induction bs generalizing p with
  | nil => cases member
  | cons c bs ih =>
    obtain ⟨rfl, -, size, rest⟩ := chain
    rcases List.mem_cons.mp member with rfl | later
    · exact size
    · exact ih rest later

/-- The list is read from the headers and the links of its blocks. -/
theorem Chain.congr (chain : Chain m p bs)
    (same : ∀ b ∈ bs, ∀ a, b.start ≤ a → a < b.start + 8 → m' a = m a) : Chain m' p bs := by
  induction bs generalizing p with
  | nil => exact chain
  | cons b bs ih =>
    obtain ⟨rfl, nonNull, size, rest⟩ := chain
    have own := same b List.mem_cons_self
    have header : word m' b.start = word m b.start := word_congr fun i small => own _ (by omega) (by omega)
    have next : word m' (b.start + 4) = word m (b.start + 4) := word_congr fun i small => own _ (by omega) (by omega)
    refine ⟨rfl, nonNull, header.trans size, ?_⟩
    rw [next]
    exact ih rest fun c member => same c (List.mem_cons_of_mem _ member)

/-- A link is set to what the next block links to: that block is out of the list. -/
theorem Chain.unlink {before after : List HeapBlock} {c b : HeapBlock}
    (chain : Chain m p (before ++ c :: b :: after)) (apart : (before ++ c :: b :: after).Pairwise Apart)
    (large : ∀ d ∈ before ++ c :: b :: after, 8 ≤ d.size) :
    Chain (setWord m (c.start + 4) (word m (b.start + 4))) p (before ++ c :: after) := by
  have outside {d : HeapBlock} (far : d.Apart c) (big : 8 ≤ d.size) (sizeC : 8 ≤ c.size) (a : Nat) (low : d.start ≤ a)
      (high : a < d.start + 8) : setWord m (c.start + 4) (word m (b.start + 4)) a = m a := by
    refine setWord_outside ?_
    rcases far with below | above <;> omega
  have sizeC := large c (List.mem_append_right _ List.mem_cons_self)
  induction before generalizing p with
  | nil =>
    obtain ⟨rfl, nonNull, size, next, -, -, rest⟩ := chain
    rw [next] at rest
    refine ⟨rfl, nonNull, ?_, ?_⟩
    · rw [← size]
      exact word_congr fun i small => setWord_outside (.inl (by omega))
    · rw [word_setWord (word_lt _ _)]
      refine rest.congr fun d member => ?_
      have later : d ∈ b :: after := List.mem_cons_of_mem _ member
      exact outside (List.rel_of_pairwise_cons apart later).symm (large d (List.mem_cons_of_mem _ later)) sizeC
  | cons d before ih =>
    obtain ⟨rfl, nonNull, size, rest⟩ := chain
    have far : d.Apart c := List.rel_of_pairwise_cons apart (List.mem_append_right _ List.mem_cons_self)
    have own := outside far (large d List.mem_cons_self) sizeC
    refine ⟨rfl, nonNull, ?_, ?_⟩
    · rw [← size]
      exact word_congr fun i small => own _ (by omega) (by omega)
    · have next : word (setWord m (c.start + 4) (word m (b.start + 4))) (d.start + 4) = word m (d.start + 4) :=
        word_congr fun i small => own _ (by omega) (by omega)
      rw [next]
      exact ih rest apart.of_cons fun e member => large e (List.mem_cons_of_mem _ member)

end HeapBlock

namespace GuestHeap
open HeapBlock
variable {place : HeapPlace} {h h' : GuestHeap} {free used : List HeapBlock} {n : Nat}

/-- The heap below `brk` holds the blocks of the free list and those in use, none within another. -/
structure Layout (place : HeapPlace) (h : GuestHeap) (free used : List HeapBlock) : Prop where
  brk : h.brk ≤ heapSize
  inside : ∀ b ∈ free ++ used, place.base ≤ b.start ∧ 8 ≤ b.size ∧ b.start + b.size ≤ place.base + h.brk
  apart : (free ++ used).Pairwise Apart
  chain : Chain h.mem h.freelist free
  header : ∀ b ∈ used, word h.mem b.start = b.size

/-- The blocks in use are as they were, with their headers. -/
def Keeps (h h' : GuestHeap) (used : List HeapBlock) : Prop :=
  ∀ b ∈ used, ∀ a, b.start ≤ a → a < b.start + b.size → h'.mem a = h.mem a

theorem load_inside {p : Nat} (low : place.base ≤ p) (high : p + 4 ≤ place.base + heapSize) :
    h.load place p = .returns (word h.mem p) := if_pos ⟨low, high⟩

theorem store_inside {p v : Nat} (low : place.base ≤ p) (high : p + 4 ≤ place.base + heapSize) :
    h.store place p v = .returns { h with mem := setWord h.mem p v } := if_pos ⟨low, high⟩

/-- The link behind a part of the free list. -/
def endLink (pp : Option Nat) : List HeapBlock → Option Nat
  | [] => pp
  | b :: bs => endLink (some b.start) bs

theorem endLink_append (pp : Option Nat) (bs : List HeapBlock) (c : HeapBlock) :
    endLink pp (bs ++ [c]) = some c.start := by
  induction bs generalizing pp with
  | nil => rfl
  | cons b bs ih => exact ih (some b.start)

/-- The loop finds the first block that is large enough, at the end of those that are not. -/
theorem findFit_spec {k fuel p : Nat} {pp : Option Nat} {bs : List HeapBlock}
    (inside : ∀ b ∈ bs, place.base ≤ b.start ∧ b.start + 8 ≤ place.base + heapSize) (chain : Chain h.mem p bs)
    (at_ : h.link place pp = .returns p) (enough : bs.length < fuel) :
    ((∀ b ∈ bs, b.size < k) ∧ h.findFit place k fuel pp = .returns none) ∨
      ∃ before b after, bs = before ++ b :: after ∧ k ≤ b.size ∧
        h.findFit place k fuel pp = .returns (some (endLink pp before)) ∧
        h.link place (endLink pp before) = .returns b.start := by
  induction bs generalizing fuel p pp with
  | nil =>
    obtain ⟨fuel, rfl⟩ := Nat.exists_eq_add_of_lt enough
    refine .inl ⟨nofun, ?_⟩
    rw [findFit, at_, Exec.returns_bind, if_pos (show p = 0 from chain), Exec.pure_eq]
  | cons b bs ih =>
    obtain ⟨fuel, rfl⟩ := Nat.exists_eq_add_of_lt enough
    obtain ⟨rfl, nonNull, size, rest⟩ := chain
    obtain ⟨low, high⟩ := inside b List.mem_cons_self
    have step : h.findFit place k ((b :: bs).length + fuel + 1) pp =
        if k ≤ b.size then .returns (some pp) else h.findFit place k ((b :: bs).length + fuel) (some b.start) := by
      rw [findFit, at_, Exec.returns_bind, if_neg nonNull, load_inside low (by omega), Exec.returns_bind, size]
      rfl
    rw [step]
    by_cases fits : k ≤ b.size
    · rw [if_pos fits]
      exact .inr ⟨[], b, bs, rfl, fits, rfl, at_⟩
    · rw [if_neg fits]
      have more : bs.length < (b :: bs).length + fuel := by
        rw [List.length_cons]
        omega
      have next : h.link place (some b.start) = .returns (word h.mem (b.start + 4)) := load_inside (by omega) (by omega)
      rcases ih (fun c member => inside c (List.mem_cons_of_mem _ member)) rest next more with
        ⟨none, ended⟩ | ⟨before, c, after, rfl, large, found, link⟩
      · refine .inl ⟨fun c member => ?_, ended⟩
        rcases List.mem_cons.mp member with rfl | later
        · omega
        · exact none c later
      · exact .inr ⟨b :: before, c, after, rfl, large, found, link⟩

theorem Layout.bounds (lay : h.Layout place free used) {b : HeapBlock} (member : b ∈ free ++ used) :
    place.base ≤ b.start ∧ b.start + 8 ≤ place.base + heapSize := by
  obtain ⟨low, large, high⟩ := lay.inside b member
  have brk := lay.brk
  omega

theorem Layout.few (lay : h.Layout place free used) : free.length < 2 ^ 32 := by
  have apart := (List.pairwise_append.mp lay.apart).1
  have distinct : (free.map HeapBlock.start).Nodup := by
    refine List.pairwise_map.mpr (apart.imp_of_mem fun {b c} inB inC far same => ?_)
    have largeB := (lay.inside b (List.mem_append_left _ inB)).2.1
    have largeC := (lay.inside c (List.mem_append_left _ inC)).2.1
    rcases far with below | above <;> omega
  have within : (free.map HeapBlock.start).toFinset ⊆ Finset.Ico place.base (place.base + heapSize) := by
    intro a member
    obtain ⟨b, inFree, rfl⟩ := List.mem_map.mp (List.mem_toFinset.mp member)
    have bounds := lay.bounds (List.mem_append_left _ inFree)
    exact Finset.mem_Ico.mpr ⟨bounds.1, by omega⟩
  have count := Finset.card_le_card within
  rw [List.toFinset_card_of_nodup distinct, List.length_map, Nat.card_Ico, Nat.add_sub_cancel_left] at count
  exact Nat.lt_of_le_of_lt count (by decide)

theorem pairwise_move {before after : List HeapBlock} {b : HeapBlock}
    (apart : ((before ++ b :: after) ++ used).Pairwise Apart) : ((before ++ after) ++ b :: used).Pairwise Apart := by
  refine (List.Perm.pairwise_iff (fun far => far.symm) ?_).mp apart
  exact (List.perm_middle.append_right used).trans List.perm_middle.symm

/-- A block leaves the free list. -/
theorem Layout.unlink {before after : List HeapBlock} {b : HeapBlock}
    (lay : h.Layout place (before ++ b :: after) used) :
    ∃ h', h.setLink place (endLink none before) (word h.mem (b.start + 4)) = .returns h' ∧
      h'.Layout place (before ++ after) (b :: used) ∧ h.Keeps h' used := by
  have apart := pairwise_move lay.apart
  have inside : ∀ c ∈ (before ++ after) ++ b :: used,
      place.base ≤ c.start ∧ 8 ≤ c.size ∧ c.start + c.size ≤ place.base + h.brk := by
    intro c member
    refine lay.inside c ?_
    simp only [List.mem_append, List.mem_cons] at member ⊢
    tauto
  have header : ∀ d ∈ b :: used, word h.mem d.start = d.size := by
    intro d member
    rcases List.mem_cons.mp member with rfl | old
    · exact lay.chain.header (List.mem_append_right _ List.mem_cons_self)
    · exact lay.header d old
  rcases List.eq_nil_or_concat before with rfl | ⟨front, c, rfl⟩
  · obtain ⟨-, -, -, rest⟩ := lay.chain
    refine ⟨_, rfl, ⟨lay.brk, inside, apart, ?_, header⟩, fun _ _ _ _ _ => rfl⟩
    rwa [lay.chain.1] at rest
  · rw [List.concat_eq_append] at lay apart inside ⊢
    have inFree : c ∈ (front ++ [c]) ++ b :: after ++ used := by simp
    obtain ⟨low, high⟩ := lay.bounds inFree
    have large := (lay.inside c inFree).2.1
    rw [endLink_append]
    refine ⟨_, store_inside (by omega) (by omega), ?_⟩
    have chain := lay.chain
    have apartFree := (List.pairwise_append.mp lay.apart).1
    rw [List.append_assoc, List.singleton_append] at chain apartFree
    have away {d : HeapBlock} (far : d.Apart c) (a : Nat) (below : d.start ≤ a) (above : a < d.start + d.size) :
        setWord h.mem (c.start + 4) (word h.mem (b.start + 4)) a = h.mem a := by
      refine setWord_outside ?_
      rcases far with first | second <;> omega
    have farUsed (d) (member : d ∈ b :: used) : d.Apart c :=
      ((List.pairwise_append.mp apart).2.2 c (by simp) d member).symm
    refine ⟨⟨lay.brk, inside, apart, ?_, fun d member => ?_⟩, fun d member => away (farUsed d (List.mem_cons_of_mem _ member))⟩
    · rw [List.append_assoc, List.singleton_append]
      refine chain.unlink apartFree fun d member => (lay.inside d ?_).2.1
      rw [List.append_assoc (front ++ [c]), List.append_assoc front]
      exact List.mem_append.mpr ((List.mem_append.mp member).imp_right fun tail => by
        simp only [List.singleton_append, List.mem_cons, List.mem_append] at tail ⊢
        tauto)
    · have bigD := (inside d (List.mem_append_right _ member)).2.1
      have same : word (setWord h.mem (c.start + 4) (word h.mem (b.start + 4))) d.start = word h.mem d.start :=
        word_congr fun i small => away (farUsed d member) _ (by omega) (by omega)
      show word (setWord h.mem (c.start + 4) (word h.mem (b.start + 4))) d.start = d.size
      rw [same, header d member]

/-- A block is cut from what no block has used. -/
theorem Layout.bump (lay : h.Layout place free used) {size : Nat} (large : 8 ≤ size) (room : h.brk + size ≤ heapSize) :
    ∃ h', h.store place (place.base + h.brk) size = .returns h' ∧
      ({ h' with brk := h.brk + size } : GuestHeap).Layout place free (⟨place.base + h.brk, size⟩ :: used) ∧
        h.Keeps h' used := by
  refine ⟨_, store_inside (Nat.le_add_right _ _) (by omega), ?_⟩
  have below (b) (member : b ∈ free ++ used) (a : Nat) (high : a < b.start + b.size) :
      setWord h.mem (place.base + h.brk) size a = h.mem a := by
    have inside := lay.inside b member
    exact setWord_outside (.inl (by omega))
  refine ⟨⟨room, fun b member => ?_, ?_, ?_, fun b member => ?_⟩,
    fun b member a _ high => below b (List.mem_append_right _ member) a high⟩
  · rcases List.mem_cons.mp (List.perm_middle.mem_iff.mp member) with rfl | old
    · exact ⟨Nat.le_add_right _ _, large, by simp only; omega⟩
    · have inside := lay.inside b old
      exact ⟨inside.1, inside.2.1, by simp only; omega⟩
  · refine (List.Perm.pairwise_iff (fun far => far.symm) List.perm_middle).mpr (List.pairwise_cons.mpr ⟨fun b member => ?_, lay.apart⟩)
    exact .inr (lay.inside b member).2.2
  · refine lay.chain.congr fun b member a _ high => below b (List.mem_append_left _ member) a ?_
    have inside := lay.inside b (List.mem_append_left _ member)
    omega
  · rcases List.mem_cons.mp member with rfl | old
    · refine word_setWord ?_
      have small : heapSize < 2 ^ 32 := by decide
      omega
    · have inside := lay.inside b (List.mem_append_right _ old)
      refine (word_congr fun i small => below b (List.mem_append_right _ old) _ ?_).trans (lay.header b old)
      omega

/-- How `malloc` ends: with a block of the free list, with NULL, or with a new block, which is one where no
size has wrapped. -/
inductive Mallocs (place : HeapPlace) (h : GuestHeap) (free used : List HeapBlock) (n : Nat) : Exec (GuestHeap × Nat) → Prop
  | reused {before after b h'} : free = before ++ b :: after → need n ≤ b.size →
      h'.Layout place (before ++ after) (b :: used) → h.Keeps h' used →
      Mallocs place h free used n (.returns (h', b.start + 4))
  | refused : (∀ b ∈ free, b.size < need n) → heapSize < (h.brk + need n) % 2 ^ 32 →
      Mallocs place h free used n (.returns (h, 0))
  | bumped {x} : (∀ b ∈ free, b.size < need n) → (h.brk + need n) % 2 ^ 32 ≤ heapSize →
      (∀ h' p, x = .returns (h', p) → p = place.base + h.brk + 4) →
      (8 ≤ need n → h.brk + need n < 2 ^ 32 → ∃ h', x = .returns (h', place.base + h.brk + 4) ∧
        h'.Layout place free (⟨place.base + h.brk, need n⟩ :: used) ∧ h.Keeps h' used) →
      Mallocs place h free used n x

theorem Layout.mallocs (lay : h.Layout place free used) (n : Nat) : Mallocs place h free used n (h.malloc place n) := by
  have found := findFit_spec (k := need n) (fun b member => lay.bounds (List.mem_append_left _ member)) lay.chain
    (show h.link place none = _ from rfl) lay.few
  rcases found with ⟨none, ended⟩ | ⟨before, b, after, rfl, fits, ended, link⟩
  · rw [malloc, ended, Exec.returns_bind]
    by_cases full : heapSize < (h.brk + need n) % 2 ^ 32
    · simp only [if_pos full]
      exact .refused none full
    · simp only [if_neg full]
      refine .bumped none (Nat.not_lt.mp full) (fun h' p ended => ?_) fun large small => ?_
      · obtain ⟨stored, -, same⟩ := Exec.bind_eq_returns.mp ended
        cases same
        rfl
      · rw [Nat.mod_eq_of_lt small] at full ⊢
        obtain ⟨h', stored, lay', keeps⟩ := lay.bump large (Nat.not_lt.mp full)
        rw [stored]
        exact ⟨_, rfl, lay', keeps⟩
  · have bounds := lay.bounds (List.mem_append_left used (List.mem_append_right before List.mem_cons_self))
    obtain ⟨h', unlinked, lay', keeps⟩ := lay.unlink
    rw [malloc, ended, Exec.returns_bind]
    simp only [link, Exec.returns_bind, load_inside (show place.base ≤ b.start + 4 by omega) (by omega), unlinked]
    exact .reused rfl fits lay' keeps

theorem need_exact (small : n + 11 < 2 ^ 32) : need n = (n + 11) / 8 * 8 := by
  rw [need, alignUp]
  split <;> omega

theorem Layout.perm {others : List HeapBlock} (lay : h.Layout place free used) (same : used.Perm others) :
    h.Layout place free others := by
  have both := same.append_left free
  exact ⟨lay.brk, fun b member => lay.inside b (both.mem_iff.mpr member), (both.pairwise_iff fun far => far.symm).mp lay.apart,
    lay.chain, fun b member => lay.header b (same.mem_iff.mpr member)⟩

theorem Layout.freelist_lt (lay : h.Layout place free used) : h.freelist < 2 ^ 32 := by
  have chain := lay.chain
  cases free with
  | nil => exact lt_of_eq_of_lt chain (by decide)
  | cons c free =>
    have head := lay.bounds (List.mem_append_left used (List.mem_cons_self (a := c)))
    have fits := place.fits
    have start : h.freelist = c.start := chain.1
    omega

/-- A block of the caller's goes to the front of the free list. -/
theorem Layout.frees {b : HeapBlock} (lay : h.Layout place free (b :: used)) :
    ∃ h', h.free place (b.start + 4) = .returns h' ∧ h'.Layout place (b :: free) used ∧ h.Keeps h' used := by
  have member : b ∈ free ++ b :: used := List.mem_append_right _ List.mem_cons_self
  obtain ⟨low, large, high⟩ := lay.inside b member
  have bounds := lay.bounds member
  have positive := place.nonNull
  have fits := place.fits
  have brk := lay.brk
  have block : (b.start + 4 + 2 ^ 32 - 4) % 2 ^ 32 = b.start := by
    simp only [heapSize] at bounds fits
    omega
  have first := lay.freelist_lt
  have run : h.free place (b.start + 4) = .returns
      { h with mem := setWord (setWord h.mem b.start b.size) (b.start + 4) h.freelist, freelist := b.start } := by
    have header := lay.header b List.mem_cons_self
    rw [GuestHeap.free, if_neg (Nat.succ_ne_zero _), block]
    simp only [load_inside low (by omega : b.start + 4 ≤ place.base + heapSize), header, Exec.returns_bind,
      store_inside low (by omega : b.start + 4 ≤ place.base + heapSize),
      store_inside (by omega : place.base ≤ b.start + 4) (by omega : b.start + 4 + 4 ≤ place.base + heapSize)]
    rfl
  have apart : (b :: (free ++ used)).Pairwise Apart :=
    (List.Perm.pairwise_iff (fun far => far.symm) List.perm_middle).mp lay.apart
  have away {c} (other : c ∈ free ++ used) (a : Nat) (below : c.start ≤ a) (above : a < c.start + c.size) :
      setWord (setWord h.mem b.start b.size) (b.start + 4) h.freelist a = h.mem a := by
    have far := List.rel_of_pairwise_cons apart other
    rw [setWord_outside (by rcases far with first | second <;> omega), setWord_outside (by rcases far with first | second <;> omega)]
  have old {c} (other : c ∈ free ++ used) : c ∈ free ++ b :: used :=
    List.mem_append.mpr ((List.mem_append.mp other).imp_right (List.mem_cons_of_mem b))
  refine ⟨_, run, ⟨brk, fun c other => ?_, apart, ⟨rfl, (by omega : b.start ≠ 0), ?_, ?_⟩, fun c other => ?_⟩,
    fun c other => away (List.mem_append_right _ other)⟩
  · rcases List.mem_cons.mp other with rfl | rest
    · exact ⟨low, large, high⟩
    · exact lay.inside c (old rest)
  · rw [word_setWord_apart (.inl (Nat.le_refl _))]
    exact word_setWord (by omega)
  · rw [word_setWord first]
    refine lay.chain.congr fun c other a below above => away (List.mem_append_left _ other) a below ?_
    have big := (lay.inside c (List.mem_append_left _ other)).2.1
    omega
  · have big := (lay.inside c (old (List.mem_append_right _ other))).2.1
    have header := lay.header c (List.mem_cons_of_mem _ other)
    refine (word_congr fun i small => away (List.mem_append_right _ other) _ ?_ ?_).trans header <;> omega

/-- What is written in the caller's part of a block leaves the allocator's state as it is. -/
theorem Layout.written {mem : Nat → UInt8} {c : HeapBlock} (lay : h.Layout place free used) (own : c ∈ used)
    (outside : ∀ a, a < c.start + 4 ∨ c.start + c.size ≤ a → mem a = h.mem a) :
    ({ h with mem := mem } : GuestHeap).Layout place free used := by
  have headers {b} (member : b ∈ used) (a : Nat) (low : b.start ≤ a) (high : a < b.start + 4) : mem a = h.mem a := by
    refine outside a ?_
    by_cases same : b = c
    · subst same
      exact .inl high
    · have apart := (List.pairwise_append.mp lay.apart).2.1
      have big := (lay.inside b (List.mem_append_right _ member)).2.1
      rcases apart.forall member own same with first | second <;> omega
  refine ⟨lay.brk, lay.inside, lay.apart, ?_, fun b member => ?_⟩
  · refine lay.chain.congr fun b member a low high => outside a ?_
    have big := (lay.inside b (List.mem_append_left _ member)).2.1
    rcases (List.pairwise_append.mp lay.apart).2.2 b member c own with first | second <;> omega
  · exact (word_congr fun i small => headers member _ (by omega) (by omega)).trans (lay.header b member)

/-- A block of the list is large enough, or the rest of the heap is. -/
def CanServe (h : GuestHeap) (r : Nat) : Prop :=
  (∃ bs, Chain h.mem h.freelist bs ∧ ∃ b ∈ bs, (r + 11) / 8 * 8 ≤ b.size) ∨ h.brk + (r + 11) / 8 * 8 ≤ heapSize

/-- The sizes that lead to the block of `r` bytes do not wrap, or what they wrap to is refused as well. -/
def Fits (h : GuestHeap) (r : Nat) : Prop :=
  h.brk + (r + 11) / 8 * 8 < 2 ^ 32 ∨
    heapSize < (h.brk + need (r % 2 ^ 32)) % 2 ^ 32 ∧ ∀ bs, Chain h.mem h.freelist bs → ∀ b ∈ bs, b.size < need (r % 2 ^ 32)

/-- What a caller who asked for `r` bytes can rely on. -/
structure Granted (place : HeapPlace) (h : GuestHeap) (used : List HeapBlock) (r : Nat) (h' : GuestHeap) (p : Nat) : Prop where
  null : p = 0 ↔ ¬h.CanServe r
  unchanged : p = 0 → h' = h
  block : p ≠ 0 → ∃ b free, p = b.start + 4 ∧ r + 4 ≤ b.size ∧ h'.Layout place free (b :: used) ∧ h.Keeps h' used

theorem Layout.malloc_fits (lay : h.Layout place free used) {r : Nat} (fits : h.Fits r) :
    ∃ h' p, h.malloc place (r % 2 ^ 32) = .returns (h', p) ∧ Granted place h used r h' p := by
  have brk := lay.brk
  have eight : heapSize = 2 ^ 23 := rfl
  have none_of (all : ∀ b ∈ free, b.size < (r + 11) / 8 * 8) (past : heapSize < h.brk + (r + 11) / 8 * 8) :
      ¬h.CanServe r := by
    rintro (⟨bs, chain, b, member, large⟩ | room)
    · have small := all b (chain.unique lay.chain ▸ member)
      omega
    · omega
  by_cases small : h.brk + (r + 11) / 8 * 8 < 2 ^ 32
  · have size_eq : need (r % 2 ^ 32) = (r + 11) / 8 * 8 := by
      rw [Nat.mod_eq_of_lt (by omega : r < 2 ^ 32)]
      exact need_exact (by omega)
    have outcome := lay.mallocs (r % 2 ^ 32)
    generalize h.malloc place (r % 2 ^ 32) = x at outcome ⊢
    cases outcome with
    | @reused before after b h' split large lay' keeps =>
      refine ⟨h', _, rfl, ⟨iff_of_false (Nat.succ_ne_zero _) (not_not.mpr ?_), nofun, fun _ =>
        ⟨b, _, rfl, by omega, lay', keeps⟩⟩⟩
      exact .inl ⟨_, lay.chain, b, split ▸ List.mem_append_right _ List.mem_cons_self, size_eq ▸ large⟩
    | refused all full =>
      rw [size_eq] at all full
      rw [Nat.mod_eq_of_lt small] at full
      exact ⟨h, 0, rfl, ⟨iff_of_true rfl (none_of all full), fun _ => rfl, fun block => absurd rfl block⟩⟩
    | bumped all room _ made =>
      rw [size_eq] at room made
      rw [Nat.mod_eq_of_lt small] at room
      obtain ⟨h', ran, lay', keeps⟩ := made (by omega) small
      exact ⟨h', _, ran, ⟨iff_of_false (Nat.succ_ne_zero _) (not_not.mpr (.inr room)), nofun, fun _ =>
        ⟨_, _, rfl, by simp only; omega, lay', keeps⟩⟩⟩
  · obtain ⟨full, all⟩ := fits.resolve_left small
    have all := all free lay.chain
    have refused : ¬h.CanServe r := by
      refine none_of (fun b member => ?_) (by omega)
      have inside := lay.inside b (List.mem_append_left _ member)
      have start := place.fits
      omega
    have outcome := lay.mallocs (r % 2 ^ 32)
    generalize h.malloc place (r % 2 ^ 32) = x at outcome ⊢
    cases outcome with
    | reused split large _ _ =>
      have small := all _ (split ▸ List.mem_append_right _ List.mem_cons_self)
      omega
    | refused _ _ => exact ⟨h, 0, rfl, ⟨iff_of_true rfl refused, fun _ => rfl, fun block => absurd rfl block⟩⟩
    | bumped _ room _ _ => omega

/-- Where a size wraps, `malloc` hands out a block for a request larger than the heap. -/
theorem Layout.fits_of_within (lay : h.Layout place free used) {r p : Nat}
    (ran : h.malloc place (r % 2 ^ 32) = .returns (h', p)) (within : p ≠ 0 → r ≤ heapSize) : h.Fits r := by
  have brk := lay.brk
  have eight : heapSize = 2 ^ 23 := rfl
  by_cases null : p = 0
  · have outcome := lay.mallocs (r % 2 ^ 32)
    generalize h.malloc place (r % 2 ^ 32) = x at ran outcome
    cases outcome with
    | reused _ _ _ _ =>
      cases ran
      cases null
    | refused all full => exact .inr ⟨full, fun bs chain => chain.unique lay.chain ▸ all⟩
    | bumped _ _ at_ _ =>
      have start := at_ h' p ran
      omega
  · have small := within null
    exact .inl (by omega)

end GuestHeap
end Blyt
