import Blyt.GuestHeap
import Blyt.Lib.Run

namespace Blyt
open ByteMemory HeapBlock GuestHeap Run

/-- A block the caller has not freed, and the size it asked for. -/
structure LiveBlock where
  block : HeapBlock
  asked : Nat

/-- The pointer the caller has. -/
def LiveBlock.ptr (l : LiveBlock) : Nat := l.block.start + 4

/-- The allocator, the blocks that are live, and what the last call returned. -/
structure HeapWorld where
  h : GuestHeap
  live : List LiveBlock
  last : Nat

/-- A call, or a write of the caller's to a block it has. -/
inductive HeapCall where
  | malloc (n : UInt32)
  | calloc (n sz : UInt32)
  | realloc (p : Nat) (n : UInt32)
  | free (p : Nat)
  | writes (p i : Nat) (v : UInt8)

namespace HeapWorld

/-- Nothing is allocated; the memory is what it is. -/
def start (mem : Nat → UInt8) : HeapWorld := ⟨⟨mem, 0, 0⟩, [], 0⟩

def drop (w : HeapWorld) (p : Nat) : List LiveBlock := w.live.filter (·.ptr ≠ p)

/-- The block that a pointer was returned for, unless it is NULL, with the size in its header. -/
def grant (h : GuestHeap) (p asked : Nat) (live : List LiveBlock) : List LiveBlock :=
  if p = 0 then live else ⟨⟨p - 4, word h.mem (p - 4)⟩, asked⟩ :: live

variable (place : HeapPlace)

def call (w : HeapWorld) : HeapCall → Exec HeapWorld
  | .malloc n => do
    let (h, p) ← w.h.malloc place n.toNat
    return ⟨h, grant h p n.toNat w.live, p⟩
  | .calloc n sz => do
    let (h, p) ← w.h.calloc place n.toNat sz.toNat
    return ⟨h, grant h p (n.toNat * sz.toNat) w.live, p⟩
  | .realloc q n => do
    let (h, p) ← w.h.realloc place q n.toNat
    return ⟨h, if p = 0 ∧ n ≠ 0 then w.live else grant h p n.toNat (w.drop q), p⟩
  | .free p => do
    let h ← w.h.free place p
    return ⟨h, w.drop p, 0⟩
  | .writes p i v => .returns { w with h := { w.h with mem := write w.h.mem (p + i) [v] }, last := 0 }

/-- Frees and reallocs are of live blocks or of NULL, and writes stay in a live block. -/
def Valid (w : HeapWorld) : HeapCall → Prop
  | .realloc p _ | .free p => p = 0 ∨ ∃ l ∈ w.live, l.ptr = p
  | .writes p i _ => ∃ l ∈ w.live, l.ptr = p ∧ i < l.asked
  | .malloc _ | .calloc _ _ => True

def Step (x : Exec HeapWorld) (c : HeapCall) (x' : Exec HeapWorld) : Prop :=
  ∃ w, x = .returns w ∧ w.Valid c ∧ x' = w.call place c

/-- The block of `r` bytes at `p` is in the heap, in no other live block and in no block of the free list. -/
structure Proper (w : HeapWorld) (p r : Nat) (others : List LiveBlock) : Prop where
  inside : place.base ≤ p ∧ p + r ≤ place.base + heapSize
  live : ∀ l ∈ others, p + r ≤ l.ptr ∨ l.ptr + l.asked ≤ p
  free : ∀ bs, Chain w.h.mem w.h.freelist bs → ∀ b ∈ bs, p + r ≤ b.start ∨ b.start + b.size ≤ p

/-- The block a pointer is to is large enough for `n` bytes. -/
def Holds (w : HeapWorld) (p n : Nat) : Prop := ∃ l ∈ w.live, l.ptr = p ∧ n + 4 ≤ l.block.size

/-- What a call is for. NULL is returned exactly for what cannot be served, and for a block that is freed. -/
def Served (w : HeapWorld) (c : HeapCall) (w' : HeapWorld) : Prop :=
  match c with
  | .malloc n => (w'.last = 0 ↔ ¬w.h.CanServe n.toNat) ∧ (w'.last ≠ 0 → w'.Proper place w'.last n.toNat w.live)
  | .calloc n sz => (w'.last = 0 ↔ ¬w.h.CanServe (n.toNat * sz.toNat)) ∧
      (w'.last ≠ 0 → w'.Proper place w'.last (n.toNat * sz.toNat) w.live ∧
        ∀ i < n.toNat * sz.toNat, w'.h.mem (w'.last + i) = 0)
  | .realloc q n => if q ≠ 0 ∧ n = 0 then w'.last = 0 else
      (w'.last = 0 ↔ ¬(w.Holds q n.toNat ∨ w.h.CanServe n.toNat)) ∧
        (w'.last ≠ 0 → w'.Proper place w'.last n.toNat (w.drop q) ∧
          ∀ l ∈ w.live, l.ptr = q → ∀ i < min l.asked n.toNat, w'.h.mem (w'.last + i) = w.h.mem (q + i))
  | .free _ | .writes _ _ _ => True

/-- The call returns and does what it is for. -/
def Serves (x : Exec HeapWorld) (c : HeapCall) (x' : Exec HeapWorld) : Prop :=
  ∀ w, x = .returns w → ∃ w', x' = .returns w' ∧ w.Served place c w'

/-- The sizes of the call do not wrap, or what they wrap to is refused. -/
def NoWrap (x : Exec HeapWorld) (c : HeapCall) (_ : Exec HeapWorld) : Prop :=
  ∀ w, x = .returns w → match c with
    | .malloc n => w.h.Fits n.toNat
    | .calloc n sz => w.h.Fits (n.toNat * sz.toNat)
    | .realloc q n => q ≠ 0 ∧ n = 0 ∨ w.Holds q n.toNat ∨ w.h.Fits n.toNat
    | .free _ | .writes _ _ _ => True

/-- The blocks in use are the live ones, and each is as large as was asked. -/
structure Sound (w : HeapWorld) : Prop where
  layout : ∃ free, w.h.Layout place free (w.live.map LiveBlock.block)
  asked : ∀ l ∈ w.live, l.asked + 4 ≤ l.block.size

end HeapWorld

namespace GuestHeap
variable {place : HeapPlace} {h h' : GuestHeap} {free used : List HeapBlock} {n r : Nat} {b c : HeapBlock}

theorem Layout.oldBlock (lay : h.Layout place free used) (own : b ∈ used) :
    (b.start + 4 + 2 ^ 32 - 4) % 2 ^ 32 = b.start ∧ (b.size + 2 ^ 32 - 4) % 2 ^ 32 = b.size - 4 ∧
      h.load place b.start = .returns b.size := by
  have inside := lay.inside b (List.mem_append_right _ own)
  have brk := lay.brk
  have fits := place.fits
  have positive := place.nonNull
  have eight : heapSize = 2 ^ 23 := rfl
  refine ⟨by omega, by omega, ?_⟩
  rw [load_inside inside.1 (by omega), lay.header b own]

theorem Layout.realloc_holds (lay : h.Layout place free used) (own : b ∈ used) (nonzero : n ≠ 0) (large : n + 4 ≤ b.size) :
    h.realloc place (b.start + 4) n = .returns (h, b.start + 4) := by
  obtain ⟨block, old, size⟩ := lay.oldBlock own
  rw [realloc, if_neg (Nat.succ_ne_zero _), if_neg nonzero, block]
  simp only [size, Exec.returns_bind, old]
  rw [if_pos (by omega)]
  rfl

/-- A block that is too small is copied to a new one and freed. -/
theorem Layout.realloc_grows (lay : h.Layout place free used) (own : b ∈ used) (nonzero : n ≠ 0) (small : b.size < n + 4) :
    h.realloc place (b.start + 4) n = h.malloc place n >>= fun got => if got.2 = 0 then .returns (got.1, 0) else
      got.1.move place got.2 (b.start + 4) (b.size - 4) >>= fun moved => moved.free place (b.start + 4) >>= fun freed =>
        .returns (freed, got.2) := by
  obtain ⟨block, old, size⟩ := lay.oldBlock own
  have large := (lay.inside b (List.mem_append_right _ own)).2.1
  rw [realloc, if_neg (Nat.succ_ne_zero _), if_neg nonzero, block]
  simp only [size, Exec.returns_bind, old]
  rw [if_neg (by omega)]
  rfl

/-- What `calloc` returns is what its `malloc` did. -/
theorem calloc_mallocs {k p : Nat} (ran : h.calloc place n k = .returns (h', p)) :
    ∃ first, h.malloc place (n * k % 2 ^ 32) = .returns (first, p) := by
  obtain ⟨⟨first, got⟩, made, rest⟩ := Exec.bind_eq_returns.mp ran
  by_cases null : got = 0
  · simp only [if_pos null] at rest
    cases rest
    exact ⟨_, made⟩
  · simp only [if_neg null] at rest
    obtain ⟨zeroed, -, same⟩ := Exec.bind_eq_returns.mp rest
    cases same
    exact ⟨first, made⟩

/-- And so for a `realloc` that grows. -/
theorem Layout.realloc_mallocs {p : Nat} (lay : h.Layout place free used) (own : b ∈ used) (nonzero : n ≠ 0)
    (small : b.size < n + 4) (ran : h.realloc place (b.start + 4) n = .returns (h', p)) :
    ∃ first, h.malloc place n = .returns (first, p) := by
  rw [lay.realloc_grows own nonzero small] at ran
  obtain ⟨⟨first, got⟩, made, rest⟩ := Exec.bind_eq_returns.mp ran
  by_cases null : got = 0
  · simp only [if_pos null] at rest
    cases rest
    exact ⟨_, null ▸ made⟩
  · simp only [if_neg null] at rest
    obtain ⟨moved, -, rest⟩ := Exec.bind_eq_returns.mp rest
    obtain ⟨freed, -, same⟩ := Exec.bind_eq_returns.mp rest
    cases same
    exact ⟨first, made⟩

/-- The copy keeps what the caller had, and leaves the old block free. -/
theorem Layout.moves {free' : List HeapBlock} (lay' : h'.Layout place free' (c :: b :: used)) (keeps : h.Keeps h' (b :: used)) (larger : b.size ≤ c.size) :
    ∃ h'' , (h'.move place (c.start + 4) (b.start + 4) (b.size - 4) >>= fun moved =>
        moved.free place (b.start + 4) >>= fun freed => .returns (freed, c.start + 4)) = .returns (h'', c.start + 4) ∧
      h''.Layout place (b :: free') (c :: used) ∧ h.Keeps h'' used ∧
        ∀ i < b.size - 4, h''.mem (c.start + 4 + i) = h.mem (b.start + 4 + i) := by
  have bIn := lay'.inside b (List.mem_append_right _ (List.mem_cons_of_mem _ List.mem_cons_self))
  have cIn := lay'.inside c (List.mem_append_right _ List.mem_cons_self)
  have brk := lay'.brk
  have apart := (List.pairwise_append.mp lay'.apart).2.1
  have away : c.Apart b := List.rel_of_pairwise_cons apart List.mem_cons_self
  have moved : h'.move place (c.start + 4) (b.start + 4) (b.size - 4) =
      .returns { h' with mem := copy h'.mem (c.start + 4) (b.start + 4) (b.size - 4) } := by
    refine if_pos (.inr ⟨by omega, by omega, ?_⟩)
    rcases away with first | second <;> omega
  have written : ({ h' with mem := copy h'.mem (c.start + 4) (b.start + 4) (b.size - 4) } : GuestHeap).Layout place free'
      (c :: b :: used) := lay'.written List.mem_cons_self fun a outside => copy_outside (by omega)
  obtain ⟨h'', freed, lay'', kept⟩ := (written.perm (List.Perm.swap b c used)).frees
  refine ⟨h'', by rw [moved, Exec.returns_bind, freed, Exec.returns_bind], lay'', fun d member a low high => ?_,
    fun i within => ?_⟩
  · have far : c.Apart d := List.rel_of_pairwise_cons apart (List.mem_cons_of_mem _ member)
    rw [kept d (List.mem_cons_of_mem _ member) a low high]
    refine (copy_outside ?_).trans (keeps d (List.mem_cons_of_mem _ member) a low high)
    rcases far with first | second <;> omega
  · rw [kept c List.mem_cons_self _ (by omega) (by omega)]
    exact (copy_inside within).trans (keeps b List.mem_cons_self _ (by omega) (by omega))

end GuestHeap

namespace HeapWorld
variable {place : HeapPlace} {w w' : HeapWorld} {h' : GuestHeap} {free : List HeapBlock} {c : HeapBlock} {l : LiveBlock}
  {live : List LiveBlock} {r q : Nat} {n sz : UInt32}

theorem proper_of_layout (lay : h'.Layout place free (c :: live.map LiveBlock.block)) (large : r + 4 ≤ c.size)
    (asked : ∀ l ∈ live, l.asked + 4 ≤ l.block.size) (all : List LiveBlock) :
    (⟨h', all, c.start + 4⟩ : HeapWorld).Proper place (c.start + 4) r live := by
  have inside := lay.inside c (List.mem_append_right _ List.mem_cons_self)
  have brk := lay.brk
  refine ⟨by omega, fun l member => ?_, fun bs chain b member => ?_⟩
  · have far : c.Apart l.block :=
      List.rel_of_pairwise_cons (List.pairwise_append.mp lay.apart).2.1 (List.mem_map_of_mem member)
    have small := asked l member
    rw [LiveBlock.ptr]
    rcases far with first | second <;> omega
  · have same := chain.unique lay.chain
    have far : b.Apart c := (List.pairwise_append.mp lay.apart).2.2 b (same ▸ member) c List.mem_cons_self
    rcases far with first | second <;> omega

theorem sound_of_layout (lay : h'.Layout place free (c :: live.map LiveBlock.block)) (large : r + 4 ≤ c.size)
    (asked : ∀ l ∈ live, l.asked + 4 ≤ l.block.size) :
    (⟨h', grant h' (c.start + 4) r live, c.start + 4⟩ : HeapWorld).Sound place := by
  have block : grant h' (c.start + 4) r live = ⟨c, r⟩ :: live := by
    rw [grant, if_neg (Nat.succ_ne_zero _), Nat.add_sub_cancel, lay.header c List.mem_cons_self]
  refine ⟨⟨free, ?_⟩, fun l member => ?_⟩
  · simp only [block, List.map_cons]
    exact lay
  · simp only [block] at member
    rcases List.mem_cons.mp member with rfl | old
    · exact large
    · exact asked l old

theorem Sound.live_perm (sound : w.Sound place) (member : l ∈ w.live) : w.live.Perm (l :: w.drop l.ptr) := by
  obtain ⟨free, lay⟩ := sound.layout
  obtain ⟨front, back, split⟩ := List.append_of_mem member
  have apart := (List.pairwise_append.mp lay.apart).2.1
  rw [List.pairwise_map, split] at apart
  have big (m) (inLive : m ∈ w.live) : 8 ≤ m.block.size :=
    (lay.inside _ (List.mem_append_right _ (List.mem_map_of_mem inLive))).2.1
  have others : ∀ m ∈ front ++ back, decide (m.ptr ≠ l.ptr) = true := by
    intro m other
    rw [decide_eq_true_eq, LiveBlock.ptr, LiveBlock.ptr]
    have apart' := (List.Perm.pairwise_iff (fun far => far.symm) List.perm_middle).mp apart
    have far : l.block.Apart m.block := List.rel_of_pairwise_cons apart' other
    have bigL := big l member
    have bigM := big m (by
      rw [split, List.perm_middle.mem_iff]
      exact List.mem_cons_of_mem _ other)
    rcases far with first | second <;> omega
  have dropped : w.drop l.ptr = front ++ back := by
    rw [drop, split, List.filter_append, List.filter_cons, if_neg (by simp), ← List.filter_append,
      List.filter_eq_self.mpr others]
  rw [dropped, split]
  exact List.perm_middle

theorem drop_null (w : HeapWorld) : w.drop 0 = w.live :=
  List.filter_eq_self.mpr fun l _ => by simp [LiveBlock.ptr]

theorem Sound.drop_asked (sound : w.Sound place) : ∀ l ∈ w.drop q, l.asked + 4 ≤ l.block.size :=
  fun l member => sound.asked l (List.mem_of_mem_filter member)

theorem Sound.dropped (sound : w.Sound place) (member : l ∈ w.live) :
    ∃ free, w.h.Layout place free (l.block :: (w.drop l.ptr).map LiveBlock.block) := by
  obtain ⟨free, lay⟩ := sound.layout
  exact ⟨free, lay.perm ((sound.live_perm member).map LiveBlock.block)⟩

/-- What is granted is served, if the caller's other blocks are in use. -/
theorem Sound.malloc (sound : w.Sound place) (fits : w.h.Fits n.toNat) :
    ∃ w', w.call place (.malloc n) = .returns w' ∧ w.Served place (.malloc n) w' ∧ w'.Sound place := by
  obtain ⟨free, lay⟩ := sound.layout
  obtain ⟨h', p, ran, granted⟩ := lay.malloc_fits fits
  rw [Nat.mod_eq_of_lt n.toNat_lt] at ran
  refine ⟨⟨h', grant h' p n.toNat w.live, p⟩, by rw [call, ran]; rfl, ⟨granted.null, fun nonNull => ?_⟩, ?_⟩
  · obtain ⟨b, free', rfl, large, lay', -⟩ := granted.block nonNull
    exact proper_of_layout lay' large sound.asked _
  · by_cases null : p = 0
    · rw [granted.unchanged null, grant, if_pos null]
      exact ⟨sound.layout, sound.asked⟩
    · obtain ⟨b, free', rfl, large, lay', -⟩ := granted.block null
      exact sound_of_layout lay' large sound.asked

theorem Sound.calloc (sound : w.Sound place) (fits : w.h.Fits (n.toNat * sz.toNat)) :
    ∃ w', w.call place (.calloc n sz) = .returns w' ∧ w.Served place (.calloc n sz) w' ∧ w'.Sound place := by
  obtain ⟨free, lay⟩ := sound.layout
  obtain ⟨h', p, ran, granted⟩ := lay.malloc_fits fits
  by_cases null : p = 0
  · subst null
    refine ⟨⟨h', w.live, 0⟩, ?_, ⟨granted.null, nofun⟩, ?_⟩
    · rw [call, GuestHeap.calloc]
      simp only [ran, Exec.returns_bind]
      rfl
    · rw [granted.unchanged rfl]
      exact ⟨sound.layout, sound.asked⟩
  · obtain ⟨b, free', rfl, large, lay', -⟩ := granted.block null
    have inside := lay'.inside b (List.mem_append_right _ List.mem_cons_self)
    have brk := lay'.brk
    have fits := place.fits
    have small : n.toNat * sz.toNat % 2 ^ 32 = n.toNat * sz.toNat := Nat.mod_eq_of_lt (by omega)
    have zeroed : h'.zero place (b.start + 4) (n.toNat * sz.toNat) =
        .returns { h' with mem := fill h'.mem (b.start + 4) (n.toNat * sz.toNat) 0 } := if_pos (.inr (by omega))
    have written : ({ h' with mem := fill h'.mem (b.start + 4) (n.toNat * sz.toNat) 0 } : GuestHeap).Layout place free'
        (b :: w.live.map LiveBlock.block) := lay'.written List.mem_cons_self fun a outside => fill_outside (by omega)
    refine ⟨⟨_, grant _ (b.start + 4) _ w.live, b.start + 4⟩, ?_, ⟨granted.null, fun _ => ⟨?_, fun i within => fill_inside within⟩⟩,
      sound_of_layout written large sound.asked⟩
    · rw [call, GuestHeap.calloc]
      simp only [ran, Exec.returns_bind]
      simp only [if_neg null, small, zeroed]
      rfl
    · exact proper_of_layout written large sound.asked _

theorem Sound.frees (sound : w.Sound place) (valid : w.Valid (.free q)) :
    ∃ w', w.call place (.free q) = .returns w' ∧ w'.Sound place := by
  rcases valid with rfl | ⟨l, member, rfl⟩
  · refine ⟨⟨w.h, w.live, 0⟩, ?_, ⟨sound.layout, sound.asked⟩⟩
    rw [call, drop_null]
    rfl
  · obtain ⟨free, lay⟩ := sound.dropped member
    obtain ⟨h', ran, lay', -⟩ := lay.frees
    refine ⟨⟨h', w.drop l.ptr, 0⟩, ?_, ⟨⟨_, lay'⟩, sound.drop_asked⟩⟩
    rw [call, LiveBlock.ptr, ran]
    rfl

theorem Sound.writes {i : Nat} {v : UInt8} (sound : w.Sound place) (valid : w.Valid (.writes q i v)) :
    ∃ w', w.call place (.writes q i v) = .returns w' ∧ w'.Sound place := by
  obtain ⟨free, lay⟩ := sound.layout
  obtain ⟨l, member, rfl, within⟩ := valid
  have large := sound.asked l member
  refine ⟨_, rfl, ⟨⟨free, lay.written (List.mem_map_of_mem member) fun a outside => write_outside ?_⟩, sound.asked⟩⟩
  rw [LiveBlock.ptr, List.length_singleton]
  omega

theorem toNat_ne_zero (nonzero : n ≠ 0) : n.toNat ≠ 0 := fun zero => nonzero (UInt32.toNat_inj.mp zero)

theorem holds_null : ¬w.Holds 0 r := fun ⟨_, _, null, _⟩ => absurd null (Nat.succ_ne_zero _)

theorem call_realloc_null : w.call place (.realloc 0 n) = w.call place (.malloc n) := by
  rw [call, call, GuestHeap.realloc, if_pos rfl, drop_null]
  cases w.h.malloc place n.toNat with
  | returns got =>
    rcases got with ⟨h, p⟩
    simp only [Exec.returns_bind, grant]
    split <;> simp_all
  | spins => rfl
  | outOfBounds => rfl

theorem served_realloc_null : w.Served place (.realloc 0 n) w' ↔ w.Served place (.malloc n) w' := by
  simp only [Served, ne_eq, not_true_eq_false, false_and, if_false, holds_null, false_or, drop_null]
  refine and_congr_right fun _ => forall_congr' fun _ => and_iff_left ?_
  exact fun l _ null => absurd null (Nat.succ_ne_zero _)

theorem Sound.realloc_zero (sound : w.Sound place) (member : l ∈ w.live) :
    ∃ w', w.call place (.realloc l.ptr 0) = .returns w' ∧ w'.last = 0 ∧ w'.Sound place := by
  obtain ⟨free, lay⟩ := sound.dropped member
  obtain ⟨h', ran, lay', -⟩ := lay.frees
  refine ⟨⟨h', w.drop l.ptr, 0⟩, ?_, rfl, ⟨⟨_, lay'⟩, sound.drop_asked⟩⟩
  rw [call, GuestHeap.realloc, if_neg (show l.ptr ≠ 0 from Nat.succ_ne_zero _), if_pos (by rfl),
    show w.h.free place l.ptr = .returns h' from ran]
  rfl

theorem Sound.realloc_holds (sound : w.Sound place) (member : l ∈ w.live) (nonzero : n ≠ 0)
    (large : n.toNat + 4 ≤ l.block.size) :
    ∃ w', w.call place (.realloc l.ptr n) = .returns w' ∧ w.Served place (.realloc l.ptr n) w' ∧ w'.Sound place := by
  obtain ⟨free, lay⟩ := sound.dropped member
  have ran := lay.realloc_holds List.mem_cons_self (toNat_ne_zero nonzero) large
  refine ⟨⟨w.h, grant w.h l.ptr n.toNat (w.drop l.ptr), l.ptr⟩, ?_, ?_, sound_of_layout lay large sound.drop_asked⟩
  · simp only [call, LiveBlock.ptr, ran, Exec.returns_bind]
    rw [if_neg fun both => Nat.succ_ne_zero _ both.1]
    rfl
  · rw [Served, if_neg fun both => nonzero both.2]
    refine ⟨iff_of_false (Nat.succ_ne_zero _) (not_not.mpr (.inl ⟨l, member, rfl, large⟩)), fun _ => ⟨?_, fun _ _ _ _ _ => rfl⟩⟩
    exact proper_of_layout lay large sound.drop_asked _

/-- The blocks at one pointer are one block. -/
theorem Sound.same (sound : w.Sound place) {k : LiveBlock} (member : l ∈ w.live) (other : k ∈ w.live) (samePtr : k.ptr = l.ptr) :
    k = l := by
  rcases List.mem_cons.mp ((sound.live_perm member).mem_iff.mp other) with same | dropped
  · exact same
  · have away := List.of_mem_filter dropped
    rw [decide_eq_true_eq] at away
    exact absurd samePtr away

theorem Sound.realloc_grows (sound : w.Sound place) (member : l ∈ w.live) (nonzero : n ≠ 0)
    (small : l.block.size < n.toNat + 4) (fits : w.h.Fits n.toNat) :
    ∃ w', w.call place (.realloc l.ptr n) = .returns w' ∧ w.Served place (.realloc l.ptr n) w' ∧ w'.Sound place := by
  obtain ⟨free, lay⟩ := sound.dropped member
  have run := lay.realloc_grows List.mem_cons_self (toNat_ne_zero nonzero) small
  have notHeld : ¬w.Holds l.ptr n.toNat := by
    rintro ⟨k, other, samePtr, large⟩
    rw [sound.same member other samePtr] at large
    omega
  obtain ⟨h', p, ran, granted⟩ := lay.malloc_fits fits
  rw [Nat.mod_eq_of_lt n.toNat_lt] at ran
  rw [ran, Exec.returns_bind] at run
  have null : p = 0 ↔ ¬(w.Holds l.ptr n.toNat ∨ w.h.CanServe n.toNat) := by
    rw [granted.null, or_iff_right notHeld]
  by_cases none : p = 0
  · rw [if_pos none] at run
    refine ⟨⟨h', w.live, 0⟩, ?_, ?_, ?_⟩
    · simp only [call, LiveBlock.ptr, run, Exec.returns_bind]
      rw [if_pos ⟨trivial, nonzero⟩]
      rfl
    · rw [Served, if_neg fun both => nonzero both.2]
      exact ⟨none ▸ null, fun nonNull => absurd rfl nonNull⟩
    · rw [granted.unchanged none]
      exact ⟨sound.layout, sound.asked⟩
  · rw [if_neg none] at run
    obtain ⟨c, free', rfl, large, lay', keeps⟩ := granted.block none
    obtain ⟨h'', moved, lay'', -, copied⟩ := lay'.moves keeps (by omega)
    refine ⟨⟨h'', grant h'' (c.start + 4) n.toNat (w.drop l.ptr), c.start + 4⟩, ?_, ?_,
      sound_of_layout lay'' large sound.drop_asked⟩
    · simp only [call, LiveBlock.ptr, run, moved, Exec.returns_bind]
      rw [if_neg fun both => none both.1]
      rfl
    · rw [Served, if_neg fun both => nonzero both.2]
      refine ⟨null, fun _ => ⟨proper_of_layout lay'' large sound.drop_asked _, fun k other samePtr i within => ?_⟩⟩
      rw [sound.same member other samePtr] at within
      have asked := sound.asked l member
      exact copied i (by omega)

theorem Sound.realloc (sound : w.Sound place) (valid : w.Valid (.realloc q n))
    (fits : q ≠ 0 ∧ n = 0 ∨ w.Holds q n.toNat ∨ w.h.Fits n.toNat) :
    ∃ w', w.call place (.realloc q n) = .returns w' ∧ w.Served place (.realloc q n) w' ∧ w'.Sound place := by
  rcases valid with rfl | ⟨l, member, rfl⟩
  · have fits := (fits.resolve_left fun both => both.1 rfl).resolve_left holds_null
    rw [call_realloc_null]
    simp only [served_realloc_null]
    exact sound.malloc fits
  · by_cases nonzero : n = 0
    · subst nonzero
      obtain ⟨w', ran, last, sound'⟩ := sound.realloc_zero member
      refine ⟨w', ran, ?_, sound'⟩
      rw [Served, if_pos ⟨Nat.succ_ne_zero _, rfl⟩]
      exact last
    · by_cases large : n.toNat + 4 ≤ l.block.size
      · exact sound.realloc_holds member nonzero large
      · refine sound.realloc_grows member nonzero (Nat.not_le.mp large) ?_
        refine (fits.resolve_left fun both => nonzero both.2).resolve_left ?_
        rintro ⟨k, other, samePtr, holds⟩
        exact large (sound.same member other samePtr ▸ holds)

/-- A block that is in the heap was not asked with a size that wraps. -/
theorem Sound.fits_of_proper {p : Nat} (sound : w.Sound place) (ran : w.h.malloc place (r % 2 ^ 32) = .returns (h', p))
    {v : HeapWorld} {others : List LiveBlock} (proper : p ≠ 0 → v.Proper place p r others) : w.h.Fits r := by
  obtain ⟨free, lay⟩ := sound.layout
  refine lay.fits_of_within ran fun nonNull => ?_
  have inside := (proper nonNull).inside
  omega

theorem Sound.fits_of_served {c : HeapCall} (sound : w.Sound place) (valid : w.Valid c)
    (ran : w.call place c = .returns w') (served : w.Served place c w') : NoWrap (.returns w) c (.returns w') := by
  rintro _ ⟨⟩
  cases c with
  | free _ => trivial
  | writes _ _ _ => trivial
  | malloc n =>
    obtain ⟨⟨h', p⟩, got, same⟩ := Exec.bind_eq_returns.mp ran
    cases same
    rw [← Nat.mod_eq_of_lt n.toNat_lt] at got
    exact sound.fits_of_proper got served.2
  | calloc n sz =>
    obtain ⟨⟨h', p⟩, got, same⟩ := Exec.bind_eq_returns.mp ran
    cases same
    obtain ⟨first, made⟩ := calloc_mallocs got
    exact sound.fits_of_proper made fun nonNull => (served.2 nonNull).1
  | realloc q n =>
    rcases valid with rfl | ⟨l, member, rfl⟩
    · rw [call_realloc_null] at ran
      rw [served_realloc_null] at served
      obtain ⟨⟨h', p⟩, got, same⟩ := Exec.bind_eq_returns.mp ran
      cases same
      rw [← Nat.mod_eq_of_lt n.toNat_lt] at got
      exact .inr (.inr (sound.fits_of_proper got served.2))
    · by_cases nonzero : n = 0
      · exact .inl ⟨Nat.succ_ne_zero _, nonzero⟩
      · by_cases large : n.toNat + 4 ≤ l.block.size
        · exact .inr (.inl ⟨l, member, rfl, large⟩)
        · obtain ⟨free, lay⟩ := sound.dropped member
          obtain ⟨⟨h', p⟩, got, same⟩ := Exec.bind_eq_returns.mp ran
          cases same
          obtain ⟨first, made⟩ := lay.realloc_mallocs List.mem_cons_self (toNat_ne_zero nonzero) (Nat.not_le.mp large) got
          rw [← Nat.mod_eq_of_lt n.toNat_lt] at made
          rw [Served, if_neg fun both => nonzero both.2] at served
          exact .inr (.inr (sound.fits_of_proper made fun nonNull => (served.2 nonNull).1))

theorem Sound.serves {c : HeapCall} (sound : w.Sound place) (valid : w.Valid c) (x' : Exec HeapWorld)
    (fits : NoWrap (.returns w) c x') : ∃ w', w.call place c = .returns w' ∧ w.Served place c w' ∧ w'.Sound place := by
  have fits := fits w rfl
  cases c with
  | malloc n => exact sound.malloc fits
  | calloc n sz => exact sound.calloc fits
  | realloc q n => exact sound.realloc valid fits
  | free q =>
    obtain ⟨w', ran, sound'⟩ := sound.frees valid
    exact ⟨w', ran, trivial, sound'⟩
  | writes q i v =>
    obtain ⟨w', ran, sound'⟩ := sound.writes valid
    exact ⟨w', ran, trivial, sound'⟩

theorem start_sound (place : HeapPlace) (mem : Nat → UInt8) : (start mem).Sound place :=
  ⟨⟨[], Nat.zero_le _, nofun, .nil, rfl, nofun⟩, nofun⟩

/-- In every run the calls are served exactly as long as no size wraps. -/
theorem serves_iff (place : HeapPlace) (mem : Nat → UInt8) (cs : List HeapCall) :
    Throughout (Step place) NoWrap (.returns (start mem)) cs ↔
      Throughout (Step place) (Serves place) (.returns (start mem)) cs := by
  refine throughout_iff (fun x => ∃ w, x = .returns w ∧ w.Sound place) ?_ ?_ ⟨_, rfl, start_sound place mem⟩ cs
  · rintro _ c _ ⟨w, rfl, sound⟩ ⟨_, same, valid, rfl⟩
    cases same
    constructor
    · rintro fits _ ⟨⟩
      obtain ⟨w', ran, served, -⟩ := sound.serves valid _ fits
      exact ⟨w', ran, served⟩
    · intro serves
      obtain ⟨w', ran, served⟩ := serves w rfl
      rw [ran]
      exact sound.fits_of_served valid ran served
  · rintro _ c _ ⟨w, rfl, sound⟩ ⟨_, same, valid, rfl⟩ serves
    cases same
    obtain ⟨w', ran, served⟩ := serves w rfl
    obtain ⟨w'', ran', -, sound'⟩ := sound.serves valid (.returns w') (sound.fits_of_served valid ran served)
    exact ⟨w'', ran', sound'⟩

/-- A request for all but the last byte of the address space is answered with a block of eight bytes. -/
theorem serves_wraps : ¬Throughout (Step ⟨2 ^ 16, by decide, by decide⟩) (Serves ⟨2 ^ 16, by decide, by decide⟩)
    (.returns (start fun _ => 0)) [.malloc 0xFFFFFFFF] := by
  intro met
  obtain ⟨w', ran, -, proper⟩ := (met _ ⟨_, rfl, trivial, rfl⟩).1 _ rfl
  have last : w'.last = 2 ^ 16 + 4 := by
    cases ran
    rfl
  have inside := (proper (by omega)).inside
  rw [last] at inside
  exact absurd inside.2 (by decide)

end HeapWorld
end Blyt
