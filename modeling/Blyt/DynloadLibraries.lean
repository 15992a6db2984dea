import Blyt.DynloadSymbols
import Mathlib.Algebra.Order.BigOperators.Group.List
import Mathlib.Algebra.Order.Group.Nat
import Mathlib.Data.List.Perm.Subperm

namespace Blyt
open DepthFirst

namespace ElfFile
variable (file : ElfFile)

/-- The segments that are mapped. -/
def loads : List Elf32Phdr := file.phdrs.filter (·.type == ptLoad)

/-- The highest address of a segment, in a library at address 0. -/
def span : Nat := file.loads.foldl (fun top ph => max top (ph.vaddr.toNat + ph.memsz.toNat)) 0

/-- The span in whole pages. -/
def pages : Nat := (file.span + 4095) / 4096 * 4096

end ElfFile

/-- No byte is mapped for both. -/
def LibImage.Apart (i j : LibImage) : Prop :=
  ∀ s ∈ i.data.loads, ∀ t ∈ j.data.loads,
    (i.base + s.vaddr).toNat + max s.filesz.toNat s.memsz.toNat ≤ (j.base + t.vaddr).toNat ∨
      (j.base + t.vaddr).toNat + max t.filesz.toNat t.memsz.toNat ≤ (i.base + s.vaddr).toNat

namespace Loader

/-- Each library was mapped once and away from the others, is in the registry in its turn, and has each of its
relocations applied. -/
structure LoadedOnce (ld : Loader) : Prop where
  once : (ld.images.map LibImage.soname).Nodup
  apart : ld.images.Pairwise LibImage.Apart
  registered : ∀ (slot : Nat) (i : LibImage), ld.images[slot]? = some i →
    ld.loaded[slot]? = some ⟨i.soname.take 63, i.base, i.data⟩
  relocated : ∀ (slot : Nat) (lib : Fc32Loaded), ld.loaded[slot]? = some lib → ∀ r ∈ lib.data.libRelas, ∀ w,
    applyLibRela ld.syms slot lib r = some w → w ∈ ld.writes

end Loader

/-- A library that was found under a name. -/
structure FoundLib where
  soname : List UInt8
  data : ElfFile

/-- The page behind a library. -/
def ElfFile.nextBase (file : ElfFile) (base : UInt32) : UInt32 :=
  (file.extent base + fc32LibAlign - 1) / fc32LibAlign * fc32LibAlign

/-- The relocations that change memory, whatever the symbols are. -/
def ElfFile.patches (file : ElfFile) (r : Fc32Rela) : Bool :=
  match r.type with
  | .relative | .r32 => true
  | .jumpSlot | .globDat => (file.libSym r).isSome
  | .none | .unhandled => false

namespace FoundLib

/-- Libraries laid out behind one another. -/
def place (base : UInt32) : List FoundLib → List LibImage
  | [] => []
  | l :: libs => ⟨l.soname, base, l.data⟩ :: place (l.data.nextBase base) libs

/-- A name is taken for one that was found before if that, cut to 63 bytes, is the name. -/
def met (found : List FoundLib) (soname : List UInt8) : Bool := found.any (·.soname.take 63 == soname)

def find (openLib : List UInt8 → Option ElfFile) (found : List FoundLib) (soname : List UInt8) :
    Option (List FoundLib × List (List UInt8)) :=
  (openLib soname).map fun file => (found ++ [⟨soname, file⟩], file.libNeeded)

end FoundLib

/-- The libraries in the order in which a depth-first walk finds them, from the names that the cart needs, each of which
fits its buffer, up to the first name that has no file. -/
def LoadOrder (openLib : List UInt8 → Option ElfFile) (cart : ElfFile) (found : List FoundLib) (ok : Bool) : Prop :=
  ∃ needed rest, cart.cartNeeded = needed ++ rest ∧ (∀ n ∈ needed, n.length < 63) ∧
    Walks FoundLib.met (FoundLib.find openLib) [] needed found ok ∧ (ok = true → rest = [])

/-- The registry has room for the libraries, no name that it cuts comes twice, the segments are apart where the pages put
them, and where a name has no file nothing was to be relocated. -/
structure Settles (found : List FoundLib) (ok : Bool) : Prop where
  few : found.length ≤ fc32LibMax
  uncut : ((found.map FoundLib.soname).filter (63 < ·.length)).Nodup
  apart : (FoundLib.place fc32LibLoadAddr found).Pairwise LibImage.Apart
  idle : ok = false → ∀ l ∈ found, ∀ r ∈ l.data.libRelas, l.data.patches r = false

/-- The libraries that a cart needs, with what they need in turn: the registry has room for them and
their names, each can be read, and the address space has room behind the first. -/
structure Loadable (files : List UInt8 → Option ElfFile) (libpath : List UInt8) (cart : ElfFile)
    (libs : List (List UInt8)) : Prop where
  distinct : libs.Nodup
  few : libs.length ≤ fc32LibMax
  short : ∀ n ∈ libs, n.length ≤ 63
  cart : ∀ n ∈ cart.cartNeeded, n.length < 63 ∧ n ∈ libs
  readable : ∀ n ∈ libs, ∃ file, openLib files libpath n = some file ∧ (∀ m ∈ file.libNeeded, m ∈ libs) ∧
    ∀ ph ∈ file.loads, ph.filesz ≤ ph.memsz
  room : fc32LibLoadAddr.toNat + (libs.map fun n => ((openLib files libpath n).map ElfFile.pages).getD 0).sum < 2 ^ 32

namespace FoundLib
variable {libs found : List FoundLib} {base : UInt32}

theorem place_append (l : FoundLib) : place base (libs ++ [l]) =
    place base libs ++ [⟨l.soname, libs.foldl (fun base l => l.data.nextBase base) base, l.data⟩] := by
  induction libs generalizing base with
  | nil => rfl
  | cons m libs ih =>
    rw [List.cons_append, place, ih]
    rfl

theorem map_place {β : Type} (f : List UInt8 → ElfFile → β) :
    (place base libs).map (fun i => f i.soname i.data) = libs.map fun l => f l.soname l.data := by
  induction libs generalizing base with
  | nil => rfl
  | cons l libs ih => rw [place, List.map_cons, ih, List.map_cons]

theorem length_place : (place base libs).length = libs.length := by
  have same : ((place base libs).map fun _ => ()).length = (libs.map fun _ => ()).length :=
    congrArg List.length (map_place fun _ _ => ())
  rwa [List.length_map, List.length_map] at same

/-- A name that is met only under its first 63 bytes is found twice only if it is longer. -/
theorem find_uncut {openLib : List UInt8 → Option ElfFile} {needed : List (List UInt8)} {ok : Bool}
    (walks : Walks met (find openLib) [] needed found ok) :
    (found.map soname).Nodup ↔ ((found.map soname).filter (63 < ·.length)).Nodup := by
  refine ⟨List.Nodup.filter _, fun long => ?_⟩
  have unmet : (found.map soname).Pairwise fun m n => m.take 63 ≠ n := by
    refine walks.keeps (fun found => (found.map soname).Pairwise fun m n => m.take 63 ≠ n)
      (fun found n found' next unmet unseen found_ => ?_) .nil
    obtain ⟨file, -, same⟩ := Option.map_eq_some_iff.mp found_
    cases same
    rw [List.map_append, List.pairwise_append]
    refine ⟨unmet, List.pairwise_singleton .., fun m before last here => ?_⟩
    obtain ⟨l, member, rfl⟩ := List.mem_map.mp before
    rw [List.mem_singleton.mp here]
    exact fun same => List.any_eq_false.mp unseen l member (beq_iff_eq.mpr same)
  rw [List.Nodup, List.pairwise_filter] at long
  refine (long.and unmet).imp fun {m n} both same => ?_
  by_cases short : m.length ≤ 63
  · exact both.2 ((List.take_of_length_le short).trans same)
  · have cut : 63 < m.length := Nat.not_le.mp short
    exact both.1 (by simpa using cut) (by simpa [← same] using cut) same

end FoundLib

theorem foldl_max_ge {α : Type} (f : α → Nat) (l : List α) (start : Nat) :
    start ≤ l.foldl (fun top a => max top (f a)) start ∧ ∀ a ∈ l, f a ≤ l.foldl (fun top a => max top (f a)) start := by
  induction l generalizing start with
  | nil => exact ⟨Nat.le_refl _, nofun⟩
  | cons a l ih =>
    obtain ⟨base, each⟩ := ih (max start (f a))
    refine ⟨Nat.le_trans (Nat.le_max_left ..) base, fun b member => ?_⟩
    rcases List.mem_cons.mp member with rfl | later
    · exact Nat.le_trans (Nat.le_max_right ..) base
    · exact each b later

namespace ElfFile
variable {file : ElfFile} {base : UInt32}

theorem span_ge {ph : Elf32Phdr} (member : ph ∈ file.loads) : ph.vaddr.toNat + ph.memsz.toNat ≤ file.span :=
  (foldl_max_ge (fun ph : Elf32Phdr => ph.vaddr.toNat + ph.memsz.toNat) file.loads 0).2 ph member

theorem span_le_pages (file : ElfFile) : file.span ≤ file.pages := by
  rw [pages]
  omega

theorem extent_toNat (room : base.toNat + file.span < 2 ^ 32) : (file.extent base).toNat = base.toNat + file.span := by
  have fits : ∀ ph ∈ file.loads, base.toNat + (ph.vaddr.toNat + ph.memsz.toNat) < 2 ^ 32 := by
    intro ph member
    have below := span_ge member
    omega
  suffices all : ∀ (l : List Elf32Phdr) (top : UInt32) (t : Nat),
      (∀ ph ∈ l, base.toNat + (ph.vaddr.toNat + ph.memsz.toNat) < 2 ^ 32) → top.toNat = base.toNat + t →
        (l.foldl (fun top ph => if top < base + ph.vaddr + ph.memsz then base + ph.vaddr + ph.memsz else top) top).toNat =
          base.toNat + l.foldl (fun top ph => max top (ph.vaddr.toNat + ph.memsz.toNat)) t from
    all file.loads base 0 fits rfl
  intro l
  induction l with
  | nil => exact fun top t _ at_ => at_
  | cons ph l ih =>
    intro top t fits at_
    have small := fits ph List.mem_cons_self
    have end_ : (base + ph.vaddr + ph.memsz).toNat = base.toNat + (ph.vaddr.toNat + ph.memsz.toNat) := by
      rw [UInt32.toNat_add, UInt32.toNat_add]
      omega
    rw [List.foldl_cons, List.foldl_cons]
    refine ih _ _ (fun ph member => fits ph (List.mem_cons_of_mem _ member)) ?_
    split
    · rename_i above
      rw [UInt32.lt_iff_toNat_lt] at above
      omega
    · rename_i below
      rw [UInt32.lt_iff_toNat_lt] at below
      omega

/-- The next library starts behind the pages of this one. -/
theorem nextBase_toNat (aligned : base.toNat % 4096 = 0) (room : base.toNat + file.pages < 2 ^ 32) :
    ((file.extent base + fc32LibAlign - 1) / fc32LibAlign * fc32LibAlign).toNat = base.toNat + file.pages := by
  have less := file.span_le_pages
  have span := extent_toNat (Nat.lt_of_le_of_lt (Nat.add_le_add_left less _) room)
  have align : fc32LibAlign.toNat = 4096 := rfl
  have pages : file.pages = (file.span + 4095) / 4096 * 4096 := rfl
  have added : (file.extent base + fc32LibAlign - 1).toNat = base.toNat + file.span + 4095 := by
    -- Behind a library that ends where the last page begins, the sum wraps and the difference wraps back.
    rw [UInt32.toNat_sub, UInt32.toNat_add, span, align, show (1 : UInt32).toNat = 1 from rfl]
    omega
  rw [UInt32.toNat_mul, UInt32.toNat_div, added, align]
  omega

end ElfFile
namespace Loader
variable {files : List UInt8 → Option ElfFile} {libpath : List UInt8} {cart : ElfFile} {libs : List (List UInt8)}
  {ld ld' : Loader} {n : List UInt8} {found : List FoundLib}

/-- The libraries mapped so far are among those that are needed, all of them registered, one behind the
other. -/
structure Placed (files : List UInt8 → Option ElfFile) (libpath : List UInt8) (libs : List (List UInt8)) (ld : Loader) :
    Prop where
  known : ∀ i ∈ ld.images, i.soname ∈ libs ∧ openLib files libpath i.soname = some i.data
  once : (ld.images.map LibImage.soname).Nodup
  loaded : ld.loaded = ld.images.map fun i => ⟨i.soname, i.base, i.data⟩
  next : ld.nextBase.toNat = fc32LibLoadAddr.toNat + (ld.images.map (·.data.pages)).sum
  behind : ld.images.Pairwise fun i j => i.base.toNat + i.data.pages ≤ j.base.toNat
  below : ∀ i ∈ ld.images, i.base.toNat + i.data.pages ≤ ld.nextBase.toNat
  within : ∀ i ∈ ld.images, i.base.toNat + i.data.pages < 2 ^ 32

theorem start_placed (cart : ElfFile) : (start cart).Placed files libpath libs :=
  ⟨nofun, .nil, rfl, rfl, .nil, nofun, nofun⟩

theorem Placed.unseen (placed : ld.Placed files libpath libs) (unseen : ld.libLoaded n = false) :
    n ∉ ld.images.map LibImage.soname := by
  intro member
  obtain ⟨i, inImages, rfl⟩ := List.mem_map.mp member
  rw [libLoaded, placed.loaded, List.any_eq_false] at unseen
  exact unseen ⟨i.soname, i.base, i.data⟩ (List.mem_map_of_mem inImages) (beq_self_eq_true _)

/-- A library that is not there yet is one of those there is room for. -/
theorem Placed.subperm (placed : ld.Placed files libpath libs) (unseen : ld.libLoaded n = false) (needed : n ∈ libs) :
    (n :: ld.images.map LibImage.soname).Subperm libs := by
  refine List.subperm_of_subset (List.nodup_cons.mpr ⟨placed.unseen unseen, placed.once⟩) fun m member => ?_
  rcases List.mem_cons.mp member with rfl | there
  · exact needed
  · obtain ⟨i, inImages, rfl⟩ := List.mem_map.mp there
    exact (placed.known i inImages).1

theorem Placed.room (placed : ld.Placed files libpath libs) (loadable : Loadable files libpath cart libs)
    (unseen : ld.libLoaded n = false) (needed : n ∈ libs) {file : ElfFile} (opens : openLib files libpath n = some file) :
    ld.nextBase.toNat + file.pages < 2 ^ 32 := by
  obtain ⟨l, same, sub⟩ := placed.subperm unseen needed
  have fits := loadable.room
  have less := (sub.map fun n => ((openLib files libpath n).map ElfFile.pages).getD 0).sum_le_sum fun _ _ => Nat.zero_le _
  rw [(same.map _).sum_eq, List.map_cons, List.sum_cons, opens, List.map_map] at less
  have each : ld.images.map ((fun n => ((openLib files libpath n).map ElfFile.pages).getD 0) ∘ LibImage.soname) =
      ld.images.map (·.data.pages) := by
    refine List.map_congr_left fun i member => ?_
    rw [Function.comp_apply, (placed.known i member).2]
    rfl
  rw [each] at less
  have next := placed.next
  simp only [Option.map_some, Option.getD_some] at less
  omega

theorem Placed.aligned (placed : ld.Placed files libpath libs) : ld.nextBase.toNat % 4096 = 0 := by
  have pages : ∀ l : List LibImage, (l.map (·.data.pages)).sum % 4096 = 0 := by
    intro l
    induction l with
    | nil => rfl
    | cons i l ih =>
      rw [List.map_cons, List.sum_cons, ElfFile.pages]
      omega
  have start : fc32LibLoadAddr.toNat % 4096 = 0 := by decide
  rw [placed.next, Nat.add_mod, start, pages]

/-- A needed library is mapped behind the others and registered. -/
theorem Placed.enter (placed : ld.Placed files libpath libs) (loadable : Loadable files libpath cart libs)
    (needed : n ∈ libs) (unseen : ld.libLoaded n = false) :
    ∃ ld' next, ld.mapLib (openLib files libpath) n = some (ld', next) ∧ ld'.Placed files libpath libs ∧
      libs.length - ld'.images.length < libs.length - ld.images.length ∧ ∀ m ∈ next, m ∈ libs := by
  obtain ⟨file, opens, closed, -⟩ := loadable.readable n needed
  have count := (placed.subperm unseen needed).length_le
  rw [List.length_cons, List.length_map] at count
  have room := placed.room loadable unseen needed opens
  have few := loadable.few
  have next := ElfFile.nextBase_toNat placed.aligned room
  have registered : ld.libRegister n ld.nextBase file = { ld with loaded := ld.loaded ++ [⟨n, ld.nextBase, file⟩] } := by
    rw [libRegister, placed.loaded, List.length_map, if_neg (by omega), List.take_of_length_le (loadable.short n needed)]
  refine ⟨_, file.libNeeded, by rw [mapLib, opens], ⟨fun i member => ?_, ?_, ?_, ?_, ?_, fun i member => ?_, fun i member => ?_⟩,
    ?_, closed⟩
  · rcases List.mem_append.mp member with old | new
    · exact placed.known i old
    · rw [List.mem_singleton] at new
      subst new
      exact ⟨needed, opens⟩
  · rw [List.map_append, List.map_singleton, (List.perm_append_singleton _ _).nodup_iff]
    exact List.nodup_cons.mpr ⟨placed.unseen unseen, placed.once⟩
  · simp only [registered, placed.loaded, List.map_append]
    rfl
  · simp only [List.map_append, List.sum_append]
    rw [next, placed.next]
    simp
    omega
  · rw [List.pairwise_append]
    refine ⟨placed.behind, List.pairwise_singleton .., fun i old j new => ?_⟩
    rw [List.mem_singleton] at new
    exact new ▸ placed.below i old
  · show _ ≤ ((file.extent ld.nextBase + fc32LibAlign - 1) / fc32LibAlign * fc32LibAlign).toNat
    rw [next]
    rcases List.mem_append.mp member with old | new
    · have below := placed.below i old
      omega
    · rw [List.mem_singleton] at new
      subst new
      exact Nat.le_refl _
  · rcases List.mem_append.mp member with old | new
    · exact placed.within i old
    · rw [List.mem_singleton] at new
      subst new
      exact room
  · simp only [List.length_append, List.length_singleton]
    omega

theorem Placed.apart (placed : ld.Placed files libpath libs) (loadable : Loadable files libpath cart libs) :
    ld.images.Pairwise LibImage.Apart := by
  refine placed.behind.imp_of_mem fun {i j} inI inJ behind s inS t inT => .inl ?_
  obtain ⟨needed, opens⟩ := placed.known i inI
  obtain ⟨file, opens', -, small⟩ := loadable.readable i.soname needed
  obtain rfl : i.data = file := Option.some.inj (opens.symm.trans opens')
  have filesz := UInt32.le_iff_toNat_le.mp (small s inS)
  have spanS := ElfFile.span_ge inS
  have spanT := ElfFile.span_ge inT
  have pagesI := i.data.span_le_pages
  have pagesJ := j.data.span_le_pages
  have withinI := placed.within i inI
  have withinJ := placed.within j inJ
  rw [UInt32.toNat_add, UInt32.toNat_add, Nat.max_eq_right filesz]
  omega

theorem relocate_relocated (slot : Nat) (lib : Fc32Loaded) (at_ : (ld.relocate cart).loaded[slot]? = some lib)
    (r : Fc32Rela) (inLib : r ∈ lib.data.libRelas) (w : Write32)
    (wrote : applyLibRela (ld.relocate cart).syms slot lib r = some w) : w ∈ (ld.relocate cart).writes :=
  mem_writes.mpr (.inl ⟨lib, slot, r, List.mem_zipIdx_iff_getElem?.mpr at_, inLib, wrote⟩)

theorem Placed.relocate (placed : ld.Placed files libpath libs) (loadable : Loadable files libpath cart libs) :
    (ld.relocate cart).LoadedOnce := by
  refine ⟨placed.once, placed.apart loadable, fun slot i at_ => ?_, relocate_relocated⟩
  have short := loadable.short i.soname (placed.known i (List.mem_of_getElem? at_)).1
  rw [List.take_of_length_le short]
  show ld.loaded[slot]? = _
  rw [placed.loaded, List.getElem?_map, show ld.images[slot]? = some i from at_]
  rfl

/-- Where the tables have room for what a cart needs, the loader ends, at most nine calls deep, with every
library loaded once, away from the others, and relocated. -/
theorem dynload_loadedOnce {fuel : Nat} (deep : fc32LibMax < fuel)
    (loadable : cart.dynFileoff ≠ 0 → Loadable files libpath cart libs) :
    ∃ ld, fc32Dynload files libpath fuel cart = .returns (ld, true) ∧ ld.LoadedOnce := by
  by_cases static : cart.dynFileoff = 0
  · refine ⟨.empty, ?_, .nil, .nil, nofun, nofun⟩
    rw [fc32Dynload, if_pos static]
    rfl
  · have loadable := loadable static
    have few := loadable.few
    have ends (ld : Loader) (n : List UInt8) (placed : ld.Placed files libpath libs) (needed : n.length < 63 ∧ n ∈ libs)
        (left : libs.length - ld.images.length < fuel) : ∃ ld', loadNeeded (openLib files libpath) fuel ld n =
          .returns (ld', true) ∧ ld'.Placed files libpath libs ∧
            libs.length - ld'.images.length ≤ libs.length - ld.images.length := by
      rw [loadNeeded, if_pos needed.1]
      exact visit_ends (fun ld n placed needed unseen => placed.enter loadable needed unseen) placed needed.2 left
    obtain ⟨ld, ran, placed, -⟩ := visitAll_ends ends (start_placed cart) loadable.cart (by omega)
    refine ⟨ld.relocate cart, ?_, placed.relocate loadable⟩
    rw [fc32Dynload, if_neg static, ran]
    rfl

example : ∃ ld : Loader,
    fc32Dynload (fun _ => some (exporter (ascii "fc_print"))) [] 9 (importer (ascii "fc_print")) = .returns (ld, true) ∧
      ld.LoadedOnce :=
  dynload_loadedOnce (by decide) fun _ =>
    (⟨by decide, by decide, by decide, by decide, fun n _ => ⟨exporter (ascii "fc_print"), rfl, by decide, by decide⟩, by decide⟩ :
      Loadable _ _ _ [[97]])

theorem mapLib_opens {openLib : List UInt8 → Option ElfFile} {file : ElfFile} (ld : Loader) (opens : openLib n = some file) :
    ∃ ld', ld.mapLib openLib n = some (ld', file.libNeeded) ∧ ld'.images = ld.images ++ [⟨n, ld.nextBase, file⟩] ∧
      ld'.nextBase = file.nextBase ld.nextBase ∧ ld'.writes = ld.writes := by
  rw [mapLib, opens]
  refine ⟨_, rfl, rfl, rfl, ?_⟩
  simp only [libRegister]
  split <;> rfl

theorem mapLib_grows {openLib : List UInt8 → Option ElfFile} {next : List (List UInt8)}
    (mapped : ld.mapLib openLib n = some (ld', next)) :
    (∃ file, openLib n = some file) ∧ ld.images.length ≤ ld'.images.length := by
  cases opens : openLib n with
  | none =>
    rw [mapLib, opens] at mapped
    cases mapped
  | some file =>
    obtain ⟨other, mapped', images, -⟩ := mapLib_opens ld opens
    rw [mapped] at mapped'
    cases mapped'
    refine ⟨⟨file, rfl⟩, ?_⟩
    rw [images, List.length_append]
    exact Nat.le_add_right ..

/-- The loader's tables are those of the libraries found so far. -/
structure Follows (cart : ElfFile) (found : List FoundLib) (ld : Loader) : Prop where
  images : ld.images = FoundLib.place fc32LibLoadAddr found
  next : ld.nextBase = found.foldl (fun base l => l.data.nextBase base) fc32LibLoadAddr
  recorded : ld.Recorded cart
  writes : ld.writes = []

theorem start_follows (cart : ElfFile) : (start cart).Follows cart [] := ⟨rfl, rfl, start_recorded cart, rfl⟩

theorem Follows.length (follows : ld.Follows cart found) : ld.images.length = found.length := by
  rw [follows.images, FoundLib.length_place]

/-- As long as the registry has room, it knows the names that were met. -/
theorem Follows.met (follows : ld.Follows cart found) (few : found.length ≤ fc32LibMax) (n : List UInt8) :
    FoundLib.met found n = ld.libLoaded n := by
  have same : ((FoundLib.place fc32LibLoadAddr found).map fun i => i.soname.take 63) =
      found.map fun l => l.soname.take 63 :=
    FoundLib.map_place fun soname _ => soname.take 63
  rw [libLoaded, follows.recorded.loaded, List.take_of_length_le (follows.length ▸ few), List.any_map, follows.images]
  show found.any ((· == n) ∘ fun l => l.soname.take 63) =
    (FoundLib.place fc32LibLoadAddr found).any ((· == n) ∘ fun i => i.soname.take 63)
  rw [← List.any_map, ← List.any_map, same]

theorem Follows.mapLib {openLib : List UInt8 → Option ElfFile} {file : ElfFile} (follows : ld.Follows cart found)
    (opens : openLib n = some file) :
    ∃ ld', ld.mapLib openLib n = some (ld', file.libNeeded) ∧ ld'.Follows cart (found ++ [⟨n, file⟩]) := by
  obtain ⟨ld', mapped, images, next, writes⟩ := mapLib_opens ld opens
  refine ⟨ld', mapped, ?_, ?_, follows.recorded.mapLib mapped, writes.trans follows.writes⟩
  · rw [FoundLib.place_append, ← follows.images, ← follows.next]
    exact images
  · rw [List.foldl_append, ← follows.next]
    exact next

/-- The loader goes where the walk over the names goes. -/
theorem walks_of_found {openLib : List UInt8 → Option ElfFile} {needed : List (List UInt8)} {ok : Bool}
    (walks : Walks FoundLib.met (FoundLib.find openLib) [] needed found ok) (few : found.length ≤ fc32LibMax) :
    ∃ ld, Walks libLoaded (mapLib openLib) (start cart) needed ld ok ∧ ld.Follows cart found := by
  refine walks.follow (fun (found : List FoundLib) (ld : Loader) => ld.Follows cart found) (fun found => found.length ≤ fc32LibMax)
    (fun found n found' next found_ small => ?_) (fun found ld n follows small => (follows.met small n).symm)
    (fun found ld n _ failed => ?_) (fun found ld n found' next follows found_ _ => ?_) (start_follows cart) few
  · obtain ⟨file, -, same⟩ := Option.map_eq_some_iff.mp found_
    cases same
    rw [List.length_append] at small
    exact Nat.le_of_add_right_le small
  · rw [mapLib, Option.map_eq_none_iff.mp failed]
  · obtain ⟨file, opens, same⟩ := Option.map_eq_some_iff.mp found_
    cases same
    exact follows.mapLib opens

theorem found_of_walks {openLib : List UInt8 → Option ElfFile} {needed : List (List UInt8)} {ok : Bool}
    (walks : Walks libLoaded (mapLib openLib) (start cart) needed ld ok) (few : ld.images.length ≤ fc32LibMax) :
    ∃ found, Walks FoundLib.met (FoundLib.find openLib) [] needed found ok ∧ ld.Follows cart found := by
  refine walks.follow (fun ld found => ld.Follows cart found) (fun ld => ld.images.length ≤ fc32LibMax)
    (fun ld n ld' next mapped small => ?_) (fun ld found n follows small => follows.met (follows.length ▸ small) n)
    (fun ld found n _ failed => ?_) (fun ld found n ld' next follows mapped _ => ?_) (start_follows cart) few
  · exact Nat.le_trans (mapLib_grows mapped).2 small
  · rw [FoundLib.find, Option.map_eq_none_iff]
    cases opens : openLib n with
    | none => rfl
    | some file =>
      rw [mapLib, opens] at failed
      cases failed
  · obtain ⟨⟨file, opens⟩, -⟩ := mapLib_grows mapped
    obtain ⟨other, mapped', follows'⟩ := follows.mapLib opens
    rw [mapped] at mapped'
    cases mapped'
    exact ⟨_, by rw [FoundLib.find, opens]; rfl, follows'⟩

theorem applyLibRela_eq_none_iff {syms : List Fc32Sym} {slot : Nat} {lib : Fc32Loaded} {r : Fc32Rela} :
    applyLibRela syms slot lib r = none ↔ lib.data.patches r = false := by
  rw [applyLibRela, ElfFile.patches]
  cases r.type <;> simp only [Option.map_eq_none_iff, Option.isSome_eq_false_iff, Option.isNone_iff_eq_none] <;> simp
  cases lib.data.libSym r <;> simp

theorem Recorded.few (rec : ld.Recorded cart)
    (registered : ∀ (slot : Nat) (i : LibImage), ld.images[slot]? = some i →
      ld.loaded[slot]? = some ⟨i.soname.take 63, i.base, i.data⟩) : ld.images.length ≤ fc32LibMax := by
  by_contra more
  have behind : fc32LibMax < ld.images.length := Nat.not_le.mp more
  have none : ld.loaded[fc32LibMax]? = none := by
    rw [rec.loaded, List.getElem?_eq_none]
    rw [List.length_map, List.length_take]
    exact Nat.min_le_left ..
  rw [registered fc32LibMax _ (List.getElem?_eq_getElem behind)] at none
  cases none

theorem Follows.registered (follows : ld.Follows cart found) (few : found.length ≤ fc32LibMax) :
    ld.loaded = ld.images.map fun i => ⟨i.soname.take 63, i.base, i.data⟩ := by
  rw [follows.recorded.loaded, List.take_of_length_le (follows.length ▸ few)]

/-- Without its last part the loader leaves no word written, which is right if there was none to write. -/
theorem Follows.relocated_iff {ok : Bool} (follows : ld.Follows cart found) (few : found.length ≤ fc32LibMax) :
    (∀ (slot : Nat) (lib : Fc32Loaded), (if ok then ld.relocate cart else ld).loaded[slot]? = some lib →
      ∀ r ∈ lib.data.libRelas, ∀ w, applyLibRela (if ok then ld.relocate cart else ld).syms slot lib r = some w →
        w ∈ (if ok then ld.relocate cart else ld).writes) ↔
      (ok = false → ∀ l ∈ found, ∀ r ∈ l.data.libRelas, l.data.patches r = false) := by
  cases ok with
  | true => exact iff_of_true relocate_relocated fun stopped => by cases stopped
  | false =>
    simp only [Bool.false_eq_true, if_false, follows.writes, List.not_mem_nil, forall_const]
    have files : ld.loaded.map Fc32Loaded.data = found.map FoundLib.data := by
      rw [follows.registered few, follows.images, List.map_map]
      exact FoundLib.map_place fun _ data => data
    constructor
    · intro none l member r inLib
      obtain ⟨lib, inLoaded, same⟩ := List.mem_map.mp (files ▸ List.mem_map_of_mem member)
      obtain ⟨slot, at_⟩ := List.getElem?_of_mem inLoaded
      rw [← same] at inLib ⊢
      exact applyLibRela_eq_none_iff.mp (Option.eq_none_iff_forall_ne_some.mpr (none slot lib at_ r inLib))
    · intro idle slot lib at_ r inLib w wrote
      obtain ⟨l, member, same⟩ := List.mem_map.mp (files ▸ List.mem_map_of_mem (List.mem_of_getElem? at_))
      rw [applyLibRela_eq_none_iff.mpr (same ▸ idle l member r (same ▸ inLib))] at wrote
      cases wrote

theorem Follows.loadedOnce_iff {openLib : List UInt8 → Option ElfFile} {needed : List (List UInt8)} {ok : Bool}
    (walks : Walks FoundLib.met (FoundLib.find openLib) [] needed found ok) (follows : ld.Follows cart found)
    (few : found.length ≤ fc32LibMax) :
    (if ok then ld.relocate cart else ld).LoadedOnce ↔ Settles found ok := by
  have images : (if ok then ld.relocate cart else ld).images = FoundLib.place fc32LibLoadAddr found := by
    rw [← follows.images]
    cases ok <;> rfl
  have sonames : (FoundLib.place fc32LibLoadAddr found).map LibImage.soname = found.map FoundLib.soname :=
    FoundLib.map_place fun soname _ => soname
  have registered : (if ok then ld.relocate cart else ld).loaded =
      (FoundLib.place fc32LibLoadAddr found).map fun i => ⟨i.soname.take 63, i.base, i.data⟩ := by
    rw [← follows.images, ← follows.registered few]
    cases ok <;> rfl
  constructor
  · rintro ⟨once, apart, -, relocated⟩
    rw [images, sonames] at once
    exact ⟨few, (FoundLib.find_uncut walks).mp once, images ▸ apart, (follows.relocated_iff few).mp relocated⟩
  · rintro ⟨-, uncut, apart, idle⟩
    refine ⟨?_, images.symm ▸ apart, fun slot i at_ => ?_, (follows.relocated_iff few).mpr idle⟩
    · rw [images, sonames]
      exact (FoundLib.find_uncut walks).mpr uncut
    · rw [images] at at_
      rw [registered, List.getElem?_map, at_]
      rfl

/-- The loader ends with every library loaded once, away from the others, registered and relocated, exactly if the
libraries that it finds settle. -/
theorem dynload_loadedOnce_iff : (∃ (fuel : Nat) (ld : Loader) (ok : Bool),
    fc32Dynload files libpath fuel cart = .returns (ld, ok) ∧ ld.LoadedOnce) ↔
      cart.dynFileoff = 0 ∨ ∃ found ok, LoadOrder (openLib files libpath) cart found ok ∧ Settles found ok := by
  by_cases static : cart.dynFileoff = 0
  · refine iff_of_true ⟨0, .empty, true, ?_, .nil, .nil, nofun, nofun⟩ (.inl static)
    rw [fc32Dynload, if_pos static]
    rfl
  rw [or_iff_right static]
  simp only [dynload_returns_iff static]
  constructor
  · rintro ⟨fuel, ld', ok, ⟨ld, ran, rfl⟩, loaded⟩
    obtain ⟨needed, rest, split, short, walked, complete⟩ := visitAll_guarded.mp ran
    have few : ld.images.length ≤ fc32LibMax := by
      refine (visitAll_recorded ran).few fun slot i at_ => ?_
      have registered := loaded.registered slot i
      cases ok <;> exact registered at_
    obtain ⟨found, walks, follows⟩ := found_of_walks (walks_of_visitAll walked) few
    exact ⟨found, ok, ⟨needed, rest, split, short, walks, complete⟩,
      (follows.loadedOnce_iff walks (follows.length ▸ few)).mp loaded⟩
  · rintro ⟨found, ok, ⟨needed, rest, split, short, walks, complete⟩, settles⟩
    obtain ⟨ld, walked, follows⟩ := walks_of_found walks settles.few
    obtain ⟨fuel, ran⟩ := walked.visitAll
    exact ⟨fuel, _, ok, ⟨ld, visitAll_guarded.mpr ⟨needed, rest, split, short, ran, complete⟩, rfl⟩,
      (follows.loadedOnce_iff walks settles.few).mpr settles⟩

/-- A library that needs one library. -/
def needing (name : List UInt8) : ElfFile where
  phdrs := [⟨ptLoad, 0, 0, 0x1000, 0x1000⟩, ⟨ptDynamic, 0x100, 0x100, 24, 24⟩]
  shdrs := []
  dyns _ := [⟨dtStrtab, 0x200⟩, ⟨dtNeeded, 1⟩]
  sym _ := ⟨0, 0, 0, 0⟩
  rela _ := ⟨0, 0, 0⟩
  str off := if off = 0x201 then name else []

theorem needing_libNeeded (name : List UInt8) : (needing name).libNeeded = [name] := by
  simp [needing, ElfFile.libNeeded, ElfFile.vaddrToOff, ptLoad, ptDynamic, dtStrtab, dtNeeded]

theorem loadLib_needing {fuel : Nat} {name : List UInt8} (short : ∀ l ∈ ld.loaded, l.soname.length ≤ 63)
    (unseen : ld.libLoaded n = false)
    (spins : ∀ ld : Loader, (∀ l ∈ ld.loaded, l.soname.length ≤ 63) →
      loadLib (fun _ => some (needing name)) fuel ld name = .spins) :
    loadLib (fun _ => some (needing name)) (fuel + 1) ld n = .spins := by
  obtain ⟨ld', mapped, short'⟩ : ∃ ld', ld.mapLib (fun _ => some (needing name)) n = some (ld', [name]) ∧
      ∀ l ∈ ld'.loaded, l.soname.length ≤ 63 := by
    refine ⟨_, congrArg (fun next => some (_, next)) (needing_libNeeded name), fun l member => ?_⟩
    simp only [libRegister] at member
    split at member
    · exact short l member
    · rcases List.mem_append.mp member with old | new
      · exact short l old
      · rw [List.mem_singleton] at new
        rw [new]
        exact List.length_take_le ..
  have deeper : visit libLoaded (mapLib fun _ => some (needing name)) fuel ld' name = .spins := spins ld' short'
  rw [loadLib, visit, if_neg (unseen ▸ Bool.false_ne_true), mapped]
  simp only [visitAll, deeper, Exec.spins_bind]

/-- A name of 64 bytes is not the one that was registered, so a library that needs itself under it is
loaded again. -/
theorem loadLib_endless {fuel : Nat} (short : ∀ l ∈ ld.loaded, l.soname.length ≤ 63) :
    loadLib (fun _ => some (needing (List.replicate 64 97))) fuel ld (List.replicate 64 97) = .spins := by
  induction fuel generalizing ld with
  | zero => rfl
  | succ fuel ih =>
    refine loadLib_needing short (List.any_eq_false.mpr fun l member same => ?_) fun ld short => ih short
    have length := short l member
    rw [eq_of_beq same] at length
    exact absurd length (by decide)

/-- The cart needs a library that needs the endless one. -/
theorem dynload_endless : ¬∀ (files : List UInt8 → Option ElfFile) (libpath : List UInt8) (cart : ElfFile),
    ∃ (fuel : Nat) (ld : Loader) (ok : Bool), fc32Dynload files libpath fuel cart = .returns (ld, ok) ∧ ld.LoadedOnce := by
  intro all
  obtain ⟨fuel, ld, ok, ran, -⟩ := all (fun _ => some (needing (List.replicate 64 97))) [] (importer [])
  have spins : loadNeeded (openLib (fun _ => some (needing (List.replicate 64 97))) []) fuel (start (importer [])) [97] =
      .spins := by
    cases fuel with
    | zero => rfl
    | succ fuel =>
      rw [loadNeeded, if_pos (by decide)]
      exact loadLib_needing (fun l member => absurd member List.not_mem_nil) rfl fun ld short => loadLib_endless short
  have needed : (importer []).cartNeeded = [[97]] := by decide
  rw [fc32Dynload, if_neg (by decide), needed] at ran
  simp only [visitAll, spins, Exec.spins_bind] at ran
  cases ran

end Loader
end Blyt
