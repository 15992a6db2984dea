import Blyt.Dynload
import Blyt.RuntimeTracked

namespace Blyt
open DepthFirst

/-- A relocation against a name: where it is, what its type adds to the address, and what the loader
takes for the address if it finds none; without that it writes nothing. -/
structure Reference where
  rela : RelaOf
  addr : UInt32
  name : List UInt8
  addend : UInt32
  own : Option UInt32
  deriving DecidableEq

/-- The types whose relocations are against a name. -/
def RelaType.named (t : RelaType) : Bool := t = .r32 || t = .jumpSlot || t = .globDat

/-- The references of a library, by the place in which it was loaded. -/
def LibImage.references (i : LibImage) (slot : Nat) : List Reference :=
  i.data.libRelas.filterMap fun r =>
    if r.type.named then
      (i.data.libSym r).map fun sym =>
        { rela := .lib slot r
          addr := i.base + r.offset
          name := i.data.libSymName sym
          addend := if r.type = .jumpSlot then 0 else r.addend
          own := some (if sym.value ≠ 0 then i.base + sym.value else 0) }
    else none

namespace ElfFile
variable (cart : ElfFile)

def jmprelReferences : List Reference :=
  cart.cartJmprel.filterMap fun r =>
    if r.type.named then
      (cart.cartSym r).map fun sym => ⟨.jmprel r, r.offset, cart.cartStr sym.name, if r.type = .r32 then r.addend else 0, none⟩
    else none

def relaReferences : List Reference :=
  cart.cartRela.filterMap fun r =>
    if r.type.named then
      (cart.cartSym r).map fun sym =>
        ⟨.rela r, r.offset, cart.cartStr sym.name, r.addend, if r.type = .r32 then some sym.value else none⟩
    else none

/-- The references of a cart; one without a dynamic section has none. -/
def cartReferences : List Reference :=
  if cart.dynFileoff = 0 then [] else cart.jmprelReferences ++ cart.relaReferences

end ElfFile

/-- The address of the first exporter. -/
def firstExport (exports : List Fc32Sym) (name : List UInt8) : Option UInt32 :=
  (exports.find? (·.name == name)).map Fc32Sym.addr

namespace Loader

/-- The exports of the cart and the loaded libraries, in search order. -/
def exported (cart : ElfFile) (ld : Loader) : List Fc32Sym :=
  cart.cartExports ++ ld.images.flatMap fun i => i.data.libExports i.base

def references (cart : ElfFile) (ld : Loader) : List Reference :=
  cart.cartReferences ++ ld.images.zipIdx.flatMap fun (i, slot) => i.references slot

/-- The word of the reference was written with an address and what its type adds. -/
def Wrote (ld : Loader) (ref : Reference) (addr : UInt32) : Prop :=
  ⟨ref.rela, ref.addr, addr + ref.addend⟩ ∈ ld.writes

instance (ld : Loader) (ref : Reference) (addr : UInt32) : Decidable (ld.Wrote ref addr) :=
  inferInstanceAs (Decidable (_ ∈ _))

/-- Every reference to an exported name was written with the address of the first exporter. -/
def Resolved (cart : ElfFile) (ld : Loader) : Prop :=
  ∀ ref ∈ ld.references cart, ∀ addr, firstExport (ld.exported cart) ref.name = some addr → ld.Wrote ref addr

end Loader

/-- How many of the names are new, each of them known by its first 63 bytes from then on; a longer one is new every
time. -/
def newNames (known : List (List UInt8)) : List (List UInt8) → Nat
  | [] => 0
  | name :: names =>
    if known.any (· == name) then newNames known names else newNames (known ++ [name.take 63]) names + 1

/-- Of the exports whose names cut to 63 bytes are the name, the first has the address, and fewer new names than the table
has entries come before it. -/
def StoredFirst (exports : List Fc32Sym) (name : List UInt8) (addr : UInt32) : Prop :=
  ∃ before s after, exports = before ++ s :: after ∧ s.name.take 63 = name ∧ (∀ b ∈ before, b.name.take 63 ≠ name) ∧
    newNames [] (before.map Fc32Sym.name) < fc32SymMax ∧ s.addr = addr

/-- The loader relocates what the reference is in: the cart, an `R_RISCV_32` of its `DT_JMPREL` apart, or
one of the libraries that the registry has room for. -/
def RelaOf.relocated : RelaOf → Prop
  | lib slot _ => slot < fc32LibMax
  | jmprel r => r.type ≠ .r32
  | rela _ => True

/-- The table holds the address under the name, or holds none and the reference's own symbol has it. -/
def Reference.Held (ref : Reference) (exports : List Fc32Sym) (addr : UInt32) : Prop :=
  ref.rela.relocated ∧ (addr ≠ 0 ∧ StoredFirst exports ref.name addr ∨
    (∀ other, other ≠ 0 → ¬StoredFirst exports ref.name other) ∧ ref.own = some addr)

section Table
variable {syms : List Fc32Sym} {s e : Fc32Sym} {name : List UInt8} {exports : List Fc32Sym}

theorem fc32SymAdd_cases (syms : List Fc32Sym) (s : Fc32Sym) :
    (fc32SymMax ≤ syms.length ∧ fc32SymAdd syms s = syms) ∨
      (∃ t ∈ syms, t.name = s.name) ∧ fc32SymAdd syms s = syms ∨
        syms.length < fc32SymMax ∧ fc32SymAdd syms s = syms ++ [⟨s.name.take 63, s.addr⟩] := by
  rw [fc32SymAdd]
  by_cases full : fc32SymMax ≤ syms.length
  · exact .inl ⟨full, if_pos full⟩
  · rw [if_neg full]
    by_cases known : (syms.any (·.name == s.name)) = true
    · obtain ⟨t, member, same⟩ := List.any_eq_true.mp known
      exact .inr (.inl ⟨⟨t, member, by simpa using same⟩, if_pos known⟩)
    · exact .inr (.inr ⟨Nat.not_le.mp full, if_neg known⟩)

theorem fc32SymAdd_grows (syms : List Fc32Sym) (s : Fc32Sym) : ∃ more, fc32SymAdd syms s = syms ++ more := by
  rcases fc32SymAdd_cases syms s with ⟨-, same⟩ | ⟨-, same⟩ | ⟨-, added⟩
  · exact ⟨[], by rw [same, List.append_nil]⟩
  · exact ⟨[], by rw [same, List.append_nil]⟩
  · exact ⟨_, added⟩

/-- The table only grows. -/
theorem foldl_fc32SymAdd_grows (exports syms : List Fc32Sym) : ∃ more, exports.foldl fc32SymAdd syms = syms ++ more := by
  induction exports generalizing syms with
  | nil => exact ⟨[], (List.append_nil syms).symm⟩
  | cons s exports ih =>
    obtain ⟨first, added⟩ := fc32SymAdd_grows syms s
    obtain ⟨rest, later⟩ := ih (fc32SymAdd syms s)
    refine ⟨first ++ rest, ?_⟩
    rw [List.foldl_cons, later, added, List.append_assoc]

theorem length_le_foldl_fc32SymAdd (exports syms : List Fc32Sym) : syms.length ≤ (exports.foldl fc32SymAdd syms).length := by
  obtain ⟨more, grown⟩ := foldl_fc32SymAdd_grows exports syms
  rw [grown, List.length_append]
  exact Nat.le_add_right _ _

/-- The table has room as long as the new names do not fill it. -/
theorem foldl_fc32SymAdd_room (exports syms : List Fc32Sym) : (exports.foldl fc32SymAdd syms).length < fc32SymMax ↔
    syms.length + newNames (syms.map Fc32Sym.name) (exports.map Fc32Sym.name) < fc32SymMax := by
  induction exports generalizing syms with
  | nil => rfl
  | cons e exports ih =>
    rw [List.foldl_cons, List.map_cons, newNames]
    by_cases full : fc32SymMax ≤ syms.length
    · have grown := length_le_foldl_fc32SymAdd exports (fc32SymAdd syms e)
      rw [fc32SymAdd, if_pos full] at grown ⊢
      exact iff_of_false (by omega) (by omega)
    · rw [ih, fc32SymAdd, if_neg full]
      have known : (syms.map Fc32Sym.name).any (· == e.name) = syms.any (·.name == e.name) := List.any_map
      rw [known]
      split
      · rfl
      · rw [List.length_append, List.map_append, List.length_singleton, List.map_singleton, Nat.add_right_comm, Nat.add_assoc]

theorem mem_fc32SymAdd {t : Fc32Sym} (member : t ∈ fc32SymAdd syms e) :
    t ∈ syms ∨ syms.length < fc32SymMax ∧ t = ⟨e.name.take 63, e.addr⟩ := by
  rcases fc32SymAdd_cases syms e with ⟨-, same⟩ | ⟨-, same⟩ | ⟨room, added⟩
  · exact .inl (same ▸ member)
  · exact .inl (same ▸ member)
  · rw [added, List.mem_append, List.mem_singleton] at member
    exact member.imp_right fun new => ⟨room, new⟩

theorem find_lacking (lacks : ∀ t ∈ syms, t.name ≠ name) : syms.find? (·.name == name) = none :=
  List.find?_eq_none.mpr fun t member => by simpa using lacks t member

/-- A name that the table does not have is added to it, as long as there is room. -/
theorem fc32SymAdd_lacking (short : ∀ t ∈ syms, t.name.length ≤ 63) (lacks : ∀ t ∈ syms, t.name ≠ e.name.take 63)
    (room : syms.length < fc32SymMax) : fc32SymAdd syms e = syms ++ [⟨e.name.take 63, e.addr⟩] := by
  rcases fc32SymAdd_cases syms e with ⟨full, -⟩ | ⟨⟨t, member, same⟩, -⟩ | ⟨-, added⟩
  · exact absurd room (Nat.not_lt.mpr full)
  · have whole : e.name.take 63 = t.name := by rw [← same, List.take_of_length_le (short t member)]
    exact absurd whole.symm (lacks t member)
  · exact added

/-- What the table finds under a name it did not have: the first export that is stored under it. -/
theorem find_foldl_fc32SymAdd {addr : UInt32} (short : ∀ t ∈ syms, t.name.length ≤ 63) (lacks : ∀ t ∈ syms, t.name ≠ name) :
    ((exports.foldl fc32SymAdd syms).find? (·.name == name)).map Fc32Sym.addr = some addr ↔
      ∃ before s after, exports = before ++ s :: after ∧ s.name.take 63 = name ∧
        (∀ b ∈ before, b.name.take 63 ≠ name) ∧ (before.foldl fc32SymAdd syms).length < fc32SymMax ∧ s.addr = addr := by
  induction exports generalizing syms with
  | nil =>
    rw [List.foldl_nil, find_lacking lacks]
    simp
  | cons e exports ih =>
    rw [List.foldl_cons]
    by_cases here : e.name.take 63 = name ∧ syms.length < fc32SymMax
    · obtain ⟨rfl, room⟩ := here
      obtain ⟨more, grown⟩ := foldl_fc32SymAdd_grows exports (fc32SymAdd syms e)
      have found : (exports.foldl fc32SymAdd (fc32SymAdd syms e)).find? (·.name == e.name.take 63) =
          some ⟨e.name.take 63, e.addr⟩ := by
        rw [grown, fc32SymAdd_lacking short lacks room, List.append_assoc, List.find?_append, find_lacking lacks]
        simp
      rw [found, Option.map_some, Option.some.injEq]
      constructor
      · intro same
        exact ⟨[], e, exports, rfl, rfl, nofun, room, same⟩
      · rintro ⟨before, s, after, split, -, none, -, same⟩
        cases before with
        | nil =>
          cases split
          exact same
        | cons b before =>
          cases split
          exact absurd rfl (none e List.mem_cons_self)
    · have lacks' : ∀ t ∈ fc32SymAdd syms e, t.name ≠ name := by
        intro t member same
        rcases mem_fc32SymAdd member with old | ⟨room, rfl⟩
        · exact lacks t old same
        · exact here ⟨same, room⟩
      have short' : ∀ t ∈ fc32SymAdd syms e, t.name.length ≤ 63 := by
        intro t member
        rcases mem_fc32SymAdd member with old | ⟨-, rfl⟩
        · exact short t old
        · exact List.length_take_le ..
      rw [ih short' lacks']
      constructor
      · rintro ⟨before, s, after, rfl, cut, none, room, same⟩
        refine ⟨e :: before, s, after, rfl, cut, fun b member => ?_, room, same⟩
        rcases List.mem_cons.mp member with rfl | later
        · have before' := length_le_foldl_fc32SymAdd (b :: before) syms
          exact fun cut' => here ⟨cut', Nat.lt_of_le_of_lt before' room⟩
        · exact none b later
      · rintro ⟨before, s, after, split, cut, none, room, same⟩
        cases before with
        | nil =>
          cases split
          exact absurd ⟨cut, room⟩ here
        | cons b before =>
          cases split
          exact ⟨before, s, after, rfl, cut, fun c member => none c (List.mem_cons_of_mem _ member), room, same⟩

theorem fc32SymFind_eq_iff {addr : UInt32} (nonNull : addr ≠ 0) :
    fc32SymFind (exports.foldl fc32SymAdd []) name = addr ↔ StoredFirst exports name addr := by
  have found : ((exports.foldl fc32SymAdd []).find? (·.name == name)).map Fc32Sym.addr = some addr ↔ _ :=
    find_foldl_fc32SymAdd (fun t member => absurd member List.not_mem_nil) fun t member => absurd member List.not_mem_nil
  simp only [foldl_fc32SymAdd_room, List.length_nil, Nat.zero_add, List.map_nil] at found
  rw [StoredFirst, ← found, fc32SymFind]
  cases (exports.foldl fc32SymAdd []).find? (·.name == name) with
  | none => exact iff_of_false (Ne.symm nonNull) nofun
  | some s => rw [Option.map_some, Option.some.injEq]

/-- What is taken for the address of a symbol that the table has, or has not. -/
theorem Reference.held_iff (ref : Reference) (addr : UInt32) :
    ref.Held exports addr ↔ ref.rela.relocated ∧
      (if fc32SymFind (exports.foldl fc32SymAdd []) ref.name = 0 then ref.own
        else some (fc32SymFind (exports.foldl fc32SymAdd []) ref.name)) = some addr := by
  refine and_congr_right fun _ => ?_
  by_cases missing : fc32SymFind (exports.foldl fc32SymAdd []) ref.name = 0
  · have none (other : UInt32) (nonNull : other ≠ 0) : ¬StoredFirst exports ref.name other := by
      rw [← fc32SymFind_eq_iff nonNull, missing]
      exact Ne.symm nonNull
    rw [if_pos missing]
    exact ⟨fun held => held.elim (fun has => absurd has.2 (none addr has.1)) And.right, fun own => .inr ⟨none, own⟩⟩
  · have has := (fc32SymFind_eq_iff missing).mp rfl
    rw [if_neg missing, Option.some.injEq]
    constructor
    · rintro (⟨nonNull, held⟩ | ⟨none, -⟩)
      · exact (fc32SymFind_eq_iff nonNull).mpr held
      · exact absurd has (none _ missing)
    · rintro rfl
      exact .inl ⟨missing, has⟩

end Table

namespace Loader
variable {cart : ElfFile} {ld ld' : Loader} {syms : List Fc32Sym} {addr : UInt32} {ref : Reference}

theorem applyLibRela_rela {slot : Nat} {lib : Fc32Loaded} {r : Fc32Rela} {w : Write32}
    (wrote : applyLibRela syms slot lib r = some w) : w.rela = .lib slot r := by
  rw [applyLibRela] at wrote
  cases type : r.type <;> simp only [type] at wrote
  case relative =>
    cases wrote
    rfl
  case r32 =>
    split at wrote <;> cases wrote <;> rfl
  case jumpSlot | globDat =>
    obtain ⟨sym, -, rfl⟩ := Option.map_eq_some_iff.mp wrote
    rfl
  all_goals cases wrote

theorem applyJmprel_rela {r : Fc32Rela} {w : Write32} (wrote : cart.applyJmprel syms r = some w) : w.rela = .jmprel r := by
  simp only [ElfFile.applyJmprel] at wrote
  repeat' split at wrote
  all_goals cases wrote
  rfl

theorem applyRela_rela {r : Fc32Rela} {w : Write32} (wrote : cart.applyRela syms r = some w) : w.rela = .rela r := by
  simp only [ElfFile.applyRela] at wrote
  repeat' split at wrote
  all_goals cases wrote
  all_goals rfl

/-- The table is made of the exports of the cart and the libraries, and the registry of the libraries
it had room for. -/
structure Recorded (cart : ElfFile) (ld : Loader) : Prop where
  syms : ld.syms = (ld.exported cart).foldl fc32SymAdd []
  loaded : ld.loaded = (ld.images.take fc32LibMax).map fun i => ⟨i.soname.take 63, i.base, i.data⟩

theorem start_recorded (cart : ElfFile) : (start cart).Recorded cart := by
  refine ⟨?_, rfl⟩
  simp only [exported, start, empty, List.flatMap_nil, List.append_nil]

theorem Recorded.mapLib {openLib : List UInt8 → Option ElfFile} {soname : List UInt8} {next : List (List UInt8)}
    (rec : ld.Recorded cart) (mapped : ld.mapLib openLib soname = some (ld', next)) : ld'.Recorded cart := by
  rw [Loader.mapLib] at mapped
  split at mapped
  · cases mapped
  · rename_i file _
    cases mapped
    refine ⟨?_, ?_⟩
    · simp only [exported, List.flatMap_append, List.flatMap_singleton, rec.syms, ← List.append_assoc, List.foldl_append]
    · simp only [libRegister, rec.loaded, List.length_map, List.length_take]
      split
      · rename_i full
        rw [List.take_append_of_le_length (by omega)]
        exact rec.loaded
      · rename_i room
        have all : (ld.images ++ [(⟨soname, ld.nextBase, file⟩ : LibImage)]).length ≤ fc32LibMax := by
          rw [List.length_append, List.length_singleton]
          omega
        rw [List.take_of_length_le all, List.map_append, List.take_of_length_le (by omega)]
        rfl

/-- What the walk over the libraries leaves, whether or not it found them all. -/
theorem visitAll_recorded {openLib : List UInt8 → Option ElfFile} {fuel : Nat} {needed : List (List UInt8)} {ok : Bool}
    (ran : visitAll (loadNeeded openLib fuel) (start cart) needed = .returns (ld, ok)) : ld.Recorded cart := by
  refine visitAll_keeps (fun ld soname ld' ok rec visited => ?_) (start_recorded cart) ran
  rw [loadNeeded] at visited
  split at visited
  · exact visit_keeps (fun ld soname ld' next rec _ mapped => rec.mapLib mapped) rec visited
  · cases visited

theorem dynload_returns_iff {files : List UInt8 → Option ElfFile} {libpath : List UInt8} {fuel : Nat} {ok : Bool}
    (dynamic : cart.dynFileoff ≠ 0) : fc32Dynload files libpath fuel cart = .returns (ld', ok) ↔
      ∃ ld, visitAll (loadNeeded (openLib files libpath) fuel) (start cart) cart.cartNeeded = .returns (ld, ok) ∧
        ld' = if ok then ld.relocate cart else ld := by
  rw [fc32Dynload, if_neg dynamic, Exec.bind_eq_returns]
  constructor
  · rintro ⟨⟨ld, good⟩, loaded, rest⟩
    refine ⟨ld, ?_⟩
    cases good with
    | true =>
      cases rest
      exact ⟨loaded, rfl⟩
    | false =>
      cases rest
      exact ⟨loaded, rfl⟩
  · rintro ⟨ld, loaded, rfl⟩
    refine ⟨(ld, ok), loaded, ?_⟩
    cases ok <;> rfl

theorem dynload_recorded {files : List UInt8 → Option ElfFile} {libpath : List UInt8} {fuel : Nat}
    (ran : fc32Dynload files libpath fuel cart = .returns (ld, true)) :
    (cart.dynFileoff = 0 ∧ ld = empty) ∨
      cart.dynFileoff ≠ 0 ∧ ∃ ld' : Loader, ld'.Recorded cart ∧ ld = ld'.relocate cart := by
  by_cases static : cart.dynFileoff = 0
  · rw [fc32Dynload, if_pos static] at ran
    cases ran
    exact .inl ⟨static, rfl⟩
  · obtain ⟨ld', loaded, rfl⟩ := (dynload_returns_iff static).mp ran
    exact .inr ⟨static, ld', visitAll_recorded loaded, rfl⟩

theorem libSymAddr_eq_iff {lib : Fc32Loaded} {sym : Elf32Sym} :
    libSymAddr syms lib sym = addr ↔
      (if fc32SymFind syms (lib.data.libSymName sym) = 0 then some (if sym.value ≠ 0 then lib.base + sym.value else 0)
        else some (fc32SymFind syms (lib.data.libSymName sym))) = some addr := by
  rw [libSymAddr]
  by_cases missing : fc32SymFind syms (lib.data.libSymName sym) = 0
  · rw [if_pos missing, Option.some.injEq]
    by_cases own : sym.value ≠ 0
    · rw [if_pos ⟨missing, own⟩, if_pos own]
    · rw [if_neg fun both => own both.2, if_neg own, missing]
  · rw [if_neg missing, Option.some.injEq, if_neg fun both => missing both.1]

/-- The registry has a library in its slot, if it had room for it. -/
theorem Recorded.slot {i : LibImage} {slot : Nat} {lib : Fc32Loaded} (rec : ld.Recorded cart)
    (at_ : ld.images[slot]? = some i) :
    (lib, slot) ∈ ld.loaded.zipIdx ↔ slot < fc32LibMax ∧ lib = ⟨i.soname.take 63, i.base, i.data⟩ := by
  rw [List.mem_zipIdx_iff_getElem?, rec.loaded, List.getElem?_map]
  by_cases room : slot < fc32LibMax
  · rw [List.getElem?_take_of_lt room, at_, Option.map_some, Option.some.injEq]
    exact ⟨fun same => ⟨room, same.symm⟩, fun both => both.2.symm⟩
  · rw [List.getElem?_eq_none (by simp; omega)]
    exact iff_of_false nofun fun both => room both.1

theorem mem_writes {w : Write32} : w ∈ (ld.relocate cart).writes ↔
    (∃ lib slot r, (lib, slot) ∈ ld.loaded.zipIdx ∧ r ∈ lib.data.libRelas ∧ applyLibRela ld.syms slot lib r = some w) ∨
      (∃ r ∈ cart.cartJmprel, cart.applyJmprel ld.syms r = some w) ∨
        ∃ r ∈ cart.cartRela, cart.applyRela ld.syms r = some w := by
  simp only [relocate, relocateLibs, List.mem_append, List.mem_flatMap, List.mem_filterMap, Prod.exists, or_assoc]
  refine or_congr_left ?_
  exact exists₂_congr fun lib slot => ⟨fun ⟨at_, r, member, wrote⟩ => ⟨r, at_, member, wrote⟩,
    fun ⟨r, at_, member, wrote⟩ => ⟨at_, r, member, wrote⟩⟩

/-- A reference comes from an entry of a type against a name that has its symbol. -/
theorem mem_named {α β γ : Type} {table : List α} {named : α → Bool} {symbol : α → Option β} {reference : α → β → γ}
    {ref : γ} (member : ref ∈ table.filterMap fun r => if named r then (symbol r).map (reference r) else none) :
    ∃ r sym, r ∈ table ∧ named r = true ∧ symbol r = some sym ∧ ref = reference r sym := by
  obtain ⟨r, inTable, found⟩ := List.mem_filterMap.mp member
  split at found
  · rename_i isNamed
    obtain ⟨sym, hasSym, same⟩ := Option.map_eq_some_iff.mp found
    exact ⟨r, sym, inTable, isNamed, hasSym, same.symm⟩
  · cases found

theorem lib_wrote_iff {i : LibImage} {slot : Nat} (rec : ld.Recorded cart) (at_ : ld.images[slot]? = some i)
    (member : ref ∈ i.references slot) : (ld.relocate cart).Wrote ref addr ↔ ref.Held (ld.exported cart) addr := by
  obtain ⟨r, sym, inLib, isNamed, hasSym, rfl⟩ := mem_named member
  have word : applyLibRela ld.syms slot ⟨i.soname.take 63, i.base, i.data⟩ r = some ⟨.lib slot r, i.base + r.offset,
      libSymAddr ld.syms ⟨i.soname.take 63, i.base, i.data⟩ sym + if r.type = .jumpSlot then 0 else r.addend⟩ := by
    rw [applyLibRela]
    cases type : r.type <;> simp [type, RelaType.named] at isNamed <;> simp [hasSym]
  rw [Reference.held_iff, ← rec.syms, Wrote, mem_writes]
  constructor
  · rintro (⟨lib, k, r', inSlot, -, wrote⟩ | ⟨r', -, wrote⟩ | ⟨r', -, wrote⟩)
    · cases applyLibRela_rela wrote
      obtain ⟨room, rfl⟩ := (rec.slot at_).mp inSlot
      rw [word, Option.some.injEq, Write32.mk.injEq] at wrote
      exact ⟨room, libSymAddr_eq_iff.mp ((UInt32.add_left_inj _).mp wrote.2.2)⟩
    · cases applyJmprel_rela wrote
    · cases applyRela_rela wrote
  · rintro ⟨room, found⟩
    refine .inl ⟨_, slot, r, (rec.slot at_).mpr ⟨room, rfl⟩, inLib, ?_⟩
    rw [word, libSymAddr_eq_iff.mpr found]

theorem jmprel_wrote_iff (rec : ld.Recorded cart) (member : ref ∈ cart.jmprelReferences) :
    (ld.relocate cart).Wrote ref addr ↔ ref.Held (ld.exported cart) addr := by
  obtain ⟨r, sym, inTable, isNamed, hasSym, rfl⟩ := mem_named member
  have word (w : Write32) : cart.applyJmprel ld.syms r = some w ↔ r.type ≠ .r32 ∧
      fc32SymFind ld.syms (cart.cartStr sym.name) ≠ 0 ∧
        w = ⟨.jmprel r, r.offset, fc32SymFind ld.syms (cart.cartStr sym.name)⟩ := by
    rw [ElfFile.applyJmprel]
    cases type : r.type <;> simp [type, RelaType.named] at isNamed <;> simp [hasSym, eq_comm]
  rw [Reference.held_iff, ← rec.syms, Wrote, mem_writes]
  constructor
  · rintro (⟨lib, k, r', -, -, wrote⟩ | ⟨r', -, wrote⟩ | ⟨r', -, wrote⟩)
    · cases applyLibRela_rela wrote
    · cases applyJmprel_rela wrote
      obtain ⟨slot, found, same⟩ := (word _).mp wrote
      rw [Write32.mk.injEq, if_neg slot, UInt32.add_zero] at same
      exact ⟨slot, by rw [if_neg found, same.2.2]⟩
    · cases applyRela_rela wrote
  · rintro ⟨slot, found⟩
    have found : (if fc32SymFind ld.syms (cart.cartStr sym.name) = 0 then none
        else some (fc32SymFind ld.syms (cart.cartStr sym.name))) = some addr := found
    have nonzero : fc32SymFind ld.syms (cart.cartStr sym.name) ≠ 0 := by
      intro missing
      rw [if_pos missing] at found
      cases found
    rw [if_neg nonzero, Option.some.injEq] at found
    exact .inr (.inl ⟨r, inTable, (word _).mpr ⟨slot, nonzero, by rw [if_neg slot, UInt32.add_zero, found]⟩⟩)

theorem rela_wrote_iff (rec : ld.Recorded cart) (member : ref ∈ cart.relaReferences) :
    (ld.relocate cart).Wrote ref addr ↔ ref.Held (ld.exported cart) addr := by
  obtain ⟨r, sym, inTable, isNamed, hasSym, rfl⟩ := mem_named member
  have word : cart.applyRela ld.syms r =
      (if fc32SymFind ld.syms (cart.cartStr sym.name) = 0 then if r.type = .r32 then some sym.value else none
        else some (fc32SymFind ld.syms (cart.cartStr sym.name))).map fun sa => ⟨.rela r, r.offset, sa + r.addend⟩ := by
    rw [ElfFile.applyRela]
    cases type : r.type <;> simp [type, RelaType.named] at isNamed <;> simp only [hasSym] <;> split <;> simp_all
  rw [Reference.held_iff, ← rec.syms, Wrote, mem_writes]
  constructor
  · rintro (⟨lib, k, r', -, -, wrote⟩ | ⟨r', -, wrote⟩ | ⟨r', -, wrote⟩)
    · cases applyLibRela_rela wrote
    · cases applyJmprel_rela wrote
    · cases applyRela_rela wrote
      rw [word, Option.map_eq_some_iff] at wrote
      obtain ⟨sa, found, same⟩ := wrote
      rw [Write32.mk.injEq] at same
      exact ⟨trivial, by rw [found, (UInt32.add_left_inj _).mp same.2.2]⟩
  · rintro ⟨-, found⟩
    exact .inr (.inr ⟨r, inTable, by rw [word, found]; rfl⟩)

/-- Every reference to an exported name is written with the address of the first exporter, exactly if the
table holds that for each. -/
theorem dynload_resolved_iff {files : List UInt8 → Option ElfFile} {libpath : List UInt8} {fuel : Nat}
    (ran : fc32Dynload files libpath fuel cart = .returns (ld, true)) :
    ld.Resolved cart ↔ ∀ ref ∈ ld.references cart, ∀ addr, firstExport (ld.exported cart) ref.name = some addr →
      ref.Held (ld.exported cart) addr := by
  rcases dynload_recorded ran with ⟨static, rfl⟩ | ⟨dynamic, ld', rec, rfl⟩
  · have none : empty.references cart = [] := by
      rw [references, ElfFile.cartReferences, if_pos static]
      rfl
    rw [Resolved, none]
    exact iff_of_true nofun nofun
  · refine forall₂_congr fun ref member => forall₂_congr fun addr _ => ?_
    rw [references, ElfFile.cartReferences, if_neg dynamic, List.mem_append, List.mem_append, List.mem_flatMap] at member
    rcases member with (inJmprel | inRela) | ⟨⟨i, slot⟩, at_, inLib⟩
    · exact jmprel_wrote_iff rec inJmprel
    · exact rela_wrote_iff rec inRela
    · exact lib_wrote_iff rec (List.mem_zipIdx_iff_getElem?.mp at_) inLib

/-- A library that exports one symbol. -/
def exporter (name : List UInt8) : ElfFile where
  phdrs := [⟨ptLoad, 0, 0, 0x1000, 0x1000⟩]
  shdrs := [⟨shtDynsym, 0x300, 32, 1, 16⟩, ⟨3, 0x200, 0x100, 0, 0⟩]
  dyns _ := []
  sym off := if off = 0x310 then ⟨1, 0x500, 0x12, 7⟩ else ⟨0, 0, 0, 0⟩
  rela _ := ⟨0, 0, 0⟩
  str off := if off = 0x201 then name else []

/-- A cart that needs the library `a` and has a slot for one symbol. -/
def importer (name : List UInt8) : ElfFile where
  phdrs := [⟨ptLoad, 0, 0x10000, 0x1000, 0x1000⟩, ⟨ptDynamic, 0x100, 0x10100, 48, 48⟩]
  shdrs := []
  dyns _ := [⟨dtNeeded, 1⟩, ⟨dtStrtab, 0x10200⟩, ⟨dtSymtab, 0x10300⟩, ⟨dtJmprel, 0x10400⟩, ⟨dtPltrelsz, 12⟩]
  sym off := if off = 0x310 then ⟨3, 0, 0x12, 0⟩ else ⟨0, 0, 0, 0⟩
  rela _ := ⟨0x10800, 0x105, 0⟩
  str off := if off = 0x201 then [97] else if off = 0x203 then name else []

theorem dynload_resolved_import : ∃ ld : Loader,
    fc32Dynload (fun _ => some (exporter (ascii "fc_print"))) [] 2 (importer (ascii "fc_print")) = .returns (ld, true) ∧
      (ld.Resolved (importer (ascii "fc_print")) ↔
        ∀ ref ∈ ld.references (importer (ascii "fc_print")), ∀ addr,
          firstExport (ld.exported (importer (ascii "fc_print"))) ref.name = some addr →
            ref.Held (ld.exported (importer (ascii "fc_print"))) addr) :=
  ⟨_, rfl, dynload_resolved_iff (show fc32Dynload (fun _ => some (exporter (ascii "fc_print"))) [] 2
    (importer (ascii "fc_print")) = .returns (_, true) from rfl)⟩

/-- A name of 64 bytes is stored without its last and never found. -/
theorem dynload_unresolved : ¬∀ (files : List UInt8 → Option ElfFile) (libpath : List UInt8) (fuel : Nat) (cart : ElfFile)
    (ld : Loader), fc32Dynload files libpath fuel cart = .returns (ld, true) → ld.Resolved cart := by
  intro all
  have resolved := all (fun _ => some (exporter (List.replicate 64 97))) [] 2 (importer (List.replicate 64 97)) _ rfl
  have wrote := resolved ⟨.jmprel ⟨0x10800, 0x105, 0⟩, 0x10800, List.replicate 64 97, 0, none⟩ (by decide) 0x08000500 (by decide)
  exact absurd wrote (by decide)

end Loader
end Blyt
