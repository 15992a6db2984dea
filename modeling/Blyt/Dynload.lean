import Blyt.Lib.DepthFirst

namespace Blyt
open DepthFirst

structure Elf32Phdr where
  type : UInt32
  offset : UInt32
  vaddr : UInt32
  filesz : UInt32
  memsz : UInt32

structure Elf32Shdr where
  type : UInt32
  offset : UInt32
  size : UInt32
  link : UInt32
  entsize : UInt32

structure Elf32Sym where
  name : UInt32
  value : UInt32
  info : UInt8
  shndx : UInt16

structure Fc32Dyn where
  tag : UInt32
  val : UInt32

structure Fc32Rela where
  offset : UInt32
  info : UInt32
  addend : UInt32
  deriving DecidableEq

/-- An ELF file as the loader reads it: its program and section headers, and what is at an offset of
it, the entries up to `DT_NULL`, a symbol, a relocation, a string without its NUL. -/
structure ElfFile where
  phdrs : List Elf32Phdr
  shdrs : List Elf32Shdr
  dyns : Nat → List Fc32Dyn
  sym : Nat → Elf32Sym
  rela : Nat → Fc32Rela
  str : Nat → List UInt8

/-- `FC32_LIB_LOAD_ADDR`, `FC32_LIB_ALIGN`, `FC32_SYM_MAX` and `FC32_LIB_MAX`. -/
def fc32LibLoadAddr : UInt32 := 0x08000000
def fc32LibAlign : UInt32 := 0x1000
def fc32SymMax : Nat := 4096
def fc32LibMax : Nat := 8

def ptLoad : UInt32 := 1
def ptDynamic : UInt32 := 2
def shtRela : UInt32 := 4
def shtDynsym : UInt32 := 11
def dtNeeded : UInt32 := 1
def dtPltrelsz : UInt32 := 2
def dtStrtab : UInt32 := 5
def dtSymtab : UInt32 := 6
def dtRela : UInt32 := 7
def dtRelasz : UInt32 := 8
def dtSyment : UInt32 := 11
def dtJmprel : UInt32 := 23

/-- The relocation types that the loader tells apart. -/
inductive RelaType where
  | none
  | r32
  | relative
  | jumpSlot
  | globDat
  | unhandled
  deriving DecidableEq

namespace Fc32Rela

/-- `ELF32_R_TYPE`. -/
def type (r : Fc32Rela) : RelaType :=
  if r.info.toUInt8 = 0 then .none else if r.info.toUInt8 = 1 then .r32 else if r.info.toUInt8 = 3 then .relative
  else if r.info.toUInt8 = 5 then .jumpSlot else if r.info.toUInt8 = 19 then .globDat else .unhandled

/-- `ELF32_R_SYM`. -/
def symIndex (r : Fc32Rela) : UInt32 := r.info >>> 8

end Fc32Rela

/-- A defined symbol of binding `STB_GLOBAL` or `STB_WEAK` that has an address. -/
def Elf32Sym.exported (s : Elf32Sym) : Bool := s.shndx ≠ 0 && s.value ≠ 0 && (s.info >>> 4 = 1 || s.info >>> 4 = 2)

/-- An entry of `fc32_syms`, or the name and the address that one is made from. -/
structure Fc32Sym where
  name : List UInt8
  addr : UInt32
  deriving DecidableEq

/-- `fc32_sym_add`. The name is compared whole and stored cut to 63 bytes. -/
def fc32SymAdd (syms : List Fc32Sym) (s : Fc32Sym) : List Fc32Sym :=
  if fc32SymMax ≤ syms.length then syms else if syms.any (·.name == s.name) then syms
  else syms ++ [⟨s.name.take 63, s.addr⟩]

def fc32SymFind (syms : List Fc32Sym) (name : List UInt8) : UInt32 :=
  match syms.find? (·.name == name) with
  | some s => s.addr
  | none => 0

/-- The section that `dynsym_off`, `dynsym_sz`, `dynsym_ent` and `dynstr_off` describe. -/
structure Dynsym where
  off : UInt32
  size : UInt32
  ent : UInt32
  strOff : UInt32

def Dynsym.read (shdrs : List Elf32Shdr) (d : Dynsym) (sh : Elf32Shdr) : Dynsym :=
  if sh.type = shtDynsym then
    { off := sh.offset
      size := sh.size
      ent := if sh.entsize ≠ 0 then sh.entsize else d.ent
      strOff := match shdrs[sh.link.toNat]? with
        | some ss => ss.offset
        | none => d.strOff }
  else d

namespace ElfFile
variable (file : ElfFile)

/-- `fc32_vaddr_to_off`. -/
def vaddrToOff (vaddr : UInt32) : UInt32 :=
  match file.phdrs.find? fun ph => ph.type == ptLoad && ph.vaddr ≤ vaddr && vaddr < ph.vaddr + ph.filesz with
  | some ph => ph.offset + (vaddr - ph.vaddr)
  | none => 0

/-- `fc32_lib_extent`. -/
def extent (base : UInt32) : UInt32 :=
  (file.phdrs.filter (·.type == ptLoad)).foldl
    (fun top ph => if top < base + ph.vaddr + ph.memsz then base + ph.vaddr + ph.memsz else top) base

/-- The loop over the section headers of a library. -/
def dynsym : Dynsym := file.shdrs.foldl (.read file.shdrs) ⟨0, 0, 16, 0⟩

/-- The loop that hands symbols to `fc32_sym_add`: those of index 1 to `nsym - 1`. -/
def exports (symOff ent nsym strOff base : UInt32) : List Fc32Sym :=
  (List.range' 1 (nsym.toNat - 1)).filterMap fun si =>
    let sym := file.sym (symOff.toNat + si * ent.toNat)
    let name := file.str (strOff.toNat + sym.name.toNat)
    if sym.exported && name ≠ [] then some ⟨name, base + sym.value⟩ else none

/-- What `fc32_load_lib` exports for a library. -/
def libExports (base : UInt32) : List Fc32Sym :=
  if file.dynsym.off ≠ 0 ∧ file.dynsym.strOff ≠ 0 then
    file.exports file.dynsym.off file.dynsym.ent (file.dynsym.size / file.dynsym.ent) file.dynsym.strOff base
  else []

/-- The names in the `DT_NEEDED` entries of a library, from its first `PT_DYNAMIC`. -/
def libNeeded : List (List UInt8) :=
  match file.phdrs.find? (·.type == ptDynamic) with
  | none => []
  | some ph =>
    let dyn := file.dyns ph.offset.toNat
    let subStVaddr := match dyn.find? (·.tag == dtStrtab) with
      | some d => d.val
      | none => 0
    let subStOff := file.vaddrToOff subStVaddr
    (dyn.filter (·.tag == dtNeeded)).map fun d => file.str (subStOff.toNat + d.val.toNat)

/-- The relocations of a library: those of its `SHT_RELA` sections. -/
def libRelas : List Fc32Rela :=
  (file.shdrs.filter (·.type == shtRela)).flatMap fun sh =>
    let relaEnt := if sh.entsize ≠ 0 then sh.entsize else 12
    (List.range (sh.size / relaEnt).toNat).map fun ri => file.rela (sh.offset.toNat + ri * 12)

/-- The symbol of a relocation of a library, if it has one. -/
def libSym (r : Fc32Rela) : Option Elf32Sym :=
  if r.symIndex ≠ 0 ∧ file.dynsym.off ≠ 0 ∧ file.dynsym.strOff ≠ 0 then
    some (file.sym (file.dynsym.off.toNat + (r.symIndex * file.dynsym.ent).toNat)) else none

def libSymName (sym : Elf32Sym) : List UInt8 := file.str (file.dynsym.strOff.toNat + sym.name.toNat)

end ElfFile

/-- A slot of `fc32_loaded`, `fc32_loaded_base` and `fc32_loaded_data`. -/
structure Fc32Loaded where
  soname : List UInt8
  base : UInt32
  data : ElfFile

/-- A library whose segments were mapped, under the name it was asked for. -/
structure LibImage where
  soname : List UInt8
  base : UInt32
  data : ElfFile

/-- Which relocation a word was written for: one of the library in a slot, or of the cart's `DT_JMPREL`
or `DT_RELA`. -/
inductive RelaOf where
  | lib (slot : Nat) (r : Fc32Rela)
  | jmprel (r : Fc32Rela)
  | rela (r : Fc32Rela)
  deriving DecidableEq

/-- A call of `fc32_write32`. -/
structure Write32 where
  rela : RelaOf
  addr : UInt32
  val : UInt32
  deriving DecidableEq

/-- The loader's tables, with the libraries that were mapped, in order, and the words that were
written. -/
structure Loader where
  syms : List Fc32Sym
  loaded : List Fc32Loaded
  nextBase : UInt32
  images : List LibImage
  writes : List Write32

namespace Loader

def libLoaded (ld : Loader) (soname : List UInt8) : Bool := ld.loaded.any (·.soname == soname)

/-- `fc32_lib_register`. -/
def libRegister (ld : Loader) (soname : List UInt8) (base : UInt32) (data : ElfFile) : Loader :=
  if fc32LibMax ≤ ld.loaded.length then ld else { ld with loaded := ld.loaded ++ [⟨soname.take 63, base, data⟩] }

/-- `fc32_load_lib` up to its recursion, behind the look at the registry: the libraries it goes on
with. -/
def mapLib (openLib : List UInt8 → Option ElfFile) (ld : Loader) (soname : List UInt8) :
    Option (Loader × List (List UInt8)) :=
  match openLib soname with
  | none => none
  | some file =>
    let base := ld.nextBase
    let registered := ld.libRegister soname base file
    some ({ registered with
      images := ld.images ++ [⟨soname, base, file⟩]
      nextBase := (file.extent base + fc32LibAlign - 1) / fc32LibAlign * fc32LibAlign
      syms := (file.libExports base).foldl fc32SymAdd ld.syms }, file.libNeeded)

/-- `fc32_load_lib`, `fuel` calls deep. -/
def loadLib (openLib : List UInt8 → Option ElfFile) : Nat → Loader → List UInt8 → Exec (Loader × Bool) :=
  visit libLoaded (mapLib openLib)

/-- What `fc32_apply_lib_rela` takes for the address of a symbol. -/
def libSymAddr (syms : List Fc32Sym) (lib : Fc32Loaded) (sym : Elf32Sym) : UInt32 :=
  let sv := fc32SymFind syms (lib.data.libSymName sym)
  if sv = 0 ∧ sym.value ≠ 0 then lib.base + sym.value else sv

/-- The body of the loop of `fc32_apply_lib_rela`. -/
def applyLibRela (syms : List Fc32Sym) (slot : Nat) (lib : Fc32Loaded) (r : Fc32Rela) : Option Write32 :=
  let goff := lib.base + r.offset
  match r.type with
  | .relative => some ⟨.lib slot r, goff, lib.base + r.addend⟩
  | .r32 =>
    match lib.data.libSym r with
    | some sym => some ⟨.lib slot r, goff, libSymAddr syms lib sym + r.addend⟩
    | none => some ⟨.lib slot r, goff, r.addend⟩
  | .jumpSlot => (lib.data.libSym r).map fun sym => ⟨.lib slot r, goff, libSymAddr syms lib sym⟩
  | .globDat => (lib.data.libSym r).map fun sym => ⟨.lib slot r, goff, libSymAddr syms lib sym + r.addend⟩
  | .none | .unhandled => none

/-- `fc32_relocate_libs`. -/
def relocateLibs (ld : Loader) : List Write32 :=
  ld.loaded.zipIdx.flatMap fun (lib, slot) => lib.data.libRelas.filterMap (applyLibRela ld.syms slot lib)

end Loader

/-- What `fc32_dynload` reads from the cart's dynamic section. -/
structure CartDynamic where
  strtab : UInt32
  symtab : UInt32
  jmprel : UInt32
  jmprelSz : UInt32
  rela : UInt32
  relaSz : UInt32
  syment : UInt32

def CartDynamic.read (c : CartDynamic) (d : Fc32Dyn) : CartDynamic :=
  if d.tag = dtStrtab then { c with strtab := d.val } else if d.tag = dtSymtab then { c with symtab := d.val }
  else if d.tag = dtJmprel then { c with jmprel := d.val } else if d.tag = dtPltrelsz then { c with jmprelSz := d.val }
  else if d.tag = dtRela then { c with rela := d.val } else if d.tag = dtRelasz then { c with relaSz := d.val }
  else if d.tag = dtSyment then { c with syment := d.val } else c

namespace ElfFile
variable (cart : ElfFile)

/-- `dyn_fileoff`. -/
def dynFileoff : UInt32 :=
  match cart.phdrs.find? (·.type == ptDynamic) with
  | some ph => ph.offset
  | none => 0

def cartDyns : List Fc32Dyn := cart.dyns cart.dynFileoff.toNat

def cartDynamic : CartDynamic := cart.cartDyns.foldl .read ⟨0, 0, 0, 0, 0, 0, 16⟩

def cartStr (name : UInt32) : List UInt8 :=
  cart.str ((cart.vaddrToOff cart.cartDynamic.strtab).toNat + name.toNat)

/-- Step 1: the exports of the cart, from its first `SHT_DYNSYM` section. A cart is not moved. -/
def cartExports : List Fc32Sym :=
  match cart.shdrs.find? (·.type == shtDynsym) with
  | none => []
  | some sh =>
    let ent := if sh.entsize ≠ 0 then sh.entsize else cart.cartDynamic.syment
    cart.exports sh.offset ent (sh.size / ent) (cart.vaddrToOff cart.cartDynamic.strtab) 0

/-- The `DT_NEEDED` names of the cart that fit `needed`. -/
def cartNeeded : List (List UInt8) :=
  ((cart.cartDyns.filter (·.tag == dtNeeded)).take fc32LibMax).map fun d => cart.cartStr d.val

/-- `cart_dsym[rsym]`, if the cart has a symbol table and the relocation a symbol. -/
def cartSym (r : Fc32Rela) : Option Elf32Sym :=
  let symtabOff := cart.vaddrToOff cart.cartDynamic.symtab
  if r.symIndex ≠ 0 ∧ symtabOff ≠ 0 then
    some (cart.sym (symtabOff.toNat + (r.symIndex * cart.cartDynamic.syment).toNat)) else none

/-- A table of relocations at an address of the cart. -/
def cartTable (vaddr size : UInt32) : List Fc32Rela :=
  let off := cart.vaddrToOff vaddr
  if vaddr ≠ 0 ∧ size ≠ 0 ∧ cart.vaddrToOff cart.cartDynamic.symtab ≠ 0 ∧ off ≠ 0 then
    (List.range (size / 12).toNat).map fun ri => cart.rela (off.toNat + ri * 12) else []

def cartJmprel : List Fc32Rela := cart.cartTable cart.cartDynamic.jmprel cart.cartDynamic.jmprelSz

def cartRela : List Fc32Rela := cart.cartTable cart.cartDynamic.rela cart.cartDynamic.relaSz

/-- Step 3, for one relocation. -/
def applyJmprel (syms : List Fc32Sym) (r : Fc32Rela) : Option Write32 :=
  if r.type = .jumpSlot ∨ r.type = .globDat then
    match cart.cartSym r with
    | none => none
    | some sym =>
      let sa := fc32SymFind syms (cart.cartStr sym.name)
      if sa ≠ 0 then some ⟨.jmprel r, r.offset, sa⟩ else none
  else none

/-- Step 4, for one relocation. -/
def applyRela (syms : List Fc32Sym) (r : Fc32Rela) : Option Write32 :=
  match r.type with
  | .globDat | .jumpSlot =>
    match cart.cartSym r with
    | none => none
    | some sym =>
      let sa := fc32SymFind syms (cart.cartStr sym.name)
      if sa ≠ 0 then some ⟨.rela r, r.offset, sa + r.addend⟩ else none
  | .r32 =>
    match cart.cartSym r with
    | none => some ⟨.rela r, r.offset, r.addend⟩
    | some sym =>
      let sa := fc32SymFind syms (cart.cartStr sym.name)
      some ⟨.rela r, r.offset, (if sa = 0 then sym.value else sa) + r.addend⟩
  | .relative => some ⟨.rela r, r.offset, r.addend⟩
  | .none | .unhandled => none

end ElfFile

namespace Loader

def empty : Loader := ⟨[], [], fc32LibLoadAddr, [], []⟩

/-- The tables before the first library. -/
def start (cart : ElfFile) : Loader := { empty with syms := cart.cartExports.foldl fc32SymAdd [] }

/-- Step 2 for one of the names in `needed`: `strncpy` leaves a name of 63 bytes or more without its
NUL, and what is behind it is undefined. -/
def loadNeeded (openLib : List UInt8 → Option ElfFile) (fuel : Nat) (ld : Loader) (soname : List UInt8) :
    Exec (Loader × Bool) :=
  if soname.length < 63 then loadLib openLib fuel ld soname else .outOfBounds

/-- `fc32_dynload` behind the loading of the libraries. -/
def relocate (cart : ElfFile) (ld : Loader) : Loader :=
  { ld with writes := ld.relocateLibs ++ cart.cartJmprel.filterMap (cart.applyJmprel ld.syms) ++
    cart.cartRela.filterMap (cart.applyRela ld.syms) }

end Loader

/-- The file that `fc32_load_lib` opens and reads. -/
def openLib (files : List UInt8 → Option ElfFile) (libpath soname : List UInt8) : Option ElfFile :=
  files ((libpath ++ 47 :: soname).take 511)

/-- `fc32_dynload`, its recursion `fuel` calls deep. A cart without a dynamic section is left as it is. -/
def fc32Dynload (files : List UInt8 → Option ElfFile) (libpath : List UInt8) (fuel : Nat) (cart : ElfFile) :
    Exec (Loader × Bool) := do
  if cart.dynFileoff = 0 then return (.empty, true)
  let (ld, ok) ← visitAll (Loader.loadNeeded (openLib files libpath) fuel) (.start cart) cart.cartNeeded
  if ok then return (ld.relocate cart, true) else return (ld, false)

end Blyt
