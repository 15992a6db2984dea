import Mathlib.Data.List.Nodup
import Blyt.Lib.Packed
import Blyt.Lib.Runs

namespace Blyt
namespace HybridExports
open Runs

def maxTrampolines : Nat := 32

/-- `lua_export_entry_t`. -/
structure LuaExportEntry where
  module : Vector UInt8 32
  name : Vector UInt8 32
  symAddr : UInt32
  argTypes : Vector UInt8 4
  retType : UInt8
  pad : Vector UInt8 7

/-- The C string that starts some bytes. -/
def cStr (bytes : List UInt8) : List UInt8 := bytes.takeWhile (· ≠ 0)

def LuaExportEntry.moduleName (e : LuaExportEntry) : List UInt8 := cStr e.module.toList

def LuaExportEntry.functionName (e : LuaExportEntry) : List UInt8 := cStr e.name.toList

/-- The bytes of an entry from its `name` on. -/
def LuaExportEntry.fromName (e : LuaExportEntry) : List UInt8 :=
  e.name.toList ++ Packed.leBytes 4 e.symAddr.toNat ++ e.argTypes.toList ++ [e.retType] ++ e.pad.toList

def LuaExportEntry.bytes (e : LuaExportEntry) : List UInt8 := e.module.toList ++ e.fromName

/-- `trampoline_t`; the two arrays by the C strings in them. -/
structure Trampoline where
  module : List UInt8
  name : List UInt8
  symAddr : UInt32
  argTypes : Vector UInt8 4
  retType : UInt8

/-- `strncpy(dst, src, 31)` into 32 zeroed bytes. -/
def strncpy31 (src : List UInt8) : List UInt8 := (cStr src).take 31

/-- A symbol, its name being the C string in the string table. -/
structure ElfSym where
  name : List UInt8
  value : UInt32
  info : UInt8

structure ElfSection where
  type : UInt32
  symbols : List ElfSym

/-- `elf_sym_addr`. -/
def elfSymAddr (sections : List ElfSection) (symname : List UInt8) : UInt32 :=
  match ((sections.filter fun s => s.type = 2).flatMap ElfSection.symbols).find? fun s =>
      s.value ≠ 0 ∧ s.info &&& 0xf = 2 ∧ s.name = symname with
  | some s => s.value
  | none => 0

/-- Step 3 of `blyt_hybrid_init`: `s_trampolines` up to `s_ntramp`. A name without a NUL goes on
in the bytes behind it when the symbol is looked up. -/
def registerEntries (sections : List ElfSection) : List LuaExportEntry → List Trampoline → List Trampoline
  | [], trampolines => trampolines
  | e :: rest, trampolines =>
    if trampolines.length ≥ maxTrampolines then trampolines
    else if e.symAddr = 0 ∧ e.module[0] = 0 then trampolines
    else if e.symAddr = 0 then registerEntries sections rest trampolines
    else
      let addr := elfSymAddr sections (cStr (e.fromName ++ rest.flatMap LuaExportEntry.bytes))
      registerEntries sections rest (trampolines ++ [{
        module := strncpy31 e.module.toList
        name := strncpy31 e.name.toList
        symAddr := if addr = 0 then e.symAddr else addr
        argTypes := e.argTypes
        retType := e.retType }])

/-- A `lua_cfn_t`: `trampoline_N`, or NULL. -/
inductive LuaCFn where
  | trampoline (n : Fin 16)
  | null
  deriving DecidableEq

/-- The `tidx` with which the function performs `trampoline_call`. -/
def LuaCFn.tidx : LuaCFn → Option Nat
  | trampoline n => some n
  | null => none

/-- `s_tramp_fns[j]`, with initializers for 16 of the 32 elements. -/
def sTrampFns (j : Nat) : LuaCFn := if inside : j < 16 then .trampoline ⟨j, inside⟩ else .null

abbrev Fields := List UInt8 → Option LuaCFn

/-- A value in `_LOADED`: a library, or a table that `blyt_hybrid_init` made. -/
inductive LoadedModule where
  | library
  | table (fields : Fields)

abbrev Loaded := List UInt8 → Option LoadedModule

/-- The inner loop of step 4, from trampoline `j` on. -/
def setFields : Nat → List Trampoline → Fields → Fields
  | _, [], fields => fields
  | j, tr :: trs, fields => setFields (j + 1) trs (Function.update fields tr.name (some (sTrampFns j)))

/-- Step 4 of `blyt_hybrid_init`, from trampoline `m` on. -/
def registerModules (m : Nat) (trs : List Trampoline) (loaded : Loaded) : Loaded :=
  match trs with
  | [] => loaded
  | tr :: trs =>
    let same := trs.takeWhile fun t => t.module = tr.module
    registerModules (m + 1 + same.length) (trs.dropWhile fun t => t.module = tr.module)
      (Function.update loaded tr.module (some (.table (setFields m (tr :: same) fun _ => none))))
  termination_by trs.length
  decreasing_by
    have le := (List.dropWhile_sublist (fun t : Trampoline => decide (t.module = tr.module)) (l := trs)).length_le
    rw [List.length_cons]
    omega

/-- What `blyt_hybrid_init` leaves in `_LOADED`, of a section with these entries. -/
def blytHybridInit (sections : List ElfSection) (table : List LuaExportEntry) (loaded : Loaded) : Loaded :=
  registerModules 0 (registerEntries sections table []) loaded

/-- The entry's own trampoline is what its module's table in `_LOADED` holds under its name. -/
def Registered (loaded : Loaded) (e : LuaExportEntry) (i : Nat) : Prop :=
  ∃ fields fn, loaded e.moduleName = some (.table fields) ∧ fields e.functionName = some fn ∧ fn.tidx = some i

/-- `_LOADED` as the standard libraries leave it. -/
def libraries (names : List (List UInt8)) : Loaded := fun name => if name ∈ names then some .library else none

section
variable {m j : Nat} {trs : List Trampoline} {fields : Fields} {loaded : Loaded}

theorem setFields_of_not_mem {name : List UInt8} (other : name ∉ trs.map Trampoline.name) :
    setFields j trs fields name = fields name := by
  induction trs generalizing j fields with
  | nil => rfl
  | cons tr trs ih =>
    rw [List.map_cons, List.mem_cons, not_or] at other
    rw [setFields, ih other.2, Function.update_of_ne other.1]

theorem setFields_getElem {i : Nat} {t : Trampoline} (distinct : (trs.map Trampoline.name).Nodup)
    (here : trs[i]? = some t) : setFields j trs fields t.name = some (sTrampFns (j + i)) := by
  induction trs generalizing i j fields with
  | nil => cases here
  | cons tr trs ih =>
    rw [List.map_cons, List.nodup_cons] at distinct
    cases i with
    | zero =>
      cases here
      rw [setFields, setFields_of_not_mem distinct.1, Function.update_self]
      rfl
    | succ i =>
      rw [setFields, ih distinct.2 here, Nat.add_right_comm]
      rfl

/-- Whatever a field holds was there before, or is the function of a trampoline of that name. -/
theorem setFields_origin {name : List UInt8} {fn : LuaCFn} (found : setFields j trs fields name = some fn) :
    fields name = some fn ∨ ∃ i t, trs[i]? = some t ∧ t.name = name ∧ fn = sTrampFns (j + i) := by
  induction trs generalizing j fields with
  | nil => exact Or.inl found
  | cons tr trs ih =>
    rcases ih found with before | ⟨i, t, here, named, is⟩
    · by_cases same : name = tr.name
      · rw [same, Function.update_self, Option.some.injEq] at before
        exact Or.inr ⟨0, tr, rfl, same.symm, before.symm⟩
      · rw [Function.update_of_ne same] at before
        exact Or.inl before
    · refine Or.inr ⟨i + 1, t, here, named, ?_⟩
      rw [is, Nat.add_right_comm]
      rfl

theorem registerModules_of_not_mem {key : List UInt8} (other : key ∉ trs.map Trampoline.module) :
    registerModules m trs loaded key = loaded key := by
  induction m, trs, loaded using registerModules.induct with
  | case1 => rw [registerModules]
  | case2 m loaded tr trs same ih =>
    rw [List.map_cons, List.mem_cons, not_or] at other
    have later : key ∉ (trs.dropWhile fun t => t.module = tr.module).map Trampoline.module := fun member =>
      other.2 ((List.dropWhile_sublist _).map _ |>.subset member)
    rw [registerModules, ih later, Function.update_of_ne other.1]

/-- Where equal modules stand together, every trampoline stays registered. -/
theorem registerModules_registers (together : Together (trs.map Trampoline.module))
    (distinct : (trs.map fun t => (t.module, t.name)).Nodup) {i : Nat} {t : Trampoline} (here : trs[i]? = some t) :
    ∃ fields, registerModules m trs loaded t.module = some (.table fields) ∧
      fields t.name = some (sTrampFns (m + i)) := by
  induction m, trs, loaded using registerModules.induct generalizing i with
  | case1 => cases here
  | case2 m loaded tr trs same ih =>
    have whole : tr :: trs = (tr :: same) ++ trs.dropWhile fun t => t.module = tr.module := by
      rw [List.cons_append, List.takeWhile_append_dropWhile]
    have group : ∀ u ∈ tr :: same, u.module = tr.module := by
      intro u member
      rcases List.mem_cons.mp member with rfl | inside
      · rfl
      · simpa using List.mem_takeWhile_imp inside
    rw [registerModules]
    rw [whole] at here distinct
    rcases Nat.lt_or_ge i (tr :: same).length with first | later
    · rw [List.getElem?_append_left first] at here
      have is := group t (List.mem_of_getElem? here)
      have gone : tr.module ∉ (trs.dropWhile fun t => t.module = tr.module).map Trampoline.module := by
        rw [List.map_cons] at together
        have away := together.not_mem_later
        rwa [List.dropWhile_map] at away
      refine ⟨setFields m (tr :: same) fun _ => none, ?_, setFields_getElem ?_ here⟩
      · rw [is, registerModules_of_not_mem gone, Function.update_self]
      · rw [List.map_append, List.nodup_append] at distinct
        have pairs : (tr :: same).map (fun t => (t.module, t.name)) = ((tr :: same).map Trampoline.name).map (Prod.mk tr.module) := by
          rw [List.map_map]
          exact List.map_congr_left fun u member => by rw [Function.comp_apply, group u member]
        rw [pairs] at distinct
        exact List.Nodup.of_map _ distinct.1
    · rw [List.getElem?_append_right later] at here
      rw [whole, List.map_append] at together
      rw [List.map_append, List.nodup_append] at distinct
      obtain ⟨fields, found, named⟩ := ih together.behind distinct.2.1 here
      refine ⟨fields, found, ?_⟩
      rw [named]
      rw [List.length_cons] at later ⊢
      congr 2
      omega

/-- A table that is registered holds trampolines of one run of the list, all of its module. -/
theorem registerModules_origin {key : List UInt8} (found : registerModules m trs loaded key = some (.table fields)) :
    loaded key = some (.table fields) ∨ ∃ a b,
      (∀ name fn, fields name = some fn →
        ∃ i t, a ≤ i ∧ i < b ∧ trs[i]? = some t ∧ t.name = name ∧ fn = sTrampFns (m + i)) ∧
      ∀ i t, a ≤ i → i < b → trs[i]? = some t → t.module = key := by
  induction m, trs, loaded using registerModules.induct with
  | case1 =>
    rw [registerModules] at found
    exact Or.inl found
  | case2 m loaded tr trs same ih =>
    have whole : tr :: trs = (tr :: same) ++ trs.dropWhile fun t => t.module = tr.module := by
      rw [List.cons_append, List.takeWhile_append_dropWhile]
    rw [registerModules] at found
    rcases ih found with before | ⟨a, b, held, one⟩
    · by_cases is : key = tr.module
      · subst is
        rw [Function.update_self] at before
        cases before
        refine Or.inr ⟨0, (tr :: same).length, fun name fn holds => ?_, fun i t _ inside here => ?_⟩
        · rcases setFields_origin holds with none | ⟨i, t, here, named, function⟩
          · cases none
          · have inside := (List.getElem?_eq_some_iff.mp here).1
            refine ⟨i, t, Nat.zero_le _, inside, ?_, named, function⟩
            rw [whole, List.getElem?_append_left inside]
            exact here
        · rw [whole, List.getElem?_append_left inside] at here
          rcases List.mem_cons.mp (List.mem_of_getElem? here) with rfl | member
          · rfl
          · simpa using List.mem_takeWhile_imp member
      · rw [Function.update_of_ne is] at before
        exact Or.inl before
    · have shift : ∀ i, (tr :: trs)[(tr :: same).length + i]? =
          (trs.dropWhile fun t => t.module = tr.module)[i]? := fun i => by
        rw [whole, List.getElem?_append_right (Nat.le_add_right ..), Nat.add_sub_cancel_left]
      refine Or.inr ⟨(tr :: same).length + a, (tr :: same).length + b, fun name fn holds => ?_, fun i t lower upper here => ?_⟩
      · obtain ⟨i, t, lower, upper, here, named, function⟩ := held name fn holds
        refine ⟨(tr :: same).length + i, t, by omega, by omega, (shift i).trans here, named, function.trans ?_⟩
        rw [List.length_cons]
        congr 1
        omega
      · obtain ⟨n, rfl⟩ := Nat.exists_eq_add_of_le ((Nat.le_add_right ..).trans lower)
        rw [shift] at here
        exact one n t (by omega) (by omega) here

end

theorem registerEntries_keys (sections : List ElfSection) {table : List LuaExportEntry} {trs : List Trampoline}
    (count : trs.length + table.length ≤ maxTrampolines) (nonzero : ∀ e ∈ table, e.symAddr ≠ 0) :
    (registerEntries sections table trs).map (fun t => (t.module, t.name)) =
      trs.map (fun t => (t.module, t.name)) ++ table.map fun e => (e.moduleName.take 31, e.functionName.take 31) := by
  induction table generalizing trs with
  | nil => rw [registerEntries, List.map_nil, List.append_nil]
  | cons e rest ih =>
    rw [List.length_cons] at count
    rw [List.forall_mem_cons] at nonzero
    rw [registerEntries, if_neg (by omega), if_neg fun both => nonzero.1 both.1, if_neg nonzero.1]
    dsimp only
    rw [ih (by rw [List.length_append, List.length_singleton]; omega) nonzero.2, List.map_append, List.append_assoc]
    rfl

theorem tidx_sTrampFns {i j : Nat} (index : (sTrampFns j).tidx = some i) : i = j ∧ j < 16 := by
  unfold sTrampFns at index
  split at index
  · cases index
    exact ⟨rfl, ‹_›⟩
  · cases index

/-- The run of the trampolines that a registered table holds. -/
theorem registerModules_run {trs : List Trampoline} {names : List (List UInt8)} {key : List UInt8} {fields : Fields}
    (found : registerModules 0 trs (libraries names) key = some (.table fields)) :
    ∃ a b, (∀ name fn i, fields name = some fn → fn.tidx = some i →
        a ≤ i ∧ i < b ∧ i < 16 ∧ ∃ t, trs[i]? = some t ∧ t.name = name ∧ t.module = key) ∧
      ∀ i t, a ≤ i → i < b → trs[i]? = some t → t.module = key := by
  rcases registerModules_origin found with before | ⟨a, b, held, one⟩
  · unfold libraries at before
    split at before <;> cases before
  · refine ⟨a, b, fun name fn i holds index => ?_, one⟩
    obtain ⟨i', t, lower, upper, here, named, rfl⟩ := held name fn holds
    rw [Nat.zero_add] at index
    obtain ⟨rfl, few⟩ := tidx_sTrampFns index
    exact ⟨lower, upper, few, t, here, named, one i t lower upper here⟩

/-- The trampolines of a section as they are registered under cut names. -/
def CutKeys (trs : List Trampoline) (table : List LuaExportEntry) : Prop :=
  trs.map (fun t => (t.module, t.name)) = table.map fun e => (e.moduleName.take 31, e.functionName.take 31)

theorem CutKeys.getElem {trs : List Trampoline} {table : List LuaExportEntry} (keys : CutKeys trs table) {i : Nat}
    {e : LuaExportEntry} (here : table[i]? = some e) :
    ∃ t, trs[i]? = some t ∧ t.module = e.moduleName.take 31 ∧ t.name = e.functionName.take 31 := by
  have at_i := congrArg (·[i]?) keys
  simp only [List.getElem?_map, here, Option.map_some] at at_i
  obtain ⟨t, held, same⟩ := Option.map_eq_some_iff.mp at_i
  obtain ⟨module, name⟩ := Prod.mk.inj same
  exact ⟨t, held, module, name⟩

theorem length_le_of_take {α : Type} {l : List α} {n : Nat} (same : l.take n = l) : l.length ≤ n := by
  have length := congrArg List.length same
  rw [List.length_take] at length
  omega

section
variable {trs : List Trampoline} {table : List LuaExportEntry} {names : List (List UInt8)}

/-- An entry registered under its own index has a function, and its names are not cut. -/
theorem CutKeys.uncut (keys : CutKeys trs table) {i : Nat} {e : LuaExportEntry} (here : table[i]? = some e)
    (registered : Registered (registerModules 0 trs (libraries names)) e i) :
    i < 16 ∧ e.moduleName.length ≤ 31 ∧ e.functionName.length ≤ 31 := by
  obtain ⟨fields, fn, found, named, index⟩ := registered
  obtain ⟨a, b, held, -⟩ := registerModules_run found
  obtain ⟨-, -, few, t, at_i, name, module⟩ := held _ fn i named index
  obtain ⟨t', at_i', module', name'⟩ := keys.getElem here
  rw [at_i, Option.some.injEq] at at_i'
  subst at_i'
  exact ⟨few, length_le_of_take (module'.symm.trans module), length_le_of_take (name'.symm.trans name)⟩

/-- Both ends of what lies between two entries of a module are in the run of one table, and so is what
stands between them. -/
theorem CutKeys.together (keys : CutKeys trs table)
    (all : ∀ i e, table[i]? = some e → Registered (registerModules 0 trs (libraries names)) e i) :
    Together (table.map LuaExportEntry.moduleName) := by
  intro i j k x lower upper first last
  rw [List.getElem?_map] at first last ⊢
  obtain ⟨e, at_i, rfl⟩ := Option.map_eq_some_iff.mp first
  obtain ⟨e'', at_k, same⟩ := Option.map_eq_some_iff.mp last
  have inside : j < table.length := Nat.lt_of_le_of_lt upper (List.getElem?_eq_some_iff.mp at_k).1
  obtain ⟨fields, fn, found, named, index⟩ := all i e at_i
  obtain ⟨fields', fn'', found', named', index'⟩ := all k e'' at_k
  rw [same, found, Option.some.injEq, LoadedModule.table.injEq] at found'
  subst found'
  obtain ⟨a, b, held, one⟩ := registerModules_run found
  have left := (held _ fn i named index).1
  have right := (held _ fn'' k named' index').2.1
  have at_j : table[j]? = some table[j] := List.getElem?_eq_getElem inside
  obtain ⟨t, there, module, -⟩ := keys.getElem at_j
  have is := one j t (by omega) (by omega) there
  rw [at_j, Option.map_some, ← is, module, List.take_of_length_le (keys.uncut at_j (all j _ at_j)).2.1]

theorem CutKeys.registered (keys : CutKeys trs table)
    (distinct : (table.map fun e => (e.moduleName, e.functionName)).Nodup) (few : table.length ≤ 16)
    (together : Together (table.map LuaExportEntry.moduleName))
    (room : ∀ e ∈ table, e.moduleName.length ≤ 31 ∧ e.functionName.length ≤ 31) {i : Nat} {e : LuaExportEntry}
    (here : table[i]? = some e) : Registered (registerModules 0 trs (libraries names)) e i := by
  have whole : trs.map (fun t => (t.module, t.name)) = table.map fun e => (e.moduleName, e.functionName) := by
    refine keys.trans (List.map_congr_left fun e member => ?_)
    rw [List.take_of_length_le (room e member).1, List.take_of_length_le (room e member).2]
  have modules : trs.map Trampoline.module = table.map LuaExportEntry.moduleName := by
    have firsts := congrArg (List.map Prod.fst) whole
    rwa [List.map_map, List.map_map] at firsts
  obtain ⟨t, held, module, name⟩ := keys.getElem here
  have member := List.mem_of_getElem? here
  rw [List.take_of_length_le (room e member).1] at module
  rw [List.take_of_length_le (room e member).2] at name
  rw [← modules] at together
  rw [← whole] at distinct
  obtain ⟨fields, found, named⟩ : ∃ fields, registerModules 0 trs (libraries names) t.module = some (.table fields) ∧
      fields t.name = some (sTrampFns (0 + i)) := registerModules_registers together distinct held
  rw [module] at found
  rw [name] at named
  have inside := (List.getElem?_eq_some_iff.mp here).1
  refine ⟨fields, _, found, named, ?_⟩
  rw [Nat.zero_add, sTrampFns, dif_pos (by omega)]
  rfl

end

/-- Every entry of the section ends up registered under its own index exactly when there are
functions for all, equal modules stand together and every name leaves room for its NUL. -/
theorem blytHybridInit_registers_iff (sections : List ElfSection) (names : List (List UInt8)) {table : List LuaExportEntry}
    (count : table.length ≤ maxTrampolines) (distinct : (table.map fun e => (e.moduleName, e.functionName)).Nodup)
    (nonzero : ∀ e ∈ table, e.symAddr ≠ 0) :
    (∀ i e, table[i]? = some e → Registered (blytHybridInit sections table (libraries names)) e i) ↔
      table.length ≤ 16 ∧ Together (table.map LuaExportEntry.moduleName) ∧
        ∀ e ∈ table, e.moduleName.length ≤ 31 ∧ e.functionName.length ≤ 31 := by
  have keys : CutKeys (registerEntries sections table []) table :=
    registerEntries_keys sections (by rwa [List.length_nil, Nat.zero_add]) nonzero
  rw [blytHybridInit]
  constructor
  · intro all
    refine ⟨?_, keys.together all, fun e member => ?_⟩
    · by_contra many
      have inside : 16 < table.length := by omega
      have here := List.getElem?_eq_getElem inside
      exact absurd (keys.uncut here (all 16 _ here)).1 (Nat.lt_irrefl 16)
    · obtain ⟨i, inside, rfl⟩ := List.mem_iff_getElem.mp member
      have here := List.getElem?_eq_getElem inside
      exact (keys.uncut here (all i _ here)).2
  · rintro ⟨few, together, room⟩ i e here
    exact keys.registered distinct few together room here

/-- An entry of two names, for a function without arguments. -/
def exportEntry (module name : List UInt8) : LuaExportEntry where
  module := .ofFn fun i => module.getD i 0
  name := .ofFn fun i => name.getD i 0
  symAddr := 0x10100
  argTypes := .replicate 4 0
  retType := 1
  pad := .replicate 7 0

/-- `m.a` and `m.b`. -/
def twoExports : List LuaExportEntry := [exportEntry [109] [97], exportEntry [109] [98]]

theorem blytHybridInit_registers_two :
    Registered (blytHybridInit [] twoExports (libraries [])) (exportEntry [109] [98]) 1 := by
  have modules : twoExports.map LuaExportEntry.moduleName = [[109], [109]] := by decide +kernel
  have together : Together (twoExports.map LuaExportEntry.moduleName) := by
    rw [modules]
    exact together_replicate 2 [109]
  exact (blytHybridInit_registers_iff [] [] (by decide) (by decide +kernel) (by decide)).mpr
    ⟨by decide, together, by decide +kernel⟩ 1 _ rfl

/-- One module with 17 functions, `a` to `q`. -/
def seventeen : List LuaExportEntry := List.ofFn fun i : Fin 17 => exportEntry [109] [UInt8.ofNat (97 + i)]

/-- The last of them is registered as a null function. -/
theorem blytHybridInit_not_registers :
    seventeen.length ≤ maxTrampolines ∧ (seventeen.map fun e => (e.moduleName, e.functionName)).Nodup ∧
      (∀ e ∈ seventeen, e.symAddr ≠ 0) ∧
      ¬∀ i e, seventeen[i]? = some e → Registered (blytHybridInit [] seventeen (libraries [])) e i := by
  refine ⟨by decide, by decide +kernel, by decide, fun all => ?_⟩
  obtain ⟨fields, fn, -, -, index⟩ := all 16 _ rfl
  cases fn with
  | null => cases index
  | trampoline n =>
    have inside := n.isLt
    have is : n.val = 16 := Option.some.inj index
    omega

end HybridExports
end Blyt
