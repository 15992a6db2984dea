import Blyt.Lib.Run

namespace Blyt
namespace HostCalls
open Run

def sentinelEcall : UInt32 := 57005

def sentinelAddr : UInt32 := 0x04000000

/-- `lui a7, 14; addi a7, a7, -339; ecall`. -/
def sentinel : List UInt8 := [0xB7, 0xE8, 0x00, 0x00, 0x93, 0x88, 0xD8, 0xEA, 0x73, 0x00, 0x00, 0x00]

def regRa : Nat := 1
def regA0 : Nat := 10
def regA7 : Nat := 17
def fregFa0 : Nat := 10

/-- `riscv_t`, with a guest memory `M`; the registers by their numbers. -/
structure Riscv (M : Type) where
  x : Nat → UInt32
  f : Nat → UInt32
  pc : UInt32
  halt : Bool
  mem : M

/-- `rv32emu_arg_t`. -/
structure Arg where
  isFloat : Bool
  bits : UInt32

/-- What one turn of the emulator comes to. -/
inductive Turn (M : Type) where
  | next (rv : Riscv M)
  | ecall (rv : Riscv M)
  | fault (rv : Riscv M)

/-- The emulator: `memory_write`, where `none` is `false`, one turn, and what the system call handler does from its
`switch` on. What was written can be read. -/
structure Emulator (M : Type) where
  memoryWrite : M → UInt32 → List UInt8 → Option M
  memoryRead : M → UInt32 → Nat → List UInt8
  read_write : ∀ mem mem' addr bytes, memoryWrite mem addr bytes = some mem' →
    memoryRead mem' addr bytes.length = bytes
  step : Riscv M → Turn M
  dispatch : Riscv M → Riscv M
  cycles : Nat

/-- Why a run ended. -/
inductive Stop where
  | sentinel
  | exited
  | faulted
  | outOfCycles
  deriving DecidableEq, Repr

namespace Riscv
variable {M : Type}

def setReg (rv : Riscv M) (r : Nat) (v : UInt32) : Riscv M := { rv with x := fun j => if j = r then v else rv.x j }

def setFreg (rv : Riscv M) (r : Nat) (v : UInt32) : Riscv M := { rv with f := fun j => if j = r then v else rv.f j }

/-- `rv_halt`. -/
def stop (rv : Riscv M) : Riscv M := { rv with halt := true }

end Riscv

namespace Emulator
variable {M : Type} (e : Emulator M)

/-- `syscall_handler`. -/
def syscallHandler (rv : Riscv M) : Riscv M :=
  if rv.x regA7 = sentinelEcall then rv.stop else e.dispatch rv

/-- `rv_run`, with so many turns left. -/
def rvRun : Nat → Riscv M → Riscv M × Stop
  | 0, rv => (rv, .outOfCycles)
  | turns + 1, rv =>
    match e.step rv with
    | .next rv => rvRun turns rv
    | .fault rv => (rv.stop, .faulted)
    | .ecall rv =>
      if (e.syscallHandler rv).halt then
        (e.syscallHandler rv, if rv.x regA7 = sentinelEcall then .sentinel else .exited)
      else rvRun turns (e.syscallHandler rv)

/-- `rv32emu_call_fn_setup`, with `s_sentinel_installed`. -/
def callFnSetup (installed : Bool) (rv : Riscv M) : Bool × Riscv M :=
  if installed then (installed, rv)
  else match e.memoryWrite rv.mem sentinelAddr sentinel with
    | none => (installed, rv)
    | some mem => (true, { rv with mem := mem })

/-- The loop that places the arguments, with `iarg` and `farg`. -/
def placeArgs (rv : Riscv M) (iarg farg : Nat) : List Arg → Riscv M
  | [] => rv
  | arg :: args =>
    if arg.isFloat then
      if farg < 8 then placeArgs (rv.setFreg (fregFa0 + farg) arg.bits) iarg (farg + 1) args
      else placeArgs rv iarg farg args
    else if iarg < 8 then placeArgs (rv.setReg (regA0 + iarg) arg.bits) (iarg + 1) farg args
    else placeArgs rv iarg farg args

/-- `rv32emu_call_fn` up to `rv_run`. -/
def enter (installed : Bool) (rv : Riscv M) (symAddr : UInt32) (args : List Arg) : Bool × Riscv M :=
  let (installed, rv) := e.callFnSetup installed rv
  (installed, placeArgs { ({ rv with halt := false }.setReg regRa sentinelAddr) with pc := symAddr } 0 0 (args.take 6))

end Emulator

/-- What a call leaves: `s_sentinel_installed`, the instance, `*ret` and what is returned. -/
structure CallResult (M : Type) where
  installed : Bool
  rv : Riscv M
  ret : UInt32
  rc : Int

/-- `rv32emu_call_fn`. -/
def Emulator.rv32emuCallFn {M : Type} (e : Emulator M) (installed : Bool) (rv : Riscv M) (symAddr : UInt32)
    (args : List Arg) (retIsFloat : Bool) : CallResult M :=
  let (installed, rv) := e.enter installed rv symAddr args
  let (rv, _) := e.rvRun e.cycles rv
  ⟨installed, rv, if retIsFloat then rv.f fregFa0 else rv.x regA0, 0⟩

/-- The integer arguments, in order. -/
def ints (args : List Arg) : List UInt32 := (args.filter fun arg => ! arg.isFloat).map Arg.bits

def floats (args : List Arg) : List UInt32 := (args.filter Arg.isFloat).map Arg.bits

variable {M : Type} {e : Emulator M}

/-- The function is entered with its arguments in the registers of their class, and a return leads to the stub. -/
structure Entered (e : Emulator M) (symAddr : UInt32) (args : List Arg) (rv : Riscv M) : Prop where
  pc : rv.pc = symAddr
  running : rv.halt = false
  ints : ∀ k v, (ints args)[k]? = some v → rv.x (regA0 + k) = v
  floats : ∀ k v, (floats args)[k]? = some v → rv.f (fregFa0 + k) = v
  stub : e.memoryRead rv.mem (rv.x regRa) sentinel.length = sentinel

/-- A call enters the function so, and what is returned tells whether the sentinel ended the run. -/
structure Called (e : Emulator M) (installed : Bool) (rv : Riscv M) (symAddr : UInt32) (args : List Arg)
    (retIsFloat : Bool) : Prop where
  entered : Entered e symAddr args (e.enter installed rv symAddr args).2
  zero : (e.rv32emuCallFn installed rv symAddr args retIsFloat).rc = 0 ↔
    (e.rvRun e.cycles (e.enter installed rv symAddr args).2).2 = .sentinel
  one : (e.rv32emuCallFn installed rv symAddr args retIsFloat).rc = 1 ↔
    (e.rvRun e.cycles (e.enter installed rv symAddr args).2).2 ≠ .sentinel

/-- The stub lies in the memory of this instance, or is put there now: no instance has it yet, and the memory takes it. -/
def StubComes (e : Emulator M) (installed : Bool) (rv : Riscv M) : Prop :=
  e.memoryRead rv.mem sentinelAddr sentinel.length = sentinel ∨
    installed = false ∧ (e.memoryWrite rv.mem sentinelAddr sentinel).isSome = true

/-- The guest function runs to the sentinel before it is out of cycles. -/
def RunsToSentinel (e : Emulator M) (installed : Bool) (rv : Riscv M) (symAddr : UInt32) (args : List Arg) : Prop :=
  (e.rvRun e.cycles (e.enter installed rv symAddr args).2).2 = .sentinel

/-! The arguments. -/

theorem ints_cons (arg : Arg) (args : List Arg) :
    ints (arg :: args) = if arg.isFloat then ints args else arg.bits :: ints args := by
  rw [ints, List.filter_cons]
  cases arg.isFloat <;> rfl

theorem floats_cons (arg : Arg) (args : List Arg) :
    floats (arg :: args) = if arg.isFloat then arg.bits :: floats args else floats args := by
  rw [floats, List.filter_cons]
  cases arg.isFloat <;> rfl

/-- One register more in front of those that are set. -/
theorem getD_cons (v old : UInt32) (vs : List UInt32) (lo r : Nat) :
    (if r < lo + 1 then if r = lo then v else old else (vs[r - (lo + 1)]?).getD (if r = lo then v else old)) =
      if r < lo then old else ((v :: vs)[r - lo]?).getD old := by
  rcases Nat.lt_trichotomy r lo with below | rfl | above
  · rw [if_pos (by omega), if_neg (by omega), if_pos below]
  · rw [if_pos (by omega), if_pos rfl, if_neg (by omega), Nat.sub_self]
    rfl
  · have next : r - lo = r - (lo + 1) + 1 := by omega
    rw [if_neg (by omega), if_neg (by omega), if_neg (by omega), next, List.getElem?_cons_succ]

/-- The registers that the loop sets hold the arguments, and no others change. -/
theorem placeArgs_spec (args : List Arg) (rv : Riscv M) (iarg farg : Nat) (iroom : iarg + args.length ≤ 8)
    (froom : farg + args.length ≤ 8) :
    (∀ r, (Emulator.placeArgs rv iarg farg args).x r =
      if r < regA0 + iarg then rv.x r else ((ints args)[r - (regA0 + iarg)]?).getD (rv.x r)) ∧
    (∀ r, (Emulator.placeArgs rv iarg farg args).f r =
      if r < fregFa0 + farg then rv.f r else ((floats args)[r - (fregFa0 + farg)]?).getD (rv.f r)) ∧
    (Emulator.placeArgs rv iarg farg args).pc = rv.pc ∧ (Emulator.placeArgs rv iarg farg args).halt = rv.halt ∧
    (Emulator.placeArgs rv iarg farg args).mem = rv.mem := by
  induction args generalizing rv iarg farg with
  | nil => exact ⟨fun r => (ite_self _).symm, fun r => (ite_self _).symm, rfl, rfl, rfl⟩
  | cons arg args ih =>
    rw [List.length_cons] at iroom froom
    rw [Emulator.placeArgs, ints_cons, floats_cons]
    cases arg.isFloat with
    | true =>
      obtain ⟨x, f, pc, halt, mem⟩ := ih (rv.setFreg (fregFa0 + farg) arg.bits) iarg (farg + 1) (by omega)
        (by omega)
      simp only [if_true, if_pos (show farg < 8 by omega)]
      refine ⟨x, fun r => ?_, pc, halt, mem⟩
      rw [f r]
      exact getD_cons arg.bits (rv.f r) (floats args) (fregFa0 + farg) r
    | false =>
      obtain ⟨x, f, pc, halt, mem⟩ := ih (rv.setReg (regA0 + iarg) arg.bits) (iarg + 1) farg (by omega)
        (by omega)
      simp only [Bool.false_eq_true, if_false, if_pos (show iarg < 8 by omega)]
      refine ⟨fun r => ?_, f, pc, halt, mem⟩
      rw [x r]
      exact getD_cons arg.bits (rv.x r) (ints args) (regA0 + iarg) r

/-- Where a function is entered, by the memory that the setup leaves. -/
theorem enter_spec (installed : Bool) (rv : Riscv M) (symAddr : UInt32) {args : List Arg} (few : args.length ≤ 6) :
    (e.enter installed rv symAddr args).2.pc = symAddr ∧ (e.enter installed rv symAddr args).2.halt = false ∧
      (∀ k v, (ints args)[k]? = some v → (e.enter installed rv symAddr args).2.x (regA0 + k) = v) ∧
        (∀ k v, (floats args)[k]? = some v → (e.enter installed rv symAddr args).2.f (fregFa0 + k) = v) ∧
          (e.enter installed rv symAddr args).2.x regRa = sentinelAddr ∧
            (e.enter installed rv symAddr args).2.mem = (e.callFnSetup installed rv).2.mem := by
  obtain ⟨x, f, pc, halt, mem⟩ := placeArgs_spec args
    { ({ (e.callFnSetup installed rv).2 with halt := false }.setReg regRa sentinelAddr) with pc := symAddr } 0 0
    (by omega) (by omega)
  have all : args.take 6 = args := List.take_of_length_le few
  have entry : (e.enter installed rv symAddr args).2 = Emulator.placeArgs
      { ({ (e.callFnSetup installed rv).2 with halt := false }.setReg regRa sentinelAddr) with pc := symAddr } 0 0 args := by
    rw [Emulator.enter, all]
  rw [entry]
  refine ⟨pc, halt, fun k v here => ?_, fun k v here => ?_, ?_, mem⟩
  · rw [x, if_neg (by omega), Nat.add_zero, Nat.add_sub_cancel_left, here]
    rfl
  · rw [f, if_neg (by omega), Nat.add_zero, Nat.add_sub_cancel_left, here]
    rfl
  · rw [x, if_pos (by decide)]
    rfl

/-- The stub is in memory after the setup exactly if it was there or came now. -/
theorem setup_stub_iff (installed : Bool) (rv : Riscv M) :
    e.memoryRead (e.callFnSetup installed rv).2.mem sentinelAddr sentinel.length = sentinel ↔
      StubComes e installed rv := by
  rw [Emulator.callFnSetup, StubComes]
  cases installed with
  | true => exact ⟨.inl, fun there => there.resolve_right fun both => Bool.false_ne_true both.1.symm⟩
  | false =>
    simp only [Bool.false_eq_true, if_false, true_and]
    cases written : e.memoryWrite rv.mem sentinelAddr sentinel with
    | none => exact ⟨.inl, fun there => there.resolve_right Bool.false_ne_true⟩
    | some mem => exact iff_of_true (e.read_write _ _ _ _ written) (.inr rfl)

/-- A call does what it is for exactly if the stub is there and the function runs to it. -/
theorem called_iff (installed : Bool) (rv : Riscv M) (symAddr : UInt32) {args : List Arg} (few : args.length ≤ 6)
    (retIsFloat : Bool) : Called e installed rv symAddr args retIsFloat ↔
      StubComes e installed rv ∧ RunsToSentinel e installed rv symAddr args := by
  obtain ⟨pc, halt, ints, floats, ra, mem⟩ := enter_spec (e := e) installed rv symAddr few
  have zero : (e.rv32emuCallFn installed rv symAddr args retIsFloat).rc = 0 := rfl
  constructor
  · intro called
    have stub := called.entered.stub
    rw [ra, mem] at stub
    exact ⟨(setup_stub_iff installed rv).mp stub, called.zero.mp zero⟩
  · rintro ⟨stub, runs⟩
    refine ⟨⟨pc, halt, ints, floats, ?_⟩, iff_of_true zero runs, iff_of_false ?_ fun other => other runs⟩
    · rw [ra, mem]
      exact (setup_stub_iff installed rv).mpr stub
    · rw [zero]
      decide

/-- A process: `s_sentinel_installed`, and the instances it has created. -/
structure World (M : Type) where
  installed : Bool
  instances : List (Riscv M)

/-- What a process does: an instance is created, one is called with up to six arguments, or one changes otherwise. -/
inductive Event (M : Type) where
  | create (rv : Riscv M)
  | call (i : Nat) (symAddr : UInt32) (args : { args : List Arg // args.length ≤ 6 }) (retIsFloat : Bool)
  | change (i : Nat) (rv : Riscv M)

namespace World

def start : World M := ⟨false, []⟩

def act (e : Emulator M) (w : World M) : Event M → World M
  | .create rv => { w with instances := w.instances ++ [rv] }
  | .change i rv => { w with instances := w.instances.set i rv }
  | .call i symAddr args retIsFloat =>
    match w.instances[i]? with
    | none => w
    | some rv =>
      let result := e.rv32emuCallFn w.installed rv symAddr args retIsFloat
      ⟨result.installed, w.instances.set i result.rv⟩

end World

def Step (e : Emulator M) (w : World M) (event : Event M) (w' : World M) : Prop := w' = w.act e event

/-- A call of an instance is served. -/
def Serves (e : Emulator M) (w : World M) (event : Event M) (_ : World M) : Prop :=
  match event with
  | .call i symAddr args retIsFloat =>
    ∀ rv, w.instances[i]? = some rv → Called e w.installed rv symAddr args retIsFloat
  | .create _ | .change _ _ => True

/-- For a call of an instance the stub is there, and the function runs to it. -/
def Reaches (e : Emulator M) (w : World M) (event : Event M) (_ : World M) : Prop :=
  match event with
  | .call i symAddr args _ => ∀ rv, w.instances[i]? = some rv →
    StubComes e w.installed rv ∧ RunsToSentinel e w.installed rv symAddr args
  | .create _ | .change _ _ => True

/-- In every run of a process the calls are served exactly as long as the stub is in the memory of the instance that is
called, and its function runs to the sentinel. -/
theorem serves_iff_reaches (e : Emulator M) (events : List (Event M)) :
    Throughout (Step e) (Reaches e) .start events ↔ Throughout (Step e) (Serves e) .start events := by
  refine throughout_iff (fun _ => True) (fun w event _ _ _ => ?_) (fun _ _ _ _ _ _ => trivial) trivial events
  cases event with
  | create | change => exact Iff.rfl
  | call i symAddr args retIsFloat =>
    exact forall_congr' fun rv => imp_congr_right fun _ => (called_iff w.installed rv symAddr args.property retIsFloat).symm

/-! An emulator with memory up to the address space of the harness. -/
namespace Harness

def memSize : Nat := 2 ^ 28

def exitFn : UInt32 := 0x2000

def memoryWrite (mem : Nat → UInt8) (addr : UInt32) (bytes : List UInt8) : Option (Nat → UInt8) :=
  if addr.toNat + bytes.length ≤ memSize then
    some fun a => if addr.toNat ≤ a then (bytes[a - addr.toNat]?).getD (mem a) else mem a
  else none

def memoryRead (mem : Nat → UInt8) (addr : UInt32) (n : Nat) : List UInt8 :=
  (List.range n).map fun k => mem (addr.toNat + k)

theorem read_write (mem mem' : Nat → UInt8) (addr : UInt32) (bytes : List UInt8)
    (written : memoryWrite mem addr bytes = some mem') : memoryRead mem' addr bytes.length = bytes := by
  rw [memoryWrite] at written
  split at written
  · cases written
    refine List.ext_getElem (by rw [memoryRead, List.length_map, List.length_range]) fun k inside here => ?_
    simp [memoryRead, here]
  · cases written

/-- A guest whose functions return at once, but for one that makes the system call to exit. Memory without the stub holds
no instruction at the sentinel address. -/
def step (rv : Riscv (Nat → UInt8)) : Turn (Nat → UInt8) :=
  if rv.pc = sentinelAddr then
    if memoryRead rv.mem rv.pc sentinel.length = sentinel then .ecall (rv.setReg regA7 sentinelEcall) else .fault rv
  else if rv.pc = exitFn then .ecall (rv.setReg regA7 93)
  else .next { rv with pc := rv.x regRa }

def emulator : Emulator (Nat → UInt8) := ⟨memoryWrite, memoryRead, read_write, step, Riscv.stop, 100⟩

/-- An instance with cleared memory. -/
def fresh : Riscv (Nat → UInt8) := ⟨fun _ => 0, fun _ => 0, 0, false, fun _ => 0⟩

def noArgs : { args : List Arg // args.length ≤ 6 } := ⟨[], Nat.zero_le 6⟩

end Harness

open Harness

/-- A second instance is entered without the stub, and the exit of a guest is returned as 0. -/
theorem second_instance_not_served :
    ¬ Throughout (Step emulator) (Serves emulator) .start
      [.create fresh, .call 0 0x1000 noArgs false, .create fresh, .call 1 0x1000 noArgs false] ∧
    ¬ Throughout (Step emulator) (Serves emulator) .start [.create fresh, .call 0 exitFn noArgs false] := by
  constructor
  · intro met
    obtain ⟨-, met⟩ := met _ rfl
    obtain ⟨-, met⟩ := met _ rfl
    obtain ⟨-, met⟩ := met _ rfl
    obtain ⟨called, -⟩ := met _ rfl
    have stub := (called fresh rfl).entered.stub
    have blank : emulator.memoryRead fresh.mem sentinelAddr sentinel.length ≠ sentinel := by decide
    exact blank stub
  · intro met
    obtain ⟨-, met⟩ := met _ rfl
    obtain ⟨called, -⟩ := met _ rfl
    have exited := (called fresh rfl).zero.mp rfl
    cases exited

end HostCalls
end Blyt
