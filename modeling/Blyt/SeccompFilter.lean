import Blyt.Lib.Exec
import Blyt.Lib.Bpf

namespace Blyt
open Bpf

def auditArchRiscv64 : UInt32 := 0xC00000F3
def auditArchRiscv32 : UInt32 := 0x400000F3
def seccompRetAllow : UInt32 := 0x7FFF0000
def seccompRetKillProcess : UInt32 := 0x80000000
def sdatNr : UInt32 := 0
def sdatArch : UInt32 := 4

/-- The two words of `struct seccomp_data` the filters load. -/
structure SeccompData where
  nr : UInt32
  arch : UInt32

def SeccompData.load (d : SeccompData) (off : UInt32) : Option UInt32 :=
  if off = sdatNr then some d.nr else if off = sdatArch then some d.arch else none

/-- What the kernel makes of a system call under the filter. -/
def runFilter (prog : List BpfInsn) (d : SeccompData) : Option UInt32 := run d.load prog 0 0

/-- `buf[i]` with `i++`, for a buffer of `bufsz` instructions of which `written` are stored. -/
def emit (bufsz : Int) (i : BpfInsn) (written : List BpfInsn) : Exec (List BpfInsn) :=
  if (written.length : Int) < bufsz then .returns (written ++ [i]) else .outOfBounds

/-- The loop over the numbers of a block. -/
def emitAllowed (bufsz : Int) : List UInt32 → List BpfInsn → Exec (List BpfInsn)
  | [], written => .returns written
  | nr :: nrs, written => do
    let written ← emit bufsz (jump jmpJeqK nr 0 1) written
    let written ← emit bufsz (stmt retK seccompRetAllow) written
    emitAllowed bufsz nrs written

/-- The count returned and the instructions stored in the buffer. -/
def buildArchDispatchFilter (bufsz : Int) (rv64Nrs rv32Nrs : List UInt32) : Exec (Int × List BpfInsn) := do
  let total := 8 + 2 * (rv64Nrs.length + rv32Nrs.length)
  -- a sum that no `int` holds is undefined
  if 2 ^ 31 ≤ total then .outOfBounds
  else if bufsz < total then return (-1, [])
  else if 255 < 2 + 2 * rv64Nrs.length then return (-1, [])
  else
    let written ← emit bufsz (stmt ldWAbs sdatArch) []
    let written ← emit bufsz (jump jmpJeqK auditArchRiscv64 0 (.ofNat (2 + 2 * rv64Nrs.length))) written
    let written ← emit bufsz (stmt ldWAbs sdatNr) written
    let written ← emitAllowed bufsz rv64Nrs written
    let written ← emit bufsz (stmt retK seccompRetKillProcess) written
    let written ← emit bufsz (jump jmpJeqK auditArchRiscv32 1 0) written
    let written ← emit bufsz (stmt retK seccompRetKillProcess) written
    let written ← emit bufsz (stmt ldWAbs sdatNr) written
    let written ← emitAllowed bufsz rv32Nrs written
    let written ← emit bufsz (stmt retK seccompRetKillProcess) written
    return (written.length, written)

def buildRiscv32OnlyFilter (bufsz : Int) (nrs : List UInt32) : Exec (Int × List BpfInsn) := do
  let total := 4 + 2 * nrs.length
  if 2 ^ 31 ≤ total then .outOfBounds
  else if bufsz < total then return (-1, [])
  else
    let written ← emit bufsz (stmt ldWAbs sdatArch) []
    let written ← emit bufsz (jump jmpJeqK auditArchRiscv32 1 0) written
    let written ← emit bufsz (stmt retK seccompRetKillProcess) written
    let written ← emit bufsz (stmt ldWAbs sdatNr) written
    let written ← emitAllowed bufsz nrs written
    let written ← emit bufsz (stmt retK seccompRetKillProcess) written
    return (written.length, written)

/-- The instructions stored one after another. -/
def emitAll (bufsz : Int) : List BpfInsn → List BpfInsn → Exec (List BpfInsn)
  | [], written => .returns written
  | i :: prog, written => emit bufsz i written >>= emitAll bufsz prog

theorem emitAll_append {bufsz : Int} (p q written : List BpfInsn) :
    emitAll bufsz (p ++ q) written = emitAll bufsz p written >>= emitAll bufsz q := by
  induction p generalizing written with
  | nil => rfl
  | cons i p ih =>
    rw [List.cons_append, emitAll, emitAll, Exec.bind_assoc]
    exact congrArg _ (funext ih)

theorem emitAllowed_eq (bufsz : Int) (nrs : List UInt32) (written : List BpfInsn) :
    emitAllowed bufsz nrs written = emitAll bufsz (tests seccompRetAllow nrs) written := by
  induction nrs generalizing written with
  | nil => rfl
  | cons nr nrs ih =>
    rw [tests, List.flatMap_cons, ← tests, emitAllowed]
    simp only [List.cons_append, List.nil_append, emitAll, funext ih]

theorem emitAll_fits {bufsz : Int} (prog written : List BpfInsn) (fits : (written ++ prog).length ≤ bufsz) :
    emitAll bufsz prog written = .returns (written ++ prog) := by
  induction prog generalizing written with
  | nil => rw [emitAll, List.append_nil]
  | cons i prog ih =>
    rw [List.append_cons] at fits ⊢
    have room : (written.length : Int) < bufsz := by
      simp only [List.length_append, List.length_singleton] at fits
      omega
    rw [emitAll, emit, if_pos room, Exec.returns_bind, ih _ fits]

theorem emitAll_overflows {bufsz : Int} (prog written : List BpfInsn) (start : written.length ≤ bufsz)
    (overflows : bufsz < (written ++ prog).length) : emitAll bufsz prog written = .outOfBounds := by
  induction prog generalizing written with
  | nil =>
    rw [List.append_nil] at overflows
    omega
  | cons i prog ih =>
    rw [emitAll, emit]
    split
    · rename_i room
      rw [List.append_cons] at overflows
      refine ih _ ?_ overflows
      rw [List.length_append, List.length_singleton]
      omega
    · rfl

/-- The block for one architecture: the number is loaded and looked up. -/
def numberBlock (nrs : List UInt32) : List BpfInsn :=
  stmt ldWAbs sdatNr :: (tests seccompRetAllow nrs ++ [stmt retK seccompRetKillProcess])

def archDispatchProgram (rv64Nrs rv32Nrs : List UInt32) : List BpfInsn :=
  stmt ldWAbs sdatArch :: jump jmpJeqK auditArchRiscv64 0 (.ofNat (2 + 2 * rv64Nrs.length)) ::
    (numberBlock rv64Nrs ++ jump jmpJeqK auditArchRiscv32 1 0 :: stmt retK seccompRetKillProcess :: numberBlock rv32Nrs)

def riscv32OnlyProgram (nrs : List UInt32) : List BpfInsn :=
  stmt ldWAbs sdatArch :: jump jmpJeqK auditArchRiscv32 1 0 :: stmt retK seccompRetKillProcess :: numberBlock nrs

theorem numberBlock_length (nrs : List UInt32) : (numberBlock nrs).length = 2 + 2 * nrs.length := by
  rw [numberBlock, List.length_cons, List.length_append, tests_length, List.length_singleton]
  omega

theorem archDispatchProgram_length (rv64Nrs rv32Nrs : List UInt32) :
    (archDispatchProgram rv64Nrs rv32Nrs).length = 8 + 2 * (rv64Nrs.length + rv32Nrs.length) := by
  simp only [archDispatchProgram, List.length_append, List.length_cons, numberBlock_length]
  omega

/-- One more than `total` counts. -/
theorem riscv32OnlyProgram_length (nrs : List UInt32) : (riscv32OnlyProgram nrs).length = 5 + 2 * nrs.length := by
  simp only [riscv32OnlyProgram, List.length_cons, numberBlock_length]
  omega

/-- The program stored in a buffer that was found large enough, and its length. -/
def emitted (bufsz : Int) (prog : List BpfInsn) : Exec (Int × List BpfInsn) := do
  let written ← emitAll bufsz prog []
  return (written.length, written)

theorem buildArchDispatchFilter_eq (bufsz : Int) (rv64Nrs rv32Nrs : List UInt32) :
    buildArchDispatchFilter bufsz rv64Nrs rv32Nrs =
      if 2 ^ 31 ≤ 8 + 2 * (rv64Nrs.length + rv32Nrs.length) then .outOfBounds
      else if bufsz < (8 + 2 * (rv64Nrs.length + rv32Nrs.length) : Nat) then .returns (-1, [])
      else if 255 < 2 + 2 * rv64Nrs.length then .returns (-1, [])
      else emitted bufsz (archDispatchProgram rv64Nrs rv32Nrs) := by
  have rv64 := funext (emitAllowed_eq bufsz rv64Nrs)
  have rv32 := funext (emitAllowed_eq bufsz rv32Nrs)
  simp only [emitted, archDispatchProgram, numberBlock, List.cons_append, List.nil_append, List.append_assoc, emitAll,
    emitAll_append, Exec.bind_assoc, Exec.returns_bind, ← rv64, ← rv32]
  rfl

theorem buildRiscv32OnlyFilter_eq (bufsz : Int) (nrs : List UInt32) :
    buildRiscv32OnlyFilter bufsz nrs =
      if 2 ^ 31 ≤ 4 + 2 * nrs.length then .outOfBounds
      else if bufsz < (4 + 2 * nrs.length : Nat) then .returns (-1, [])
      else emitted bufsz (riscv32OnlyProgram nrs) := by
  have allowed := funext (emitAllowed_eq bufsz nrs)
  simp only [emitted, riscv32OnlyProgram, numberBlock, emitAll, emitAll_append, Exec.bind_assoc, Exec.returns_bind,
    ← allowed]
  rfl

theorem emitted_fits {bufsz : Int} {prog : List BpfInsn} (fits : prog.length ≤ bufsz) :
    emitted bufsz prog = .returns (prog.length, prog) := by
  rw [emitted, emitAll_fits prog [] fits]
  rfl

theorem emitted_overflows {bufsz : Int} {prog : List BpfInsn} (start : 0 ≤ bufsz) (overflows : bufsz < prog.length) :
    emitted bufsz prog = .outOfBounds := by
  rw [emitted, emitAll_overflows prog [] start overflows]
  rfl

theorem run_numberBlock {d : SeccompData} {a : UInt32} (nrs : List UInt32) (rest : List BpfInsn) :
    run d.load (numberBlock nrs ++ rest) 0 a =
      some (if d.nr ∈ nrs then seccompRetAllow else seccompRetKillProcess) := by
  rw [numberBlock, List.cons_append, List.append_assoc, run_ld]
  show run d.load (tests seccompRetAllow nrs ++ _) 0 d.nr = _
  rw [run_tests, List.singleton_append, run_ret]
  split <;> rfl

/-- The test for 32 bits, with the block behind it. -/
theorem run_riscv32 {d : SeccompData} (nrs : List UInt32) :
    run d.load (jump jmpJeqK auditArchRiscv32 1 0 :: stmt retK seccompRetKillProcess :: numberBlock nrs) 0 d.arch =
      some (if d.arch = auditArchRiscv32 ∧ d.nr ∈ nrs then seccompRetAllow else seccompRetKillProcess) := by
  rw [run_jeq]
  by_cases arch : d.arch = auditArchRiscv32
  · have block := run_numberBlock (d := d) (a := d.arch) nrs []
    rw [List.append_nil] at block
    simp only [arch, true_and, if_true] at block ⊢
    exact block
  · rw [if_neg arch, if_neg fun allowed => arch allowed.1]
    rfl

theorem runFilter_riscv32Only (nrs : List UInt32) (d : SeccompData) :
    runFilter (riscv32OnlyProgram nrs) d =
      some (if d.arch = auditArchRiscv32 ∧ d.nr ∈ nrs then seccompRetAllow else seccompRetKillProcess) := by
  rw [runFilter, riscv32OnlyProgram, run_ld]
  exact run_riscv32 nrs

theorem runFilter_archDispatch {rv64Nrs : List UInt32} (short : 2 + 2 * rv64Nrs.length ≤ 255) (rv32Nrs : List UInt32)
    (d : SeccompData) :
    runFilter (archDispatchProgram rv64Nrs rv32Nrs) d =
      some (if d.arch = auditArchRiscv64 ∧ d.nr ∈ rv64Nrs ∨ d.arch = auditArchRiscv32 ∧ d.nr ∈ rv32Nrs then
        seccompRetAllow else seccompRetKillProcess) := by
  rw [runFilter, archDispatchProgram, run_ld]
  show run d.load _ 0 d.arch = _
  rw [run_jeq]
  by_cases arch : d.arch = auditArchRiscv64
  · rw [if_pos arch]
    refine (run_numberBlock rv64Nrs _).trans ?_
    simp only [arch, true_and, show ¬auditArchRiscv64 = auditArchRiscv32 by decide, false_and, or_false]
  · -- the jump leads right behind the first block
    have offset : (UInt8.ofNat (2 + 2 * rv64Nrs.length)).toNat = (numberBlock rv64Nrs).length + 0 := by
      rw [UInt8.toNat_ofNat', numberBlock_length]
      omega
    rw [if_neg arch, offset, run_append, run_riscv32]
    simp only [arch, false_and, false_or]

theorem archDispatchProgram_jumpsInside {rv64Nrs : List UInt32} (short : 2 + 2 * rv64Nrs.length ≤ 255)
    (rv32Nrs : List UInt32) : JumpsInside (archDispatchProgram rv64Nrs rv32Nrs) := by
  have block (nrs : List UInt32) {rest : List BpfInsn} (inside : JumpsInside rest) :
      JumpsInside (numberBlock nrs ++ rest) := by
    rw [numberBlock, List.cons_append, List.append_assoc, jumpsInside_stmt (by decide)]
    exact jumpsInside_tests nrs (Nat.succ_pos _) ((jumpsInside_stmt (by decide)).mpr inside)
  have last := block rv32Nrs jumpsInside_nil
  rw [List.append_nil] at last
  rw [archDispatchProgram, jumpsInside_stmt (by decide), jumpsInside_cons]
  refine ⟨fun _ => ?_, block rv64Nrs ?_⟩
  · have offset : (UInt8.ofNat (2 + 2 * rv64Nrs.length)).toNat = 2 + 2 * rv64Nrs.length := by
      rw [UInt8.toNat_ofNat']
      omega
    simp only [jump, offset, List.length_append, List.length_cons, numberBlock_length]
    have none : (0 : UInt8).toNat = 0 := rfl
    exact ⟨by omega, by omega⟩
  · rw [jumpsInside_cons, jumpsInside_stmt (by decide)]
    refine ⟨fun _ => ?_, last⟩
    simp only [jump, List.length_cons, numberBlock_length]
    have one : (1 : UInt8).toNat = 1 := rfl
    exact ⟨by omega, by simp⟩

/-- A filter that was built lets the listed numbers of each architecture pass and no others. -/
theorem archDispatchFilter_dispatches {bufsz count : Int} {rv64Nrs rv32Nrs : List UInt32} {prog : List BpfInsn}
    (built : buildArchDispatchFilter bufsz rv64Nrs rv32Nrs = .returns (count, prog)) (accepted : 0 ≤ count) :
    count = 8 + 2 * (rv64Nrs.length + rv32Nrs.length) ∧ count ≤ bufsz ∧ prog.length = count ∧ JumpsInside prog ∧
      ∀ d : SeccompData, (runFilter prog d = some seccompRetAllow ↔
          d.arch = auditArchRiscv64 ∧ d.nr ∈ rv64Nrs ∨ d.arch = auditArchRiscv32 ∧ d.nr ∈ rv32Nrs) ∧
        (runFilter prog d ≠ some seccompRetAllow → runFilter prog d = some seccompRetKillProcess) := by
  rw [buildArchDispatchFilter_eq] at built
  split at built
  · cases built
  split at built
  · cases built
    exact absurd accepted (by decide)
  split at built
  · cases built
    exact absurd accepted (by decide)
  rename_i _ fits short
  have length := archDispatchProgram_length rv64Nrs rv32Nrs
  rw [emitted_fits (by omega)] at built
  cases built
  refine ⟨by omega, by omega, rfl, archDispatchProgram_jumpsInside (by omega) rv32Nrs, fun d => ?_⟩
  rw [runFilter_archDispatch (by omega)]
  split
  · rename_i allowed
    exact ⟨iff_of_true rfl allowed, fun other => absurd rfl other⟩
  · rename_i other
    exact ⟨iff_of_false (by decide) other, fun _ => rfl⟩

theorem archDispatchFilter_dispatches_writeAndExit :
    runFilter (archDispatchProgram [64] [64, 94]) ⟨94, auditArchRiscv64⟩ ≠ some seccompRetAllow := by
  have built : buildArchDispatchFilter 14 [64] [64, 94] = .returns (14, archDispatchProgram [64] [64, 94]) := by
    decide
  have dispatches := archDispatchFilter_dispatches built (by decide)
  exact fun allowed => absurd (((dispatches.2.2.2.2 ⟨94, auditArchRiscv64⟩).1).mp allowed) (by decide)

/-- The filter is refused, or it fits the buffer and lets the listed numbers pass on
RISCV32 and no others. -/
def Riscv32OnlyBuilt (bufsz : Int) (nrs : List UInt32) : Prop :=
  buildRiscv32OnlyFilter bufsz nrs = .returns (-1, []) ∨
    ∃ prog, buildRiscv32OnlyFilter bufsz nrs = .returns (prog.length, prog) ∧ prog.length ≤ bufsz ∧
      ∀ d : SeccompData, (runFilter prog d = some seccompRetAllow ↔ d.arch = auditArchRiscv32 ∧ d.nr ∈ nrs) ∧
        (runFilter prog d ≠ some seccompRetAllow → runFilter prog d = some seccompRetKillProcess)

/-- `total` leaves out one instruction, so a buffer of exactly that size is overrun. -/
theorem riscv32OnlyBuilt_iff (bufsz : Int) (nrs : List UInt32) :
    Riscv32OnlyBuilt bufsz nrs ↔ 4 + 2 * nrs.length < 2 ^ 31 ∧ bufsz ≠ (4 + 2 * nrs.length : Nat) := by
  have length := riscv32OnlyProgram_length nrs
  rw [Riscv32OnlyBuilt, buildRiscv32OnlyFilter_eq]
  by_cases small : 2 ^ 31 ≤ 4 + 2 * nrs.length
  · rw [if_pos small]
    exact iff_of_false (by simp) (by omega)
  rw [if_neg small]
  by_cases tooLarge : bufsz < (4 + 2 * nrs.length : Nat)
  · rw [if_pos tooLarge]
    exact iff_of_true (.inl rfl) (by omega)
  rw [if_neg tooLarge]
  by_cases exactFit : bufsz = (4 + 2 * nrs.length : Nat)
  · rw [emitted_overflows (by omega) (by omega)]
    exact iff_of_false (by simp) (by omega)
  · rw [emitted_fits (by omega)]
    refine iff_of_true (.inr ⟨_, rfl, by omega, fun d => ?_⟩) (by omega)
    rw [runFilter_riscv32Only]
    split
    · rename_i allowed
      exact ⟨iff_of_true rfl allowed, fun other => absurd rfl other⟩
    · rename_i other
      exact ⟨iff_of_false (by decide) other, fun _ => rfl⟩

/-- The phase-2 list and a buffer of the documented size. -/
theorem riscv32Only_exactFit_overruns :
    buildRiscv32OnlyFilter 14 [29, 63, 64, 93, 94] = .outOfBounds ∧ ¬Riscv32OnlyBuilt 14 [29, 63, 64, 93, 94] := by
  have overruns : buildRiscv32OnlyFilter 14 [29, 63, 64, 93, 94] = .outOfBounds := by decide
  rw [Riscv32OnlyBuilt, overruns]
  exact ⟨rfl, by simp⟩

end Blyt
