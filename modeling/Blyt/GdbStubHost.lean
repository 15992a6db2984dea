import Blyt.Lib.Latest
import Blyt.Lib.Window
import Blyt.GdbTransfer

namespace Blyt
namespace GdbStub
open HexText Window Latest

/-! The CPU of `gdb_stub_host.c`. -/

def mockRamBase : UInt32 := 0x10000

def mockRamSize : Nat := 64 * 1024

/-- `mock_regs` and `mock_ram`. -/
structure MockCpu where
  regs : Vector UInt8 132
  ram : List UInt8
  size : ram.length = mockRamSize

/-- `off`, where the address is one of the RAM. -/
def ramOffset (addr : UInt32) : Option Nat :=
  if addr < mockRamBase ∨ (addr - mockRamBase).toNat ≥ mockRamSize then none else some (addr - mockRamBase).toNat

def mockReadMem (addr n : UInt32) (cpu : MockCpu) : List UInt8 :=
  match ramOffset addr with
  | none => List.replicate n.toNat 0
  | some off => window cpu.ram off (min n.toNat (mockRamSize - off))

theorem mockReadMem_length (addr n : UInt32) (cpu : MockCpu) : (mockReadMem addr n cpu).length ≤ n.toNat := by
  rw [mockReadMem]
  split
  · rw [List.length_replicate]
  · rw [window, List.length_take]
    omega

theorem ramOffset_lt {addr : UInt32} {off : Nat} (inside : ramOffset addr = some off) : off < mockRamSize := by
  rw [ramOffset] at inside
  split at inside
  · cases inside
  · rename_i within
    cases inside
    exact Nat.lt_of_not_le (not_or.mp within).2

/-- What of a field is within the RAM from an offset on. -/
def clipped (off : Nat) (src : List UInt8) : List UInt8 := src.take (mockRamSize - off)

theorem clipped_fits {off : Nat} (inside : off < mockRamSize) (cpu : MockCpu) (src : List UInt8) :
    off + (clipped off src).length ≤ cpu.ram.length := by
  rw [clipped, List.length_take, cpu.size]
  omega

def mockWriteMem (addr : UInt32) (src : List UInt8) (cpu : MockCpu) : MockCpu where
  regs := cpu.regs
  ram :=
    match ramOffset addr with
    | none => cpu.ram
    | some off => overwrite cpu.ram off (clipped off src)
  size := by
    cases inside : ramOffset addr with
    | none => exact cpu.size
    | some off => exact (length_overwrite (clipped_fits (ramOffset_lt inside) cpu src)).trans cpu.size

/-- `ops` of `main`. Breakpoints and reloads do not touch the machine. -/
def mockOps : FcGdbCpuOps MockCpu where
  readRegs := some MockCpu.regs
  writeRegs := some fun regs cpu => { cpu with regs := regs }
  readMem := some fun addr n cpu => ⟨mockReadMem addr n cpu, mockReadMem_length addr n cpu⟩
  writeMem := some mockWriteMem
  setBreakpoint := some fun _ cpu => cpu
  clearBreakpoint := some fun _ cpu => cpu
  reloadCart := some fun _ cpu => (0, cpu)

/-! What a debugger asks for. -/

/-- The branches of the dispatcher that do not touch registers or memory. -/
def Request.elsewhere : Request → Bool
  | .g | .G _ | .m _ | .M _ => false
  | _ => true

/-- A packet of a debugger, with the bytes it stands for. -/
inductive Command where
  | readRegs
  | writeRegs (regs : Vector UInt8 132)
  | readMem (addr len : UInt32)
  | writeMem (addr : UInt32) (bytes : List UInt8) (short : bytes.length < 2 ^ 32)
  | other (pkt : CString) (elsewhere : (dispatch pkt.chars).elsewhere)

namespace Command

def text : Command → List UInt8
  | readRegs => ascii "g"
  | writeRegs regs => ascii "G" ++ encode regs.toList
  | readMem addr len => ascii "m" ++ number addr.toNat ++ 0x2c :: number len.toNat
  | writeMem addr bytes _ => ascii "M" ++ number addr.toNat ++ 0x2c :: (number bytes.length ++ 0x3a :: encode bytes)
  | other pkt _ => pkt.chars

theorem encode_noNul (bytes : List UInt8) : 0 ∉ encode bytes := by
  intro member
  obtain ⟨d, same⟩ := digit_of_mem_encode member
  exact (digit_ne d).2.2.2.2 same.symm

theorem text_noNul (c : Command) : 0 ∉ c.text := by
  cases c with
  | readRegs => decide
  | writeRegs regs =>
    simp only [text, List.mem_append, not_or]
    exact ⟨by decide, encode_noNul _⟩
  | readMem addr len =>
    simp only [text, List.mem_append, List.mem_cons, not_or]
    exact ⟨⟨by decide, number_noNul _⟩, by decide, number_noNul _⟩
  | writeMem addr bytes _ =>
    simp only [text, List.mem_append, List.mem_cons, not_or]
    exact ⟨⟨by decide, number_noNul _⟩, by decide, number_noNul _, by decide, encode_noNul _⟩
  | other pkt _ => exact pkt.noNul

def pkt (c : Command) : CString := ⟨c.text, c.text_noNul⟩

/-- The registers that a command sets. -/
def setsRegs : Command → Unit → Option (Vector UInt8 132)
  | writeRegs regs, _ => some regs
  | _, _ => none

/-- The byte that a command puts at an offset of the RAM. -/
def setsByte (malloc : Nat → Bool) : Command → Nat → Option UInt8
  | writeMem addr bytes _, i =>
    match ramOffset addr with
    | none => none
    | some off => if malloc bytes.length ∧ off ≤ i then bytes[i - off]? else none
  | _, _ => none

end Command

/-- The byte at an offset of the RAM, behind some commands: the last that was put there. -/
def lastByte (malloc : Nat → Bool) (cpu : MockCpu) (log : List Command) (i : Nat) : UInt8 :=
  ((latest (Command.setsByte malloc) log i).or cpu.ram[i]?).getD 0

/-- The bytes that a read gets, behind some commands. Outside the RAM it gets zeros, and nothing behind its end. -/
def readBytes (malloc : Nat → Bool) (cpu : MockCpu) (log : List Command) (addr len : UInt32) : List UInt8 :=
  match ramOffset addr with
  | none => List.replicate len.toNat 0
  | some off => (List.range (min len.toNat (mockRamSize - off))).map fun i => lastByte malloc cpu log (off + i)

/-- What a command is to be answered with, behind others. -/
def Command.reply (malloc : Nat → Bool) (cpu : MockCpu) (log : List Command) : Command → Option (List UInt8)
  | readRegs => some (encode ((latest Command.setsRegs log ()).getD cpu.regs).toList)
  | writeRegs _ => some (ascii "OK")
  | readMem addr len =>
    some (if 4096 < len.toNat then ascii "E03" else if ¬malloc len.toNat then ascii "E04"
      else encode (readBytes malloc cpu log addr len))
  | writeMem _ bytes _ => some (if malloc bytes.length then ascii "OK" else ascii "E04")
  | other _ _ => none

/-! What the handlers make of the packets. -/

variable {malloc : Nat → Bool} {g g' : GdbState MockCpu}

theorem hexDecode_encode (bytes : List UInt8) : hexDecode bytes.length (encode bytes) = bytes := by
  induction bytes with
  | nil => rfl
  | cons b bytes ih =>
    rw [encode_cons, List.length_cons, hexDecode, value_digit, value_digit]
    show join (high b) (low b) :: _ = _
    rw [join_high_low, ih]

theorem stops_colon (more : List UInt8) : Stops (0x3a :: more) := by
  intro c head
  cases head
  exact ⟨by decide, by decide, by decide⟩

theorem strtoul16_addr (addr : UInt32) {rest : List UInt8} (stops : Stops rest) :
    strtoul16 (number addr.toNat ++ rest) = (addr.toNat, rest) := by
  have small := addr.toNat_lt
  rw [strtoul16_upTo _ stops, Nat.min_eq_left (by omega)]

theorem strtoul16_len {n : Nat} (short : n < 2 ^ 32) {rest : List UInt8} (stops : Stops rest) :
    strtoul16 (number n ++ rest) = (n, rest) := by
  rw [strtoul16_upTo _ stops, Nat.min_eq_left (by omega)]

theorem stops_comma_cons (more : List UInt8) : Stops (0x2c :: more) := stops_comma (.inr ⟨more, rfl⟩)

theorem stops_nil : Stops [] := stops_comma (.inl rfl)

/-- The stub drives the CPU. -/
def Drives (g : GdbState MockCpu) : Prop := g.ops = mockOps

theorem handle_writeRegs (ops : Drives g) (regs : Vector UInt8 132) :
    handle malloc g (dispatch (Command.writeRegs regs).text) =
      .returns (ascii "OK", { g with machine := { g.machine with regs := regs } }) := by
  have taken : dispatch (Command.writeRegs regs).text = .G (encode regs.toList) := rfl
  have decoded : hexDecode 132 (encode regs.toList) = regs.toList := by
    have all := hexDecode_encode regs.toList
    rwa [Vector.length_toList] at all
  have whole : (hexDecode 132 (encode regs.toList)).length = 132 := by rw [decoded, Vector.length_toList]
  rw [taken, handle, handleG, ops]
  show Exec.returns (if whole : _ then _ else _) = _
  rw [dif_pos whole]
  congr 4
  exact Vector.toArray_inj.mp (congrArg List.toArray decoded)

theorem handle_readMem (ops : Drives g) (addr len : UInt32) :
    handle malloc g (dispatch (Command.readMem addr len).text) =
      .returns (if 4096 < len.toNat then ascii "E03" else if ¬malloc len.toNat then ascii "E04"
        else encode (mockReadMem addr len g.machine), g) := by
  have taken : dispatch (Command.readMem addr len).text = .m (number addr.toNat ++ 0x2c :: number len.toNat) := rfl
  have last := strtoul16_addr len stops_nil
  rw [List.append_nil] at last
  have large : len > 4096 ∨ maxPacket < (len * 2 + 1).toNat ↔ 4096 < len.toNat := by
    have long : len > 4096 ↔ 4096 < len.toNat := UInt32.lt_iff_toNat_lt
    rw [long]
    refine or_iff_left_of_imp fun over' => ?_
    by_contra small
    have twice : (len * 2 + 1).toNat = len.toNat * 2 + 1 := by
      rw [UInt32.toNat_add, UInt32.toNat_mul, show (2 : UInt32).toNat = 2 from rfl, show (1 : UInt32).toNat = 1 from rfl]
      omega
    rw [twice, maxPacket] at over'
    omega
  rw [taken, handle, handlem, strtoul16_addr addr (stops_comma_cons _), ops]
  simp only [List.head?_cons, ne_eq, not_true_eq_false, if_false, List.tail_cons, last, UInt32.ofNat_toNat, large, mockOps]

theorem handle_writeMem (ops : Drives g) (addr : UInt32) (bytes : List UInt8) (short : bytes.length < 2 ^ 32) :
    handle malloc g (dispatch (Command.writeMem addr bytes short).text) =
      .returns (if malloc bytes.length then (ascii "OK", { g with machine := mockWriteMem addr bytes g.machine })
        else (ascii "E04", g)) := by
  have taken : dispatch (Command.writeMem addr bytes short).text =
      .M (number addr.toNat ++ 0x2c :: (number bytes.length ++ 0x3a :: encode bytes)) := rfl
  have size : (UInt32.ofNat bytes.length).toNat = bytes.length := UInt32.toNat_ofNat_of_lt' short
  rw [taken, handle, handleM, strtoul16_addr addr (stops_comma_cons _), ops]
  simp only [List.head?_cons, ne_eq, not_true_eq_false, if_false, List.tail_cons, strtoul16_len short (stops_colon _),
    UInt32.ofNat_toNat, size, hexDecode_encode, mockOps]
  cases malloc bytes.length <;> rfl

/-- What the machine is behind some commands: the last registers, and in each cell the last byte. -/
structure Remembers (malloc : Nat → Bool) (cpu : MockCpu) (log : List Command) (now : MockCpu) : Prop where
  regs : now.regs = (latest Command.setsRegs log ()).getD cpu.regs
  ram : ∀ i < mockRamSize, now.ram[i]? = (latest (Command.setsByte malloc) log i).or cpu.ram[i]?

variable {cpu now : MockCpu} {log : List Command}

theorem Remembers.start (cpu : MockCpu) : Remembers malloc cpu [] cpu := ⟨rfl, fun _ _ => rfl⟩

/-- A command that changes nothing. -/
theorem Remembers.skip (known : Remembers malloc cpu log now) {c : Command} (regs : c.setsRegs () = none)
    (ram : ∀ i, c.setsByte malloc i = none) : Remembers malloc cpu (log ++ [c]) now := by
  constructor
  · rw [latest_snoc, regs, Option.none_or, known.regs]
  · intro i inside
    rw [latest_snoc, ram, Option.none_or, known.ram i inside]

theorem Remembers.writeRegs (known : Remembers malloc cpu log now) (regs : Vector UInt8 132) :
    Remembers malloc cpu (log ++ [.writeRegs regs]) { now with regs := regs } := by
  constructor
  · rw [latest_snoc]
    rfl
  · intro i inside
    rw [latest_snoc]
    exact known.ram i inside

theorem Remembers.writeMem (known : Remembers malloc cpu log now) (addr : UInt32) (bytes : List UInt8)
    (short : bytes.length < 2 ^ 32) (served : malloc bytes.length = true) :
    Remembers malloc cpu (log ++ [.writeMem addr bytes short]) (mockWriteMem addr bytes now) := by
  constructor
  · rw [latest_snoc]
    exact known.regs
  · intro i inside
    have ram : (mockWriteMem addr bytes now).ram = match ramOffset addr with
      | none => now.ram
      | some off => overwrite now.ram off (clipped off bytes) := rfl
    rw [latest_snoc, Command.setsByte, ram]
    cases within : ramOffset addr with
    | none => exact known.ram i inside
    | some off =>
      have front := ramOffset_lt within
      have fits := clipped_fits front now bytes
      have length : (clipped off bytes).length = min (mockRamSize - off) bytes.length := List.length_take
      dsimp only
      by_cases covered : off ≤ i ∧ i < off + (clipped off bytes).length
      · obtain ⟨j, rfl⟩ := Nat.exists_eq_add_of_le covered.1
        rw [getElem?_overwrite_inside fits (by omega), if_pos ⟨served, covered.1⟩, Nat.add_sub_cancel_left, clipped,
          List.getElem?_take_of_lt (by omega), List.getElem?_eq_getElem (by omega), Option.some_or, Option.some_or]
      · rw [getElem?_overwrite_outside fits covered, known.ram i inside]
        split
        · rename_i behind
          have past : bytes.length ≤ i - off := by omega
          rw [List.getElem?_eq_none past, Option.none_or]
        · rfl

theorem Remembers.read (known : Remembers malloc cpu log now) (addr len : UInt32) :
    mockReadMem addr len now = readBytes malloc cpu log addr len := by
  rw [mockReadMem, readBytes]
  cases within : ramOffset addr with
  | none => rfl
  | some off =>
    have front := ramOffset_lt within
    dsimp only
    refine List.ext_getElem? fun i => ?_
    by_cases inside : i < min len.toNat (mockRamSize - off)
    · have cell : now.ram[off + i]? = some (lastByte malloc cpu log (off + i)) := by
        have here : off + i < now.ram.length := by
          rw [now.size]
          omega
        rw [lastByte, ← known.ram _ (by omega), List.getElem?_eq_getElem here]
        rfl
      rw [getElem?_window inside, List.getElem?_map, List.getElem?_range inside, cell]
      rfl
    · rw [window, List.getElem?_take_eq_none (by omega), List.getElem?_eq_none]
      rw [List.length_map, List.length_range]
      omega

/-- The other packets leave the machine as it is. -/
theorem handle_elsewhere {request : Request} {out : List UInt8} (ops : Drives g) (elsewhere : request.elsewhere)
    (done : handle malloc g request = .returns (out, g')) : g'.machine = g.machine ∧ Drives g' := by
  cases request with
  | g | G | m | M => cases elsewhere
  | qXferExecFile args | qXferLibraries args =>
    obtain ⟨text, _, same⟩ := Exec.map_eq_returns.mp done
    cases same
    exact ⟨rfl, ops⟩
  | Z0 args =>
    have result : handleZ0 g args = (out, g') := Exec.returns.inj done
    rw [handleZ0, ops] at result
    split at result
    · cases result
      exact ⟨rfl, rfl⟩
    · cases result
      exact ⟨rfl, ops⟩
  | z0 args =>
    have result : handlez0 g args = (out, g') := Exec.returns.inj done
    rw [handlez0, ops] at result
    cases result
    exact ⟨rfl, rfl⟩
  | qFc32Reload args =>
    have result : handleQFc32Reload g args = (out, g') := Exec.returns.inj done
    rw [handleQFc32Reload, ops] at result
    cases result
    exact ⟨rfl, rfl⟩
  | qSupported | stopReason | vContQ | vCont | qAttached | qC | unsupported =>
    cases done
    exact ⟨rfl, ops⟩

/-- The stub takes a packet of the debugger. -/
def serve (malloc : Nat → Bool) (g : GdbState MockCpu) (c : Command) : Exec (GdbState MockCpu) :=
  Prod.snd <$> handlePacket malloc g c.pkt

theorem handlePacket_of_handle {bytes : List UInt8} {pkt : CString} (noNul : 0 ∉ bytes)
    (done : handle malloc g (dispatch pkt.chars) = .returns (bytes, g')) :
    ∃ out, handlePacket malloc g pkt = .returns (out, g') ∧ out.chars = bytes := by
  refine ⟨cString bytes, ?_, cString_chars noNul⟩
  rw [handlePacket, done]
  rfl

theorem serve_returns {c : Command} (done : serve malloc g c = .returns g') :
    ∃ bytes, handle malloc g (dispatch c.text) = .returns (bytes, g') := by
  obtain ⟨⟨out, after⟩, handled, same⟩ := Exec.map_eq_returns.mp done
  cases same
  obtain ⟨bytes, handled, -⟩ := handlePacket_returns handled
  exact ⟨bytes, handled⟩

/-- A packet is served. -/
theorem Remembers.serve (known : Remembers malloc cpu log g.machine) (ops : Drives g) {c : Command}
    (done : serve malloc g c = .returns g') : Remembers malloc cpu (log ++ [c]) g'.machine ∧ Drives g' := by
  obtain ⟨bytes, handled⟩ := serve_returns done
  cases c with
  | readRegs =>
    cases handled
    exact ⟨known.skip rfl fun _ => rfl, ops⟩
  | writeRegs regs =>
    rw [handle_writeRegs ops] at handled
    cases handled
    exact ⟨known.writeRegs regs, ops⟩
  | readMem addr len =>
    rw [handle_readMem ops] at handled
    cases handled
    exact ⟨known.skip rfl fun _ => rfl, ops⟩
  | writeMem addr bytes short =>
    rw [handle_writeMem ops] at handled
    by_cases served : malloc bytes.length = true
    · rw [if_pos served] at handled
      cases handled
      exact ⟨known.writeMem addr bytes short served, ops⟩
    · rw [if_neg served] at handled
      cases handled
      refine ⟨known.skip rfl fun i => ?_, ops⟩
      rw [Command.setsByte]
      split
      · rfl
      · exact if_neg fun both => served both.1
  | other pkt elsewhere =>
    obtain ⟨machine, ops'⟩ := handle_elsewhere ops elsewhere handled
    exact ⟨machine ▸ known.skip rfl fun _ => rfl, ops'⟩

theorem Remembers.run (known : Remembers malloc cpu log g.machine) (ops : Drives g) {more : List Command}
    (ran : Exec.run (GdbStub.serve malloc) g more = .returns g') : Remembers malloc cpu (log ++ more) g'.machine ∧ Drives g' := by
  induction more generalizing g log with
  | nil =>
    cases ran
    rw [List.append_nil]
    exact ⟨known, ops⟩
  | cons c more ih =>
    rw [Exec.run] at ran
    obtain ⟨g₁, served, rest⟩ := Exec.bind_eq_returns.mp ran
    obtain ⟨known₁, ops₁⟩ := known.serve ops served
    have all := ih known₁ ops₁ rest
    rwa [List.append_assoc, List.singleton_append] at all

theorem handle_reply (known : Remembers malloc cpu log g.machine) (ops : Drives g) {c : Command} {reply : List UInt8}
    (asked : c.reply malloc cpu log = some reply) : ∃ g', handle malloc g (dispatch c.text) = .returns (reply, g') := by
  cases c with
  | readRegs =>
    have taken : dispatch Command.readRegs.text = .g := rfl
    rw [Command.reply, Option.some.injEq, ← known.regs] at asked
    refine ⟨g, ?_⟩
    rw [taken, handle, handleg, ops, ← asked]
    rfl
  | writeRegs regs =>
    rw [Command.reply, Option.some.injEq] at asked
    exact ⟨_, asked ▸ handle_writeRegs ops regs⟩
  | readMem addr len =>
    rw [Command.reply, Option.some.injEq, ← known.read] at asked
    exact ⟨g, asked ▸ handle_readMem ops addr len⟩
  | writeMem addr bytes short =>
    rw [Command.reply, Option.some.injEq] at asked
    rw [handle_writeMem ops]
    split at asked
    · rename_i served
      rw [if_pos served, asked]
      exact ⟨_, rfl⟩
    · rename_i refused
      rw [if_neg refused, asked]
      exact ⟨_, rfl⟩
  | other pkt _ => cases asked

theorem reply_noNul {c : Command} {reply : List UInt8} (asked : c.reply malloc cpu log = some reply) : 0 ∉ reply := by
  cases c with
  | readRegs =>
    cases asked
    exact Command.encode_noNul _
  | writeRegs regs =>
    cases asked
    decide
  | readMem addr len =>
    cases asked
    split
    · decide
    · split
      · decide
      · exact Command.encode_noNul _
  | writeMem addr bytes short =>
    cases asked
    split
    · decide
    · decide
  | other pkt _ => cases asked

/-- Whatever a debugger did before, it reads the registers it set last and in each cell of the RAM the byte it put
there last; where nothing was written there is what was there at first. -/
theorem reads_last_written (malloc : Nat → Bool) (g : GdbState MockCpu) (log : List Command) {g' : GdbState MockCpu}
    (ran : Exec.run (serve malloc) { g with ops := mockOps } log = .returns g') (c : Command) {reply : List UInt8}
    (asked : c.reply malloc g.machine log = some reply) :
    ∃ out g'', handlePacket malloc g' c.pkt = .returns (out, g'') ∧ out.chars = reply := by
  obtain ⟨known, ops⟩ := (Remembers.start g.machine).run (g := { g with ops := mockOps }) rfl ran
  obtain ⟨g'', handled⟩ := handle_reply known ops asked
  have handled : handle malloc g' (dispatch c.pkt.chars) = .returns (reply, g'') := handled
  obtain ⟨out, done, chars⟩ := handlePacket_of_handle (reply_noNul asked) handled
  exact ⟨out, g'', done, chars⟩

theorem serve_of_handle {c : Command} {bytes : List UInt8} (done : handle malloc g (dispatch c.text) = .returns (bytes, g')) :
    serve malloc g c = .returns g' := by
  have done : handle malloc g (dispatch c.pkt.chars) = .returns (bytes, g') := done
  rw [serve, handlePacket, done]
  rfl

/-- A stub with zeros in its registers and its RAM, as `main` sets it up but for the program counter. -/
def zeroed : GdbState MockCpu :=
  ⟨true, ⟨none, []⟩, mockOps, ⟨.replicate 132 0, List.replicate mockRamSize 0, List.length_replicate⟩, ⟨[], by decide⟩, true,
    .continue, false⟩

/-- Three bytes are put where the RAM ends. -/
def overEnd : Command := .writeMem 0x1fffe [0xab, 0xcd, 0xef] (by decide)

/-- Two of them are read back. -/
theorem reads_last_written_end : ∃ g' : GdbState MockCpu, Exec.run (serve fun _ => true) zeroed [overEnd] = .returns g' ∧
    ∃ out g'', handlePacket (fun _ => true) g' (Command.readMem 0x1fffe 4).pkt = .returns (out, g'') ∧
      out.chars = ascii "abcd" := by
  have drives : Drives zeroed := rfl
  have stored : handle (fun _ => true) zeroed (dispatch overEnd.text) = _ := handle_writeMem drives _ _ _
  have ran : Exec.run (serve fun _ => true) zeroed [overEnd] = _ :=
    congrArg (· >>= fun g => Exec.run (serve fun _ => true) g []) (serve_of_handle stored)
  have asked : (Command.readMem 0x1fffe 4).reply (fun _ => true) zeroed.machine [overEnd] = some (ascii "abcd") := by
    decide
  exact ⟨_, ran, reads_last_written (fun _ => true) zeroed _ ran _ asked⟩

end GdbStub
end Blyt
