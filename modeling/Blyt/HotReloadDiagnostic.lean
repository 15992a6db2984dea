import Blyt.Decimal
import Blyt.Lib.SignedOverflow
import Blyt.Lib.Window

/-! The text that says which slot a hot reload could not carry over. -/

namespace Blyt
namespace HotReloadDiagnostic
open Window SignedOverflow

/-- `hot_reload_reason_t`. The type has values that are none of its enumerators. -/
inductive Reason where
  | functionNotFound
  | functionDeleted
  | retypeRejected
  | schemaMismatch
  | saveFlattenFailed
  | unnamed (value : UInt32)
  deriving DecidableEq

/-- The object at `buf`, and `pos`. -/
@[ext] structure Diag where
  buf : List UInt8
  pos : Nat

/-- The loop that both emitters end with. `*pos` is an `int`, but stays below one. -/
def emitChars (wrapv : Bool) (bufCap : Int32) : List UInt8 → Diag → Exec (Bool × Diag)
  | [], d => .returns (true, d)
  | c :: s, d => do
    let last ← result wrapv 32 (bufCap.toInt - 1)
    if last ≤ d.pos then return (false, d)
    else do
      let buf ← writeAt d.buf d.pos [c]
      emitChars wrapv bufCap s ⟨buf, d.pos + 1⟩

/-- The digits are collected from the lowest on and reversed in place. -/
def emitUint (wrapv : Bool) (bufCap : Int32) (v : UInt32) (d : Diag) : Exec (Bool × Diag) :=
  emitChars wrapv bufCap (if v = 0 then [48] else (decimalTmp 24 v.toNat).toArray.reverse.toList) d

def emitStr (wrapv : Bool) (bufCap : Int32) (s : Option CString) (d : Diag) : Exec (Bool × Diag) :=
  match s with
  | none => .returns (true, d)
  | some s => emitChars wrapv bufCap s.chars d

section
variable (wrapv : Bool) (bufCap : Int32) (funcName : Option CString)

def emitLine (oldLine : Int32) (d : Diag) : Exec Diag :=
  if oldLine > 0 then do
    let (_, d) ← emitStr wrapv bufCap (cstr "  body: cart.lua:") d
    let (_, d) ← emitUint wrapv bufCap oldLine.toUInt32 d
    let (_, d) ← emitStr wrapv bufCap (cstr " (old) -> cart.lua:??? (new)\n") d
    return d
  else .returns d

/-- `func_name ? func_name : "(unknown)"` -/
def funcNameOr : CString := funcName.getD (cstr "(unknown)")

/-- The `switch`. -/
def emitReason (reason : Reason) (d : Diag) : Exec Diag :=
  match reason with
  | .functionNotFound => do
    let (_, d) ← emitStr wrapv bufCap (cstr "function '") d
    let (_, d) ← emitStr wrapv bufCap (funcNameOr funcName) d
    let (_, d) ← emitStr wrapv bufCap (cstr "' not found in new code\n") d
    return d
  | .functionDeleted => do
    let (_, d) ← emitStr wrapv bufCap (cstr "function '") d
    let (_, d) ← emitStr wrapv bufCap (funcNameOr funcName) d
    let (_, d) ← emitStr wrapv bufCap (cstr "' was deleted from new code\n") d
    return d
  | .retypeRejected => do
    let (_, d) ← emitStr wrapv bufCap (cstr "field retype rejected by on_retype callback\n") d
    return d
  | .schemaMismatch => do
    let (_, d) ← emitStr wrapv bufCap (cstr "region layout changed but no migration descriptor registered\n") d
    return d
  | .saveFlattenFailed => do
    let (_, d) ← emitStr wrapv bufCap (cstr "pre-reload ctx flatten failed (BLYT_ERR_FLATTEN_UNSUPPORTED_TYPE)\n") d
    return d
  | .unnamed _ => .returns d

/-- `hot_reload_diagnostic_format`: the object at `buf` afterwards, and what is returned. -/
def hotReloadDiagnosticFormat (buf : List UInt8) (slot oldLine : Int32) (reason : Reason) :
    Exec (List UInt8 × Nat) := do
  let (_, d) ← emitStr wrapv bufCap (cstr "hot_reload: failed to migrate slot ") ⟨buf, 0⟩
  let (_, d) ← emitUint wrapv bufCap slot.toUInt32 d
  let (_, d) ← emitStr wrapv bufCap (cstr " (persistent script)\n") d
  let d ← emitLine wrapv bufCap oldLine d
  let (_, d) ← emitStr wrapv bufCap (cstr "  reason: ") d
  let d ← emitReason wrapv bufCap funcName reason d
  let (_, d) ← emitStr wrapv bufCap (cstr "  surfaced via: blyt32.on_hot_reload_failed(slot=") d
  let (_, d) ← emitUint wrapv bufCap slot.toUInt32 d
  let (_, d) ← emitStr wrapv bufCap (cstr ", reason=...)\n") d
  if d.pos < bufCap.toInt then do
    let buf ← writeAt d.buf d.pos [0]
    return (buf, d.pos)
  else return (d.buf, d.pos)

/-- What a `char *` that is read up to its NUL stands for. -/
def readString (object : List UInt8) : Exec (List UInt8) :=
  if 0 ∈ object then .returns (object.takeWhile (· ≠ 0)) else .outOfBounds

/-- `hot_reload_diagnostic_emit`, `diag` being its static buffer: what is printed, and what the hook is called with if
there is one. -/
def hotReloadDiagnosticEmit (diag : List UInt8) (hook : Bool) (slot oldLine : Int32) (reason : Reason) :
    Exec (List UInt8 × Option (Int32 × List UInt8)) := do
  let (diag, _) ← hotReloadDiagnosticFormat wrapv 512 funcName diag slot oldLine reason
  let text ← readString diag
  return (ascii "STDERR " ++ text, if hook then some (slot, text) else none)

end

/-! The text that is meant, whatever room there is for it. -/

/-- `%u` -/
def unsignedText (z : Int32) : List UInt8 := ascii (toString z.toUInt32.toNat)

def lineText (oldLine : Int32) : List UInt8 :=
  if oldLine > 0 then
    ascii "  body: cart.lua:" ++ unsignedText oldLine ++ ascii " (old) -> cart.lua:??? (new)\n"
  else []

def reasonText (funcName : Option CString) : Reason → List UInt8
  | .functionNotFound => ascii "function '" ++ (funcNameOr funcName).chars ++ ascii "' not found in new code\n"
  | .functionDeleted => ascii "function '" ++ (funcNameOr funcName).chars ++ ascii "' was deleted from new code\n"
  | .retypeRejected => ascii "field retype rejected by on_retype callback\n"
  | .schemaMismatch => ascii "region layout changed but no migration descriptor registered\n"
  | .saveFlattenFailed => ascii "pre-reload ctx flatten failed (BLYT_ERR_FLATTEN_UNSUPPORTED_TYPE)\n"
  | .unnamed _ => []

def diagnosticText (slot : Int32) (funcName : Option CString) (oldLine : Int32) (reason : Reason) : List UInt8 :=
  ascii "hot_reload: failed to migrate slot " ++ unsignedText slot ++ ascii " (persistent script)\n" ++
    lineText oldLine ++ ascii "  reason: " ++ reasonText funcName reason ++ ascii "  surfaced via: blyt32.on_hot_reload_failed(slot=" ++
    unsignedText slot ++ ascii ", reason=...)\n"

theorem unsignedText_noNul (z : Int32) : 0 ∉ unsignedText z := by
  rw [unsignedText, ← decimal_eq_toString (Nat.lt_trans z.toUInt32.toNat_lt (by decide))]
  exact decimal_noNul

theorem diagnosticText_noNul (slot : Int32) (funcName : Option CString) (oldLine : Int32) (reason : Reason) :
    0 ∉ diagnosticText slot funcName oldLine reason := by
  have line : 0 ∉ lineText oldLine := by
    rw [lineText]
    split
    · simp only [List.mem_append, not_or]
      exact ⟨⟨by decide, unsignedText_noNul oldLine⟩, by decide⟩
    · exact List.not_mem_nil
  have reason : 0 ∉ reasonText funcName reason := by
    have name := (funcNameOr funcName).noNul
    cases reason with
    | functionNotFound | functionDeleted =>
      simp only [reasonText, List.mem_append, not_or]
      exact ⟨⟨by decide, name⟩, by decide⟩
    | retypeRejected | schemaMismatch | saveFlattenFailed =>
      rw [reasonText]
      decide
    | unnamed value => exact List.not_mem_nil
  simp only [diagnosticText, List.mem_append, not_or]
  exact ⟨⟨⟨⟨⟨⟨⟨⟨by decide, unsignedText_noNul slot⟩, by decide⟩, line⟩, by decide⟩, reason⟩, by decide⟩,
    unsignedText_noNul slot⟩, by decide⟩

/-! Every piece goes to a sink of one byte less than the buffer. -/

/-- The buffer, with what a sink holds at its front. -/
def Diag.of (buf : List UInt8) (s : StringSink) : Diag := ⟨s.buf ++ buf.drop s.buf.length, s.buf.length⟩

/-- The sink stands for the buffer in front of the byte that is kept for the NUL. -/
structure Room (bufCap : Int32) (buf : List UInt8) (s : StringSink) : Prop where
  exact : bufCap ≠ Int32.minValue
  cap : s.cap = (bufCap.toInt - 1).toNat
  held : s.buf.length ≤ s.cap
  object : bufCap.toInt.toNat ≤ buf.length

theorem last_eq (wrapv : Bool) {bufCap : Int32} (least : bufCap ≠ Int32.minValue) :
    result wrapv 32 (bufCap.toInt - 1) = .returns (bufCap.toInt - 1) := by
  have low := bufCap.le_toInt
  have high := bufCap.toInt_lt
  have more : bufCap.toInt ≠ -2 ^ 31 := fun value => least (Int32.toInt_inj.mp value)
  exact result_of_fits (Int.bmod_eq_of_le (by omega) (by omega))

variable {wrapv : Bool} {bufCap : Int32} {buf : List UInt8} {s : StringSink}

theorem Room.puts (room : Room bufCap buf s) (str : List UInt8) : Room bufCap buf (stringSinkPuts s str) := by
  have spec := stringSinkPuts_spec s str room.held
  rw [spec]
  refine ⟨room.exact, room.cap, ?_, room.object⟩
  have held := room.held
  simp only [List.length_append, List.length_take]
  omega

/-- A piece is stored as far as there is room, and reported whole if there was. -/
theorem emitChars_sink (room : Room bufCap buf s) (str : List UInt8) :
    emitChars wrapv bufCap str (.of buf s) =
      .returns (decide (s.buf.length + str.length ≤ s.cap), .of buf (stringSinkPuts s str)) := by
  induction str generalizing s with
  | nil =>
    rw [List.length_nil, Nat.add_zero, decide_eq_true room.held]
    rfl
  | cons c str ih =>
    rw [emitChars, last_eq wrapv room.exact, Exec.returns_bind]
    have cap := room.cap
    have held := room.held
    have object := room.object
    by_cases full : s.buf.length + 1 > s.cap
    · have stops : bufCap.toInt - 1 ≤ (Diag.of buf s).pos := by
        show bufCap.toInt - 1 ≤ (s.buf.length : Int)
        omega
      have excess : ¬s.buf.length + (c :: str).length ≤ s.cap := by
        rw [List.length_cons]
        omega
      have same : (stringSinkPuts s (c :: str)).buf = s.buf := by
        have none : s.cap - s.buf.length = 0 := by omega
        rw [stringSinkPuts_spec s _ held]
        dsimp only
        rw [none, List.take_zero, List.append_nil]
      rw [if_pos stops, decide_eq_false excess, Diag.of, Diag.of, same]
      rfl
    · have goes : ¬bufCap.toInt - 1 ≤ (Diag.of buf s).pos := by
        show ¬bufCap.toInt - 1 ≤ (s.buf.length : Int)
        omega
      have inside : s.buf.length < buf.length := by omega
      have stored : writeAt (Diag.of buf s).buf (Diag.of buf s).pos [c] =
          .returns (Diag.of buf (stringSinkPutc s c)).buf := by
        rw [stringSinkPutc, if_neg full, Diag.of, Diag.of]
        dsimp only
        rw [List.drop_eq_getElem_cons inside, writeAt_cell, List.length_append, List.length_singleton,
          List.append_assoc, List.singleton_append]
      have next : (Diag.of buf (stringSinkPutc s c)).pos = (Diag.of buf s).pos + 1 := by
        rw [stringSinkPutc, if_neg full]
        exact List.length_append
      have length : (stringSinkPutc s c).buf.length = s.buf.length + 1 := next
      rw [if_neg goes, stored, Exec.returns_bind, ← next]
      have cap' : (stringSinkPutc s c).cap = s.cap := by rw [stringSinkPutc, if_neg full]
      refine (ih (s := stringSinkPutc s c) (room.puts [c])).trans ?_
      rw [length, cap', List.length_cons, Nat.add_assoc, Nat.add_comm 1]
      rfl

theorem emitStr_sink (room : Room bufCap buf s) (str : CString) :
    emitStr wrapv bufCap str (.of buf s) =
      .returns (decide (s.buf.length + str.chars.length ≤ s.cap), .of buf (stringSinkPuts s str.chars)) :=
  emitChars_sink room str.chars

theorem emitUint_sink (room : Room bufCap buf s) (z : Int32) :
    emitUint wrapv bufCap z.toUInt32 (.of buf s) =
      .returns (decide (s.buf.length + (unsignedText z).length ≤ s.cap),
        .of buf (stringSinkPuts s (unsignedText z))) := by
  have small : z.toUInt32.toNat < 10 ^ 24 := Nat.lt_trans z.toUInt32.toNat_lt (by decide)
  have digits : (if z.toUInt32 = 0 then [48] else (decimalTmp 24 z.toUInt32.toNat).toArray.reverse.toList) =
      unsignedText z := by
    rw [unsignedText, ← decimal_eq_toString small, decimal, Array.toList_reverse]
    exact if_congr UInt32.toNat_inj.symm rfl rfl
  rw [emitUint, digits]
  exact emitChars_sink room _

theorem emitLine_sink (room : Room bufCap buf s) (oldLine : Int32) :
    emitLine wrapv bufCap oldLine (.of buf s) = .returns (.of buf (stringSinkPuts s (lineText oldLine))) := by
  rw [emitLine, lineText]
  split
  · simp only [emitStr_sink, emitUint_sink, room, Room.puts, Exec.returns_bind, stringSinkPuts_append]
    rfl
  · rfl

/-- The line that gives the reason. -/
theorem emitReason_sink (room : Room bufCap buf s) (funcName : Option CString) (reason : Reason) :
    emitReason wrapv bufCap funcName reason (.of buf s) =
      .returns (.of buf (stringSinkPuts s (reasonText funcName reason))) := by
  cases reason <;>
    simp only [emitReason, emitStr_sink, room, Room.puts, Exec.returns_bind, stringSinkPuts_append] <;> rfl

/-- All pieces go to one sink. -/
theorem hotReloadDiagnosticFormat_sink (room : Room bufCap buf s) (empty : s.buf = []) (funcName : Option CString)
    (slot oldLine : Int32) (reason : Reason) :
    hotReloadDiagnosticFormat wrapv bufCap funcName buf slot oldLine reason =
      let d := Diag.of buf (stringSinkPuts s (diagnosticText slot funcName oldLine reason))
      if d.pos < bufCap.toInt then writeAt d.buf d.pos [0] >>= fun buf => .returns (buf, d.pos)
      else .returns (d.buf, d.pos) := by
  have start : (⟨buf, 0⟩ : Diag) = .of buf s := by
    rw [Diag.of, empty]
    rfl
  rw [hotReloadDiagnosticFormat, start]
  simp only [emitStr_sink, emitUint_sink, emitLine_sink, emitReason_sink, room, Room.puts, Exec.returns_bind,
    stringSinkPuts_append]
  rfl

/-- The whole text, as far as there is room, and a NUL where there is any. -/
theorem hotReloadDiagnosticFormat_eq (wrapv : Bool) (least : bufCap ≠ Int32.minValue)
    (object : bufCap.toInt.toNat ≤ buf.length) (funcName : Option CString) (slot oldLine : Int32) (reason : Reason) :
    hotReloadDiagnosticFormat wrapv bufCap funcName buf slot oldLine reason =
      let text := diagnosticText slot funcName oldLine reason
      let n := min text.length (bufCap.toInt - 1).toNat
      .returns (if 0 < bufCap.toInt then text.take n ++ 0 :: buf.drop (n + 1) else buf, n) := by
  have room : Room bufCap buf ⟨[], (bufCap.toInt - 1).toNat, false⟩ := ⟨least, rfl, Nat.zero_le _, object⟩
  rw [hotReloadDiagnosticFormat_sink room rfl, stringSinkPuts_spec _ _ (Nat.zero_le _)]
  generalize diagnosticText slot funcName oldLine reason = text
  have held : (text.take (bufCap.toInt - 1).toNat).length = min text.length (bufCap.toInt - 1).toNat := by
    rw [List.length_take, Nat.min_comm]
  have same : text.take (min text.length (bufCap.toInt - 1).toNat) = text.take (bufCap.toInt - 1).toNat := by
    rw [Nat.min_comm, ← List.take_take, List.take_length]
  dsimp only [Diag.of, List.length_nil, Nat.sub_zero, List.nil_append]
  rw [held, same]
  by_cases positive : 0 < bufCap.toInt
  · have inside : min text.length (bufCap.toInt - 1).toNat < buf.length := by omega
    have before : ((min text.length (bufCap.toInt - 1).toNat : Nat) : Int) < bufCap.toInt := by omega
    have stored := writeAt_cell (text.take (bufCap.toInt - 1).toNat) buf[min text.length (bufCap.toInt - 1).toNat] 0
      (buf.drop (min text.length (bufCap.toInt - 1).toNat + 1))
    rw [held] at stored
    rw [if_pos before, if_pos positive, List.drop_eq_getElem_cons inside, stored, Exec.returns_bind]
  · have none : (bufCap.toInt - 1).toNat = 0 := by omega
    rw [none, Nat.min_zero, if_neg positive]
    exact if_neg positive

theorem readString_eq {text : List UInt8} (noNul : 0 ∉ text) (more : List UInt8) :
    readString (text ++ 0 :: more) = .returns text := by
  have all : ∀ c ∈ text, decide (c ≠ 0) = true :=
    fun c member => decide_eq_true fun zero => noNul (zero ▸ member)
  rw [readString, if_pos (List.mem_append_right _ List.mem_cons_self), List.takeWhile_append_of_pos all]
  exact congrArg Exec.returns (List.append_nil text)

/-- The hook is handed the slot and the text, of which 511 bytes are printed at most. -/
theorem hotReloadDiagnosticEmit_eq (wrapv : Bool) (funcName : Option CString) {diag : List UInt8}
    (size : diag.length = 512) (hook : Bool) (slot oldLine : Int32) (reason : Reason) :
    hotReloadDiagnosticEmit wrapv funcName diag hook slot oldLine reason =
      let text := (diagnosticText slot funcName oldLine reason).take 511
      .returns (ascii "STDERR " ++ text, if hook then some (slot, text) else none) := by
  have noNul := diagnosticText_noNul slot funcName oldLine reason
  have object : (512 : Int32).toInt.toNat ≤ diag.length := size.ge
  have room : ((512 : Int32).toInt - 1).toNat = 511 := rfl
  have formatted := hotReloadDiagnosticFormat_eq wrapv (by decide) object funcName slot oldLine reason
  have positive : (0 : Int) < (512 : Int32).toInt := by decide
  rw [hotReloadDiagnosticEmit, formatted, room, Exec.returns_bind, if_pos positive]
  generalize diagnosticText slot funcName oldLine reason = text at noNul
  have same : text.take (min text.length 511) = text.take 511 := by
    rw [Nat.min_comm, ← List.take_take, List.take_length]
  rw [same]
  have front : 0 ∉ text.take 511 := fun member => noNul (List.mem_of_mem_take member)
  exact (congrArg (· >>= _) (readString_eq front _))

/-! The capacity whose predecessor is no `int`. -/

/-- The first character already goes wrong: the last position overflows, or wraps to the largest. -/
theorem emitChars_least (wrapv : Bool) (c : UInt8) (str : List UInt8) :
    emitChars wrapv Int32.minValue (c :: str) ⟨[], 0⟩ = .outOfBounds := by
  rw [emitChars]
  cases wrapv with
  | false =>
    have overflows : result false 32 (Int32.minValue.toInt - 1) = .outOfBounds := result_overflows (by decide)
    rw [overflows, Exec.outOfBounds_bind]
  | true =>
    have largest : result true 32 (Int32.minValue.toInt - 1) = .returns (2 ^ 31 - 1) := result_wraps
    have goes : ¬(2 ^ 31 - 1 : Int) ≤ (0 : Nat) := by decide
    rw [largest, Exec.returns_bind, if_neg goes, writeAt_outside (Nat.le_refl 0), Exec.outOfBounds_bind]

theorem hotReloadDiagnosticFormat_least (wrapv : Bool) (funcName : Option CString) (slot oldLine : Int32)
    (reason : Reason) :
    hotReloadDiagnosticFormat wrapv Int32.minValue funcName [] slot oldLine reason = .outOfBounds := by
  have first : emitStr wrapv Int32.minValue (cstr "hot_reload: failed to migrate slot ") ⟨[], 0⟩ = .outOfBounds :=
    emitChars_least wrapv _ _
  rw [hotReloadDiagnosticFormat, first, Exec.outOfBounds_bind]

/-- Into any object of `bufCap` bytes goes the text, cut so that a NUL can follow, and the NUL; into an object of
which there are none goes nothing. What is returned is how much of the text was written. -/
def Formats (wrapv : Bool) (bufCap slot : Int32) (funcName : Option CString) (oldLine : Int32) (reason : Reason) :
    Prop :=
  ∀ buf : List UInt8, bufCap.toInt.toNat ≤ buf.length →
    let text := diagnosticText slot funcName oldLine reason
    let n := min text.length (bufCap.toInt - 1).toNat
    hotReloadDiagnosticFormat wrapv bufCap funcName buf slot oldLine reason =
      .returns (if 0 < bufCap.toInt then text.take n ++ 0 :: buf.drop (n + 1) else buf, n)

/-- For every capacity but `INT_MIN`, and however the code is built. -/
theorem formats_iff (wrapv : Bool) (bufCap slot : Int32) (funcName : Option CString) (oldLine : Int32)
    (reason : Reason) : Formats wrapv bufCap slot funcName oldLine reason ↔ bufCap ≠ Int32.minValue := by
  constructor
  · rintro formats rfl
    have written := formats [] (by decide)
    rw [hotReloadDiagnosticFormat_least] at written
    cases written
  · intro least buf object
    exact hotReloadDiagnosticFormat_eq wrapv least object funcName slot oldLine reason

theorem least_not_formats :
    ¬Formats false Int32.minValue 0 none 0 .schemaMismatch ∧ ¬Formats true Int32.minValue 0 none 0 .schemaMismatch := by
  have stray : ∀ wrapv, ¬Formats wrapv Int32.minValue 0 none 0 .schemaMismatch := by
    intro wrapv formats
    have written := formats [] (by decide)
    rw [hotReloadDiagnosticFormat_least] at written
    cases written
  exact ⟨stray false, stray true⟩

end HotReloadDiagnostic
end Blyt
