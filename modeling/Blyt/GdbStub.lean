import Blyt.GdbPackets
import Blyt.Lib.Exec

namespace Blyt
namespace GdbStub

def maxBreaks : Nat := 128

/-- The C string that starts some bytes. -/
def cString (bytes : List UInt8) : CString where
  chars := bytes.takeWhile (· ≠ 0)
  noNul := fun member => by simpa using List.mem_takeWhile_imp member

/-- `fc_gdb_library_t`. -/
structure FcGdbLibrary where
  path : CString
  lAddr : UInt32
  lLd : UInt32

/-- `fc_gdb_layout_t`. -/
structure FcGdbLayout where
  execPath : Option CString
  libraries : List FcGdbLibrary

/-- `fc_gdb_cpu_ops_t`; `none` is NULL. The callbacks work on the machine behind them. -/
structure FcGdbCpuOps (σ : Type) where
  readRegs : Option (σ → Vector UInt8 132)
  writeRegs : Option (Vector UInt8 132 → σ → σ)
  readMem : Option (UInt32 → (n : UInt32) → σ → { bytes : List UInt8 // bytes.length ≤ n.toNat })
  writeMem : Option (UInt32 → List UInt8 → σ → σ)
  setBreakpoint : Option (UInt32 → σ → σ)
  clearBreakpoint : Option (UInt32 → σ → σ)
  reloadCart : Option (CString → σ → Int × σ)

/-- `breaks` up to `n_breaks`. -/
structure Breaks where
  addrs : List UInt32
  fits : addrs.length ≤ maxBreaks

/-- What `fc_gdb_stub_step` returns. -/
inductive Action where
  | continue
  | step
  | exit
  deriving DecidableEq, Repr

/-- `gdb_state_t`, with the machine behind the callbacks; `connected` is `client_fd >= 0`. -/
structure GdbState (σ : Type) where
  connected : Bool
  layout : FcGdbLayout
  ops : FcGdbCpuOps σ
  machine : σ
  breaks : Breaks
  halted : Bool
  pendingAction : Action
  reloadPending : Bool

def isSpace (c : UInt8) : Bool := c == 32 || (9 ≤ c && c ≤ 13)

/-- The value of hexadecimal digits, as far as they go. -/
def hexValue (digits : List UInt8) : Nat := digits.foldl (fun v c => v * 16 + (HexText.value c).getD 0) 0

/-- `strtoul(s, &end, 16)` with 64 bits: the result and what `end` points to. -/
def strtoul16 (s : List UInt8) : Nat × List UInt8 :=
  let t := s.dropWhile isSpace
  let negative := t.head? = some 0x2d
  let t := if t.head? = some 0x2d ∨ t.head? = some 0x2b then t.tail else t
  let t := match t with
    | 0x30 :: x :: d :: rest => if (x = 0x78 ∨ x = 0x58) ∧ (HexText.value d).isSome then d :: rest else t
    | _ => t
  let digits := t.takeWhile fun c => (HexText.value c).isSome
  if digits = [] then (0, s)
  else if hexValue digits ≥ 2 ^ 64 then (2 ^ 64 - 1, t.drop digits.length)
  else (if negative then (2 ^ 64 - hexValue digits) % 2 ^ 64 else hexValue digits, t.drop digits.length)

/-- `hex_decode`: the bytes it writes, `cap` at most. -/
def hexDecode : Nat → List UInt8 → List UInt8
  | cap + 1, c :: d :: src =>
    match HexText.value c, HexText.value d with
    | some hi, some lo => HexText.join hi lo :: hexDecode cap src
    | _, _ => []
  | _, _ => []

/-! The handlers, each with what it leaves in `out`. -/

def handleQSupported : List UInt8 :=
  ascii "PacketSize=4000;qXfer:libraries-svr4:read+;qXfer:exec-file:read+;swbreak+;vContSupported+"

/-- `annex:offset,length`. -/
def xferArgs (args : List UInt8) : Option (UInt32 × UInt32) :=
  match args.dropWhile (· ≠ 0x3a) with
  | [] => none
  | _ :: p =>
    let (off, p) := strtoul16 p
    let p := if p.head? = some 0x2c then p.tail else p
    some (UInt32.ofNat off, UInt32.ofNat (strtoul16 p).1)

/-- `len`, cut to what is available. -/
def xferLen (size : Nat) (off len : UInt32) : UInt32 :=
  let avail := UInt32.ofNat (size - off.toNat)
  if len > avail then avail else len

/-- The end of both `qXfer` handlers: a window of an object of `size` bytes that `buffer` holds. -/
def xferReply (buffer : List UInt8) (size : Nat) (off len : UInt32) : Exec (List UInt8) :=
  if off.toNat ≥ size then .returns (ascii "l")
  else if maxPacket < (xferLen size off len).toNat + 2 then .returns (ascii "E02")
  else if buffer.length < off.toNat + (xferLen size off len).toNat then .outOfBounds
  else
    .returns ((if (off + xferLen size off len).toNat ≥ size then 0x6c else 0x6d) ::
      (buffer.drop off.toNat).take (xferLen size off len).toNat)

def handleQXferExecFile (layout : FcGdbLayout) (args : List UInt8) : Exec (List UInt8) :=
  match xferArgs args with
  | none => .returns (ascii "E01")
  | some (off, len) =>
    let path := match layout.execPath with
      | some path => path.chars
      | none => []
    xferReply path path.length off len

def xmlCap : Nat := 4096

/-- `%x`. -/
def hexText (n : UInt32) : List UInt8 := (Nat.toDigits 16 n.toNat).map fun c => UInt8.ofNat c.toNat

def listStart : List UInt8 := ascii "<library-list-svr4 version=\"1.0\" main-lm=\"0x0\">"

def listEnd : List UInt8 := ascii "</library-list-svr4>"

def libraryXml (lib : FcGdbLibrary) : List UInt8 :=
  ascii "<library name=\"" ++ lib.path.chars ++ ascii "\" lm=\"0x" ++ hexText lib.lAddr ++
    ascii "\" l_addr=\"0x" ++ hexText lib.lAddr ++ ascii "\" l_ld=\"0x" ++ hexText lib.lLd ++
    ascii "\" lmid=\"0x0\"/>"

/-- `snprintf` behind the text printed so far. Where that was longer than `xml`, the size it is given
wraps round. -/
def printXml (text more : List UInt8) : Exec (List UInt8) :=
  if xmlCap < text.length then .outOfBounds else .returns (text ++ more)

/-- The text printed into `xml`, which may be longer than `xml`. -/
def printLibraries (layout : FcGdbLayout) : Exec (List UInt8) := do
  let text ← Exec.run (fun text lib => printXml text (libraryXml lib)) listStart layout.libraries
  printXml text listEnd

/-- What is in `xml` of a text printed into it. -/
def xmlBuffer (text : List UInt8) : List UInt8 :=
  if text.length < xmlCap then text else text.take (xmlCap - 1) ++ [0]

def handleQXferLibraries (layout : FcGdbLayout) (args : List UInt8) : Exec (List UInt8) :=
  match xferArgs args with
  | none => .returns (ascii "E01")
  | some (off, len) => do
    let text ← printLibraries layout
    xferReply (xmlBuffer text) text.length off len

section
variable {σ : Type}

def handleg (g : GdbState σ) : List UInt8 :=
  match g.ops.readRegs with
  | none => ascii "E01"
  | some readRegs => if maxPacket < 132 * 2 + 1 then ascii "E02" else HexText.encode (readRegs g.machine).toList

def handleG (g : GdbState σ) (args : List UInt8) : List UInt8 × GdbState σ :=
  match g.ops.writeRegs with
  | none => (ascii "E01", g)
  | some writeRegs =>
    if whole : (hexDecode 132 args).length = 132 then
      (ascii "OK", { g with machine := writeRegs ⟨(hexDecode 132 args).toArray, whole⟩ g.machine })
    else (ascii "E02", g)

/-- `handle_m`; `malloc` tells which sizes can be had. -/
def handlem (malloc : Nat → Bool) (g : GdbState σ) (args : List UInt8) : List UInt8 :=
  let (addr, rest) := strtoul16 args
  if rest.head? ≠ some 0x2c then ascii "E01"
  else
    let len := UInt32.ofNat (strtoul16 rest.tail).1
    match g.ops.readMem with
    | none => ascii "E02"
    | some readMem =>
      if len > 4096 ∨ maxPacket < (len * 2 + 1).toNat then ascii "E03"
      else if ¬ malloc len.toNat then ascii "E04"
      else HexText.encode (readMem (UInt32.ofNat addr) len g.machine).val

def handleM (malloc : Nat → Bool) (g : GdbState σ) (args : List UInt8) : List UInt8 × GdbState σ :=
  let (addr, rest) := strtoul16 args
  if rest.head? ≠ some 0x2c then (ascii "E01", g)
  else
    let (len, rest) := strtoul16 rest.tail
    let len := UInt32.ofNat len
    if rest.head? ≠ some 0x3a then (ascii "E02", g)
    else match g.ops.writeMem with
      | none => (ascii "E03", g)
      | some writeMem =>
        let bytes := hexDecode len.toNat rest.tail
        if ¬ malloc len.toNat then (ascii "E04", g)
        else if bytes.length ≠ len.toNat then (ascii "E05", g)
        else (ascii "OK", { g with machine := writeMem (UInt32.ofNat addr) bytes g.machine })

def handleZ0 (g : GdbState σ) (args : List UInt8) : List UInt8 × GdbState σ :=
  let addr := UInt32.ofNat (strtoul16 args).1
  if room : g.breaks.addrs.length < maxBreaks then
    (ascii "OK", { g with
      machine := (g.ops.setBreakpoint.map fun set => set addr g.machine).getD g.machine
      breaks := ⟨g.breaks.addrs ++ [addr], by rwa [List.length_append]⟩ })
  else (ascii "E01", g)

def handlez0 (g : GdbState σ) (args : List UInt8) : List UInt8 × GdbState σ :=
  let addr := UInt32.ofNat (strtoul16 args).1
  (ascii "OK", { g with
    machine := (g.ops.clearBreakpoint.map fun clear => clear addr g.machine).getD g.machine
    breaks := ⟨g.breaks.addrs.filter (· ≠ addr), (List.length_filter_le _ _).trans g.breaks.fits⟩ })

def handleVContQ : List UInt8 := ascii "vCont;c;C;s;S"

def handleVCont (g : GdbState σ) (args : List UInt8) : List UInt8 × GdbState σ :=
  ([], { g with halted := false, pendingAction := if 0x73 ∈ args then .step else .continue })

def handleQFc32Reload (g : GdbState σ) (args : List UInt8) : List UInt8 × GdbState σ :=
  match g.ops.reloadCart with
  | none => (ascii "E01", g)
  | some reloadCart =>
    let (rc, machine) := reloadCart (cString args) g.machine
    if rc ≠ 0 then (ascii "E02", { g with machine := machine })
    else (ascii "OK", { g with machine := machine, reloadPending := true })

/-- The branch of `handle_packet` that a packet takes, with the handler's arguments. -/
inductive Request where
  | qSupported
  | qXferExecFile (args : List UInt8)
  | qXferLibraries (args : List UInt8)
  | stopReason
  | g
  | G (args : List UInt8)
  | m (args : List UInt8)
  | M (args : List UInt8)
  | Z0 (args : List UInt8)
  | z0 (args : List UInt8)
  | vContQ
  | vCont (args : List UInt8)
  | qFc32Reload (args : List UInt8)
  | qAttached
  | qC
  | unsupported
  deriving DecidableEq, Repr

def startsWith (pkt : List UInt8) (text : String) : Bool := (ascii text).isPrefixOf pkt

def dispatch (pkt : List UInt8) : Request :=
  if startsWith pkt "qSupported" then .qSupported
  else if startsWith pkt "qXfer:exec-file:read:" then .qXferExecFile (pkt.drop 21)
  else if startsWith pkt "qXfer:libraries-svr4:read:" then .qXferLibraries (pkt.drop 26)
  else if startsWith pkt "?" then .stopReason
  else if pkt = ascii "g" then .g
  else if startsWith pkt "G" then .G (pkt.drop 1)
  else if startsWith pkt "m" then .m (pkt.drop 1)
  else if startsWith pkt "M" then .M (pkt.drop 1)
  else if startsWith pkt "Z0," then .Z0 (pkt.drop 3)
  else if startsWith pkt "z0," then .z0 (pkt.drop 3)
  else if pkt = ascii "vCont?" then .vContQ
  else if startsWith pkt "vCont" then .vCont (pkt.drop 5)
  else if startsWith pkt "qFc32:reload:" then .qFc32Reload (pkt.drop 13)
  else if pkt = ascii "qAttached" then .qAttached
  else if startsWith pkt "qC" then .qC
  else .unsupported

def handle (malloc : Nat → Bool) (g : GdbState σ) : Request → Exec (List UInt8 × GdbState σ)
  | .qSupported => .returns (handleQSupported, g)
  | .qXferExecFile args => (·, g) <$> handleQXferExecFile g.layout args
  | .qXferLibraries args => (·, g) <$> handleQXferLibraries g.layout args
  | .stopReason => .returns (ascii "T05", g)
  | .g => .returns (handleg g, g)
  | .G args => .returns (handleG g args)
  | .m args => .returns (handlem malloc g args, g)
  | .M args => .returns (handleM malloc g args)
  | .Z0 args => .returns (handleZ0 g args)
  | .z0 args => .returns (handlez0 g args)
  | .vContQ => .returns (handleVContQ, g)
  | .vCont args => .returns (handleVCont g args)
  | .qFc32Reload args => .returns (handleQFc32Reload g args)
  | .qAttached => .returns (ascii "1", g)
  | .qC => .returns (ascii "QC1", g)
  | .unsupported => .returns ([], g)

/-- `handle_packet`, up to its `send_pkt`: the payload that is sent. -/
def handlePacket (malloc : Nat → Bool) (g : GdbState σ) (pkt : CString) : Exec (CString × GdbState σ) := do
  let (out, g) ← handle malloc g (dispatch pkt.chars)
  return (cString out, g)

/-- The packets that a `send_pkt` sends, which is one or none. -/
def sent (malloc : Nat → Bool) (g : GdbState σ) (payload : CString) : List CString :=
  if g.connected ∧ malloc (payload.chars.length + 16) then [payload] else []

/-- What `fc_gdb_stub_step` sends. -/
def stopReply : CString := cstr "T05swbreak:;"

/-- What `gdb_thread_main` sends for `reload_pending`. -/
def libraryEvent : CString := cstr "T05library:;"

/-- `fc_gdb_stub_check_break`. -/
def checkBreak (g : GdbState σ) (pc : UInt32) : Bool := pc ∈ g.breaks.addrs

/-! What the handlers have in common. -/

theorem xferReply_length {buffer out : List UInt8} {size : Nat} {off len : UInt32}
    (done : xferReply buffer size off len = .returns out) : out.length < maxPacket := by
  rw [xferReply] at done
  split at done
  · cases done
    decide
  · split at done
    · cases done
      decide
    · rename_i fits
      split at done
      · cases done
      · cases done
        rw [List.length_cons, List.length_take]
        omega

theorem length_encode (bytes : List UInt8) : (HexText.encode bytes).length = 2 * bytes.length := by
  induction bytes with
  | nil => rfl
  | cons b bytes ih =>
    rw [HexText.encode_cons, List.length_cons, List.length_cons, ih, List.length_cons]
    omega

theorem handleg_length (g : GdbState σ) : (handleg g).length < maxPacket := by
  rw [handleg]
  split
  · decide
  · rw [if_neg (by decide), length_encode, Vector.length_toList]
    decide

theorem handlem_length (malloc : Nat → Bool) (g : GdbState σ) (args : List UInt8) :
    (handlem malloc g args).length < maxPacket := by
  rw [handlem]
  simp only
  split
  · decide
  · split
    · decide
    · rename_i readMem _
      split
      · decide
      · rename_i within
        split
        · decide
        · have bytes := (readMem (UInt32.ofNat (strtoul16 args).1)
            (UInt32.ofNat (strtoul16 (strtoul16 args).2.tail).1) g.machine).property
          have small := UInt32.not_lt.mp (not_or.mp within).1
          rw [UInt32.le_iff_toNat_le] at small
          have cap : UInt32.toNat 4096 = 4096 := rfl
          rw [length_encode, maxPacket]
          omega

theorem handleQXferExecFile_length {layout : FcGdbLayout} {args out : List UInt8}
    (done : handleQXferExecFile layout args = .returns out) : out.length < maxPacket := by
  rw [handleQXferExecFile] at done
  split at done
  · cases done
    decide
  · exact xferReply_length done

theorem handleQXferLibraries_length {layout : FcGdbLayout} {args out : List UInt8}
    (done : handleQXferLibraries layout args = .returns out) : out.length < maxPacket := by
  rw [handleQXferLibraries] at done
  split at done
  · cases done
    decide
  · obtain ⟨text, -, reply⟩ := Exec.bind_eq_returns.mp done
    exact xferReply_length reply

/-- What the handlers that change something reply. -/
def statusReplies : List (List UInt8) :=
  [ascii "OK", ascii "E01", ascii "E02", ascii "E03", ascii "E04", ascii "E05"]

theorem statusReplies_length {out : List UInt8} (status : out ∈ statusReplies) : out.length < maxPacket := by
  have short : ∀ reply ∈ statusReplies, reply.length < 4 := by decide
  exact (short out status).trans (by decide)

/-- A status is replied, and what `gdb_thread_main` looks at stays as it is. -/
structure Settles (g : GdbState σ) (result : List UInt8 × GdbState σ) : Prop where
  status : result.1 ∈ statusReplies
  connected : result.2.connected = g.connected
  reloadPending : result.2.reloadPending = g.reloadPending

theorem handleG_settles (g : GdbState σ) (args : List UInt8) : Settles g (handleG g args) := by
  rw [handleG]
  split
  · exact ⟨by simp [statusReplies], rfl, rfl⟩
  · split
    · exact ⟨by simp [statusReplies], rfl, rfl⟩
    · exact ⟨by simp [statusReplies], rfl, rfl⟩

theorem handleM_settles (malloc : Nat → Bool) (g : GdbState σ) (args : List UInt8) :
    Settles g (handleM malloc g args) := by
  rw [handleM]
  simp only
  split
  · exact ⟨by simp [statusReplies], rfl, rfl⟩
  · split
    · exact ⟨by simp [statusReplies], rfl, rfl⟩
    · split
      · exact ⟨by simp [statusReplies], rfl, rfl⟩
      · split
        · exact ⟨by simp [statusReplies], rfl, rfl⟩
        · split
          · exact ⟨by simp [statusReplies], rfl, rfl⟩
          · exact ⟨by simp [statusReplies], rfl, rfl⟩

theorem handleZ0_settles (g : GdbState σ) (args : List UInt8) : Settles g (handleZ0 g args) := by
  rw [handleZ0]
  split
  · exact ⟨by simp [statusReplies], rfl, rfl⟩
  · exact ⟨by simp [statusReplies], rfl, rfl⟩

theorem handlez0_settles (g : GdbState σ) (args : List UInt8) : Settles g (handlez0 g args) :=
  ⟨List.mem_cons_self, rfl, rfl⟩

theorem handleQFc32Reload_status (g : GdbState σ) (args : List UInt8) :
    (handleQFc32Reload g args).1 ∈ statusReplies ∧ (handleQFc32Reload g args).2.connected = g.connected := by
  rw [handleQFc32Reload]
  split
  · exact ⟨by simp [statusReplies], rfl⟩
  · simp only
    split
    · exact ⟨by simp [statusReplies], rfl⟩
    · exact ⟨by simp [statusReplies], rfl⟩

/-- The reply fits `out`, the client stays connected, and only a reload asks for a library event. -/
structure Handled (g : GdbState σ) (request : Request) (out : List UInt8) (g' : GdbState σ) : Prop where
  short : out.length < maxPacket
  connected : g'.connected = g.connected
  reloadPending : (∀ args, request ≠ .qFc32Reload args) → g'.reloadPending = g.reloadPending

theorem Settles.handled {g g' : GdbState σ} {request : Request} {result : List UInt8 × GdbState σ} {out : List UInt8}
    (settles : Settles g result) (done : Exec.returns result = .returns (out, g')) : Handled g request out g' := by
  cases done
  exact ⟨statusReplies_length settles.status, settles.connected, fun _ => settles.reloadPending⟩

theorem handle_spec {malloc : Nat → Bool} {g g' : GdbState σ} {request : Request} {out : List UInt8}
    (done : handle malloc g request = .returns (out, g')) : Handled g request out g' := by
  cases request with
  | qXferExecFile args =>
    obtain ⟨text, reply, same⟩ := Exec.map_eq_returns.mp done
    cases same
    exact ⟨handleQXferExecFile_length reply, rfl, fun _ => rfl⟩
  | qXferLibraries args =>
    obtain ⟨text, reply, same⟩ := Exec.map_eq_returns.mp done
    cases same
    exact ⟨handleQXferLibraries_length reply, rfl, fun _ => rfl⟩
  | g =>
    cases done
    exact ⟨handleg_length g, rfl, fun _ => rfl⟩
  | G args => exact (handleG_settles g args).handled done
  | m args =>
    cases done
    exact ⟨handlem_length malloc g args, rfl, fun _ => rfl⟩
  | M args => exact (handleM_settles malloc g args).handled done
  | Z0 args => exact (handleZ0_settles g args).handled done
  | z0 args => exact (handlez0_settles g args).handled done
  | qFc32Reload args =>
    obtain ⟨status, connected⟩ := handleQFc32Reload_status g args
    have result : handleQFc32Reload g args = (out, g') := Exec.returns.inj done
    rw [result] at status connected
    exact ⟨statusReplies_length status, connected, fun other => absurd rfl (other args)⟩
  | qSupported | stopReason | vContQ | vCont | qAttached | qC | unsupported =>
    cases done
    exact ⟨by decide, rfl, fun _ => rfl⟩

/-- The text of the list up to its end tag. -/
def librariesText (layout : FcGdbLayout) : List UInt8 := listStart ++ layout.libraries.flatMap libraryXml

/-- The list does not outgrow `xml` before its end tag, nor does the window asked for reach behind `xml`. -/
def ListFits (layout : FcGdbLayout) (args : List UInt8) : Prop :=
  match xferArgs args with
  | none => True
  | some (off, len) => (librariesText layout).length ≤ xmlCap ∧
    (off.toNat < (librariesText layout ++ listEnd).length →
      min (off.toNat + len.toNat) (librariesText layout ++ listEnd).length ≤ xmlCap)

theorem printLibraries_eq (layout : FcGdbLayout) :
    printLibraries layout = if (librariesText layout).length ≤ xmlCap then .returns (librariesText layout ++ listEnd)
      else .outOfBounds := by
  have all : ∀ libraries text,
      (Exec.run (fun text lib => printXml text (libraryXml lib)) text libraries >>= fun text => printXml text listEnd) =
        if (text ++ libraries.flatMap libraryXml).length ≤ xmlCap then
          .returns (text ++ libraries.flatMap libraryXml ++ listEnd) else .outOfBounds := by
    intro libraries
    induction libraries with
    | nil =>
      intro text
      rw [Exec.run, Exec.returns_bind, printXml, List.flatMap_nil, List.append_nil]
      split
      · rw [if_neg (by omega)]
      · rw [if_pos (by omega)]
    | cons lib libraries ih =>
      intro text
      rw [Exec.run, Exec.bind_assoc, List.flatMap_cons, ← List.append_assoc]
      by_cases beyond : xmlCap < text.length
      · have longer : ¬ (text ++ libraryXml lib ++ libraries.flatMap libraryXml).length ≤ xmlCap := by
          simp only [List.length_append]
          omega
        rw [printXml, if_pos beyond, if_neg longer]
        rfl
      · rw [printXml, if_neg beyond, Exec.returns_bind]
        exact ih _
  exact all layout.libraries listStart

theorem xmlBuffer_length (text : List UInt8) : (xmlBuffer text).length = min text.length xmlCap := by
  rw [xmlBuffer]
  split
  · omega
  · rw [List.length_append, List.length_take, List.length_singleton]
    have positive : 0 < xmlCap := by decide
    omega

theorem xferLen_toNat {size : Nat} {off : UInt32} (len : UInt32) (small : size < 2 ^ 32) (before : off.toNat < size) :
    off.toNat + (xferLen size off len).toNat = min (off.toNat + len.toNat) size := by
  have available : (UInt32.ofNat (size - off.toNat)).toNat = size - off.toNat := by
    rw [UInt32.toNat_ofNat', Nat.mod_eq_of_lt (by omega)]
  rw [xferLen]
  split
  · rename_i more
    have greater := UInt32.lt_iff_toNat_lt.mp more
    omega
  · rename_i more
    have less := UInt32.le_iff_toNat_le.mp (UInt32.not_lt.mp more)
    omega

theorem xmlBuffer_window {text : List UInt8} {off len : UInt32} (small : text.length + 2 ≤ maxPacket)
    (before : off.toNat < text.length) :
    (∃ out, xferReply (xmlBuffer text) text.length off len = .returns out) ↔
      min (off.toNat + len.toNat) text.length ≤ xmlCap := by
  have window := xferLen_toNat len (small.trans_lt' (by omega) |>.trans (by decide)) before
  have room : ¬ maxPacket < (xferLen text.length off len).toNat + 2 := by omega
  rw [xferReply, if_neg (by omega), if_neg room, xmlBuffer_length, window]
  constructor
  · rintro ⟨out, done⟩
    split at done
    · cases done
    · omega
  · intro fits
    rw [if_neg (by omega)]
    exact ⟨_, rfl⟩

/-- The library list is the one request that can end badly. -/
theorem handleQXferLibraries_returns_iff (layout : FcGdbLayout) (args : List UInt8) :
    (∃ out, handleQXferLibraries layout args = .returns out) ↔ ListFits layout args := by
  rw [handleQXferLibraries, ListFits]
  split
  · exact iff_of_true ⟨_, rfl⟩ trivial
  · rename_i off len _
    rw [printLibraries_eq]
    by_cases short : (librariesText layout).length ≤ xmlCap
    · have small : (librariesText layout ++ listEnd).length + 2 ≤ maxPacket := by
        have ending : listEnd.length = 20 := by decide
        rw [List.length_append, ending]
        exact (Nat.add_le_add_right short 22).trans (by decide)
      rw [if_pos short, Exec.returns_bind, and_iff_right short]
      by_cases before : off.toNat < (librariesText layout ++ listEnd).length
      · rw [xmlBuffer_window small before]
        exact ⟨fun fits _ => fits, fun fits => fits before⟩
      · refine iff_of_true ⟨ascii "l", ?_⟩ fun inside => absurd inside before
        rw [xferReply, if_pos (by omega)]
    · rw [if_neg short, Exec.outOfBounds_bind]
      exact iff_of_false (fun ⟨_, done⟩ => nomatch done) fun fits => short fits.1

theorem xferLen_le (size : Nat) (off len : UInt32) : (xferLen size off len).toNat ≤ size - off.toNat := by
  have available : (UInt32.ofNat (size - off.toNat)).toNat ≤ size - off.toNat := by
    rw [UInt32.toNat_ofNat']
    exact Nat.mod_le _ _
  rw [xferLen]
  split
  · exact available
  · rename_i more
    exact (UInt32.le_iff_toNat_le.mp (UInt32.not_lt.mp more)).trans available

theorem xferReply_whole (object : List UInt8) (off len : UInt32) :
    ∃ out, xferReply object object.length off len = .returns out := by
  have within := xferLen_le object.length off len
  rw [xferReply]
  split
  · exact ⟨_, rfl⟩
  · split
    · exact ⟨_, rfl⟩
    · rw [if_neg (by omega)]
      exact ⟨_, rfl⟩

theorem handleQXferExecFile_returns (layout : FcGdbLayout) (args : List UInt8) :
    ∃ out, handleQXferExecFile layout args = .returns out := by
  rw [handleQXferExecFile]
  split
  · exact ⟨_, rfl⟩
  · exact xferReply_whole _ _ _

theorem handle_returns_iff (malloc : Nat → Bool) {g : GdbState σ} {request : Request} :
    (∃ result, handle malloc g request = .returns result) ↔
      ∀ args, request = .qXferLibraries args → ListFits g.layout args := by
  cases request with
  | qXferExecFile args =>
    obtain ⟨out, done⟩ := handleQXferExecFile_returns g.layout args
    exact iff_of_true ⟨(out, g), Exec.map_eq_returns.mpr ⟨out, done, rfl⟩⟩ fun _ same => nomatch same
  | qXferLibraries args =>
    constructor
    · rintro ⟨result, done⟩ args' same
      cases same
      obtain ⟨out, done, -⟩ := Exec.map_eq_returns.mp done
      exact (handleQXferLibraries_returns_iff g.layout args).mp ⟨out, done⟩
    · intro fits
      obtain ⟨out, done⟩ := (handleQXferLibraries_returns_iff g.layout args).mpr (fits args rfl)
      exact ⟨(out, g), Exec.map_eq_returns.mpr ⟨out, done, rfl⟩⟩
  | qSupported | stopReason | g | G | m | M | Z0 | z0 | vContQ | vCont | qFc32Reload | qAttached | qC | unsupported =>
    exact iff_of_true ⟨_, rfl⟩ fun _ same => nomatch same

theorem handlePacket_returns {malloc : Nat → Bool} {g g' : GdbState σ} {pkt out : CString}
    (done : handlePacket malloc g pkt = .returns (out, g')) :
    ∃ bytes, handle malloc g (dispatch pkt.chars) = .returns (bytes, g') ∧ out = cString bytes := by
  obtain ⟨⟨bytes, after⟩, handled, same⟩ := Exec.bind_eq_returns.mp done
  cases same
  exact ⟨bytes, handled, rfl⟩

theorem handlePacket_returns_iff {malloc : Nat → Bool} {g : GdbState σ} {pkt : CString} :
    (∃ result, handlePacket malloc g pkt = .returns result) ↔
      ∀ args, dispatch pkt.chars = .qXferLibraries args → ListFits g.layout args := by
  rw [← handle_returns_iff malloc]
  constructor
  · rintro ⟨⟨out, g'⟩, done⟩
    obtain ⟨bytes, handled, -⟩ := handlePacket_returns done
    exact ⟨_, handled⟩
  · rintro ⟨⟨bytes, g'⟩, handled⟩
    rw [handlePacket, handled]
    exact ⟨_, rfl⟩

theorem handlePacket_length {malloc : Nat → Bool} {g g' : GdbState σ} {pkt out : CString}
    (done : handlePacket malloc g pkt = .returns (out, g')) : out.chars.length < maxPacket := by
  obtain ⟨bytes, handled, rfl⟩ := handlePacket_returns done
  exact (List.takeWhile_sublist _).length_le.trans_lt (handle_spec handled).short

end

theorem startsWith_iff {pkt : List UInt8} {text : String} : startsWith pkt text ↔ ∃ rest, pkt = ascii text ++ rest := by
  rw [startsWith, List.isPrefixOf_iff_prefix]
  exact exists_congr fun rest => eq_comm

theorem dispatch_vCont {pkt : List UInt8} (resume : startsWith pkt "vCont;c" ∨ startsWith pkt "vCont;s") :
    ∃ args, dispatch pkt = .vCont args := by
  rw [startsWith_iff, startsWith_iff] at resume
  rcases resume with ⟨rest, rfl⟩ | ⟨rest, rfl⟩
  · exact ⟨_, rfl⟩
  · exact ⟨_, rfl⟩

theorem dispatch_qFc32Reload_iff {pkt : List UInt8} :
    startsWith pkt "qFc32:reload:" ↔ ∃ args, dispatch pkt = .qFc32Reload args := by
  constructor
  · rw [startsWith_iff]
    rintro ⟨rest, rfl⟩
    exact ⟨_, rfl⟩
  · rintro ⟨args, same⟩
    have behind : ∀ {c : Prop} [Decidable c] {a b : Request}, a ≠ .qFc32Reload args →
        (if c then a else b) = .qFc32Reload args → b = .qFc32Reload args := by
      intro c _ a b different taken
      rcases ite_eq_iff.mp taken with ⟨-, here⟩ | ⟨-, rest⟩
      · exact absurd here different
      · exact rest
    by_contra other
    rw [dispatch, if_neg other] at same
    iterate 14 replace same := behind (by nofun) same
    cases same

end GdbStub
end Blyt
