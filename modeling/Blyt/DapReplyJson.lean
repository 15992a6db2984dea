import Blyt.DapReplies

namespace Blyt
namespace DapReplies
open JsonSyntax

/-! What the messages are to tell. -/

/-- A response that succeeds or fails, or an event. -/
inductive Told where
  | response (requestSeq : Int) (command : List UInt8) (body : Data)
  | failure (requestSeq : Int) (command message : List UInt8)
  | event (name : List UInt8) (body : Data)

def Told.json (seq : Int) : Told → Data
  | response requestSeq command body =>
    .object [(ascii "seq", .number seq), (ascii "type", .string (ascii "response")),
      (ascii "request_seq", .number requestSeq), (ascii "command", .string command), (ascii "success", .word .true),
      (ascii "body", body)]
  | failure requestSeq command message =>
    .object [(ascii "seq", .number seq), (ascii "type", .string (ascii "response")),
      (ascii "request_seq", .number requestSeq), (ascii "command", .string command), (ascii "success", .word .false),
      (ascii "message", .string message)]
  | event name body =>
    .object [(ascii "seq", .number seq), (ascii "type", .string (ascii "event")), (ascii "event", .string name),
      (ascii "body", body)]

def truth (b : Bool) : Data := .word (if b then .true else .false)

def breakpointData (r : BreakpointReply) : Data :=
  .object [(ascii "id", .number r.id), (ascii "verified", truth r.verified), (ascii "line", .number r.line)]

def frameData (frame : Nat) (f : LuaFrame) : Data :=
  .object [(ascii "id", .number frame), (ascii "name", .string f.shownName),
    (ascii "source", .object [(ascii "path", .string f.path)]), (ascii "line", .number f.currentline),
    (ascii "column", .number 1)]

/-- A local variable with its value, which is handed over apart. -/
def localData (value : LuaValue → List UInt8) (l : LuaLocal) : Data :=
  .object [(ascii "name", .string l.name), (ascii "value", .string (value l.value)),
    (ascii "type", .string l.value.typename), (ascii "variablesReference", .number 0)]

/-- The value as it is, up to 255 bytes. -/
def LuaValue.cut (v : LuaValue) : List UInt8 := v.shown.take 255

/-- The local variables that are shown. -/
def LuaFrame.shownLocals (f : LuaFrame) : List LuaLocal :=
  (f.locals.take maxVars).filter fun l => l.name.head? ≠ some 40

/-- Those of the level that a reference stands for. -/
def localsOf (frames : List LuaFrame) (vref : Int) : List LuaLocal :=
  match frames[(vref - 1).toNat]? with
  | none => []
  | some f => f.shownLocals

/-- Why a reload is refused. -/
inductive Refusal where
  | missingSource
  | oom
  | missingBytecodeHex
  | badHex

def Refusal.text : Refusal → List UInt8
  | missingSource => ascii "missing source"
  | oom => ascii "oom"
  | missingBytecodeHex => ascii "missing bytecodeHex"
  | badHex => ascii "bad hex"

/-- The calls of `send_response` and `send_event`, by what they are about. -/
inductive Reply where
  | capabilities (requestSeq : Int)
  | initialized
  | launch (requestSeq : Int)
  | configurationDone (requestSeq : Int)
  | setBreakpoints (requestSeq : Int) (bps : List BreakpointReply)
  | threads (requestSeq : Int)
  | stackTrace (requestSeq : Int) (paused : Option (List LuaFrame))
  | scopes (requestSeq frameId : Int)
  | locals (requestSeq : Int) (paused : Option (List LuaFrame)) (vref : Int)
  | resumes (requestSeq : Int)
  | step (requestSeq : Int) (mode : DapStepMode)
  | pause (requestSeq : Int)
  | disconnect (requestSeq : Int)
  | refused (requestSeq : Int) (refusal : Refusal)
  | reloaded (requestSeq : Int)
  | unknown (requestSeq : Int) (cmd : List UInt8)
  | stopped
  | continued
  | loadedSource (path : List UInt8)

namespace Reply

/-- What is sent. -/
def wire : Reply → Exec WireMessage
  | capabilities requestSeq => .returns (handleInitialize requestSeq)
  | initialized => .returns DapReplies.initialized
  | launch requestSeq => .returns (handleLaunch requestSeq)
  | configurationDone requestSeq => .returns (handleConfigurationDone requestSeq)
  | setBreakpoints requestSeq bps => handleSetBreakpoints requestSeq bps
  | threads requestSeq => .returns (handleThreads requestSeq)
  | stackTrace requestSeq paused => handleStackTrace requestSeq paused
  | scopes requestSeq frameId => handleScopes requestSeq frameId
  | locals requestSeq paused vref => handleVariables requestSeq paused vref
  | resumes requestSeq => .returns (handleContinue requestSeq)
  | step requestSeq mode => .returns (handleStep requestSeq mode)
  | pause requestSeq => .returns (handlePause requestSeq)
  | disconnect requestSeq => .returns (handleDisconnect requestSeq)
  | refused requestSeq refusal => .returns (.response requestSeq (ascii "hot_reload") false (some refusal.text))
  | reloaded requestSeq => .returns (.response requestSeq (ascii "hot_reload") true (some (ascii "\x7b\x7d")))
  | unknown requestSeq cmd => .returns (unknownCommand requestSeq cmd)
  | stopped => .returns Blyt.stopped
  | continued => .returns DapReplies.continued
  | loadedSource path => .returns (emitLoadedSource path)

def resumed : Data := .object [(ascii "allThreadsContinued", .word .true)]

/-- What it is to tell, with the values of local variables in one or the other form. -/
def told (value : LuaValue → List UInt8) : Reply → Told
  | capabilities requestSeq =>
    .response requestSeq (ascii "initialize")
      (.object [(ascii "supportsConfigurationDoneRequest", truth true),
        (ascii "supportsLoadedSourcesRequest", truth true), (ascii "supportsRestartRequest", truth false),
        (ascii "supportsStepBack", truth false), (ascii "supportsTerminateRequest", truth true)])
  | initialized => .event (ascii "initialized") (.object [])
  | launch requestSeq => .response requestSeq (ascii "launch") (.object [])
  | configurationDone requestSeq => .response requestSeq (ascii "configurationDone") (.object [])
  | setBreakpoints requestSeq bps =>
    .response requestSeq (ascii "setBreakpoints") (.object [(ascii "breakpoints", .array (bps.map breakpointData))])
  | threads requestSeq =>
    .response requestSeq (ascii "threads")
      (.object [(ascii "threads", .array [.object [(ascii "id", .number 1), (ascii "name", .string (ascii "cart"))]])])
  | stackTrace requestSeq none => .failure requestSeq (ascii "stackTrace") (ascii "not paused")
  | stackTrace requestSeq (some frames) =>
    .response requestSeq (ascii "stackTrace")
      (.object [(ascii "stackFrames", .array ((frames.take maxFrames).zipIdx.map fun p => frameData p.2 p.1)),
        (ascii "totalFrames", .number (frames.take maxFrames).length)])
  | scopes requestSeq frameId =>
    .response requestSeq (ascii "scopes")
      (.object [(ascii "scopes", .array [.object [(ascii "name", .string (ascii "Locals")),
        (ascii "variablesReference", .number (frameId + 1)), (ascii "expensive", truth false)]])])
  | locals requestSeq none _ => .failure requestSeq (ascii "variables") (ascii "not paused")
  | locals requestSeq (some frames) vref =>
    if vref - 1 < 0 then .failure requestSeq (ascii "variables") (ascii "not paused")
    else
      .response requestSeq (ascii "variables")
        (.object [(ascii "variables", .array ((localsOf frames vref).map (localData value)))])
  | resumes requestSeq => .response requestSeq (ascii "continue") resumed
  | step requestSeq mode =>
    .response requestSeq (if mode = .over then ascii "next" else if mode = .in then ascii "stepIn" else ascii "stepOut")
      resumed
  | pause requestSeq => .response requestSeq (ascii "pause") (.object [])
  | disconnect requestSeq => .response requestSeq (ascii "disconnect") (.object [])
  | refused requestSeq refusal => .failure requestSeq (ascii "hot_reload") refusal.text
  | reloaded requestSeq => .response requestSeq (ascii "hot_reload") (.object [])
  | unknown requestSeq cmd => .failure requestSeq cmd (ascii "unknown command")
  | stopped =>
    .event (ascii "stopped") (.object [(ascii "reason", .string (ascii "breakpoint")), (ascii "threadId", .number 1),
      (ascii "allThreadsStopped", truth true)])
  | continued =>
    .event (ascii "continued") (.object [(ascii "threadId", .number 1), (ascii "allThreadsContinued", truth true)])
  | loadedSource path =>
    .event (ascii "loadedSource") (.object [(ascii "reason", .string (ascii "changed")),
      (ascii "source", .object [(ascii "path", .string path), (ascii "name", .string path)])])

/-- What is sent under the number `seq` is JSON and says what it is to tell. -/
def Conveyed (r : Reply) (seq : Int) : Prop :=
  ∃ m, r.wire = .returns m ∧ Says (m.json seq) ((r.told LuaValue.cut).json seq)

/-- The strings that come from the cart, the file system or the client. -/
def strings : Reply → List (List UInt8)
  | stackTrace _ (some frames) => (frames.take maxFrames).flatMap fun f => [f.shownName, f.path]
  | locals _ (some frames) vref =>
    if vref - 1 < 0 then [] else (localsOf frames vref).flatMap fun l => [l.name, l.value.cut]
  | unknown _ cmd => [cmd]
  | loadedSource path => [path]
  | _ => []

/-- A reference is an `int` and a loaded path leaves room for its second copy. -/
def InRange : Reply → Prop
  | scopes _ frameId => inInt (frameId + 1) = .returns (frameId + 1)
  | locals _ _ vref => inInt (vref - 1) = .returns (vref - 1)
  | loadedSource path => path.length ≤ 550
  | _ => True

/-- The strings need no escape, and the message fits. -/
structure Regular (r : Reply) (seq : Int) : Prop where
  plain : ∀ s ∈ r.strings, Plain s
  range : r.InRange
  fits : ((r.told LuaValue.cut).json seq).text.length < maxMsg

end Reply

/-- The strings that are not those of its frame are so. -/
def Told.All (P : List UInt8 → Prop) : Told → Prop
  | response _ command body => P command ∧ body.All P
  | failure _ command message => P command ∧ P message
  | event name body => P name ∧ body.All P

/-! The text of a message. -/

/-- The message that tells this, with room for so much of the body. -/
def Told.wire (room : Nat) : Told → WireMessage
  | response requestSeq command body => .response requestSeq command true (some (body.text.take room))
  | failure requestSeq command message => .response requestSeq command false (some message)
  | event name body => .event name (some (body.text.take room))

/-- There is room for the whole body. -/
def Told.Fits (room : Nat) : Told → Prop
  | response _ _ body => body.text.length ≤ room
  | failure _ _ _ => True
  | event _ body => body.text.length ≤ room

/-- Cut in the middle and at the end, a text is whole where it is as long as it was. -/
theorem cut_whole_iff (front x back : List UInt8) (room size : Nat) :
    (front ++ x ++ back).length ≤ ((front ++ x.take room ++ back).take size).length ↔
      x.length ≤ room ∧ (front ++ x ++ back).length ≤ size := by
  simp only [List.length_take, List.length_append]
  omega

theorem cut_of_fits {front x back : List UInt8} {room size : Nat} (fits : x.length ≤ room)
    (whole : (front ++ x ++ back).length ≤ size) : (front ++ x.take room ++ back).take size = front ++ x ++ back := by
  rw [List.take_of_length_le fits, List.take_of_length_le whole]

/-- ASCII without what needs an escape. -/
def isLetter (b : UInt8) : Bool := 32 ≤ b && b < 128 && b != 34 && b != 92

theorem plain_of_letters {s : List UInt8} (letters : s.all isLetter = true) : Plain s := by
  have each (b : UInt8) (member : b ∈ s) : isLetter b = true := List.all_eq_true.mp letters b member
  simp only [isLetter, Bool.and_eq_true, decide_eq_true_eq, bne_iff_ne] at each
  refine ⟨fun b member => ?_, Utf8.valid_of_ascii fun b member => (each b member).1.1.2⟩
  obtain ⟨⟨⟨low, -⟩, quote⟩, backslash⟩ := each b member
  exact ⟨low, quote, backslash⟩

namespace Told
variable {t : Told} {room : Nat} {seq : Int}

/-- The text of a message and of what it tells differ by the two cuts. -/
theorem exists_cut (t : Told) (room : Nat) (seq : Int) : ∃ front x back,
    (t.json seq).text = front ++ x ++ back ∧ (t.wire room).json seq = (front ++ x.take room ++ back).take (2 ^ 20 - 1) ∧
      (t.Fits room ↔ x.length ≤ room) := by
  cases t with
  | response requestSeq command body =>
    refine ⟨ascii "\x7b\"seq\":" ++ signedDecimal seq ++ ascii ",\"type\":\"response\",\"request_seq\":" ++
      signedDecimal requestSeq ++ ascii ",\"command\":\"" ++ command ++ ascii "\",\"success\":true,\"body\":",
      body.text, ascii "\x7d", ?_, rfl, Iff.rfl⟩
    simp only [json, Data.text, Data.fieldsText, quoted, List.append_assoc, List.cons_append, List.nil_append,
      List.append_nil]
    rfl
  | failure requestSeq command message =>
    refine ⟨ascii "\x7b\"seq\":" ++ signedDecimal seq ++ ascii ",\"type\":\"response\",\"request_seq\":" ++
      signedDecimal requestSeq ++ ascii ",\"command\":\"" ++ command ++ ascii "\",\"success\":false,\"message\":\"" ++
      message ++ ascii "\"\x7d", [], [], ?_, ?_, iff_of_true trivial (Nat.zero_le _)⟩
    · simp only [json, Data.text, Data.fieldsText, quoted, List.append_assoc, List.cons_append, List.nil_append,
        List.append_nil]
      rfl
    · rw [List.take_nil, List.append_nil, List.append_nil]
      rfl
  | event name body =>
    refine ⟨ascii "\x7b\"seq\":" ++ signedDecimal seq ++ ascii ",\"type\":\"event\",\"event\":\"" ++ name ++
      ascii "\",\"body\":", body.text, ascii "\x7d", ?_, rfl, Iff.rfl⟩
    simp only [json, Data.text, Data.fieldsText, quoted, List.append_assoc, List.cons_append, List.nil_append,
      List.append_nil]
    rfl

theorem wire_length_le (t : Told) (room : Nat) (seq : Int) :
    ((t.wire room).json seq).length ≤ (t.json seq).text.length := by
  obtain ⟨front, x, back, text, wire, -⟩ := t.exists_cut room seq
  rw [text, wire]
  simp only [List.length_take, List.length_append]
  omega

theorem whole_iff : (t.json seq).text.length ≤ ((t.wire room).json seq).length ↔
    t.Fits room ∧ (t.json seq).text.length < maxMsg := by
  obtain ⟨front, x, back, text, wire, fits⟩ := t.exists_cut room seq
  rw [text, wire, fits, cut_whole_iff]
  exact and_congr_right' (Nat.le_sub_one_iff_lt (by decide))

theorem fits_of_small (small : (t.json seq).text.length < maxMsg) : t.Fits (maxMsg - 1) := by
  obtain ⟨front, x, back, text, -, whole⟩ := t.exists_cut (maxMsg - 1) seq
  rw [text, List.length_append, List.length_append] at small
  exact whole.mpr (by omega)

theorem wire_json (fits : t.Fits room) (small : (t.json seq).text.length < maxMsg) :
    (t.wire room).json seq = (t.json seq).text := by
  obtain ⟨front, x, back, text, wire, whole⟩ := t.exists_cut room seq
  rw [text] at small ⊢
  rw [wire]
  exact cut_of_fits (whole.mp fits) (Nat.le_sub_one_of_lt small)

/-- A message says what it tells if nothing is cut off and no string needs an escape. -/
theorem conveys_iff : Says ((t.wire room).json seq) (t.json seq) ↔
    (t.json seq).All Plain ∧ t.Fits room ∧ (t.json seq).text.length < maxMsg := by
  constructor
  · intro said
    obtain ⟨fits, small⟩ := whole_iff.mp said.tight.le
    rw [wire_json fits small, says_text_iff] at said
    exact ⟨said, fits, small⟩
  · rintro ⟨plain, fits, small⟩
    rw [wire_json fits small, says_text_iff]
    exact plain

/-- A message that tells no more says the same only where no string needs an escape. -/
theorem bare_of_said {t' : Told} (shorter : (t'.json seq).text.length ≤ (t.json seq).text.length)
    (said : Says ((t'.wire room).json seq) (t.json seq)) : (t.json seq).All Bare :=
  said.tight.same (Nat.le_trans (wire_length_le t' room seq) shorter)

theorem all_of_json {P : List UInt8 → Prop} (all : (t.json seq).All P) : t.All P := by
  cases t with
  | response requestSeq command body =>
    obtain ⟨-, -, -, -, -, -, -, command, -, -, -, body, -⟩ := all
    exact ⟨command, body⟩
  | failure requestSeq command message =>
    obtain ⟨-, -, -, -, -, -, -, command, -, -, -, message, -⟩ := all
    exact ⟨command, message⟩
  | event name body =>
    obtain ⟨-, -, -, -, -, name, -, body, -⟩ := all
    exact ⟨name, body⟩

theorem plain_json (all : t.All Plain) : (t.json seq).All Plain := by
  cases t with
  | response requestSeq command body =>
    exact ⟨plain_of_letters rfl, trivial, plain_of_letters rfl, plain_of_letters rfl, plain_of_letters rfl, trivial,
      plain_of_letters rfl, all.1, plain_of_letters rfl, trivial, plain_of_letters rfl, all.2, trivial⟩
  | failure requestSeq command message =>
    exact ⟨plain_of_letters rfl, trivial, plain_of_letters rfl, plain_of_letters rfl, plain_of_letters rfl, trivial,
      plain_of_letters rfl, all.1, plain_of_letters rfl, trivial, plain_of_letters rfl, all.2, trivial⟩
  | event name body =>
    exact ⟨plain_of_letters rfl, trivial, plain_of_letters rfl, plain_of_letters rfl, plain_of_letters rfl, all.1,
      plain_of_letters rfl, all.2, trivial⟩

end Told

/-! What the loops print. -/

/-- A comma in front of all but the first. -/
def separator (first : Bool) : List UInt8 := if first then [] else [44]

theorem breakpointText_eq (i : Nat) (r : BreakpointReply) :
    breakpointText i r = separator (i = 0) ++ (breakpointData r).text := by
  simp only [breakpointText, breakpointData, truth, Data.text, Data.fieldsText, quoted, List.append_assoc,
    List.cons_append, List.nil_append, List.append_nil]
  cases i <;> cases r.verified <;> rfl

theorem frameText_eq (i : Nat) (f : LuaFrame) : frameText i f = separator (i = 0) ++ (frameData i f).text := by
  simp only [frameText, frameData, Data.text, Data.fieldsText, quoted, List.append_assoc, List.cons_append,
    List.nil_append, List.append_nil]
  cases i <;> rfl

theorem localText_eq (first : Bool) (l : LuaLocal) :
    localText first l = separator first ++ (localData LuaValue.val l).text := by
  simp only [localText, localData, Data.text, Data.fieldsText, quoted, List.append_assoc, List.cons_append,
    List.nil_append, List.append_nil]
  cases first <;> rfl

theorem prints_breakpoints (i : Nat) (bps : List BreakpointReply) :
    Prints (printBreakpoints i bps) (Data.itemsText (separator (i = 0)) (bps.map breakpointData)) := by
  induction bps generalizing i with
  | nil => exact .nil
  | cons r rs ih =>
    rw [List.map_cons, Data.itemsText, ← breakpointText_eq]
    exact (Prints.snprintf _).bind (ih (i + 1))

theorem prints_frames (i : Nat) (fs : List LuaFrame) : Prints (printFrames i fs)
    (Data.itemsText (separator (i = 0)) ((fs.zipIdx i).map fun p => frameData p.2 p.1)) := by
  induction fs generalizing i with
  | nil => exact .nil
  | cons f fs ih =>
    rw [List.zipIdx_cons, List.map_cons, Data.itemsText, ← frameText_eq]
    exact (Prints.snprintf _).bind (ih (i + 1))

theorem prints_locals (first : Bool) (ls : List LuaLocal) : Prints (printLocals first ls)
    (Data.itemsText (separator first)
      ((ls.filter fun l => l.name.head? ≠ some 40).map (localData LuaValue.val))) := by
  induction ls generalizing first with
  | nil => exact .nil
  | cons l ls ih =>
    by_cases hidden : l.name.head? = some 40
    · have same : printLocals first (l :: ls) = printLocals first ls := by
        funext b
        rw [printLocals, if_pos hidden]
      rw [List.filter_cons_of_neg (by simpa using hidden), same]
      exact ih first
    · have same : printLocals first (l :: ls) = fun b => b.snprintf (localText first l) >>= printLocals false ls := by
        funext b
        rw [printLocals, if_neg hidden]
      rw [List.filter_cons_of_pos (by simpa using hidden), same, List.map_cons, Data.itemsText, ← localText_eq]
      exact (Prints.snprintf _).bind (ih false)

theorem setBreakpoints_prints (requestSeq : Int) (bps : List BreakpointReply) :
    ∃ prog, Prints prog (Data.object [(ascii "breakpoints", .array (bps.map breakpointData))]).text ∧
      handleSetBreakpoints requestSeq bps =
        prog .empty >>= fun b => .returns (.response requestSeq (ascii "setBreakpoints") true (some b.held)) := by
  have text : (Data.object [(ascii "breakpoints", .array (bps.map breakpointData))]).text =
      ascii "\x7b\"breakpoints\":[" ++ (Data.itemsText [] (bps.map breakpointData) ++ ascii "]\x7d") := by
    simp only [Data.text, Data.fieldsText, quoted, List.append_assoc, List.cons_append, List.nil_append]
    rfl
  rw [text, handleSetBreakpoints]
  refine ⟨_, (Prints.snprintf _).bind ((prints_breakpoints 0 bps).bind (.snprintf _)), ?_⟩
  rw [Exec.bind_assoc]
  exact congrArg _ (funext fun b => (Exec.bind_assoc ..).symm)

theorem stackTrace_prints (requestSeq : Int) (frames : List LuaFrame) :
    ∃ prog, Prints prog (Data.object
        [(ascii "stackFrames", .array ((frames.take maxFrames).zipIdx.map fun p => frameData p.2 p.1)),
          (ascii "totalFrames", .number (frames.take maxFrames).length)]).text ∧
      handleStackTrace requestSeq (some frames) =
        prog .empty >>= fun b => .returns (.response requestSeq (ascii "stackTrace") true (some b.held)) := by
  generalize levels : frames.take maxFrames = fs
  have text : (Data.object [(ascii "stackFrames", .array (fs.zipIdx.map fun p => frameData p.2 p.1)),
      (ascii "totalFrames", .number fs.length)]).text =
      ascii "\x7b\"stackFrames\":[" ++ (Data.itemsText [] (fs.zipIdx.map fun p => frameData p.2 p.1) ++
        (ascii "],\"totalFrames\":" ++ signedDecimal fs.length ++ ascii "\x7d")) := by
    simp only [Data.text, Data.fieldsText, quoted, List.append_assoc, List.cons_append, List.nil_append]
    rfl
  rw [text, handleStackTrace, levels]
  refine ⟨_, (Prints.snprintf _).bind ((prints_frames 0 fs).bind (.snprintf _)), ?_⟩
  rw [Exec.bind_assoc]
  exact congrArg _ (funext fun b => (Exec.bind_assoc ..).symm)

theorem variables_prints (requestSeq : Int) (frames : List LuaFrame) {vref : Int}
    (reference : inInt (vref - 1) = .returns (vref - 1)) (level : ¬vref - 1 < 0) :
    ∃ prog, Prints prog (Data.object
        [(ascii "variables", .array ((localsOf frames vref).map (localData LuaValue.val)))]).text ∧
      handleVariables requestSeq (some frames) vref =
        prog .empty >>= fun b => .returns (.response requestSeq (ascii "variables") true (some b.held)) := by
  have text : (Data.object [(ascii "variables", .array ((localsOf frames vref).map (localData LuaValue.val)))]).text =
      ascii "\x7b\"variables\":[" ++
        (Data.itemsText [] ((localsOf frames vref).map (localData LuaValue.val)) ++ ascii "]\x7d") := by
    simp only [Data.text, Data.fieldsText, quoted, List.append_assoc, List.cons_append, List.nil_append]
    rfl
  have prints : Prints (printLevel frames[(vref - 1).toNat]?)
      (Data.itemsText [] ((localsOf frames vref).map (localData LuaValue.val))) := by
    rw [localsOf]
    cases frames[(vref - 1).toNat]? with
    | none => exact .nil
    | some f => exact prints_locals true (f.locals.take maxVars)
  rw [text, handleVariables, reference, Exec.returns_bind]
  dsimp only
  rw [if_neg level]
  refine ⟨_, (Prints.snprintf _).bind (prints.bind (.snprintf _)), ?_⟩
  rw [Exec.bind_assoc]
  exact congrArg _ (funext fun b => (Exec.bind_assoc ..).symm)

theorem scopes_text (reference : Int) :
    (Data.object [(ascii "scopes", .array [.object [(ascii "name", .string (ascii "Locals")),
      (ascii "variablesReference", .number reference), (ascii "expensive", truth false)]])]).text =
      ascii "\x7b\"scopes\":[\x7b\"name\":\"Locals\",\"variablesReference\":" ++ signedDecimal reference ++
        ascii ",\"expensive\":false\x7d]\x7d" := by
  simp only [truth, Data.text, Data.itemsText, Data.fieldsText, quoted, List.append_assoc, List.cons_append,
    List.nil_append, List.append_nil]
  rfl

theorem loadedSource_text (path : List UInt8) :
    (Data.object [(ascii "reason", .string (ascii "changed")),
      (ascii "source", .object [(ascii "path", .string path), (ascii "name", .string path)])]).text =
      ascii "\x7b\"reason\":\"changed\"," ++ ascii "\"source\":\x7b\"path\":\"" ++ path ++ ascii "\",\"name\":\"" ++
        path ++ ascii "\"\x7d\x7d" := by
  simp only [Data.text, Data.fieldsText, quoted, List.append_assoc, List.cons_append, List.nil_append,
    List.append_nil]
  rfl

theorem eq_of_inInt {v n : Int} (held : inInt v = .returns n) : n = v := by
  rw [inInt] at held
  split at held
  · exact (Exec.returns.inj held).symm
  · cases held

namespace Reply

/-- The room for a body; the constant ones have all they need. -/
def room : Reply → Nat
  | scopes _ _ => 255
  | loadedSource _ => maxSourcePath + 128 - 1
  | _ => maxMsg - 1

theorem response_whole {requestSeq : Int} {command text : List UInt8} {body : Data} (same : body.text = text)
    (short : text.length ≤ maxMsg - 1) :
    .response requestSeq command true (some text) = (Told.response requestSeq command body).wire (maxMsg - 1) := by
  rw [Told.wire, same, List.take_of_length_le short]

theorem event_whole {name text : List UInt8} {body : Data} (same : body.text = text)
    (short : text.length ≤ maxMsg - 1) : .event name (some text) = (Told.event name body).wire (maxMsg - 1) := by
  rw [Told.wire, same, List.take_of_length_le short]

theorem wire_told {r : Reply} {m : WireMessage} (sent : r.wire = .returns m) :
    m = (r.told LuaValue.val).wire r.room := by
  cases r with
  | setBreakpoints requestSeq bps =>
    obtain ⟨prog, prints, handler⟩ := setBreakpoints_prints requestSeq bps
    rw [wire, handler] at sent
    exact prints.sends sent
  | stackTrace requestSeq paused =>
    cases paused with
    | none =>
      cases sent
      rfl
    | some frames =>
      obtain ⟨prog, prints, handler⟩ := stackTrace_prints requestSeq frames
      rw [wire, handler] at sent
      exact prints.sends sent
  | scopes requestSeq frameId =>
    obtain ⟨n, reference, sent⟩ := Exec.bind_eq_returns.mp sent
    cases eq_of_inInt reference
    cases sent
    rw [told, Told.wire, scopes_text]
    rfl
  | locals requestSeq paused vref =>
    obtain ⟨n, reference, later⟩ := Exec.bind_eq_returns.mp sent
    cases eq_of_inInt reference
    cases paused with
    | none =>
      cases later
      rfl
    | some frames =>
      by_cases level : vref - 1 < 0
      · dsimp only at later
        rw [if_pos level] at later
        cases later
        rw [told, if_pos level]
        rfl
      · obtain ⟨prog, prints, handler⟩ := variables_prints requestSeq frames reference level
        rw [wire, handler] at sent
        rw [told, if_neg level]
        exact prints.sends sent
  | loadedSource path =>
    cases sent
    rw [told, Told.wire, loadedSource_text]
    rfl
  | capabilities | launch | configurationDone | threads | resumes | step | pause | disconnect | reloaded =>
    cases sent
    exact response_whole (by decide +kernel) (by decide +kernel)
  | initialized | stopped | continued =>
    cases sent
    exact event_whole (by decide +kernel) (by decide +kernel)
  | refused | unknown =>
    cases sent
    rfl

/-! The values. -/

theorem val_length_le (v : LuaValue) : v.val.length ≤ v.cut.length := by
  have shorter : (v.shown.takeWhile (· ≠ 0)).length ≤ v.shown.length := (List.takeWhile_prefix _).length_le
  rw [LuaValue.val, LuaValue.cut, List.length_map, List.length_take, List.length_take]
  omega

/-- A value without a zero, a quote and a backslash is shown as it is. -/
theorem val_of_bare {v : LuaValue} (bare : Bare v.cut) : v.val = v.cut := by
  have noZero : (v.shown.takeWhile (· ≠ 0)).take 255 = v.shown.take 255 := by
    have bytes : ∀ b ∈ v.shown.take 255, b ≠ 0 := by
      intro b member zero
      have low := (bare b member).1
      rw [zero] at low
      exact absurd low (by decide)
    generalize v.shown = s at bytes
    generalize 255 = n at bytes ⊢
    induction s generalizing n with
    | nil => rfl
    | cons b s ih =>
      cases n with
      | zero => rfl
      | succ n =>
        rw [List.take_succ_cons] at bytes
        obtain ⟨first, others⟩ := List.forall_mem_cons.mp bytes
        rw [List.takeWhile_cons_of_pos (by simpa using first), List.take_succ_cons, List.take_succ_cons, ih n others]
  have kept : ∀ b ∈ v.shown.take 255, (if b = 34 ∨ b = 92 then 95 else b) = b := by
    intro b member
    obtain ⟨-, quote, backslash⟩ := bare b member
    exact if_neg (not_or.mpr ⟨quote, backslash⟩)
  rw [LuaValue.val, noZero, LuaValue.cut]
  exact (List.map_congr_left kept).trans (List.map_id' _)

theorem told_length_le (r : Reply) (seq : Int) :
    ((r.told LuaValue.val).json seq).text.length ≤ ((r.told LuaValue.cut).json seq).text.length := by
  cases r with
  | locals requestSeq paused vref =>
    cases paused with
    | none => exact Nat.le_refl _
    | some frames =>
      rw [told, told]
      split
      · exact Nat.le_refl _
      · have one (l : LuaLocal) : (localData LuaValue.val l).text.length ≤ (localData LuaValue.cut l).text.length := by
          have value := val_length_le l.value
          simp only [localData, Data.text, Data.fieldsText, quoted, List.length_append, List.length_cons]
          omega
        have items := Data.itemsText_length_le one (localsOf frames vref) []
        simp only [Told.json, Data.text, Data.fieldsText, List.length_append, List.length_cons]
        omega
  | stackTrace requestSeq paused =>
    cases paused with
    | none => exact Nat.le_refl _
    | some frames => exact Nat.le_refl _
  | _ => exact Nat.le_refl _

theorem told_of_bare {r : Reply} (bare : ∀ s ∈ r.strings, Bare s) : r.told LuaValue.val = r.told LuaValue.cut := by
  cases r with
  | locals requestSeq paused vref =>
    cases paused with
    | none => rfl
    | some frames =>
      rw [strings] at bare
      rw [told, told]
      split
      · rfl
      · rename_i level
        rw [if_neg level] at bare
        have same : (localsOf frames vref).map (localData LuaValue.val) =
            (localsOf frames vref).map (localData LuaValue.cut) := by
          refine List.map_congr_left fun l member => ?_
          have value : Bare l.value.cut := bare _ (List.mem_flatMap.mpr ⟨l, member, by simp⟩)
          rw [localData, localData, val_of_bare value]
        rw [same]
  | stackTrace requestSeq paused =>
    cases paused with
    | none => rfl
    | some frames => rfl
  | _ => rfl

/-! The strings. -/

theorem strings_of_all {P : List UInt8 → Prop} {r : Reply} (all : (r.told LuaValue.cut).All P) :
    ∀ s ∈ r.strings, P s := by
  cases r with
  | stackTrace requestSeq paused =>
    cases paused with
    | none => exact fun s none => absurd none List.not_mem_nil
    | some frames =>
      obtain ⟨-, -, items, -⟩ := all
      have shown := (Data.allItems_map _).mp items
      intro s member
      obtain ⟨f, level, here⟩ := List.mem_flatMap.mp member
      obtain ⟨i, inside, rfl⟩ := List.mem_iff_getElem.mp level
      have numbered := List.mk_mem_zipIdx_iff_getElem?.mpr (List.getElem?_eq_getElem inside)
      obtain ⟨-, -, -, name, -, ⟨-, path, -⟩, -⟩ := shown _ numbered
      rcases List.mem_cons.mp here with rfl | here
      · exact name
      · exact List.mem_singleton.mp here ▸ path
  | locals requestSeq paused vref =>
    cases paused with
    | none => exact fun s none => absurd none List.not_mem_nil
    | some frames =>
      rw [strings]
      rw [told] at all
      split
      · exact fun s none => absurd none List.not_mem_nil
      · rename_i level
        rw [if_neg level] at all
        obtain ⟨-, -, items, -⟩ := all
        have shown := (Data.allItems_map _).mp items
        intro s member
        obtain ⟨l, among, here⟩ := List.mem_flatMap.mp member
        obtain ⟨-, name, -, value, -⟩ := shown l among
        rcases List.mem_cons.mp here with rfl | here
        · exact name
        · exact List.mem_singleton.mp here ▸ value
  | unknown requestSeq cmd => exact List.forall_mem_singleton.mpr all.1
  | loadedSource path =>
    obtain ⟨-, -, -, -, ⟨-, same, -⟩, -⟩ := all
    exact List.forall_mem_singleton.mpr same
  | _ => exact fun s none => absurd none List.not_mem_nil

theorem typename_plain (v : LuaValue) : Plain v.typename := by
  cases v with
  | string s => exact plain_of_letters rfl
  | number text => exact plain_of_letters rfl
  | other type => cases type <;> exact plain_of_letters rfl

theorem told_plain {r : Reply} (plain : ∀ s ∈ r.strings, Plain s) : (r.told LuaValue.cut).All Plain := by
  cases r with
  | stackTrace requestSeq paused =>
    cases paused with
    | none => exact ⟨plain_of_letters rfl, plain_of_letters rfl⟩
    | some frames =>
      have items : Data.AllItems Plain ((frames.take maxFrames).zipIdx.map fun p => frameData p.2 p.1) := by
        refine (Data.allItems_map _).mpr fun p member => ?_
        have level := List.fst_mem_of_mem_zipIdx member
        have name := plain _ (List.mem_flatMap.mpr ⟨p.1, level, List.mem_cons_self⟩)
        have path := plain _ (List.mem_flatMap.mpr ⟨p.1, level, List.mem_cons_of_mem _ List.mem_cons_self⟩)
        exact ⟨plain_of_letters rfl, trivial, plain_of_letters rfl, name, plain_of_letters rfl,
          ⟨plain_of_letters rfl, path, trivial⟩, plain_of_letters rfl, trivial, plain_of_letters rfl, trivial, trivial⟩
      exact ⟨plain_of_letters rfl, plain_of_letters rfl, items, plain_of_letters rfl, trivial, trivial⟩
  | locals requestSeq paused vref =>
    cases paused with
    | none => exact ⟨plain_of_letters rfl, plain_of_letters rfl⟩
    | some frames =>
      rw [strings] at plain
      rw [told]
      split
      · exact ⟨plain_of_letters rfl, plain_of_letters rfl⟩
      · rename_i level
        rw [if_neg level] at plain
        have items : Data.AllItems Plain ((localsOf frames vref).map (localData LuaValue.cut)) := by
          refine (Data.allItems_map _).mpr fun l member => ?_
          have name := plain _ (List.mem_flatMap.mpr ⟨l, member, List.mem_cons_self⟩)
          have value := plain _ (List.mem_flatMap.mpr ⟨l, member, List.mem_cons_of_mem _ List.mem_cons_self⟩)
          exact ⟨plain_of_letters rfl, name, plain_of_letters rfl, value, plain_of_letters rfl, typename_plain l.value,
            plain_of_letters rfl, trivial, trivial⟩
        exact ⟨plain_of_letters rfl, plain_of_letters rfl, items, trivial⟩
  | setBreakpoints requestSeq bps =>
    have items : Data.AllItems Plain (bps.map breakpointData) := by
      refine (Data.allItems_map _).mpr fun r member => ?_
      exact ⟨plain_of_letters rfl, trivial, plain_of_letters rfl, trivial, plain_of_letters rfl, trivial, trivial⟩
    exact ⟨plain_of_letters rfl, plain_of_letters rfl, items, trivial⟩
  | unknown requestSeq cmd => exact ⟨plain cmd List.mem_cons_self, plain_of_letters rfl⟩
  | loadedSource path =>
    have same := plain path List.mem_cons_self
    exact ⟨plain_of_letters rfl, plain_of_letters rfl, plain_of_letters rfl, plain_of_letters rfl,
      ⟨plain_of_letters rfl, same, plain_of_letters rfl, same, trivial⟩, trivial⟩
  | step requestSeq mode =>
    refine ⟨?_, plain_of_letters rfl, trivial, trivial⟩
    split
    · exact plain_of_letters rfl
    · split <;> exact plain_of_letters rfl
  | refused requestSeq refusal => cases refusal <;> exact ⟨plain_of_letters rfl, plain_of_letters rfl⟩
  | capabilities | launch | configurationDone | threads | scopes | resumes | pause | disconnect | reloaded |
    initialized | stopped | continued =>
    repeat' first
      | exact trivial
      | exact plain_of_letters rfl
      | apply And.intro

/-! The room. -/

theorem signedDecimal_length_le {n : Int} (low : -2 ^ 31 ≤ n) (high : n < 2 ^ 31) : (signedDecimal n).length ≤ 11 := by
  have digits (m : Nat) (small : m < 10 ^ 10) : ((Nat.toDigits 10 m).map asciiByte).length ≤ 10 := by
    rw [List.length_map]
    exact (Nat.length_toDigits_le_iff (by decide) (by decide)).mpr small
  show (decimalText n).length ≤ 11
  cases n with
  | ofNat m =>
    rw [Int.ofNat_eq_natCast] at high ⊢
    have few := digits m (by omega)
    rw [decimalText_of_nonneg]
    omega
  | negSucc m =>
    have few := digits (m + 1) (by omega)
    rw [Int.negSucc_eq, ← Int.natCast_succ, decimalText_of_neg, List.length_cons]
    omega

theorem inInt_iff (v : Int) : inInt v = .returns v ↔ -2 ^ 31 ≤ v ∧ v < 2 ^ 31 := by
  rw [inInt]
  split
  · exact iff_of_true rfl ‹_›
  · refine iff_of_false (fun held => ?_) ‹_›
    cases held

theorem inRange_of_sent {requestSeq frameId : Int} {m : WireMessage}
    (sent : handleScopes requestSeq frameId = .returns m) : inInt (frameId + 1) = .returns (frameId + 1) := by
  obtain ⟨n, reference, -⟩ := Exec.bind_eq_returns.mp sent
  cases eq_of_inInt reference
  exact reference

/-- The buffers take the body of every message that is short enough, and a path with its copy up to 550 bytes. -/
theorem fits_iff {r : Reply} {seq : Int} (small : ((r.told LuaValue.cut).json seq).text.length < maxMsg)
    (sent : ∃ m, r.wire = .returns m) : (r.told LuaValue.cut).Fits r.room ↔ r.InRange := by
  obtain ⟨m, sent⟩ := sent
  have whole := Told.fits_of_small small
  cases r with
  | scopes requestSeq frameId =>
    have reference := inRange_of_sent sent
    obtain ⟨low, high⟩ := (inInt_iff _).mp reference
    have short := signedDecimal_length_le low high
    refine iff_of_true ?_ reference
    have front : (ascii "\x7b\"scopes\":[\x7b\"name\":\"Locals\",\"variablesReference\":").length = 49 := rfl
    have back : (ascii ",\"expensive\":false\x7d]\x7d").length = 21 := rfl
    rw [told, Told.Fits, scopes_text, List.length_append, List.length_append, front, back]
    show _ ≤ 255
    omega
  | locals requestSeq paused vref =>
    obtain ⟨n, reference, -⟩ := Exec.bind_eq_returns.mp sent
    cases eq_of_inInt reference
    exact iff_of_true whole reference
  | loadedSource path =>
    have front : (ascii "\x7b\"reason\":\"changed\"," ++ ascii "\"source\":\x7b\"path\":\"").length = 38 := rfl
    have mid : (ascii "\",\"name\":\"").length = 10 := rfl
    have back : (ascii "\"\x7d\x7d").length = 3 := rfl
    rw [told, Told.Fits, loadedSource_text, List.length_append, List.length_append, List.length_append,
      List.length_append, front, mid, back]
    show _ ≤ 1151 ↔ path.length ≤ 550
    omega
  | _ => exact iff_of_true whole trivial

theorem wire_ends {r : Reply} {seq : Int} (small : ((r.told LuaValue.val).json seq).text.length < maxMsg)
    (range : r.InRange) : ∃ m, r.wire = .returns m := by
  have whole := Told.fits_of_small small
  cases r with
  | setBreakpoints requestSeq bps =>
    obtain ⟨prog, prints, handler⟩ := setBreakpoints_prints requestSeq bps
    rw [wire, handler]
    exact prints.sends_of_fits (Nat.le_trans whole (Nat.sub_le ..)) ..
  | stackTrace requestSeq paused =>
    cases paused with
    | none => exact ⟨_, rfl⟩
    | some frames =>
      obtain ⟨prog, prints, handler⟩ := stackTrace_prints requestSeq frames
      rw [wire, handler]
      exact prints.sends_of_fits (Nat.le_trans whole (Nat.sub_le ..)) ..
  | scopes requestSeq frameId =>
    rw [wire, handleScopes, range]
    exact ⟨_, rfl⟩
  | locals requestSeq paused vref =>
    cases paused with
    | none =>
      rw [wire, handleVariables, range]
      exact ⟨_, rfl⟩
    | some frames =>
      by_cases level : vref - 1 < 0
      · rw [wire, handleVariables, range, Exec.returns_bind]
        dsimp only
        rw [if_pos level]
        exact ⟨_, rfl⟩
      · obtain ⟨prog, prints, handler⟩ := variables_prints requestSeq frames range level
        rw [told, if_neg level] at whole
        rw [wire, handler]
        exact prints.sends_of_fits (Nat.le_trans whole (Nat.sub_le ..)) ..
  | _ => exact ⟨_, rfl⟩

theorem Conveyed.bare {r : Reply} {seq : Int} (conveyed : r.Conveyed seq) : ∀ s ∈ r.strings, Bare s := by
  obtain ⟨m, sent, said⟩ := conveyed
  rw [wire_told sent] at said
  exact strings_of_all (Told.all_of_json (Told.bare_of_said (told_length_le r seq) said))

/-- A message is JSON and says what it is to tell exactly if its strings need no escape, its numbers are in range and
it fits. -/
theorem conveyed_iff (r : Reply) (seq : Int) : r.Conveyed seq ↔ r.Regular seq := by
  constructor
  · intro conveyed
    have same := told_of_bare conveyed.bare
    obtain ⟨m, sent, said⟩ := conveyed
    rw [wire_told sent, same, Told.conveys_iff] at said
    obtain ⟨plain, fits, small⟩ := said
    exact ⟨strings_of_all (Told.all_of_json plain), (fits_iff small ⟨m, sent⟩).mp fits, small⟩
  · rintro ⟨plain, range, small⟩
    have same := told_of_bare fun s member => (plain s member).1
    obtain ⟨m, sent⟩ := wire_ends (same ▸ small) range
    refine ⟨m, sent, ?_⟩
    rw [wire_told sent, same, Told.conveys_iff]
    exact ⟨Told.plain_json (told_plain plain), (fits_iff small ⟨m, sent⟩).mpr range, small⟩

/-- A chunk that `load` was given as a string has its text for a source. -/
def loadedChunk : LuaFrame := ⟨none, some (ascii "main"), some (ascii "return \"a\""), 1, []⟩

theorem loadedChunk_not_conveyed : ¬(stackTrace 7 (some [loadedChunk])).Conveyed 3 := by
  intro conveyed
  have path := conveyed.bare (ascii "return \"a\"") (by decide)
  exact (path 34 (by decide)).2.1 rfl

end Reply

/-! Every message is one of them. -/

theorem reloadMessage_wire {S : Type} {h : ReloadHost S} {impl : ReloadImpl} {s_L s_L' : Option S} {seq : Int}
    {source hex : Option (List UInt8)} {sent : List DapMessage}
    (handled : h.handleHotReload impl s_L seq source hex = .returns (s_L', sent)) :
    ∀ m ∈ sent, ∃ r : Reply, r.wire = .returns (reloadMessage m) := by
  have refused (refusal : Refusal) : ∃ r : Reply,
      r.wire = .returns (.response seq (ascii "hot_reload") false (some refusal.text)) := ⟨.refused seq refusal, rfl⟩
  unfold ReloadHost.handleHotReload at handled
  split at handled
  · cases handled
    exact List.forall_mem_singleton.mpr (refused .missingSource)
  · rename_i src
    split at handled
    · split at handled
      · cases handled
        exact List.forall_mem_singleton.mpr (refused .missingBytecodeHex)
      · split at handled
        · cases handled
          exact List.forall_mem_singleton.mpr (refused .badHex)
        · obtain ⟨_, -, same⟩ := Exec.bind_eq_returns.mp handled
          cases same
          refine List.forall_mem_cons.mpr ⟨⟨.reloaded seq, rfl⟩, List.forall_mem_singleton.mpr ⟨.loadedSource src, rfl⟩⟩
    · cases handled
      exact List.forall_mem_singleton.mpr (refused .oom)

/-- `dispatch` sends nothing else. -/
theorem answers_wire {S : Type} {d : Debuggee S} {msg : List UInt8} {ms : List WireMessage}
    (answered : answers d msg = .returns ms) : ∀ m ∈ ms, ∃ r : Reply, r.wire = .returns m := by
  obtain ⟨called, -, answered⟩ := Exec.bind_eq_returns.mp answered
  cases called with
  | none =>
    cases answered
    exact fun m none => absurd none List.not_mem_nil
  | some call =>
    obtain ⟨handler, seq⟩ := call
    cases handler with
    | handleInitialize =>
      cases answered
      exact List.forall_mem_cons.mpr ⟨⟨.capabilities seq, rfl⟩, List.forall_mem_singleton.mpr ⟨.initialized, rfl⟩⟩
    | handleLaunch =>
      cases answered
      exact List.forall_mem_singleton.mpr ⟨.launch seq, rfl⟩
    | handleConfigurationDone =>
      cases answered
      exact List.forall_mem_singleton.mpr ⟨.configurationDone seq, rfl⟩
    | handleSetBreakpoints =>
      obtain ⟨lines, -, answered⟩ := Exec.bind_eq_returns.mp answered
      obtain ⟨served, -, answered⟩ := Exec.bind_eq_returns.mp answered
      obtain ⟨m, sent, same⟩ := Exec.bind_eq_returns.mp answered
      cases same
      exact List.forall_mem_singleton.mpr ⟨.setBreakpoints seq served.2, sent⟩
    | handleThreads =>
      cases answered
      exact List.forall_mem_singleton.mpr ⟨.threads seq, rfl⟩
    | handleStackTrace =>
      obtain ⟨m, sent, same⟩ := Exec.bind_eq_returns.mp answered
      cases same
      exact List.forall_mem_singleton.mpr ⟨.stackTrace seq d.paused, sent⟩
    | handleScopes =>
      obtain ⟨frameId, -, answered⟩ := Exec.bind_eq_returns.mp answered
      obtain ⟨m, sent, same⟩ := Exec.bind_eq_returns.mp answered
      cases same
      exact List.forall_mem_singleton.mpr ⟨.scopes seq frameId, sent⟩
    | handleVariables =>
      obtain ⟨vref, -, answered⟩ := Exec.bind_eq_returns.mp answered
      obtain ⟨m, sent, same⟩ := Exec.bind_eq_returns.mp answered
      cases same
      exact List.forall_mem_singleton.mpr ⟨.locals seq d.paused vref, sent⟩
    | handleContinue =>
      cases answered
      exact List.forall_mem_singleton.mpr ⟨.resumes seq, rfl⟩
    | handleStep mode =>
      cases answered
      exact List.forall_mem_singleton.mpr ⟨.step seq mode, rfl⟩
    | handlePause =>
      cases answered
      exact List.forall_mem_singleton.mpr ⟨.pause seq, rfl⟩
    | handleDisconnect =>
      cases answered
      exact List.forall_mem_singleton.mpr ⟨.disconnect seq, rfl⟩
    | handleHotReload =>
      obtain ⟨served, handled, same⟩ := Exec.bind_eq_returns.mp answered
      cases same
      refine List.forall_mem_map.mpr ?_
      exact reloadMessage_wire handled
    | unknown cmd =>
      cases answered
      exact List.forall_mem_singleton.mpr ⟨.unknown seq cmd, rfl⟩

end DapReplies
end Blyt
