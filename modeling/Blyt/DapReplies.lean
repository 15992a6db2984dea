import Blyt.DapOutput
import Blyt.HotReloadPayload
import Blyt.Lib.JsonData

namespace Blyt
namespace DapReplies
open JsonSyntax

def maxFrames : Nat := 64
def maxVars : Nat := 64

/-! What the handlers read of a paused `lua_State`; a C string is the bytes before its zero. -/

inductive LuaType where
  | nil
  | boolean
  | table
  | function
  | userdata
  | thread
  deriving DecidableEq

def LuaType.name : LuaType → List UInt8
  | nil => ascii "nil"
  | boolean => ascii "boolean"
  | table => ascii "table"
  | function => ascii "function"
  | userdata => ascii "userdata"
  | thread => ascii "thread"

/-- The value of a local variable: a string may hold zeros, and a number is what `lua_tostring` makes
of it. -/
inductive LuaValue where
  | string (s : List UInt8)
  | number (text : List UInt8)
  | other (type : LuaType)

/-- `luaL_typename`. -/
def LuaValue.typename : LuaValue → List UInt8
  | string _ => ascii "string"
  | number _ => ascii "number"
  | other type => type.name

/-- What is shown as the value. -/
def LuaValue.shown : LuaValue → List UInt8
  | string s => s
  | number text => text
  | other type => type.name

structure LuaLocal where
  name : List UInt8
  value : LuaValue

/-- What `lua_getinfo` tells of a level, and its local variables in the order of `lua_getlocal`. -/
structure LuaFrame where
  name : Option (List UInt8)
  what : Option (List UInt8)
  source : Option (List UInt8)
  currentline : Int
  locals : List LuaLocal

def LuaFrame.shownName (f : LuaFrame) : List UInt8 := f.name.getD (f.what.getD (ascii "?"))

def LuaFrame.path (f : LuaFrame) : List UInt8 := chunkPath (f.source.getD (ascii "?"))

/-! The handlers. -/

/-- The string in `body[MAX_MSG]` and the `off` behind it. -/
structure Body where
  held : List UInt8
  off : Nat

namespace Body

def empty : Body := ⟨[], 0⟩

/-- `off += snprintf(body + off, sizeof(body) - off, ...)` where the format prints `text`. With `off` behind the end
of the buffer the room wraps; a length that no `int` holds is undefined too. -/
def snprintf (b : Body) (text : List UInt8) : Exec Body :=
  if b.off ≤ maxMsg ∧ b.off + text.length < 2 ^ 31 then
    .returns
      ⟨if b.off < maxMsg then b.held.take b.off ++ text.take (maxMsg - b.off - 1) else b.held, b.off + text.length⟩
  else .outOfBounds

end Body

def trueOrFalse (b : Bool) : List UInt8 := if b then ascii "true" else ascii "false"

/-- The first of the two messages of `handle_initialize`. -/
def handleInitialize (requestSeq : Int) : WireMessage :=
  .response requestSeq (ascii "initialize") true
    (some (ascii "\x7b\"supportsConfigurationDoneRequest\":true," ++ ascii "\"supportsLoadedSourcesRequest\":true," ++
      ascii "\"supportsRestartRequest\":false," ++ ascii "\"supportsStepBack\":false," ++
      ascii "\"supportsTerminateRequest\":true\x7d"))

def initialized : WireMessage := .event (ascii "initialized") (some (ascii "\x7b\x7d"))

def handleLaunch (requestSeq : Int) : WireMessage :=
  .response requestSeq (ascii "launch") true (some (ascii "\x7b\x7d"))

def handleConfigurationDone (requestSeq : Int) : WireMessage :=
  .response requestSeq (ascii "configurationDone") true (some (ascii "\x7b\x7d"))

/-- What is printed for the line at the index `i`. -/
def breakpointText (i : Nat) (r : BreakpointReply) : List UInt8 :=
  (if i = 0 then [] else ascii ",") ++ ascii "\x7b\"id\":" ++ signedDecimal r.id ++ ascii ",\"verified\":" ++
    trueOrFalse r.verified ++ ascii ",\"line\":" ++ signedDecimal r.line ++ ascii "\x7d"

/-- The loop of `handle_set_breakpoints` that prints. -/
def printBreakpoints : Nat → List BreakpointReply → Body → Exec Body
  | _, [], b => .returns b
  | i, r :: rs, b => do
    let b ← b.snprintf (breakpointText i r)
    printBreakpoints (i + 1) rs b

/-- `handle_set_breakpoints` behind the section that changes the table. -/
def handleSetBreakpoints (requestSeq : Int) (bps : List BreakpointReply) : Exec WireMessage := do
  let b ← Body.empty.snprintf (ascii "\x7b\"breakpoints\":[")
  let b ← printBreakpoints 0 bps b
  let b ← b.snprintf (ascii "]\x7d")
  return .response requestSeq (ascii "setBreakpoints") true (some b.held)

def handleThreads (requestSeq : Int) : WireMessage :=
  .response requestSeq (ascii "threads") true
    (some (ascii "\x7b\"threads\":[\x7b\"id\":1,\"name\":\"cart\"\x7d]\x7d"))

def frameText (frame : Nat) (f : LuaFrame) : List UInt8 :=
  (if frame = 0 then [] else ascii ",") ++ ascii "\x7b\"id\":" ++ signedDecimal frame ++ ascii ",\"name\":\"" ++
    f.shownName ++ ascii "\"," ++ ascii "\"source\":\x7b\"path\":\"" ++ f.path ++ ascii "\"\x7d," ++
    ascii "\"line\":" ++ signedDecimal f.currentline ++ ascii ",\"column\":1\x7d"

/-- The loop of `handle_stack_trace`. -/
def printFrames : Nat → List LuaFrame → Body → Exec Body
  | _, [], b => .returns b
  | frame, f :: fs, b => do
    let b ← b.snprintf (frameText frame f)
    printFrames (frame + 1) fs b

/-- `handle_stack_trace`, on the levels of the paused state. -/
def handleStackTrace (requestSeq : Int) : Option (List LuaFrame) → Exec WireMessage
  | none => .returns (.response requestSeq (ascii "stackTrace") false (some (ascii "not paused")))
  | some frames => do
    let b ← Body.empty.snprintf (ascii "\x7b\"stackFrames\":[")
    let b ← printFrames 0 (frames.take maxFrames) b
    let b ← b.snprintf (ascii "],\"totalFrames\":" ++ signedDecimal (frames.take maxFrames).length ++ ascii "\x7d")
    return .response requestSeq (ascii "stackTrace") true (some b.held)

/-- `handle_scopes`, whose `body` has 256 bytes. -/
def handleScopes (requestSeq frameId : Int) : Exec WireMessage := do
  let reference ← inInt (frameId + 1)
  return .response requestSeq (ascii "scopes") true
    (some ((ascii "\x7b\"scopes\":[\x7b\"name\":\"Locals\",\"variablesReference\":" ++ signedDecimal reference ++
      ascii ",\"expensive\":false\x7d]\x7d").take 255))

/-- `val`, with quotes and backslashes replaced. -/
def LuaValue.val (v : LuaValue) : List UInt8 :=
  ((v.shown.takeWhile (· ≠ 0)).take 255).map fun q => if q = 34 ∨ q = 92 then 95 else q

def localText (first : Bool) (l : LuaLocal) : List UInt8 :=
  (if first then [] else ascii ",") ++ ascii "\x7b\"name\":\"" ++ l.name ++ ascii "\",\"value\":\"" ++ l.value.val ++
    ascii "\"," ++ ascii "\"type\":\"" ++ l.value.typename ++ ascii "\",\"variablesReference\":0\x7d"

/-- The loop of `handle_variables`; a name that begins with a parenthesis is not one of the source. -/
def printLocals : Bool → List LuaLocal → Body → Exec Body
  | _, [], b => .returns b
  | first, l :: ls, b =>
    if l.name.head? = some 40 then printLocals first ls b
    else do
      let b ← b.snprintf (localText first l)
      printLocals false ls b

/-- The level of the reference, if there is one. -/
def printLevel : Option LuaFrame → Body → Exec Body
  | none, b => .returns b
  | some f, b => printLocals true (f.locals.take maxVars) b

def handleVariables (requestSeq : Int) (paused : Option (List LuaFrame)) (vref : Int) : Exec WireMessage := do
  let frameId ← inInt (vref - 1)
  match paused with
  | none => return .response requestSeq (ascii "variables") false (some (ascii "not paused"))
  | some frames =>
    if frameId < 0 then return .response requestSeq (ascii "variables") false (some (ascii "not paused"))
    else
      let b ← Body.empty.snprintf (ascii "\x7b\"variables\":[")
      let b ← printLevel frames[frameId.toNat]? b
      let b ← b.snprintf (ascii "]\x7d")
      return .response requestSeq (ascii "variables") true (some b.held)

def handleContinue (requestSeq : Int) : WireMessage :=
  .response requestSeq (ascii "continue") true (some (ascii "\x7b\"allThreadsContinued\":true\x7d"))

def handleStep (requestSeq : Int) (mode : DapStepMode) : WireMessage :=
  .response requestSeq (if mode = .over then ascii "next" else if mode = .in then ascii "stepIn" else ascii "stepOut")
    true (some (ascii "\x7b\"allThreadsContinued\":true\x7d"))

def handlePause (requestSeq : Int) : WireMessage :=
  .response requestSeq (ascii "pause") true (some (ascii "\x7b\x7d"))

def handleDisconnect (requestSeq : Int) : WireMessage :=
  .response requestSeq (ascii "disconnect") true (some (ascii "\x7b\x7d"))

/-- `fc_dap_emit_loaded_source`, whose `body` has 128 bytes more than a path. -/
def emitLoadedSource (sourcePath : List UInt8) : WireMessage :=
  .event (ascii "loadedSource")
    (some ((ascii "\x7b\"reason\":\"changed\"," ++ ascii "\"source\":\x7b\"path\":\"" ++ sourcePath ++
      ascii "\",\"name\":\"" ++ sourcePath ++ ascii "\"\x7d\x7d").take (maxSourcePath + 128 - 1)))

/-- What a reload sends. -/
def reloadMessage : DapMessage → WireMessage
  | .response requestSeq command success text => .response requestSeq (ascii command) success (some (ascii text))
  | .loadedSource path => emitLoadedSource path

/-- The answer of `dispatch` to a command it does not know. -/
def unknownCommand (requestSeq : Int) (cmd : List UInt8) : WireMessage :=
  .response requestSeq cmd false (some (ascii "unknown command"))

/-- The event behind the wait loop of `fc_dap_pause_loop`. -/
def continued : WireMessage :=
  .event (ascii "continued") (some (ascii "\x7b\"threadId\":1,\"allThreadsContinued\":true\x7d"))

/-- The loop of `json_get_int_array`, with room for so many numbers. -/
def readInts : Nat → List UInt8 → Exec (List Int)
  | 0, _ => .returns []
  | room + 1, p =>
    if p = [] ∨ p.head? = some 93 then .returns []
    else
      let p := p.dropWhile fun c => c == 32 || c == 44 || c == 9 || c == 10
      if p.head? = some 93 then .returns []
      else do
        let v ← atoi p
        let vs ← readInts room (p.dropWhile fun c => c != 44 && c != 93)
        return v :: vs

def jsonGetIntArray (buf key : List UInt8) (max : Nat) : Exec (List Int) :=
  match (strstr (quotedKey key) buf).bind (strchr 91) with
  | none => .returns []
  | some p => readInts max p.tail

/-- What the handlers find: the levels of the paused state if there is one, the breakpoints, and what a reload uses. -/
structure Debuggee (S : Type) where
  paused : Option (List LuaFrame)
  table : BreakpointTable
  host : ReloadHost S
  impl : ReloadImpl
  s_L : Option S

/-- The messages that `dispatch` sends for a request, in order. -/
def answers {S : Type} (d : Debuggee S) (msg : List UInt8) : Exec (List WireMessage) := do
  match ← dispatch msg with
  | none => return []
  | some (handler, seq) =>
    match handler with
    | .handleInitialize => return [handleInitialize seq, initialized]
    | .handleLaunch => return [handleLaunch seq]
    | .handleConfigurationDone => return [handleConfigurationDone seq]
    | .handleSetBreakpoints =>
      let lines ← jsonGetIntArray msg (ascii "lines") maxBreakpoints
      let path := (jsonGetString msg (ascii "path") maxSourcePath).getD []
      let (_, bps) ← d.table.handleSetBreakpoints ⟨path, lines⟩
      return [← handleSetBreakpoints seq bps]
    | .handleThreads => return [handleThreads seq]
    | .handleStackTrace => return [← handleStackTrace seq d.paused]
    | .handleScopes => return [← handleScopes seq (← jsonGetInt msg (ascii "frameId") 0)]
    | .handleVariables => return [← handleVariables seq d.paused (← jsonGetInt msg (ascii "variablesReference") 0)]
    | .handleContinue => return [handleContinue seq]
    | .handleStep mode => return [handleStep seq mode]
    | .handlePause => return [handlePause seq]
    | .handleDisconnect => return [handleDisconnect seq]
    | .handleHotReload =>
      let (_, sent) ← d.host.serveHotReload d.impl d.s_L seq msg
      return sent.map reloadMessage
    | .unknown cmd => return [unknownCommand seq cmd]

/-! What is in the buffer. -/

/-- It holds what fits of what was printed. -/
structure Body.Holds (b : Body) (printed : List UInt8) : Prop where
  held : b.held = printed.take (maxMsg - 1)
  off : b.off = printed.length

/-- The text is printed behind what was printed before, and to its end where that is not behind the end of the
buffer. -/
structure Prints (prog : Body → Exec Body) (text : List UInt8) : Prop where
  holds : ∀ b b' printed, b.Holds printed → prog b = .returns b' → b'.Holds (printed ++ text)
  ends : ∀ b printed, b.Holds printed → printed.length + text.length ≤ maxMsg → ∃ b', prog b = .returns b'

theorem Body.empty_holds : empty.Holds [] := ⟨rfl, rfl⟩

theorem Prints.nil : Prints .returns [] := by
  refine ⟨fun b b' printed holds same => ?_, fun b _ _ _ => ⟨b, rfl⟩⟩
  cases same
  rwa [List.append_nil]

theorem Prints.snprintf (text : List UInt8) : Prints (fun b => b.snprintf text) text := by
  refine ⟨fun b b' printed holds printed' => ?_, fun b printed holds room => ?_⟩
  · obtain ⟨held, off⟩ := holds
    simp only [Body.snprintf] at printed'
    split at printed'
    · rename_i inside
      cases printed'
      rw [off] at inside
      refine ⟨?_, by rw [off, List.length_append]⟩
      dsimp only
      rw [held, off]
      split
      · rename_i before
        have whole : printed.length ≤ maxMsg - 1 := Nat.le_sub_one_of_lt before
        rw [List.take_append, List.take_of_length_le whole, List.take_length, Nat.sub_right_comm]
      · rw [List.take_append_of_le_length (by omega)]
    · cases printed'
  · have small : maxMsg < 2 ^ 31 := by decide
    refine ⟨_, if_pos ⟨?_, ?_⟩⟩
    · rw [holds.off]
      omega
    · rw [holds.off]
      omega

theorem Prints.bind {first second : Body → Exec Body} {text more : List UInt8} (one : Prints first text)
    (two : Prints second more) : Prints (fun b => first b >>= second) (text ++ more) := by
  refine ⟨fun b b' printed holds ran => ?_, fun b printed holds room => ?_⟩
  · obtain ⟨c, here, rest⟩ := Exec.bind_eq_returns.mp ran
    rw [← List.append_assoc]
    exact two.holds c b' _ (one.holds b c printed holds here) rest
  · rw [List.length_append] at room
    obtain ⟨c, here⟩ := one.ends b printed holds (by omega)
    obtain ⟨b', rest⟩ := two.ends c _ (one.holds b c printed holds here) (by rw [List.length_append]; omega)
    exact ⟨b', Exec.bind_eq_returns.mpr ⟨c, here, rest⟩⟩

/-- A handler that prints and then answers with what is in the buffer. -/
theorem Prints.sends {prog : Body → Exec Body} {text command : List UInt8} {requestSeq : Int} {m : WireMessage}
    (prints : Prints prog text)
    (sent : (prog .empty >>= fun b => .returns (.response requestSeq command true (some b.held))) = .returns m) :
    m = .response requestSeq command true (some (text.take (maxMsg - 1))) := by
  obtain ⟨b, printed, same⟩ := Exec.bind_eq_returns.mp sent
  rw [← Exec.returns.inj same, (prints.holds _ b [] Body.empty_holds printed).held, List.nil_append]

theorem Prints.sends_of_fits {prog : Body → Exec Body} {text : List UInt8} (prints : Prints prog text)
    (fits : text.length ≤ maxMsg) (requestSeq : Int) (command : List UInt8) :
    ∃ m, (prog .empty >>= fun b => .returns (WireMessage.response requestSeq command true (some b.held))) =
      .returns m := by
  obtain ⟨b, printed⟩ := prints.ends _ [] Body.empty_holds (by rwa [List.length_nil, Nat.zero_add])
  exact ⟨_, Exec.bind_eq_returns.mpr ⟨b, printed, rfl⟩⟩

end DapReplies
end Blyt
