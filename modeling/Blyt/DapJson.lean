import Blyt.DapServer
import Blyt.RuntimeTracked

namespace Blyt

/-- `strstr`: what is left of `buf` from the first occurrence on. A C string is the bytes
before its zero. -/
def strstr (pat : List UInt8) : List UInt8 → Option (List UInt8)
  | [] => if pat.isPrefixOf [] then some [] else none
  | c :: buf => if pat.isPrefixOf (c :: buf) then some (c :: buf) else strstr pat buf

def strchr (c : UInt8) : List UInt8 → Option (List UInt8)
  | [] => none
  | b :: p => if b = c then some (b :: p) else strchr c p

/-- `while (*p == ' ' || *p == '\t') p++;`. -/
def skipBlanks (p : List UInt8) : List UInt8 := p.dropWhile fun c => c == 32 || c == 9

def isSpace (c : UInt8) : Bool := c == 32 || (9 ≤ c && c ≤ 13)

/-- The value of the digits in front, behind those already read. -/
def readDigits (v : Nat) : List UInt8 → Nat
  | [] => v
  | c :: p => if 48 ≤ c ∧ c ≤ 57 then readDigits (v * 10 + (c.toNat - 48)) p else v

/-- A number an `int` holds; for others `atoi` is undefined. -/
def inInt (v : Int) : Exec Int := if -2 ^ 31 ≤ v ∧ v < 2 ^ 31 then .returns v else .outOfBounds

def atoi (p : List UInt8) : Exec Int :=
  match p.dropWhile isSpace with
  | 45 :: p => inInt (-readDigits 0 p)
  | 43 :: p => inInt (readDigits 0 p)
  | p => inInt (readDigits 0 p)

/-- The key as it is searched for, in a buffer of 64 bytes. -/
def quotedKey (key : List UInt8) : List UInt8 := (34 :: (key ++ [34])).take 63

/-- What stands behind the colon that follows the first occurrence of a key. -/
def findValue (buf key : List UInt8) : Option (List UInt8) := do
  let p ← strstr (quotedKey key) buf
  let p ← strchr 58 p
  return skipBlanks p.tail

def jsonGetInt (buf key : List UInt8) (default : Int) : Exec Int :=
  match findValue buf key with
  | none => .returns default
  | some p => atoi p

/-- The loop that copies a string, with room for so many bytes before the zero. -/
def copyString : Nat → List UInt8 → List UInt8
  | 0, _ => []
  | _ + 1, [] => []
  | room + 1, c :: p =>
    if c = 34 then []
    else
      match p with
      | [] => [c]
      | e :: rest => if c = 92 then e :: copyString room rest else c :: copyString room (e :: rest)

/-- `json_get_string`, into a buffer of `n` bytes. -/
def jsonGetString (buf key : List UInt8) (n : Nat) : Option (List UInt8) :=
  match findValue buf key with
  | some (34 :: p) => some (copyString (n - 1) p)
  | _ => none

/-- The handlers `dispatch` calls; an unknown command is answered with its name. -/
inductive DapHandler where
  | handleInitialize
  | handleLaunch
  | handleConfigurationDone
  | handleSetBreakpoints
  | handleThreads
  | handleStackTrace
  | handleScopes
  | handleVariables
  | handleContinue
  | handleStep (mode : DapStepMode)
  | handlePause
  | handleDisconnect
  | handleHotReload
  | unknown (cmd : List UInt8)
  deriving DecidableEq

/-- The commands, in the order in which they are compared. -/
def dapCommands : List (List UInt8 × DapHandler) :=
  [(ascii "initialize", .handleInitialize), (ascii "launch", .handleLaunch),
    (ascii "configurationDone", .handleConfigurationDone), (ascii "setBreakpoints", .handleSetBreakpoints),
    (ascii "threads", .handleThreads), (ascii "stackTrace", .handleStackTrace), (ascii "scopes", .handleScopes),
    (ascii "variables", .handleVariables), (ascii "continue", .handleContinue), (ascii "next", .handleStep .over),
    (ascii "stepIn", .handleStep .in), (ascii "stepOut", .handleStep .out), (ascii "pause", .handlePause),
    (ascii "disconnect", .handleDisconnect), (ascii "terminate", .handleDisconnect),
    (ascii "hot_reload", .handleHotReload)]

def dapHandler (cmd : List UInt8) : DapHandler :=
  match dapCommands.find? fun entry => entry.1 == cmd with
  | some entry => entry.2
  | none => .unknown cmd

/-- `dispatch`: the handler it calls with the message, and the `seq` it hands over. -/
def dispatch (msg : List UInt8) : Exec (Option (DapHandler × Int)) := do
  let seq ← jsonGetInt msg (ascii "seq") 0
  return (jsonGetString msg (ascii "command") 64).map fun cmd => (dapHandler cmd, seq)

/-- The string arguments the handlers read, and the sizes of their buffers. -/
def stringArguments : List (List UInt8 × Nat) :=
  [(ascii "path", maxSourcePath), (ascii "source", maxSourcePath), (ascii "bytecodeHex", 2 ^ 20)]

theorem strstr_of_prefix {pat buf : List UInt8} (here : pat.isPrefixOf buf = true) : strstr pat buf = some buf := by
  cases buf with
  | nil => rw [strstr, if_pos here]
  | cons c buf => rw [strstr, if_pos here]

theorem strstr_append {pat before rest : List UInt8}
    (first : ∀ k < before.length, ¬pat <+: (before ++ (pat ++ rest)).drop k) :
    strstr pat (before ++ (pat ++ rest)) = some (pat ++ rest) := by
  induction before with
  | nil =>
    refine strstr_of_prefix ?_
    rw [List.nil_append, List.isPrefixOf_iff_prefix]
    exact List.prefix_append ..
  | cons c before ih =>
    have away : ¬pat.isPrefixOf (c :: (before ++ (pat ++ rest))) = true := by
      rw [List.isPrefixOf_iff_prefix]
      exact first 0 (Nat.zero_lt_succ _)
    rw [List.cons_append, strstr, if_neg away]
    exact ih fun k below => first (k + 1) (Nat.succ_lt_succ below)

theorem strchr_append {c : UInt8} {front more : List UInt8} (none : c ∉ front) :
    strchr c (front ++ c :: more) = some (c :: more) := by
  induction front with
  | nil => rw [List.nil_append, strchr, if_pos rfl]
  | cons b front ih =>
    rw [List.mem_cons, not_or] at none
    rw [List.cons_append, strchr, if_neg (Ne.symm none.1)]
    exact ih none.2

end Blyt
