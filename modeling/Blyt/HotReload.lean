import Blyt.Lib.Exec

namespace Blyt

/-- What a reload uses of Lua and of the allocator. `fresh` is the state `lua_newstate` makes
when there is memory, and `configure` the sandbox and the hook; `loadbuffer` and `pcall`
say whether they succeeded. -/
structure ReloadHost (S : Type) where
  hexBuf : Bool
  decodeBuf : Bool
  copyBuf : Bool
  newstate : Bool
  fresh : S
  configure : S → S
  loadbuffer : List UInt8 → S → Bool × S
  pcall : S → Exec (Bool × S)

/-- The two hosts that implement `fc_consolelua_synthetic_reload`. -/
inductive ReloadImpl where
  | dapLuaHost
  | libconsoleluaRv32
  deriving DecidableEq

inductive DapMessage where
  | response (requestSeq : Int) (command : String) (success : Bool) (text : String)
  | loadedSource (path : List UInt8)
  deriving DecidableEq

/-- A digit of `decode_hex`; what is no digit decodes to something all the same. A `char` is
signed. -/
def hexDigit (c : UInt8) : UInt8 :=
  if 97 ≤ c ∧ c < 128 then c - 97 + 10 else if 65 ≤ c ∧ c < 128 then c - 65 + 10 else c - 48

/-- The bytes of an even number of digits. -/
def hexBytes : List UInt8 → Option (List UInt8)
  | [] => some []
  | [_] => none
  | c1 :: c2 :: hex => (hexBytes hex).map ((hexDigit c1 <<< 4 ||| hexDigit c2) :: ·)

namespace ReloadHost
variable {S : Type} (h : ReloadHost S)

def runChunk (L : S) (data : List UInt8) : Exec (Bool × S) :=
  match h.loadbuffer data L with
  | (false, L) => .returns (false, L)
  | (true, L) => h.pcall L

/-- `build_state` of `dap_lua_host.c`: `s_L` afterwards, and whether it returned 0. -/
def buildState (data : List UInt8) : Exec (Option S × Bool) :=
  if h.newstate then do
    let (ok, L) ← h.runChunk (h.configure h.fresh) data
    return (some L, ok)
  else .returns (none, false)

/-- `ensure_state` of `libconsolelua_rv32.c`. -/
def ensureState (s_L : Option S) (data : List UInt8) : Exec (Option S) :=
  match s_L with
  | some L => .returns (some L)
  | none =>
    if h.newstate then
      if data.length = 0 then .returns (some (h.configure h.fresh))
      else do
        let (_, L) ← h.runChunk (h.configure h.fresh) data
        return some L
    else .returns none

/-- `fc_consolelua_synthetic_reload`: `s_L` afterwards. Both close the previous state first. -/
def syntheticReload (_s_L : Option S) (data : List UInt8) : ReloadImpl → Exec (Option S)
  | .dapLuaHost =>
    if h.copyBuf then do
      let (s_L, _) ← h.buildState data
      return s_L
    else .returns none
  | .libconsoleluaRv32 => h.ensureState none data

/-- `handle_hot_reload`, on the arguments `json_get_string` finds: `s_L` afterwards and what is
sent. -/
def handleHotReload (impl : ReloadImpl) (s_L : Option S) (seq : Int) (source bytecodeHex : Option (List UInt8)) :
    Exec (Option S × List DapMessage) :=
  match source with
  | none => .returns (s_L, [.response seq "hot_reload" false "missing source"])
  | some src =>
    if h.hexBuf then
      match bytecodeHex with
      | none => .returns (s_L, [.response seq "hot_reload" false "missing bytecodeHex"])
      | some hex =>
        match if h.decodeBuf then hexBytes hex else none with
        | none => .returns (s_L, [.response seq "hot_reload" false "bad hex"])
        | some bytecode => do
          let s_L ← h.syntheticReload s_L bytecode impl
          return (s_L, [.response seq "hot_reload" true "{}", .loadedSource src])
    else .returns (s_L, [.response seq "hot_reload" false "oom"])

/-- Loading the payload into a new state and running its chunk. The second host runs nothing
for an empty payload. -/
def chunk (impl : ReloadImpl) (data : List UInt8) : Exec (Bool × S) :=
  if impl = .libconsoleluaRv32 ∧ data.length = 0 then .returns (true, h.configure h.fresh)
  else h.runChunk (h.configure h.fresh) data

/-- The payload loads, and its chunk runs to its end and leaves this state. -/
def Runs (impl : ReloadImpl) (data : List UInt8) (L : S) : Prop := h.chunk impl data = .returns (true, L)

/-- The load or the chunk of the payload fails. -/
def Fails (impl : ReloadImpl) (data : List UInt8) : Prop := ∃ L, h.chunk impl data = .returns (false, L)

/-- The memory a reload needs. -/
def memory : ReloadImpl → Bool
  | .dapLuaHost => h.hexBuf && h.decodeBuf && (h.copyBuf && h.newstate)
  | .libconsoleluaRv32 => h.hexBuf && h.decodeBuf && h.newstate

/-- A request is answered as a rejected reload has to be: the previous state stays, the
response says so, and no `loadedSource` is sent. -/
def Rejected (seq : Int) (s_L : Option S) : Exec (Option S × List DapMessage) → Prop
  | .returns (s_L', messages) => s_L' = s_L ∧ ∃ text, messages = [.response seq "hot_reload" false text]
  | _ => False

/-- A request is answered as a reload has to be that was carried out: the new state is
installed, and the response says so. -/
def Installed (seq : Int) (L : S) : Exec (Option S × List DapMessage) → Prop
  | .returns (s_L', messages) => s_L' = some L ∧ ∃ text rest, messages = .response seq "hot_reload" true text :: rest
  | _ => False

/-- A payload that fails is rejected, and one that runs is installed. -/
def Sound (impl : ReloadImpl) (s_L : Option S) (seq : Int) (data : List UInt8)
    (answer : Exec (Option S × List DapMessage)) : Prop :=
  (h.Fails impl data → Rejected seq s_L answer) ∧ ∀ L, h.Runs impl data L → Installed seq L answer

variable {h} {impl : ReloadImpl} {s_L : Option S} {seq : Int} {src hex data : List UInt8}

/-- A request that reaches the reload is answered with success, whatever becomes of it. -/
theorem handle_reaches (decodes : hexBytes hex = some data) (buffers : (h.hexBuf && h.decodeBuf) = true) :
    h.handleHotReload impl s_L seq (some src) (some hex) = (do
      let s_L ← h.syntheticReload s_L data impl
      return (s_L, [.response seq "hot_reload" true "{}", .loadedSource src])) := by
  obtain ⟨hexBuf, decodeBuf⟩ := Bool.and_eq_true_iff.mp buffers
  simp only [handleHotReload, hexBuf, decodeBuf, decodes, if_true]

theorem handle_rejects (buffers : (h.hexBuf && h.decodeBuf) = false) :
    Rejected seq s_L (h.handleHotReload impl s_L seq (some src) (some hex)) := by
  rw [handleHotReload]
  cases hexBuf : h.hexBuf with
  | false => exact ⟨rfl, _, rfl⟩
  | true =>
    rw [hexBuf, Bool.true_and] at buffers
    simp only [buffers, if_true, Bool.false_eq_true, if_false]
    exact ⟨rfl, _, rfl⟩

/-- With the memory it needs, a reload leaves the state in which the chunk ran. -/
theorem reload_eq (memory : h.memory impl = true) :
    h.syntheticReload s_L data impl = (fun r => some r.2) <$> h.chunk impl data := by
  cases impl with
  | dapLuaHost =>
    simp only [ReloadHost.memory, Bool.and_eq_true] at memory
    obtain ⟨-, copyBuf, newstate⟩ := memory
    have chunk : h.chunk .dapLuaHost data = h.runChunk (h.configure h.fresh) data := if_neg nofun
    simp only [syntheticReload, copyBuf, buildState, newstate, if_true, chunk]
    cases h.runChunk (h.configure h.fresh) data with
    | returns r => rfl
    | spins => rfl
    | outOfBounds => rfl
  | libconsoleluaRv32 =>
    simp only [ReloadHost.memory, Bool.and_eq_true] at memory
    obtain ⟨-, newstate⟩ := memory
    simp only [syntheticReload, ensureState, newstate, if_true, chunk, true_and]
    split
    · rfl
    · cases h.runChunk (h.configure h.fresh) data with
      | returns r => rfl
      | spins => rfl
      | outOfBounds => rfl

theorem reload_none (buffers : (h.hexBuf && h.decodeBuf) = true) (short : h.memory impl = false) :
    h.syntheticReload s_L data impl = .returns none := by
  cases impl with
  | dapLuaHost =>
    rw [ReloadHost.memory, buffers, Bool.true_and] at short
    cases copyBuf : h.copyBuf with
    | false => simp [syntheticReload, copyBuf]
    | true =>
      rw [copyBuf, Bool.true_and] at short
      simp [syntheticReload, copyBuf, buildState, short]
  | libconsoleluaRv32 =>
    rw [ReloadHost.memory, buffers, Bool.true_and] at short
    simp [syntheticReload, ensureState, short]

theorem not_rejected_of_reached {s_L' : Option S} {src : List UInt8} :
    ¬Rejected seq s_L (.returns (s_L', [.response seq "hot_reload" true "{}", .loadedSource src])) := by
  rintro ⟨-, text, messages⟩
  cases messages

/-- A hot reload is sound exactly when its payload does not fail in a reload that is reached,
and a payload that runs finds the memory it needs. -/
theorem hotReload_sound_iff (h : ReloadHost S) (impl : ReloadImpl) (s_L : Option S) (seq : Int)
    (src : List UInt8) {hex data : List UInt8} (decodes : hexBytes hex = some data) :
    h.Sound impl s_L seq data (h.handleHotReload impl s_L seq (some src) (some hex)) ↔
      ((h.hexBuf && h.decodeBuf) = true → ¬h.Fails impl data) ∧
        ((∃ L, h.Runs impl data L) → h.memory impl = true) := by
  cases buffers : h.hexBuf && h.decodeBuf with
  | false =>
    have rejects : Rejected seq s_L (h.handleHotReload impl s_L seq (some src) (some hex)) := handle_rejects buffers
    have short : h.memory impl = false := by
      cases impl with
      | dapLuaHost => rw [memory, buffers, Bool.false_and]
      | libconsoleluaRv32 => rw [memory, buffers, Bool.false_and]
    refine ⟨fun sound => ⟨nofun, ?_⟩, fun ⟨_, enough⟩ => ⟨fun _ => rejects, fun L runs => ?_⟩⟩
    · rintro ⟨L, runs⟩
      have installed := sound.2 L runs
      cases answer : h.handleHotReload impl s_L seq (some src) (some hex) with
      | returns r =>
        rw [answer] at installed rejects
        obtain ⟨-, text, rest, sent⟩ := installed
        obtain ⟨-, text', sent'⟩ := rejects
        rw [sent'] at sent
        cases sent
      | spins =>
        rw [answer] at installed
        exact installed.elim
      | outOfBounds =>
        rw [answer] at installed
        exact installed.elim
    · rw [enough ⟨L, runs⟩] at short
      cases short
  | true =>
    rw [handle_reaches decodes buffers]
    cases enough : h.memory impl with
    | false =>
      rw [reload_none buffers enough, Exec.returns_bind]
      refine ⟨fun sound => ⟨fun _ fails => ?_, fun ⟨L, runs⟩ => ?_⟩, fun ⟨safe, found⟩ => ⟨fun fails => ?_, fun L runs => ?_⟩⟩
      · exact not_rejected_of_reached (sound.1 fails)
      · exact absurd (sound.2 L runs).1 nofun
      · exact absurd fails (safe rfl)
      · exact absurd (found ⟨L, runs⟩) nofun
    | true =>
      rw [reload_eq enough]
      refine ⟨fun sound => ⟨fun _ fails => ?_, fun _ => rfl⟩, fun ⟨safe, _⟩ => ⟨fun fails => ?_, fun L runs => ?_⟩⟩
      · have rejected := sound.1 fails
        obtain ⟨L, fails⟩ := fails
        rw [fails] at rejected
        exact not_rejected_of_reached rejected
      · exact absurd fails (safe rfl)
      · rw [show h.chunk impl data = .returns (true, L) from runs]
        exact ⟨rfl, "{}", _, rfl⟩

/-- A Lua whose states are the payloads they ran, and which refuses to load a zero byte. -/
def listHost : ReloadHost (List UInt8) where
  hexBuf := true
  decodeBuf := true
  copyBuf := true
  newstate := true
  fresh := []
  configure := id
  loadbuffer data L := (data != [0], L)
  pcall L := .returns (true, L)

theorem hotReload_sound_zero :
    hexBytes [48, 48] = some [0] ∧
      (listHost.Sound .dapLuaHost (some [1]) 7 [0] (listHost.handleHotReload .dapLuaHost (some [1]) 7 (some []) (some [48, 48])) ↔
        ((listHost.hexBuf && listHost.decodeBuf) = true → ¬listHost.Fails .dapLuaHost [0]) ∧
          ((∃ L, listHost.Runs .dapLuaHost [0] L) → listHost.memory .dapLuaHost = true)) :=
  ⟨rfl, hotReload_sound_iff listHost .dapLuaHost (some [1]) 7 [] rfl⟩

/-- A payload that does not load leaves no trace of the previous state, and is answered with
success. -/
theorem rejected_reload_destroys :
    ¬∀ (h : ReloadHost (List UInt8)) (impl : ReloadImpl) (s_L : Option (List UInt8)) (seq : Int)
      (src hex data : List UInt8), hexBytes hex = some data →
        h.Sound impl s_L seq data (h.handleHotReload impl s_L seq (some src) (some hex)) := by
  intro sound
  have rejected := (sound listHost .dapLuaHost (some [1]) 7 [] [48, 48] [0] rfl).1 ⟨[], rfl⟩
  exact not_rejected_of_reached rejected

end ReloadHost
end Blyt
