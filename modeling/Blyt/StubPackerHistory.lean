import Blyt.StubPackerState
import Blyt.Lib.Latest
import Blyt.Lib.Run
import Mathlib.Data.List.Induction

/-! Histories of edits and runs of the packer. -/

namespace Blyt
namespace StubPacker
open Latest Run

/-- What a run saves, with what it was asked for, and what was at the output then. -/
structure Recorded where
  request : Request
  file : File
  product : Option (List UInt8)
  deriving DecidableEq

namespace Recorded

def entry (r : Recorded) : PackerEntry :=
  ⟨r.request.src, r.file.mtime, r.file.content.length, sha256FileHex (some r.file.content)⟩

/-- A path that is too long for its buffer is not found again. -/
def tells (r : Recorded) (src : List UInt8) : Option Recorded :=
  if src = r.request.src ∧ r.request.src.length ≤ 255 then some r else none

/-- The source has the recorded time and size, or the recorded hash. -/
def Matches (r : Recorded) (file : File) (env : Env) : Prop :=
  (r.file.mtime = file.mtime ∧ r.file.content.length = file.content.length) ∨
    (sha256FileHex (some r.file.content) = sha256FileHex (some file.content) ∧ env.garbage = 0)

end Recorded

/-- The files, and what was saved so far, as long as the state file was not removed. -/
structure World (Id : Type) where
  files : Files Id
  records : List Recorded

/-- A file is changed or removed, or the packer is run. -/
inductive Event (Id : Type) where
  | edit (id : Id) (file : Option File)
  | invoke (mode src out : List UInt8) (env : Env)

/-- The runs that save a record. -/
def Outcome.saves : Outcome → Bool
  | noSource | fastHit | unknownMode | buildFailed => false
  | slowHit | built => true

/-- Both numbers of a source are values of their type. -/
structure File.Long (file : File) : Prop where
  mtime : IsLong file.mtime
  size : IsLong file.content.length

section
variable {Id : Type} [DecidableEq Id]

namespace World

/-- What was saved last of a path. -/
def recorded (w : World Id) (src : List UInt8) : Option Recorded := latest Recorded.tells w.records src

/-- What a run saves, by the way it ended. -/
def saved (t : Toolchain Id) (request : Request) (file : File) (env : Env) (result : Outcome × Files Id) : List Recorded :=
  if result.1.saves && env.canSave then [⟨request, file, (result.2 (t.resolve request.out)).map File.content⟩] else []

def act (t : Toolchain Id) (w : World Id) : Event Id → World Id
  | .edit id file => ⟨w.files.write id file, if id = t.resolve stateFile then [] else w.records⟩
  | .invoke mode src out env =>
    ⟨(t.main w.files mode src out env).2, match w.files (t.resolve src) with
      | none => w.records
      | some file => w.records ++ saved t ⟨mode, src, out⟩ file env (t.main w.files mode src out env)⟩

end World

def Step (t : Toolchain Id) (w : World Id) (event : Event Id) (w' : World Id) : Prop := w' = w.act t event

/-- Where the packer reports success, the file at the output path is what a full build makes of the source. -/
def Packs (t : Toolchain Id) (w : World Id) (event : Event Id) (w' : World Id) : Prop :=
  match event with
  | .edit _ _ => True
  | .invoke mode src out env => (t.main w.files mode src out env).1.rc = 0 →
    ∃ file product, w.files (t.resolve src) = some file ∧ t.build mode src file.content = some product ∧
      (w'.files (t.resolve out)).map File.content = some product

/-- The recorded run was asked for the same mode and output, on a source of the same content, and the output is as that
run left it. -/
structure Recorded.Stands (r : Recorded) (t : Toolchain Id) (files : Files Id) (mode out : List UInt8) (file : File) :
    Prop where
  sameMode : r.request.mode = mode
  sameOut : t.resolve r.request.out = t.resolve out
  sameContent : r.file.content = file.content
  untouched : (files (t.resolve out)).map File.content = r.product

/-- A command is taken for the build that is meant, which leaves the state file to the packer, and what is saved of it is
not taken for a record of another path. -/
structure Meant (t : Toolchain Id) (mode src out : List UInt8) (env : Env) (cmd : List UInt8) : Prop where
  read : t.reads cmd = some ⟨mode, src, out⟩
  state : t.resolve out ≠ t.resolve stateFile
  tmp : env.canSave = true → t.resolve out ≠ t.resolve stateTmp
  inLine : env.canSave = true → InLine src

/-- The state file is not edited, only removed. Where the record of a source matches it, the recorded run stands. Where
none does, the command, as far as it fits its buffer, is taken for the build that is meant, or fails without a change of
the state file. -/
def Undisturbed (t : Toolchain Id) (w : World Id) (event : Event Id) (_ : World Id) : Prop :=
  match event with
  | .edit id file => id = t.resolve stateFile → file = none
  | .invoke mode src out env => ∀ file, w.files (t.resolve src) = some file → file.Long ∧
    (∀ r, w.recorded src = some r → r.Matches file env → r.Stands t w.files mode out file) ∧
    ((∀ r, w.recorded src = some r → ¬r.Matches file env) → ∀ cmd, command mode src out = some cmd →
      Meant t mode src out env (cmd.take 1023) ∨
        (t.system (cmd.take 1023) env.now w.files).1 ≠ 0 ∧
          (t.system (cmd.take 1023) env.now w.files).2 (t.resolve stateFile) = w.files (t.resolve stateFile))

/-- A recorded run left what a full build makes. -/
structure Recorded.Made (r : Recorded) (t : Toolchain Id) : Prop where
  product : ∃ product, r.product = some product ∧ t.build r.request.mode r.request.src r.file.content = some product
  state : t.resolve r.request.out ≠ t.resolve stateFile
  tmp : t.resolve r.request.out ≠ t.resolve stateTmp
  inLine : InLine r.request.src

/-- The state file holds what was saved, and what was saved was built. -/
structure Tracks (t : Toolchain Id) (w : World Id) : Prop where
  readable : Readable (((w.files (t.resolve stateFile)).map File.content).getD [])
  found : ∀ src, t.prev w.files src = (w.recorded src).map Recorded.entry
  made : ∀ r ∈ w.records, r.Made t

variable {t : Toolchain Id} {w : World Id} {files : Files Id} {mode src out : List UInt8} {env : Env} {file : File}

theorem Files.write_self (files : Files Id) (id : Id) (file : Option File) : files.write id file id = file := if_pos rfl

theorem Files.write_other (files : Files Id) {id other : Id} (file : Option File) (apart : other ≠ id) :
    files.write id file other = files other := if_neg apart

theorem save_other {id : Id} (state : id ≠ t.resolve stateFile) (tmp : id ≠ t.resolve stateTmp) :
    t.save files src file env id = files id := by
  rw [Toolchain.save]
  split
  · rw [Files.write_other _ _ state, Files.write_other _ _ tmp]
  · rfl

/-- The record of a source matches it. -/
def Hit (t : Toolchain Id) (files : Files Id) (src : List UInt8) (file : File) (env : Env) : Prop :=
  t.fastMatch files src file = true ∨ t.slowMatch files src file env.garbage = true

/-- How a run of the packer ends, and what it does to the files. -/
inductive MainStep (t : Toolchain Id) (files : Files Id) (mode src out : List UInt8) (env : Env) :
    Outcome × Files Id → Prop
  | noSource : files (t.resolve src) = none → MainStep t files mode src out env (.noSource, files)
  | fastHit {file : File} : files (t.resolve src) = some file → Hit t files src file env →
      MainStep t files mode src out env (.fastHit, files)
  | slowHit {file : File} : files (t.resolve src) = some file → Hit t files src file env →
      MainStep t files mode src out env (.slowHit, t.save files src file env)
  | unknownMode : MainStep t files mode src out env (.unknownMode, files)
  | built {file : File} {cmd : List UInt8} : files (t.resolve src) = some file → ¬Hit t files src file env →
      command mode src out = some cmd → (t.system (cmd.take 1023) env.now files).1 = 0 →
        MainStep t files mode src out env
          (.built, t.save (t.system (cmd.take 1023) env.now files).2 src file env)
  | buildFailed {file : File} {cmd : List UInt8} : files (t.resolve src) = some file → ¬Hit t files src file env →
      command mode src out = some cmd →
        MainStep t files mode src out env (.buildFailed, (t.system (cmd.take 1023) env.now files).2)

theorem main_step (t : Toolchain Id) (files : Files Id) (mode src out : List UInt8) (env : Env) :
    MainStep t files mode src out env (t.main files mode src out env) := by
  rw [Toolchain.main]
  cases source : files (t.resolve src) with
  | none => exact .noSource source
  | some file =>
    simp only
    split
    · rename_i fast
      exact .fastHit source (.inl fast)
    · rename_i fast
      split
      · rename_i slow
        exact .slowHit source (.inr slow)
      · rename_i slow
        have miss : ¬Hit t files src file env := not_or.mpr ⟨fast, slow⟩
        split
        · exact .unknownMode
        · rename_i cmd meant
          split
          · rename_i done
            exact .built source miss meant done
          · exact .buildFailed source miss meant

omit [DecidableEq Id] in
/-- What the packer compares is what was saved. -/
theorem Tracks.hit_iff (tracks : Tracks t w) :
    Hit t w.files src file env ↔ ∃ r, w.recorded src = some r ∧ r.Matches file env := by
  rw [Hit, Toolchain.fastMatch, Toolchain.slowMatch, tracks.found]
  cases w.recorded src with
  | none => simp
  | some r => simp [Recorded.Matches, Recorded.entry]

omit [DecidableEq Id] in
theorem World.recorded_mem {r : Recorded} (known : w.recorded src = some r) : r ∈ w.records ∧ r.request.src = src := by
  obtain ⟨files, records⟩ := w
  induction records using List.reverseRecOn with
  | nil => cases known
  | append_singleton records last ih =>
    rw [World.recorded, latest_snoc, Recorded.tells] at known
    split at known
    · rename_i same
      cases known
      exact ⟨List.mem_append_right _ List.mem_cons_self, same.1.symm⟩
    · rw [Option.none_or] at known
      obtain ⟨member, same⟩ := ih known
      exact ⟨List.mem_append_left _ member, same⟩

omit [DecidableEq Id] in
/-- What leaves the state file alone leaves what is tracked. -/
theorem Tracks.of_state {files' : Files Id} (tracks : Tracks t w)
    (same : files' (t.resolve stateFile) = w.files (t.resolve stateFile)) : Tracks t ⟨files', w.records⟩ := by
  refine ⟨?_, fun src => ?_, tracks.made⟩
  · show Readable (((files' (t.resolve stateFile)).map File.content).getD [])
    rw [same]
    exact tracks.readable
  · show stateLoad ((files' (t.resolve stateFile)).map File.content) src = _
    rw [same]
    exact tracks.found src

omit [DecidableEq Id] in
theorem saved_none {request : Request} {outcome : Outcome} (none : outcome.saves = false) :
    w.records ++ World.saved t request file env (outcome, files) = w.records := by
  rw [World.saved, none, Bool.false_and, if_neg Bool.false_ne_true, List.append_nil]

/-- A run that built, or that found what was built, saves its record. -/
theorem Tracks.save {outcome : Outcome} (tracks : Tracks t ⟨files, w.records⟩) (request : Request) (long : file.Long)
    (saves : outcome.saves = true)
    (made : env.canSave = true → Recorded.Made
      ⟨request, file, ((t.save files request.src file env) (t.resolve request.out)).map File.content⟩ t) :
    Tracks t ⟨t.save files request.src file env, w.records ++
      World.saved t request file env (outcome, t.save files request.src file env)⟩ := by
  cases can : env.canSave with
  | false =>
    rw [World.saved, can, Bool.and_false, Toolchain.save, can]
    simpa only [Bool.false_eq_true, if_false, List.append_nil] using tracks
  | true =>
    have made := made can
    have state : t.save files request.src file env (t.resolve stateFile) = some ⟨stateSave
        ((files (t.resolve stateFile)).map File.content) request.src file.mtime file.content.length
          (sha256FileHex (some file.content)), env.now⟩ := by
      rw [Toolchain.save, if_pos can, Files.write_self]
    have load := stateLoad_stateSave tracks.readable made.inLine long.mtime long.size (isHash_sha256 file.content)
    rw [World.saved, saves, can, Bool.and_self, if_pos rfl]
    generalize t.save files request.src file env = files' at state made ⊢
    refine ⟨?_, fun src => ?_, fun r member => ?_⟩
    · show Readable (((files' (t.resolve stateFile)).map File.content).getD [])
      rw [state]
      exact (load []).1
    · show t.prev files' src = Option.map Recorded.entry (latest Recorded.tells (w.records ++ [_]) src)
      rw [latest_snoc, Recorded.tells, Toolchain.prev, state, Option.map_some, (load src).2]
      split
      · rename_i same
        rw [Option.some_or, Option.map_some, Recorded.entry]
      · rw [Option.none_or]
        exact tracks.found src
    · rcases List.mem_append.mp member with old | new
      · exact tracks.made r old
      · rw [List.mem_singleton.mp new]
        exact made

omit [DecidableEq Id] in
/-- Where a record matches and its run stands, the output is what a full build makes now. -/
theorem Tracks.of_hit (tracks : Tracks t w)
    (stands : ∀ r, w.recorded src = some r → r.Matches file env → r.Stands t w.files mode out file)
    (hit : Hit t w.files src file env) :
    Recorded.Made ⟨⟨mode, src, out⟩, file, (w.files (t.resolve out)).map File.content⟩ t := by
  obtain ⟨r, known, same⟩ := tracks.hit_iff.mp hit
  obtain ⟨sameMode, sameOut, sameContent, untouched⟩ := stands r known same
  obtain ⟨member, path⟩ := World.recorded_mem known
  obtain ⟨⟨product, left, makes⟩, state, tmp, inLine⟩ := tracks.made r member
  rw [sameMode, path, sameContent] at makes
  exact ⟨⟨product, untouched.trans left, makes⟩, sameOut ▸ state, sameOut ▸ tmp, path ▸ inLine⟩

omit [DecidableEq Id] in
/-- Without a state file nothing is recorded. -/
theorem Tracks.start (fresh : files (t.resolve stateFile) = none) : Tracks t ⟨files, []⟩ := by
  refine ⟨?_, fun src => ?_, fun r member => absurd member List.not_mem_nil⟩
  · show Readable (((files (t.resolve stateFile)).map File.content).getD [])
    rw [fresh]
    exact ⟨[], rfl, fun line member => absurd member List.not_mem_nil⟩
  · show stateLoad ((files (t.resolve stateFile)).map File.content) src = none
    rw [fresh]
    rfl

theorem Tracks.edit (tracks : Tracks t w) {id : Id} {file : Option File} (removed : id = t.resolve stateFile → file = none) :
    Tracks t (w.act t (.edit id file)) := by
  by_cases state : id = t.resolve stateFile
  · have gone : w.files.write id file (t.resolve stateFile) = none := by
      rw [← state, Files.write_self, removed state]
    rw [World.act, if_pos state]
    exact .start gone
  · rw [World.act, if_neg state]
    exact tracks.of_state (Files.write_other _ _ (Ne.symm state))

theorem Tracks.invoke (tracks : Tracks t w) {w' : World Id} (met : Undisturbed t w (.invoke mode src out env) w') :
    Tracks t (w.act t (.invoke mode src out env)) ∧
      Packs t w (.invoke mode src out env) (w.act t (.invoke mode src out env)) := by
  have step := main_step t w.files mode src out env
  rw [Packs, World.act]
  generalize t.main w.files mode src out env = result at step ⊢
  cases source : w.files (t.resolve src) with
  | none =>
    cases step with
    | noSource | unknownMode => exact ⟨tracks, fun failed => by cases failed⟩
    | fastHit found | slowHit found | built found | buildFailed found => cases source.symm.trans found
  | some file =>
    obtain ⟨long, stands, missed⟩ := met file source
    have command (miss : ¬Hit t w.files src file env) := missed fun r known same =>
      miss (tracks.hit_iff.mpr ⟨r, known, same⟩)
    cases step with
    | noSource none => cases source.symm.trans none
    | unknownMode =>
      dsimp only
      rw [saved_none rfl]
      exact ⟨tracks, fun failed => by cases failed⟩
    | fastHit found hit =>
      cases source.symm.trans found
      obtain ⟨product, holds, makes⟩ := (tracks.of_hit stands hit).product
      dsimp only
      rw [saved_none rfl]
      exact ⟨tracks, fun _ => ⟨file, product, rfl, makes, holds⟩⟩
    | slowHit found hit =>
      cases source.symm.trans found
      have made := tracks.of_hit stands hit
      obtain ⟨product, holds, makes⟩ := made.product
      have kept : t.save w.files src file env (t.resolve out) = w.files (t.resolve out) := save_other made.state made.tmp
      refine ⟨tracks.save ⟨mode, src, out⟩ long rfl fun _ => ?_, fun _ => ⟨file, product, rfl, makes, ?_⟩⟩
      · show Recorded.Made ⟨⟨mode, src, out⟩, file, (t.save w.files src file env (t.resolve out)).map File.content⟩ t
        rw [kept]
        exact made
      · show (t.save w.files src file env (t.resolve out)).map File.content = some product
        rw [kept]
        exact holds
    | @built _ cmd found miss meant done =>
      cases source.symm.trans found
      obtain ⟨read, state, tmp, inLine⟩ | ⟨failed, -⟩ := command miss cmd meant
      · obtain ⟨file', product, source', makes, holds⟩ := t.builds _ _ env.now w.files read done
        cases source.symm.trans source'
        have built := tracks.of_state (t.others _ _ env.now w.files _ read (Ne.symm state))
        have kept : ((t.save (t.system (cmd.take 1023) env.now w.files).2 src file env) (t.resolve out)).map File.content =
            some product := by
          cases can : env.canSave with
          | false =>
            rw [Toolchain.save, can]
            exact holds
          | true =>
            rw [save_other state (tmp can)]
            exact holds
        exact ⟨built.save ⟨mode, src, out⟩ long rfl fun can => ⟨⟨product, kept, makes⟩, state, tmp can, inLine can⟩,
          fun _ => ⟨file, product, rfl, makes, kept⟩⟩
      · exact absurd done failed
    | @buildFailed _ cmd found miss meant =>
      cases source.symm.trans found
      dsimp only
      rw [saved_none rfl]
      refine ⟨tracks.of_state ?_, fun failed => by cases failed⟩
      obtain ⟨read, state, -, -⟩ | ⟨-, same⟩ := command miss cmd meant
      · exact t.others _ _ env.now w.files _ read (Ne.symm state)
      · exact same

end

/-! A machine on which a build writes the name of its mode in front of the source. -/
namespace Workshop

def lastWord (text : List UInt8) : List UInt8 := (text.reverse.takeWhile (· ≠ 0x20)).reverse

def beforeLast (text : List UInt8) : List UInt8 := (text.reverse.dropWhile (· ≠ 0x20)).tail.reverse

def build (mode _src content : List UInt8) : Option (List UInt8) :=
  if mode = nativeMode ∨ mode = luaMode then some (mode ++ content) else none

/-- The last word of the command is the source, the one in front of it the output. -/
def reads (cmd : List UInt8) : Option Request :=
  some ⟨if cmd.head? = some 0x6c then luaMode else nativeMode, lastWord cmd, lastWord (beforeLast cmd)⟩

def system (cmd : List UInt8) (now : Int) (files : Files (List UInt8)) : Int × Files (List UInt8) :=
  match files (lastWord cmd) with
  | none => (1, files)
  | some file => (0, files.write (lastWord (beforeLast cmd))
    (some ⟨(if cmd.head? = some 0x6c then luaMode else nativeMode) ++ file.content, now⟩))

theorem lastWord_append (front : List UInt8) {word : List UInt8} (noBlank : ∀ c ∈ word, c ≠ 0x20) :
    lastWord (front ++ 0x20 :: word) = word ∧ beforeLast (front ++ 0x20 :: word) = front := by
  have keeps : ∀ c ∈ word.reverse, decide (c ≠ 0x20) = true := fun c member =>
    decide_eq_true (noBlank c (List.mem_reverse.mp member))
  have text : (front ++ 0x20 :: word).reverse = word.reverse ++ 0x20 :: front.reverse := by
    rw [List.reverse_append, List.reverse_cons, List.append_assoc, List.singleton_append]
  constructor
  · rw [lastWord, text, List.takeWhile_append_of_pos keeps]
    exact (congrArg List.reverse (List.append_nil _)).trans (List.reverse_reverse word)
  · rw [beforeLast, text, List.dropWhile_append_of_pos keeps]
    exact List.reverse_reverse front

theorem plain_noBlank {path : List UInt8} (plain : Plain path) : ∀ c ∈ path, c ≠ 0x20 := by
  rintro _ member rfl
  exact absurd (plain.word 0x20 member) (by decide)

/-- The words behind the flags of a command, whose first byte tells the mode. -/
theorem words_of_flags {flags mode src out : List UInt8} (blank : flags.getLast? = some 0x20)
    (first : (if flags.head? = some 0x6c then luaMode else nativeMode) = mode) (plainSrc : Plain src)
    (plainOut : Plain out) :
    lastWord (flags ++ (out ++ 0x20 :: src)) = src ∧ lastWord (beforeLast (flags ++ (out ++ 0x20 :: src))) = out ∧
      (if (flags ++ (out ++ 0x20 :: src)).head? = some 0x6c then luaMode else nativeMode) = mode := by
  have text : flags ++ (out ++ 0x20 :: src) = (flags.dropLast ++ 0x20 :: out) ++ 0x20 :: src := by
    conv_lhs => rw [← List.dropLast_append_getLast? 0x20 blank]
    rw [List.append_assoc, List.singleton_append, List.append_assoc, List.cons_append]
  have head : (flags ++ (out ++ 0x20 :: src)).head? = flags.head? := by
    rw [List.head?_append]
    cases flags with
    | nil => cases blank
    | cons => rfl
  obtain ⟨last, before⟩ := lastWord_append (flags.dropLast ++ 0x20 :: out) (plain_noBlank plainSrc)
  rw [head, text, last, before]
  exact ⟨rfl, (lastWord_append flags.dropLast (plain_noBlank plainOut)).1, first⟩

/-- What is meant by a command. -/
theorem command_words {mode src out cmd : List UInt8} (meant : command mode src out = some cmd) (plainSrc : Plain src)
    (plainOut : Plain out) : lastWord cmd = src ∧ lastWord (beforeLast cmd) = out ∧
      (if cmd.head? = some 0x6c then luaMode else nativeMode) = mode := by
  rw [command] at meant
  split at meant
  · rename_i native
    rw [← Option.some.inj meant]
    refine words_of_flags ?_ ?_ plainSrc plainOut
    · decide +kernel
    · rw [native]
      decide +kernel
  · split at meant
    · rename_i lua
      rw [← Option.some.inj meant]
      refine words_of_flags ?_ ?_ plainSrc plainOut
      · decide +kernel
      · rw [lua]
        decide +kernel
    · cases meant

theorem plain (mode src out cmd : List UInt8) (meant : command mode src out = some cmd) (plainSrc : Plain src)
    (plainOut : Plain out) : reads cmd = some ⟨mode, src, out⟩ := by
  obtain ⟨last, before, tag⟩ := command_words meant plainSrc plainOut
  rw [reads, last, before, tag]

theorem builds (cmd : List UInt8) (request : Request) (now : Int) (files : Files (List UInt8))
    (read : reads cmd = some request) (done : (system cmd now files).1 = 0) : ∃ file product,
      files request.src = some file ∧ build request.mode request.src file.content = some product ∧
        ((system cmd now files).2 request.out).map File.content = some product := by
  cases read
  rw [system] at done ⊢
  dsimp only
  cases source : files (lastWord cmd) with
  | none =>
    rw [source] at done
    cases done
  | some file =>
    refine ⟨file, _, rfl, if_pos ?_, ?_⟩
    · split
      · exact .inr rfl
      · exact .inl rfl
    · show ((files.write (lastWord (beforeLast cmd)) _) (lastWord (beforeLast cmd))).map File.content = _
      rw [Files.write_self]
      rfl

theorem others (cmd : List UInt8) (request : Request) (now : Int) (files : Files (List UInt8)) (id : List UInt8)
    (read : reads cmd = some request) (apart : id ≠ request.out) : (system cmd now files).2 id = files id := by
  cases read
  rw [system]
  split
  · rfl
  · exact Files.write_other _ _ apart

def toolchain : Toolchain (List UInt8) := ⟨id, build, reads, system, plain, builds, others⟩

def script : List UInt8 := ascii "m.lua"

def files : Files (List UInt8) := Files.write (fun _ => none) script (some ⟨ascii "print()", 1000⟩)

def env : Env := ⟨1000, 0, true⟩

/-- The script is packed into a file. -/
def pack (out : List UInt8) : Event (List UInt8) := .invoke luaMode script out env

/-- The script gets another time, but no other content. -/
def touch : Event (List UInt8) := .edit script (some ⟨ascii "print()", 2000⟩)

/-- The machine once the script is packed into `a`, once that was asked for again, and once it is touched then. -/
def packed : World (List UInt8) := World.act toolchain ⟨files, []⟩ (pack (ascii "a"))

def repacked : World (List UInt8) := packed.act toolchain (pack (ascii "a"))

def touched : World (List UInt8) := repacked.act toolchain touch

/-- What the first run saves. -/
def made : Recorded := ⟨⟨luaMode, script, ascii "a"⟩, ⟨ascii "print()", 1000⟩, some (luaMode ++ ascii "print()")⟩

example : (toolchain.main packed.files luaMode script (ascii "a") env).1 = .fastHit := by decide +kernel

example : (toolchain.main touched.files luaMode script (ascii "a") env).1 = .slowHit := by decide +kernel

theorem plain_script : Plain script := ⟨by decide, by decide, by decide +kernel⟩

theorem plain_a : Plain (ascii "a") := ⟨by decide, by decide, by decide +kernel⟩

theorem inLine_script : InLine script := ⟨by decide, by decide, by decide +kernel⟩

/-- The script is packed into `a` as long as what was packed stands. -/
theorem undisturbed_pack {w w' : World (List UInt8)} {mtime : Int} (long : IsLong mtime)
    (source : w.files script = some ⟨ascii "print()", mtime⟩)
    (stands : ∀ r ∈ w.records, r.Stands toolchain w.files luaMode (ascii "a") ⟨ascii "print()", mtime⟩) :
    Undisturbed toolchain w (pack (ascii "a")) w' := by
  intro file source'
  obtain rfl : ⟨ascii "print()", mtime⟩ = file := Option.some.inj (source.symm.trans source')
  have size : IsLong (ascii "print()").length := ⟨by decide, by decide⟩
  refine ⟨⟨long, size⟩, fun r known _ => stands r (World.recorded_mem known).1, fun _ cmd meant => .inl ?_⟩
  have fits : cmd.length ≤ 1023 := by
    rw [← Option.some.inj meant]
    decide
  rw [List.take_of_length_le fits]
  exact ⟨plain _ _ _ _ meant plain_script plain_a, by decide, fun _ => by decide, fun _ => inLine_script⟩

theorem made_stands {w : World (List UInt8)} (records : w.records = [made])
    (output : (w.files (ascii "a")).map File.content = made.product) (mtime : Int) :
    ∀ r ∈ w.records, r.Stands toolchain w.files luaMode (ascii "a") ⟨ascii "print()", mtime⟩ := by
  intro r member
  rw [records, List.mem_singleton] at member
  rw [member]
  exact ⟨rfl, rfl, rfl, output⟩

/-- The run succeeds without a build, and the second file is not there. -/
theorem packed_into_other :
    ¬Packs toolchain packed (pack (ascii "b")) (World.act toolchain packed (pack (ascii "b"))) := by
  intro packs
  have success : (toolchain.main packed.files luaMode script (ascii "b") env).1.rc = 0 := by decide +kernel
  have nothing : (World.act toolchain packed (pack (ascii "b"))).files (ascii "b") = none := by decide +kernel
  generalize World.act toolchain packed (pack (ascii "b")) = after at packs nothing
  rw [pack, Packs] at packs
  obtain ⟨file, product, -, -, holds⟩ := packs success
  have absent : (after.files (ascii "b")).map File.content = some product := holds
  rw [nothing] at absent
  cases absent

end Workshop

end StubPacker
end Blyt
