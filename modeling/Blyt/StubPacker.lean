import Blyt.Lib.HexText
import Blyt.RuntimeTracked

namespace Blyt
namespace StubPacker

/-! SHA-256, as `stub_packer.c` has it. -/

def sha256K : List UInt32 :=
  [0x428a2f98, 0x71374491, 0xb5c0fbcf, 0xe9b5dba5, 0x3956c25b, 0x59f111f1, 0x923f82a4, 0xab1c5ed5,
    0xd807aa98, 0x12835b01, 0x243185be, 0x550c7dc3, 0x72be5d74, 0x80deb1fe, 0x9bdc06a7, 0xc19bf174,
    0xe49b69c1, 0xefbe4786, 0x0fc19dc6, 0x240ca1cc, 0x2de92c6f, 0x4a7484aa, 0x5cb0a9dc, 0x76f988da,
    0x983e5152, 0xa831c66d, 0xb00327c8, 0xbf597fc7, 0xc6e00bf3, 0xd5a79147, 0x06ca6351, 0x14292967,
    0x27b70a85, 0x2e1b2138, 0x4d2c6dfc, 0x53380d13, 0x650a7354, 0x766a0abb, 0x81c2c92e, 0x92722c85,
    0xa2bfe8a1, 0xa81a664b, 0xc24b8b70, 0xc76c51a3, 0xd192e819, 0xd6990624, 0xf40e3585, 0x106aa070,
    0x19a4c116, 0x1e376c08, 0x2748774c, 0x34b0bcb5, 0x391c0cb3, 0x4ed8aa4a, 0x5b9cca4f, 0x682e6ff3,
    0x748f82ee, 0x78a5636f, 0x84c87814, 0x8cc70208, 0x90befffa, 0xa4506ceb, 0xbef9a3f7, 0xc67178f2]

def rotr32 (x n : UInt32) : UInt32 := x >>> n ||| x <<< (32 - n)

def ch (e f g : UInt32) : UInt32 := (e &&& f) ^^^ (~~~e &&& g)
def maj (a b c : UInt32) : UInt32 := (a &&& b) ^^^ (a &&& c) ^^^ (b &&& c)
def ep0 (a : UInt32) : UInt32 := rotr32 a 2 ^^^ rotr32 a 13 ^^^ rotr32 a 22
def ep1 (e : UInt32) : UInt32 := rotr32 e 6 ^^^ rotr32 e 11 ^^^ rotr32 e 25
def sig0 (x : UInt32) : UInt32 := rotr32 x 7 ^^^ rotr32 x 18 ^^^ x >>> 3
def sig1 (x : UInt32) : UInt32 := rotr32 x 17 ^^^ rotr32 x 19 ^^^ x >>> 10

structure Sha256State where
  a : UInt32
  b : UInt32
  c : UInt32
  d : UInt32
  e : UInt32
  f : UInt32
  g : UInt32
  h : UInt32

/-- The words of a block, the first byte the highest. -/
def blockWords : List UInt8 → List UInt32
  | b0 :: b1 :: b2 :: b3 :: data =>
    (b0.toUInt32 <<< 24 ||| b1.toUInt32 <<< 16 ||| b2.toUInt32 <<< 8 ||| b3.toUInt32) :: blockWords data
  | _ => []

/-- So many more words of the schedule; the words so far stand in reverse order. -/
def extendSchedule : Nat → List UInt32 → List UInt32
  | 0, m => m
  | n + 1, m => extendSchedule n ((sig1 (m.getD 1 0) + m.getD 6 0 + sig0 (m.getD 14 0) + m.getD 15 0) :: m)

def schedule (data : List UInt8) : List UInt32 := (extendSchedule 48 (blockWords data).reverse).reverse

def sha256Round (s : Sha256State) (km : UInt32 × UInt32) : Sha256State :=
  let t1 := s.h + ep1 s.e + ch s.e s.f s.g + km.1 + km.2
  let t2 := ep0 s.a + maj s.a s.b s.c
  ⟨t1 + t2, s.a, s.b, s.c, s.d + t1, s.e, s.f, s.g⟩

def sha256Transform (s : Sha256State) (data : List UInt8) : Sha256State :=
  let r := (sha256K.zip (schedule data)).foldl sha256Round s
  ⟨s.a + r.a, s.b + r.b, s.c + r.c, s.d + r.d, s.e + r.e, s.f + r.f, s.g + r.g, s.h + r.h⟩

def sha256Init : Sha256State :=
  ⟨0x6a09e667, 0xbb67ae85, 0x3c6ef372, 0xa54ff53a, 0x510e527f, 0x9b05688c, 0x1f83d9ab, 0x5be0cd19⟩

def beBytes (n : Nat) (v : Nat) : List UInt8 := (List.range n).reverse.map fun i => UInt8.ofNat (v / 256 ^ i)

/-- The bytes that go through the transform: those of the file, a one bit, zeros and the number of bits. -/
def sha256Padded (bytes : List UInt8) : List UInt8 :=
  bytes ++ 0x80 :: (List.replicate ((119 - bytes.length % 64) % 64) 0 ++ beBytes 8 (bytes.length * 8))

def sha256Blocks : Nat → List UInt8 → Sha256State → Sha256State
  | 0, _, s => s
  | n + 1, data, s => sha256Blocks n (data.drop 64) (sha256Transform s (data.take 64))

def sha256 (bytes : List UInt8) : List UInt8 :=
  let s := sha256Blocks ((sha256Padded bytes).length / 64) (sha256Padded bytes) sha256Init
  [s.a, s.b, s.c, s.d, s.e, s.f, s.g, s.h].flatMap fun w => beBytes 4 w.toNat

/-- `sha256_file_hex`; a file that cannot be read has the hash of zeros. -/
def sha256FileHex : Option (List UInt8) → List UInt8
  | none => List.replicate 64 0x30
  | some content => HexText.encode (sha256 content)

/-! The state file. -/

/-- `packer_entry_t`. -/
structure PackerEntry where
  path : List UInt8
  mtime : Int
  size : Int
  sha256 : List UInt8

/-- What `fgets` with 512 bytes makes of a file, behind the bytes of a line begun. -/
def fgetsLines (line : List UInt8) : List UInt8 → List (List UInt8)
  | [] => if line = [] then [] else [line]
  | c :: rest =>
    if c = 10 ∨ line.length = 510 then (line ++ [c]) :: fgetsLines [] rest else fgetsLines (line ++ [c]) rest

def isSpace (c : UInt8) : Bool := c == 32 || (9 ≤ c && c ≤ 13)

def isDigit (c : UInt8) : Bool := 48 ≤ c && c ≤ 57

/-- `%255[^|]`. -/
def scanPath (p : List UInt8) : Option (List UInt8 × List UInt8) :=
  let path := (p.take 255).takeWhile (· ≠ 0x7c)
  if path = [] then none else some (path, p.drop path.length)

/-- `|`. -/
def scanBar : List UInt8 → Option (List UInt8)
  | 0x7c :: p => some p
  | _ => none

/-- `%ld`. -/
def scanLong (p : List UInt8) : Option (Int × List UInt8) :=
  let p := p.dropWhile isSpace
  let digits := if p.head? = some 0x2d ∨ p.head? = some 0x2b then p.tail else p
  if digits.takeWhile isDigit = [] then none
  else
    let n : Int := (digits.takeWhile isDigit).foldl (fun v c => v * 10 + (c.toNat - 48)) 0
    some (if p.head? = some 0x2d then max (-n) (-2 ^ 63) else min n (2 ^ 63 - 1), digits.dropWhile isDigit)

/-- `%64s`. -/
def scanWord (p : List UInt8) : Option (List UInt8) :=
  let word := ((p.dropWhile isSpace).take 64).takeWhile fun c => ! isSpace c
  if word = [] then none else some word

/-- The `sscanf` of a line, with its four fields. -/
def scanEntry (line : List UInt8) : Option PackerEntry := do
  let (path, p) ← scanPath (line.takeWhile (· ≠ 0))
  let (mtime, p) ← scanLong (← scanBar p)
  let (size, p) ← scanLong (← scanBar p)
  let sha256 ← scanWord (← scanBar p)
  return ⟨path, mtime, size, sha256⟩

/-- `state_load`, on what the state file holds. -/
def stateLoad (state : Option (List UInt8)) (srcPath : List UInt8) : Option PackerEntry := do
  let bytes ← state
  (fgetsLines [] bytes).findSome? fun line => (scanEntry line).filter fun e => e.path = srcPath

/-- `state_save`: what the state file holds then. -/
def stateSave (state : Option (List UInt8)) (srcPath : List UInt8) (mtime size : Int) (sha : List UInt8) : List UInt8 :=
  let kept := (fgetsLines [] (state.getD [])).filter fun line =>
    match scanPath (line.takeWhile (· ≠ 0)) with
    | some (path, _) => path ≠ srcPath
    | none => false
  (kept.flatMap fun line => line.takeWhile (· ≠ 0)) ++
    (srcPath ++ 0x7c :: (ascii (toString mtime) ++ 0x7c :: (ascii (toString size) ++ 0x7c :: (sha ++ [10]))))

/-! The packer. -/

structure File where
  content : List UInt8
  mtime : Int
  deriving DecidableEq

/-- The files of a machine, by what the paths lead to. -/
abbrev Files (Id : Type) := Id → Option File

def Files.write {Id : Type} [DecidableEq Id] (files : Files Id) (id : Id) (file : Option File) : Files Id :=
  fun other => if other = id then file else files other

def nativeMode : List UInt8 := ascii "native"

def luaMode : List UInt8 := ascii "lua"

/-- The command of a full build, before it is printed into `cmd`. -/
def command (mode src out : List UInt8) : Option (List UInt8) :=
  if mode = nativeMode then
    some (ascii ("riscv64-linux-gnu-gcc -march=rv32imfc_zicsr -mabi=ilp32f -O2 -g -ffreestanding -nostdlib " ++
      "-fno-stack-protector -fno-common -static -no-pie -fno-pie -fno-fast-math -ffp-contract=off -frounding-math -o ") ++
      (out ++ 0x20 :: src))
  else if mode = luaMode then some (ascii "luac -o " ++ (out ++ 0x20 :: src))
  else none

/-- A path that the shell and the compilers take for one file name. -/
structure Plain (path : List UInt8) : Prop where
  nonempty : path ≠ []
  noOption : path.head? ≠ some 0x2d
  word : ∀ c ∈ path, isDigit c = true ∨ (0x41 ≤ c ∧ c ≤ 0x5a) ∨ (0x61 ≤ c ∧ c ≤ 0x7a) ∨ c ∈ ascii "._-/"

/-- A build that is asked for. -/
structure Request where
  mode : List UInt8
  src : List UInt8
  out : List UInt8
  deriving DecidableEq

/-- What the packer is run with: where paths lead, what a full build makes of the content of a source in a mode, the build
that the shell and the compilers take a command for, and `system`, which returns its status and the files as they are then.
Plain file names are taken for what they are; a build that succeeds has written what a full build makes, and none writes
another file. -/
structure Toolchain (Id : Type) where
  resolve : List UInt8 → Id
  build : List UInt8 → List UInt8 → List UInt8 → Option (List UInt8)
  reads : List UInt8 → Option Request
  system : List UInt8 → Int → Files Id → Int × Files Id
  plain : ∀ mode src out cmd, command mode src out = some cmd → Plain src → Plain out → reads cmd = some ⟨mode, src, out⟩
  builds : ∀ cmd request now files, reads cmd = some request → (system cmd now files).1 = 0 →
    ∃ file product, files (resolve request.src) = some file ∧ build request.mode request.src file.content = some product ∧
      ((system cmd now files).2 (resolve request.out)).map File.content = some product
  others : ∀ cmd request now files id, reads cmd = some request → id ≠ resolve request.out →
    (system cmd now files).2 id = files id

/-- What a run of the packer meets: the time, the byte of `prev.sha256` that is never written, and whether the state
file can be written. -/
structure Env where
  now : Int
  garbage : UInt8
  canSave : Bool

def stateFile : List UInt8 := ascii "build/packer-state.json"

def stateTmp : List UInt8 := ascii "build/packer-state.json.tmp"

/-- How a run of the packer ends. -/
inductive Outcome where
  | noSource
  | fastHit
  | slowHit
  | unknownMode
  | buildFailed
  | built
  deriving DecidableEq, Repr

/-- The status. -/
def Outcome.rc : Outcome → Int
  | noSource | unknownMode | buildFailed => 1
  | fastHit | slowHit | built => 0

namespace Toolchain
variable {Id : Type} [DecidableEq Id] (t : Toolchain Id)

/-- `state_load` of a source. -/
def prev (files : Files Id) (src : List UInt8) : Option PackerEntry :=
  stateLoad ((files (t.resolve stateFile)).map File.content) src

/-- `fast_match`. -/
def fastMatch (files : Files Id) (src : List UInt8) (file : File) : Bool :=
  (t.prev files src).any fun prev => prev.mtime == file.mtime && prev.size == (file.content.length : Int)

/-- The `strcmp` with the hash on record, whose 65th byte `strncpy` leaves as it was. -/
def slowMatch (files : Files Id) (src : List UInt8) (file : File) (garbage : UInt8) : Bool :=
  (t.prev files src).any fun prev => prev.sha256 == sha256FileHex (some file.content) && garbage == 0

/-- `state_save`. -/
def save (files : Files Id) (src : List UInt8) (file : File) (env : Env) : Files Id :=
  if env.canSave then
    (files.write (t.resolve stateTmp) none).write (t.resolve stateFile) (some
      ⟨stateSave ((files (t.resolve stateFile)).map File.content) src file.mtime file.content.length
        (sha256FileHex (some file.content)), env.now⟩)
  else files

/-- `main`, with its three arguments. -/
def main (files : Files Id) (mode src out : List UInt8) (env : Env) : Outcome × Files Id :=
  match files (t.resolve src) with
  | none => (.noSource, files)
  | some file =>
    if t.fastMatch files src file then (.fastHit, files)
    else if t.slowMatch files src file env.garbage then (.slowHit, t.save files src file env)
    else match command mode src out with
      | none => (.unknownMode, files)
      | some cmd =>
        if (t.system (cmd.take 1023) env.now files).1 = 0 then
          (.built, t.save (t.system (cmd.take 1023) env.now files).2 src file env)
        else (.buildFailed, (t.system (cmd.take 1023) env.now files).2)

end Toolchain

end StubPacker
end Blyt
