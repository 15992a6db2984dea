import Blyt.Lib.BlockStream
import Blyt.Lib.Window
import Blyt.StubPacker

namespace Blyt
namespace StubPacker
open BlockStream Window

/-- `sha256_ctx_t`, its buffer the 64 bytes of `data`. -/
structure Sha256Ctx where
  data : List UInt8
  datalen : UInt32
  bitlen : UInt64
  state : Sha256State

/-- `sha256_init`; what is in the buffer stays there. -/
def Sha256Ctx.init (garbage : List UInt8) : Sha256Ctx := ⟨garbage, 0, 0, sha256Init⟩

/-- A turn of the loop of `sha256_update`. -/
def Sha256Ctx.push (ctx : Sha256Ctx) (byte : UInt8) : Exec Sha256Ctx := do
  let data ← writeAt ctx.data ctx.datalen.toNat [byte]
  if ctx.datalen + 1 = 64 then
    return ⟨data, 0, ctx.bitlen + 512, sha256Transform ctx.state data⟩
  else return ⟨data, ctx.datalen + 1, ctx.bitlen, ctx.state⟩

/-- `sha256_update`. -/
def Sha256Ctx.update (ctx : Sha256Ctx) (bytes : List UInt8) : Exec Sha256Ctx := Exec.run push ctx bytes

/-- The zeros of `while (i < stop) ctx->data[i++] = 0x00`. -/
def padZeros (data : List UInt8) (i stop : Nat) : Exec (List UInt8) := writeAt data i (List.replicate (stop - i) 0)

/-- `sha256_final` up to the length: the buffer and the state, with its last block but one gone through. -/
def Sha256Ctx.pad (ctx : Sha256Ctx) : Exec (List UInt8 × Sha256State) := do
  let i := ctx.datalen.toNat
  let data ← writeAt ctx.data i [0x80]
  if ctx.datalen < 56 then do
    let data ← padZeros data (i + 1) 56
    return (data, ctx.state)
  else do
    let data ← padZeros data (i + 1) 64
    -- `memset(ctx->data, 0, 56)`: the length goes into a block of its own
    let cleared ← writeAt data 0 (List.replicate 56 0)
    return (cleared, sha256Transform ctx.state data)

def sha256Digest (s : Sha256State) : List UInt8 :=
  [s.a, s.b, s.c, s.d, s.e, s.f, s.g, s.h].flatMap fun w => beBytes 4 w.toNat

/-- `sha256_final`. -/
def Sha256Ctx.final (ctx : Sha256Ctx) : Exec (List UInt8) := do
  let (data, state) ← ctx.pad
  let bitlen := ctx.bitlen + (ctx.datalen * 8).toUInt64
  let data ← writeAt data 56 (beBytes 8 bitlen.toNat)
  return sha256Digest (sha256Transform state data)

/-- `sha256_file_hex` of a file that `fread` hands out part by part; nothing is handed out of one that does not open. -/
def sha256FileHexRead (garbage : Vector UInt8 64) : Option (List (List UInt8)) → Exec (List UInt8)
  | none => .returns (List.replicate 64 0x30)
  | some parts => do
    let ctx ← Exec.run Sha256Ctx.update (.init garbage.toList) parts
    return HexText.encode (← ctx.final)

variable {ctx : Sha256Ctx} {bytes buffer behind : List UInt8}

theorem sha256Blocks_eq (n : Nat) (data : List UInt8) (s : Sha256State) :
    sha256Blocks n data s = absorb 64 sha256Transform n data s := by
  induction n generalizing data s with
  | zero => rfl
  | succ n ih => rw [sha256Blocks, absorb, ih]

/-- A context that was fed `bytes`: `buffer`, what they leave behind their last whole block, is at the front of its
64 bytes. -/
structure Sha256Ctx.Holds (ctx : Sha256Ctx) (bytes buffer behind : List UInt8) : Prop where
  data : ctx.data = buffer ++ behind
  size : buffer.length + behind.length = 64
  fed : Fed 64 sha256Transform sha256Init bytes ctx.state buffer
  datalen : ctx.datalen.toNat = buffer.length
  bitlen : ctx.bitlen.toNat = bytes.length / 64 * 512 % 2 ^ 64

theorem Sha256Ctx.Holds.short (holds : ctx.Holds bytes buffer behind) : buffer.length < 64 := by
  rw [holds.fed.length]
  exact Nat.mod_lt _ (by decide)

theorem Sha256Ctx.init_holds (garbage : Vector UInt8 64) : (init garbage.toList).Holds [] [] garbage.toList where
  data := rfl
  size := by rw [List.length_nil, Nat.zero_add, Vector.length_toList]
  fed := .start
  datalen := rfl
  bitlen := rfl

/-- A byte of `sha256_update`. -/
theorem Sha256Ctx.Holds.push (holds : ctx.Holds bytes buffer behind) (byte : UInt8) :
    ∃ ctx' buffer' behind', ctx.push byte = .returns ctx' ∧ ctx'.Holds (bytes ++ [byte]) buffer' behind' := by
  have short := holds.short
  have size := holds.size
  have parts := Nat.div_add_mod' bytes.length 64
  have here := holds.fed.length
  obtain ⟨old, behind', rfl⟩ := List.exists_cons_of_length_pos (l := behind) (by omega)
  rw [List.length_cons] at size
  have stored : writeAt ctx.data ctx.datalen.toNat [byte] = .returns (buffer ++ byte :: behind') := by
    rw [holds.data, holds.datalen, writeAt_cell]
  have next : (ctx.datalen + 1).toNat = buffer.length + 1 := by
    rw [UInt32.toNat_add, holds.datalen, show (1 : UInt32).toNat = 1 from rfl]
    omega
  have longer : (bytes ++ [byte]).length = bytes.length + 1 := by rw [List.length_append, List.length_singleton]
  rw [Sha256Ctx.push, stored, Exec.returns_bind]
  by_cases full : buffer.length + 1 = 64
  · have none : behind' = [] := List.eq_nil_of_length_eq_zero (by omega)
    subst none
    have flush : ctx.datalen + 1 = 64 := UInt32.toNat_inj.mp (next.trans full)
    rw [if_pos flush]
    refine ⟨_, [], buffer ++ [byte], rfl, rfl, ?_, holds.fed.flush byte full, rfl, ?_⟩
    · rw [List.length_append, List.length_singleton, List.length_nil]
      omega
    · have quotient : (bytes ++ [byte]).length / 64 = bytes.length / 64 + 1 := by omega
      rw [quotient, UInt64.toNat_add, holds.bitlen, show (512 : UInt64).toNat = 512 from rfl]
      omega
  · have more : ¬ctx.datalen + 1 = 64 := fun same => full (next.symm.trans (congrArg UInt32.toNat same))
    rw [if_neg more]
    refine ⟨_, buffer ++ [byte], behind', rfl, ?_, ?_, holds.fed.store byte (by omega), ?_, ?_⟩
    · rw [List.append_assoc, List.singleton_append]
    · rw [List.length_append, List.length_singleton]
      omega
    · rw [next, List.length_append, List.length_singleton]
    · have quotient : (bytes ++ [byte]).length / 64 = bytes.length / 64 := by omega
      rw [quotient, holds.bitlen]

theorem Sha256Ctx.Holds.update (holds : ctx.Holds bytes buffer behind) (more : List UInt8) :
    ∃ ctx' buffer' behind', ctx.update more = .returns ctx' ∧ ctx'.Holds (bytes ++ more) buffer' behind' := by
  induction more generalizing ctx bytes buffer behind with
  | nil => exact ⟨ctx, buffer, behind, rfl, by rwa [List.append_nil]⟩
  | cons byte more ih =>
    obtain ⟨ctx₁, buffer₁, behind₁, pushed, holds₁⟩ := holds.push byte
    obtain ⟨ctx', buffer', behind', updated, holds'⟩ := ih holds₁
    refine ⟨ctx', buffer', behind', ?_, by rwa [List.append_assoc, List.singleton_append] at holds'⟩
    rw [Sha256Ctx.update, Exec.run, pushed]
    exact updated

/-- The parts of a file one after another. -/
theorem Sha256Ctx.Holds.updates (holds : ctx.Holds bytes buffer behind) (parts : List (List UInt8)) :
    ∃ ctx' buffer' behind', Exec.run Sha256Ctx.update ctx parts = .returns ctx' ∧
      ctx'.Holds (bytes ++ parts.flatten) buffer' behind' := by
  induction parts generalizing ctx bytes buffer behind with
  | nil => exact ⟨ctx, buffer, behind, rfl, by rwa [List.flatten_nil, List.append_nil]⟩
  | cons part parts ih =>
    obtain ⟨ctx₁, buffer₁, behind₁, fed, holds₁⟩ := holds.update part
    obtain ⟨ctx', buffer', behind', ran, holds'⟩ := ih holds₁
    refine ⟨ctx', buffer', behind', ?_, by rwa [List.append_assoc, ← List.flatten_cons] at holds'⟩
    rw [Exec.run, fed]
    exact ran

theorem beBytes_length (n v : Nat) : (beBytes n v).length = n := by
  rw [beBytes, List.length_map, List.length_reverse, List.length_range]

/-- Only so many bytes of a number are written. -/
theorem beBytes_mod (n v : Nat) : beBytes n (v % 256 ^ n) = beBytes n v := by
  refine List.map_congr_left fun i member => UInt8.toNat_inj.mp ?_
  have inside : i < n := List.mem_range.mp (List.mem_reverse.mp member)
  have split : 256 ^ n = 256 ^ i * (256 ^ (n - i - 1) * 256) := by
    rw [← Nat.pow_succ, ← Nat.pow_add]
    congr 1
    omega
  rw [UInt8.toNat_ofNat', UInt8.toNat_ofNat', split, Nat.mod_mul_right_div_self]
  exact Nat.mod_mod_of_dvd _ (Nat.dvd_mul_left 256 _)

/-- The length in bits that `sha256_final` writes, as far as 64 bits show it. -/
theorem Sha256Ctx.Holds.bits (holds : ctx.Holds bytes buffer behind) :
    beBytes 8 (ctx.bitlen + (ctx.datalen * 8).toUInt64).toNat = beBytes 8 (bytes.length * 8) := by
  have short := holds.short
  have parts := Nat.div_add_mod' bytes.length 64
  have here := holds.fed.length
  have tail : (ctx.datalen * 8).toUInt64.toNat = buffer.length * 8 := by
    rw [UInt32.toNat_toUInt64, UInt32.toNat_mul, holds.datalen, show (8 : UInt32).toNat = 8 from rfl]
    omega
  have sum : (ctx.bitlen + (ctx.datalen * 8).toUInt64).toNat = bytes.length * 8 % 256 ^ 8 := by
    rw [UInt64.toNat_add, holds.bitlen, tail, show (256 : Nat) ^ 8 = 2 ^ 64 by decide]
    omega
  rw [sum, beBytes_mod]

/-- One more block behind those of the bytes. -/
theorem Sha256Ctx.Holds.absorb_next (holds : ctx.Holds bytes buffer behind) {pad : List UInt8}
    (fills : buffer.length + pad.length = 64) (more : List UInt8) :
    sha256Blocks (bytes.length / 64 + 1) (bytes ++ (pad ++ more)) sha256Init =
      sha256Transform ctx.state (buffer ++ pad) := by
  have parts := Nat.div_add_mod' bytes.length 64
  have here := holds.fed.length
  rw [sha256Blocks_eq, absorb_succ, absorb_append (by omega), ← holds.fed.state, List.drop_append_of_le_length (by omega),
    ← holds.fed.rest, ← List.append_assoc, List.take_append_of_le_length (by rw [List.length_append]; omega),
    List.take_of_length_le (by rw [List.length_append]; omega)]

/-- The bytes behind the one bit are overwritten, whatever they are. -/
theorem padZeros_behind {done tail : List UInt8} {stop : Nat} (within : done.length ≤ stop)
    (room : stop ≤ done.length + tail.length) :
    padZeros (done ++ tail) done.length stop =
      .returns (done ++ List.replicate (stop - done.length) 0 ++ tail.drop (stop - done.length)) := by
  have length : (List.replicate (stop - done.length) (0 : UInt8)).length = stop - done.length := List.length_replicate
  rw [padZeros, writeAt_behind (by rw [length]; omega), length]

theorem sha256Padded_length (bytes : List UInt8) : (sha256Padded bytes).length / 64 = bytes.length / 64 +
    if bytes.length % 64 < 56 then 1 else 2 := by
  have parts := Nat.div_add_mod' bytes.length 64
  have short := Nat.mod_lt bytes.length (show 0 < 64 by decide)
  rw [sha256Padded, List.length_append, List.length_cons, List.length_append, List.length_replicate, beBytes_length]
  split <;> omega

/-- The blocks of the padded bytes, from the context that was fed them. -/
theorem Sha256Ctx.Holds.blocks (holds : ctx.Holds bytes buffer behind) :
    sha256Blocks ((sha256Padded bytes).length / 64) (sha256Padded bytes) sha256Init =
      if buffer.length < 56 then
        sha256Transform ctx.state
          (buffer ++ 0x80 :: (List.replicate (55 - buffer.length) 0 ++ beBytes 8 (bytes.length * 8)))
      else
        sha256Transform (sha256Transform ctx.state (buffer ++ 0x80 :: List.replicate (63 - buffer.length) 0))
          (List.replicate 56 0 ++ beBytes 8 (bytes.length * 8)) := by
  have short := holds.short
  have parts := Nat.div_add_mod' bytes.length 64
  have here := holds.fed.length
  have last := beBytes_length 8 (bytes.length * 8)
  rw [sha256Padded_length, ← here]
  split
  · have zeros : (119 - bytes.length % 64) % 64 = 55 - buffer.length := by omega
    have fills : buffer.length + (0x80 :: (List.replicate (55 - buffer.length) 0 ++ beBytes 8 (bytes.length * 8))).length =
        64 := by
      rw [List.length_cons, List.length_append, List.length_replicate, last]
      omega
    rw [sha256Padded, zeros, ← holds.absorb_next fills [], List.append_nil]
  · have zeros : (119 - bytes.length % 64) % 64 = (63 - buffer.length) + 56 := by omega
    have fills : buffer.length + (0x80 :: List.replicate (63 - buffer.length) (0 : UInt8)).length = 64 := by
      rw [List.length_cons, List.length_replicate]
      omega
    have one := holds.absorb_next fills (List.replicate 56 0 ++ beBytes 8 (bytes.length * 8))
    have padded : sha256Padded bytes = bytes ++ (0x80 :: List.replicate (63 - buffer.length) 0 ++
        (List.replicate 56 0 ++ beBytes 8 (bytes.length * 8))) := by
      rw [sha256Padded, zeros, List.replicate_add, List.cons_append, List.append_assoc]
    have front : (bytes ++ 0x80 :: List.replicate (63 - buffer.length) (0 : UInt8)).length =
        (bytes.length / 64 + 1) * 64 := by
      rw [List.length_append]
      omega
    have rest : (bytes ++ (0x80 :: List.replicate (63 - buffer.length) 0 ++
        (List.replicate 56 0 ++ beBytes 8 (bytes.length * 8)))).drop ((bytes.length / 64 + 1) * 64) =
          List.replicate 56 0 ++ beBytes 8 (bytes.length * 8) := by
      rw [← front, ← List.append_assoc, List.drop_left]
    have whole : (List.replicate 56 (0 : UInt8) ++ beBytes 8 (bytes.length * 8)).length = 64 := by
      rw [List.length_append, List.length_replicate, last]
    rw [sha256Blocks_eq] at one ⊢
    rw [padded, absorb_succ, one, rest, List.take_of_length_le whole.le]

/-- The padding stands behind the buffer; no byte of before is left where it is hashed. -/
theorem Sha256Ctx.Holds.pad (holds : ctx.Holds bytes buffer behind) : ∃ tail, tail.length = 8 ∧ ctx.pad =
    if buffer.length < 56 then .returns (buffer ++ 0x80 :: List.replicate (55 - buffer.length) 0 ++ tail, ctx.state)
    else .returns (List.replicate 56 0 ++ tail,
      sha256Transform ctx.state (buffer ++ 0x80 :: List.replicate (63 - buffer.length) 0)) := by
  have short := holds.short
  have size := holds.size
  obtain ⟨old, behind', rfl⟩ := List.exists_cons_of_length_pos (l := behind) (by omega)
  rw [List.length_cons] at size
  have oneBit : writeAt ctx.data ctx.datalen.toNat [0x80] = .returns (buffer ++ [0x80] ++ behind') := by
    rw [holds.data, holds.datalen, writeAt_cell, List.append_assoc, List.singleton_append]
  have done : (buffer ++ [(0x80 : UInt8)]).length = buffer.length + 1 := by
    rw [List.length_append, List.length_singleton]
  have below : ctx.datalen < 56 ↔ buffer.length < 56 := by
    rw [UInt32.lt_iff_toNat_lt, holds.datalen]
    rfl
  rw [Sha256Ctx.pad, oneBit, Exec.returns_bind, holds.datalen, ← done]
  by_cases room : buffer.length < 56
  · have zeros : padZeros (buffer ++ [0x80] ++ behind') (buffer ++ [(0x80 : UInt8)]).length 56 = .returns
        (buffer ++ [0x80] ++ List.replicate (56 - (buffer ++ [(0x80 : UInt8)]).length) 0 ++
          behind'.drop (56 - (buffer ++ [(0x80 : UInt8)]).length)) := padZeros_behind (by omega) (by omega)
    refine ⟨behind'.drop (56 - (buffer.length + 1)), by rw [List.length_drop]; omega, ?_⟩
    rw [if_pos (below.mpr room), if_pos room, zeros, Exec.returns_bind, done, List.append_assoc buffer,
      List.singleton_append, show 56 - (buffer.length + 1) = 55 - buffer.length by omega]
    rfl
  · have none : behind'.drop (64 - (buffer ++ [(0x80 : UInt8)]).length) = [] := List.drop_of_length_le (by omega)
    have zeros : padZeros (buffer ++ [0x80] ++ behind') (buffer ++ [(0x80 : UInt8)]).length 64 =
        .returns (buffer ++ 0x80 :: List.replicate (63 - buffer.length) 0) := by
      rw [padZeros_behind (by omega) (by omega), none, List.append_nil, List.append_assoc, List.singleton_append, done,
        show 64 - (buffer.length + 1) = 63 - buffer.length by omega]
    have whole : (buffer ++ 0x80 :: List.replicate (63 - buffer.length) (0 : UInt8)).length = 64 := by
      rw [List.length_append, List.length_cons, List.length_replicate]
      omega
    have cleared : writeAt (buffer ++ 0x80 :: List.replicate (63 - buffer.length) (0 : UInt8)) 0 (List.replicate 56 0) =
        .returns (List.replicate 56 0 ++ (buffer ++ 0x80 :: List.replicate (63 - buffer.length) 0).drop 56) := by
      rw [writeAt_returns (by rw [List.length_replicate]; omega), List.length_replicate]
      rfl
    refine ⟨(buffer ++ 0x80 :: List.replicate (63 - buffer.length) 0).drop 56, by rw [List.length_drop, whole], ?_⟩
    rw [if_neg fun less => room (below.mp less), if_neg room, zeros, Exec.returns_bind, cleared, Exec.returns_bind]
    rfl

theorem Sha256Ctx.Holds.final (holds : ctx.Holds bytes buffer behind) : ctx.final = .returns (sha256 bytes) := by
  have short := holds.short
  obtain ⟨tail, eight, padded⟩ := holds.pad
  have stored : ∀ front : List UInt8, front.length = 56 → writeAt (front ++ tail) 56 (beBytes 8 (bytes.length * 8)) =
      .returns (front ++ beBytes 8 (bytes.length * 8)) := by
    intro front length
    rw [← length, writeAt_behind (by rw [beBytes_length, eight]), beBytes_length, ← eight, List.drop_length, List.append_nil]
  rw [Sha256Ctx.final, padded, sha256, holds.blocks]
  split
  · have front : (buffer ++ 0x80 :: List.replicate (55 - buffer.length) (0 : UInt8)).length = 56 := by
      rw [List.length_append, List.length_cons, List.length_replicate]
      omega
    rw [Exec.returns_bind]
    dsimp only
    rw [holds.bits, stored _ front, Exec.returns_bind, List.append_assoc, List.cons_append]
    rfl
  · rw [Exec.returns_bind]
    dsimp only
    rw [holds.bits, stored _ List.length_replicate, Exec.returns_bind]
    rfl

/-- However `fread` cuts a file and whatever is in the buffer before, the packer's hash of the file is the hash of its
padded bytes, and no store leaves the buffer. -/
theorem sha256FileHex_read (garbage : Vector UInt8 64) (parts : Option (List (List UInt8))) :
    sha256FileHexRead garbage parts = .returns (sha256FileHex (parts.map List.flatten)) := by
  cases parts with
  | none => rfl
  | some parts =>
    obtain ⟨ctx, buffer, behind, ran, holds⟩ := (Sha256Ctx.init_holds garbage).updates parts
    rw [List.nil_append] at holds
    rw [sha256FileHexRead, ran, Exec.returns_bind, holds.final]
    rfl

end StubPacker
end Blyt
