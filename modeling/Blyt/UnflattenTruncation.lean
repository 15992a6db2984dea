import Blyt.Lib.Truncation
import Blyt.TableRoundTrip

namespace Blyt
open Packed (leBytes leNat)
open Reader (Read Parses Asks Cut Ran exec wrap32)

/-- A number read behind the end of the bytes. -/
def Flagged {α : Type} (r : α × Bool) : Prop := r.2 = true

theorem takeU8_flagged : Asks 1 Flagged (takeU8 true) := by
  refine ⟨Nat.le_refl 1, fun piece => ?_⟩
  cases piece <;> rfl

theorem takeU16_flagged : Asks 1 Flagged (takeU16 true) := by
  refine takeU8_flagged.bind ?_
  rintro ⟨a, flag⟩ rfl
  refine takeU8_flagged.bind ?_
  rintro ⟨b, flag⟩ rfl
  rfl

theorem takeU32_flagged : Asks 1 Flagged (takeU32 true) := by
  refine takeU8_flagged.bind ?_
  rintro ⟨a, flag⟩ rfl
  refine takeU8_flagged.bind ?_
  rintro ⟨b, flag⟩ rfl
  refine takeU8_flagged.bind ?_
  rintro ⟨c, flag⟩ rfl
  refine takeU8_flagged.bind ?_
  rintro ⟨d, flag⟩ rfl
  rfl

theorem takeU8_cut (b : UInt8) : Cut (takeU8 false) [b] Flagged := by
  have piece : Cut (Reader.take 1) [b] (· = none) := .take rfl
  refine piece.last ?_
  rintro _ rfl
  rfl

theorem takeU16_cut (w : UInt16) : Cut (takeU16 false) (leBytes 2 w.toNat) Flagged := by
  obtain ⟨a, b, bytes⟩ := List.length_eq_two.mp (Packed.leBytes_length 2 w.toNat)
  rw [bytes]
  show Cut (takeU16 false) ([a] ++ [b]) Flagged
  refine Cut.bind (takeU8_parses a) (takeU8_cut a) ((takeU8_cut b).last ?_) ?_
  · rintro ⟨b, flag⟩ rfl
    rfl
  · rintro ⟨a, flag⟩ rfl
    refine (takeU8_flagged.mono (Nat.le_add_left ..) fun _ flagged => flagged).bind ?_
    rintro ⟨b, flag⟩ rfl
    rfl

section
variable {src : List UInt8} {pos : Nat}

theorem takeU8_there {b : UInt8} (there : src[pos]? = some b) (small : src.length < 2 ^ 32) (underflowed : Bool) :
    exec wrap32 src (takeU8 underflowed) pos = ⟨(b, underflowed), pos + 1, [⟨pos, 1, pos + 1⟩]⟩ := by
  obtain ⟨inside, rfl⟩ := List.getElem?_eq_some_iff.mp there
  have exact : wrap32 pos (1 : UInt32).toNat = pos + 1 := Nat.mod_eq_of_lt (show pos + 1 < 2 ^ 32 by omega)
  have piece : (src.drop pos).take (1 : UInt32).toNat = [src[pos]] := by
    rw [List.drop_eq_getElem_cons inside]
    rfl
  rw [takeU8, Reader.exec_bind, Reader.take, Reader.exec_there (by omega), exact, piece]
  rfl

theorem takeU8_behind (behind : src.length ≤ pos) (small : pos + 1 < 2 ^ 32) (underflowed : Bool) :
    exec wrap32 src (takeU8 underflowed) pos = ⟨(0, true), pos, []⟩ := by
  have exact : wrap32 pos (1 : UInt32).toNat = pos + 1 := Nat.mod_eq_of_lt small
  rw [takeU8, Reader.exec_bind, Reader.take, Reader.exec_short (by omega)]
  rfl

/-- `n` bytes in a row. -/
def takeU8s : Nat → Bool → Read (List UInt8 × Bool)
  | 0, underflowed => pure ([], underflowed)
  | n + 1, underflowed => do
    let b ← takeU8 underflowed
    let bs ← takeU8s n b.2
    pure (b.1 :: bs.1, bs.2)

/-- Bytes that are not there count as zeros. -/
theorem takeU8s_behind (behind : src.length ≤ pos) (small : pos + 1 < 2 ^ 32) (n : Nat) :
    exec wrap32 src (takeU8s n true) pos = ⟨(List.replicate n 0, true), pos, []⟩ := by
  induction n with
  | zero => rfl
  | succ n ih =>
    rw [takeU8s, Reader.exec_bind, takeU8_behind behind small]
    dsimp only
    rw [Reader.exec_bind, ih]
    rfl

theorem takeU8s_cut {pre cut : List UInt8} {n : Nat} (short : cut.length < n) (small : pre.length + n < 2 ^ 32) :
    Ran (pre ++ cut) (· = (cut ++ List.replicate (n - cut.length) 0, true))
      (exec wrap32 (pre ++ cut) (takeU8s n false) pre.length) := by
  induction n generalizing pre cut with
  | zero => omega
  | succ n ih =>
    rw [takeU8s, Reader.exec_bind]
    cases cut with
    | nil =>
      rw [List.append_nil, takeU8_behind (Nat.le_refl _) (by omega)]
      dsimp only
      rw [Reader.exec_bind, takeU8s_behind (Nat.le_refl _) (by omega)]
      exact ⟨rfl, Nat.le_refl _, fun g none => absurd none List.not_mem_nil⟩
    | cons b cut =>
      rw [List.length_cons] at short
      have rest := @ih (pre ++ [b]) cut (by omega)
        (by rw [List.length_append, List.length_singleton]; omega)
      rw [List.append_assoc, List.singleton_append, List.length_append, List.length_singleton] at rest
      have there : (pre ++ b :: cut)[pre.length]? = some b := by simp
      rw [takeU8_there there (by rw [List.length_append, List.length_cons]; omega)]
      dsimp only
      rw [Reader.exec_bind]
      refine ⟨?_, rest.pos, ?_⟩
      · rw [List.length_cons, Nat.add_sub_add_right]
        exact congrArg (fun r => (b :: r.1, r.2)) rest.value
      · rintro g granted
        rcases List.mem_cons.mp granted with rfl | granted
        · simp [Reader.Grant.Sound]
        · exact rest.sound g (by simpa [exec] using granted)

end

theorem takeU32_eq (underflowed : Bool) :
    takeU32 underflowed = takeU8s 4 underflowed >>= fun bytes => pure
      (match bytes.1 with
        | [a, b, c, d] => a.toUInt32 ||| (b.toUInt32 <<< 8) ||| (c.toUInt32 <<< 16) ||| (d.toUInt32 <<< 24)
        | _ => 0, bytes.2) := by
  simp only [takeU8s, bind_assoc, pure_bind]
  rfl

theorem leNat_padded_le (cut more : List UInt8) (n : Nat) : leNat (cut ++ List.replicate n 0) ≤ leNat (cut ++ more) := by
  induction cut with
  | nil =>
    have zeros : leNat (List.replicate n 0) = 0 := by
      induction n with
      | zero => rfl
      | succ n ih => simp [List.replicate_succ, leNat, ih]
    rw [List.nil_append, zeros]
    exact Nat.zero_le _
  | cons b cut ih =>
    simp only [List.cons_append, leNat]
    omega

/-- What is read of a word that is cut short is no larger than the word. -/
theorem takeU32_cut (w : UInt32) :
    Cut (takeU32 false) (leBytes 4 w.toNat) (fun r => Flagged r ∧ r.1.toNat ≤ w.toNat) := by
  intro pre cut more joined missing small
  have some : 0 < more.length := List.length_pos_iff.mpr missing
  have total := congrArg List.length joined
  rw [List.length_append, Packed.leBytes_length] at total
  rw [List.length_append, Packed.leBytes_length] at small
  have word : leNat (cut ++ more) = w.toNat := by
    rw [joined, Packed.leNat_leBytes]
    exact Nat.mod_eq_of_lt w.toNat_lt
  obtain ⟨a, b, c, d, bytes⟩ : ∃ a b c d, cut ++ List.replicate (4 - cut.length) 0 = [a, b, c, d] := by
    refine List.length_eq_four.mp ?_
    rw [List.length_append, List.length_replicate]
    omega
  rw [takeU32_eq]
  refine (takeU8s_cut (by omega) small).bind ?_
  rintro _ pos rfl start
  rw [bytes]
  refine ⟨⟨rfl, ?_⟩, start, fun g none => absurd none List.not_mem_nil⟩
  rw [Reader.pure_eq, exec, leNat_u32, ← bytes, ← word]
  exact leNat_padded_le cut more _

theorem takeU64_cut (w : UInt64) : Cut (takeU64 false) (leBytes 8 w.toNat) Flagged := by
  rw [leBytes_u64]
  refine Cut.bind (takeU32_parses _) (takeU32_cut _) ((takeU32_cut _).last ?_) ?_
  · rintro ⟨hi, flag⟩ ⟨rfl, -⟩
    rfl
  · rintro ⟨lo, flag⟩ ⟨rfl, -⟩
    refine (takeU32_flagged.mono (Nat.le_add_left ..) fun _ flagged => flagged).bind ?_
    rintro ⟨hi, flag⟩ rfl
    rfl

section
variable {C : LuaConf}

/-- The switch over a tag comes to no value, or to one read behind the end. -/
def Taken.Spoiled (r : Taken C × Bool) : Prop := Flagged r ∨ r.1 = .short

theorem takeScalar_cut (v : LuaScalar C) : Cut (takeScalar (C := C) v.tag false) (wirePayload v) Taken.Spoiled := by
  cases v with
  | boolean b =>
    refine (takeU8_cut _).last ?_
    rintro ⟨b, flag⟩ rfl
    exact .inl rfl
  | integer v =>
    refine (takeU64_cut _).last ?_
    rintro ⟨v, flag⟩ rfl
    exact .inl rfl
  | number x =>
    refine (takeU64_cut _).last ?_
    rintro ⟨v, flag⟩ rfl
    exact .inl rfl
  | string bytes =>
    have length : (bytes.take (bytes.length % 2 ^ 32)).length = (UInt32.ofNat bytes.length).toNat := by
      rw [List.length_take, UInt32.toNat_ofNat']
      exact min_eq_left (Nat.mod_le ..)
    have counted := takeU32_parses (UInt32.ofNat bytes.length)
    have count := takeU32_cut (UInt32.ofNat bytes.length)
    rw [UInt32.toNat_ofNat', show 2 ^ 32 = 256 ^ 4 by decide, Packed.leBytes_mod] at counted count
    refine Cut.bind counted count ((Cut.take length).last ?_) ?_
    · rintro _ rfl
      exact .inr rfl
    · rintro ⟨sl, flag⟩ ⟨rfl, le⟩
      refine (Asks.take ?_).bind fun piece _ => ?_
      · rw [length, UInt32.toNat_ofNat']
        exact Nat.le_succ_of_le le
      · cases piece with
        | none => exact .inr rfl
        | some piece => exact .inl rfl

/-- The step failed, or ran on behind the end, which a later check catches. -/
def Unflattened.Spoiled (r : Unflattened C) : Prop := r.rc ≠ .ok ∨ r.underflowed = true

theorem unflattenElems_cut {tag : UInt8} {elems : List (LuaScalar C)} (tags : ∀ v ∈ elems, v.tag = tag) (i : Nat)
    (stack : List (LuaObj C)) :
    Cut (unflattenElems tag elems.length i false stack) (elems.flatMap wirePayload) (·.rc ≠ .ok) := by
  induction elems generalizing i stack with
  | nil => exact .nil _ _
  | cons v elems ih =>
    have head := takeScalar_parses v
    have cut := takeScalar_cut v
    rw [tags v List.mem_cons_self] at head cut
    refine Cut.bind head cut (ih (fun w member => tags w (List.mem_cons_of_mem _ member)) _ _) ?_
    rintro ⟨taken, flag⟩ spoiled
    cases taken with
    | short => exact Ltf.noConfusion
    | badTag => exact Ltf.noConfusion
    | value v =>
      rcases spoiled with rfl | short
      · exact Ltf.noConfusion
      · cases short

theorem unflattenValue_cut {f : LuaField C} {bytes : List UInt8} (wire : Wire f bytes) (stack : List (LuaObj C)) :
    Cut (unflattenValue false stack) bytes Unflattened.Spoiled := by
  cases wire with
  | scalar v =>
    have scalar_tag : v.tag ≠ ltfTagArray := by cases v <;> simp only [LuaScalar.tag] <;> decide
    show Cut (unflattenValue false stack) ([v.tag] ++ wirePayload v) Unflattened.Spoiled
    refine Cut.bind (takeU8_parses v.tag) (takeU8_cut v.tag) ?_ ?_
    · dsimp only
      rw [if_neg Bool.false_ne_true, if_neg scalar_tag]
      refine (takeScalar_cut v).last ?_
      rintro ⟨taken, flag⟩ spoiled
      cases taken with
      | short => exact .inl Ltf.noConfusion
      | badTag => exact .inl Ltf.noConfusion
      | value v =>
        rcases spoiled with rfl | short
        · exact .inr rfl
        · cases short
    · rintro ⟨tag, flag⟩ rfl
      exact .inl Ltf.noConfusion
  | @array a elems tag sequence count tags =>
    have word : (UInt32.ofNat elems.length).toNat = elems.length :=
      UInt32.toNat_ofNat_of_lt' (by show _ < 2 ^ 32; omega)
    have counted := takeU32_parses (UInt32.ofNat elems.length)
    have count := takeU32_cut (UInt32.ofNat elems.length)
    rw [word] at counted count
    have body : Cut (unflattenArray false stack) ([tag] ++ (leBytes 4 elems.length ++ elems.flatMap wirePayload))
        (·.rc ≠ .ok) := by
      refine Cut.bind (takeU8_parses tag) (takeU8_cut tag) (Cut.bind counted count ?_ ?_) ?_
      · dsimp only
        rw [if_neg Bool.false_ne_true, word]
        exact unflattenElems_cut tags 0 _
      · rintro ⟨n, flag⟩ ⟨rfl, -⟩
        exact Ltf.noConfusion
      · rintro ⟨tag, flag⟩ rfl
        refine (takeU32_flagged.mono (Nat.le_add_left ..) fun _ flagged => flagged).bind ?_
        rintro ⟨n, flag⟩ rfl
        exact Ltf.noConfusion
    show Cut (unflattenValue false stack) ([ltfTagArray] ++ ([tag] ++ (leBytes 4 elems.length ++ elems.flatMap wirePayload)))
      Unflattened.Spoiled
    refine Cut.bind (takeU8_parses ltfTagArray) (takeU8_cut ltfTagArray) (body.mono fun r failed => Or.inl failed) ?_
    rintro ⟨tag, flag⟩ rfl
    exact .inl Ltf.noConfusion

/-- Behind the end every field fails, and so does the check after the last. -/
theorem unflattenFields_flagged (left : Nat) (stack : List (LuaObj C)) :
    Asks 1 (·.rc ≠ .ok) (unflattenFields left true stack) := by
  cases left with
  | zero => exact Ltf.noConfusion
  | succ left =>
    refine takeU16_flagged.bind ?_
    rintro ⟨kl, flag⟩ rfl
    rw [if_pos (.inl rfl)]
    exact Ltf.noConfusion

theorem unflattenFields_cut {t : LuaTable (LuaField C)} {keys : List (List UInt8)} {bytes : List UInt8}
    (fields : WireFields t keys bytes) (lengths : ∀ key ∈ keys, key.length ≤ ltfMaxKeyLen)
    (u : LuaTable (LuaField C)) (stack : List (LuaObj C)) :
    Cut (unflattenFields keys.length false (.record u :: stack)) bytes (·.rc ≠ .ok) := by
  induction fields generalizing u with
  | nil => exact .nil _ _
  | @cons key keys f bytes more here wire rest ih =>
    obtain ⟨f', maps, value⟩ := unflattenValue_parses wire (.scalar (.string key) :: .record u :: stack)
    have value_cut := unflattenValue_cut wire (.scalar (.string key) :: .record u :: stack)
    have bound : key.length ≤ 64 := lengths key List.mem_cons_self
    have half : (UInt16.ofNat key.length).toNat = key.length := UInt16.toNat_ofNat_of_lt' (by show _ < 2 ^ 16; omega)
    have counted := takeU16_parses (UInt16.ofNat key.length)
    have count := takeU16_cut (UInt16.ofNat key.length)
    rw [half] at counted count
    have length : key.length = (UInt16.ofNat key.length).toUInt32.toNat := by rw [UInt16.toNat_toUInt32, half]
    rw [List.append_assoc, List.append_assoc]
    refine Cut.bind counted count ?_ ?_
    · dsimp only
      rw [if_neg (by rw [half]; simpa [ltfMaxKeyLen] using bound)]
      refine Cut.bind (Parses.take length) (Cut.take length) (Cut.bind value value_cut ?_ ?_) ?_
      · dsimp only
        rw [if_neg (by simp), rawSet_obj maps]
        exact ih (fun key member => lengths key (List.mem_cons_of_mem _ member)) _
      · -- a scalar read behind the end is stored in its field, and the next check fails
        rintro ⟨rc, flag, stack⟩ spoiled
        dsimp only
        split
        · rename_i failed
          exact failed
        · rename_i ok
          obtain rfl := spoiled.resolve_left ok
          exact (unflattenFields_flagged keys.length _).mono (Nat.le_add_left ..) fun _ failed => failed
      · rintro _ rfl
        exact Ltf.noConfusion
    · rintro ⟨kl, flag⟩ rfl
      rw [if_pos (.inl rfl)]
      exact Ltf.noConfusion

theorem unflattenTable_cut {t : LuaTable (LuaField C)} {keys : List (List UInt8)} {bytes : List UInt8}
    (wire : WireTable t keys bytes) (stack : List (LuaObj C)) : Cut (unflattenTable stack) bytes (·.rc ≠ .ok) := by
  obtain ⟨more, fields, rfl⟩ := wire.fields
  have count : keys.length ≤ 32 := wire.count
  have word : (UInt32.ofNat keys.length).toNat = keys.length :=
    UInt32.toNat_ofNat_of_lt' (by show _ < 2 ^ 32; omega)
  have counted := takeU32_parses (UInt32.ofNat keys.length)
  have cut := takeU32_cut (UInt32.ofNat keys.length)
  rw [word] at counted cut
  refine Cut.bind counted cut ?_ ?_
  · dsimp only
    rw [if_neg Bool.false_ne_true, word, if_neg (Nat.not_lt.mpr wire.count)]
    exact unflattenFields_cut fields wire.lengths .empty stack
  · rintro ⟨nkeys, flag⟩ ⟨rfl, -⟩
    exact Ltf.noConfusion

/-- Truncation is always detected: a proper prefix of what `lua_table_flatten` wrote is refused, and nothing
behind the prefix is read on the way. -/
theorem luaTableUnflatten_truncated {v : LuaArg C} {cap : UInt32} {r : Flattened}
    (run : luaTableFlatten v cap = .returns r) (ok : r.rc = .ok) {m : Nat} (short : m < r.outLen.toNat)
    (stack : List (LuaObj C)) :
    (luaTableUnflatten (r.written.take m) stack).value.rc.code < 0 ∧
      ∀ g ∈ (luaTableUnflatten (r.written.take m) stack).grants, g.Sound (r.written.take m) := by
  obtain ⟨t, -, -, rfl, -, -, -, -, length⟩ := luaTableFlatten_ok run ok
  obtain ⟨keys, wire⟩ := luaTableFlatten_wire run ok
  have ran := (unflattenTable_cut wire stack).whole (length ▸ r.outLen.toNat_lt) (length ▸ short)
  exact ⟨Ltf.code_neg ran.value, ran.sound⟩

end

/-- The last byte of a NaN in an array is missing. -/
theorem luaTableUnflatten_truncated_nanTable :
    (luaTableUnflatten (C := luaConf64) [2, 0, 0, 0, 2, 0, 0x69, 0x64, 4, 2, 0, 0, 0, 0x6f, 0x6b,
      2, 0, 0x78, 0x73, 5, 3, 1, 0, 0, 0, 0, 0, 0, 0, 0, 0, 0xf8] []).value.rc.code < 0 :=
  (luaTableUnflatten_truncated nanTable_flat rfl (show 32 < 33 by decide) []).1

end Blyt
