import Blyt.FlattenWire
import Blyt.TableUnflatten

namespace Blyt

open Packed (leBytes leNat)
open Reader (Read Parses)

theorem or_mul_two_pow {a i : Nat} (low : a < 2 ^ i) (b : Nat) : a ||| b * 2 ^ i = a + b * 2 ^ i := by
  rw [← Nat.shiftLeft_eq, Nat.or_comm, ← Nat.shiftLeft_add_eq_or_of_lt low, Nat.add_comm]

theorem takeU8_parses (b : UInt8) : Parses (takeU8 false) [b] (b, false) := by
  have piece : Parses (Reader.take 1) [b] (some [b]) := .take rfl
  exact piece.bind (.done (b, false))

/-- The bytes of a word, shifted to their places and put together, are the word. -/
theorem leNat_u16 (a b : UInt8) : (a.toUInt16 ||| (b.toUInt16 <<< 8)).toNat = leNat [a, b] := by
  have lowA := a.toNat_lt
  have lowB := b.toNat_lt
  have placed : (b.toUInt16 <<< 8).toNat = b.toNat * 2 ^ 8 := by
    simp [Nat.shiftLeft_eq]
    omega
  rw [UInt16.toNat_or, placed, UInt8.toNat_toUInt16, or_mul_two_pow lowA]
  simp only [leNat]
  omega

theorem leNat_u32 (a b c d : UInt8) :
    (a.toUInt32 ||| (b.toUInt32 <<< 8) ||| (c.toUInt32 <<< 16) ||| (d.toUInt32 <<< 24)).toNat =
      leNat [a, b, c, d] := by
  have lowA := a.toNat_lt
  have lowB := b.toNat_lt
  have lowC := c.toNat_lt
  have lowD := d.toNat_lt
  have second : (b.toUInt32 <<< 8).toNat = b.toNat * 2 ^ 8 := by
    simp [Nat.shiftLeft_eq]
    omega
  have third : (c.toUInt32 <<< 16).toNat = c.toNat * 2 ^ 16 := by
    simp [Nat.shiftLeft_eq]
    omega
  have fourth : (d.toUInt32 <<< 24).toNat = d.toNat * 2 ^ 24 := by
    simp [Nat.shiftLeft_eq]
    omega
  rw [UInt32.toNat_or, UInt32.toNat_or, UInt32.toNat_or, second, third, fourth, UInt8.toNat_toUInt32,
    or_mul_two_pow lowA, or_mul_two_pow (i := 16) (by omega), or_mul_two_pow (i := 24) (by omega)]
  simp only [leNat]
  omega

theorem word_u64 (lo hi : UInt32) : (lo.toUInt64 ||| (hi.toUInt64 <<< 32)).toNat = lo.toNat + 2 ^ 32 * hi.toNat := by
  have lowA := lo.toNat_lt
  have lowB := hi.toNat_lt
  have placed : (hi.toUInt64 <<< 32).toNat = hi.toNat * 2 ^ 32 := by
    simp [Nat.shiftLeft_eq]
    omega
  rw [UInt64.toNat_or, placed, UInt32.toNat_toUInt64, or_mul_two_pow lowA, Nat.mul_comm]

theorem takeU16_parses (w : UInt16) : Parses (takeU16 false) (leBytes 2 w.toNat) (w, false) := by
  obtain ⟨a, b, bytes⟩ := List.length_eq_two.mp (Packed.leBytes_length 2 w.toNat)
  have word : a.toUInt16 ||| (b.toUInt16 <<< 8) = w := by
    rw [← UInt16.toNat_inj, leNat_u16, ← bytes, Packed.leNat_leBytes]
    exact Nat.mod_eq_of_lt w.toNat_lt
  rw [bytes, ← word]
  exact (takeU8_parses a).bind ((takeU8_parses b).bind (.done _))

theorem takeU32_parses (w : UInt32) : Parses (takeU32 false) (leBytes 4 w.toNat) (w, false) := by
  obtain ⟨a, b, c, d, bytes⟩ : ∃ a b c d, leBytes 4 w.toNat = [a, b, c, d] := ⟨_, _, _, _, rfl⟩
  have word : a.toUInt32 ||| (b.toUInt32 <<< 8) ||| (c.toUInt32 <<< 16) ||| (d.toUInt32 <<< 24) = w := by
    rw [← UInt32.toNat_inj, leNat_u32, ← bytes, Packed.leNat_leBytes]
    exact Nat.mod_eq_of_lt w.toNat_lt
  rw [bytes, ← word]
  exact (takeU8_parses a).bind ((takeU8_parses b).bind ((takeU8_parses c).bind ((takeU8_parses d).bind (.done _))))

/-- A 64-bit word is spelled by its two halves. -/
theorem leBytes_u64 (w : UInt64) : leBytes 8 w.toNat = leBytes 4 (UInt32.ofNat w.toNat).toNat ++
    leBytes 4 (UInt32.ofNat (w.toNat / 2 ^ 32)).toNat := by
  rw [UInt32.toNat_ofNat', UInt32.toNat_ofNat', show 2 ^ 32 = 256 ^ 4 by decide, Packed.leBytes_mod,
    Packed.leBytes_mod]
  exact Packed.leBytes_add 4 4 w.toNat

theorem takeU64_parses (w : UInt64) : Parses (takeU64 false) (leBytes 8 w.toNat) (w, false) := by
  have word : (UInt32.ofNat w.toNat).toUInt64 ||| ((UInt32.ofNat (w.toNat / 2 ^ 32)).toUInt64 <<< 32) = w := by
    have bound := w.toNat_lt
    rw [← UInt64.toNat_inj, word_u64, UInt32.toNat_ofNat', UInt32.toNat_ofNat']
    omega
  rw [leBytes_u64]
  conv => arg 3; rw [← word]
  exact (takeU32_parses _).bind ((takeU32_parses _).last rfl)

section
variable {C : LuaConf}

/-- The scalar under its own tag is read as what the wire kept of it. -/
theorem takeScalar_parses (v : LuaScalar C) :
    Parses (takeScalar v.tag false) (wirePayload v) (.value v.received, false) := by
  cases v with
  | boolean b => exact (takeU8_parses (if b then 1 else 0)).last (by cases b <;> rfl)
  | integer v => exact (takeU64_parses (C.toInt64 v)).last (by rw [C.ofInt64_toInt64]; rfl)
  | number x =>
    refine (takeU64_parses (canonicalizeNan64 (C.toDouble x))).last ?_
    rw [LuaScalar.received, LuaScalar.canonical_number]
    · rfl
    · intro x same
      cases same
  | string bytes =>
    have counted := takeU32_parses (UInt32.ofNat bytes.length)
    rw [UInt32.toNat_ofNat', show 2 ^ 32 = 256 ^ 4 by decide, Packed.leBytes_mod] at counted
    have piece : Parses (Reader.take (UInt32.ofNat bytes.length)) (bytes.take (bytes.length % 2 ^ 32))
        (some (bytes.take (bytes.length % 2 ^ 32))) := by
      refine .take ?_
      rw [List.length_take, UInt32.toNat_ofNat']
      exact min_eq_left (Nat.mod_le ..)
    exact counted.bind (piece.last rfl)

theorem sequenceAt_append {α : Type} (elems : List α) (v : α) (k : LuaKey) :
    sequenceAt (elems ++ [v]) k =
      if k = .integer (elems.length + 1) then some v else sequenceAt elems k := by
  cases k with
  | string bytes => rfl
  | other id => rfl
  | integer i =>
    simp only [sequenceAt, LuaKey.integer.injEq]
    by_cases next : i = elems.length + 1
    · have index : (i - 1).toNat = elems.length := by omega
      rw [if_pos next, if_pos (by omega), index, List.getElem?_concat_length]
    · rw [if_neg next]
      split
      · rename_i positive
        rw [List.getElem?_append]
        split
        · rfl
        · rename_i beyond
          rw [List.getElem?_eq_none (by simp; omega), List.getElem?_eq_none (by omega)]
      · rfl

theorem IsSequence.set {a : LuaTable (LuaElem C)} {elems : List (LuaScalar C)} (sequence : IsSequence a elems)
    (room : a.size + 1 < 2 ^ 32) (v : LuaScalar C) :
    IsSequence (a.set (.integer (elems.length + 1)) (.scalar v)) (elems ++ [v]) := by
  intro k
  rw [LuaTable.get?_set room, sequenceAt_append]
  split
  · rfl
  · exact sequence k

theorem isSequence_empty : IsSequence (.empty : LuaTable (LuaElem C)) [] := by
  intro k
  cases k with
  | integer i => simp [sequenceAt]
  | string bytes => rfl
  | other id => rfl

/-- The loop of `unflatten_array` over the payloads of `elems`, after those of `seen`. -/
theorem unflattenElems_parses {tag : UInt8} {elems : List (LuaScalar C)} (tags : ∀ v ∈ elems, v.tag = tag)
    {a : LuaTable (LuaElem C)} {seen : List (LuaScalar C)}
    (sequence : IsSequence a seen) (room : a.size + elems.length < 2 ^ 32) (stack : List (LuaObj C)) :
    ∃ a', IsSequence a' (seen ++ elems.map LuaScalar.received) ∧
      Parses (unflattenElems tag elems.length seen.length false (.array a :: stack))
        (elems.flatMap wirePayload) ⟨.ok, false, .array a' :: stack⟩ := by
  induction elems generalizing a seen with
  | nil => exact ⟨a, by simpa using sequence, .done _⟩
  | cons v elems ih =>
    rw [List.length_cons] at room
    have grown := a.size_set_le (.integer (seen.length + 1)) (.scalar v.received)
    obtain ⟨a', sequence', rest⟩ := ih (fun w member => tags w (List.mem_cons_of_mem _ member))
      (sequence.set (by omega) v.received) (by omega)
    refine ⟨a', by simpa using sequence', ?_⟩
    rw [List.length_append] at rest
    have head := takeScalar_parses v
    rw [tags v List.mem_cons_self] at head
    exact head.bind rest

def LuaElem.map (g : LuaScalar C → LuaScalar C) : LuaElem C → LuaElem C
  | .scalar v => .scalar (g v)
  | .other => .other

/-- A field and the field it becomes when `g` is done to every scalar in it; an array
keeps its keys. -/
inductive LuaField.Maps (g : LuaScalar C → LuaScalar C) : LuaField C → LuaField C → Prop
  | scalar (v : LuaScalar C) : Maps g (.scalar v) (.scalar (g v))
  | array {a a' : LuaTable (LuaElem C)} (same : ∀ k, a'.get? k = (a.get? k).map (LuaElem.map g)) :
      Maps g (.table a) (.table a')

/-- A field and what comes back of it: the same, but every NaN the canonical one. -/
def LuaField.RoundTripped : LuaField C → LuaField C → Prop := Maps LuaScalar.canonical

/-- The strings in a field are short, those of its elements among them. -/
def LuaField.Short (bound : Nat) : LuaField C → Prop
  | .scalar v => v.Short bound
  | .table a => ∀ k v, a.get? k = some (.scalar v) → v.Short bound
  | .other => True

theorem LuaField.Maps.roundTripped {f f' : LuaField C} (maps : f.Maps LuaScalar.received f')
    (short : f.Short (2 ^ 32)) : f.RoundTripped f' := by
  cases maps with
  | scalar v =>
    rw [LuaScalar.received_of_short short]
    exact .scalar v
  | @array a a' same =>
    refine .array fun k => ?_
    rw [same]
    cases here : a.get? k with
    | none => rfl
    | some e =>
      cases e with
      | other => rfl
      | scalar v => exact congrArg (some ∘ LuaElem.scalar) (LuaScalar.received_of_short (short k v here))

/-- The stack value a field is read as. -/
def LuaField.obj : LuaField C → LuaObj C
  | .scalar v => .scalar v
  | .table a => .array a
  | .other => .nil

theorem rawSet_obj {f f' : LuaField C} (maps : f.Maps LuaScalar.received f') (key : List UInt8) (t : LuaTable (LuaField C))
    (stack : List (LuaObj C)) :
    rawSet (f'.obj :: .scalar (.string key) :: .record t :: stack) = .record (t.set (.string key) f') :: stack := by
  cases maps <;> rfl

theorem sequenceAt_map {α β : Type} (g : α → β) (elems : List α) (k : LuaKey) :
    sequenceAt (elems.map g) k = (sequenceAt elems k).map g := by
  cases k with
  | string bytes => rfl
  | other id => rfl
  | integer i =>
    simp only [sequenceAt, List.getElem?_map]
    split <;> rfl

theorem unflattenValue_parses {f : LuaField C} {bytes : List UInt8} (wire : Wire f bytes)
    (stack : List (LuaObj C)) :
    ∃ f' : LuaField C, f.Maps LuaScalar.received f' ∧
      Parses (unflattenValue false stack) bytes ⟨.ok, false, f'.obj :: stack⟩ := by
  cases wire with
  | scalar v =>
    have scalar_tag : v.tag ≠ ltfTagArray := by cases v <;> simp only [LuaScalar.tag] <;> decide
    refine ⟨_, .scalar v, (takeU8_parses v.tag).bind ?_⟩
    dsimp only
    rw [if_neg Bool.false_ne_true, if_neg scalar_tag]
    exact (takeScalar_parses v).last rfl
  | @array a elems tag sequence count tags =>
    obtain ⟨a', sequence', run⟩ := unflattenElems_parses tags isSequence_empty (by rw [LuaTable.size_empty]; omega) stack
    rw [List.nil_append] at sequence'
    refine ⟨.table a', .array fun k => ?_, ?_⟩
    · rw [sequence', sequence, sequenceAt_map]
      cases sequenceAt elems k <;> rfl
    · have word : (UInt32.ofNat elems.length).toNat = elems.length :=
        UInt32.toNat_ofNat_of_lt' (by show _ < 2 ^ 32; omega)
      have counted := takeU32_parses (UInt32.ofNat elems.length)
      rw [word] at counted
      have header : Parses (unflattenArray false stack) (tag :: leBytes 4 elems.length ++ elems.flatMap wirePayload)
          ⟨.ok, false, .array a' :: stack⟩ := by
        refine (takeU8_parses tag).bind (counted.bind ?_)
        dsimp only
        rw [if_neg Bool.false_ne_true, word]
        exact run
      exact (takeU8_parses ltfTagArray).bind header

theorem unflattenFields_parses {t : LuaTable (LuaField C)} {keys : List (List UInt8)} {bytes : List UInt8}
    (fields : WireFields t keys bytes) (lengths : ∀ key ∈ keys, key.length ≤ ltfMaxKeyLen)
    {u : LuaTable (LuaField C)}
    (room : u.size + keys.length < 2 ^ 32) (stack : List (LuaObj C)) :
    ∃ t', Parses (unflattenFields keys.length false (.record u :: stack)) bytes ⟨.ok, false, .record t' :: stack⟩ ∧
      (∀ key ∈ keys, Option.Rel (LuaField.Maps LuaScalar.received) (t.get? (.string key))
        (t'.get? (.string key))) ∧
      ∀ k, k ∉ keys.map LuaKey.string → t'.get? k = u.get? k := by
  induction fields generalizing u with
  | nil => exact ⟨u, .done _, by simp, fun _ _ => rfl⟩
  | @cons key keys f bytes more here wire rest ih =>
    rw [List.length_cons] at room
    obtain ⟨f', maps, value⟩ := unflattenValue_parses wire (.scalar (.string key) :: .record u :: stack)
    have grown := u.size_set_le (.string key) f'
    obtain ⟨t', run, related, frame⟩ := ih (fun key member => lengths key (List.mem_cons_of_mem _ member))
      (u := u.set (.string key) f') (by omega)
    have bound : key.length ≤ 64 := lengths key List.mem_cons_self
    have half : (UInt16.ofNat key.length).toNat = key.length := UInt16.toNat_ofNat_of_lt' (by show _ < 2 ^ 16; omega)
    have counted := takeU16_parses (UInt16.ofNat key.length)
    rw [half] at counted
    have piece : Parses (Reader.take (UInt16.ofNat key.length).toUInt32) key (some key) :=
      .take (by rw [UInt16.toNat_toUInt32, half])
    refine ⟨t', ?_, ?_, ?_⟩
    · rw [List.append_assoc, List.append_assoc]
      refine counted.bind ?_
      dsimp only
      rw [if_neg (by rw [half]; simpa [ltfMaxKeyLen] using bound)]
      refine piece.bind (value.bind ?_)
      dsimp only
      rw [if_neg (by simp), rawSet_obj maps]
      exact run
    · intro other member
      by_cases later : other ∈ keys
      · exact related other later
      · obtain rfl := (List.mem_cons.mp member).resolve_right later
        rw [frame _ (by simpa using later), LuaTable.get?_set (by omega), if_pos rfl, here]
        exact .some maps
    · intro k outside
      rw [List.map_cons, List.mem_cons, not_or] at outside
      rw [frame k outside.2, LuaTable.get?_set (by omega), if_neg outside.1]

/-- A whole table's wire format is read back as that table. -/
theorem luaTableUnflatten_wire {t : LuaTable (LuaField C)} {keys : List (List UInt8)} {bytes : List UInt8}
    (wire : WireTable t keys bytes)
    (small : bytes.length < 2 ^ 32) (stack : List (LuaObj C)) :
    ∃ t', (luaTableUnflatten bytes stack).value = ⟨.ok, false, .record t' :: stack⟩ ∧
      (∀ g ∈ (luaTableUnflatten bytes stack).grants, g.Sound bytes) ∧ ∀ k, Option.Rel (LuaField.Maps LuaScalar.received) (t.get? k) (t'.get? k) := by
  obtain ⟨more, fields, rfl⟩ := wire.fields
  have count : keys.length ≤ 32 := wire.count
  obtain ⟨t', run, related, frame⟩ := unflattenFields_parses fields wire.lengths (u := .empty)
    (by rw [LuaTable.size_empty]; omega) stack
  have word : (UInt32.ofNat keys.length).toNat = keys.length :=
    UInt32.toNat_ofNat_of_lt' (by show _ < 2 ^ 32; omega)
  have counted := takeU32_parses (UInt32.ofNat keys.length)
  rw [word] at counted
  have whole : Parses (unflattenTable stack) (leBytes 4 keys.length ++ more) ⟨.ok, false, .record t' :: stack⟩ := by
    refine counted.bind ?_
    dsimp only
    rw [if_neg Bool.false_ne_true, word, if_neg (Nat.not_lt.mpr wire.count)]
    exact run
  refine ⟨t', (whole.whole small).1, (whole.whole small).2, fun k => ?_⟩
  by_cases listed : k ∈ keys.map LuaKey.string
  · obtain ⟨key, member, rfl⟩ := List.mem_map.mp listed
    exact related key member
  · have absent : t.get? k = none := by
      by_contra present
      obtain ⟨f, here⟩ := Option.ne_none_iff_exists'.mp present
      exact listed (wire.all.symm.subset (LuaTable.mem_keys_iff.mpr ⟨f, here⟩))
    rw [frame k listed, absent, LuaTable.get?_empty]
    exact .none

theorem LuaField.Short.mono {f : LuaField C} {n m : Nat} (le : n ≤ m) (short : f.Short n) : f.Short m := by
  cases f with
  | scalar v => exact LuaScalar.Short.mono le short
  | table a => exact fun k v at_k => (short k v at_k).mono le
  | other => trivial

theorem rel_of_rel {α β : Type} {R S : α → β → Prop} {x : Option α} {y : Option β} (rel : Option.Rel R x y)
    (weaker : ∀ a b, x = some a → R a b → S a b) : Option.Rel S x y := by
  cases rel with
  | none => exact .none
  | some related => exact .some (weaker _ _ rfl related)

/-- Whatever `lua_table_flatten` accepts, `lua_table_unflatten` rebuilds: the same
keys, and at each the same value, arrays element by element. -/
theorem luaTableUnflatten_luaTableFlatten {v : LuaArg C} {cap : UInt32} {r : Flattened}
    (run : luaTableFlatten v cap = .returns r) (ok : r.rc = .ok)
    (short : ∀ t, v = .table t → ∀ k f, t.get? k = some f → f.Short (2 ^ 31)) (stack : List (LuaObj C)) :
    r.outLen.toNat = r.written.length ∧ ∃ t t', v = .table t ∧
      (luaTableUnflatten (r.written.take r.outLen.toNat) stack).value.rc = .ok ∧
      (luaTableUnflatten (r.written.take r.outLen.toNat) stack).value.stack = .record t' :: stack ∧
      ∀ k, Option.Rel LuaField.RoundTripped (t.get? k) (t'.get? k) := by
  obtain ⟨t, -, -, rfl, -, -, -, -, length⟩ := luaTableFlatten_ok run ok
  obtain ⟨keys, wire⟩ := luaTableFlatten_wire run ok
  obtain ⟨t', value, -, related⟩ := luaTableUnflatten_wire wire (length ▸ r.outLen.toNat_lt) stack
  rw [length, List.take_length, value]
  refine ⟨rfl, t, t', rfl, rfl, rfl, fun k => ?_⟩
  exact rel_of_rel (related k) fun f f' at_k maps => maps.roundTripped ((short t rfl k f at_k).mono (by decide))

end

/-- An array of one NaN under `xs`, and a string under `id`. -/
def nanTable : LuaTable (LuaField luaConf64) :=
  (LuaTable.empty.set (.string [0x78, 0x73])
    (.table (LuaTable.empty.set (.integer 1) (.scalar (.number (0x7ff0000000000001 : F64)))))).set
    (.string [0x69, 0x64]) (.scalar (.string [0x6f, 0x6b]))

theorem nanTable_flat : luaTableFlatten (.table nanTable) 256 =
    .returns ⟨.ok, 33, [2, 0, 0, 0, 2, 0, 0x69, 0x64, 4, 2, 0, 0, 0, 0x6f, 0x6b,
      2, 0, 0x78, 0x73, 5, 3, 1, 0, 0, 0, 0, 0, 0, 0, 0, 0, 0xf8, 0x7f]⟩ := by decide +kernel

theorem nanTable_short (k : LuaKey) (f : LuaField luaConf64) (here : nanTable.get? k = some f) : f.Short (2 ^ 31) := by
  rw [nanTable, LuaTable.get?_set (by decide)] at here
  split at here
  · cases here
    exact (by decide : 2 < 2 ^ 31)
  · rw [LuaTable.get?_set (by decide)] at here
    split at here
    · cases here
      intro k v at_k
      rw [LuaTable.get?_set (by decide)] at at_k
      split at at_k
      · cases at_k
        trivial
      · cases at_k
    · cases here

theorem nanTable_comes_back :
    ∃ t' : LuaTable (LuaField luaConf64),
      (luaTableUnflatten [2, 0, 0, 0, 2, 0, 0x69, 0x64, 4, 2, 0, 0, 0, 0x6f, 0x6b,
        2, 0, 0x78, 0x73, 5, 3, 1, 0, 0, 0, 0, 0, 0, 0, 0, 0, 0xf8, 0x7f] []).value.stack = [.record t'] ∧
      ∀ k, Option.Rel LuaField.RoundTripped (nanTable.get? k) (t'.get? k) := by
  obtain ⟨-, t, t', same, -, stack, related⟩ := luaTableUnflatten_luaTableFlatten nanTable_flat rfl
    (fun t same k f here => by cases same; exact nanTable_short k f here) []
  cases same
  exact ⟨t', stack, related⟩

end Blyt
