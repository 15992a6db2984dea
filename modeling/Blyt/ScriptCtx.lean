import Blyt.FlattenAccepts
import Blyt.ScriptBlob

namespace Blyt

namespace LuaTable
variable {V : Type} {t u : LuaTable V}

/-- The same entries, which `lua_next` may meet in another order. -/
def Same (t u : LuaTable V) : Prop := t.entries.Perm u.entries

theorem Same.get? (same : t.Same u) (k : LuaKey) : t.get? k = u.get? k := AList.perm_lookup same

theorem entries_nodup (t : LuaTable V) : t.entries.Nodup := t.keys_nodup.of_map _

theorem same_of_get? (alike : ∀ k, t.get? k = u.get? k) : t.Same u := by
  refine (List.perm_ext_iff_of_nodup t.entries_nodup u.entries_nodup).mpr fun e => ?_
  obtain ⟨k, x⟩ := e
  rw [mem_entries_iff, mem_entries_iff, alike]

end LuaTable

theorem LuaField.Alike.refl {C : LuaConf} (f : LuaField C) : f.Alike f := by
  cases f with
  | scalar v => exact .scalar (.refl v)
  | other => exact .other
  | table a =>
    refine .table fun k => ?_
    cases a.get? k with
    | none => exact .none
    | some e =>
      cases e with
      | scalar v => exact .some (.scalar (.refl v))
      | other => exact .some .other

/-- The table a script keeps its state in. -/
abbrev ScriptCtx (C : LuaConf) := LuaTable (LuaField C)

/-- A Lua value that a field can hold, or nil. -/
abbrev LuaValue (C : LuaConf) := Option (LuaField C)

namespace ScriptCtx
open LuaTable
variable {C : LuaConf} {ctx ctx' : ScriptCtx C}

/-- Every field is a scalar that reaches the other end of the wire as it is. -/
def Plain (ctx : ScriptCtx C) : Prop := ∀ k f, ctx.get? k = some f → ∃ v : LuaScalar C, f = .scalar v ∧ v.received = v

/-- The slot of the script can hold it. -/
def Fits (ctx : ScriptCtx C) : Prop := ∃ bytes, consoleTableFlatten ctx = .returns (.ok bytes)

/-- The blob does not depend on the order of the entries. -/
theorem flatten_same (same : ctx.Same ctx') {bytes : List UInt8} (flat : consoleTableFlatten ctx = .returns (.ok bytes)) :
    consoleTableFlatten ctx' = .returns (.ok bytes) := by
  obtain ⟨r, run, ok, -⟩ := consoleTableFlatten_ok flat
  obtain ⟨t, names, out, is, collected, -⟩ := luaTableFlatten_ok run ok
  cases is
  have fields : ∀ k, Option.Rel LuaField.Alike (ctx.get? k) (ctx'.get? k) := by
    intro k
    rw [same.get? k]
    cases ctx'.get? k with
    | none => exact .none
    | some f => exact .some (.refl f)
  rcases collectKeys_perm (same.map Sigma.fst) (Unambiguous.of_ok collected) with
    ⟨rc, failed, -⟩ | ⟨names', names'', first, second, perm⟩
  · rw [collected] at failed
    cases failed
  · rw [← flat, consoleTableFlatten, consoleTableFlatten, luaTableFlatten_congr fields first second perm]

theorem Fits.same (fits : Fits ctx) (same : ctx.Same ctx') : Fits ctx' := by
  obtain ⟨bytes, flat⟩ := fits
  exact ⟨bytes, flatten_same same flat⟩

/-- A plain `ctx` comes back from its blob, up to the order of its entries. -/
theorem Plain.restored (plain : Plain ctx) {bytes : List UInt8} (flat : consoleTableFlatten ctx = .returns (.ok bytes)) :
    ∃ ctx', consoleTableUnflatten C bytes = .returns (.ok ctx') ∧ ctx.Same ctx' := by
  obtain ⟨r, run, ok, rfl⟩ := consoleTableFlatten_ok flat
  obtain ⟨t, names, out, is, -, -, clean, written, -⟩ := luaTableFlatten_ok run ok
  cases is
  obtain ⟨keys, wire⟩ := luaTableFlatten_wire run ok
  have bound : r.written.length ≤ 256 := by
    rw [written]
    exact out.fits clean.2
  obtain ⟨ctx', value, sound, related⟩ := luaTableUnflatten_wire wire (by omega) []
  have alike : ∀ k, ctx.get? k = ctx'.get? k := by
    intro k
    have here := related k
    generalize found : ctx.get? k = x at here
    generalize ctx'.get? k = y at here ⊢
    cases here with
    | none => rfl
    | @some f f' maps =>
      obtain ⟨v, rfl, whole⟩ := plain k f found
      cases maps
      rw [whole]
  have whole : r.written.take (r.written.length % 2 ^ 32) = r.written := by
    rw [Nat.mod_eq_of_lt (by omega), List.take_length]
  refine ⟨ctx', ?_, same_of_get? alike⟩
  simp only [consoleTableUnflatten, whole, if_pos sound, value]

/-- What has the constrained shape fits. -/
theorem fits_of_accepted (accepted : Accepted ctx 256) (short : ∀ k f, ctx.get? k = some f → f.Short (2 ^ 31)) :
    Fits ctx := by
  obtain ⟨names, collected⟩ := accepted.collected
  have half : (256 : UInt32).toNat < 2 ^ 31 := by decide
  obtain ⟨r, run, -, ok, -⟩ := (flattenExact_of_header collected short (by decide)).mpr
    (fieldsInWord_of_half half (keySort_brief collected) short (by decide))
  refine ⟨r.written.take r.outLen.toNat, ?_⟩
  have nonneg : ¬r.rc.code < 0 := by
    rw [ok.mpr ⟨ctx, rfl, accepted⟩]
    decide
  have flat : luaTableFlatten (.table ctx) (UInt32.ofNat persistentScriptSlotBytes) = .returns r := run
  rw [consoleTableFlatten, flat, Exec.returns_bind, if_neg nonneg]
  rfl

/-- A field as an entry of the table. -/
def entry (f : List UInt8 × LuaScalar C) : Sigma fun _ : LuaKey => LuaField C := ⟨.string f.1, .scalar f.2⟩

/-- The table has these fields and no others. -/
def Holds (ctx : ScriptCtx C) (fields : List (List UInt8 × LuaScalar C)) : Prop := ctx.entries.Perm (fields.map entry)

/-- Without the field `name` are left the others. -/
theorem kerase_fields {fields : List (List UInt8 × LuaScalar C)} (distinct : (fields.map Prod.fst).Nodup)
    (name : List UInt8) : (fields.map entry).kerase (.string name) = (fields.filter fun f => f.1 ≠ name).map entry := by
  induction fields with
  | nil => rfl
  | cons f fields ih =>
    rw [List.map_cons, List.nodup_cons] at distinct
    rw [List.map_cons]
    by_cases same : f.1 = name
    · have others : ∀ g ∈ fields, decide (g.1 ≠ name) = true := by
        intro g member
        rw [decide_eq_true_eq, ← same]
        rintro again
        exact distinct.1 (again ▸ List.mem_map_of_mem member)
      rw [List.kerase_cons_eq (congrArg LuaKey.string same).symm, List.filter_cons_of_neg (by simpa using same),
        List.filter_eq_self.mpr others]
    · have apart : LuaKey.string name ≠ (entry f).1 := fun key => same (LuaKey.string.inj key).symm
      rw [List.kerase_cons_ne apart, ih distinct.2, List.filter_cons_of_pos (by simpa using same), List.map_cons]

namespace Holds
variable {fields : List (List UInt8 × LuaScalar C)} {name : List UInt8} {v : LuaScalar C}

theorem same (holds : Holds ctx fields) (alike : ctx.Same ctx') : Holds ctx' fields :=
  List.Perm.trans (List.Perm.symm alike) holds

theorem perm {fields' : List (List UInt8 × LuaScalar C)} (holds : Holds ctx fields) (order : fields.Perm fields') :
    Holds ctx fields' := List.Perm.trans holds (order.map _)

theorem distinct (holds : Holds ctx fields) : (fields.map Prod.fst).Nodup := by
  have keys : (ctx.entries.map Sigma.fst).Perm ((fields.map entry).map Sigma.fst) := List.Perm.map Sigma.fst holds
  have nodup := keys.nodup_iff.mp ctx.keys_nodup
  rw [List.map_map, show Sigma.fst ∘ entry = LuaKey.string ∘ Prod.fst (β := LuaScalar C) from rfl, ← List.map_map] at nodup
  exact nodup.of_map _

theorem get? (holds : Holds ctx fields) (member : (name, v) ∈ fields) : ctx.get? (.string name) = some (.scalar v) :=
  mem_entries_iff.mp (holds.mem_iff.mpr (List.mem_map_of_mem member))

theorem absent (holds : Holds ctx fields) (missing : name ∉ fields.map Prod.fst) : ctx.get? (.string name) = none := by
  by_contra present
  obtain ⟨f, here⟩ := Option.ne_none_iff_exists'.mp present
  obtain ⟨field, member, is⟩ := List.mem_map.mp (holds.mem_iff.mp (mem_entries_iff.mpr here))
  have key : field.1 = name := LuaKey.string.inj (congrArg Sigma.fst is)
  exact missing (key ▸ List.mem_map_of_mem member)

/-- A field that is stored comes to the front. -/
theorem set (holds : Holds ctx fields) (room : fields.length + 1 < 2 ^ 32) (name : List UInt8) (v : LuaScalar C) :
    Holds (ctx.set (.string name) (.scalar v)) ((name, v) :: fields.filter fun f => f.1 ≠ name) := by
  have length : ctx.size = fields.length := holds.length_eq.trans (List.length_map _)
  have grown := ctx.length_insert_le (.string name) (.scalar v)
  have kept := List.Perm.kerase ctx.pairs.nodupKeys holds (a := LuaKey.string name)
  rw [kerase_fields holds.distinct] at kept
  rw [LuaTable.set, dif_pos (by omega)]
  exact kept.cons _

theorem forall_get? (holds : Holds ctx fields) {P : LuaField C → Prop} (each : ∀ f ∈ fields, P (.scalar f.2)) :
    ∀ k f, ctx.get? k = some f → P f := by
  intro k f here
  obtain ⟨field, member, is⟩ := List.mem_map.mp (holds.mem_iff.mp (mem_entries_iff.mpr here))
  cases is
  exact each field member

theorem plain (holds : Holds ctx fields) (whole : ∀ f ∈ fields, f.2.received = f.2) : Plain ctx :=
  holds.forall_get? fun f member => ⟨f.2, rfl, whole f member⟩

/-- The size of the blob is known from the fields. -/
theorem fits (holds : Holds ctx fields) (few : fields.length ≤ ltfMaxFields)
    (brief : ∀ f ∈ fields, f.1.length ≤ ltfMaxKeyLen)
    (room : 4 + (fields.map fun f => 3 + f.1.length + f.2.payloadSize).sum ≤ 256) : Fits ctx := by
  have size : ctx.encodedSize = 4 + (fields.map fun f => 3 + f.1.length + f.2.payloadSize).sum := by
    rw [LuaTable.encodedSize, (List.Perm.map _ holds).sum_nat, List.map_map]
    congr 2
    refine List.map_congr_left fun f _ => ?_
    show 2 + f.1.length + (1 + f.2.payloadSize) = _
    omega
  have short : ∀ k f, ctx.get? k = some f → f.Short (2 ^ 31) := by
    refine holds.forall_get? fun f member => ?_
    have part := List.single_le_sum (fun _ _ => Nat.zero_le _) _
      (List.mem_map_of_mem (f := fun f : List UInt8 × LuaScalar C => 3 + f.1.length + f.2.payloadSize) member)
    show f.2.Short (2 ^ 31)
    cases value : f.2 with
    | string bytes =>
      have size : f.2.payloadSize = 4 + bytes.length := by rw [value]; rfl
      show bytes.length < 2 ^ 31
      omega
    | _ => trivial
  refine fits_of_accepted ⟨?_, fun e member => ?_, fun e member => ?_, ?_⟩ short
  · exact (holds.length_eq.trans (List.length_map _)).trans_le few
  · obtain ⟨f, inside, rfl⟩ := List.mem_map.mp (holds.mem_iff.mp member)
    exact ⟨f.1, rfl, brief f inside⟩
  · obtain ⟨f, inside, rfl⟩ := List.mem_map.mp (holds.mem_iff.mp member)
    exact trivial
  · rw [size]
    exact room

end Holds
end ScriptCtx
end Blyt
