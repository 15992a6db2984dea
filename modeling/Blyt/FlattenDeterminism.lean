import Mathlib.Data.List.Perm.Basic
import Blyt.FlattenWire

namespace Blyt

section
variable {C : LuaConf}

/-- Two scalars that are written alike. -/
def LuaScalar.Alike (v w : LuaScalar C) : Prop :=
  v.tag = w.tag ∧ ∀ {cap : UInt32} (out : Sink cap), emitPayload v out = emitPayload w out

inductive LuaElem.Alike : LuaElem C → LuaElem C → Prop
  | scalar {v w : LuaScalar C} (alike : v.Alike w) : Alike (.scalar v) (.scalar w)
  | other : Alike .other .other

inductive LuaField.Alike : LuaField C → LuaField C → Prop
  | scalar {v w : LuaScalar C} (alike : v.Alike w) : Alike (.scalar v) (.scalar w)
  | table {a b : LuaTable (LuaElem C)} (alike : ∀ k, Option.Rel LuaElem.Alike (a.get? k) (b.get? k)) :
      Alike (.table a) (.table b)
  | other : Alike .other .other

theorem LuaScalar.Alike.refl (v : LuaScalar C) : v.Alike v := ⟨rfl, fun _ => rfl⟩

theorem isSome_eq_of_rel {α β : Type} {R : α → β → Prop} {x : Option α} {y : Option β} (rel : Option.Rel R x y) :
    x.isSome = y.isSome := by
  cases rel <;> rfl

theorem detectLoop_congr {a b : LuaTable (LuaElem C)} (alike : ∀ k, Option.Rel LuaElem.Alike (a.get? k) (b.get? k))
    (tag : UInt8) (n left : Nat) : detectLoop a tag n left = detectLoop b tag n left := by
  induction left generalizing tag n with
  | zero => rfl
  | succ left ih =>
    rw [detectLoop, detectLoop]
    have here := alike (.integer (n + 1))
    generalize a.get? (.integer (n + 1)) = x at here ⊢
    generalize b.get? (.integer (n + 1)) = y at here ⊢
    cases here with
    | none => rfl
    | some related =>
      cases related with
      | other => rfl
      | scalar same => simp only [same.1, ih]

theorem detectArray_congr {a b : LuaTable (LuaElem C)}
    (alike : ∀ k, Option.Rel LuaElem.Alike (a.get? k) (b.get? k)) : detectArray a = detectArray b := by
  have size : a.size = b.size := LuaTable.size_eq fun k => isSome_eq_of_rel (alike k)
  rw [detectArray, detectArray, detectLoop_congr alike, size]

theorem emitElem_congr {a b : LuaTable (LuaElem C)} (alike : ∀ k, Option.Rel LuaElem.Alike (a.get? k) (b.get? k))
    {cap : UInt32} (out : Sink cap) (i : Nat) : emitElem a out i = emitElem b out i := by
  unfold emitElem
  have here := alike (.integer (i + 1))
  generalize a.get? (.integer (i + 1)) = x at here ⊢
  generalize b.get? (.integer (i + 1)) = y at here ⊢
  cases here with
  | none => rfl
  | some related =>
    cases related with
    | other => rfl
    | scalar same => simp only [same.2]

theorem emitArray_congr {a b : LuaTable (LuaElem C)} (alike : ∀ k, Option.Rel LuaElem.Alike (a.get? k) (b.get? k))
    {cap : UInt32} (out : Sink cap) : emitArray a out = emitArray b out := by
  have elems : (emitElem a : Sink cap → Nat → Sink cap) = emitElem b := funext fun out => funext fun i => emitElem_congr alike out i
  rw [emitArray, emitArray, detectArray_congr alike, elems]

theorem emitValue_congr {f g : Option (LuaField C)} (alike : Option.Rel LuaField.Alike f g) {cap : UInt32}
    (out : Sink cap) : emitValue f out = emitValue g out := by
  cases alike with
  | none => rfl
  | some related =>
    cases related with
    | other => rfl
    | scalar same => simp only [emitValue, same.1, same.2]
    | table same => exact emitArray_congr same out

theorem emitFields_congr {t u : LuaTable (LuaField C)} (alike : ∀ k, Option.Rel LuaField.Alike (t.get? k) (u.get? k))
    (keys : List (List UInt8)) {cap : UInt32} (out : Sink cap) : emitFields t keys out = emitFields u keys out := by
  induction keys generalizing out with
  | nil => rfl
  | cons key keys ih =>
    rw [emitFields, emitFields, emitValue_congr (alike (.string key))]
    simp only [ih]

/-- The same field, `lua_next` meeting the entries of a nested table in another order. -/
inductive LuaField.Reordered : LuaField C → LuaField C → Prop
  | scalar (v : LuaScalar C) : Reordered (.scalar v) (.scalar v)
  | table {a b : LuaTable (LuaElem C)} (perm : a.entries.Perm b.entries) : Reordered (.table a) (.table b)
  | other : Reordered .other .other

/-- The same table with its entries, and those of its nested tables, in another order. -/
def LuaTable.Reordered (t u : LuaTable (LuaField C)) : Prop :=
  ∀ k, Option.Rel LuaField.Reordered (t.get? k) (u.get? k)

theorem LuaField.Reordered.both {f g h : LuaField C} (first : f.Reordered g) (second : f.Reordered h) :
    g.Reordered h := by
  cases first with
  | scalar v => exact second
  | other => exact second
  | table perm =>
    cases second with
    | table perm' => exact .table (perm.symm.trans perm')

theorem LuaField.Reordered.alike {f g : LuaField C} (reordered : f.Reordered g) : f.Alike g := by
  cases reordered with
  | scalar v => exact .scalar (.refl v)
  | other => exact .other
  | @table a b perm =>
    refine .table fun k => ?_
    have same : a.get? k = b.get? k := AList.perm_lookup perm
    rw [same]
    cases b.get? k with
    | none => exact .none
    | some e =>
      cases e with
      | scalar v => exact .some (.scalar (.refl v))
      | other => exact .some .other

theorem LuaTable.Reordered.both {t u v : LuaTable (LuaField C)} (first : t.Reordered u) (second : t.Reordered v) :
    u.Reordered v := by
  intro k
  have left := first k
  have right := second k
  generalize t.get? k = x, u.get? k = y, v.get? k = z at left right ⊢
  cases left with
  | none => exact right
  | some related =>
    cases right with
    | some related' => exact .some (related.both related')

theorem LuaTable.Reordered.alike {t u : LuaTable (LuaField C)} (reordered : t.Reordered u) (k : LuaKey) :
    Option.Rel LuaField.Alike (t.get? k) (u.get? k) := by
  have here := reordered k
  generalize t.get? k = x, u.get? k = y at here ⊢
  cases here with
  | none => exact .none
  | some related => exact .some related.alike

theorem LuaTable.Reordered.keys_perm {t u : LuaTable (LuaField C)} (reordered : t.Reordered u) :
    (t.entries.map Sigma.fst).Perm (u.entries.map Sigma.fst) :=
  LuaTable.keys_perm fun k => isSome_eq_of_rel (reordered k)

def LuaKey.isForeign : LuaKey → Bool
  | .string _ => false
  | _ => true

/-- A string key of more than `LTF_MAX_KEY_LEN` bytes. -/
def LuaKey.isLong : LuaKey → Bool
  | .string bytes => decide (ltfMaxKeyLen < bytes.length)
  | _ => false

def LuaKey.isFitting : LuaKey → Bool
  | .string bytes => decide (bytes.length ≤ ltfMaxKeyLen)
  | _ => false

theorem LuaKey.isFitting_of_isLong {k : LuaKey} (long : k.isLong = true) : k.isFitting = false := by
  cases k with
  | string bytes => exact decide_eq_false (Nat.not_le.mpr (of_decide_eq_true long))
  | integer i => rfl
  | other id => rfl

/-- At most one of the three errors of the key collection can be met first, in
whatever order the keys come. -/
structure Unambiguous (keys : List LuaKey) : Prop where
  foreign_long : ¬(0 < keys.countP LuaKey.isForeign ∧ 0 < keys.countP LuaKey.isLong)
  foreign_many : ¬(0 < keys.countP LuaKey.isForeign ∧ ltfMaxFields < keys.countP LuaKey.isFitting)
  long_many : ¬(0 < keys.countP LuaKey.isLong ∧ ltfMaxFields ≤ keys.countP LuaKey.isFitting)

theorem Unambiguous.perm {keys keys' : List LuaKey} (unambiguous : Unambiguous keys) (perm : keys.Perm keys') :
    Unambiguous keys' := by
  obtain ⟨foreign_long, foreign_many, long_many⟩ := unambiguous
  rw [perm.countP_eq, perm.countP_eq] at foreign_long foreign_many long_many
  exact ⟨foreign_long, foreign_many, long_many⟩

theorem collectKeys_error_of {entries : List (Sigma fun _ : LuaKey => LuaField C)} {seen : List (List UInt8)}
    {rc : Ltf} (run : collectKeys entries seen = .error rc) :
    rc = .nonStringKey ∧ 0 < (entries.map Sigma.fst).countP LuaKey.isForeign ∨
      rc = .keyTooLong ∧ 0 < (entries.map Sigma.fst).countP LuaKey.isLong ∨
      rc = .overflow ∧ (ltfMaxFields < seen.length + (entries.map Sigma.fst).countP LuaKey.isFitting ∨
        ltfMaxFields ≤ seen.length + (entries.map Sigma.fst).countP LuaKey.isFitting ∧
          0 < (entries.map Sigma.fst).countP LuaKey.isLong) := by
  induction entries generalizing seen with
  | nil => cases run
  | cons entry rest ih =>
    obtain ⟨k, f⟩ := entry
    simp only [List.map_cons, List.countP_cons]
    cases k with
    | integer i =>
      cases run
      exact Or.inl ⟨rfl, by simp [LuaKey.isForeign]⟩
    | other id =>
      cases run
      exact Or.inl ⟨rfl, by simp [LuaKey.isForeign]⟩
    | string bytes =>
      rw [collectKeys] at run
      split at run
      · rename_i full
        cases run
        refine Or.inr (Or.inr ⟨rfl, ?_⟩)
        by_cases long : ltfMaxKeyLen < bytes.length
        · exact Or.inr ⟨by omega, by simp [LuaKey.isLong, long]⟩
        · exact Or.inl (by simp only [LuaKey.isFitting, Nat.le_of_not_gt long, decide_true, if_true]; omega)
      · split at run
        · rename_i long
          cases run
          exact Or.inr (Or.inl ⟨rfl, by simp [LuaKey.isLong, long]⟩)
        · rename_i fits
          have fits' : bytes.length ≤ ltfMaxKeyLen := Nat.le_of_not_gt fits
          have later := ih run
          simp only [LuaKey.isForeign, LuaKey.isLong, LuaKey.isFitting, Nat.not_lt.mpr fits', fits', List.length_append,
            List.length_singleton, decide_true, decide_false, if_true, Bool.false_eq_true, if_false] at later ⊢
          rcases later with foreign | long | ⟨code, many⟩
          · exact Or.inl foreign
          · exact Or.inr (Or.inl long)
          · exact Or.inr (Or.inr ⟨code, by omega⟩)

theorem collectKeys_ok_of {entries : List (Sigma fun _ : LuaKey => LuaField C)} {keys : List (List UInt8)}
    (run : collectKeys entries [] = .ok keys) :
    (entries.map Sigma.fst).countP LuaKey.isForeign = 0 ∧ (entries.map Sigma.fst).countP LuaKey.isLong = 0 ∧
      (entries.map Sigma.fst).countP LuaKey.isFitting ≤ ltfMaxFields := by
  obtain ⟨all, count, lengths⟩ := collectKeys_ok run (Nat.zero_le _) (by simp)
  rw [List.map_nil, List.nil_append] at all
  rw [← all, List.countP_eq_zero, List.countP_eq_zero]
  refine ⟨?_, ?_, (List.countP_le_length).trans (by rwa [List.length_map])⟩
  · intro k member
    obtain ⟨key, -, rfl⟩ := List.mem_map.mp member
    exact Bool.false_ne_true
  · intro k member
    obtain ⟨key, inside, rfl⟩ := List.mem_map.mp member
    simpa [LuaKey.isLong] using lengths key inside

theorem Unambiguous.of_ok {entries : List (Sigma fun _ : LuaKey => LuaField C)} {keys : List (List UInt8)}
    (run : collectKeys entries [] = .ok keys) : Unambiguous (entries.map Sigma.fst) := by
  obtain ⟨foreign, long, -⟩ := collectKeys_ok_of run
  exact ⟨by omega, by omega, by omega⟩

/-- Two enumerations of one table fail with the same code, or collect the same keys. -/
theorem collectKeys_perm {entries entries' : List (Sigma fun _ : LuaKey => LuaField C)}
    (perm : (entries.map Sigma.fst).Perm (entries'.map Sigma.fst))
    (unambiguous : Unambiguous (entries.map Sigma.fst)) :
    (∃ rc, collectKeys entries [] = .error rc ∧ collectKeys entries' [] = .error rc) ∨
      ∃ keys keys', collectKeys entries [] = .ok keys ∧ collectKeys entries' [] = .ok keys' ∧ keys.Perm keys' := by
  obtain ⟨foreign_long, foreign_many, long_many⟩ := unambiguous
  have foreign := perm.countP_eq LuaKey.isForeign
  have long := perm.countP_eq LuaKey.isLong
  have fitting := perm.countP_eq LuaKey.isFitting
  cases first : collectKeys entries [] with
  | error rc =>
    have possible := collectKeys_error_of first
    cases second : collectKeys entries' [] with
    | error rc' =>
      have possible' := collectKeys_error_of second
      refine Or.inl ⟨rc, rfl, ?_⟩
      rw [List.length_nil, Nat.zero_add] at possible possible'
      rcases possible with ⟨rfl, _⟩ | ⟨rfl, _⟩ | ⟨rfl, _⟩ <;> rcases possible' with ⟨rfl, _⟩ | ⟨rfl, _⟩ | ⟨rfl, _⟩ <;>
        first | rfl | (exfalso; omega)
    | ok keys' =>
      have none := collectKeys_ok_of second
      rw [List.length_nil, Nat.zero_add] at possible
      omega
  | ok keys =>
    have none := collectKeys_ok_of first
    cases second : collectKeys entries' [] with
    | error rc' =>
      have possible' := collectKeys_error_of second
      rw [List.length_nil, Nat.zero_add] at possible'
      omega
    | ok keys' =>
      have all := (collectKeys_ok first (Nat.zero_le _) (by simp)).1
      have all' := (collectKeys_ok second (Nat.zero_le _) (by simp)).1
      rw [List.map_nil, List.nil_append] at all all'
      rw [← all, ← all'] at perm
      exact Or.inr ⟨keys, keys', rfl, rfl, (List.map_perm_map_iff fun _ _ => LuaKey.string.inj).mp perm⟩

/-- Two calls end alike: both return the same code, and with `LTF_OK` the same length and
the same bytes, or both store outside the buffer. -/
inductive SameOutcome : Exec Flattened → Exec Flattened → Prop
  | returns {r s : Flattened} (code : r.rc = s.rc) (length : r.rc = .ok → r.outLen = s.outLen)
      (bytes : r.rc = .ok → r.written = s.written) : SameOutcome (.returns r) (.returns s)
  | outOfBounds : SameOutcome .outOfBounds .outOfBounds

theorem SameOutcome.refl (x : Exec Flattened) (ends : x ≠ .spins) : SameOutcome x x := by
  cases x with
  | returns r => exact .returns rfl (fun _ => rfl) fun _ => rfl
  | spins => exact absurd rfl ends
  | outOfBounds => exact .outOfBounds

theorem luaTableFlatten_ne_spins (v : LuaArg C) (cap : UInt32) : luaTableFlatten v cap ≠ .spins := by
  unfold luaTableFlatten
  split
  · nofun
  · split
    · nofun
    · dsimp only
      split_ifs <;> nofun

theorem luaTableFlatten_error {t : LuaTable (LuaField C)} {rc : Ltf} (run : collectKeys t.entries [] = .error rc)
    (cap : UInt32) : luaTableFlatten (.table t) cap = .returns ⟨rc, 0, []⟩ := by
  simp only [luaTableFlatten, run]

/-- Tables with the same keys and fields written alike come to the same end, whatever order
their keys were collected in. -/
theorem luaTableFlatten_congr {t u : LuaTable (LuaField C)}
    (alike : ∀ k, Option.Rel LuaField.Alike (t.get? k) (u.get? k)) {keys keys' : List (List UInt8)}
    (first : collectKeys t.entries [] = .ok keys) (second : collectKeys u.entries [] = .ok keys')
    (perm : keys.Perm keys') (cap : UInt32) :
    luaTableFlatten (.table t) cap = luaTableFlatten (.table u) cap := by
  simp only [luaTableFlatten, first, second, keySort_eq_of_perm perm, perm.length_eq, emitFields_congr alike]

/-- The entries whose keys satisfy `p` moved to the front. -/
def LuaTable.arrange {V : Type} (t : LuaTable V) (p : LuaKey → Bool) : LuaTable V where
  pairs := ⟨t.entries.filter (fun e => p e.1) ++ t.entries.filter fun e => !p e.1,
    (List.perm_nodupKeys (List.filter_append_perm _ _)).mpr t.pairs.nodupKeys⟩
  small := by
    rw [(List.filter_append_perm (fun e => p e.1) t.entries).length_eq]
    exact t.small

theorem LuaTable.reordered_arrange (t : LuaTable (LuaField C)) (p : LuaKey → Bool) : t.Reordered (t.arrange p) := by
  intro k
  have same : t.get? k = (t.arrange p).get? k := AList.perm_lookup (List.filter_append_perm _ _).symm
  rw [← same]
  cases t.get? k with
  | none => exact .none
  | some f =>
    cases f with
    | scalar v => exact .some (.scalar v)
    | table a => exact .some (.table (.refl _))
    | other => exact .some .other

theorem LuaTable.arrange_head {V : Type} (t : LuaTable V) {p : LuaKey → Bool}
    (some : 0 < (t.entries.map Sigma.fst).countP p) :
    ∃ k f rest, p k = true ∧ (t.arrange p).entries = ⟨k, f⟩ :: rest := by
  rw [List.countP_map, List.countP_eq_length_filter] at some
  obtain ⟨⟨k, f⟩, rest, front⟩ := List.exists_cons_of_length_pos some
  have moved : (⟨k, f⟩ : Sigma fun _ : LuaKey => V) ∈ t.entries.filter (p ∘ Sigma.fst) := front ▸ List.mem_cons_self
  have holds : p k = true := (List.mem_filter.mp moved).2
  refine ⟨k, f, rest ++ t.entries.filter fun e => !p e.1, holds, ?_⟩
  rw [← List.cons_append, ← front]
  rfl

theorem collectKeys_foreign_first (t : LuaTable (LuaField C))
    (foreign : 0 < (t.entries.map Sigma.fst).countP LuaKey.isForeign) :
    collectKeys (t.arrange LuaKey.isForeign).entries [] = .error .nonStringKey := by
  obtain ⟨k, f, rest, isForeign, front⟩ := t.arrange_head foreign
  rw [front]
  cases k with
  | string bytes => cases isForeign
  | integer i => rfl
  | other id => rfl

theorem collectKeys_long_first (t : LuaTable (LuaField C))
    (long : 0 < (t.entries.map Sigma.fst).countP LuaKey.isLong) :
    collectKeys (t.arrange LuaKey.isLong).entries [] = .error .keyTooLong := by
  obtain ⟨k, f, rest, isLong, front⟩ := t.arrange_head long
  rw [front]
  cases k with
  | string bytes => rw [collectKeys, if_neg (by decide), if_pos (of_decide_eq_true isLong)]
  | integer i => cases isLong
  | other id => cases isLong

/-- One string more than the key array holds. -/
theorem collectKeys_full {entries rest : List (Sigma fun _ : LuaKey => LuaField C)} {bytes : List UInt8}
    {f : LuaField C} {seen : List (List UInt8)} (fitting : ∀ e ∈ entries, LuaKey.isFitting e.1 = true)
    (full : seen.length + entries.length = ltfMaxFields) :
    collectKeys (entries ++ ⟨.string bytes, f⟩ :: rest) seen = .error .overflow := by
  induction entries generalizing seen with
  | nil => rw [List.nil_append, collectKeys, if_pos (by simpa using full.ge)]
  | cons entry entries ih =>
    obtain ⟨k, g⟩ := entry
    have fits := fitting _ List.mem_cons_self
    rw [List.length_cons] at full
    cases k with
    | string key =>
      rw [List.cons_append, collectKeys, if_neg (by omega), if_neg (Nat.not_lt.mpr (of_decide_eq_true fits))]
      exact ih (fun e member => fitting e (List.mem_cons_of_mem _ member)) (by simp; omega)
    | integer i => cases fits
    | other id => cases fits

/-- A table with more strings than fit meets the end of the key array, when its
fitting keys come first. -/
theorem collectKeys_fitting_first (t : LuaTable (LuaField C))
    (many : ltfMaxFields ≤ (t.entries.map Sigma.fst).countP LuaKey.isFitting)
    (another : ltfMaxFields < (t.entries.map Sigma.fst).countP LuaKey.isFitting ∨
      (t.entries.map Sigma.fst).countP LuaKey.isForeign = 0 ∧ 0 < (t.entries.map Sigma.fst).countP LuaKey.isLong) :
    collectKeys (t.arrange LuaKey.isFitting).entries [] = .error .overflow := by
  have fitting : ∀ e ∈ t.entries.filter (fun e => e.1.isFitting), e.1.isFitting = true := fun e member =>
    (List.mem_filter.mp member).2
  have count : (t.entries.map Sigma.fst).countP LuaKey.isFitting =
      (t.entries.filter fun e => e.1.isFitting).length := by
    rw [List.countP_map, List.countP_eq_length_filter]
    rfl
  have arranged : (t.arrange LuaKey.isFitting).entries =
      t.entries.filter (fun e => e.1.isFitting) ++ t.entries.filter fun e => !e.1.isFitting := rfl
  rw [count] at many another
  rw [arranged]
  by_cases more : ltfMaxFields < (t.entries.filter fun e => e.1.isFitting).length
  · -- the key after the last that fits is itself a fitting one
    have next := List.getElem_mem more
    have split := List.take_append_drop ltfMaxFields (t.entries.filter fun e => e.1.isFitting)
    rw [List.drop_eq_getElem_cons more] at split
    generalize (t.entries.filter fun e => e.1.isFitting)[ltfMaxFields] = e at next split
    obtain ⟨k, f⟩ := e
    have fits := fitting _ next
    rw [← split, List.append_assoc, List.cons_append]
    cases k with
    | string bytes =>
      exact collectKeys_full (fun e member => fitting e (List.mem_of_mem_take member))
        (by rw [List.length_nil, List.length_take]; omega)
    | integer i => cases fits
    | other id => cases fits
  · obtain ⟨none, long⟩ := another.resolve_left more
    obtain ⟨k, key_mem, isLong⟩ := List.countP_pos_iff.mp long
    obtain ⟨e, e_mem, rfl⟩ := List.mem_map.mp key_mem
    have behind : e ∈ t.entries.filter fun e => !e.1.isFitting :=
      List.mem_filter.mpr ⟨e_mem, by rw [LuaKey.isFitting_of_isLong isLong]; rfl⟩
    obtain ⟨⟨k, f⟩, rest, back⟩ := List.exists_cons_of_ne_nil (List.ne_nil_of_mem behind)
    have first : (⟨k, f⟩ : Sigma fun _ : LuaKey => LuaField C) ∈ t.entries :=
      (List.mem_filter.mp (back ▸ List.mem_cons_self : _ ∈ t.entries.filter fun e => !e.1.isFitting)).1
    have known := List.countP_eq_zero.mp none k (List.mem_map.mpr ⟨_, first, rfl⟩)
    rw [back]
    cases k with
    | string bytes => exact collectKeys_full fitting (by rw [List.length_nil]; omega)
    | integer i => exact absurd rfl known
    | other id => exact absurd rfl known

/-- The outcome of `lua_table_flatten` does not depend on the order of `lua_next`
exactly when no order lets two different errors of the key collection come first. -/
theorem luaTableFlatten_deterministic_iff (t : LuaTable (LuaField C)) :
    (∀ (cap : UInt32) (u v : LuaTable (LuaField C)), t.Reordered u → t.Reordered v →
      SameOutcome (luaTableFlatten (.table u) cap) (luaTableFlatten (.table v) cap)) ↔
      Unambiguous (t.entries.map Sigma.fst) := by
  constructor
  · intro same
    have clash : ∀ {p q : LuaKey → Bool} {rc rc' : Ltf}, collectKeys (t.arrange p).entries [] = .error rc →
        collectKeys (t.arrange q).entries [] = .error rc' → rc = rc' := by
      intro p q rc rc' first second
      have outcome := same 0 _ _ (t.reordered_arrange p) (t.reordered_arrange q)
      rw [luaTableFlatten_error first, luaTableFlatten_error second] at outcome
      cases outcome with
      | returns code _ _ => exact code
    refine ⟨?_, ?_, ?_⟩
    · rintro ⟨foreign, long⟩
      exact Ltf.noConfusion (clash (collectKeys_foreign_first t foreign) (collectKeys_long_first t long))
    · rintro ⟨foreign, many⟩
      exact Ltf.noConfusion (clash (collectKeys_foreign_first t foreign)
        (collectKeys_fitting_first t many.le (Or.inl many)))
    · rintro ⟨long, many⟩
      by_cases foreign : (t.entries.map Sigma.fst).countP LuaKey.isForeign = 0
      · exact Ltf.noConfusion (clash (collectKeys_long_first t long)
          (collectKeys_fitting_first t many (Or.inr ⟨foreign, long⟩)))
      · exact Ltf.noConfusion (clash (collectKeys_foreign_first t (Nat.pos_of_ne_zero foreign))
          (collectKeys_long_first t long))
  · intro unambiguous cap u v first second
    have reordered := first.both second
    have same : luaTableFlatten (.table u) cap = luaTableFlatten (.table v) cap := by
      rcases collectKeys_perm reordered.keys_perm (unambiguous.perm first.keys_perm) with ⟨rc, left, right⟩ | ⟨names, names', left, right, perm⟩
      · rw [luaTableFlatten_error left, luaTableFlatten_error right]
      · exact luaTableFlatten_congr reordered.alike left right perm cap
    rw [← same]
    exact .refl _ (luaTableFlatten_ne_spins (.table u) cap)

end

/-- A table with a boolean key and a string key of 65 bytes. -/
def mixedKeys : LuaTable (LuaField luaConf64) :=
  (LuaTable.empty.set (.other 0) (.scalar (.boolean true))).set (.string (List.replicate 65 0x6b))
    (.scalar (.boolean true))

/-- The code it is refused with is that of the key `lua_next` meets first. -/
theorem mixedKeys_order_shows :
    ¬∀ (cap : UInt32) (u v : LuaTable (LuaField luaConf64)), mixedKeys.Reordered u → mixedKeys.Reordered v →
      SameOutcome (luaTableFlatten (.table u) cap) (luaTableFlatten (.table v) cap) := by
  intro same
  have outcome := same 256 _ _ (mixedKeys.reordered_arrange LuaKey.isForeign)
    (mixedKeys.reordered_arrange LuaKey.isLong)
  have foreign : luaTableFlatten (.table (mixedKeys.arrange LuaKey.isForeign)) 256 =
      .returns ⟨.nonStringKey, 0, []⟩ := by decide +kernel
  have long : luaTableFlatten (.table (mixedKeys.arrange LuaKey.isLong)) 256 =
      .returns ⟨.keyTooLong, 0, []⟩ := by decide +kernel
  rw [foreign, long] at outcome
  cases outcome with
  | returns code _ _ => exact Ltf.noConfusion code

end Blyt
