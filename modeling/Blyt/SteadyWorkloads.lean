import Blyt.ManagedWorkloads

namespace Blyt
variable {C : LuaConf}

namespace ScriptCtx.Holds
open LuaTable
variable {ctx : ScriptCtx C} {fields front back : List (List UInt8 × LuaScalar C)} {name : String} {v : LuaScalar C}

theorem field_at (front back : List (List UInt8 × LuaScalar C)) (holds : Holds ctx (front ++ (ascii name, v) :: back)) :
    ctx.field name = some (.scalar v) :=
  holds.get? (List.mem_append_right _ List.mem_cons_self)

/-- A field that is there is replaced. -/
theorem put_at (front back : List (List UInt8 × LuaScalar C)) (holds : Holds ctx (front ++ (ascii name, v) :: back))
    (room : front.length + back.length < 256) (w : LuaScalar C) :
    Holds (ctx.put name w) (front ++ (ascii name, w) :: back) := by
  have distinct := holds.distinct
  rw [List.map_append, List.map_cons, List.nodup_middle, List.nodup_cons, List.mem_append, not_or] at distinct
  obtain ⟨⟨missing, missing'⟩, -⟩ := distinct
  have apart : ∀ others : List (List UInt8 × LuaScalar C), ascii name ∉ others.map Prod.fst →
      (others.filter fun f => f.1 ≠ ascii name) = others := by
    intro others missing
    refine List.filter_eq_self.mpr fun f member => ?_
    rw [decide_eq_true_eq]
    exact fun same => missing (same ▸ List.mem_map_of_mem member)
  have small : (front ++ (ascii name, v) :: back).length + 1 < 2 ^ 32 := by
    rw [List.length_append, List.length_cons]
    omega
  have stored := holds.set small (ascii name) w
  rw [List.filter_append, List.filter_cons_of_neg (by simp), apart front missing, apart back missing'] at stored
  exact stored.perm List.perm_middle.symm

/-- A new field is added. -/
theorem put_new (holds : Holds ctx fields) (missing : ascii name ∉ fields.map Prod.fst) (room : fields.length < 256)
    (w : LuaScalar C) : Holds (ctx.put name w) (fields ++ [(ascii name, w)]) := by
  have apart : (fields.filter fun f => f.1 ≠ ascii name) = fields := by
    refine List.filter_eq_self.mpr fun f member => ?_
    rw [decide_eq_true_eq]
    exact fun same => missing (same ▸ List.mem_map_of_mem member)
  have stored := holds.set (by omega) (ascii name) w
  rw [apart] at stored
  exact stored.perm (List.perm_append_singleton _ _).symm

end ScriptCtx.Holds

/-- Without a mark the body is at the top of its loop. -/
theorem ScriptCtx.atTop_of_absent {ctx : ScriptCtx C} (absent : ctx.field "pc" = none) : ctx.atTop = true := by
  rw [atTop, absent]
  exact beq_self_eq_true (ascii "loop_top")

theorem ScriptCtx.atTop_of_marked {ctx : ScriptCtx C} {mark : String}
    (marked : ctx.field "pc" = some (.scalar (.string (ascii mark)))) :
    ctx.atTop = (ascii mark == ascii "loop_top") := by
  rw [atTop, marked]
  rfl

/-- Fields whose table comes back as it is from a slot. -/
structure SlotFields (fields : List (List UInt8 × LuaScalar C)) : Prop where
  few : fields.length ≤ ltfMaxFields
  brief : ∀ f ∈ fields, f.1.length ≤ ltfMaxKeyLen
  room : 4 + (fields.map fun f => 3 + f.1.length + f.2.payloadSize).sum ≤ 256
  whole : ∀ f ∈ fields, f.2.received = f.2

/-- A body that makes of known fields known fields, whether it goes on or begins again, and moves the objects in a way
that does not depend on its `ctx`, is steady. -/
theorem ScriptBody.steady_of_fields {P : Type} {body : ScriptBody P C} {N : Nat} {places : Nat → P}
    {fields : Nat → List (List UInt8 × LuaScalar C)} (slots : ∀ n, SlotFields (fields n))
    (turns : ∀ n < N, ∀ s, ∃ s', s'.fs.frame = s.fs.frame ∧
      ((∀ j, (s.cs j).Canonical) → ∀ j, (s'.cs j).Canonical) ∧
      ∀ ctx, ScriptCtx.Holds ctx (fields n) → ∃ ctx', ScriptCtx.Holds ctx' (fields (n + 1)) ∧
        body.turn (places n) s ctx = (s', ctx', .yields (places (n + 1))) ∧
        body.turn body.entry s ctx = (s', ctx', .yields (places (n + 1)))) :
    body.Steady (fun n place ctx => place = places n ∧ ScriptCtx.Holds ctx (fields n)) N where
  yields := by
    rintro n place ctx ⟨rfl, holds⟩ before s
    obtain ⟨s', frame, canonical, run⟩ := turns n before s
    obtain ⟨ctx', next, ran, -⟩ := run ctx holds
    exact ⟨s', ctx', places (n + 1), ran, ⟨rfl, next⟩, frame, canonical⟩
  reentrant := by
    rintro n place ctx ⟨rfl, holds⟩ before s
    obtain ⟨s', -, -, run⟩ := turns n before s
    obtain ⟨ctx', -, ran, again⟩ := run ctx holds
    exact again.trans ran.symm
  stable := by
    rintro n place ctx ⟨here, holds⟩ ctx' same
    exact ⟨here, holds.same same⟩
  same := by
    rintro n place ctx ⟨rfl, holds⟩ before ctx' same s s₁ ctx₁ place' ran
    obtain ⟨s', -, -, run⟩ := turns n before s
    obtain ⟨ctx₂, next, ran₂, -⟩ := run ctx holds
    obtain ⟨ctx₂', next', ran₂', -⟩ := run ctx' (holds.same same)
    rw [ran₂] at ran
    cases ran
    exact ⟨ctx₂', ran₂', List.Perm.trans next (List.Perm.symm next')⟩
  fits := by
    rintro n place ctx ⟨-, holds⟩
    exact holds.fits (slots n).few (slots n).brief (slots n).room
  plain := by
    rintro n place ctx ⟨-, holds⟩
    exact holds.plain (slots n).whole

/-- So is one that touches nothing but its `ctx`. -/
theorem steady_of_fields {P : Type} {entry : P} {turn : P → ScriptCtx C → ScriptCtx C × BodyStop P} {N : Nat}
    {places : Nat → P} {fields : Nat → List (List UInt8 × LuaScalar C)} (slots : ∀ n, SlotFields (fields n))
    (turns : ∀ n < N, ∀ ctx, ScriptCtx.Holds ctx (fields n) → ∃ ctx', ScriptCtx.Holds ctx' (fields (n + 1)) ∧
      turn (places n) ctx = (ctx', .yields (places (n + 1))) ∧ turn entry ctx = (ctx', .yields (places (n + 1)))) :
    (ScriptBody.ofCtx entry turn).Steady (fun n place ctx => place = places n ∧ ScriptCtx.Holds ctx (fields n)) N := by
  refine ScriptBody.steady_of_fields slots fun n before s => ⟨s, rfl, id, fun ctx holds => ?_⟩
  obtain ⟨ctx', next, ran, again⟩ := turns n before ctx holds
  exact ⟨ctx', next, congrArg (Prod.mk s) ran, congrArg (Prod.mk s) again⟩

section
variable (arith : LuaArith C) {N : Nat}

theorem advance_holds {P : Type} {n : Nat} {a : LuaScalar C} {ctx : ScriptCtx C}
    (others : List (List UInt8 × LuaScalar C)) (small : n < 64) (few : others.length < 8)
    (holds : ScriptCtx.Holds ctx ((ascii "angle", a) :: (ascii "step", luaInt n) :: others)) :
    ∃ ctx', ScriptCtx.Holds ctx'
        ((ascii "angle", luaInt ((n + 1) * 17 % 360)) :: (ascii "step", luaInt (n + 1)) :: others) ∧
      ∀ rest : ScriptCtx C → ScriptCtx C × BodyStop P, advance arith ctx rest = rest ctx' := by
  have step := holds.field_at [_] others
  have counted := holds.put_at [_] others (by rw [List.length_singleton]; omega) (luaInt (n + 1))
  have later := counted.field_at [_] others
  refine ⟨_, counted.put_at [] (_ :: others) (by rw [List.length_cons, List.length_nil]; omega)
    (luaInt ((n + 1) * 17 % 360)), fun rest => ?_⟩
  rw [advance, step, arith.add_int n 1 (by omega), ScriptCtx.assign, later,
    arith.mul_int (n + 1) 17 (by omega) (by decide) (by omega), Option.bind_some,
    arith.mod_int ((n + 1) * 17) 360 (by omega) (by decide) (by decide)]
  rfl

theorem patrol_holds {P : Type} {n : Nat} {b : LuaScalar C} {ctx : ScriptCtx C}
    (others : List (List UInt8 × LuaScalar C)) (small : n < 64) (few : others.length < 8)
    (holds : ScriptCtx.Holds ctx ((ascii "chasing", b) :: (ascii "tics", luaInt n) :: others)) :
    ∃ ctx', ScriptCtx.Holds ctx'
        ((ascii "chasing", .boolean (decide (3 ≤ (n + 1) % 6))) :: (ascii "tics", luaInt (n + 1)) :: others) ∧
      ∀ rest : ScriptCtx C → ScriptCtx C × BodyStop P, patrol arith ctx rest = rest ctx' := by
  have tics := holds.field_at [_] others
  have counted := holds.put_at [_] others (by rw [List.length_singleton]; omega) (luaInt (n + 1))
  have later := counted.field_at [_] others
  refine ⟨_, counted.put_at [] (_ :: others) (by rw [List.length_cons, List.length_nil]; omega)
    (.boolean (decide (3 ≤ (n + 1) % 6))), fun rest => ?_⟩
  rw [patrol, tics, arith.add_int n 1 (by omega), ScriptCtx.assign, later,
    arith.mod_int (n + 1) 6 (by omega) (by decide) (by decide), Option.bind_some,
    arith.le_int 3 ((n + 1) % 6) (by decide) (by omega)]
  rfl

/-- A field that takes little room and reaches the other end of the wire as it is. -/
structure Compact (f : List UInt8 × LuaScalar C) : Prop where
  brief : f.1.length ≤ 16
  little : f.2.payloadSize ≤ 16
  whole : f.2.received = f.2

theorem compact_int {name : String} (brief : (ascii name).length ≤ 16) (n : Nat) :
    Compact (ascii name, (luaInt n : LuaScalar C)) := ⟨brief, show 8 ≤ 16 by decide, rfl⟩

theorem compact_boolean {name : String} (brief : (ascii name).length ≤ 16) (b : Bool) :
    Compact (ascii name, (.boolean b : LuaScalar C)) := ⟨brief, show 1 ≤ 16 by decide, rfl⟩

theorem compact_text {name : String} (brief : (ascii name).length ≤ 16) {text : String}
    (short : (ascii text).length ≤ 12) : Compact (ascii name, (.string (ascii text) : LuaScalar C)) := by
  refine ⟨brief, show 4 + (ascii text).length ≤ 16 by omega, ?_⟩
  exact LuaScalar.received_of_short (show (ascii text).length < 2 ^ 32 by omega)

theorem slotFields_of_compact {fields : List (List UInt8 × LuaScalar C)} (few : fields.length ≤ 6)
    (each : ∀ f ∈ fields, Compact f) : SlotFields fields where
  few := few.trans (by decide)
  brief f member := (each f member).brief.trans (by decide)
  room := by
    have most : (fields.map fun f => 3 + f.1.length + f.2.payloadSize).sum ≤ fields.length • 35 := by
      rw [← List.length_map (f := fun f : List UInt8 × LuaScalar C => 3 + f.1.length + f.2.payloadSize)]
      refine List.sum_le_card_nsmul _ _ fun size listed => ?_
      obtain ⟨f, member, rfl⟩ := List.mem_map.mp listed
      have one := each f member
      have brief := one.brief
      have little := one.little
      omega
    have product : fields.length • 35 = fields.length * 35 := rfl
    omega
  whole f member := (each f member).whole

namespace DetCutsceneLinear

def fields (n : Nat) : List (List UInt8 × LuaScalar C) :=
  [(ascii "angle", luaInt (n * 17 % 360)), (ascii "step", luaInt n)]

def places : Nat → BodyPlace
  | 0 => .top
  | _ + 1 => .afterA

theorem slots (n : Nat) : SlotFields (fields n : List (List UInt8 × LuaScalar C)) :=
  slotFields_of_compact (Nat.le_of_ble_eq_true rfl) (List.forall_mem_cons.mpr ⟨compact_int (by decide) _,
    List.forall_mem_singleton.mpr (compact_int (by decide) _)⟩)

/-- The state of the body after each number of turns. -/
def inv (n : Nat) (place : BodyPlace) (ctx : ScriptCtx C) : Prop := place = places n ∧ ScriptCtx.Holds ctx (fields n)

theorem steady (bound : N ≤ 30) : (body arith).Steady inv N := by
  refine steady_of_fields slots fun n before ctx holds => ?_
  have before : n < 30 := before.trans_le bound
  obtain ⟨ctx', next, ran⟩ := advance_holds arith (P := BodyPlace) [] (by omega) (show 0 < 8 by decide) holds
  have round : turn arith ctx = (ctx', .yields .afterA) := by
    rw [turn, holds.field_at [_] [], arith.lt_int n 30 (by omega) (by decide), decide_eq_true before]
    exact ran _
  exact ⟨ctx', next, round, round⟩

end DetCutsceneLinear

namespace DetCutsceneBranched

/-- The fields behind a round, where `others` come from the bonus. -/
def state (m : Nat) (mark : String) (others : List (List UInt8 × LuaScalar C)) : List (List UInt8 × LuaScalar C) :=
  (ascii "angle", luaInt (m * 17 % 360)) :: (ascii "step", luaInt m) :: (ascii "pc", .string (ascii mark)) :: others

def bonus (n : Nat) : List UInt8 × LuaScalar C := (ascii "bonus", luaInt n)

/-- Two of the turns belong to the bonus, and leave the step as it is. -/
def fields (n : Nat) : List (List UInt8 × LuaScalar C) :=
  if n = 0 then [(ascii "angle", luaInt 0), (ascii "step", luaInt 0)]
  else if n ≤ 12 then state n "after_a" []
  else if n = 13 then state 12 "after_b" [bonus 5]
  else if n = 14 then state 12 "after_c" [bonus 6]
  else state (n - 2) "after_a" [bonus 6]

def places (n : Nat) : BodyPlace :=
  if n = 0 then .top else if n = 13 then .afterB else if n = 14 then .afterC else .afterA

theorem fields_first {n : Nat} (positive : 0 < n) (early : n ≤ 12) :
    (fields n : List (List UInt8 × LuaScalar C)) = state n "after_a" [] := by
  rw [fields, if_neg (by omega), if_pos early]

theorem fields_last {n : Nat} (late : 15 ≤ n) :
    (fields n : List (List UInt8 × LuaScalar C)) = state (n - 2) "after_a" [bonus 6] := by
  rw [fields, if_neg (by omega), if_neg (by omega), if_neg (by omega), if_neg (by omega)]

/-- The fields are those of the start, or those of a round. -/
theorem fields_cases (n : Nat) :
    (fields n : List (List UInt8 × LuaScalar C)) = [(ascii "angle", luaInt 0), (ascii "step", luaInt 0)] ∨
      ∃ m mark others, (fields n : List (List UInt8 × LuaScalar C)) = state m mark others ∧ (ascii mark).length ≤ 12 ∧
        (others = [] ∨ ∃ k, others = [bonus k]) := by
  by_cases start : n = 0
  · exact .inl (by rw [fields, if_pos start])
  right
  by_cases early : n ≤ 12
  · exact ⟨n, "after_a", [], fields_first (by omega) early, by decide, .inl rfl⟩
  by_cases first : n = 13
  · exact ⟨12, "after_b", [bonus 5], by rw [first]; rfl, by decide, .inr ⟨5, rfl⟩⟩
  by_cases second : n = 14
  · exact ⟨12, "after_c", [bonus 6], by rw [second]; rfl, by decide, .inr ⟨6, rfl⟩⟩
  · exact ⟨n - 2, "after_a", [bonus 6], fields_last (by omega), by decide, .inr ⟨6, rfl⟩⟩

theorem places_other {n : Nat} (positive : 0 < n) (not13 : n ≠ 13) (not14 : n ≠ 14) : places n = .afterA := by
  rw [places, if_neg (by omega), if_neg not13, if_neg not14]

theorem compact_state {mark : String} (short : (ascii mark).length ≤ 12) {others : List (List UInt8 × LuaScalar C)}
    (each : ∀ f ∈ others, Compact f) (m : Nat) : ∀ f ∈ state m mark others, Compact f :=
  List.forall_mem_cons.mpr ⟨compact_int (by decide) _, List.forall_mem_cons.mpr ⟨compact_int (by decide) _,
    List.forall_mem_cons.mpr ⟨compact_text (by decide) short, each⟩⟩⟩

theorem slots (n : Nat) : SlotFields (fields n : List (List UInt8 × LuaScalar C)) := by
  rcases fields_cases n with start | ⟨m, mark, others, is, short, rfl | ⟨k, rfl⟩⟩
  · rw [start]
    exact DetCutsceneLinear.slots 0
  · have none : ∀ f ∈ ([] : List (List UInt8 × LuaScalar C)), Compact f := List.forall_mem_nil _
    rw [is]
    exact slotFields_of_compact (show 3 ≤ 6 by decide) (compact_state short none m)
  · rw [is]
    exact slotFields_of_compact (show 4 ≤ 6 by decide)
      (compact_state short (List.forall_mem_singleton.mpr (compact_int (by decide) k)) m)

section
variable {m : Nat} {mark : String} {others : List (List UInt8 × LuaScalar C)} {ctx : ScriptCtx C}

theorem phaseA_holds {m' : LuaScalar C} (before : m < 30) (few : others.length < 6)
    (holds : ScriptCtx.Holds ctx ((ascii "angle", m') :: (ascii "step", luaInt m) ::
      (ascii "pc", .string (ascii mark)) :: others)) :
    ∃ ctx', ScriptCtx.Holds ctx' (state (m + 1) "after_a" others) ∧ phaseA arith ctx = (ctx', .yields .afterA) := by
  obtain ⟨ctx', next, ran⟩ := advance_holds arith (P := BodyPlace) (_ :: others) (by omega)
    (by rw [List.length_cons]; omega) holds
  have room : [(ascii "angle", (luaInt ((m + 1) * 17 % 360) : LuaScalar C)), (ascii "step", luaInt (m + 1))].length +
      others.length < 256 := show 2 + others.length < 256 by omega
  exact ⟨_, next.put_at [_, _] others room (.string (ascii "after_a")), ran _⟩

/-- From the end of the loop's body to the next yield. -/
theorem bottom_holds (before : m < 30) (holds : ScriptCtx.Holds ctx (state m mark others)) (few : others.length < 6) :
    ∃ ctx', ScriptCtx.Holds ctx' (state (m + 1) "after_a" others) ∧ bottom arith ctx = (ctx', .yields .afterA) := by
  have room : [(ascii "angle", (luaInt (m * 17 % 360) : LuaScalar C)), (ascii "step", luaInt m)].length +
      others.length < 256 := show 2 + others.length < 256 by omega
  have looped := holds.put_at [_, _] others room (.string (ascii "loop_top"))
  obtain ⟨ctx', next, ran⟩ := phaseA_holds arith before few looped
  refine ⟨ctx', next, ?_⟩
  rw [bottom, looped.field_at [_] (_ :: others), arith.lt_int m 30 (by omega) (by decide), decide_eq_true before]
  exact ran

/-- Begun again with a mark, the body is behind the block of phase A. -/
theorem top_marked (before : m < 30) (other : (ascii mark == ascii "loop_top") = false)
    (holds : ScriptCtx.Holds ctx (state m mark others)) : turn arith .top ctx = behindA arith ctx := by
  have later := (ScriptCtx.atTop_of_marked (holds.field_at [_, _] others)).trans other
  rw [turn, holds.field_at [_] (_ :: others), arith.lt_int m 30 (by omega) (by decide), decide_eq_true before, later,
    if_neg Bool.false_ne_true]
  rfl

theorem behindA_other (before : m < 30) (other : m ≠ 12) (holds : ScriptCtx.Holds ctx (state m mark others)) :
    behindA arith ctx = bottom arith ctx := by
  rw [behindA, holds.field_at [_] (_ :: others), arith.eq_int m 12 (by omega) (by decide), decide_eq_false other,
    if_neg Bool.false_ne_true]

theorem behindA_twelve (holds : ScriptCtx.Holds ctx (state 12 mark others)) :
    behindA arith ctx = if ascii mark == ascii "after_a" then phaseB arith ctx else behindB arith ctx := by
  rw [behindA, holds.field_at [_] (_ :: others), arith.eq_int 12 12 (by decide) (by decide), decide_eq_true rfl,
    if_pos rfl, holds.field_at [_, _] others]
  rfl

theorem behindB_marked (holds : ScriptCtx.Holds ctx (state m mark others)) :
    behindB arith ctx = if ascii mark == ascii "after_b" then phaseC arith ctx else bottom arith ctx := by
  rw [behindB, holds.field_at [_, _] others]
  rfl

theorem phaseB_holds (holds : ScriptCtx.Holds ctx (state 12 "after_a" [])) : ∃ ctx',
    ScriptCtx.Holds ctx' (state 12 "after_b" [bonus 5]) ∧ phaseB arith ctx = (ctx', .yields .afterB) := by
  have missing : ascii "bonus" ∉ [ascii "angle", ascii "step", ascii "pc"] := by decide
  have nothing : ctx.field "bonus" = none := holds.absent missing
  have added := holds.put_new missing (show 3 < 256 by decide) (luaInt 5)
  refine ⟨_, added.put_at [_, _] [_] (show 3 < 256 by decide) (.string (ascii "after_b")), ?_⟩
  have given : LuaValue.or none (luaInt 0 : LuaScalar C) = some (.scalar (luaInt 0)) := rfl
  rw [phaseB, nothing, given, arith.add_int 0 5 (by decide)]
  rfl

theorem phaseC_holds (holds : ScriptCtx.Holds ctx (state 12 "after_b" [bonus 5])) : ∃ ctx',
    ScriptCtx.Holds ctx' (state 12 "after_c" [bonus 6]) ∧ phaseC arith ctx = (ctx', .yields .afterC) := by
  have added := holds.put_at [_, _, _] [] (show 3 < 256 by decide) (luaInt 6)
  refine ⟨_, added.put_at [_, _] [_] (show 3 < 256 by decide) (.string (ascii "after_c")), ?_⟩
  rw [phaseC, holds.field_at [_, _, _] [], arith.add_int 5 1 (by decide)]
  rfl

end

/-- What the frame loop reads of the `ctx` are integers, or no bonus yet. -/
theorem reads {n : Nat} {ctx : ScriptCtx C} (holds : ScriptCtx.Holds ctx (fields n)) :
    (∃ k, ctx.field "step" = some (.scalar (luaInt k))) ∧ (∃ k, ctx.field "angle" = some (.scalar (luaInt k))) ∧
      (ctx.field "bonus" = none ∨ ∃ k, ctx.field "bonus" = some (.scalar (luaInt k))) := by
  rcases fields_cases n with start | ⟨m, mark, others, is, -, rfl | ⟨k, rfl⟩⟩
  · rw [start] at holds
    have missing : ascii "bonus" ∉ [ascii "angle", ascii "step"] := by decide
    exact ⟨⟨0, holds.field_at [_] []⟩, ⟨0, holds.field_at [] [_]⟩, .inl (holds.absent missing)⟩
  · rw [is] at holds
    have missing : ascii "bonus" ∉ [ascii "angle", ascii "step", ascii "pc"] := by decide
    exact ⟨⟨m, holds.field_at [_] [_]⟩, ⟨_, holds.field_at [] [_, _]⟩, .inl (holds.absent missing)⟩
  · rw [is] at holds
    exact ⟨⟨m, holds.field_at [_] [_, _]⟩, ⟨_, holds.field_at [] [_, _, _]⟩, .inr ⟨k, holds.field_at [_, _, _] []⟩⟩

/-- The state of the body after each number of turns. -/
def inv (n : Nat) (place : BodyPlace) (ctx : ScriptCtx C) : Prop := place = places n ∧ ScriptCtx.Holds ctx (fields n)

theorem steady (bound : N ≤ 32) : (body arith).Steady inv N := by
  refine steady_of_fields slots fun n before ctx holds => ?_
  have before : n < 32 := before.trans_le bound
  by_cases start : n = 0
  · subst start
    have unmarked : ctx.field "pc" = none := holds.absent (show ascii "pc" ∉ [ascii "angle", ascii "step"] by decide)
    obtain ⟨ctx', next, ran⟩ := advance_holds arith (P := BodyPlace) (n := 0) [] (by decide)
      (show 0 < 8 by decide) holds
    have round : turn arith .top ctx = (ctx'.put "pc" (.string (ascii "after_a")), .yields .afterA) := by
      rw [turn, ScriptCtx.Holds.field_at [(ascii "angle", luaInt 0)] [] holds,
        arith.lt_int 0 30 (by decide) (by decide), ScriptCtx.atTop_of_absent unmarked, if_pos rfl]
      exact ran _
    have missing : ascii "pc" ∉ [ascii "angle", ascii "step"] := by decide
    exact ⟨_, next.put_new missing (show 2 < 256 by decide) _, round, round⟩
  by_cases early : n < 12
  · rw [fields_first (by omega) early.le] at holds
    obtain ⟨ctx', next, ran⟩ := bottom_holds arith (by omega) holds (show 0 < 6 by decide)
    have behind := (behindA_other arith (by omega) early.ne holds).trans ran
    rw [fields_first (by omega) early, places_other (by omega) (by omega) (by omega),
      places_other (by omega) (by omega) (by omega), top_marked arith (by omega) (by decide) holds]
    exact ⟨ctx', next, behind, behind⟩
  by_cases twelve : n = 12
  · subst twelve
    obtain ⟨ctx', next, ran⟩ := phaseB_holds arith holds
    have behind := (behindA_twelve arith holds).trans ran
    exact ⟨ctx', next, behind, (top_marked arith (by decide) (by decide) holds).trans behind⟩
  by_cases thirteen : n = 13
  · subst thirteen
    obtain ⟨ctx', next, ran⟩ := phaseC_holds arith holds
    have behind := (behindB_marked arith holds).trans ran
    have again := (top_marked arith (by decide) (by decide) holds).trans (behindA_twelve arith holds)
    exact ⟨ctx', next, behind, again.trans behind⟩
  by_cases fourteen : n = 14
  · subst fourteen
    obtain ⟨ctx', next, ran⟩ := bottom_holds arith (by decide) holds (show 1 < 6 by decide)
    have again := (top_marked arith (by decide) (by decide) holds).trans (behindA_twelve arith holds)
    exact ⟨ctx', next, ran, (again.trans (behindB_marked arith holds)).trans ran⟩
  · rw [fields_last (by omega)] at holds
    obtain ⟨ctx', next, ran⟩ := bottom_holds arith (by omega) holds (show 1 < 6 by decide)
    have behind := (behindA_other arith (by omega) (by omega) holds).trans ran
    have following : n - 2 + 1 = n + 1 - 2 := by omega
    rw [fields_last (by omega), places_other (by omega) (by omega) (by omega),
      places_other (by omega) (by omega) (by omega), top_marked arith (by omega) (by decide) holds, ← following]
    exact ⟨ctx', next, behind, behind⟩

end DetCutsceneBranched

namespace DetTwoScripts

/-- What a round makes of the fields of a body, whatever its mark is. -/
def Works (counter : String) (work : ScriptCtx C → (ScriptCtx C → ScriptCtx C × BodyStop BodyPlace) →
    ScriptCtx C × BodyStop BodyPlace) (data : Nat → LuaScalar C) (name : String) : Prop :=
  ∀ n < 30, ∀ ctx others, others.length < 8 →
    ScriptCtx.Holds ctx ((ascii name, data n) :: (ascii counter, luaInt n) :: others) →
      ∃ ctx', ScriptCtx.Holds ctx' ((ascii name, data (n + 1)) :: (ascii counter, luaInt (n + 1)) :: others) ∧
        ∀ rest, work ctx rest = rest ctx'

def fields (counter name : String) (data : Nat → LuaScalar C) : Nat → List (List UInt8 × LuaScalar C)
  | 0 => [(ascii name, data 0), (ascii counter, luaInt 0)]
  | n + 1 => [(ascii name, data (n + 1)), (ascii counter, luaInt (n + 1)), (ascii "pc", .string (ascii "after"))]

variable {counter name : String} {data : Nat → LuaScalar C}
  {work : ScriptCtx C → (ScriptCtx C → ScriptCtx C × BodyStop BodyPlace) → ScriptCtx C × BodyStop BodyPlace}

theorem slots (brief : (ascii counter).length ≤ 16) (compact : ∀ n, Compact (ascii name, data n)) (n : Nat) :
    SlotFields (fields counter name data n) := by
  cases n with
  | zero =>
    exact slotFields_of_compact (Nat.le_of_ble_eq_true rfl) (List.forall_mem_cons.mpr ⟨compact 0,
      List.forall_mem_singleton.mpr (compact_int brief 0)⟩)
  | succ n =>
    exact slotFields_of_compact (Nat.le_of_ble_eq_true rfl) (List.forall_mem_cons.mpr ⟨compact (n + 1),
      List.forall_mem_cons.mpr ⟨compact_int brief (n + 1),
        List.forall_mem_singleton.mpr (compact_text (by decide) (by decide))⟩⟩)

/-- The state of a body after each number of turns. -/
def inv (counter name : String) (data : Nat → LuaScalar C) (n : Nat) (place : BodyPlace) (ctx : ScriptCtx C) : Prop :=
  place = DetCutsceneLinear.places n ∧ ScriptCtx.Holds ctx (fields counter name data n)

theorem steady (bound : N ≤ 30) (works : Works counter work data name) (brief : (ascii counter).length ≤ 16)
    (compact : ∀ n, Compact (ascii name, data n)) (apart : ascii "pc" ∉ [ascii name, ascii counter]) :
    (ScriptBody.ofCtx .top (turn arith counter work)).Steady (inv counter name data) N := by
  refine steady_of_fields (slots brief compact) fun n before ctx holds => ?_
  have before : n < 30 := before.trans_le bound
  cases n with
  | zero =>
    obtain ⟨ctx', next, ran⟩ := works 0 before ctx [] (show 0 < 8 by decide) holds
    have unmarked : ctx.field "pc" = none := holds.absent apart
    have round : turn arith counter work .top ctx = (ctx'.put "pc" (.string (ascii "after")), .yields .afterA) := by
      rw [turn]
      dsimp only
      rw [holds.field_at [_] [], arith.lt_int 0 30 (by decide) (by decide), ScriptCtx.atTop_of_absent unmarked,
        if_pos rfl, ran]
      rfl
    exact ⟨_, next.put_new apart (show 2 < 256 by decide) _, round, round⟩
  | succ n =>
    have marked := holds.field_at [_, _] []
    have looped := holds.put_at [_, _] [] (show 2 < 256 by decide) (.string (ascii "loop_top"))
    obtain ⟨ctx', next, ran⟩ := works (n + 1) before _ [_] (show 1 < 8 by decide) looped
    have round : turn arith counter work .afterA ctx = (ctx'.put "pc" (.string (ascii "after")), .yields .afterA) := by
      rw [turn]
      dsimp only
      rw [looped.field_at [_] [_], arith.lt_int (n + 1) 30 (by omega) (by decide), decide_eq_true before, ran]
      rfl
    have again : turn arith counter work .top ctx = turn arith counter work .afterA ctx := by
      have later : ctx.atTop = false := ScriptCtx.atTop_of_marked marked
      rw [turn]
      dsimp only
      rw [holds.field_at [_] [_], arith.lt_int (n + 1) 30 (by omega) (by decide), decide_eq_true before, later,
        if_neg Bool.false_ne_true]
      rfl
    exact ⟨_, next.put_at [_, _] [] (show 2 < 256 by decide) _, round, again.trans round⟩

/-- What the cutscene and the AI script keep in their tables. -/
def angle (n : Nat) : LuaScalar C := luaInt (n * 17 % 360)
def chasing (n : Nat) : LuaScalar C := .boolean (decide (3 ≤ n % 6))

theorem cutscene_steady (bound : N ≤ 30) : (cutscene arith).Steady (inv "step" "angle" angle) N :=
  steady arith bound (fun _ before _ others few holds => advance_holds arith others (by omega) few holds) (by decide)
    (fun _ => compact_int (by decide) _) (by decide)

theorem ai_steady (bound : N ≤ 30) : (ai arith).Steady (inv "tics" "chasing" chasing) N :=
  steady arith bound (fun _ before _ others few holds => patrol_holds arith others (by omega) few holds) (by decide)
    (fun _ => compact_boolean (by decide) _) (by decide)

theorem reads {n : Nat} {ctx : ScriptCtx C} (holds : ScriptCtx.Holds ctx (fields counter name data n)) :
    ctx.field counter = some (.scalar (luaInt n)) ∧ ctx.field name = some (.scalar (data n)) := by
  cases n with
  | zero => exact ⟨holds.field_at [_] [], holds.field_at [] [_]⟩
  | succ n => exact ⟨holds.field_at [_] [_], holds.field_at [] [_, _]⟩

end DetTwoScripts

namespace ManagedWorkload

/-- As many frames as the scripts live. -/
def turns : ManagedWorkload → Nat
  | detCutsceneBranched => 32
  | _ => 30

/-- The states of the scripts after each number of frames. -/
def invs : ManagedWorkload → List (Nat → BodyPlace → ScriptCtx C → Prop)
  | detCutsceneLinear => [DetCutsceneLinear.inv]
  | detCutsceneBranched => [DetCutsceneBranched.inv]
  | detTwoScripts =>
    [DetTwoScripts.inv "step" "angle" DetTwoScripts.angle, DetTwoScripts.inv "tics" "chasing" DetTwoScripts.chasing]

theorem turns_le (w : ManagedWorkload) : w.turns ≤ 32 := by
  cases w with
  | detCutsceneBranched => exact Nat.le_refl 32
  | _ => exact show 30 ≤ 32 by decide

/-- A seed of two fields. -/
theorem seed_holds {first second : String} (apart : ascii second ∉ [ascii first]) (v w : LuaScalar C) :
    ScriptCtx.Holds (luaTable [(first, v), (second, w)]) [(ascii second, w), (ascii first, v)] := by
  have start : ScriptCtx.Holds (LuaTable.empty : ScriptCtx C) [] := List.Perm.nil
  have one : ScriptCtx.Holds (ScriptCtx.put LuaTable.empty first v) ([] ++ [(ascii first, v)]) :=
    start.put_new List.not_mem_nil (show 0 < 256 by decide) v
  have two : ScriptCtx.Holds (luaTable [(first, v), (second, w)]) ([(ascii first, v)] ++ [(ascii second, w)]) :=
    one.put_new apart (show 1 < 256 by decide) w
  exact two.perm (List.Perm.swap _ _ _)

theorem running (w : ManagedWorkload) (bound : N ≤ w.turns) :
    Cast.Running N w.invs 0 ((w.scripts arith).map fun x => (⟨x.1, x.1.entry⟩, x.2)) := by
  cases w with
  | detCutsceneLinear =>
    exact .cons ⟨DetCutsceneLinear.steady arith bound, And.intro rfl (seed_holds (by decide) _ _)⟩ .nil
  | detCutsceneBranched =>
    exact .cons ⟨DetCutsceneBranched.steady arith bound, And.intro rfl (seed_holds (by decide) _ _)⟩ .nil
  | detTwoScripts =>
    exact .cons ⟨DetTwoScripts.cutscene_steady arith bound, And.intro rfl (seed_holds (by decide) _ _)⟩
      (.cons ⟨DetTwoScripts.ai_steady arith bound, And.intro rfl (seed_holds (by decide) _ _)⟩ .nil)

/-- What is reported does not depend on the order of the entries. -/
theorem report_same (w : ManagedWorkload) {ctxs ctxs' : List (ScriptCtx C)}
    (alike : List.Forall₂ LuaTable.Same ctxs ctxs') :
    w.report (ctxs.map fun ctx => (true, some ctx)) = w.report (ctxs'.map fun ctx => (true, some ctx)) := by
  have fields : ∀ {ctx ctx' : ScriptCtx C}, ctx.Same ctx' → ∀ name, ctx.field name = ctx'.field name :=
    fun same name => same.get? (.string (ascii name))
  cases alike with
  | nil => rfl
  | @cons ctx ctx' ctxs ctxs' first rest =>
    cases rest with
    | nil =>
      cases w with
      | detTwoScripts => rfl
      | detCutsceneLinear =>
        show [ctx.field "step", ctx.field "angle"] = [ctx'.field "step", ctx'.field "angle"]
        rw [fields first, fields first]
      | detCutsceneBranched =>
        show [ctx.field "step", ctx.field "angle"] ++ (if (ctx.field "bonus").truthy then [ctx.field "bonus"] else []) =
          [ctx'.field "step", ctx'.field "angle"] ++ if (ctx'.field "bonus").truthy then [ctx'.field "bonus"] else []
        rw [fields first, fields first, fields first]
    | @cons ctx₂ ctx₂' ctxs ctxs' second rest =>
      cases rest with
      | cons => cases w <;> rfl
      | nil =>
        cases w with
        | detCutsceneLinear => rfl
        | detCutsceneBranched => rfl
        | detTwoScripts =>
          show [ctx.field "step", ctx.field "angle"] ++ [ctx₂.field "tics",
              some (.scalar (luaInt (if (ctx₂.field "chasing").truthy then 1 else 0)))] =
            [ctx'.field "step", ctx'.field "angle"] ++ [ctx₂'.field "tics",
              some (.scalar (luaInt (if (ctx₂'.field "chasing").truthy then 1 else 0)))]
          rw [fields first, fields first, fields second, fields second]

/-- What is reported are integers. -/
theorem report_integers (w : ManagedWorkload) {n : Nat} {cast : Cast BodyPlace C}
    (running : Cast.Running N w.invs n cast) : ∀ v ∈ w.report cast.answers, ∃ k, v = some (.scalar (luaInt k)) := by
  cases w with
  | detCutsceneLinear =>
    cases running with
    | @cons _ e _ _ good rest =>
      cases rest
      have holds : ScriptCtx.Holds e.2 (DetCutsceneLinear.fields n) := good.2.2
      exact List.forall_mem_cons.mpr ⟨⟨_, holds.field_at [_] []⟩,
        List.forall_mem_singleton.mpr ⟨_, holds.field_at [] [_]⟩⟩
  | detCutsceneBranched =>
    cases running with
    | @cons _ e _ _ good rest =>
      cases rest
      obtain ⟨step, angle, bonus⟩ := DetCutsceneBranched.reads good.2.2
      refine List.forall_mem_cons.mpr ⟨step, List.forall_mem_cons.mpr ⟨angle, ?_⟩⟩
      rcases bonus with none | ⟨k, is⟩
      · rw [none]
        exact List.forall_mem_nil _
      · rw [is]
        exact List.forall_mem_singleton.mpr ⟨k, rfl⟩
  | detTwoScripts =>
    cases running with
    | @cons _ e _ _ good rest =>
      cases rest with
      | @cons _ e' _ _ good' rest =>
        cases rest
        obtain ⟨step, angle⟩ := DetTwoScripts.reads good.2.2
        obtain ⟨tics, -⟩ := DetTwoScripts.reads good'.2.2
        exact List.forall_mem_cons.mpr ⟨⟨_, step⟩, List.forall_mem_cons.mpr ⟨⟨_, angle⟩,
          List.forall_mem_cons.mpr ⟨⟨_, tics⟩, List.forall_mem_singleton.mpr ⟨_, rfl⟩⟩⟩⟩

theorem freshBindings_canonical (j : Fin luaSimpleNumEntities) : (freshBindings.cs j).Canonical := by
  have zero : canonicalizeNanf 0 = 0 := by decide
  exact ⟨zero, zero, zero⟩

variable {E : Type} {host : BindingHost (LuaValue C) E}

theorem steady (w : ManagedWorkload) (numbers : ∀ n, ∃ f, host.checkNumber 1 (some (.scalar (luaInt n))) = .ok f)
    (bound : N ≤ w.turns) : (w.cart arith).Steady host N w.invs where
  room := by
    cases w with
    | detTwoScripts => exact show 2 ≤ 64 by decide
    | _ => exact show 1 ≤ 64 by decide
  scripts := w.running arith bound
  opening := ⟨rfl, freshBindings_canonical⟩
  reports _ _ _ alike := w.report_same alike
  numbers n s cast running v member := by
    obtain ⟨k, rfl⟩ := w.report_integers running v member
    exact numbers k

/-- The workloads whose scripts live as long as the cart go on from a save behind any frame. -/
theorem workload_resumes (w : ManagedWorkload)
    (numbers : ∀ n, ∃ f, host.checkNumber 1 (some (.scalar (luaInt n))) = .ok f) (bound : N ≤ w.turns)
    {S : UInt32} (before : S.toNat < N) (given : Nat → Nat) :
    ∃ text digests, digests.length = N ∧ (w.cart arith).fullMain host N = .returns (digests, none) ∧
      (w.cart arith).saveMain host S = .returns (digests.take (S.toNat + 1), .ok text) ∧
      (w.cart arith).loadMain host N given (some text) = .returns (.ok (digests.drop (S.toNat + 1), none)) := by
  have few : N < 2 ^ 31 := (bound.trans w.turns_le).trans_lt (by decide)
  exact (w.steady arith numbers bound).resumes few before given

end ManagedWorkload
end

/-- The integer behind a value, of Lua as it comes. -/
def int64Of : LuaValue luaConf64 → Option Int64
  | some (.scalar (.integer v)) => some v
  | _ => none

/-- An operation on two integers; on other values it raises. -/
def onIntegers {α : Type} (f : Int → Int → α) (v : LuaValue luaConf64) (d : LuaScalar luaConf64) : Option α :=
  match int64Of v, int64Of (some (.scalar d)) with
  | some a, some b => some (f a.toInt b.toInt)
  | _, _ => none

/-- The integer of a result that wraps around. -/
def wrapped (i : Int) : LuaScalar luaConf64 := .integer (Int64.ofInt i)

theorem toInt_luaInt {n : Nat} (small : n < 2 ^ 31) : (UInt64.ofNat n).toInt64.toInt = n := by
  rw [UInt64.toInt64_ofNat', Int64.toInt_ofNat_of_lt (by omega)]

theorem wrapped_natCast (n : Nat) : wrapped n = luaInt n := by
  have same : Int64.ofInt n = (UInt64.ofNat n).toInt64 := by rw [Int64.ofInt_eq_ofNat, UInt64.toInt64_ofNat']
  exact congrArg LuaScalar.integer same

theorem onIntegers_luaInt {α : Type} (f : Int → Int → α) {n m : Nat} (small : n < 2 ^ 31) (small' : m < 2 ^ 31) :
    onIntegers f (some (.scalar (luaInt n))) (luaInt m) = some (f n m) := by
  have run : onIntegers f (some (.scalar (luaInt n))) (luaInt m) =
      some (f (UInt64.ofNat n).toInt64.toInt (UInt64.ofNat m).toInt64.toInt) := rfl
  rw [run, toInt_luaInt small, toInt_luaInt small']

namespace LuaArith64

def lt (v : LuaValue luaConf64) (d : LuaScalar luaConf64) : Option Bool := onIntegers (fun a b => decide (a < b)) v d
def le (v d : LuaScalar luaConf64) : Option Bool := onIntegers (fun a b => decide (a ≤ b)) (some (.scalar v)) d
def eq (v : LuaValue luaConf64) (d : LuaScalar luaConf64) : Bool :=
  (onIntegers (fun a b => decide (a = b)) v d).getD false
def add (v : LuaValue luaConf64) (d : LuaScalar luaConf64) : Option (LuaScalar luaConf64) :=
  onIntegers (fun a b => wrapped (a + b)) v d
def mul (v : LuaValue luaConf64) (d : LuaScalar luaConf64) : Option (LuaScalar luaConf64) :=
  onIntegers (fun a b => wrapped (a * b)) v d
def mod (v : LuaValue luaConf64) (d : LuaScalar luaConf64) : Option (LuaScalar luaConf64) :=
  (onIntegers (fun a b => if b = 0 then none else some (wrapped (a.fmod b))) v d).join

variable (n m : Nat)

theorem lt_int (small : n < 2 ^ 31) (small' : m < 2 ^ 31) :
    lt (some (.scalar (luaInt n))) (luaInt m) = some (decide (n < m)) := by
  rw [lt, onIntegers_luaInt _ small small', decide_eq_decide.mpr Int.ofNat_lt]

theorem le_int (small : n < 2 ^ 31) (small' : m < 2 ^ 31) : le (luaInt n) (luaInt m) = some (decide (n ≤ m)) := by
  rw [le, onIntegers_luaInt _ small small', decide_eq_decide.mpr Int.ofNat_le]

theorem eq_int (small : n < 2 ^ 31) (small' : m < 2 ^ 31) :
    eq (some (.scalar (luaInt n))) (luaInt m) = decide (n = m) := by
  rw [eq, onIntegers_luaInt _ small small', decide_eq_decide.mpr Int.ofNat_inj, Option.getD_some]

theorem add_int (small : n + m < 2 ^ 31) :
    add (some (.scalar (luaInt n))) (luaInt m) = some (luaInt (n + m)) := by
  rw [add, onIntegers_luaInt _ (by omega) (by omega), ← Int.natCast_add, wrapped_natCast]

theorem mul_int (small : n < 2 ^ 31) (small' : m < 2 ^ 31) (_ : n * m < 2 ^ 31) :
    mul (some (.scalar (luaInt n))) (luaInt m) = some (luaInt (n * m)) := by
  rw [mul, onIntegers_luaInt _ small small', ← Int.natCast_mul, wrapped_natCast]

theorem mod_int (small : n < 2 ^ 31) (small' : m < 2 ^ 31) (positive : 0 < m) :
    mod (some (.scalar (luaInt n))) (luaInt m) = some (luaInt (n % m)) := by
  have nonzero : (m : Int) ≠ 0 := by omega
  have floored : (n : Int).fmod m = ((n % m : Nat) : Int) := by
    rw [Int.fmod_eq_emod_of_nonneg _ (Int.natCast_nonneg m), Int.natCast_emod]
  rw [mod, onIntegers_luaInt _ small small', if_neg nonzero, floored, wrapped_natCast]
  rfl

end LuaArith64

/-- Lua's operations on 64-bit integers. -/
def luaArith64 : LuaArith luaConf64 where
  lt := LuaArith64.lt
  le := LuaArith64.le
  eq := LuaArith64.eq
  add := LuaArith64.add
  mul := LuaArith64.mul
  mod := LuaArith64.mod
  lt_int := LuaArith64.lt_int
  le_int := LuaArith64.le_int
  eq_int := LuaArith64.eq_int
  add_int := LuaArith64.add_int
  mul_int := LuaArith64.mul_int
  mod_int := LuaArith64.mod_int

/-- The numbers of the first two frames of the linear cutscene and their sums. -/
def wholeHost : BindingHost (LuaValue luaConf64) Unit where
  checkInteger _ v := (int64Of v).elim (.error ()) fun i => .ok i.toInt
  checkNumber _ v := (int64Of v).elim (.error ()) fun i =>
    .ok (([(1, 0x3f800000), (2, 0x40000000), (17, 0x41880000), (34, 0x42080000)].lookup i.toInt).getD 0)
  scale _ := 0
  add := tabulated [((0, 0x3f800000), 0x3f800000), ((0x3f800000, 0x41880000), 0x41900000),
    ((0x41900000, 0x40000000), 0x41a00000), ((0x41a00000, 0x42080000), 0x42580000)]

theorem ManagedWorkload.workload_resumes_linear : ∃ text digests, digests.length = 2 ∧
    (detCutsceneLinear.cart luaArith64).fullMain wholeHost (2 : Nat) = .returns (digests, none) ∧
    (detCutsceneLinear.cart luaArith64).saveMain wholeHost 0 = .returns (digests.take 1, .ok text) ∧
    (detCutsceneLinear.cart luaArith64).loadMain wholeHost 2 (fun _ => 4096) (some text) =
      .returns (.ok (digests.drop 1, none)) :=
  detCutsceneLinear.workload_resumes luaArith64 (fun n => ⟨_, rfl⟩) (show 2 ≤ 30 by decide)
    (show (0 : UInt32).toNat < 2 by decide) fun _ => 4096

end Blyt
