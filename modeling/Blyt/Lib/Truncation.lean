import Blyt.Lib.Reader

namespace Reader
universe u
variable {α β : Type u}

/-- Whatever the decoder is told, it asks for at most `n` bytes at a time and comes to a `P`. -/
def Asks (n : Nat) (P : α → Prop) : Read α → Prop
  | .done a => P a
  | .ask len next => len.toNat ≤ n ∧ ∀ piece, Asks n P (next piece)

theorem Asks.mono {n m : Nat} {P Q : α → Prop} (le : n ≤ m) (weaker : ∀ a, P a → Q a) {prog : Read α}
    (asks : Asks n P prog) : Asks m Q prog := by
  induction prog with
  | done a => exact weaker a asks
  | ask len next ih => exact ⟨Nat.le_trans asks.1 le, fun piece => ih piece (asks.2 piece)⟩

theorem Asks.bind {n : Nat} {P : α → Prop} {Q : β → Prop} {prog : Read α} {f : α → Read β} (first : Asks n P prog)
    (second : ∀ a, P a → Asks n Q (f a)) : Asks n Q (prog >>= f) := by
  induction prog with
  | done a => exact second a first
  | ask len next ih => exact ⟨first.1, fun piece => ih piece (first.2 piece)⟩

theorem Asks.take {n : Nat} {len : UInt32} (le : len.toNat ≤ n) : Asks n (fun _ => True) (take len) :=
  ⟨le, fun _ => trivial⟩

/-- The decoder came to a `P` and read nothing outside the buffer. -/
structure Ran (src : List UInt8) (P : α → Prop) (outcome : Outcome α) : Prop where
  value : P outcome.value
  pos : outcome.pos ≤ src.length
  sound : ∀ g ∈ outcome.grants, g.Sound src

theorem Ran.bind {src : List UInt8} {P : α → Prop} {Q : β → Prop} {prog : Read α} {f : α → Read β} {pos : Nat}
    (first : Ran src P (exec wrap32 src prog pos))
    (second : ∀ a pos, P a → pos ≤ src.length → Ran src Q (exec wrap32 src (f a) pos)) :
    Ran src Q (exec wrap32 src (prog >>= f) pos) := by
  have rest := second _ _ first.value first.pos
  rw [exec_bind]
  exact ⟨rest.value, rest.pos, List.forall_mem_append.mpr ⟨first.sound, rest.sound⟩⟩

/-- Where no piece asked for can end beyond the 32-bit positions, the run stays in the buffer. -/
theorem Asks.ran {src : List UInt8} {n : Nat} (room : src.length + n < 2 ^ 32) {P : α → Prop} {prog : Read α}
    (asks : Asks n P prog) {pos : Nat} (start : pos ≤ src.length) : Ran src P (exec wrap32 src prog pos) := by
  induction prog generalizing pos with
  | done a => exact ⟨asks, start, fun g none => absurd none List.not_mem_nil⟩
  | ask len next ih =>
    have piece := asks.1
    have exact : wrap32 pos len.toNat = pos + len.toNat := Nat.mod_eq_of_lt (by omega)
    by_cases short : wrap32 pos len.toNat > src.length
    · rw [exec_short short]
      exact ih none (asks.2 none) start
    · rw [exec_there short]
      have rest := ih _ (asks.2 (some ((src.drop pos).take len.toNat))) (Nat.le_of_not_gt short)
      refine ⟨rest.value, rest.pos, fun g granted => ?_⟩
      rcases List.mem_cons.mp granted with rfl | granted
      · simp only [Grant.Sound, exact] at short ⊢
        omega
      · exact rest.sound g granted

/-- Standing before `bytes` that the buffer cuts short, the decoder comes to a `Bad` value, having read
nothing outside the buffer. -/
def Cut (prog : Read α) (bytes : List UInt8) (Bad : α → Prop) : Prop :=
  ∀ pre cut more, cut ++ more = bytes → more ≠ [] → (pre ++ bytes).length < 2 ^ 32 →
    Ran (pre ++ cut) Bad (exec wrap32 (pre ++ cut) prog pre.length)

theorem Cut.nil (prog : Read α) (Bad : α → Prop) : Cut prog [] Bad := by
  intro pre cut more joined missing
  exact absurd (List.append_eq_nil_iff.mp joined).2 missing

theorem Cut.mono {P Q : α → Prop} (weaker : ∀ a, P a → Q a) {prog : Read α} {bytes : List UInt8}
    (cut : Cut prog bytes P) : Cut prog bytes Q := by
  intro pre cut' more joined missing small
  have ran := cut pre cut' more joined missing small
  exact ⟨weaker _ ran.value, ran.pos, ran.sound⟩

theorem Cut.take {len : UInt32} {bytes : List UInt8} (length : bytes.length = len.toNat) :
    Cut (Reader.take len) bytes (· = none) := by
  intro pre cut more joined missing small
  have some : 0 < more.length := List.length_pos_iff.mpr missing
  have total := congrArg List.length joined
  rw [List.length_append] at total small
  have exact : wrap32 pre.length len.toNat = pre.length + len.toNat := Nat.mod_eq_of_lt (by omega)
  have short : wrap32 pre.length len.toNat > (pre ++ cut).length := by
    rw [exact, List.length_append]
    omega
  rw [Reader.take, exec_short short]
  refine ⟨rfl, ?_, fun g none => absurd none List.not_mem_nil⟩
  rw [List.length_append]
  exact Nat.le_add_right ..

/-- A cut of two parts falls behind the first or in it. -/
theorem cut_cases {cut rest bytes more : List UInt8} (joined : cut ++ rest = bytes ++ more) :
    (∃ cut', cut = bytes ++ cut' ∧ cut' ++ rest = more) ∨
      ∃ rest', cut ++ rest' = bytes ∧ rest' ≠ [] ∧ rest = rest' ++ more := by
  rcases List.append_eq_append_iff.mp joined with ⟨rest', rfl, rfl⟩ | ⟨cut', rfl, rfl⟩
  · by_cases whole : rest' = []
    · subst whole
      exact .inl ⟨[], by simp, rfl⟩
    · exact .inr ⟨rest', rfl, whole, rfl⟩
  · exact .inl ⟨cut', rfl, rfl⟩

/-- Cut in its first part, a sequence is `Bad` if what follows makes it so, asking for no more than is
missing; cut behind it, if its second part is. -/
theorem Cut.bind {prog : Read α} {f : α → Read β} {bytes more : List UInt8} {a : α} {P : α → Prop} {Bad : β → Prop}
    (parses : Parses prog bytes a) (first : Cut prog bytes P) (second : Cut (f a) more Bad)
    (spoiled : ∀ a, P a → Asks (more.length + 1) Bad (f a)) : Cut (prog >>= f) (bytes ++ more) Bad := by
  intro pre cut rest joined missing small
  rcases cut_cases joined with ⟨cut', rfl, rfl⟩ | ⟨rest', rfl, lacking, rfl⟩
  · rw [← List.append_assoc] at small
    have behind := second (pre ++ bytes) cut' rest rfl missing small
    simp only [List.length_append] at small
    obtain ⟨value, pos, sound⟩ := parses pre cut' (by simp only [List.length_append]; omega)
    rw [List.append_assoc] at behind
    rw [exec_bind]
    dsimp only
    rw [value, pos]
    exact ⟨behind.value, behind.pos, List.forall_mem_append.mpr ⟨sound, behind.sound⟩⟩
  · have some : 0 < rest'.length := List.length_pos_iff.mpr lacking
    simp only [List.length_append] at small
    refine (first pre cut rest' rfl lacking (by simp only [List.length_append]; omega)).bind fun a pos bad start => ?_
    exact (spoiled a bad).ran (by simp only [List.length_append]; omega) start

theorem Cut.last {prog : Read α} {f : α → Read β} {bytes : List UInt8} {P : α → Prop} {Bad : β → Prop}
    (first : Cut prog bytes P) (spoiled : ∀ a, P a → Asks 1 Bad (f a)) : Cut (prog >>= f) bytes Bad := by
  intro pre cut more joined missing small
  have some : 0 < more.length := List.length_pos_iff.mpr missing
  have total := congrArg List.length joined
  refine (first pre cut more joined missing small).bind fun a pos bad start => (spoiled a bad).ran ?_ start
  simp only [List.length_append] at small total ⊢
  omega

/-- A buffer that holds a proper part of `bytes` and nothing else. -/
theorem Cut.whole {prog : Read α} {bytes : List UInt8} {Bad : α → Prop} (cut : Cut prog bytes Bad)
    (small : bytes.length < 2 ^ 32) {m : Nat} (short : m < bytes.length) :
    Ran (bytes.take m) Bad (exec wrap32 (bytes.take m) prog 0) := by
  have missing : bytes.drop m ≠ [] := by
    rw [ne_eq, List.drop_eq_nil_iff]
    omega
  exact cut [] (bytes.take m) (bytes.drop m) (List.take_append_drop m bytes) missing small

end Reader
