import Mathlib.Data.List.TakeDrop
import Mathlib.Algebra.GroupWithZero.Nat

namespace Reader
universe u v

/-- A decoder over a byte buffer. It asks for the next `len` bytes, is told
whether they are there, and goes on. -/
inductive Read (α : Type u) where
  | done (a : α)
  | ask (len : UInt32) (next : Option (List UInt8) → Read α)

variable {α : Type u} {β : Type u}

protected def Read.bind : Read α → (α → Read β) → Read β
  | .done a, f => f a
  | .ask len next, f => .ask len fun piece => (next piece).bind f

instance : Monad Read where
  pure := .done
  bind := Read.bind

@[simp] theorem pure_eq (a : α) : (pure a : Read α) = .done a := rfl

theorem ask_bind (len : UInt32) (next : Option (List UInt8) → Read α) (f : α → Read β) :
    (Read.ask len next >>= f) = .ask len fun piece => next piece >>= f := rfl

theorem bind_done (prog : Read α) : (prog >>= .done) = prog := by
  induction prog with
  | done a => rfl
  | ask len next ih => exact congrArg (Read.ask len) (funext ih)

theorem bind_bind {γ : Type u} (prog : Read α) (f : α → Read β) (g : β → Read γ) :
    (prog >>= f) >>= g = prog >>= fun a => f a >>= g := by
  induction prog with
  | done a => rfl
  | ask len next ih => exact congrArg (Read.ask len) (funext ih)

instance : LawfulMonad Read := LawfulMonad.mk' Read bind_done (fun _ _ => rfl) bind_bind

def take (len : UInt32) : Read (Option (List UInt8)) := .ask len .done

/-- A piece that was handed out, and the position after it. -/
structure Grant where
  pos : Nat
  len : Nat
  next : Nat
  deriving DecidableEq

structure Outcome (α : Type u) where
  value : α
  pos : Nat
  grants : List Grant

/-- Run a decoder from position `pos`, positions added by `add`. A piece is
there when its end, so computed, is not past the buffer. -/
def exec (add : Nat → Nat → Nat) (src : List UInt8) : Read α → Nat → Outcome α
  | .done a, pos => ⟨a, pos, []⟩
  | .ask len next, pos =>
    if add pos len.toNat > src.length then exec add src (next none) pos
    else
      let rest := exec add src (next (some ((src.drop pos).take len.toNat))) (add pos len.toNat)
      ⟨rest.value, rest.pos, ⟨pos, len.toNat, add pos len.toNat⟩ :: rest.grants⟩

section
variable {add : Nat → Nat → Nat} {src : List UInt8} {len : UInt32} {next : Option (List UInt8) → Read α} {pos : Nat}

theorem exec_short (short : add pos len.toNat > src.length) :
    exec add src (.ask len next) pos = exec add src (next none) pos := by
  rw [exec, if_pos short]

theorem exec_there (there : ¬add pos len.toNat > src.length) :
    exec add src (.ask len next) pos =
      let rest := exec add src (next (some ((src.drop pos).take len.toNat))) (add pos len.toNat)
      ⟨rest.value, rest.pos, ⟨pos, len.toNat, add pos len.toNat⟩ :: rest.grants⟩ := by
  rw [exec, if_neg there]

end

/-- Positions in 32-bit words. -/
def wrap32 (a b : Nat) : Nat := (a + b) % 2 ^ 32

/-- Where the pieces asked for would end, positions being exact. -/
def ends (src : List UInt8) : Read α → Nat → List Nat
  | .done _, _ => []
  | .ask len next, pos =>
    (pos + len.toNat) ::
      if pos + len.toNat > src.length then ends src (next none) pos
      else ends src (next (some ((src.drop pos).take len.toNat))) (pos + len.toNat)

/-- The piece lies in the buffer, and so does the position after it, not before
the piece. -/
def Grant.Sound (src : List UInt8) (g : Grant) : Prop :=
  g.pos + g.len ≤ src.length ∧ g.pos ≤ g.next ∧ g.next ≤ src.length

instance (src : List UInt8) (g : Grant) : Decidable (g.Sound src) := inferInstanceAs (Decidable (_ ∧ _))

/-- 32-bit positions hand out pieces of the buffer only, and never go back,
exactly when no piece asked for ends at `2 ^ 32` or later. -/
theorem exec_wrap32_sound_iff {src : List UInt8} (small : src.length < 2 ^ 32) (prog : Read α) {pos : Nat}
    (start : pos ≤ src.length) :
    (∀ g ∈ (exec wrap32 src prog pos).grants, g.Sound src) ↔ ∀ e ∈ ends src prog pos, e < 2 ^ 32 := by
  induction prog generalizing pos with
  | done a => simp [exec, ends]
  | ask len next ih =>
    have word := len.toNat_lt
    by_cases fits : pos + len.toNat < 2 ^ 32
    · have exact : wrap32 pos len.toNat = pos + len.toNat := Nat.mod_eq_of_lt fits
      unfold exec ends
      rw [exact]
      by_cases short : pos + len.toNat > src.length
      · simp only [if_pos short, List.mem_cons, forall_eq_or_imp, fits, true_and]
        exact ih none start
      · have head : Grant.Sound src ⟨pos, len.toNat, pos + len.toNat⟩ := 
          ⟨Nat.le_of_not_gt short, Nat.le_add_right .., Nat.le_of_not_gt short⟩
        simp only [if_neg short, List.mem_cons, forall_eq_or_imp, fits, head, true_and]
        exact ih _ (by omega)
    · -- the sum comes out below `pos`, so the piece is handed out although it is not there
      have wrapped : wrap32 pos len.toNat = pos + len.toNat - 2 ^ 32 := by
        unfold wrap32
        omega
      have granted : ¬wrap32 pos len.toNat > src.length := by omega
      refine iff_of_false (fun sound => ?_) fun bounded => ?_
      · rw [exec_there granted] at sound
        have head := (sound _ List.mem_cons_self).1
        dsimp only at head
        omega
      · exact fits (bounded _ (by unfold ends; exact List.mem_cons_self))

/-- Every value the decoder can come to, whatever it is told, satisfies `P`. -/
def Holds (P : α → Prop) : Read α → Prop
  | .done a => P a
  | .ask _ next => ∀ piece, Holds P (next piece)

theorem Holds.mono {P Q : α → Prop} (weaker : ∀ a, P a → Q a) {prog : Read α} (holds : Holds P prog) :
    Holds Q prog := by
  induction prog with
  | done a => exact weaker a holds
  | ask len next ih => exact fun piece => ih piece (holds piece)

theorem Holds.bind {P : α → Prop} {Q : β → Prop} {prog : Read α} {f : α → Read β} (first : Holds P prog)
    (second : ∀ a, P a → Holds Q (f a)) : Holds Q (prog >>= f) := by
  induction prog with
  | done a => exact second a first
  | ask len next ih => exact fun piece => ih piece (first piece)

theorem Holds.of_bind {P : β → Prop} {prog : Read α} {f : α → Read β} (whole : Holds P (prog >>= f)) :
    Holds (fun a => Holds P (f a)) prog := by
  induction prog with
  | done a => exact whole
  | ask len next ih => exact fun piece => ih piece (whole piece)

theorem Holds.bind_congr {P : α → Prop} {prog : Read α} {f g : α → Read β} (holds : Holds P prog)
    (same : ∀ a, P a → f a = g a) : prog >>= f = prog >>= g := by
  induction prog with
  | done a => exact same a holds
  | ask len next ih => exact congrArg (Read.ask len) (funext fun piece => ih piece (holds piece))

theorem Holds.trivial (prog : Read α) : Holds (fun _ => True) prog := by
  induction prog with
  | done a => exact True.intro
  | ask len next ih => exact fun piece => ih piece

theorem Holds.exec {P : α → Prop} {prog : Read α} (holds : Holds P prog) (add : Nat → Nat → Nat)
    (src : List UInt8) (pos : Nat) : P (exec add src prog pos).value := by
  induction prog generalizing pos with
  | done a => exact holds
  | ask len next ih =>
    unfold Reader.exec
    split
    · exact ih none (holds none) pos
    · exact ih _ (holds _) _

theorem exec_bind (add : Nat → Nat → Nat) (src : List UInt8) (prog : Read α) (f : α → Read β) (pos : Nat) :
    exec add src (prog >>= f) pos =
      let first := exec add src prog pos
      let second := exec add src (f first.value) first.pos
      ⟨second.value, second.pos, first.grants ++ second.grants⟩ := by
  induction prog generalizing pos with
  | done a => rfl
  | ask len next ih =>
    rw [ask_bind]
    by_cases short : add pos len.toNat > src.length
    · rw [exec_short short, exec_short short]
      exact ih none pos
    · rw [exec_there short, exec_there short, ih]
      rfl

/-- Standing before `bytes` in a buffer of 32-bit size, the decoder comes to `a`
and stands behind them, having read nothing outside the buffer. -/
def Parses (prog : Read α) (bytes : List UInt8) (a : α) : Prop :=
  ∀ pre rest, (pre ++ (bytes ++ rest)).length < 2 ^ 32 →
    (exec wrap32 (pre ++ (bytes ++ rest)) prog pre.length).value = a ∧
      (exec wrap32 (pre ++ (bytes ++ rest)) prog pre.length).pos = (pre ++ bytes).length ∧
        ∀ g ∈ (exec wrap32 (pre ++ (bytes ++ rest)) prog pre.length).grants, g.Sound (pre ++ (bytes ++ rest))

theorem Parses.done (a : α) : Parses (.done a) [] a := by
  intro pre rest _
  exact ⟨rfl, by rw [List.append_nil]; rfl, fun g none => absurd none List.not_mem_nil⟩

theorem Parses.take {len : UInt32} {bytes : List UInt8} (length : bytes.length = len.toNat) :
    Parses (take len) bytes (some bytes) := by
  intro pre rest small
  have ending : wrap32 pre.length len.toNat = (pre ++ bytes).length := by
    rw [List.length_append, List.length_append] at small
    rw [wrap32, List.length_append, length, Nat.mod_eq_of_lt (by omega)]
  have inside : (pre ++ bytes).length ≤ (pre ++ (bytes ++ rest)).length := by
    simp only [List.length_append]
    omega
  rw [Reader.take, exec_there (ending ▸ Nat.not_lt.mpr inside), ending, List.drop_left, List.take_left' length]
  refine ⟨rfl, rfl, fun g granted => ?_⟩
  obtain rfl := List.mem_singleton.mp granted
  refine ⟨?_, ?_, inside⟩
  · rw [← length, ← List.length_append]
    exact inside
  · rw [List.length_append]
    exact Nat.le_add_right ..

theorem Parses.bind {prog : Read α} {f : α → Read β} {bytes more : List UInt8} {a : α} {b : β}
    (first : Parses prog bytes a) (second : Parses (f a) more b) : Parses (prog >>= f) (bytes ++ more) b := by
  intro pre rest small
  rw [List.append_assoc] at small ⊢
  obtain ⟨value, pos, sound⟩ := first pre (more ++ rest) small
  rw [exec_bind]
  dsimp only
  rw [value, pos]
  have next := second (pre ++ bytes) rest
  rw [List.append_assoc] at next
  obtain ⟨value', pos', sound'⟩ := next small
  rw [← List.append_assoc pre bytes more]
  exact ⟨value', pos', List.forall_mem_append.mpr ⟨sound, sound'⟩⟩

theorem Parses.last {prog : Read α} {f : α → Read β} {bytes : List UInt8} {a : α} {b : β}
    (first : Parses prog bytes a) (ending : f a = .done b) : Parses (prog >>= f) bytes b := by
  have behind : Parses (f a) [] b := by
    rw [ending]
    exact .done b
  have run := first.bind behind
  rwa [List.append_nil] at run

theorem Parses.whole {prog : Read α} {bytes : List UInt8} {a : α} (parses : Parses prog bytes a)
    (small : bytes.length < 2 ^ 32) :
    (exec wrap32 bytes prog 0).value = a ∧ ∀ g ∈ (exec wrap32 bytes prog 0).grants, g.Sound bytes := by
  have run := parses [] [] (by simpa using small)
  rw [List.nil_append, List.append_nil] at run
  exact ⟨run.1, run.2.2⟩

end Reader
