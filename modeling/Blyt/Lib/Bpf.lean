import Mathlib.Data.List.Basic

/-- One instruction of a classic BPF program. -/
structure BpfInsn where
  code : UInt16
  jt : UInt8
  jf : UInt8
  k : UInt32
  deriving DecidableEq, Repr

namespace Bpf

/-- `BPF_LD | BPF_W | BPF_ABS`. -/
def ldWAbs : UInt16 := 0x20
/-- `BPF_JMP | BPF_JEQ | BPF_K`. -/
def jmpJeqK : UInt16 := 0x15
/-- `BPF_RET | BPF_K`. -/
def retK : UInt16 := 0x06

/-- An instruction of the class `BPF_JMP`. -/
def IsJump (i : BpfInsn) : Prop := i.code &&& 7 = 5

/-- The program behind `skip` instructions, with `a` in the accumulator, on a packet whose
words `load` gives. `none` is a program that runs off its end or that the checker refuses;
jumps go forward only, so the rest of the program is all there is to run. -/
def run (load : UInt32 → Option UInt32) : List BpfInsn → Nat → UInt32 → Option UInt32
  | [], _, _ => none
  | _ :: p, skip + 1, a => run load p skip a
  | i :: p, 0, a =>
    if i.code = ldWAbs then (load i.k).bind (run load p 0)
    else if i.code = jmpJeqK then run load p (if a = i.k then i.jt else i.jf).toNat a
    else if i.code = retK then some i.k
    else none

def stmt (code : UInt16) (k : UInt32) : BpfInsn := ⟨code, 0, 0, k⟩

def jump (code : UInt16) (k : UInt32) (jt jf : UInt8) : BpfInsn := ⟨code, jt, jf, k⟩

section Run
variable {load : UInt32 → Option UInt32} {p q : List BpfInsn} {a k : UInt32}

@[simp] theorem run_ld : run load (stmt ldWAbs k :: p) 0 a = (load k).bind (run load p 0) := rfl

@[simp] theorem run_jeq {jt jf : UInt8} :
    run load (jump jmpJeqK k jt jf :: p) 0 a = run load p (if a = k then jt else jf).toNat a := rfl

@[simp] theorem run_ret : run load (stmt retK k :: p) 0 a = some k := rfl

@[simp] theorem run_skip {i : BpfInsn} {skip : Nat} : run load (i :: p) (skip + 1) a = run load p skip a := rfl

theorem run_append (p : List BpfInsn) {skip : Nat} :
    run load (p ++ q) (p.length + skip) a = run load q skip a := by
  induction p with
  | nil => rw [List.nil_append, List.length_nil, Nat.zero_add]
  | cons i p ih => rw [List.cons_append, List.length_cons, Nat.add_right_comm, run_skip, ih]

end Run

/-- A test against each of the values, with `k` returned on the first that is equal. -/
def tests (k : UInt32) (values : List UInt32) : List BpfInsn :=
  values.flatMap fun v => [jump jmpJeqK v 0 1, stmt retK k]

theorem tests_length (k : UInt32) (values : List UInt32) : (tests k values).length = 2 * values.length := by
  induction values with
  | nil => rfl
  | cons v values ih =>
    rw [tests, List.flatMap_cons, List.length_append, ← tests, ih]
    simp only [List.length_cons, List.length_nil]
    omega

theorem run_tests {load : UInt32 → Option UInt32} {a k : UInt32} (values : List UInt32) (rest : List BpfInsn) :
    run load (tests k values ++ rest) 0 a = if a ∈ values then some k else run load rest 0 a := by
  induction values with
  | nil => rw [if_neg List.not_mem_nil]; rfl
  | cons v values ih =>
    rw [tests, List.flatMap_cons, ← tests, List.append_assoc, List.cons_append, List.cons_append,
      List.nil_append, run_jeq]
    by_cases hit : a = v
    · rw [if_pos hit, if_pos (hit ▸ List.mem_cons_self)]
      exact run_ret
    · rw [if_neg hit]
      refine Eq.trans ?_ (ih.trans ?_)
      · rfl
      · simp only [List.mem_cons, hit, false_or]

/-- Every jump of the program lands on one of its instructions. -/
def JumpsInside (p : List BpfInsn) : Prop :=
  ∀ n i, p[n]? = some i → IsJump i → n + 1 + i.jt.toNat < p.length ∧ n + 1 + i.jf.toNat < p.length

theorem jumpsInside_nil : JumpsInside [] := nofun

theorem jumpsInside_cons {i : BpfInsn} {p : List BpfInsn} :
    JumpsInside (i :: p) ↔ (IsJump i → i.jt.toNat < p.length ∧ i.jf.toNat < p.length) ∧ JumpsInside p := by
  constructor
  · intro inside
    refine ⟨fun jumps => ?_, fun n j at_ jumps => ?_⟩
    · have first := inside 0 i rfl jumps
      simp only [List.length_cons] at first
      omega
    · have next := inside (n + 1) j at_ jumps
      simp only [List.length_cons] at next
      omega
  · rintro ⟨first, rest⟩ n j at_ jumps
    simp only [List.length_cons]
    cases n with
    | zero =>
      obtain rfl : i = j := Option.some.inj at_
      have := first jumps
      omega
    | succ n =>
      have := rest n j at_ jumps
      omega

theorem jumpsInside_stmt {code : UInt16} {k : UInt32} {p : List BpfInsn} (other : code &&& 7 ≠ 5) :
    JumpsInside (stmt code k :: p) ↔ JumpsInside p := by
  rw [jumpsInside_cons]
  exact and_iff_right fun jumps => absurd jumps other

/-- The tests jump over one instruction each, so they need something behind them. -/
theorem jumpsInside_tests {k : UInt32} {rest : List BpfInsn} (values : List UInt32) (behind : 0 < rest.length)
    (inside : JumpsInside rest) : JumpsInside (tests k values ++ rest) := by
  induction values with
  | nil => exact inside
  | cons v values ih =>
    rw [tests, List.flatMap_cons, ← tests, List.append_assoc, List.cons_append, List.cons_append,
      List.nil_append, jumpsInside_cons, jumpsInside_stmt (by decide)]
    refine ⟨fun _ => ?_, ih⟩
    simp only [List.length_cons, List.length_append]
    exact ⟨Nat.succ_pos _, Nat.succ_lt_succ (Nat.lt_of_lt_of_le behind (Nat.le_add_left _ _))⟩

end Bpf
