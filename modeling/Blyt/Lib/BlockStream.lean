import Mathlib.Data.List.TakeDrop

/-! A list folded block by block, and the same fold fed one element at a time
through a buffer that holds less than a block. -/

namespace BlockStream
universe u v
variable {α : Type u} {σ : Type v} {size : Nat} {f : σ → List α → σ}

/-- The fold over the first `n` blocks. -/
def absorb (size : Nat) (f : σ → List α → σ) : Nat → List α → σ → σ
  | 0, _, s => s
  | n + 1, data, s => absorb size f n (data.drop size) (f s (data.take size))

theorem absorb_succ (n : Nat) (data : List α) (s : σ) :
    absorb size f (n + 1) data s = f (absorb size f n data s) ((data.drop (n * size)).take size) := by
  induction n generalizing data s with
  | zero => simp [absorb]
  | succ n ih =>
    rw [absorb, ih (data.drop size), List.drop_drop, absorb]
    congr 3
    rw [Nat.succ_mul, Nat.add_comm]

/-- What stands behind the blocks is not read. -/
theorem absorb_append {n : Nat} {data : List α} (fits : n * size ≤ data.length) (more : List α) (s : σ) :
    absorb size f n (data ++ more) s = absorb size f n data s := by
  induction n with
  | zero => rfl
  | succ n ih =>
    have room : n * size + size ≤ data.length := by rwa [← Nat.succ_mul]
    rw [absorb_succ, absorb_succ, ih (by omega), List.drop_append_of_le_length (by omega),
      List.take_append_of_le_length (by rw [List.length_drop]; omega)]

/-- `data` has been fed to a fold that began with `s₀`: the whole blocks are in
the state and what is behind them is in the buffer. -/
structure Fed (size : Nat) (f : σ → List α → σ) (s₀ : σ) (data : List α) (s : σ) (buffer : List α) : Prop where
  state : s = absorb size f (data.length / size) data s₀
  rest : buffer = data.drop (data.length / size * size)

variable {s₀ s : σ} {data buffer : List α}

theorem Fed.start : Fed size f s₀ [] s₀ [] := ⟨by rw [List.length_nil, Nat.zero_div, absorb], (List.drop_nil ..).symm⟩

theorem Fed.length (fed : Fed size f s₀ data s buffer) : buffer.length = data.length % size := by
  have parts := Nat.div_add_mod' data.length size
  rw [fed.rest, List.length_drop]
  omega

/-- The element does not fill the block. -/
theorem Fed.store (fed : Fed size f s₀ data s buffer) (x : α) (room : buffer.length + 1 < size) :
    Fed size f s₀ (data ++ [x]) s (buffer ++ [x]) := by
  have parts := Nat.div_add_mod' data.length size
  have here := fed.length
  have same : (data ++ [x]).length / size = data.length / size := by
    rw [List.length_append, List.length_singleton]
    exact Nat.div_eq_of_lt_le (by omega) (by rw [Nat.succ_mul]; omega)
  constructor
  · rw [same, absorb_append (by omega), fed.state]
  · rw [same, List.drop_append_of_le_length (by omega), fed.rest]

/-- The element fills the block, which is folded in. -/
theorem Fed.flush (fed : Fed size f s₀ data s buffer) (x : α) (full : buffer.length + 1 = size) :
    Fed size f s₀ (data ++ [x]) (f s (buffer ++ [x])) [] := by
  have parts := Nat.div_add_mod' data.length size
  have here := fed.length
  have next : (data ++ [x]).length / size = data.length / size + 1 := by
    rw [List.length_append, List.length_singleton]
    exact Nat.div_eq_of_lt_le (by rw [Nat.succ_mul]; omega) (by rw [Nat.succ_mul, Nat.succ_mul]; omega)
  constructor
  · rw [next, absorb_succ, absorb_append (by omega), ← fed.state, List.drop_append_of_le_length (by omega), ← fed.rest,
      List.take_of_length_le (by rw [List.length_append, List.length_singleton]; omega)]
  · rw [next, List.drop_of_length_le]
    rw [List.length_append, List.length_singleton, Nat.succ_mul]
    omega

end BlockStream
