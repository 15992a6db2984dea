import Blyt.Lib.Exec

/-! A depth-first walk that may fail, over a state that knows which nodes it has seen. -/

namespace DepthFirst
variable {σ ν : Type}

/-- One node after another, up to the first that fails. -/
def visitAll (visit : σ → ν → Exec (σ × Bool)) : σ → List ν → Exec (σ × Bool)
  | s, [] => .returns (s, true)
  | s, n :: ns => do
    let (s, ok) ← visit s n
    if ok then visitAll visit s ns else return (s, false)

/-- A node that was not seen is entered, which fails or leads to other nodes. -/
def visit (seen : σ → ν → Bool) (enter : σ → ν → Option (σ × List ν)) : Nat → σ → ν → Exec (σ × Bool)
  | 0, _, _ => .spins
  | fuel + 1, s, n =>
    if seen s n then .returns (s, true) else
      match enter s n with
      | none => .returns (s, false)
      | some (s, next) => visitAll (visit seen enter fuel) s next

variable {seen : σ → ν → Bool} {enter : σ → ν → Option (σ × List ν)}

theorem visitAll_keeps {Inv : σ → Prop} {visit : σ → ν → Exec (σ × Bool)}
    (keeps : ∀ s n s' ok, Inv s → visit s n = .returns (s', ok) → Inv s') {ns : List ν} {s s' : σ} {ok : Bool}
    (start : Inv s) (ran : visitAll visit s ns = .returns (s', ok)) : Inv s' := by
  induction ns generalizing s with
  | nil =>
    cases ran
    exact start
  | cons n ns ih =>
    obtain ⟨⟨t, good⟩, first, rest⟩ := Exec.bind_eq_returns.mp ran
    have inv := keeps s n t good start first
    cases good with
    | true => exact ih inv rest
    | false =>
      cases rest
      exact inv

/-- What entering a node keeps, a walk keeps. -/
theorem visit_keeps {Inv : σ → Prop}
    (enters : ∀ s n s' next, Inv s → seen s n = false → enter s n = some (s', next) → Inv s') {fuel : Nat} {s s' : σ}
    {n : ν} {ok : Bool} (start : Inv s) (ran : visit seen enter fuel s n = .returns (s', ok)) : Inv s' := by
  induction fuel generalizing s s' n ok with
  | zero => cases ran
  | succ fuel ih =>
    rw [visit] at ran
    split at ran
    · cases ran
      exact start
    · rename_i unseen
      split at ran
      · cases ran
        exact start
      · rename_i t next entered
        have inv := enters s n t next start (by simpa using unseen) entered
        exact visitAll_keeps (fun s n s' ok start ran => ih start ran) inv ran

theorem visitAll_ends {Inv : σ → Prop} {Good : ν → Prop} {left : σ → Nat} {bound : Nat}
    {visit : σ → ν → Exec (σ × Bool)}
    (ends : ∀ s n, Inv s → Good n → left s < bound → ∃ s', visit s n = .returns (s', true) ∧ Inv s' ∧ left s' ≤ left s)
    {ns : List ν} {s : σ} (start : Inv s) (good : ∀ n ∈ ns, Good n) (few : left s < bound) :
    ∃ s', visitAll visit s ns = .returns (s', true) ∧ Inv s' ∧ left s' ≤ left s := by
  induction ns generalizing s with
  | nil => exact ⟨s, rfl, start, Nat.le_refl _⟩
  | cons n ns ih =>
    obtain ⟨t, first, inv, less⟩ := ends s n start (good n List.mem_cons_self) few
    obtain ⟨s', rest, inv', less'⟩ := ih inv (fun m member => good m (List.mem_cons_of_mem _ member)) (by omega)
    refine ⟨s', ?_, inv', Nat.le_trans less' less⟩
    rw [visitAll, first, Exec.returns_bind]
    exact rest

/-- A walk ends well where every node can be entered and there is less left behind it. -/
theorem visit_ends {Inv : σ → Prop} {Good : ν → Prop} {left : σ → Nat}
    (enters : ∀ s n, Inv s → Good n → seen s n = false →
      ∃ s' next, enter s n = some (s', next) ∧ Inv s' ∧ left s' < left s ∧ ∀ m ∈ next, Good m) {fuel : Nat} {s : σ}
    {n : ν} (start : Inv s) (good : Good n) (enough : left s < fuel) :
    ∃ s', visit seen enter fuel s n = .returns (s', true) ∧ Inv s' ∧ left s' ≤ left s := by
  induction fuel generalizing s n with
  | zero => exact absurd enough (Nat.not_lt_zero _)
  | succ fuel ih =>
    by_cases known : seen s n = true
    · exact ⟨s, by rw [visit, if_pos known], start, Nat.le_refl _⟩
    · obtain ⟨t, next, entered, inv, less, goods⟩ := enters s n start good (by simpa using known)
      have ends (s n) (start : Inv s) (good : Good n) (few : left s < fuel) := ih start good few
      obtain ⟨s', rest, inv', less'⟩ := visitAll_ends ends inv goods (by omega)
      refine ⟨s', ?_, inv', by omega⟩
      rw [visit, if_neg known, entered]
      exact rest

/-- A walk without a bound on its depth: where it ends, and whether every node was good. -/
inductive Walks (seen : σ → ν → Bool) (enter : σ → ν → Option (σ × List ν)) : σ → List ν → σ → Bool → Prop
  | done {s : σ} : Walks seen enter s [] s true
  | known {s s' : σ} {n : ν} {ns : List ν} {ok : Bool} :
      seen s n = true → Walks seen enter s ns s' ok → Walks seen enter s (n :: ns) s' ok
  | fails {s : σ} {n : ν} {ns : List ν} :
      seen s n = false → enter s n = none → Walks seen enter s (n :: ns) s false
  | enters {s t u s' : σ} {n : ν} {next ns : List ν} {ok : Bool} :
      seen s n = false → enter s n = some (t, next) → Walks seen enter t next u true →
        Walks seen enter u ns s' ok → Walks seen enter s (n :: ns) s' ok
  | stops {s t u : σ} {n : ν} {next ns : List ν} :
      seen s n = false → enter s n = some (t, next) → Walks seen enter t next u false →
        Walks seen enter s (n :: ns) u false

theorem visitAll_mono {first second : σ → ν → Exec (σ × Bool)}
    (more : ∀ s n r, first s n = .returns r → second s n = .returns r) {ns : List ν} {s : σ} {r : σ × Bool}
    (ran : visitAll first s ns = .returns r) : visitAll second s ns = .returns r := by
  induction ns generalizing s with
  | nil => exact ran
  | cons n ns ih =>
    obtain ⟨⟨t, good⟩, visited, rest⟩ := Exec.bind_eq_returns.mp ran
    rw [visitAll, more s n _ visited, Exec.returns_bind]
    cases good with
    | true => exact ih rest
    | false => exact rest

theorem visit_succ {fuel : Nat} {s : σ} {n : ν} {r : σ × Bool} (ran : visit seen enter fuel s n = .returns r) :
    visit seen enter (fuel + 1) s n = .returns r := by
  induction fuel generalizing s n r with
  | zero => cases ran
  | succ fuel ih =>
    rw [visit] at ran ⊢
    split at ran
    · rename_i known
      rw [if_pos known]
      exact ran
    · rename_i unseen
      rw [if_neg unseen]
      cases entered : enter s n with
      | none =>
        rw [entered] at ran
        exact ran
      | some result =>
        rw [entered] at ran
        exact visitAll_mono (fun s n r ran => ih ran) ran

/-- A walk that ends does so with more depth, too. -/
theorem visitAll_fuel {fuel more : Nat} (enough : fuel ≤ more) {ns : List ν} {s : σ} {r : σ × Bool}
    (ran : visitAll (visit seen enter fuel) s ns = .returns r) : visitAll (visit seen enter more) s ns = .returns r := by
  induction enough with
  | refl => exact ran
  | step _ ih => exact visitAll_mono (fun s n r ran => visit_succ ran) ih

/-- A walk that may only look at some nodes looks at these before the first other one, or at all. -/
theorem visitAll_guarded {p : ν → Prop} [DecidablePred p] {visit : σ → ν → Exec (σ × Bool)} {ns : List ν} {s s' : σ}
    {ok : Bool} :
    visitAll (fun s n => if p n then visit s n else .outOfBounds) s ns = .returns (s', ok) ↔
      ∃ visited rest, ns = visited ++ rest ∧ (∀ n ∈ visited, p n) ∧ visitAll visit s visited = .returns (s', ok) ∧
        (ok = true → rest = []) := by
  constructor
  · intro ran
    induction ns generalizing s with
    | nil => exact ⟨[], [], rfl, fun n member => absurd member List.not_mem_nil, ran, fun _ => rfl⟩
    | cons n ns ih =>
      obtain ⟨⟨t, good⟩, first, ran⟩ := Exec.bind_eq_returns.mp ran
      dsimp only at first
      split at first
      · rename_i allowed
        cases good with
        | true =>
          obtain ⟨visited, rest, split, all, walked, complete⟩ := ih ran
          refine ⟨n :: visited, rest, by rw [split, List.cons_append], fun m member => ?_, ?_, complete⟩
          · rcases List.mem_cons.mp member with rfl | later
            · exact allowed
            · exact all m later
          · rw [visitAll, first, Exec.returns_bind]
            exact walked
        | false =>
          cases ran
          refine ⟨[n], ns, rfl, fun m member => List.mem_singleton.mp member ▸ allowed, ?_, fun done => by cases done⟩
          rw [visitAll, first]
          rfl
      · cases first
  · rintro ⟨visited, rest, rfl, all, walked, complete⟩
    induction visited generalizing s with
    | nil =>
      cases walked
      rw [complete rfl]
      rfl
    | cons n visited ih =>
      obtain ⟨⟨t, good⟩, first, walked⟩ := Exec.bind_eq_returns.mp walked
      rw [List.cons_append, visitAll, if_pos (all n List.mem_cons_self), first, Exec.returns_bind]
      cases good with
      | true => exact ih (fun m member => all m (List.mem_cons_of_mem n member)) walked
      | false => exact walked

theorem walks_of_visitAll {fuel : Nat} {ns : List ν} {s s' : σ} {ok : Bool}
    (ran : visitAll (visit seen enter fuel) s ns = .returns (s', ok)) : Walks seen enter s ns s' ok := by
  induction fuel generalizing s ns s' ok with
  | zero =>
    cases ns with
    | nil =>
      cases ran
      exact .done
    | cons n ns => cases ran
  | succ fuel deeper =>
    induction ns generalizing s with
    | nil =>
      cases ran
      exact .done
    | cons n ns ih =>
      obtain ⟨⟨u, good⟩, visited, rest⟩ := Exec.bind_eq_returns.mp ran
      rw [visit] at visited
      split at visited
      · rename_i known
        cases visited
        exact .known known (ih rest)
      · rename_i unseen
        rw [Bool.not_eq_true] at unseen
        split at visited
        · rename_i failed
          cases visited
          cases rest
          exact .fails unseen failed
        · rename_i t next entered
          have below := deeper visited
          cases good with
          | true => exact .enters unseen entered below (ih rest)
          | false =>
            cases rest
            exact .stops unseen entered below

/-- Some depth is enough for a walk. -/
theorem Walks.visitAll {s s' : σ} {ns : List ν} {ok : Bool} (walks : Walks seen enter s ns s' ok) :
    ∃ fuel, DepthFirst.visitAll (visit seen enter fuel) s ns = .returns (s', ok) := by
  induction walks with
  | done => exact ⟨0, rfl⟩
  | @known s s' n ns ok known _ ih =>
    obtain ⟨fuel, ran⟩ := ih
    refine ⟨fuel + 1, ?_⟩
    rw [DepthFirst.visitAll, visit, if_pos known, Exec.returns_bind]
    exact visitAll_fuel (Nat.le_succ fuel) ran
  | fails unseen failed =>
    refine ⟨1, ?_⟩
    rw [DepthFirst.visitAll, visit, if_neg (unseen ▸ Bool.false_ne_true), failed]
    rfl
  | @enters s t u s' n next ns ok unseen entered _ _ ih ih' =>
    obtain ⟨fuel, ran⟩ := ih
    obtain ⟨fuel', ran'⟩ := ih'
    refine ⟨max fuel fuel' + 1, ?_⟩
    rw [DepthFirst.visitAll, visit, if_neg (unseen ▸ Bool.false_ne_true), entered]
    dsimp only
    rw [visitAll_fuel (Nat.le_max_left fuel fuel') ran, Exec.returns_bind]
    exact visitAll_fuel (by omega) ran'
  | stops unseen entered _ ih =>
    obtain ⟨fuel, ran⟩ := ih
    refine ⟨fuel + 1, ?_⟩
    rw [DepthFirst.visitAll, visit, if_neg (unseen ▸ Bool.false_ne_true), entered]
    dsimp only
    rw [ran, Exec.returns_bind]
    rfl

theorem Walks.keeps (Inv : σ → Prop)
    (enter_keeps : ∀ s n s' next, Inv s → seen s n = false → enter s n = some (s', next) → Inv s') {s s' : σ} {ns : List ν}
    {ok : Bool} (walks : Walks seen enter s ns s' ok) (start : Inv s) : Inv s' := by
  induction walks with
  | done => exact start
  | known _ _ ih => exact ih start
  | fails => exact start
  | enters unseen entered _ _ ih ih' => exact ih' (ih (enter_keeps _ _ _ _ start unseen entered))
  | stops unseen entered _ ih => exact ih (enter_keeps _ _ _ _ start unseen entered)

/-- A bound that entering a node only raises holds all along a walk that ends below it. -/
theorem Walks.small_before {Small : σ → Prop}
    (before : ∀ s n t next, enter s n = some (t, next) → Small t → Small s) {s s' : σ} {ns : List ν} {ok : Bool}
    (walks : Walks seen enter s ns s' ok) (small : Small s') : Small s := by
  induction walks with
  | done => exact small
  | known _ _ ih => exact ih small
  | fails => exact small
  | enters _ entered _ _ ih ih' => exact before _ _ _ _ entered (ih (ih' small))
  | stops _ entered _ ih => exact before _ _ _ _ entered (ih small)

/-- A walk is followed by one over other states, as long as the two agree on what is seen and on where a node leads. -/
theorem Walks.follow {τ : Type} {seen' : τ → ν → Bool} {enter' : τ → ν → Option (τ × List ν)} (Rel : σ → τ → Prop)
    (Small : σ → Prop) (before : ∀ s n t next, enter s n = some (t, next) → Small t → Small s)
    (sees : ∀ s t n, Rel s t → Small s → seen' t n = seen s n)
    (fails : ∀ s t n, Rel s t → enter s n = none → enter' t n = none)
    (leads : ∀ s t n s₁ next, Rel s t → enter s n = some (s₁, next) → Small s₁ →
      ∃ t₁, enter' t n = some (t₁, next) ∧ Rel s₁ t₁)
    {s s' : σ} {t : τ} {ns : List ν} {ok : Bool} (walks : Walks seen enter s ns s' ok) (rel : Rel s t)
    (small : Small s') : ∃ t', Walks seen' enter' t ns t' ok ∧ Rel s' t' := by
  induction walks generalizing t with
  | done => exact ⟨t, .done, rel⟩
  | @known s s' n ns ok known rest ih =>
    obtain ⟨t', walks', rel'⟩ := ih rel small
    exact ⟨t', .known ((sees s t n rel (rest.small_before before small)).trans known) walks', rel'⟩
  | @fails s n ns unseen failed =>
    exact ⟨t, .fails ((sees s t n rel small).trans unseen) (fails s t n rel failed), rel⟩
  | @enters s s₁ u s' n next ns ok unseen entered below rest ih ih' =>
    have smallU : Small u := rest.small_before before small
    have small₁ : Small s₁ := below.small_before before smallU
    obtain ⟨t₁, entered', rel₁⟩ := leads s t n s₁ next rel entered small₁
    obtain ⟨v, below', relV⟩ := ih rel₁ smallU
    obtain ⟨t', rest', rel'⟩ := ih' relV small
    exact ⟨t', .enters ((sees s t n rel (before s n s₁ next entered small₁)).trans unseen) entered' below' rest', rel'⟩
  | @stops s s₁ u n next ns unseen entered below ih =>
    have small₁ : Small s₁ := below.small_before before small
    obtain ⟨t₁, entered', rel₁⟩ := leads s t n s₁ next rel entered small₁
    obtain ⟨v, below', relV⟩ := ih rel₁ small
    exact ⟨v, .stops ((sees s t n rel (before s n s₁ next entered small₁)).trans unseen) entered' below', relV⟩

end DepthFirst
