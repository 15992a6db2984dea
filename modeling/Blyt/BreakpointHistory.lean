import Blyt.Breakpoints

namespace Blyt
open BreakpointTable
variable {t : BreakpointTable} {r : SetBreakpoints}

namespace BreakpointTable

/-- How many lines still fit beside the entries of other sources. -/
def room (t : BreakpointTable) (source : List UInt8) : Nat := maxBreakpoints - (t.others source).length

/-- What a request makes of the table, and what it is answered. -/
structure Served (t : BreakpointTable) (r : SetBreakpoints) (t' : BreakpointTable)
    (replies : List BreakpointReply) : Prop where
  replaced : t'.linesOf r.source = r.asked.take (t.room r.source)
  untouched : t'.others r.source = t.others r.source
  listed : replies.map BreakpointReply.line = r.asked
  verified : ∀ b ∈ replies, b.verified = true ↔ 0 < b.line ∧ b.line ∈ t'.linesOf r.source

theorem handle_spec (valid : t.Valid) (ids : t.nextBpId + r.asked.length < 2 ^ 31) :
    ∃ t' replies, t.handleSetBreakpoints r = .returns (t', replies) ∧ t'.Valid ∧
      t'.nextBpId ≤ t.nextBpId + r.asked.length ∧ t.Served r t' replies := by
  obtain ⟨t', added, run, valid', bound, grown, own, held⟩ := addLines_spec (valid.dropSource r.source) ids
  rw [entries_dropSource] at grown held
  refine ⟨t', _, by rw [handleSetBreakpoints, run]; rfl, valid', bound, ?_⟩
  have mine : added.filter (fun b => b.source == r.source) = added :=
    List.filter_eq_self.mpr fun b member => beq_iff_eq.mpr (own b member)
  have theirs : added.filter (fun b => b.source != r.source) = [] :=
    List.filter_eq_nil_iff.mpr fun b member => by simp [own b member]
  have gone : (t.others r.source).filter (fun b => b.source == r.source) = [] :=
    List.filter_eq_nil_iff.mpr fun b member => by simpa [bne] using List.of_mem_filter member
  have kept : (t.others r.source).filter (fun b => b.source != r.source) = t.others r.source :=
    List.filter_eq_self.mpr fun b member => (List.mem_filter.mp member).2
  constructor
  · rw [linesOf, grown, List.filter_append, gone, mine, List.nil_append, held, room]
  · rw [others, grown, List.filter_append, kept, theirs, List.append_nil]
  · rw [List.map_map]
    exact List.map_id'' (fun line => by
      rw [Function.comp_apply, reply]
      split
      · rfl
      · rfl) _
  · intro b member
    obtain ⟨line, _, rfl⟩ := List.mem_map.mp member
    have same : (t'.reply r.source line).line = line := by
      rw [reply]
      split
      · rfl
      · rfl
    rw [same]
    exact valid'.reply_verified r.source line

/-- The lines of another source are among the entries a request leaves alone. -/
theorem Served.linesOf_other {t' : BreakpointTable} {replies : List BreakpointReply} (served : t.Served r t' replies)
    {source : List UInt8} (other : source ≠ r.source) : t'.linesOf source = t.linesOf source := by
  have within : ∀ t : BreakpointTable, t.linesOf source =
      ((t.others r.source).filter fun b => b.source == source).map DapBreakpoint.line := by
    intro t
    rw [others, List.filter_filter, linesOf]
    congr 1
    refine List.filter_congr fun b _ => ?_
    by_cases same : b.source = source
    · simp [same, other]
    · simp [same]
  rw [within t', within t, served.untouched]

theorem run_spec (requests : List SetBreakpoints) (valid : t.Valid)
    (ids : t.nextBpId + (requests.map fun r => r.asked.length).sum < 2 ^ 31) :
    ∃ t', Exec.run serve t requests = .returns t' ∧ t'.Valid ∧
      t'.nextBpId ≤ t.nextBpId + (requests.map fun r => r.asked.length).sum ∧
        ∀ source, (∀ r ∈ requests, r.source ≠ source) → t'.linesOf source = t.linesOf source := by
  induction requests generalizing t with
  | nil => exact ⟨t, rfl, valid, le_refl _, fun _ _ => rfl⟩
  | cons r requests ih =>
    rw [List.map_cons, List.sum_cons] at ids ⊢
    obtain ⟨t₁, replies, handled, valid₁, bound, served⟩ := handle_spec (t := t) (r := r) valid (by omega)
    obtain ⟨t', run, valid', bound', kept⟩ := ih valid₁ (by omega)
    refine ⟨t', ?_, valid', by omega, fun source never => ?_⟩
    · rw [Exec.run, serve, handled]
      exact run
    · rw [kept source fun r' member => never r' (List.mem_cons_of_mem _ member)]
      exact served.linesOf_other (never r List.mem_cons_self).symm

end BreakpointTable

/-- What the table holds after a history of requests. -/
structure RequestsHeld (requests : List SetBreakpoints) (t : BreakpointTable) : Prop where
  bounded : t.entries.length ≤ maxBreakpoints
  distinct : (t.entries.map DapBreakpoint.id).Nodup
  never : ∀ source, (∀ r ∈ requests, r.source ≠ source) → t.linesOf source = []
  last : ∀ before r after t₀, requests = before ++ r :: after → (∀ r' ∈ after, r'.source ≠ r.source) →
    Exec.run serve .empty before = .returns t₀ → t.linesOf r.source = r.asked.take (t₀.room r.source)
  answered : ∀ before r after t₀, requests = before ++ r :: after → Exec.run serve .empty before = .returns t₀ →
    ∃ t₁ replies, t₀.handleSetBreakpoints r = .returns (t₁, replies) ∧ t₀.Served r t₁ replies
  breaks : ∀ chunkname line, t.shouldBreak true chunkname line = true ↔ 0 < line ∧ ∃ source,
    basenameOf source = basenameOf (chunkPath (chunkname.getD [])) ∧ line ∈ t.linesOf source

/-- After any history of requests, the table holds for each source what of the last request
for it fitted, and the cart breaks at a line held for a source with its base name. -/
theorem breakpoints_held {requests : List SetBreakpoints}
    (ids : (requests.map fun r => r.asked.length).sum < 2 ^ 31) :
    ∃ t, Exec.run serve .empty requests = .returns t ∧ RequestsHeld requests t := by
  have start : empty.nextBpId = 0 := rfl
  obtain ⟨t, run, valid, -, kept⟩ := run_spec requests Valid.empty (by rw [start]; omega)
  have step : ∀ before r after t₀, requests = before ++ r :: after → Exec.run serve .empty before = .returns t₀ →
      ∃ t₁ replies, t₀.handleSetBreakpoints r = .returns (t₁, replies) ∧ t₀.Served r t₁ replies ∧
        t₁.Valid ∧ t₁.nextBpId + (after.map fun r => r.asked.length).sum < 2 ^ 31 ∧
          Exec.run serve t₁ after = .returns t := by
    intro before r after t₀ split first
    subst split
    rw [List.map_append, List.map_cons, List.sum_append, List.sum_cons] at ids
    obtain ⟨t', run', valid₀, bound, -⟩ := run_spec before Valid.empty (by rw [start]; omega)
    rw [first] at run'
    cases run'
    rw [start] at bound
    obtain ⟨t₁, replies, handled, valid₁, bound₁, served⟩ := handle_spec (t := t₀) (r := r) valid₀ (by omega)
    rw [Exec.run_append, first, Exec.returns_bind, Exec.run, serve, handled] at run
    exact ⟨t₁, replies, handled, served, valid₁, by omega, run⟩
  refine ⟨t, run, ?_⟩
  constructor
  · rw [entries_length]
    exact t.fits
  · exact valid.distinct
  · intro source never
    exact kept source never
  · intro before r after t₀ split later first
    obtain ⟨t₁, replies, -, served, valid₁, bound, rest⟩ := step before r after t₀ split first
    obtain ⟨t', run', -, -, keeps⟩ := run_spec after valid₁ bound
    rw [rest] at run'
    cases run'
    rw [keeps r.source later, served.replaced]
  · intro before r after t₀ split first
    obtain ⟨t₁, replies, handled, served, -⟩ := step before r after t₀ split first
    exact ⟨t₁, replies, handled, served⟩
  · intro chunkname line
    exact valid.shouldBreak_iff

/-- The breakpoints of a source, replaced by a later request for it. -/
theorem breakpoints_held_twice :
    ∃ t, Exec.run serve .empty [⟨[97], [5, 0]⟩, ⟨[97], [7]⟩] = .returns t ∧
      RequestsHeld [⟨[97], [5, 0]⟩, ⟨[97], [7]⟩] t :=
  breakpoints_held (by decide)

/-- The lines of the last request for a path. -/
def lastLines (requests : List SetBreakpoints) (path : List UInt8) : List Int :=
  match requests.reverse.find? fun r => r.path == path with
  | some r => r.lines
  | none => []

/-- A breakpoint in `a/x` stops the cart in `b/x` too. -/
theorem breakpoint_hit_elsewhere :
    ¬∀ (requests : List SetBreakpoints) (t : BreakpointTable), Exec.run serve .empty requests = .returns t →
      ∀ chunkname line, t.shouldBreak true (some chunkname) line = true ↔
        0 < line ∧ line ∈ lastLines requests (chunkPath chunkname) := by
  intro same
  have stops : (fun t => t.shouldBreak true (some [64, 98, 47, 120]) 5) <$>
      Exec.run serve .empty [⟨[97, 47, 120], [5]⟩] = .returns true := by decide +kernel
  obtain ⟨t, run, hit⟩ := Exec.map_eq_returns.mp stops
  have requested := ((same _ t run _ _).mp hit).2
  revert requested
  decide

end Blyt
