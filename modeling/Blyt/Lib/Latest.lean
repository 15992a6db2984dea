import Mathlib.Data.List.Basic

namespace Latest
universe u v w
variable {ε : Type u} {κ : Type v} {ω : Type w} {tells : ε → κ → Option ω}

/-- What the latest event that tells anything about `k` tells of it. -/
def latest (tells : ε → κ → Option ω) (log : List ε) (k : κ) : Option ω :=
  log.foldl (fun known e => (tells e k).or known) none

theorem latest_nil (k : κ) : latest tells [] k = none := rfl

theorem latest_snoc (log : List ε) (e : ε) (k : κ) :
    latest tells (log ++ [e]) k = (tells e k).or (latest tells log k) := by
  rw [latest, List.foldl_append]
  rfl

end Latest
