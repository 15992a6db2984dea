import Blyt.Lib.Run
import Blyt.RetroCore

namespace Blyt.Facade
open Run

/-- The two counters from which a run of the core takes the size of its audio batch. -/
structure AudioCounters where
  totalPushed : UInt64
  totalRunCalls : UInt64

namespace AudioCounters

/-- As `retro_init` leaves them. -/
def start : AudioCounters := ⟨0, 0⟩

/-- What a run asks `blyt_runtime_pull_audio` for. -/
def target (sampleRate declaredFps : UInt32) (a : AudioCounters) : Int :=
  let target := adapterComputeAudioFrames sampleRate declaredFps a.totalPushed a.totalRunCalls
  if maxAudioFramesPerRun < target then maxAudioFramesPerRun else target

/-- The counters behind a pull of `n` samples. -/
def push (a : AudioCounters) (n : Int) : AudioCounters := ⟨a.totalPushed + UInt64.ofInt n, a.totalRunCalls + 1⟩

def Step (a : AudioCounters) (n : Int) (a' : AudioCounters) : Prop := a' = a.push n

/-- The pull hands back all it was asked for; asked for less than nothing, it hands back nothing. -/
def Satisfied (sampleRate declaredFps : UInt32) (a : AudioCounters) (n : Int) : Prop :=
  n = max (a.target sampleRate declaredFps) 0

end AudioCounters

/-- The ideal number of samples for the frame behind the first `k`. -/
def audioQuota (sampleRate declaredFps : UInt32) (k : Nat) : Nat :=
  (k + 1) * sampleRate.toNat / declaredFps.toNat - k * sampleRate.toNat / declaredFps.toNat

def RetroCore.audioCounters (core : RetroCore) : AudioCounters := ⟨core.totalAudioPushed, core.totalRunCalls⟩

/-- A run of a loaded core pushes what a satisfied pull hands back, at 48 kHz and 60 frames a second. -/
theorem retroRun_audio {core next : RetroCore} {rt : BlytRuntime} (at_ : core.rt = some rt) {buttons : UInt16}
    {now : UInt64} (ran : retroRun core buttons now = .returns next) :
    ∃ n, AudioCounters.Satisfied 48000 60 core.audioCounters n ∧ core.audioCounters.Step n next.audioCounters := by
  simp only [retroRun, at_] at ran
  obtain ⟨_, -, ran⟩ := Exec.bind_eq_returns.mp ran
  obtain ⟨_, -, ran⟩ := Exec.bind_eq_returns.mp ran
  cases ran
  exact ⟨_, rfl, rfl⟩

/-- Where a frame's share of the rate fits, every frame's quota does. -/
theorem audioQuota_le {sampleRate declaredFps : UInt32} (positive : declaredFps ≠ 0) {bound : Nat}
    (share : sampleRate.toNat ≤ bound * declaredFps.toNat) (k : Nat) : audioQuota sampleRate declaredFps k ≤ bound := by
  have some : 0 < declaredFps.toNat := Nat.pos_of_ne_zero fun zero => positive (UInt32.toNat_inj.mp zero)
  have next : (k + 1) * sampleRate.toNat / declaredFps.toNat ≤
      (k * sampleRate.toNat + bound * declaredFps.toNat) / declaredFps.toNat := by
    refine Nat.div_le_div_right ?_
    rw [Nat.succ_mul]
    omega
  rw [Nat.add_mul_div_right _ _ some] at next
  rw [audioQuota]
  omega

theorem toNat_ofInt_natCast (m : Nat) : (UInt64.ofInt (m : Int)).toNat = m % 2 ^ 64 := by
  rw [UInt64.ofInt, UInt64.toNat_ofNat']
  omega

theorem toInt_toInt32_of_lt {n : UInt64} (small : n.toNat < 2 ^ 31) : n.toUInt32.toInt32.toInt = n.toNat := by
  have word : n.toUInt32.toBitVec.toNat = n.toNat := by
    show n.toUInt32.toNat = _
    rw [UInt64.toNat_toUInt32]
    omega
  rw [← Int32.toInt_toBitVec, UInt32.toBitVec_toInt32, BitVec.toInt_eq_toNat_of_lt (by omega), word]

namespace AudioCounters
variable {sampleRate declaredFps : UInt32} {a : AudioCounters} {k : Nat}

/-- The counters after `k` runs, nothing being lost. -/
structure Exact (sampleRate declaredFps : UInt32) (k : Nat) (a : AudioCounters) : Prop where
  pushed : a.totalPushed.toNat = k * sampleRate.toNat / declaredFps.toNat
  runs : a.totalRunCalls.toNat = k % 2 ^ 64

/-- What the adapter asks for after `k` runs is the quota of the next frame. -/
theorem Exact.target (exact : Exact sampleRate declaredFps k a) (positive : declaredFps ≠ 0)
    (room : (k + 1) * sampleRate.toNat < 2 ^ 64) (fits : audioQuota sampleRate declaredFps k ≤ 4096) :
    a.target sampleRate declaredFps = audioQuota sampleRate declaredFps k := by
  have ideal : ((a.totalRunCalls + 1) * sampleRate.toUInt64 / declaredFps.toUInt64).toNat =
      (k + 1) * sampleRate.toNat / declaredFps.toNat := by
    rw [UInt64.toNat_div, UInt64.toNat_mul, UInt64.toNat_add, exact.runs, UInt32.toNat_toUInt64, UInt32.toNat_toUInt64]
    show ((k % 2 ^ 64 + 1) % 2 ^ 64 * sampleRate.toNat) % 2 ^ 64 / declaredFps.toNat = _
    rw [Nat.mod_add_mod, Nat.mod_mul_mod, Nat.mod_eq_of_lt room]
  rw [audioQuota] at fits ⊢
  simp only [AudioCounters.target, adapterComputeAudioFrames, if_neg positive, UInt64.le_iff_toNat_le, ideal, exact.pushed]
  split
  · simp only [maxAudioFramesPerRun]
    omega
  · rename_i behind
    have owed : a.totalPushed ≤ (a.totalRunCalls + 1) * sampleRate.toUInt64 / declaredFps.toUInt64 := by
      rw [UInt64.le_iff_toNat_le, ideal, exact.pushed]
      omega
    have difference := UInt64.toNat_sub_of_le _ _ owed
    rw [ideal, exact.pushed] at difference
    rw [toInt_toInt32_of_lt (by omega), difference]
    simp only [maxAudioFramesPerRun]
    omega

theorem Exact.push (exact : Exact sampleRate declaredFps k a) (positive : declaredFps ≠ 0)
    (room : (k + 1) * sampleRate.toNat < 2 ^ 64) (fits : audioQuota sampleRate declaredFps k ≤ 4096) {n : Int}
    (satisfied : a.Satisfied sampleRate declaredFps n) : Exact sampleRate declaredFps (k + 1) (a.push n) := by
  have monotone : k * sampleRate.toNat / declaredFps.toNat ≤ (k + 1) * sampleRate.toNat / declaredFps.toNat :=
    Nat.div_le_div_right (Nat.mul_le_mul_right _ (Nat.le_succ k))
  have bound : (k + 1) * sampleRate.toNat / declaredFps.toNat < 2 ^ 64 := Nat.lt_of_le_of_lt (Nat.div_le_self ..) room
  have pulled : n = audioQuota sampleRate declaredFps k := by
    rw [satisfied, exact.target positive room fits]
    omega
  refine ⟨?_, ?_⟩
  · have samples : (UInt64.ofInt n).toNat = audioQuota sampleRate declaredFps k := by
      rw [pulled, toNat_ofInt_natCast]
      omega
    show (a.totalPushed + UInt64.ofInt n).toNat = _
    rw [UInt64.toNat_add, exact.pushed, samples, audioQuota, Nat.add_sub_of_le monotone]
    exact Nat.mod_eq_of_lt bound
  · show (a.totalRunCalls + 1).toNat = _
    rw [UInt64.toNat_add, exact.runs]
    exact Nat.mod_add_mod ..

theorem Exact.pushes (exact : Exact sampleRate declaredFps k a) (positive : declaredFps ≠ 0) {pulls : List Int}
    (fits : ∀ i < k + pulls.length, audioQuota sampleRate declaredFps i ≤ 4096)
    (room : (k + pulls.length) * sampleRate.toNat < 2 ^ 64)
    (satisfied : Throughout Step (fun a n _ => a.Satisfied sampleRate declaredFps n) a pulls) :
    Exact sampleRate declaredFps (k + pulls.length) (pulls.foldl AudioCounters.push a) := by
  induction pulls generalizing a k with
  | nil => exact exact
  | cons n pulls ih =>
    obtain ⟨pulled, rest⟩ := satisfied _ rfl
    have length : k + (n :: pulls).length = k + 1 + pulls.length := by
      rw [List.length_cons]
      omega
    rw [length] at fits room ⊢
    have sooner : (k + 1) * sampleRate.toNat ≤ (k + 1 + pulls.length) * sampleRate.toNat :=
      Nat.mul_le_mul_right _ (Nat.le_add_right ..)
    exact ih (exact.push positive (by omega) (fits k (by omega)) pulled) fits room rest

/-- The audio quota does not drift: where every pull is satisfied, the samples pushed after `n` frames are
the whole samples of `n` ideal frames, which leaves less than one sample out. -/
theorem audioQuota_exact {sampleRate declaredFps : UInt32} (positive : declaredFps ≠ 0) {pulls : List Int}
    (fits : ∀ k < pulls.length, audioQuota sampleRate declaredFps k ≤ 4096)
    (room : pulls.length * sampleRate.toNat < 2 ^ 64)
    (satisfied : Throughout Step (fun a n _ => a.Satisfied sampleRate declaredFps n) start pulls) :
    let pushed := (pulls.foldl AudioCounters.push start).totalPushed.toNat
    pushed = pulls.length * sampleRate.toNat / declaredFps.toNat ∧
      pushed * declaredFps.toNat ≤ pulls.length * sampleRate.toNat ∧
      pulls.length * sampleRate.toNat < (pushed + 1) * declaredFps.toNat := by
  intro pushed
  have fresh : Exact sampleRate declaredFps 0 start := ⟨by rw [Nat.zero_mul, Nat.zero_div]; rfl, rfl⟩
  rw [← Nat.zero_add pulls.length] at fits room ⊢
  have total : pushed = (0 + pulls.length) * sampleRate.toNat / declaredFps.toNat :=
    (fresh.pushes positive fits room satisfied).pushed
  have some : 0 < declaredFps.toNat := Nat.pos_of_ne_zero fun zero => positive (UInt32.toNat_inj.mp zero)
  refine ⟨total, ?_, ?_⟩
  · rw [total]
    exact Nat.div_mul_le_self ..
  · rw [total]
    exact Nat.lt_mul_of_div_lt (Nat.lt_succ_self _) some

/-- Three frames at 44.1 kHz and 48 frames a second: the quotas are 918, 919 and 919. -/
theorem audioQuota_exact_three :
    ([918, 919, 919].foldl AudioCounters.push start).totalPushed.toNat = 2756 :=
  (@audioQuota_exact 44100 48 (by decide) [918, 919, 919]
    (fun k _ => audioQuota_le (by decide) (by decide) k) (by decide)
    (by rintro _ rfl; exact ⟨rfl, by rintro _ rfl; exact ⟨rfl, by rintro _ rfl; exact ⟨rfl, trivial⟩⟩⟩)).1

end AudioCounters
end Blyt.Facade
