import Blyt.Lib.UsedPrefix
import Blyt.Lib.Run
import Blyt.TrackedRegions
import Mathlib.Data.Nat.Bitwise

namespace Blyt
open UsedPrefix

/-- The bit of a handle in the logical view. A shift by 64 or more is undefined; handles are
below 64. -/
def voiceBit (handle : UInt8) : UInt64 := 1 <<< handle.toUInt64

/-- `voice_start`. A stored `pending_count` is at most `VOICE_END_PENDING_MAX`. -/
def voiceStart (q : VoiceEndQueue) (handle : UInt8) : VoiceEndQueue :=
  let (pending, out) := compact (fun e => e.handle != handle) q.pending q.pendingCount.toNat
  { q with
    logicalViewBits := q.logicalViewBits ||| voiceBit handle
    pending := pending
    pendingCount := UInt8.ofNat out }

def voiceIsPlaying (q : VoiceEndQueue) (handle : UInt8) : Bool := q.logicalViewBits &&& voiceBit handle != 0

def VoiceEndQueue.queued (q : VoiceEndQueue) : List VoiceEndEvent := used q.pending q.pendingCount.toNat

def voiceEndApplyPending (q : VoiceEndQueue) : VoiceEndQueue :=
  { q with
    logicalViewBits := q.queued.foldl (fun bits e => bits &&& ~~~voiceBit e.handle) q.logicalViewBits
    pendingCount := 0 }

def voiceEndRecord (q : VoiceEndQueue) (frame : UInt32) (handle kind : UInt8) : VoiceEndQueue :=
  if q.pendingCount ≥ UInt8.ofNat voiceEndPendingMax then q
  else
    { q with
      pending := store q.pending q.pendingCount.toNat ⟨frame, handle, kind⟩
      pendingCount := q.pendingCount + 1 }

structure SyntheticMixerEvent where
  handle : UInt8
  endsAtFrame : UInt32

def syntheticMixerReportEndOfFrame (schedule : List SyntheticMixerEvent) (frame : UInt32) (q : VoiceEndQueue) :
    VoiceEndQueue :=
  schedule.foldl (fun q e => if e.endsAtFrame = frame then voiceEndRecord q frame e.handle 0 else q) q

/-- `g_q` of a fresh process. -/
def VoiceEndQueue.zero : VoiceEndQueue := ⟨0, 0, fun _ => ⟨0, 0, 0⟩⟩

theorem voiceBit_toNat {handle : UInt8} (small : handle < 64) : (voiceBit handle).toNat = 2 ^ handle.toNat := by
  have bound : 2 ^ handle.toNat < 2 ^ 64 := Nat.pow_lt_pow_right (by decide) (by simpa [UInt8.lt_iff_toNat_lt] using small)
  have shift : handle.toNat % 64 = handle.toNat := Nat.mod_eq_of_lt (by simpa [UInt8.lt_iff_toNat_lt] using small)
  rw [voiceBit, UInt64.toNat_shiftLeft, UInt8.toNat_toUInt64, shift, Nat.shiftLeft_eq]
  simpa using bound

theorem voiceIsPlaying_eq {q : VoiceEndQueue} {handle : UInt8} (small : handle < 64) :
    voiceIsPlaying q handle = q.logicalViewBits.toNat.testBit handle.toNat := by
  have word : (q.logicalViewBits &&& voiceBit handle = 0) ↔ q.logicalViewBits.toNat &&& 2 ^ handle.toNat = 0 := by
    rw [← UInt64.toNat_inj, UInt64.toNat_and, voiceBit_toNat small]
    rfl
  rw [Bool.eq_iff_iff, voiceIsPlaying, bne_iff_ne, ne_eq, word, Nat.and_comm, Nat.two_pow_and]
  cases q.logicalViewBits.toNat.testBit handle.toNat <;> simp

theorem testBit_or_voiceBit {bits : UInt64} {h g : UInt8} (small : h < 64) :
    (bits ||| voiceBit h).toNat.testBit g.toNat = (bits.toNat.testBit g.toNat || decide (h = g)) := by
  rw [UInt64.toNat_or, voiceBit_toNat small, Nat.testBit_or, Nat.testBit_two_pow]
  simp [UInt8.toNat_inj]

theorem testBit_and_not_voiceBit {bits : UInt64} {h g : UInt8} (small : h < 64) :
    (bits &&& ~~~voiceBit h).toNat.testBit g.toNat = (bits.toNat.testBit g.toNat && decide (h ≠ g)) := by
  have bound := (voiceBit h).toNat_lt
  have mask : (~~~voiceBit h).toNat = 2 ^ 64 - (2 ^ h.toNat + 1) := by
    rw [UInt64.toNat_not, voiceBit_toNat small, UInt64.size]
    omega
  rw [voiceBit_toNat small] at bound
  rw [UInt64.toNat_and, mask, Nat.testBit_and, Nat.testBit_two_pow_sub_succ bound, Nat.testBit_two_pow]
  by_cases inside : g.toNat < 64
  · simp [inside, UInt8.toNat_inj]
  · have high : bits.toNat.testBit g.toNat = false := by
      refine Nat.testBit_lt_two_pow (Nat.lt_of_lt_of_le bits.toNat_lt ?_)
      exact Nat.pow_le_pow_right (by decide) (by omega)
    simp [high]

theorem testBit_clear {events : List VoiceEndEvent} {bits : UInt64} {g : UInt8} (small : ∀ e ∈ events, e.handle < 64) :
    (events.foldl (fun bits e => bits &&& ~~~voiceBit e.handle) bits).toNat.testBit g.toNat =
      (bits.toNat.testBit g.toNat && decide (g ∉ events.map VoiceEndEvent.handle)) := by
  induction events generalizing bits with
  | nil => simp
  | cons e events ih =>
    rw [List.foldl_cons, ih fun e' member => small e' (List.mem_cons_of_mem _ member),
      testBit_and_not_voiceBit (small e List.mem_cons_self), Bool.and_assoc, ← Bool.decide_and]
    congr 1
    simp only [List.map_cons, List.mem_cons, decide_eq_decide, not_or]
    exact and_congr_left fun _ => ne_comm

/-- A queue no call leaves: room for all it claims to hold, and handles below 64. -/
structure VoiceEndQueue.Valid (q : VoiceEndQueue) : Prop where
  fits : q.pendingCount.toNat ≤ voiceEndPendingMax
  small : ∀ e ∈ q.queued, e.handle < 64

namespace VoiceEndQueue
variable {q : VoiceEndQueue} {h g : UInt8}

theorem queued_voiceStart (valid : q.Valid) : (voiceStart q h).queued = q.queued.filter fun e => e.handle != h := by
  have kept := compact_le (fun e : VoiceEndEvent => e.handle != h) q.pending valid.fits
  have half : (UInt8.ofNat (compact (fun e : VoiceEndEvent => e.handle != h) q.pending q.pendingCount.toNat).2).toNat =
      (compact (fun e : VoiceEndEvent => e.handle != h) q.pending q.pendingCount.toNat).2 :=
    UInt8.toNat_ofNat_of_lt' (Nat.lt_of_le_of_lt (kept.trans valid.fits) (by decide))
  simp only [voiceStart, queued, half]
  exact used_compact _ _ valid.fits

theorem fits_voiceStart (fits : q.pendingCount.toNat ≤ voiceEndPendingMax) (h : UInt8) :
    (voiceStart q h).pendingCount.toNat ≤ voiceEndPendingMax := by
  have kept := compact_le (fun e : VoiceEndEvent => e.handle != h) q.pending fits
  refine Nat.le_trans ?_ (kept.trans fits)
  exact (UInt8.toNat_ofNat' ..).trans_le (Nat.mod_le ..)

theorem Valid.voiceStart (valid : q.Valid) (h : UInt8) : (voiceStart q h).Valid := by
  refine ⟨fits_voiceStart valid.fits h, fun e member => ?_⟩
  rw [queued_voiceStart valid] at member
  exact valid.small e (List.mem_of_mem_filter member)

theorem isPlaying_voiceStart (small : h < 64) (small' : g < 64) :
    voiceIsPlaying (Blyt.voiceStart q h) g = (voiceIsPlaying q g || decide (h = g)) := by
  rw [voiceIsPlaying_eq small', voiceIsPlaying_eq small']
  exact testBit_or_voiceBit small

theorem queued_apply : (voiceEndApplyPending q).queued = [] := rfl

theorem Valid.apply : (voiceEndApplyPending q).Valid := ⟨Nat.zero_le _, nofun⟩

theorem isPlaying_apply (valid : q.Valid) (small : g < 64) :
    voiceIsPlaying (voiceEndApplyPending q) g =
      (voiceIsPlaying q g && decide (g ∉ q.queued.map VoiceEndEvent.handle)) := by
  rw [voiceIsPlaying_eq small, voiceIsPlaying_eq small]
  exact testBit_clear valid.small

/-- What `voice_end_record` does: it drops the event of a full queue, or queues it. -/
theorem record_cases (fits : q.pendingCount.toNat ≤ voiceEndPendingMax) (frame : UInt32) (h kind : UInt8) :
    (q.pendingCount.toNat = voiceEndPendingMax ∧ voiceEndRecord q frame h kind = q) ∨
      (q.pendingCount.toNat < voiceEndPendingMax ∧
        (voiceEndRecord q frame h kind).pendingCount.toNat = q.pendingCount.toNat + 1 ∧
        (voiceEndRecord q frame h kind).queued = q.queued ++ [⟨frame, h, kind⟩] ∧
        (voiceEndRecord q frame h kind).logicalViewBits = q.logicalViewBits) := by
  unfold voiceEndRecord
  by_cases full : q.pendingCount ≥ UInt8.ofNat voiceEndPendingMax
  · rw [if_pos full]
    exact Or.inl ⟨Nat.le_antisymm fits (UInt8.le_iff_toNat_le.mp full), rfl⟩
  · rw [if_neg full]
    have room : q.pendingCount.toNat < voiceEndPendingMax := by
      rw [ge_iff_le, UInt8.le_iff_toNat_le, not_le] at full
      exact full
    have count : (q.pendingCount + 1).toNat = q.pendingCount.toNat + 1 := by
      have small : q.pendingCount.toNat < 8 := room
      rw [UInt8.toNat_add]
      exact Nat.mod_eq_of_lt (show q.pendingCount.toNat + 1 < 2 ^ 8 by omega)
    refine Or.inr ⟨room, count, ?_, rfl⟩
    show used _ (q.pendingCount + 1).toNat = _
    rw [count]
    exact used_store q.pending _ room

theorem Valid.record (valid : q.Valid) (small : h < 64) (frame : UInt32) (kind : UInt8) :
    (voiceEndRecord q frame h kind).Valid := by
  rcases record_cases valid.fits frame h kind with ⟨-, same⟩ | ⟨room, count, queue, -⟩
  · rw [same]
    exact valid
  · refine ⟨by rw [count]; exact room, fun e member => ?_⟩
    rw [queue, List.mem_append, List.mem_singleton] at member
    rcases member with old | rfl
    · exact valid.small e old
    · exact small

theorem fits_report {schedule : List SyntheticMixerEvent} (fits : q.pendingCount.toNat ≤ voiceEndPendingMax)
    (frame : UInt32) : (syntheticMixerReportEndOfFrame schedule frame q).pendingCount.toNat ≤ voiceEndPendingMax := by
  unfold syntheticMixerReportEndOfFrame
  induction schedule generalizing q with
  | nil => exact fits
  | cons e schedule ih =>
    refine ih ?_
    show (if e.endsAtFrame = frame then voiceEndRecord q frame e.handle 0 else q).pendingCount.toNat ≤ voiceEndPendingMax
    split
    · rcases record_cases fits frame e.handle 0 with ⟨-, same⟩ | ⟨room, count, -, -⟩
      · rw [same]
        exact fits
      · rw [count]
        exact room
    · exact fits

end VoiceEndQueue

end Blyt
