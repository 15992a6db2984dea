import Blyt.BlytFacade
import Blyt.Lib.Run

namespace Blyt.Facade
open UsedPrefix Run

/-- How many ends of a voice are in the queue. -/
def VoiceEndQueue.recorded (q : VoiceEndQueue) (handle : UInt8) : Nat :=
  (used q.pending q.pendingCount.toNat).countP (·.voiceHandle == handle)

/-- A runtime and the highest frame it has reached since its reset. -/
structure WatchedRuntime where
  rt : BlytRuntime
  highest : UInt32

namespace WatchedRuntime

def start (rt : BlytRuntime) : WatchedRuntime := ⟨blytRuntimeReset rt, 0⟩

def update (w : WatchedRuntime) (mask : UInt16) : Exec WatchedRuntime := do
  let rt ← blytRuntimeUpdate (blytRuntimeSetButtonState w.rt 0 mask)
  return ⟨rt, if w.highest < rt.cart.frame then rt.cart.frame else w.highest⟩

def Step (w : WatchedRuntime) (mask : UInt16) (w' : WatchedRuntime) : Prop := w.update mask = .returns w'

/-- Each end of the schedule that is due has been recorded once, and no other. -/
def EndsReported (w : WatchedRuntime) : Prop :=
  ∀ e ∈ syntheticSchedule, w.rt.voiceQ.recorded e.handle = if e.endsAtFrame ≤ w.highest then 1 else 0

/-- The update does not skip the frame of an end that is still due, and does not come back to that of
an end that was. -/
def LandsOnce (w : WatchedRuntime) (mask : UInt16) : Prop :=
  ∀ e ∈ syntheticSchedule, (w.highest < e.endsAtFrame → (tickCart mask w.rt.cart).frame ≤ e.endsAtFrame) ∧
    (e.endsAtFrame ≤ w.highest → (tickCart mask w.rt.cart).frame ≠ e.endsAtFrame)

/-- What holds as long as every end was reported. -/
structure Reported (w : WatchedRuntime) : Prop where
  within : w.rt.cart.Within
  ends : w.EndsReported
  count : w.rt.voiceQ.pendingCount.toNat = if 150 ≤ w.highest then 2 else 0

end WatchedRuntime

theorem VoiceEndQueue.record_spec {q : VoiceEndQueue} (room : q.pendingCount.toNat < 16) (frame : UInt32) (handle : UInt8) :
    (q.record frame handle).pendingCount.toNat = q.pendingCount.toNat + 1 ∧
      ∀ h, (q.record frame handle).recorded h = q.recorded h + if handle = h then 1 else 0 := by
  have next : (q.pendingCount + 1).toNat = q.pendingCount.toNat + 1 := by
    rw [UInt32.toNat_add]
    exact Nat.mod_eq_of_lt (Nat.lt_trans (Nat.add_lt_add_right room 1) (by decide))
  rw [record, dif_pos room]
  refine ⟨next, fun h => ?_⟩
  rw [recorded, next, used_store _ _ room, List.countP_append, recorded]
  simp [List.countP_singleton]

/-- Both voices of the schedule end at frame 150. -/
theorem mixerReport_spec {rt : BlytRuntime} (room : rt.voiceQ.pendingCount.toNat ≤ 2) (frame : UInt32) :
    (mixerReportEndOfFrame rt frame).voiceQ.pendingCount.toNat =
        rt.voiceQ.pendingCount.toNat + (if frame = 150 then 2 else 0) ∧
      ∀ e ∈ syntheticSchedule, (mixerReportEndOfFrame rt frame).voiceQ.recorded e.handle =
        rt.voiceQ.recorded e.handle + if frame = 150 then 1 else 0 := by
  by_cases due : frame = 150
  · subst due
    obtain ⟨first, firstEnds⟩ := VoiceEndQueue.record_spec (q := rt.voiceQ) (by omega) 150 1
    obtain ⟨second, secondEnds⟩ := VoiceEndQueue.record_spec (q := rt.voiceQ.record 150 1) (by omega) 150 2
    have queue : (mixerReportEndOfFrame rt 150).voiceQ = (rt.voiceQ.record 150 1).record 150 2 := rfl
    rw [queue, second, first]
    refine ⟨rfl, fun e member => ?_⟩
    rw [secondEnds, firstEnds]
    rcases List.mem_pair.mp member with rfl | rfl <;> rfl
  · have queue : (mixerReportEndOfFrame rt frame).voiceQ = rt.voiceQ := by
      simp [mixerReportEndOfFrame, syntheticSchedule, Ne.symm due]
    rw [queue, if_neg due, if_neg due]
    exact ⟨rfl, fun _ _ => rfl⟩

namespace WatchedRuntime
variable {w w' : WatchedRuntime} {mask : UInt16}

/-- What an update does, from a state in which every end was reported. -/
structure Updated (w : WatchedRuntime) (frame : UInt32) (w' : WatchedRuntime) : Prop where
  within : w'.rt.cart.Within
  highest : w'.highest = if w.highest < frame then frame else w.highest
  count : w'.rt.voiceQ.pendingCount.toNat = w.rt.voiceQ.pendingCount.toNat + if frame = 150 then 2 else 0
  ends : ∀ e ∈ syntheticSchedule, w'.rt.voiceQ.recorded e.handle =
    w.rt.voiceQ.recorded e.handle + if frame = 150 then 1 else 0

theorem Reported.update (inv : w.Reported) (mask : UInt16) :
    ∃ w', w.update mask = .returns w' ∧ Updated w (tickCart mask w.rt.cart).frame w' := by
  have latched : (blytRuntimeSetButtonState w.rt 0 mask).buttonMask 0 = mask := rfl
  obtain ⟨cart, run, within, frame⟩ := updateCart_within inv.within mask
  generalize moved : ({ blytRuntimeSetButtonState w.rt 0 mask with cart := cart } : BlytRuntime) = rt
  have next : blytRuntimeUpdate (blytRuntimeSetButtonState w.rt 0 mask) =
      .returns (mixerReportEndOfFrame rt cart.frame) := by
    rw [blytRuntimeUpdate, latched, ← moved]
    exact congrArg (· >>= _) run
  have queue : rt.voiceQ = w.rt.voiceQ := moved ▸ rfl
  have few : rt.voiceQ.pendingCount.toNat ≤ 2 := by
    rw [queue, inv.count]
    split <;> omega
  obtain ⟨count, ends⟩ := mixerReport_spec few cart.frame
  have there : (mixerReportEndOfFrame rt cart.frame).cart = cart := moved ▸ rfl
  rw [queue, frame] at count ends
  refine ⟨⟨mixerReportEndOfFrame rt cart.frame, _⟩, by rw [WatchedRuntime.update, next]; rfl, ?_, ?_, ?_, ?_⟩
  · rw [there]
    exact within
  · rw [there, frame]
  · rw [frame]
    exact count
  · rw [frame]
    exact ends

/-- From a state in which every end was reported, that the ends are reported again is a condition on
the frame an update lands on. -/
theorem Updated.reported_iff {frame : UInt32} (inv : w.Reported) (updated : Updated w frame w') :
    w'.EndsReported ↔ ∀ e ∈ syntheticSchedule, (w.highest < e.endsAtFrame → frame ≤ e.endsAtFrame) ∧
      (e.endsAtFrame ≤ w.highest → frame ≠ e.endsAtFrame) := by
  have highest : w'.highest.toNat = max w.highest.toNat frame.toNat := by
    rw [updated.highest]
    split <;> rename_i order <;> rw [UInt32.lt_iff_toNat_lt] at order <;> omega
  refine forall₂_congr fun e member => ?_
  have ends : e.endsAtFrame = 150 := by
    rcases List.mem_pair.mp member with rfl | rfl <;> rfl
  rw [updated.ends e member, inv.ends e member, ends]
  simp only [UInt32.le_iff_toNat_le, UInt32.lt_iff_toNat_lt, ← UInt32.toNat_inj, ne_eq, highest,
    show (150 : UInt32).toNat = 150 from rfl]
  split <;> split <;> split <;> omega

theorem Updated.reported {frame : UInt32} (inv : w.Reported) (updated : Updated w frame w')
    (ends : w'.EndsReported) : w'.Reported := by
  have first : (⟨1, 150⟩ : MixerEvent) ∈ syntheticSchedule := List.mem_cons_self
  have before := inv.ends _ first
  have after := ends _ first
  have now := updated.ends _ first
  refine ⟨updated.within, ends, ?_⟩
  rw [updated.count, inv.count]
  rw [before, after] at now
  split <;> split <;> split <;> simp_all

theorem reported_start (rt : BlytRuntime) : (start rt).Reported := by
  refine ⟨blytRuntimeReset_within rt, fun e member => ?_, rfl⟩
  rcases List.mem_pair.mp member with rfl | rfl <;> rfl

/-- Along a run from a reset every end is reported once, when its frame is reached, exactly if the
updates land on its frame once. -/
theorem voiceEnds_reported_iff (rt : BlytRuntime) (masks : List UInt16) :
    ((start rt).EndsReported ∧ Throughout Step (fun _ _ w' => w'.EndsReported) (start rt) masks) ↔
      Throughout Step (fun w mask _ => w.LandsOnce mask) (start rt) masks := by
  rw [and_iff_right (reported_start rt).ends]
  refine (throughout_iff Reported (fun w mask w' inv step => ?_) (fun w mask w' inv step ends => ?_)
    (reported_start rt) masks).symm
  · obtain ⟨next, run, updated⟩ := inv.update mask
    cases step.symm.trans run
    exact (updated.reported_iff inv).symm
  · obtain ⟨next, run, updated⟩ := inv.update mask
    cases step.symm.trans run
    exact updated.reported inv ends

/-- A whole run of updates. -/
def run (w : WatchedRuntime) (masks : List UInt16) : Exec WatchedRuntime := masks.foldlM update w

theorem run_throughout {P : WatchedRuntime → UInt16 → WatchedRuntime → Prop} {masks rest : List UInt16}
    (there : w.run masks = .returns w') (met : Throughout Step P w (masks ++ rest)) : Throughout Step P w' rest := by
  induction masks generalizing w with
  | nil =>
    cases there
    exact met
  | cons mask masks ih =>
    obtain ⟨next, step, there⟩ := Exec.bind_eq_returns.mp there
    exact ih there (met next step).2

/-- The button A is held until frame 148, and pressed again at frame 149, which skips frame 150. -/
theorem voiceEnds_missed :
    ¬∀ (rt : BlytRuntime) (masks : List UInt16), Throughout Step (fun _ _ w' => w'.EndsReported) (start rt) masks := by
  intro never
  have skipped : ((start blytRuntimeCreate).run (List.replicate 74 0x10 ++ [0]) >>= fun w =>
      w.update 0x10 >>= fun w' => .returns (w'.highest == 151 && w'.rt.voiceQ.recorded 1 == 0)) =
        .returns true := by decide +kernel
  obtain ⟨w, there, skipped⟩ := Exec.bind_eq_returns.mp skipped
  obtain ⟨w', step, skipped⟩ := Exec.bind_eq_returns.mp skipped
  obtain ⟨reached, missed⟩ := Bool.and_eq_true_iff.mp (Exec.returns.inj skipped)
  have ends := (run_throughout there (never blytRuntimeCreate (_ ++ [0x10])) w' step).1
  have first := ends ⟨1, 150⟩ List.mem_cons_self
  rw [eq_of_beq missed, eq_of_beq reached] at first
  cases first

end WatchedRuntime

end Blyt.Facade
