import Blyt.VoiceEndQueue

namespace Blyt
open VoiceEndQueue

/-- A handle the 64-bit view has a bit for. -/
abbrev VoiceHandle := { h : UInt8 // h < 64 }

inductive VoiceEvent where
  | start (handle : VoiceHandle)
  | record (frame : UInt32) (handle : VoiceHandle) (kind : UInt8)
  | report (frame : UInt32)
  | apply

/-- The queue, and which handles were started and have had no end recorded since. -/
structure WatchedVoices where
  queue : VoiceEndQueue
  sounding : UInt8 → Bool

namespace WatchedVoices

def begin : WatchedVoices := ⟨.zero, fun _ => false⟩

def ended (w : WatchedVoices) (frame : UInt32) (handle kind : UInt8) : WatchedVoices :=
  ⟨voiceEndRecord w.queue frame handle kind, Function.update w.sounding handle false⟩

def reported (w : WatchedVoices) (frame : UInt32) (schedule : List SyntheticMixerEvent) : WatchedVoices :=
  schedule.foldl (fun w e => if e.endsAtFrame = frame then w.ended frame e.handle 0 else w) w

def step (schedule : List SyntheticMixerEvent) (w : WatchedVoices) : VoiceEvent → WatchedVoices
  | .start h => ⟨voiceStart w.queue h, Function.update w.sounding h.val true⟩
  | .record frame h kind => w.ended frame h kind
  | .report frame => ⟨syntheticMixerReportEndOfFrame schedule frame w.queue, (w.reported frame schedule).sounding⟩
  | .apply => ⟨voiceEndApplyPending w.queue, w.sounding⟩

end WatchedVoices

/-- The end of a handle is not lost: the queue has room for it, or the handle is not playing,
or waits for an end already. -/
def VoiceEndQueue.Takes (q : VoiceEndQueue) (handle : UInt8) : Prop :=
  q.pendingCount.toNat < voiceEndPendingMax ∨ voiceIsPlaying q handle = false ∨
    handle ∈ q.queued.map VoiceEndEvent.handle

/-- None of the ends a mixer reports is lost. -/
def VoiceEndQueue.TakesAll (frame : UInt32) : VoiceEndQueue → List SyntheticMixerEvent → Prop
  | _, [] => True
  | q, e :: schedule =>
    if e.endsAtFrame = frame then
      q.Takes e.handle ∧ TakesAll frame (voiceEndRecord q frame e.handle 0) schedule
    else TakesAll frame q schedule

def VoiceEvent.Taken (schedule : List SyntheticMixerEvent) (q : VoiceEndQueue) : VoiceEvent → Prop
  | .record _ h _ => q.Takes h
  | .report frame => q.TakesAll frame schedule
  | .start _ => True
  | .apply => True

/-- The logical view less the ends that wait is what sounds. -/
structure Tracks (w : WatchedVoices) : Prop where
  valid : w.queue.Valid
  view : ∀ h < 64, w.sounding h = true ↔
    voiceIsPlaying w.queue h = true ∧ h ∉ w.queue.queued.map VoiceEndEvent.handle

namespace Tracks
variable {w : WatchedVoices}

theorem begin : Tracks .begin := by
  refine ⟨⟨Nat.zero_le _, nofun⟩, fun h small => ?_⟩
  have silent : voiceIsPlaying .zero h = false := by
    rw [voiceIsPlaying_eq small]
    exact Nat.zero_testBit _
  show false = true ↔ voiceIsPlaying .zero h = true ∧ _
  rw [silent]
  simp

theorem start (tracks : Tracks w) (h : VoiceHandle) :
    Tracks ⟨voiceStart w.queue h, Function.update w.sounding h.val true⟩ := by
  refine ⟨tracks.valid.voiceStart h, fun g small => ?_⟩
  dsimp only
  rw [isPlaying_voiceStart h.property small, queued_voiceStart tracks.valid]
  by_cases same : g = h.val
  · subst same
    simp
  · have apart : ¬h.val = g := fun eq => same eq.symm
    have waits : g ∈ (w.queue.queued.filter fun e => e.handle != h.val).map VoiceEndEvent.handle ↔
        g ∈ w.queue.queued.map VoiceEndEvent.handle := by
      simp only [List.mem_map, List.mem_filter, bne_iff_ne, ne_eq]
      constructor
      · rintro ⟨e, ⟨member, -⟩, rfl⟩
        exact ⟨e, member, rfl⟩
      · rintro ⟨e, member, rfl⟩
        exact ⟨e, ⟨member, same⟩, rfl⟩
    rw [Function.update_of_ne same, tracks.view g small, waits]
    simp only [apart, decide_false, Bool.or_false]

theorem ended (tracks : Tracks w) {h : UInt8} (small : h < 64) (takes : w.queue.Takes h) (frame : UInt32) (kind : UInt8) :
    Tracks (w.ended frame h kind) := by
  refine ⟨tracks.valid.record small frame kind, fun g small' => ?_⟩
  dsimp only [WatchedVoices.ended]
  rcases record_cases tracks.valid.fits frame h kind with ⟨full, same⟩ | ⟨room, count, queue, bits⟩
  · rw [same]
    by_cases here : g = h
    · subst here
      rw [Function.update_self]
      refine iff_of_false Bool.false_ne_true ?_
      rintro ⟨playing, idle⟩
      rcases takes with room | silent | waits
      · omega
      · rw [silent] at playing
        cases playing
      · exact idle waits
    · rw [Function.update_of_ne here]
      exact tracks.view g small'
  · have view : voiceIsPlaying (voiceEndRecord w.queue frame h kind) g = voiceIsPlaying w.queue g := by
      rw [voiceIsPlaying, bits]
      rfl
    rw [queue, view]
    by_cases here : g = h
    · subst here
      rw [Function.update_self]
      simp
    · rw [Function.update_of_ne here, tracks.view g small']
      simp [here]

theorem apply (tracks : Tracks w) : Tracks ⟨voiceEndApplyPending w.queue, w.sounding⟩ := by
  refine ⟨.apply, fun g small => ?_⟩
  dsimp only
  rw [isPlaying_apply tracks.valid small, tracks.view g small, queued_apply]
  simp

end Tracks

section
variable {schedule : List SyntheticMixerEvent} (inRange : ∀ e ∈ schedule, e.handle < 64)

include inRange in
theorem Tracks.reported {w : WatchedVoices} (tracks : Tracks w) {frame : UInt32} (takes : w.queue.TakesAll frame schedule) :
    Tracks (w.reported frame schedule) ∧
      (w.reported frame schedule).queue = syntheticMixerReportEndOfFrame schedule frame w.queue := by
  induction schedule generalizing w with
  | nil => exact ⟨tracks, rfl⟩
  | cons e schedule ih =>
    have rest : ∀ e ∈ schedule, e.handle < 64 := fun e member => inRange e (List.mem_cons_of_mem _ member)
    rw [VoiceEndQueue.TakesAll] at takes
    rw [WatchedVoices.reported, syntheticMixerReportEndOfFrame, List.foldl_cons, List.foldl_cons]
    by_cases ends : e.endsAtFrame = frame
    · rw [if_pos ends] at takes
      rw [if_pos ends, if_pos ends]
      exact ih rest (tracks.ended (inRange e List.mem_cons_self) takes.1 frame 0) takes.2
    · rw [if_neg ends] at takes
      rw [if_neg ends, if_neg ends]
      exact ih rest tracks takes

/-- Right after an apply, what plays is what sounds. -/
def AppliedRight (_ : WatchedVoices) (e : VoiceEvent) (w' : WatchedVoices) : Prop :=
  e = .apply → ∀ h < 64, voiceIsPlaying w'.queue h = w'.sounding h

include inRange in
/-- In every run that loses no end, right after every `voice_end_apply_pending` the voices
playing are those that were started and have had no end recorded since. -/
theorem voiceEnds_applied {events : List VoiceEvent}
    (taken : Run.Throughout (fun w e w' => w' = WatchedVoices.step schedule w e)
      (fun w e _ => e.Taken schedule w.queue) .begin events) :
    Run.Throughout (fun w e w' => w' = WatchedVoices.step schedule w e) AppliedRight .begin events := by
  refine taken.of_invariant Tracks (fun w e w' tracks step taken => ?_) .begin
  subst step
  cases e with
  | start h => exact ⟨tracks.start h, nofun⟩
  | record frame h kind => exact ⟨tracks.ended h.property taken frame kind, nofun⟩
  | report frame =>
    obtain ⟨after, queue⟩ := tracks.reported inRange taken
    refine ⟨⟨?_, fun h small => ?_⟩, nofun⟩
    · rw [WatchedVoices.step, ← queue]
      exact after.valid
    · rw [WatchedVoices.step, ← queue]
      exact after.view h small
  | apply =>
    refine ⟨tracks.apply, fun _ h small => ?_⟩
    have view := tracks.apply.view h small
    rw [queued_apply] at view
    rw [Bool.eq_iff_iff, WatchedVoices.step, view]
    simp
end

/-- One voice, ended by the mixer and applied. -/
theorem voiceEnds_applied_one :
    Run.Throughout (fun w e w' => w' = WatchedVoices.step [⟨1, 5⟩] w e) AppliedRight .begin
      [.start ⟨1, by decide⟩, .report 5, .apply] :=
  voiceEnds_applied (by decide) fun _ one => ⟨trivial, fun _ two =>
    ⟨by rw [one]; exact ⟨Or.inl (by decide), trivial⟩, fun _ three => ⟨trivial, trivial⟩⟩⟩

def nineVoices : List VoiceHandle :=
  [0, 1, 2, 3, 4, 5, 6, 7, 8].pmap Subtype.mk (by decide +kernel)

/-- Nine voices end before the queue is applied: the end of the ninth is lost. -/
theorem voiceEnds_lost :
    ¬Run.Throughout (fun w e w' => w' = WatchedVoices.step [] w e) AppliedRight .begin
      ((nineVoices.map .start ++ nineVoices.map fun h => .record 0 h 0) ++ [.apply]) := by
  intro along
  have right := along.last rfl 8 (by decide)
  revert right
  decide +kernel

end Blyt
