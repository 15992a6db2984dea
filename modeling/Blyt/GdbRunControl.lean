import Blyt.GdbStub
import Blyt.Lib.Run

namespace Blyt
namespace GdbStub
open Run

/-- Where the emulator is: outside of `fc_gdb_stub_step`, with what it returned last, or in it, in
front of `send_pkt` or in the loop. -/
inductive EmulatorAt where
  | running (action : Action)
  | reporting
  | waiting
  deriving DecidableEq

/-- A packet of the client, what the server thread and `fc_gdb_stub_step` have sent in reply, and
whether a stop was reported since. -/
structure Exchange where
  pkt : CString
  immediate : List CString
  stops : List CString
  stopped : Bool

/-- The stub, with the packets of the connection that it has now. -/
structure Session (σ : Type) where
  gdb : GdbState σ
  emulator : EmulatorAt
  exchanges : List Exchange

inductive Event where
  | connect
  | disconnect
  | packet (pkt : CString) (malloc : Nat → Bool)
  | stop
  | report (malloc : Nat → Bool)
  | wake
  | notifyReload

def resumes (pkt : CString) : Bool := startsWith pkt.chars "vCont;c" || startsWith pkt.chars "vCont;s"

def reloads (pkt : CString) : Bool := startsWith pkt.chars "qFc32:reload:"

/-- The packet has set the target going, and no stop was reported since. -/
def Exchange.awaits (x : Exchange) : Bool :=
  match dispatch x.pkt.chars with
  | .vCont _ => !x.stopped
  | _ => false

def Exchange.report (packets : List CString) (x : Exchange) : Exchange :=
  { x with stops := if x.awaits then x.stops ++ packets else x.stops, stopped := true }

section
variable {σ : Type}

def boot (layout : FcGdbLayout) (ops : FcGdbCpuOps σ) (machine : σ) : Session σ where
  gdb := {
    connected := false
    layout := layout
    ops := ops
    machine := machine
    breaks := ⟨[], Nat.zero_le _⟩
    halted := false
    pendingAction := .continue
    reloadPending := false }
  emulator := .running .continue
  exchanges := []

def Session.Enabled (s : Session σ) : Event → Prop
  | .connect => s.gdb.connected = false
  | .disconnect => s.gdb.connected = true
  | .packet _ _ => s.gdb.connected = true
  | .stop => ∃ action, s.emulator = .running action
  | .report _ => s.emulator = .reporting
  | .wake => s.emulator = .waiting ∧ s.gdb.halted = false
  | .notifyReload => True

/-- `connect`, `packet` and `disconnect` are `gdb_thread_main`; `stop`, `report` and `wake` are
`fc_gdb_stub_step`. -/
def Session.step (s : Session σ) : Event → Exec (Session σ)
  | .connect => .returns { s with gdb := { s.gdb with connected := true, halted := true }, exchanges := [] }
  | .disconnect => .returns { s with gdb := { s.gdb with connected := false, halted := false }, exchanges := [] }
  | .packet pkt malloc => do
    let (out, g) ← handlePacket malloc s.gdb pkt
    let library := if g.reloadPending then sent malloc g libraryEvent else []
    return { s with
      gdb := { g with reloadPending := false }
      exchanges := s.exchanges ++ [⟨pkt, sent malloc g out ++ library, [], false⟩] }
  | .stop => .returns { s with gdb := { s.gdb with halted := true }, emulator := .reporting }
  | .report malloc => .returns { s with
      emulator := .waiting
      exchanges := s.exchanges.map (Exchange.report (sent malloc s.gdb stopReply)) }
  | .wake => .returns { s with emulator := .running s.gdb.pendingAction }
  | .notifyReload => .returns { s with gdb := { s.gdb with reloadPending := true } }

def Step (a : Exec (Session σ)) (e : Event) (b : Exec (Session σ)) : Prop :=
  ∃ s, a = .returns s ∧ s.Enabled e ∧ b = s.step e

/-- A `vCont;c` or `vCont;s` is answered by the stop reply alone; any other packet but a reload by
one packet at once. -/
def Exchange.Answered (x : Exchange) : Prop :=
  if resumes x.pkt then x.immediate = [] ∧ x.stops.length = if x.stopped then 1 else 0
  else reloads x.pkt ∨ x.immediate.length = 1 ∧ x.stops = []

def Answered : Exec (Session σ) → Prop
  | .returns s => ∀ x ∈ s.exchanges, x.Answered
  | _ => False

/-- The buffers that `send_pkt` asks for can be had. -/
def Event.Served : Event → Prop
  | .packet _ malloc => ∀ n ≤ maxPacket + 16, malloc n
  | .report malloc => ∀ n ≤ maxPacket + 16, malloc n
  | _ => True

def Session.Meets (s : Session σ) : Event → Prop
  | .packet pkt _ => resumes pkt = false ∧ (s.gdb.reloadPending → reloads pkt) ∧
      ∀ args, dispatch pkt.chars = .qXferLibraries args → ListFits s.gdb.layout args
  | .report _ => ∀ x ∈ s.exchanges, x.awaits → resumes x.pkt
  | _ => True

def Condition : Exec (Session σ) → Event → Prop
  | .returns s, e => s.Meets e
  | _, _ => True

theorem Exchange.Answered.once {x : Exchange} (answered : x.Answered) (other : reloads x.pkt = false) :
    (x.immediate ++ x.stops).length ≤ 1 := by
  rw [Exchange.Answered] at answered
  split at answered
  · rw [answered.1, List.nil_append, answered.2]
    split
    · exact Nat.le_refl _
    · exact Nat.zero_le _
  · obtain ⟨one, none⟩ := answered.resolve_left (by simp [other])
    rw [none, List.append_nil, one]

theorem resumes_dispatch {pkt : CString} (resume : resumes pkt = true) : ∃ args, dispatch pkt.chars = .vCont args := by
  rw [resumes, Bool.or_eq_true] at resume
  exact dispatch_vCont resume

theorem reloads_iff {pkt : CString} : reloads pkt = true ↔ ∃ args, dispatch pkt.chars = .qFc32Reload args :=
  dispatch_qFc32Reload_iff

theorem awaits_iff {x : Exchange} : x.awaits = true ↔ x.stopped = false ∧ ∃ args, dispatch x.pkt.chars = .vCont args := by
  rw [Exchange.awaits]
  split
  · rename_i args same
    rw [same]
    simp
  · rename_i other
    simp only [Bool.false_eq_true, false_iff, not_and]
    rintro - ⟨args, same⟩
    exact other args same

theorem report_answered_iff {x : Exchange} {packet : CString} (answered : x.Answered) :
    (x.report [packet]).Answered ↔ (x.awaits → resumes x.pkt) := by
  by_cases resume : resumes x.pkt = true
  · refine iff_of_true ?_ fun _ => resume
    rw [Exchange.Answered, if_pos resume] at answered
    obtain ⟨none, count⟩ := answered
    rw [Exchange.Answered, if_pos (show resumes (x.report [packet]).pkt = true from resume)]
    refine ⟨none, ?_⟩
    have vCont := resumes_dispatch resume
    cases stopped : x.stopped with
    | false =>
      have awaits := awaits_iff.mpr ⟨stopped, vCont⟩
      rw [stopped, if_neg Bool.false_ne_true] at count
      simp [Exchange.report, awaits, List.eq_nil_of_length_eq_zero count]
    | true =>
      have rests : x.awaits = false := by
        rw [Bool.eq_false_iff, Ne, awaits_iff]
        simp [stopped]
      rw [stopped, if_pos rfl] at count
      simpa [Exchange.report, rests] using count
  · have keep : resumes (x.report [packet]).pkt ≠ true := resume
    rw [Exchange.Answered, if_neg resume] at answered
    rw [Exchange.Answered, if_neg keep]
    cases awaits : x.awaits with
    | false =>
      refine iff_of_true ?_ fun awaited => absurd awaited Bool.false_ne_true
      simpa [Exchange.report, awaits] using answered
    | true =>
      refine iff_of_false ?_ fun only => resume (only rfl)
      obtain ⟨-, args, vCont⟩ := awaits_iff.mp awaits
      have other : ¬ reloads x.pkt = true := by
        rw [reloads_iff]
        rintro ⟨args', reload⟩
        rw [vCont] at reload
        cases reload
      rintro (reload | ⟨-, none⟩)
      · exact other reload
      · rw [Exchange.report, awaits] at none
        simp at none

theorem sent_of_served {malloc : Nat → Bool} {g : GdbState σ} {payload : CString}
    (served : ∀ n ≤ maxPacket + 16, malloc n) (connected : g.connected = true)
    (short : payload.chars.length ≤ maxPacket) : sent malloc g payload = [payload] := by
  rw [sent, if_pos ⟨connected, served _ (by omega)⟩]

theorem new_answered_iff {pkt out : CString} {library : List CString} :
    Exchange.Answered ⟨pkt, [out] ++ library, [], false⟩ ↔ resumes pkt = false ∧ (reloads pkt ∨ library = []) := by
  rw [Exchange.Answered]
  cases resumes pkt with
  | true => exact iff_of_false (fun both => List.cons_ne_nil _ _ both.1) fun both => nomatch both.1
  | false =>
    rw [if_neg Bool.false_ne_true, and_iff_right rfl]
    simp

theorem step_packet {s : Session σ} {pkt out : CString} {malloc : Nat → Bool} {g : GdbState σ}
    (handled : handlePacket malloc s.gdb pkt = .returns (out, g)) :
    s.step (.packet pkt malloc) = .returns { s with
      gdb := { g with reloadPending := false }
      exchanges := s.exchanges ++
        [⟨pkt, sent malloc g out ++ if g.reloadPending then sent malloc g libraryEvent else [], [], false⟩] } := by
  rw [Session.step, handled]
  rfl

theorem packet_answered_iff {s : Session σ} {pkt : CString} {malloc : Nat → Bool}
    (served : ∀ n ≤ maxPacket + 16, malloc n) (connected : s.gdb.connected = true)
    (answered : ∀ x ∈ s.exchanges, x.Answered) :
    Answered (s.step (.packet pkt malloc)) ↔ s.Meets (.packet pkt malloc) := by
  cases handled : handlePacket malloc s.gdb pkt with
  | spins | outOfBounds =>
    refine iff_of_false ?_ fun meets => ?_
    · rw [Session.step, handled]
      exact id
    · obtain ⟨result, returned⟩ := handlePacket_returns_iff.mpr meets.2.2
      rw [handled] at returned
      cases returned
  | returns result =>
    obtain ⟨out, g⟩ := result
    have fits := handlePacket_returns_iff.mp ⟨_, handled⟩
    obtain ⟨bytes, request, -⟩ := handlePacket_returns handled
    have stays := (handle_spec request).connected
    rw [connected] at stays
    have reply := sent_of_served served stays (handlePacket_length handled).le
    have library : sent malloc g libraryEvent = [libraryEvent] := sent_of_served served stays (by decide)
    have after : Answered (s.step (.packet pkt malloc)) ↔
        Exchange.Answered ⟨pkt, [out] ++ if g.reloadPending then [libraryEvent] else [], [], false⟩ := by
      rw [step_packet handled, reply, library]
      show (∀ x ∈ s.exchanges ++ _, Exchange.Answered x) ↔ _
      rw [List.forall_mem_append, List.forall_mem_singleton, and_iff_right answered]
    rw [after, new_answered_iff, Session.Meets, and_iff_left fits]
    refine and_congr_right fun _ => ?_
    by_cases reload : reloads pkt = true
    · exact iff_of_true (Or.inl reload) fun _ => reload
    · have other : ∀ args, dispatch pkt.chars ≠ .qFc32Reload args :=
        fun args same => reload (reloads_iff.mpr ⟨args, same⟩)
      rw [(handle_spec request).reloadPending other]
      cases s.gdb.reloadPending with
      | true => simp [reload]
      | false => simp

theorem report_step_answered_iff {s : Session σ} {malloc : Nat → Bool} (served : ∀ n ≤ maxPacket + 16, malloc n)
    (connected : s.gdb.connected = true) (answered : ∀ x ∈ s.exchanges, x.Answered) :
    Answered (s.step (.report malloc)) ↔ s.Meets (.report malloc) := by
  rw [Session.step, sent_of_served served connected (by decide)]
  show (∀ x ∈ s.exchanges.map _, Exchange.Answered x) ↔ ∀ x ∈ s.exchanges, x.awaits → resumes x.pkt
  rw [List.forall_mem_map]
  exact forall₂_congr fun x member => report_answered_iff (answered x member)

/-- The exchanges are answered, and there are none without a connection. -/
def Holds : Exec (Session σ) → Prop
  | .returns s => (∀ x ∈ s.exchanges, x.Answered) ∧ (s.gdb.connected = false → s.exchanges = [])
  | _ => False

theorem step_answered_iff {a b : Exec (Session σ)} {e : Event} (holds : Holds a) (step : Step a e b) (served : e.Served) :
    Condition a e ↔ Answered b := by
  obtain ⟨s, rfl, enabled, rfl⟩ := step
  obtain ⟨answered, detached⟩ := holds
  cases e with
  | packet pkt malloc => exact (packet_answered_iff served enabled answered).symm
  | report malloc =>
    cases connected : s.gdb.connected with
    | true => exact (report_step_answered_iff served connected answered).symm
    | false =>
      have none := detached connected
      refine iff_of_true (fun x member => ?_) fun x member => ?_
      · simp [none] at member
      · simp [none] at member
  | connect | disconnect => exact iff_of_true trivial fun x member => nomatch member
  | stop | wake | notifyReload => exact iff_of_true trivial answered

theorem step_holds {a b : Exec (Session σ)} {e : Event} (holds : Holds a) (step : Step a e b) (answered : Answered b) :
    Holds b := by
  obtain ⟨s, rfl, enabled, rfl⟩ := step
  obtain ⟨-, detached⟩ := holds
  cases e with
  | packet pkt malloc =>
    cases handled : handlePacket malloc s.gdb pkt with
    | spins | outOfBounds =>
      rw [Session.step, handled] at answered
      exact answered.elim
    | returns result =>
      obtain ⟨out, g⟩ := result
      obtain ⟨bytes, request, -⟩ := handlePacket_returns handled
      rw [step_packet handled] at answered ⊢
      have stays : g.connected = true := (handle_spec request).connected.trans enabled
      refine ⟨answered, fun gone => ?_⟩
      rw [show g.connected = false from gone] at stays
      cases stays
  | report malloc =>
    refine ⟨answered, fun connected => ?_⟩
    show s.exchanges.map _ = []
    rw [detached connected, List.map_nil]
  | connect => exact ⟨answered, fun _ => rfl⟩
  | disconnect => exact ⟨answered, fun _ => rfl⟩
  | stop | wake | notifyReload => exact ⟨answered, detached⟩

/-- With memory for the packets, every request is answered as it should exactly if no `vCont;c` or
`vCont;s` is handled, no stop is reported while another `vCont` waits, `reload_pending` is not set
when a packet other than a reload comes, and no library list is asked for that outgrows `xml`. -/
theorem answered_iff (layout : FcGdbLayout) (ops : FcGdbCpuOps σ) (machine : σ) (es : List Event) :
    Throughout Step (fun a e _ => e.Served ∧ Condition a e) (.returns (boot layout ops machine)) es ↔
      Throughout Step (fun _ e b => e.Served ∧ Answered b) (.returns (boot layout ops machine)) es := by
  have start : Holds (.returns (boot layout ops machine)) := ⟨nofun, fun _ => rfl⟩
  refine throughout_iff Holds ?_ ?_ start es
  · intro a e b holds step
    exact and_congr_right fun served => step_answered_iff holds step served
  · intro a e b holds step good
    exact step_holds holds step good.2

end

/-- A client that connects and sends `vCont;c`. -/
theorem not_answered : ¬ ∀ (layout : FcGdbLayout) (ops : FcGdbCpuOps Unit) (es : List Event),
    Throughout Step (fun _ _ b => Answered b) (.returns (boot layout ops ())) es := by
  intro all
  have along := all ⟨none, []⟩ ⟨none, none, none, none, none, none, none⟩
    [.connect, .packet (cstr "vCont;c") fun _ => true]
  obtain ⟨-, rest⟩ := along _ ⟨_, rfl, rfl, rfl⟩
  obtain ⟨answered, -⟩ := rest _ ⟨_, rfl, rfl, rfl⟩
  have both := answered ⟨cstr "vCont;c", [cstr ""], [], false⟩ List.mem_cons_self
  exact List.cons_ne_nil _ _ both.1

end GdbStub
end Blyt
