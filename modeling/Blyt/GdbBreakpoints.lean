import Blyt.GdbStub
import Blyt.Lib.Latest
import Blyt.Lib.Run

namespace Blyt
namespace GdbStub
open Latest
variable {σ : Type} {malloc : Nat → Bool}

/-- The address of a `Z0` or a `z0`. -/
def breakAddr (args : List UInt8) : UInt32 := UInt32.ofNat (strtoul16 args).1

/-- A packet with the reply to it. -/
structure BreakExchange where
  pkt : CString
  reply : CString

/-- What an exchange says of an address, if it is for that address: whether a breakpoint was accepted there. -/
def BreakExchange.accepts (e : BreakExchange) (pc : UInt32) : Option Bool :=
  match dispatch e.pkt.chars with
  | .Z0 args => if breakAddr args = pc then some (e.reply.chars == ascii "OK") else none
  | .z0 args => if breakAddr args = pc then some false else none
  | _ => none

/-- The stub, and the exchanges so far. -/
structure LoggedStub (σ : Type) where
  stub : GdbState σ
  log : List BreakExchange

def LoggedStub.serve (malloc : Nat → Bool) (s : LoggedStub σ) (pkt : CString) : Exec (LoggedStub σ) := do
  let (reply, stub) ← handlePacket malloc s.stub pkt
  return ⟨stub, s.log ++ [⟨pkt, reply⟩]⟩

/-- One packet served. -/
def Serves (malloc : Nat → Bool) (s : LoggedStub σ) (pkt : CString) (s' : LoggedStub σ) : Prop :=
  s.serve malloc pkt = .returns s'

/-- The table is the set of the addresses whose last packet was an accepted `Z0`. -/
structure SetOfAddresses (s : LoggedStub σ) : Prop where
  stops : ∀ pc, checkBreak s.stub pc = true ↔ latest BreakExchange.accepts s.log pc = some true
  once : s.stub.breaks.addrs.Nodup

/-- After a packet the table is that set, and no capacity went into an address that was there. -/
structure TableIsSet (s : LoggedStub σ) (pkt : CString) (s' : LoggedStub σ) : Prop where
  set : SetOfAddresses s'
  capacity : ∀ args, dispatch pkt.chars = .Z0 args → checkBreak s.stub (breakAddr args) = true →
    s'.stub.breaks.addrs.length = s.stub.breaks.addrs.length

/-- A `Z0` is for an address that is not set. -/
def InsertsFresh (s : LoggedStub σ) (pkt : CString) (_ : LoggedStub σ) : Prop :=
  ∀ args, dispatch pkt.chars = .Z0 args → checkBreak s.stub (breakAddr args) = false

/-- What a packet makes of the table. -/
inductive BreakStep (addrs : List UInt32) (pkt reply : CString) : List UInt32 → Prop
  | insert {args : List UInt8} : dispatch pkt.chars = .Z0 args → reply.chars = ascii "OK" →
      BreakStep addrs pkt reply (addrs ++ [breakAddr args])
  | refuse {args : List UInt8} : dispatch pkt.chars = .Z0 args → reply.chars = ascii "E01" →
      BreakStep addrs pkt reply addrs
  | remove {args : List UInt8} : dispatch pkt.chars = .z0 args →
      BreakStep addrs pkt reply (addrs.filter (· ≠ breakAddr args))
  | other : (∀ args, dispatch pkt.chars ≠ .Z0 args) → (∀ args, dispatch pkt.chars ≠ .z0 args) →
      BreakStep addrs pkt reply addrs

theorem handleG_breaks (g : GdbState σ) (args : List UInt8) : (handleG g args).2.breaks = g.breaks := by
  rw [handleG]
  split
  · rfl
  · split
    · rfl
    · rfl

theorem handleM_breaks (malloc : Nat → Bool) (g : GdbState σ) (args : List UInt8) :
    (handleM malloc g args).2.breaks = g.breaks := by
  unfold handleM
  simp only
  split
  · rfl
  · split
    · rfl
    · split
      · rfl
      · split
        · rfl
        · split
          · rfl
          · rfl

theorem handleQFc32Reload_breaks (g : GdbState σ) (args : List UInt8) :
    (handleQFc32Reload g args).2.breaks = g.breaks := by
  unfold handleQFc32Reload
  split
  · rfl
  · simp only
    split
    · rfl
    · rfl

/-- The requests that are neither `Z0` nor `z0` leave the table. -/
theorem handle_breaks {g g' : GdbState σ} {request : Request} {out : List UInt8}
    (done : handle malloc g request = .returns (out, g')) (insert : ∀ args, request ≠ .Z0 args)
    (remove : ∀ args, request ≠ .z0 args) : g'.breaks = g.breaks := by
  cases request with
  | Z0 args => exact absurd rfl (insert args)
  | z0 args => exact absurd rfl (remove args)
  | qXferExecFile args | qXferLibraries args =>
    obtain ⟨text, _, same⟩ := Exec.map_eq_returns.mp done
    cases same
    rfl
  | G args =>
    have result : handleG g args = (out, g') := Exec.returns.inj done
    have kept := handleG_breaks g args
    rwa [result] at kept
  | M args =>
    have result : handleM malloc g args = (out, g') := Exec.returns.inj done
    have kept := handleM_breaks malloc g args
    rwa [result] at kept
  | qFc32Reload args =>
    have result : handleQFc32Reload g args = (out, g') := Exec.returns.inj done
    have kept := handleQFc32Reload_breaks g args
    rwa [result] at kept
  | qSupported | stopReason | g | m | vContQ | vCont | qAttached | qC | unsupported =>
    cases done
    rfl

theorem handlePacket_breakStep {g g' : GdbState σ} {pkt reply : CString}
    (done : handlePacket malloc g pkt = .returns (reply, g')) :
    BreakStep g.breaks.addrs pkt reply g'.breaks.addrs := by
  obtain ⟨⟨out, g₁⟩, handled, same⟩ := Exec.bind_eq_returns.mp done
  cases same
  cases request : dispatch pkt.chars with
  | Z0 args =>
    rw [request] at handled
    have result : handleZ0 g args = (out, g') := Exec.returns.inj handled
    unfold handleZ0 at result
    simp only at result
    split at result
    · cases result
      exact .insert request (by decide)
    · cases result
      exact .refuse request (by decide)
  | z0 args =>
    rw [request] at handled
    cases handled
    exact .remove request
  | _ =>
    have kept : g'.breaks = g.breaks := by
      refine handle_breaks handled ?_ ?_
      · intro args same
        rw [request] at same
        cases same
      · intro args same
        rw [request] at same
        cases same
    rw [kept]
    refine .other ?_ ?_
    · intro args same
      rw [request] at same
      cases same
    · intro args same
      rw [request] at same
      cases same

theorem LoggedStub.serve_breakStep {s s' : LoggedStub σ} {pkt : CString} (served : Serves malloc s pkt s') :
    ∃ reply, s'.log = s.log ++ [⟨pkt, reply⟩] ∧
      BreakStep s.stub.breaks.addrs pkt reply s'.stub.breaks.addrs := by
  obtain ⟨⟨reply, stub⟩, handled, same⟩ := Exec.bind_eq_returns.mp served
  cases same
  exact ⟨reply, rfl, handlePacket_breakStep handled⟩

theorem checkBreak_iff (g : GdbState σ) (pc : UInt32) : checkBreak g pc = true ↔ pc ∈ g.breaks.addrs := by
  rw [checkBreak, decide_eq_true_iff]

section
variable {pkt reply : CString} {args : List UInt8}

theorem accepts_insert (insert : dispatch pkt.chars = .Z0 args) (pc : UInt32) :
    BreakExchange.accepts ⟨pkt, reply⟩ pc =
      if breakAddr args = pc then some (reply.chars == ascii "OK") else none := by
  rw [BreakExchange.accepts, insert]

theorem accepts_remove (remove : dispatch pkt.chars = .z0 args) (pc : UInt32) :
    BreakExchange.accepts ⟨pkt, reply⟩ pc = if breakAddr args = pc then some false else none := by
  rw [BreakExchange.accepts, remove]

theorem accepts_other (insert : ∀ args, dispatch pkt.chars ≠ .Z0 args)
    (remove : ∀ args, dispatch pkt.chars ≠ .z0 args) (pc : UInt32) : BreakExchange.accepts ⟨pkt, reply⟩ pc = none := by
  rw [BreakExchange.accepts]
  split
  · rename_i args request
    exact absurd request (insert args)
  · rename_i args request
    exact absurd request (remove args)
  · rfl

end

theorem refused_ne_ok : (ascii "E01" == ascii "OK") = false := by decide

/-- The table is the set after a packet, as it was before, when a `Z0` is for an address that is not set. -/
theorem SetOfAddresses.insertsFresh {s s' : LoggedStub σ} {pkt : CString} (set : SetOfAddresses s)
    (served : Serves malloc s pkt s') (fresh : InsertsFresh s pkt s') : TableIsSet s pkt s' := by
  obtain ⟨reply, log, step⟩ := LoggedStub.serve_breakStep served
  have free : ∀ args, dispatch pkt.chars = .Z0 args → breakAddr args ∉ s.stub.breaks.addrs := by
    intro args insert member
    have unset := fresh args insert
    rw [(checkBreak_iff _ _).mpr member] at unset
    cases unset
  refine ⟨⟨fun pc => ?_, ?_⟩, fun args insert there => absurd ((checkBreak_iff _ _).mp there) (free args insert)⟩
  · have before := set.stops pc
    rw [checkBreak_iff] at before ⊢
    rw [log, latest_snoc]
    generalize s'.stub.breaks.addrs = addrs at step ⊢
    cases step with
    | @insert args insert ok =>
      rw [accepts_insert insert, ok, List.mem_append, List.mem_singleton, before]
      by_cases same : breakAddr args = pc
      · rw [if_pos same]
        exact iff_of_true (.inr same.symm) rfl
      · rw [if_neg same]
        simp [Ne.symm same]
    | @refuse args insert refused =>
      rw [accepts_insert insert, refused]
      by_cases same : breakAddr args = pc
      · subst same
        rw [if_pos rfl, refused_ne_ok]
        exact iff_of_false (free args insert) fun same => Bool.false_ne_true (Option.some.inj same)
      · rw [if_neg same, before]
        rfl
    | @remove args remove =>
      rw [accepts_remove remove, List.mem_filter, before]
      by_cases same : breakAddr args = pc
      · rw [if_pos same]
        simp [same]
      · rw [if_neg same]
        simp [Ne.symm same]
    | other insert remove =>
      rw [accepts_other insert remove, before]
      rfl
  · generalize s'.stub.breaks.addrs = addrs at step ⊢
    cases step with
    | @insert args insert ok => exact List.nodup_append.mpr ⟨set.once, List.nodup_singleton _, fun a member b new => by
        rw [List.mem_singleton.mp new]
        exact fun same => free args insert (same ▸ member)⟩
    | refuse | other => exact set.once
    | remove => exact set.once.filter _

/-- A `Z0` for an address that is set is stored again, or refused while the stub stops there. -/
theorem TableIsSet.insertsFresh {s s' : LoggedStub σ} {pkt : CString} (served : Serves malloc s pkt s')
    (isSet : TableIsSet s pkt s') : InsertsFresh s pkt s' := by
  obtain ⟨reply, log, step⟩ := LoggedStub.serve_breakStep served
  intro args insert
  rw [Bool.eq_false_iff]
  intro there
  have member := (checkBreak_iff _ _).mp there
  have capacity := isSet.capacity args insert there
  have stops := isSet.set.stops (breakAddr args)
  rw [checkBreak_iff, log, latest_snoc, accepts_insert insert, if_pos rfl] at stops
  generalize s'.stub.breaks.addrs = addrs at step capacity stops
  cases step with
  | insert =>
    rw [List.length_append, List.length_singleton] at capacity
    omega
  | refuse _ refused =>
    rw [refused, refused_ne_ok] at stops
    exact Bool.false_ne_true (Option.some.inj (stops.mp member))
  | remove remove =>
    rw [insert] at remove
    cases remove
  | other never => exact never args insert

theorem SetOfAddresses.start {g : GdbState σ} (empty : g.breaks.addrs = []) : SetOfAddresses ⟨g, []⟩ := by
  refine ⟨fun pc => ?_, ?_⟩
  · rw [checkBreak_iff, empty, latest_nil]
    exact iff_of_false List.not_mem_nil (Option.some_ne_none true).symm
  · rw [empty]
    exact List.nodup_nil

/-- Along any packets the table stays the set of the addresses last accepted exactly if no `Z0` comes for an
address that is set. -/
theorem breakpoints_set_iff_inserts_fresh (g : GdbState σ) (empty : g.breaks.addrs = []) (pkts : List CString) :
    Run.Throughout (Serves malloc) InsertsFresh ⟨g, []⟩ pkts ↔
      Run.Throughout (Serves malloc) TableIsSet ⟨g, []⟩ pkts :=
  Run.throughout_iff SetOfAddresses
    (fun _ _ _ set served => ⟨set.insertsFresh served, TableIsSet.insertsFresh served⟩)
    (fun _ _ _ _ _ isSet => isSet.set) (.start empty) pkts

/-- A stub with no breakpoint set. -/
def unbroken : GdbState Unit where
  connected := true
  layout := ⟨none, []⟩
  ops := ⟨none, none, none, none, none, none, none⟩
  machine := ()
  breaks := ⟨[], Nat.zero_le _⟩
  halted := true
  pendingAction := .continue
  reloadPending := false

def insertPkt : CString := cstr "Z0,1000,4"

def removePkt : CString := cstr "z0,1000,4"

theorem breakpoints_removed_and_set_again :
    Run.Throughout (Serves fun _ => true) TableIsSet ⟨unbroken, []⟩ [insertPkt, removePkt, insertPkt] := by
  refine (breakpoints_set_iff_inserts_fresh unbroken rfl _).mp ?_
  intro s₁ first
  cases first
  refine ⟨fun args insert => rfl, fun s₂ second => ?_⟩
  cases second
  refine ⟨fun args insert => ?_, fun s₃ third => ?_⟩
  · cases insert
  · cases third
    refine ⟨fun args insert => ?_, trivial⟩
    cases insert
    rfl

/-- The address goes into the table twice. -/
theorem breakpoint_stored_twice : ¬ ∀ (g : GdbState Unit), g.breaks.addrs = [] → ∀ pkts : List CString,
    Run.Throughout (Serves fun _ => true) TableIsSet ⟨g, []⟩ pkts := by
  intro all
  obtain ⟨-, rest⟩ := all unbroken rfl [insertPkt, insertPkt] _ rfl
  obtain ⟨isSet, -⟩ := rest _ rfl
  have stored : ¬ [breakAddr (ascii "1000,4"), breakAddr (ascii "1000,4")].Nodup := by decide
  exact stored isSet.set.once

end GdbStub
end Blyt
