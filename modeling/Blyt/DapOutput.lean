import Blyt.DapJson

namespace Blyt
open Run

/-- What `send_response` and `send_event` are handed. -/
inductive WireMessage where
  | response (requestSeq : Int) (command : List UInt8) (success : Bool) (bodyOrMsg : Option (List UInt8))
  | event (name : List UInt8) (body : Option (List UInt8))

/-- The conversion `%d`. -/
def signedDecimal (n : Int) : List UInt8 := ascii (toString n)

/-- The text in `buf[MAX_MSG]` behind the `snprintf`. -/
def WireMessage.json (seq : Int) : WireMessage → List UInt8
  | response requestSeq command true bodyOrMsg =>
    (ascii "\x7b\"seq\":" ++ signedDecimal seq ++ ascii ",\"type\":\"response\",\"request_seq\":" ++ signedDecimal requestSeq ++
      ascii ",\"command\":\"" ++ command ++ ascii "\",\"success\":true,\"body\":" ++
      bodyOrMsg.getD (ascii "\x7b\x7d") ++ ascii "\x7d").take (2 ^ 20 - 1)
  | response requestSeq command false bodyOrMsg =>
    (ascii "\x7b\"seq\":" ++ signedDecimal seq ++ ascii ",\"type\":\"response\",\"request_seq\":" ++ signedDecimal requestSeq ++
      ascii ",\"command\":\"" ++ command ++ ascii "\",\"success\":false,\"message\":\"" ++
      bodyOrMsg.getD [] ++ ascii "\"\x7d").take (2 ^ 20 - 1)
  | event name body =>
    (ascii "\x7b\"seq\":" ++ signedDecimal seq ++ ascii ",\"type\":\"event\",\"event\":\"" ++ name ++ ascii "\",\"body\":" ++
      body.getD (ascii "\x7b\x7d") ++ ascii "\x7d").take (2 ^ 20 - 1)

/-- The event of `fc_dap_pause_loop`. -/
def stopped : WireMessage :=
  .event (ascii "stopped") (some (ascii "\x7b\"reason\":\"breakpoint\",\"threadId\":1,\"allThreadsStopped\":true\x7d"))

/-- A message and the number that was drawn for it. -/
structure Numbered where
  seq : Int
  message : WireMessage

namespace Numbered

def json (m : Numbered) : List UInt8 := m.message.json m.seq

/-- The text in `hdr`. -/
def header (m : Numbered) : List UInt8 := ascii "Content-Length: " ++ decimal m.json.length ++ [13, 10, 13, 10]

def text (m : Numbered) : List UInt8 := m.header ++ m.json

theorem header_pos (m : Numbered) : 0 < m.header.length := by
  simp only [header, List.length_append]
  exact Nat.lt_add_left _ (by decide)

theorem json_pos (m : Numbered) : 0 < m.json.length := by
  have opens : ∀ s : List UInt8, 0 < ((ascii "\x7b\"seq\":" ++ s).take (2 ^ 20 - 1)).length := by
    intro s
    rw [List.length_take, List.length_append]
    exact Nat.lt_min.mpr ⟨by decide, Nat.lt_add_right _ (by decide)⟩
  rcases m with ⟨seq, message⟩
  unfold json WireMessage.json
  split <;> simp only [List.append_assoc] <;> exact opens _

end Numbered

/-- Where a thread is in `send_response` or `send_event`: in neither, behind the section that drew
the number, behind the look at `client_fd`, or in the section of `send_msg` with so much left of the
text that `write_all` was handed, the header first. -/
inductive Sender where
  | idle
  | numbered (m : Numbered)
  | checked (m : Numbered)
  | sending (m : Numbered) (inBody : Bool) (rest : List UInt8)

/-- The message whose number is drawn and whose text is not yet being written. -/
def Sender.waits : Sender → Option Numbered
  | numbered m | checked m => some m
  | idle | sending _ _ _ => none

/-- The message a thread has drawn a number for. -/
def Sender.carries : Sender → Option Numbered
  | numbered m | checked m | sending m _ _ => some m
  | idle => none

/-- What one `send` put on the wire, and the number of the message it is from. -/
structure Sent where
  seq : Int
  bytes : List UInt8

/-- `g_dap` as the output uses it: `clientFd` is the number of the connection, in the order of
`accept`, and `wire` what was written to each. `failed` are the messages a `send` failed for. -/
structure DapOutput where
  seq : Int
  clientFd : Option Nat
  accepted : Nat
  mu : Option DapThreadId
  sender : DapThreadId → Sender
  wire : Nat → List Sent
  failed : List Numbered

inductive OutputAction where
  | connects
  | closes
  | numbers (who : DapThreadId) (message : WireMessage)
  | looks (who : DapThreadId)
  | locks (who : DapThreadId)
  | sends (who : DapThreadId) (n : Nat)
  | fails (who : DapThreadId)
  | turns (who : DapThreadId)
  | unlocks (who : DapThreadId)

namespace DapOutput
open Function

def start : DapOutput := ⟨0, none, 0, none, fun _ => .idle, fun _ => [], []⟩

/-- `++g_dap.seq`. The increment of the largest `int` is undefined; here it wraps. -/
def nextSeq (o : DapOutput) : Int := (o.seq + 1).bmod (2 ^ 32)

def goes (o : DapOutput) (who : DapThreadId) (s : Sender) : DapOutput := { o with sender := update o.sender who s }

/-- One step of one thread. The debugger's thread sends only between the two sections of
`dap_thread_main` that set `client_fd`, which are one step each, as is that which draws a number. -/
inductive Step : DapOutput → OutputAction → DapOutput → Prop
  | connects {o} : o.sender .dap = .idle → o.clientFd = none → o.mu = none →
      Step o .connects { o with clientFd := some o.accepted, accepted := o.accepted + 1 }
  | closes {o} : o.sender .dap = .idle → o.clientFd.isSome → o.mu = none → Step o .closes { o with clientFd := none }
  | numbers {o who message} : o.sender who = .idle → (who = .dap → o.clientFd.isSome) → o.mu = none →
      Step o (.numbers who message) { o.goes who (.numbered ⟨o.nextSeq, message⟩) with seq := o.nextSeq }
  /-- `if (g_dap.client_fd < 0) return;`, outside any section. -/
  | gone {o who m} : o.sender who = .numbered m → o.clientFd = none → Step o (.looks who) (o.goes who .idle)
  | looks {o who m} : o.sender who = .numbered m → o.clientFd.isSome → Step o (.looks who) (o.goes who (.checked m))
  | locks {o who m} : o.sender who = .checked m → o.mu = none →
      Step o (.locks who) { o.goes who (.sending m false m.header) with mu := some who }
  | sends {o who m inBody rest n c} : o.sender who = .sending m inBody rest → 0 < n → n ≤ rest.length →
      o.clientFd = some c →
      Step o (.sends who n)
        { o.goes who (.sending m inBody (rest.drop n)) with wire := update o.wire c (o.wire c ++ [⟨m.seq, rest.take n⟩]) }
  /-- `send` returns 0 or less, as it does when the `client_fd` it is handed is -1 by now. -/
  | fails {o who m inBody rest} : o.sender who = .sending m inBody rest → rest ≠ [] →
      Step o (.fails who) { o.goes who .idle with mu := none, failed := m :: o.failed }
  | turns {o who m} : o.sender who = .sending m false [] → Step o (.turns who) (o.goes who (.sending m true m.json))
  | unlocks {o who m} : o.sender who = .sending m true [] →
      Step o (.unlocks who) { o.goes who .idle with mu := none }

/-- Writes of one message to one connection. -/
structure Transmission where
  m : Numbered
  writes : List Sent

namespace Transmission

/-- They are a beginning of its text: its header and then its body. -/
structure Begun (t : Transmission) : Prop where
  own : ∀ s ∈ t.writes, s.seq = t.m.seq
  within : t.writes.flatMap Sent.bytes <+: t.m.text

/-- They are the whole of it, unless a `send` failed. -/
structure Whole (failed : List Numbered) (t : Transmission) : Prop extends t.Begun where
  written : t.writes ≠ []
  whole : t.m ∈ failed ∨ t.writes.flatMap Sent.bytes = t.m.text

end Transmission

/-- What is on a connection is one message after another, their numbers in the relation, and behind
them at most the beginning of one that a thread in `send_msg` writes. -/
def Framed (R : Int → Int → Prop) (o : DapOutput) (c : Nat) : Prop :=
  ∃ (ts : List Transmission) (last : Option Transmission), o.wire c = (ts ++ last.toList).flatMap Transmission.writes ∧
    (∀ t ∈ ts, t.Whole o.failed) ∧ ((ts ++ last.toList).map (·.m.seq)).Pairwise R ∧
    ∀ t ∈ last, t.Begun ∧ ∃ who inBody rest, o.sender who = .sending t.m inBody rest

/-- On every connection the header and the body of a message follow each other, and the numbers rise. -/
def InWireOrder (o : DapOutput) : Prop := ∀ c, o.Framed (· < ·) c

/-- The step draws no number behind the largest, and a thread does not take the mutex for its message
while the other has a smaller number and has not taken it. -/
def NoOvertaking (o : DapOutput) : OutputAction → DapOutput → Prop
  | .numbers _ _, _ => o.seq < 2 ^ 31 - 1
  | .locks who, _ => ∀ m other m', o.sender who = .checked m → other ≠ who → (o.sender other).waits = some m' →
      m.seq < m'.seq
  | _, _ => True

/-- What is still to come of a message behind its beginning. -/
def remaining (m : Numbered) (inBody : Bool) (rest : List UInt8) : List UInt8 :=
  if inBody then rest else rest ++ m.json

/-- The finished messages of a connection, and what is behind them. -/
structure Finished (R : Int → Int → Prop) (o : DapOutput) (c : Nat) (ts : List Transmission) (cur : List Sent) : Prop where
  wire : o.wire c = ts.flatMap Transmission.writes ++ cur
  whole : ∀ t ∈ ts, t.Whole o.failed
  related : (ts.map (·.m.seq)).Pairwise R
  free : o.mu = none → cur = []
  busy : ∀ who m inBody rest, o.sender who = .sending m inBody rest → (∀ t ∈ ts, R t.m.seq m.seq) ∧
    (∀ s ∈ cur, s.seq = m.seq) ∧
      if o.clientFd = some c then cur.flatMap Sent.bytes ++ remaining m inBody rest = m.text else cur = []

/-- The mutex belongs to the thread that writes, and the connections hold what was finished. -/
structure Exclusive (R : Int → Int → Prop) (o : DapOutput) : Prop where
  mutex : ∀ who, o.mu = some who ↔ ∃ m inBody rest, o.sender who = .sending m inBody rest
  finished : ∀ c, ∃ ts cur, o.Finished R c ts cur

variable {R : Int → Int → Prop} {o o' : DapOutput} {e : OutputAction} {c : Nat}

/-- One more message, whose number stands in the relation to those before it. -/
theorem Finished.related_snoc {ts : List Transmission} {cur sent : List Sent} (fin : o.Finished R c ts cur) {m : Numbered}
    (before : ∀ t ∈ ts, R t.m.seq m.seq) :
    ((ts ++ [(⟨m, sent⟩ : Transmission)]).map (·.m.seq)).Pairwise R := by
  rw [List.map_append, List.pairwise_append]
  refine ⟨fin.related, List.pairwise_singleton .., fun a inFront b isLast => ?_⟩
  obtain ⟨t, member, rfl⟩ := List.mem_map.mp inFront
  rw [List.map_singleton, List.mem_singleton] at isLast
  exact isLast ▸ before t member

theorem goes_sender (who other : DapThreadId) (s : Sender) :
    (o.goes who s).sender other = if other = who then s else o.sender other := update_apply ..

theorem Exclusive.framed (inv : o.Exclusive R) (c : Nat) : o.Framed R c := by
  obtain ⟨ts, cur, fin⟩ := inv.finished c
  cases held : o.mu with
  | none =>
    refine ⟨ts, none, ?_, fin.whole, by simpa using fin.related, nofun⟩
    rw [fin.wire, fin.free held, List.append_nil, Option.toList_none, List.append_nil]
  | some who =>
    obtain ⟨m, inBody, rest, sends⟩ := (inv.mutex who).mp held
    obtain ⟨before, own, text⟩ := fin.busy who m inBody rest sends
    refine ⟨ts, some ⟨m, cur⟩, ?_, fin.whole, ?_, ?_⟩
    · rw [fin.wire, Option.toList_some, List.flatMap_append, List.flatMap_singleton]
    · exact fin.related_snoc before
    · intro t isLast
      cases isLast
      refine ⟨⟨own, ?_⟩, who, inBody, rest, sends⟩
      split at text
      · exact ⟨_, text⟩
      · rw [text]
        exact List.nil_prefix

/-- Only the thread that holds the mutex writes. -/
theorem Exclusive.only {who other : DapThreadId} {m m' : Numbered} {inBody inBody' : Bool} {rest rest' : List UInt8}
    (inv : o.Exclusive R) (sends : o.sender who = .sending m inBody rest)
    (too : o.sender other = .sending m' inBody' rest') : other = who := by
  have held := (inv.mutex who).mpr ⟨m, inBody, rest, sends⟩
  have also := (inv.mutex other).mpr ⟨m', inBody', rest', too⟩
  exact Option.some.inj (also.symm.trans held)

/-- Nobody writes before or after. -/
theorem Exclusive.unlocked (inv : o.Exclusive R) (free : o.mu = none) (free' : o'.mu = none) (wire : o'.wire = o.wire)
    (failed : o'.failed = o.failed) (nobody : ∀ who m inBody rest, o'.sender who ≠ .sending m inBody rest) :
    o'.Exclusive R := by
  refine ⟨fun who => ?_, fun c => ?_⟩
  · rw [free']
    exact iff_of_false nofun fun ⟨m, inBody, rest, sends⟩ => nobody who m inBody rest sends
  · obtain ⟨ts, cur, fin⟩ := inv.finished c
    exact ⟨ts, cur, by rw [wire, fin.wire], failed ▸ fin.whole, fin.related, fun _ => fin.free free,
      fun who m inBody rest sends => absurd sends (nobody who m inBody rest)⟩

theorem Exclusive.nobody (inv : o.Exclusive R) (free : o.mu = none) (who : DapThreadId) (m : Numbered) (inBody : Bool)
    (rest : List UInt8) : o.sender who ≠ .sending m inBody rest := by
  intro sends
  have held := (inv.mutex who).mpr ⟨m, inBody, rest, sends⟩
  rw [free] at held
  cases held

/-- A thread moves, and writes neither before nor after. -/
theorem Exclusive.goes (inv : o.Exclusive R) {who : DapThreadId} {s : Sender}
    (before : ∀ m inBody rest, o.sender who ≠ .sending m inBody rest)
    (after : ∀ m inBody rest, s ≠ .sending m inBody rest) : (o.goes who s).Exclusive R := by
  have same (other m inBody rest) :
      (o.goes who s).sender other = .sending m inBody rest ↔ o.sender other = .sending m inBody rest := by
    rw [goes_sender]
    split
    · rename_i here
      exact iff_of_false (after m inBody rest) (here ▸ before m inBody rest)
    · exact Iff.rfl
  refine ⟨fun other => ?_, fun c => ?_⟩
  · simp only [same]
    exact inv.mutex other
  · obtain ⟨ts, cur, fin⟩ := inv.finished c
    refine ⟨ts, cur, fin.wire, fin.whole, fin.related, fin.free, fun other m inBody rest sends => ?_⟩
    exact fin.busy other m inBody rest ((same other m inBody rest).mp sends)

/-- A thread takes the mutex for a message that is related to all that was written. -/
theorem Exclusive.locks (inv : o.Exclusive R) {who : DapThreadId} {m : Numbered} (free : o.mu = none)
    (related : ∀ c, ∀ s ∈ o.wire c, R s.seq m.seq) :
    ({ o.goes who (.sending m false m.header) with mu := some who } : DapOutput).Exclusive R := by
  have only {other m' inBody rest} (sends : (o.goes who (.sending m false m.header)).sender other = .sending m' inBody rest) :
      other = who ∧ m' = m ∧ inBody = false ∧ rest = m.header := by
    rw [goes_sender] at sends
    split at sends
    · rename_i here
      cases sends
      exact ⟨here, rfl, rfl, rfl⟩
    · exact absurd sends (inv.nobody free other m' inBody rest)
  refine ⟨fun other => ⟨fun held => ?_, fun ⟨m', inBody, rest, sends⟩ => ?_⟩, fun c => ?_⟩
  · cases held
    exact ⟨m, false, m.header, by rw [goes_sender, if_pos rfl]⟩
  · rw [(only sends).1]
  · obtain ⟨ts, cur, fin⟩ := inv.finished c
    obtain rfl := fin.free free
    refine ⟨ts, [], fin.wire, fin.whole, fin.related, fun _ => rfl, fun other m' inBody rest sends => ?_⟩
    obtain ⟨-, rfl, rfl, rfl⟩ := only sends
    refine ⟨fun t member => ?_, nofun, ?_⟩
    · have whole := fin.whole t member
      obtain ⟨s, first⟩ := List.exists_mem_of_ne_nil _ whole.written
      rw [← whole.own s first]
      refine related c s ?_
      rw [fin.wire, List.append_nil]
      exact List.mem_flatMap.mpr ⟨t, member, first⟩
    · split
      · rfl
      · rfl

/-- The thread that writes goes on with its message. -/
theorem Exclusive.continues (inv : o.Exclusive R) {who : DapThreadId} {m : Numbered} {inBody inBody' : Bool}
    {rest rest' : List UInt8} (sends : o.sender who = .sending m inBody rest) {wire : Nat → List Sent}
    (writes : ∀ c, ∃ more, wire c = o.wire c ++ more ∧ (∀ s ∈ more, s.seq = m.seq) ∧
      if o.clientFd = some c then remaining m inBody rest = more.flatMap Sent.bytes ++ remaining m inBody' rest'
      else more = []) :
    ({ o.goes who (.sending m inBody' rest') with wire := wire } : DapOutput).Exclusive R := by
  have held := (inv.mutex who).mpr ⟨m, inBody, rest, sends⟩
  have only {other m' b r} (now : (o.goes who (.sending m inBody' rest')).sender other = .sending m' b r) :
      other = who ∧ m' = m ∧ b = inBody' ∧ r = rest' := by
    rw [goes_sender] at now
    split at now
    · rename_i here
      cases now
      exact ⟨here, rfl, rfl, rfl⟩
    · rename_i away
      exact absurd (inv.only sends now) away
  refine ⟨fun other => ⟨fun has => ?_, fun ⟨m', b, r, now⟩ => (only now).1 ▸ held⟩, fun c => ?_⟩
  · have same : other = who := Option.some.inj (Eq.trans (Eq.symm has) held)
    exact ⟨m, inBody', rest', by rw [goes_sender, if_pos same]⟩
  · obtain ⟨ts, cur, fin⟩ := inv.finished c
    obtain ⟨more, wrote, own, text⟩ := writes c
    obtain ⟨before, curOwn, curText⟩ := fin.busy who m inBody rest sends
    refine ⟨ts, cur ++ more, ?_, fin.whole, fin.related, ?_, fun other m' b r now => ?_⟩
    · show wire c = _
      rw [wrote, fin.wire, List.append_assoc]
    · intro free
      cases held.symm.trans free
    · obtain ⟨-, rfl, rfl, rfl⟩ := only now
      refine ⟨before, fun s member => (List.mem_append.mp member).elim (curOwn s) (own s), ?_⟩
      by_cases here : o.clientFd = some c
      · rw [if_pos here] at curText text
        refine (if_pos here).mpr ?_
        rw [List.flatMap_append, List.append_assoc, ← text, curText]
      · rw [if_neg here] at curText text
        refine (if_neg here).mpr ?_
        rw [curText, text, List.append_nil]

/-- The thread that writes leaves the section, with all of its message written or a `send` that failed. -/
theorem Exclusive.leaves (inv : o.Exclusive R) {who : DapThreadId} {m : Numbered} {inBody : Bool} {rest : List UInt8}
    (sends : o.sender who = .sending m inBody rest) {failed : List Numbered} (more : o.failed ⊆ failed)
    (ended : m ∈ failed ∨ remaining m inBody rest = []) :
    ({ o.goes who .idle with mu := none, failed := failed } : DapOutput).Exclusive R := by
  have nobody (other m' b r) : (o.goes who .idle).sender other ≠ .sending m' b r := by
    rw [goes_sender]
    split
    · nofun
    · rename_i away
      exact fun too => away (inv.only sends too)
  refine ⟨fun other => iff_of_false nofun fun ⟨m', b, r, now⟩ => nobody other m' b r now, fun c => ?_⟩
  obtain ⟨ts, cur, fin⟩ := inv.finished c
  obtain ⟨before, own, text⟩ := fin.busy who m inBody rest sends
  have whole : ∀ t ∈ ts, t.Whole failed := by
    intro t member
    have whole := fin.whole t member
    exact ⟨whole.toBegun, whole.written, whole.whole.imp_left fun had => more had⟩
  by_cases none : cur = []
  · subst none
    exact ⟨ts, [], fin.wire, whole, fin.related, fun _ => rfl, fun other m' b r now => absurd now (nobody other m' b r)⟩
  · by_cases here : o.clientFd = some c
    · rw [if_pos here] at text
      refine ⟨ts ++ [⟨m, cur⟩], [], ?_, ?_, ?_, fun _ => rfl, fun other m' b r now => absurd now (nobody other m' b r)⟩
      · rw [List.flatMap_append, List.flatMap_singleton, List.append_nil]
        exact fin.wire
      · intro t member
        rcases List.mem_append.mp member with old | new
        · exact whole t old
        · rw [List.mem_singleton] at new
          subst new
          refine ⟨⟨own, _, text⟩, none, ended.imp_right fun nothing => ?_⟩
          rw [← text, nothing, List.append_nil]
      · exact fin.related_snoc before
    · rw [if_neg here] at text
      exact absurd text none

theorem Exclusive.step (inv : o.Exclusive R) (step : o.Step e o')
    (related : ∀ who m, e = .locks who → o.sender who = .checked m → ∀ c, ∀ s ∈ o.wire c, R s.seq m.seq) :
    o'.Exclusive R := by
  cases step with
  | connects _ _ free => exact inv.unlocked free free rfl rfl (inv.nobody free)
  | closes _ _ free => exact inv.unlocked free free rfl rfl (inv.nobody free)
  | @numbers who message at_ _ free =>
    have moved : (o.goes who (.numbered ⟨o.nextSeq, message⟩)).Exclusive R := inv.goes (by simp [at_]) (by simp)
    exact moved.unlocked free free rfl rfl (moved.nobody free)
  | gone at_ _ => exact inv.goes (by simp [at_]) (by simp)
  | looks at_ _ => exact inv.goes (by simp [at_]) (by simp)
  | locks at_ free => exact inv.locks free (related _ _ rfl at_)
  | @sends who m inBody rest n c' at_ _ _ connected =>
    refine inv.continues at_ fun c => ?_
    by_cases here : c = c'
    · subst here
      refine ⟨[⟨m.seq, rest.take n⟩], update_self .., by simp, ?_⟩
      rw [if_pos connected, List.flatMap_singleton]
      cases inBody with
      | false =>
        show rest ++ m.json = rest.take n ++ (rest.drop n ++ m.json)
        rw [← List.append_assoc, List.take_append_drop]
      | true => exact (List.take_append_drop n rest).symm
    · refine ⟨[], by rw [update_of_ne here, List.append_nil], nofun, ?_⟩
      rw [if_neg fun also => here (Option.some.inj (also.symm.trans connected))]
  | fails at_ _ => exact inv.leaves at_ (List.subset_cons_self ..) (.inl List.mem_cons_self)
  | turns at_ => exact inv.continues at_ fun c => ⟨[], (List.append_nil _).symm, nofun, by split <;> rfl⟩
  | unlocks at_ => exact inv.leaves at_ (List.Subset.refl _) (.inr rfl)

theorem start_exclusive (R : Int → Int → Prop) : start.Exclusive R :=
  ⟨fun _ => iff_of_false nofun nofun, fun _ => ⟨[], [], rfl, nofun, .nil, fun _ => rfl, nofun⟩⟩

/-- No order of steps tears a message. -/
theorem messages_contiguous (es : List OutputAction) :
    Throughout Step (fun _ _ o' => ∀ c, o'.Framed (fun _ _ => True) c) start es := by
  refine .of_steps (Exclusive fun _ _ => True) (fun _ _ _ inv step => ?_) (start_exclusive _) es
  have inv' := inv.step step fun _ _ _ _ _ _ _ => trivial
  exact ⟨inv', inv'.framed⟩

/-- The numbers that wait are above those on the wires, and above that being written. -/
structure Ordered (o : DapOutput) : Prop where
  nonneg : 0 ≤ o.seq
  drawn : ∀ who m, (o.sender who).carries = some m → m.seq ≤ o.seq
  sent : ∀ c, ∀ s ∈ o.wire c, s.seq ≤ o.seq
  ahead : ∀ who m, (o.sender who).waits = some m → ∀ c, ∀ s ∈ o.wire c, s.seq < m.seq
  aheadOf : ∀ who m, (o.sender who).waits = some m → ∀ other m' inBody rest,
    o.sender other = .sending m' inBody rest → m'.seq < m.seq

/-- A thread goes on with the message it carries, or without one. -/
theorem Ordered.goes (inv : o.Ordered) {who : DapThreadId} {s : Sender}
    (carries : ∀ m, s.carries = some m → (o.sender who).carries = some m)
    (waits : ∀ m, s.waits = some m → (o.sender who).waits = some m)
    (sends : ∀ m inBody rest, s = .sending m inBody rest → ∀ other m', (o.sender other).waits = some m' → other ≠ who →
      m.seq < m'.seq) : (o.goes who s).Ordered := by
  refine ⟨inv.nonneg, fun other m has => ?_, inv.sent, fun other m has => ?_, fun other m has third m' b r now => ?_⟩
  · rw [goes_sender] at has
    split at has
    · exact inv.drawn who m (carries m has)
    · exact inv.drawn other m has
  · rw [goes_sender] at has
    split at has
    · exact inv.ahead who m (waits m has)
    · exact inv.ahead other m has
  · rw [goes_sender] at has now
    split at now
    · subst now
      split at has
      · cases has
      · rename_i away
        exact sends m' b r rfl other m has away
    · split at has
      · exact inv.aheadOf who m (waits m has) third m' b r now
      · exact inv.aheadOf other m has third m' b r now

/-- A number that is drawn is above all that are used. -/
theorem Ordered.numbers (inv : o.Ordered) (small : o.seq < 2 ^ 31 - 1) (who : DapThreadId) (message : WireMessage)
    (nobody : ∀ other m inBody rest, o.sender other ≠ .sending m inBody rest) :
    ({ o.goes who (.numbered ⟨o.nextSeq, message⟩) with seq := o.nextSeq } : DapOutput).Ordered := by
  have nonneg := inv.nonneg
  have next : o.nextSeq = o.seq + 1 := Int.bmod_eq_of_le (by omega) (by omega)
  refine ⟨?_, fun other m has => ?_, fun c s member => ?_, fun other m has c s member => ?_,
    fun other m _ third m' b r now => ?_⟩
  · show 0 ≤ o.nextSeq
    omega
  · show m.seq ≤ o.nextSeq
    simp only [goes_sender] at has
    split at has
    · cases has
      exact Int.le_refl _
    · have old := inv.drawn other m has
      omega
  · have old := inv.sent c s member
    show s.seq ≤ o.nextSeq
    omega
  · have old := inv.sent c s member
    simp only [goes_sender] at has
    split at has
    · cases has
      show s.seq < o.nextSeq
      omega
    · exact inv.ahead other m has c s member
  · simp only [goes_sender] at now
    split at now
    · cases now
    · exact absurd now (nobody third m' b r)

/-- The thread that holds the mutex writes on: what waits is above its number. -/
theorem Ordered.sends (inv : o.Ordered) {who : DapThreadId} {m : Numbered} {inBody : Bool} {rest rest' written : List UInt8}
    (sends : o.sender who = .sending m inBody rest) (c : Nat) :
    ({ o.goes who (.sending m inBody rest') with wire := update o.wire c (o.wire c ++ [⟨m.seq, written⟩]) } : DapOutput).Ordered := by
  have behind (other m') (has : (o.sender other).waits = some m') : m.seq < m'.seq := inv.aheadOf other m' has who _ _ _ sends
  have moved : (o.goes who (.sending m inBody rest')).Ordered := by
    refine inv.goes (by simp [sends, Sender.carries]) nofun fun m' b r now other m'' has _ => ?_
    cases now
    exact behind other m'' has
  have wrote {c' s} (member : s ∈ update o.wire c (o.wire c ++ [⟨m.seq, written⟩]) c') :
      s ∈ o.wire c' ∨ s.seq = m.seq := by
    rw [update_apply] at member
    split at member
    · rename_i here
      rw [List.mem_append, List.mem_singleton] at member
      exact here ▸ member.imp_right fun new => congrArg Sent.seq new
    · exact .inl member
  refine ⟨moved.nonneg, moved.drawn, fun c' s member => ?_, fun other m' has c' s member => ?_, moved.aheadOf⟩
  · rcases wrote member with old | new
    · exact inv.sent c' s old
    · exact new ▸ inv.drawn who m (by rw [sends]; rfl)
  · rcases wrote member with old | new
    · exact moved.ahead other m' has c' s old
    · simp only [goes_sender] at has
      split at has
      · cases has
      · exact new ▸ behind other m' has

theorem Ordered.step (inv : o.Ordered) (mutex : o.Exclusive R) (step : o.Step e o') (orderly : o.NoOvertaking e o') :
    o'.Ordered := by
  cases step with
  | connects _ _ _ => exact ⟨inv.nonneg, inv.drawn, inv.sent, inv.ahead, inv.aheadOf⟩
  | closes _ _ _ => exact ⟨inv.nonneg, inv.drawn, inv.sent, inv.ahead, inv.aheadOf⟩
  | @numbers who message _ _ free => exact inv.numbers orderly who message (mutex.nobody free)
  | gone at_ _ => exact inv.goes nofun nofun nofun
  | looks at_ _ => exact inv.goes (by simp [at_, Sender.carries]) (by simp [at_, Sender.waits]) nofun
  | @locks who m at_ free =>
    have moved : (o.goes who (.sending m false m.header)).Ordered := by
      refine inv.goes (by simp [at_, Sender.carries]) nofun fun m' b r now other m'' has away => ?_
      cases now
      exact orderly m other m'' at_ away has
    exact ⟨moved.nonneg, moved.drawn, moved.sent, moved.ahead, moved.aheadOf⟩
  | @sends _ _ _ _ _ c at_ _ _ _ => exact inv.sends at_ c
  | @fails who _ _ _ _ _ =>
    have moved : (o.goes who .idle).Ordered := inv.goes nofun nofun nofun
    exact ⟨moved.nonneg, moved.drawn, moved.sent, moved.ahead, moved.aheadOf⟩
  | @turns who m at_ =>
    refine inv.goes (by simp [at_, Sender.carries]) nofun fun m' b r now other m'' has _ => ?_
    cases now
    exact inv.aheadOf other m'' has who _ _ _ at_
  | @unlocks who _ _ =>
    have moved : (o.goes who .idle).Ordered := inv.goes nofun nofun nofun
    exact ⟨moved.nonneg, moved.drawn, moved.sent, moved.ahead, moved.aheadOf⟩

/-- In a run in which no thread overtakes the other between its number and the mutex, the messages of
each connection are in the order of their numbers. -/
theorem messages_inWireOrder {es : List OutputAction} (orderly : Throughout Step NoOvertaking start es) :
    Throughout Step (fun _ _ o' => o'.InWireOrder) start es := by
  refine orderly.of_invariant (fun o => o.Exclusive (· < ·) ∧ o.Ordered) (fun o e o' inv step condition => ?_)
    ⟨start_exclusive _, Int.le_refl _, nofun, nofun, nofun, nofun⟩
  obtain ⟨exclusive, ordered⟩ := inv
  have exclusive' := exclusive.step step fun who m _ at_ c s member =>
    ordered.ahead who m (by rw [at_]; rfl) c s member
  exact ⟨⟨exclusive', ordered.step exclusive step condition⟩, exclusive'.framed⟩

/-- The answer to a pause request. -/
def pauseAnswer : WireMessage := .response 7 (ascii "pause") true none

/-- Both threads draw a number, and then write their messages in turn, one of them in two pieces. -/
theorem messages_inWireOrder_paused : Throughout Step (fun _ _ o' => o'.InWireOrder) start
    [.connects, .numbers .dap pauseAnswer, .looks .dap, .numbers .cart stopped, .looks .cart, .locks .dap,
      .sends .dap 1, .sends .dap ((Numbered.mk 1 pauseAnswer).header.length - 1), .turns .dap,
      .sends .dap (Numbered.mk 1 pauseAnswer).json.length, .unlocks .dap, .locks .cart,
      .sends .cart (Numbered.mk 2 stopped).header.length, .turns .cart,
      .sends .cart (Numbered.mk 2 stopped).json.length, .unlocks .cart] := by
  refine messages_inWireOrder ?_
  have first : (0 : Int) < 2 ^ 31 - 1 := by decide
  have second : (1 : Int) < 2 ^ 31 - 1 := by decide
  intro o₁ connected
  cases connected
  refine ⟨trivial, fun o₂ numbered => ?_⟩
  cases numbered
  refine ⟨first, fun o₃ looked => ?_⟩
  cases looked with
  | gone _ away => cases away
  | looks at₃ _ =>
    cases at₃
    refine ⟨trivial, fun o₄ numbered => ?_⟩
    cases numbered
    refine ⟨second, fun o₅ looked => ?_⟩
    cases looked with
    | gone _ away => cases away
    | looks at₅ _ =>
      cases at₅
      refine ⟨trivial, fun o₆ locked => ⟨?_, ?_⟩⟩
      · intro m other m' at₆ away waiting
        cases at₆
        cases other with
        | dap => exact absurd rfl away
        | cart =>
          cases waiting
          decide
      · cases locked with
        | locks at₆ _ =>
          cases at₆
          refine fun _ _ => ⟨trivial, fun _ _ => ⟨trivial, fun _ _ => ⟨trivial, fun _ _ => ⟨trivial, fun o₁₁ unlocked =>
            ⟨trivial, fun o₁₂ _ => ⟨?_, ?_⟩⟩⟩⟩⟩⟩
          · intro m other m' _ away waiting
            cases unlocked
            cases other with
            | dap => cases waiting
            | cart => exact absurd rfl away
          · exact fun _ _ => ⟨trivial, fun _ _ => ⟨trivial, fun _ _ => ⟨trivial, fun _ _ => ⟨trivial, trivial⟩⟩⟩⟩

/-- The numbers on a connection in wire order do not fall from one write to the next. -/
theorem Framed.sorted (framed : o.Framed (· < ·) c) : (o.wire c).Pairwise fun s s' => s.seq ≤ s'.seq := by
  obtain ⟨ts, last, wire, whole, related, begun⟩ := framed
  have own : ∀ t ∈ ts ++ last.toList, ∀ s ∈ t.writes, s.seq = t.m.seq := by
    intro t member
    rcases List.mem_append.mp member with done | isLast
    · exact (whole t done).own
    · exact (begun t (Option.mem_toList.mp isLast)).1.own
  rw [wire, List.pairwise_flatMap]
  refine ⟨fun t member => List.pairwise_of_forall_mem_list fun s first s' second => ?_, ?_⟩
  · rw [own t member s first, own t member s' second]
  · refine (List.pairwise_map.mp related).imp_of_mem fun {t t'} member member' less s first s' second => ?_
    rw [own t member s first, own t' member' s' second]
    exact Int.le_of_lt less

/-- The answer to a pause request has drawn 1 when the cart stops: the event draws 2 and is written first. -/
theorem messages_overtaken :
    ¬ Throughout Step (fun _ _ o' => o'.InWireOrder) start
      [.connects, .numbers .dap (.response 7 (ascii "pause") true none), .looks .dap, .numbers .cart stopped,
        .looks .cart, .locks .cart, .sends .cart (Numbered.mk 2 stopped).header.length, .turns .cart,
        .sends .cart (Numbered.mk 2 stopped).json.length, .unlocks .cart, .locks .dap, .sends .dap 1] := by
  intro met
  have connected := (met _ (.connects rfl rfl rfl)).2
  have answers := (connected _ (.numbers rfl (fun _ => rfl) rfl)).2
  have looked := (answers _ (.looks rfl rfl)).2
  have stops := (looked _ (.numbers rfl nofun rfl)).2
  have saw := (stops _ (.looks rfl rfl)).2
  have took := (saw _ (.locks rfl rfl)).2
  have header := (took _ (.sends rfl (Numbered.header_pos _) (Nat.le_refl _) rfl)).2
  have turned := (header _ (.turns (m := ⟨2, stopped⟩) (congrArg (Sender.sending _ false) List.drop_length))).2
  have body := (turned _ (.sends rfl (Numbered.json_pos _) (Nat.le_refl _) rfl)).2
  have released := (body _ (.unlocks (m := ⟨2, stopped⟩) (congrArg (Sender.sending _ true) List.drop_length))).2
  have after := (released _ (.locks rfl rfl)).2
  have inOrder := (after _ (.sends rfl Nat.one_pos (Numbered.header_pos _) rfl)).1
  exact absurd (inOrder 0).sorted (by decide)

end DapOutput
end Blyt
