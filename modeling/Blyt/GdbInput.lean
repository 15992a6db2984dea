import Blyt.GdbStub
import Blyt.Lib.Run

namespace Blyt
namespace GdbInput
open GdbStub Run

/-- `PacketSize=4000`. -/
def packetSize : Nat := 0x4000

/-- A packet that the protocol lets the client send. -/
structure ClientPacket where
  payload : CString
  noHash : 0x23 ∉ payload.chars
  fits : payload.chars.length ≤ packetSize

/-- A byte of the client: the `+` for a packet it received, or a byte of a packet. -/
inductive Sym where
  | ack
  | byte (c : UInt8)
  deriving DecidableEq, Repr

def Sym.char : Sym → UInt8
  | ack => 0x2b
  | byte c => c

def ClientPacket.syms (p : ClientPacket) : List Sym := (sendPkt p.payload).map .byte

/-- Where the server thread is: in `read_pkt`, at the call of `handle_packet`, at the `recv` of its
`send_pkt`, at the check of `reload_pending`, at the `recv` of the `send_pkt` behind that, or done
with the connection. -/
inductive ServerAt where
  | reading (r : Reading)
  | handling (buf : List UInt8)
  | acking
  | replied
  | eventAcking
  | closed
  deriving DecidableEq, Repr

/-- Where the emulator's thread is: outside of `fc_gdb_stub_step`, in front of its `send_pkt`, at the
`recv` of that, or in the loop. -/
inductive StepAt where
  | running
  | reporting
  | acking
  | waiting
  deriving DecidableEq, Repr

/-- A connection: the two threads, the bytes of the client that have arrived and those that have not,
and the number of packets on their way to it. The last five fields keep what has happened: the packets
sent, each with the number of `+` sent in front of it; the `+` sent and those taken off the socket;
what was handed to `handle_packet`, and what the two `recv` of `send_pkt` took. -/
structure Wire (σ : Type) where
  gdb : GdbState σ
  server : ServerAt
  emulator : StepAt
  arrived : List Sym
  inFlight : List Sym
  toClient : Nat
  sent : List (ClientPacket × Nat)
  acks : Nat
  acksTaken : Nat
  handled : List (List UInt8)
  acknowledged : List Sym

inductive Act where
  | receive (next : Option ClientPacket)
  | arrive
  | read
  | handle (malloc : Nat → Bool)
  | ackServer
  | event (malloc : Nat → Bool)
  | stop
  | report (malloc : Nat → Bool)
  | ackEmulator
  | wake
  | notifyReload

section
variable {σ : Type}

/-- A connection just accepted, with the client's first packet on its way. -/
def start (gdb : GdbState σ) (first : ClientPacket) : Wire σ where
  gdb := { gdb with connected := true, halted := true }
  server := .reading .seek
  emulator := .running
  arrived := []
  inFlight := first.syms
  toClient := 0
  sent := [(first, 0)]
  acks := 0
  acksTaken := 0
  handled := []
  acknowledged := []

namespace Wire

/-- The client gets a packet, sends `+` and, where it has one, its next packet. -/
def receive (w : Wire σ) (next : Option ClientPacket) : Option (Wire σ) :=
  if w.toClient = 0 then none
  else some { w with
    toClient := w.toClient - 1
    inFlight := w.inFlight ++ .ack :: next.toList.flatMap ClientPacket.syms
    sent := w.sent ++ next.toList.map fun p => (p, w.acks + 1)
    acks := w.acks + 1 }

def arrive (w : Wire σ) : Option (Wire σ) :=
  match w.inFlight with
  | [] => none
  | s :: rest => some { w with arrived := w.arrived ++ [s], inFlight := rest }

/-- One byte received, by either thread. -/
def recv (w : Wire σ) : Option (Sym × Wire σ) :=
  match w.arrived with
  | [] => none
  | s :: rest => some (s, { w with arrived := rest, acksTaken := w.acksTaken + if s = .ack then 1 else 0 })

/-- A `recv` of `read_pkt`. The one for the checksum is content with a single byte, and the connection
ends. -/
def read (w : Wire σ) : Option (Wire σ) :=
  match w.server with
  | .reading (.csum buf) => do
    let (_, w) ← w.recv
    match w.recv with
    | none => some { w with
        server := .closed
        gdb := { w.gdb with connected := false, halted := false } }
    | some (_, w) => some { w with server := .handling buf }
  | .reading r => do
    let (s, w) ← w.recv
    some { w with server := .reading (r.feed maxPacket s.char) }
  | _ => none

/-- `handle_packet` as far as the `send` of its `send_pkt`. -/
def handle (w : Wire σ) (malloc : Nat → Bool) : Option (Wire σ) :=
  match w.server with
  | .handling buf =>
    match handlePacket malloc w.gdb (cString buf) with
    | .returns (out, g) =>
      let packets := GdbStub.sent malloc g out
      some { w with
        gdb := g
        handled := w.handled ++ [buf]
        toClient := w.toClient + packets.length
        server := if packets = [] then .replied else .acking }
    | _ => none
  | _ => none

/-- The `recv` of a `send_pkt` of the server thread. -/
def ackServer (w : Wire σ) : Option (Wire σ) :=
  match w.server with
  | .acking => do
    let (s, w) ← w.recv
    some { w with acknowledged := w.acknowledged ++ [s], server := .replied }
  | .eventAcking => do
    let (s, w) ← w.recv
    some { w with
      acknowledged := w.acknowledged ++ [s]
      gdb := { w.gdb with reloadPending := false }
      server := .reading .seek }
  | _ => none

/-- What `gdb_thread_main` does behind `handle_packet`. -/
def event (w : Wire σ) (malloc : Nat → Bool) : Option (Wire σ) :=
  match w.server with
  | .replied =>
    if w.gdb.reloadPending then
      let packets := GdbStub.sent malloc w.gdb libraryEvent
      if packets = [] then some { w with
        gdb := { w.gdb with reloadPending := false }
        server := .reading .seek }
      else some { w with
        toClient := w.toClient + packets.length
        server := .eventAcking }
    else some { w with server := .reading .seek }
  | _ => none

def stop (w : Wire σ) : Option (Wire σ) :=
  if w.emulator = .running then some { w with gdb := { w.gdb with halted := true }, emulator := .reporting }
  else none

/-- `fc_gdb_stub_step` as far as the `send` of its `send_pkt`. -/
def report (w : Wire σ) (malloc : Nat → Bool) : Option (Wire σ) :=
  if w.emulator = .reporting then
    let packets := GdbStub.sent malloc w.gdb stopReply
    some { w with
      toClient := w.toClient + packets.length
      emulator := if packets = [] then .waiting else .acking }
  else none

/-- The `recv` of the `send_pkt` of the emulator's thread. -/
def ackEmulator (w : Wire σ) : Option (Wire σ) :=
  if w.emulator = .acking then do
    let (s, w) ← w.recv
    some { w with acknowledged := w.acknowledged ++ [s], emulator := .waiting }
  else none

def wake (w : Wire σ) : Option (Wire σ) :=
  if w.emulator = .waiting ∧ w.gdb.halted = false then some { w with emulator := .running } else none

def act (w : Wire σ) : Act → Option (Wire σ)
  | .receive next => w.receive next
  | .arrive => w.arrive
  | .read => w.read
  | .handle malloc => w.handle malloc
  | .ackServer => w.ackServer
  | .event malloc => w.event malloc
  | .stop => w.stop
  | .report malloc => w.report malloc
  | .ackEmulator => w.ackEmulator
  | .wake => w.wake
  | .notifyReload => some { w with gdb := { w.gdb with reloadPending := true } }

def payloads (sent : List (ClientPacket × Nat)) : List (List UInt8) := sent.map fun q => q.1.payload.chars

/-- Nothing more comes to `handle_packet` of what was sent. -/
def Drained (w : Wire σ) : Prop :=
  w.server = .closed ∨ w.server = .reading .seek ∧ w.arrived = [] ∧ w.inFlight = []

/-- Every packet comes to `handle_packet` once, as it was sent, and in turn; acknowledgement reads have
taken nothing but acknowledgements. -/
def Intact (w : Wire σ) : Prop :=
  w.handled <+: payloads w.sent ∧ (w.Drained → w.handled = payloads w.sent) ∧ ∀ s ∈ w.acknowledged, s = .ack

/-- The server thread is not inside a packet. -/
def Between (w : Wire σ) : Prop :=
  match w.server with
  | .reading (.store _) => False
  | .reading (.csum _) => False
  | _ => True

/-- How many packets `read_pkt` has begun to read. -/
def begun (w : Wire σ) : Nat :=
  w.handled.length + match w.server with
    | .reading (.store _) => 1
    | .reading (.csum _) => 1
    | .handling _ => 1
    | _ => 0

/-- How many `+` the client sent in front of the next packet to be read, if it has sent that. -/
def acksAhead (w : Wire σ) : Nat := ((w.sent.drop w.begun).head?.map Prod.snd).getD w.acks

/-- An acknowledgement is read between two packets, and while not all `+` in front of the next packet
are taken; a checksum is read when both its bytes are there. -/
def Meets (w : Wire σ) : Act → Prop
  | .ackServer => w.Between ∧ w.acksTaken < w.acksAhead
  | .ackEmulator => w.Between ∧ w.acksTaken < w.acksAhead
  | .read =>
    match w.server with
    | .reading (.csum _) => 2 ≤ w.arrived.length
    | _ => True
  | _ => True

end Wire

def Step (w : Wire σ) (a : Act) (w' : Wire σ) : Prop := w.act a = some w'

end

/-- What the client has sent, as it was sent: a `+`, or a packet with the number of `+` before it. -/
inductive Item where
  | ack
  | packet (p : ClientPacket) (before : Nat)

def Item.syms : Item → List Sym
  | ack => [.ack]
  | packet p _ => p.syms

def Item.packet? : Item → Option (ClientPacket × Nat)
  | ack => none
  | packet p before => some (p, before)

/-- From `n` acknowledgements on, each packet of the items has the right number, and `m` are reached. -/
def Numbered (n : Nat) : List Item → Nat → Prop
  | [], m => n = m
  | .ack :: items, m => Numbered (n + 1) items m
  | .packet _ before :: items, m => before = n ∧ Numbered n items m

section
variable {n m : Nat} {items : List Item}

theorem numbered_append {more : List Item} :
    Numbered n (items ++ more) m ↔ ∃ k, Numbered n items k ∧ Numbered k more m := by
  induction items generalizing n with
  | nil => simp [Numbered]
  | cons item items ih =>
    cases item with
    | ack => exact ih
    | packet p before =>
      rw [List.cons_append, Numbered, ih]
      simp [Numbered, and_assoc]

theorem numbered_ahead (numbered : Numbered n items m) :
    n ≤ ((items.filterMap Item.packet?).head?.map Prod.snd).getD m ∧
      (n < ((items.filterMap Item.packet?).head?.map Prod.snd).getD m ↔ ∃ rest, items = .ack :: rest) := by
  induction items generalizing n with
  | nil =>
    cases numbered
    simp
  | cons item items ih =>
    cases item with
    | ack =>
      have ahead : n < ((items.filterMap Item.packet?).head?.map Prod.snd).getD m := (ih numbered).1
      exact ⟨ahead.le, iff_of_true ahead ⟨items, rfl⟩⟩
    | packet p before =>
      obtain ⟨rfl, -⟩ := numbered
      simp [Item.packet?]

theorem syms_cons (p : ClientPacket) :
    p.syms = .byte 0x24 :: (p.payload.chars ++ 0x23 :: HexText.pair (checksum p.payload.chars)).map .byte := rfl

theorem unread_cons {s : Sym} {unread : List Sym} (first : items.flatMap Item.syms = s :: unread) :
    (∃ rest, items = .ack :: rest ∧ s = .ack ∧ unread = rest.flatMap Item.syms) ∨
      ∃ p before rest, items = .packet p before :: rest ∧ s = .byte 0x24 ∧
        unread = (p.payload.chars ++ 0x23 :: HexText.pair (checksum p.payload.chars)).map .byte ++
          rest.flatMap Item.syms := by
  cases items with
  | nil => cases first
  | cons item rest =>
    rw [List.flatMap_cons] at first
    cases item with
    | ack =>
      cases first
      exact Or.inl ⟨rest, rfl, rfl, rfl⟩
    | packet p before =>
      rw [Item.syms, syms_cons, List.cons_append, List.cons.injEq] at first
      exact Or.inr ⟨p, before, rest, rfl, first.1.symm, first.2.symm⟩

theorem unread_nil (none : items.flatMap Item.syms = []) : items = [] := by
  cases items with
  | nil => rfl
  | cons item rest =>
    cases item with
    | ack => cases none
    | packet p before => cases none

end

/-- The packet that the server thread is at, and what of it is unread. -/
inductive Partly : ServerAt → Option (ClientPacket × Nat) → List Sym → Prop
  | seek : Partly (.reading .seek) none []
  | store {q : ClientPacket × Nat} {buf rest : List UInt8} : q.1.payload.chars = buf ++ rest →
      Partly (.reading (.store buf)) (some q)
        ((rest ++ 0x23 :: HexText.pair (checksum q.1.payload.chars)).map .byte)
  | csum {q : ClientPacket × Nat} : Partly (.reading (.csum q.1.payload.chars)) (some q)
      ((HexText.pair (checksum q.1.payload.chars)).map .byte)
  | handling {q : ClientPacket × Nat} : Partly (.handling q.1.payload.chars) (some q) []
  | acking : Partly .acking none []
  | replied : Partly .replied none []
  | eventAcking : Partly .eventAcking none []

theorem Partly.bytes {server : ServerAt} {current : Option (ClientPacket × Nat)} {tail : List Sym}
    (partly : Partly server current tail) : ∀ s ∈ tail, s ≠ .ack := by
  cases partly with
  | store | csum =>
    intro s member
    obtain ⟨c, -, rfl⟩ := List.mem_map.mp member
    exact nofun
  | seek | handling | acking | replied | eventAcking => exact nofun

section
variable {σ : Type} {w w' : Wire σ} {done : List (ClientPacket × Nat)} {current : Option (ClientPacket × Nat)}
  {tail : List Sym} {items : List Item}

/-- What was sent is what was handled, the packet that the server thread is at, and the packets of the
items, of which with the rest of that packet the unread bytes consist. -/
structure Tracks (w : Wire σ) (done : List (ClientPacket × Nat)) (current : Option (ClientPacket × Nat))
    (tail : List Sym) (items : List Item) : Prop where
  handled : w.handled = Wire.payloads done
  sent : w.sent = done ++ current.toList ++ items.filterMap Item.packet?
  unread : w.arrived ++ w.inFlight = tail ++ items.flatMap Item.syms
  server : Partly w.server current tail
  numbered : Numbered w.acksTaken items w.acks
  acknowledged : ∀ s ∈ w.acknowledged, s = .ack

theorem start_tracks (gdb : GdbState σ) (first : ClientPacket) :
    Tracks (start gdb first) [] none [] [.packet first 0] where
  handled := rfl
  sent := rfl
  unread := by simp [start, Item.syms]
  server := .seek
  numbered := ⟨rfl, rfl⟩
  acknowledged := nofun

theorem Tracks.intact (tracks : Tracks w done current tail items) : w.Intact := by
  refine ⟨?_, ?_, tracks.acknowledged⟩
  · rw [tracks.handled, tracks.sent, List.append_assoc]
    exact ⟨_, (List.map_append ..).symm⟩
  · rintro (closed | ⟨seek, arrived, inFlight⟩)
    · have server := tracks.server
      rw [closed] at server
      cases server
    · have server := tracks.server
      have unread := tracks.unread
      rw [seek] at server
      rw [arrived, inFlight] at unread
      cases server
      have none := unread_nil unread.symm
      rw [tracks.handled, tracks.sent, none]
      simp

theorem Tracks.begun_eq (tracks : Tracks w done current tail items) :
    w.begun = (done ++ current.toList).length := by
  have handled : w.handled.length = done.length := by rw [tracks.handled, Wire.payloads, List.length_map]
  rw [Wire.begun, handled, List.length_append]
  have partly := tracks.server
  generalize w.server = server at partly ⊢
  cases partly <;> rfl

theorem Tracks.acksAhead_eq (tracks : Tracks w done current tail items) :
    w.acksAhead = ((items.filterMap Item.packet?).head?.map Prod.snd).getD w.acks := by
  rw [Wire.acksAhead, tracks.begun_eq, tracks.sent, List.drop_left]

theorem Tracks.between_iff (tracks : Tracks w done current tail items) : w.Between ↔ tail = [] := by
  rw [Wire.Between]
  have partly := tracks.server
  generalize w.server = server at partly ⊢
  cases partly <;> simp [HexText.pair]

theorem recv_eq {s : Sym} (received : w.recv = some (s, w')) :
    w.arrived = s :: w'.arrived ∧
      w' = { w with arrived := w'.arrived, acksTaken := w.acksTaken + if s = .ack then 1 else 0 } := by
  rw [Wire.recv] at received
  split at received
  · cases received
  · rename_i arrived
    cases received
    exact ⟨arrived, rfl⟩

/-- The next byte is an acknowledgement where the server thread is between two packets and not all
in front of the next are taken, and nowhere else. -/
theorem Tracks.recv_ack_iff {s : Sym} (tracks : Tracks w done current tail items) (received : w.recv = some (s, w')) :
    w.Between ∧ w.acksTaken < w.acksAhead ↔ s = .ack := by
  obtain ⟨arrived, -⟩ := recv_eq received
  have unread := tracks.unread
  rw [arrived, List.cons_append] at unread
  rw [tracks.between_iff, tracks.acksAhead_eq, (numbered_ahead tracks.numbered).2]
  cases tail with
  | nil =>
    rcases unread_cons unread.symm with ⟨rest, rfl, rfl, -⟩ | ⟨p, before, rest, rfl, rfl, -⟩
    · exact iff_of_true ⟨rfl, rest, rfl⟩ rfl
    · exact iff_of_false (fun both => nomatch both.2) nofun
  | cons t tail =>
    rw [List.cons_append, List.cons.injEq] at unread
    obtain ⟨rfl, -⟩ := unread
    exact iff_of_false (fun both => nomatch both.1) (tracks.server.bytes s List.mem_cons_self)

/-- An acknowledgement taken off while the server thread is between two packets. -/
theorem Tracks.recv_ack (tracks : Tracks w done current [] items) (received : w.recv = some (.ack, w')) :
    ∃ rest, Tracks w' done current [] rest := by
  obtain ⟨arrived, after⟩ := recv_eq received
  have unread := tracks.unread
  rw [arrived, List.cons_append] at unread
  rcases unread_cons unread.symm with ⟨rest, rfl, -, others⟩ | ⟨p, before, rest, -, same, -⟩
  · refine ⟨rest, ?_⟩
    rw [after]
    exact ⟨tracks.handled, tracks.sent, others, tracks.server, tracks.numbered, tracks.acknowledged⟩
  · cases same

theorem receive_tracks {next : Option ClientPacket} (tracks : Tracks w done current tail items)
    (acted : w.receive next = some w') : ∃ items', Tracks w' done current tail items' := by
  rw [Wire.receive] at acted
  split at acted
  · cases acted
  · cases acted
    refine ⟨items ++ .ack :: next.toList.map fun p => .packet p (w.acks + 1), tracks.handled, ?_, ?_, tracks.server,
      ?_, tracks.acknowledged⟩
    · show w.sent ++ _ = _
      rw [tracks.sent, List.filterMap_append, ← List.append_assoc]
      cases next <;> rfl
    · show w.arrived ++ (w.inFlight ++ _) = _
      rw [← List.append_assoc, tracks.unread, List.flatMap_append]
      cases next <;> simp [Item.syms]
    · rw [numbered_append]
      refine ⟨w.acks, tracks.numbered, ?_⟩
      cases next with
      | none => rfl
      | some p => exact ⟨rfl, rfl⟩

theorem arrive_tracks (tracks : Tracks w done current tail items) (acted : w.arrive = some w') :
    Tracks w' done current tail items := by
  rw [Wire.arrive] at acted
  split at acted
  · cases acted
  · rename_i s rest inFlight
    cases acted
    have unread := tracks.unread
    rw [inFlight] at unread
    refine ⟨tracks.handled, tracks.sent, ?_, tracks.server, tracks.numbered, tracks.acknowledged⟩
    show w.arrived ++ [s] ++ rest = _
    rw [← unread, List.append_assoc, List.singleton_append]

theorem read_eq {r : Reading} (loop : ∀ buf, r ≠ .csum buf) (server : w.server = .reading r)
    (acted : w.read = some w') : ∃ s, w.arrived = s :: w'.arrived ∧ w' = { w with
      server := .reading (r.feed maxPacket s.char)
      arrived := w'.arrived
      acksTaken := w.acksTaken + if s = .ack then 1 else 0 } := by
  have one : w.read = w.recv.bind fun x => some { x.2 with server := .reading (r.feed maxPacket x.1.char) } := by
    rw [Wire.read, server]
    cases r with
    | seek | store => rfl
    | csum buf => exact absurd rfl (loop buf)
  rw [one] at acted
  obtain ⟨⟨s, taken⟩, received, same⟩ := Option.bind_eq_some_iff.mp acted
  cases same
  obtain ⟨arrived, after⟩ := recv_eq received
  refine ⟨s, arrived, ?_⟩
  rw [after]

theorem read_seek (tracks : Tracks w done current tail items) (server : w.server = .reading .seek)
    (acted : w.read = some w') : ∃ current' tail' items', Tracks w' done current' tail' items' := by
  obtain ⟨s, arrived, after⟩ := read_eq (by nofun) server acted
  have partly := tracks.server
  have unread := tracks.unread
  have sent := tracks.sent
  have numbered := tracks.numbered
  rw [server] at partly
  cases partly
  rw [arrived, List.cons_append] at unread
  rw [after]
  rcases unread_cons unread.symm with ⟨rest, rfl, rfl, others⟩ | ⟨p, before, rest, rfl, rfl, others⟩
  · exact ⟨none, [], rest, tracks.handled, sent, others, .seek, numbered, tracks.acknowledged⟩
  · refine ⟨some (p, before), _, rest, tracks.handled, ?_, others, .store (List.nil_append _).symm, numbered.2,
      tracks.acknowledged⟩
    rw [Option.toList_none, List.append_nil] at sent
    rw [Option.toList_some, List.append_assoc]
    exact sent

theorem read_store {buf : List UInt8} (tracks : Tracks w done current tail items)
    (server : w.server = .reading (.store buf)) (acted : w.read = some w') :
    ∃ tail', Tracks w' done current tail' items := by
  obtain ⟨s, arrived, after⟩ := read_eq (by nofun) server acted
  have partly := tracks.server
  have unread := tracks.unread
  rw [server] at partly
  rw [arrived, List.cons_append] at unread
  rw [after]
  cases partly
  rename_i q rest parts
  cases rest with
  | nil =>
    rw [List.append_nil] at parts
    rw [List.nil_append, List.map_cons, List.cons_append, List.cons.injEq] at unread
    obtain ⟨rfl, others⟩ := unread
    have complete : Reading.feed maxPacket (.store buf) (Sym.char (.byte 0x23)) = .csum q.1.payload.chars := by
      rw [parts]
      rfl
    refine ⟨_, tracks.handled, tracks.sent, others, ?_, tracks.numbered, tracks.acknowledged⟩
    show Partly (.reading (Reading.feed maxPacket (.store buf) (Sym.char (.byte 0x23)))) _ _
    rw [complete]
    exact .csum
  | cons c rest =>
    rw [List.cons_append, List.map_cons, List.cons_append, List.cons.injEq] at unread
    obtain ⟨rfl, others⟩ := unread
    have inside : c ∈ q.1.payload.chars := by
      rw [parts]
      exact List.mem_append_right _ List.mem_cons_self
    have other : c ≠ 0x23 := fun same => q.1.noHash (same ▸ inside)
    have room : (buf ++ [c]).length + 1 < maxPacket := by
      have fits := q.1.fits
      rw [parts, List.length_append, List.length_cons, packetSize] at fits
      rw [List.length_append, List.length_singleton, maxPacket]
      omega
    have next : Reading.feed maxPacket (.store buf) (Sym.char (.byte c)) = .store (buf ++ [c]) := by
      rw [Reading.feed, Sym.char, if_neg other, Reading.loop, if_pos room]
    refine ⟨_, tracks.handled, tracks.sent, others, ?_, tracks.numbered, tracks.acknowledged⟩
    show Partly (.reading (Reading.feed maxPacket (.store buf) (Sym.char (.byte c)))) _ _
    rw [next]
    exact .store (parts.trans (List.append_cons buf c rest))

theorem read_both {buf : List UInt8} {a b : Sym} {rest : List Sym} (server : w.server = .reading (.csum buf))
    (arrived : w.arrived = a :: b :: rest) : w.read = some { w with
      server := .handling buf
      arrived := rest
      acksTaken := w.acksTaken + (if a = .ack then 1 else 0) + if b = .ack then 1 else 0 } := by
  simp only [Wire.read, server, Wire.recv, arrived, Option.bind_eq_bind, Option.bind_some]

theorem read_csum {buf : List UInt8} (tracks : Tracks w done current tail items)
    (server : w.server = .reading (.csum buf)) (both : 2 ≤ w.arrived.length) (acted : w.read = some w') :
    Tracks w' done current [] items := by
  have partly := tracks.server
  have unread := tracks.unread
  rw [server] at partly
  cases partly
  match arrived : w.arrived with
  | [] => simp [arrived] at both
  | [a] => simp [arrived] at both
  | a :: b :: rest =>
    rw [arrived] at unread
    obtain ⟨rfl, rfl, others⟩ : a = .byte _ ∧ b = .byte _ ∧ rest ++ w.inFlight = _ := by
      simpa [HexText.pair] using unread
    rw [read_both server arrived, Option.some.injEq] at acted
    rw [← acted]
    exact ⟨tracks.handled, tracks.sent, others, .handling, tracks.numbered, tracks.acknowledged⟩

theorem handle_tracks {malloc : Nat → Bool} (tracks : Tracks w done current tail items)
    (acted : w.handle malloc = some w') : ∃ done', Tracks w' done' none [] items := by
  rw [Wire.handle] at acted
  split at acted
  · rename_i buf server
    have partly := tracks.server
    rw [server] at partly
    cases partly
    rename_i q
    split at acted
    · rename_i out g handled
      rw [Option.some.injEq] at acted
      rw [← acted]
      refine ⟨done ++ [q], ?_, ?_, tracks.unread, ?_, tracks.numbered, tracks.acknowledged⟩
      · show w.handled ++ [q.1.payload.chars] = _
        rw [tracks.handled, Wire.payloads, Wire.payloads, List.map_append]
        rfl
      · show w.sent = done ++ [q] ++ [] ++ _
        rw [List.append_nil]
        exact tracks.sent
      · show Partly (if _ then .replied else .acking) none []
        split
        · exact .replied
        · exact .acking
    · cases acted
  · cases acted

theorem ackServer_eq (acted : w.ackServer = some w') : ∃ s taken, w.recv = some (s, taken) ∧
    w'.acknowledged = taken.acknowledged ++ [s] ∧
      (w.server = .acking ∧ w' = { taken with acknowledged := w'.acknowledged, server := .replied } ∨
        w.server = .eventAcking ∧ w' = { taken with
          acknowledged := w'.acknowledged
          gdb := { taken.gdb with reloadPending := false }
          server := .reading .seek }) := by
  rw [Wire.ackServer] at acted
  split at acted
  · rename_i server
    obtain ⟨⟨s, taken⟩, received, same⟩ := Option.bind_eq_some_iff.mp acted
    cases same
    exact ⟨s, taken, received, rfl, Or.inl ⟨server, rfl⟩⟩
  · rename_i server
    obtain ⟨⟨s, taken⟩, received, same⟩ := Option.bind_eq_some_iff.mp acted
    cases same
    exact ⟨s, taken, received, rfl, Or.inr ⟨server, rfl⟩⟩
  · cases acted

theorem ackEmulator_eq (acted : w.ackEmulator = some w') : ∃ s taken, w.recv = some (s, taken) ∧
    w'.acknowledged = taken.acknowledged ++ [s] ∧
      w' = { taken with acknowledged := w'.acknowledged, emulator := .waiting } := by
  rw [Wire.ackEmulator] at acted
  split at acted
  · obtain ⟨⟨s, taken⟩, received, same⟩ := Option.bind_eq_some_iff.mp acted
    cases same
    exact ⟨s, taken, received, rfl, rfl⟩
  · cases acted

theorem Tracks.acknowledge {acknowledged : List Sym} (tracks : Tracks w done current tail items)
    (more : acknowledged = w.acknowledged ++ [.ack]) : ∀ s ∈ acknowledged, s = .ack := by
  rw [more, List.forall_mem_append, List.forall_mem_singleton]
  exact ⟨tracks.acknowledged, rfl⟩

theorem ackServer_tracks (tracks : Tracks w done current tail items) (meets : w.Meets .ackServer)
    (acted : w.ackServer = some w') : ∃ items', Tracks w' done none [] items' := by
  obtain ⟨s, taken, received, acknowledged, after⟩ := ackServer_eq acted
  have ack := (tracks.recv_ack_iff received).mp meets
  subst ack
  have partly := tracks.server
  rcases after with ⟨server, after⟩ | ⟨server, after⟩
  · rw [server] at partly
    cases partly
    obtain ⟨rest, next⟩ := tracks.recv_ack received
    refine ⟨rest, ?_⟩
    rw [after]
    exact ⟨next.handled, next.sent, next.unread, .replied, next.numbered, next.acknowledge acknowledged⟩
  · rw [server] at partly
    cases partly
    obtain ⟨rest, next⟩ := tracks.recv_ack received
    refine ⟨rest, ?_⟩
    rw [after]
    exact ⟨next.handled, next.sent, next.unread, .seek, next.numbered, next.acknowledge acknowledged⟩

theorem ackEmulator_tracks (tracks : Tracks w done current tail items) (meets : w.Meets .ackEmulator)
    (acted : w.ackEmulator = some w') : ∃ items', Tracks w' done current [] items' := by
  obtain ⟨s, taken, received, acknowledged, after⟩ := ackEmulator_eq acted
  have ack := (tracks.recv_ack_iff received).mp meets
  have between := tracks.between_iff.mp meets.1
  subst ack between
  obtain ⟨rest, next⟩ := tracks.recv_ack received
  refine ⟨rest, ?_⟩
  rw [after]
  exact ⟨next.handled, next.sent, next.unread, next.server, next.numbered, next.acknowledge acknowledged⟩

theorem event_tracks {malloc : Nat → Bool} (tracks : Tracks w done current tail items)
    (acted : w.event malloc = some w') : Tracks w' done none [] items := by
  rw [Wire.event] at acted
  split at acted
  · rename_i server
    have partly := tracks.server
    rw [server] at partly
    cases partly
    split at acted
    · simp only at acted
      split at acted
      · cases acted
        exact ⟨tracks.handled, tracks.sent, tracks.unread, .seek, tracks.numbered, tracks.acknowledged⟩
      · cases acted
        exact ⟨tracks.handled, tracks.sent, tracks.unread, .eventAcking, tracks.numbered, tracks.acknowledged⟩
    · cases acted
      exact ⟨tracks.handled, tracks.sent, tracks.unread, .seek, tracks.numbered, tracks.acknowledged⟩
  · cases acted

theorem emulator_tracks {w' : Wire σ} (tracks : Tracks w done current tail items)
    (same : w' = { w with gdb := w'.gdb, emulator := w'.emulator, toClient := w'.toClient }) :
    Tracks w' done current tail items := by
  rw [same]
  exact ⟨tracks.handled, tracks.sent, tracks.unread, tracks.server, tracks.numbered, tracks.acknowledged⟩

end

def Inv {σ : Type} (w : Wire σ) : Prop := ∃ done current tail items, Tracks w done current tail items

section
variable {σ : Type} {w w' : Wire σ}

theorem read_inv {done : List (ClientPacket × Nat)} {current : Option (ClientPacket × Nat)} {tail : List Sym}
    {items : List Item} (tracks : Tracks w done current tail items) (meets : w.Meets .read)
    (acted : w.read = some w') : Inv w' := by
  match server : w.server with
  | .reading .seek =>
    obtain ⟨current', tail', items', after⟩ := read_seek tracks server acted
    exact ⟨done, current', tail', items', after⟩
  | .reading (.store buf) =>
    obtain ⟨tail', after⟩ := read_store tracks server acted
    exact ⟨done, current, tail', items, after⟩
  | .reading (.csum buf) =>
    rw [Wire.Meets, server] at meets
    exact ⟨done, current, [], items, read_csum tracks server meets acted⟩
  | .handling _ | .acking | .replied | .eventAcking | .closed =>
    rw [Wire.read, server] at acted
    cases acted

theorem step_inv {a : Act} (inv : Inv w) (step : Step w a w') (meets : w.Meets a) : Inv w' := by
  obtain ⟨done, current, tail, items, tracks⟩ := inv
  cases a with
  | receive next =>
    obtain ⟨items', after⟩ := receive_tracks tracks step
    exact ⟨done, current, tail, items', after⟩
  | arrive => exact ⟨done, current, tail, items, arrive_tracks tracks step⟩
  | read => exact read_inv tracks meets step
  | handle malloc =>
    obtain ⟨done', after⟩ := handle_tracks tracks step
    exact ⟨done', none, [], items, after⟩
  | ackServer =>
    obtain ⟨items', after⟩ := ackServer_tracks tracks meets step
    exact ⟨done, none, [], items', after⟩
  | event malloc => exact ⟨done, none, [], items, event_tracks tracks step⟩
  | stop =>
    obtain ⟨-, same⟩ := Option.ite_none_right_eq_some.mp step
    cases same
    exact ⟨done, current, tail, items, emulator_tracks tracks rfl⟩
  | report malloc =>
    obtain ⟨-, same⟩ := Option.ite_none_right_eq_some.mp step
    cases same
    exact ⟨done, current, tail, items, emulator_tracks tracks rfl⟩
  | ackEmulator =>
    obtain ⟨items', after⟩ := ackEmulator_tracks tracks meets step
    exact ⟨done, current, [], items', after⟩
  | wake =>
    obtain ⟨-, same⟩ := Option.ite_none_right_eq_some.mp step
    cases same
    exact ⟨done, current, tail, items, emulator_tracks tracks rfl⟩
  | notifyReload =>
    cases step
    exact ⟨done, current, tail, items, emulator_tracks tracks rfl⟩

/-- A checksum read that finds one byte loses the packet. -/
theorem read_not_intact (inv : Inv w) (acted : w.read = some w') (fails : ¬ w.Meets .read) : ¬ w'.Intact := by
  obtain ⟨done, current, tail, items, tracks⟩ := inv
  match server : w.server with
  | .reading (.csum buf) =>
    rw [Wire.Meets, server] at fails
    have partly := tracks.server
    rw [server] at partly
    cases partly
    rename_i q
    intro intact
    match arrived : w.arrived with
    | [] => simp [Wire.read, server, Wire.recv, arrived] at acted
    | [a] =>
      simp only [Wire.read, server, Wire.recv, arrived, Option.bind_eq_bind, Option.bind_some, Option.some.injEq] at acted
      subst acted
      have whole : w.handled = Wire.payloads w.sent := intact.2.1 (Or.inl rfl)
      have sizes := congrArg List.length whole
      rw [tracks.handled, tracks.sent] at sizes
      simp [Wire.payloads] at sizes
    | a :: b :: rest => simp [arrived] at fails
  | .reading .seek | .reading (.store _) | .handling _ | .acking | .replied | .eventAcking | .closed =>
    rw [Wire.Meets, server] at fails
    exact absurd trivial fails

theorem step_not_intact {a : Act} (inv : Inv w) (step : Step w a w') (fails : ¬ w.Meets a) : ¬ w'.Intact := by
  cases a with
  | read => exact read_not_intact inv step fails
  | ackServer =>
    obtain ⟨done, current, tail, items, tracks⟩ := inv
    obtain ⟨s, taken, received, acknowledged, -⟩ := ackServer_eq step
    intro intact
    have ack := intact.2.2 s (acknowledged ▸ List.mem_append_right _ List.mem_cons_self)
    exact fails ((tracks.recv_ack_iff received).mpr ack)
  | ackEmulator =>
    obtain ⟨done, current, tail, items, tracks⟩ := inv
    obtain ⟨s, taken, received, acknowledged, -⟩ := ackEmulator_eq step
    intro intact
    have ack := intact.2.2 s (acknowledged ▸ List.mem_append_right _ List.mem_cons_self)
    exact fails ((tracks.recv_ack_iff received).mpr ack)
  | receive | arrive | handle | event | stop | report | wake | notifyReload => exact absurd trivial fails

theorem step_intact_iff {a : Act} (inv : Inv w) (step : Step w a w') : w.Meets a ↔ w'.Intact := by
  constructor
  · intro meets
    obtain ⟨done, current, tail, items, tracks⟩ := step_inv inv step meets
    exact tracks.intact
  · intro intact
    by_contra fails
    exact step_not_intact inv step fails intact

/-- Along any interleaving, the packets stay intact exactly as long as each acknowledgement is read
while the server thread is between two packets and a `+` in front of the next is left, and each
checksum when both its bytes have arrived. -/
theorem intact_iff (gdb : GdbState σ) (first : ClientPacket) (acts : List Act) :
    Throughout Step (fun w a _ => w.Meets a) (start gdb first) acts ↔
      Throughout Step (fun _ _ w' => w'.Intact) (start gdb first) acts := by
  have inv : Inv (start gdb first) := ⟨_, _, _, _, start_tracks gdb first⟩
  refine throughout_iff Inv (fun w a w' inv step => step_intact_iff inv step) ?_ inv acts
  intro w a w' inv step intact
  exact step_inv inv step ((step_intact_iff inv step).mpr intact)

end

/-- A stub whose machine and layout do not matter. -/
def attached : GdbState Unit where
  connected := true
  layout := ⟨none, []⟩
  ops := ⟨none, none, none, none, none, none, none⟩
  machine := ()
  breaks := ⟨[], Nat.zero_le _⟩
  halted := true
  pendingAction := .continue
  reloadPending := false

/-- The client asks `?` and waits; the target stops; the client acknowledges the stop reply and asks `g`.
`read_pkt` skips the `+`. -/
def skipped : List Act :=
  [.arrive, .arrive, .arrive, .arrive, .arrive, .read, .read, .read, .read,
    .handle fun _ => true, .receive none, .arrive, .ackServer, .event fun _ => true,
    .stop, .report fun _ => true, .receive (some ⟨cstr "g", by decide, by decide⟩),
    .arrive, .arrive, .arrive, .arrive, .arrive, .arrive, .read, .ackEmulator]

theorem not_intact : ¬ ∀ (gdb : GdbState Unit) (first : ClientPacket) (acts : List Act),
    Throughout Step (fun _ _ w' => w'.Intact) (start gdb first) acts := by
  intro all
  have along := all attached ⟨cstr "?", by decide, by decide⟩ skipped
  have took : (skipped.foldlM Wire.act (start attached ⟨cstr "?", by decide, by decide⟩)).map Wire.acknowledged =
      some [.ack, .byte 0x24] := by decide
  obtain ⟨w, ran, acknowledged⟩ := Option.map_eq_some_iff.mp took
  have intact := Throughout.at_end (f := Wire.act) along (start_tracks _ _).intact ran
  have ack := intact.2.2 (.byte 0x24) (by simp [acknowledged])
  cases ack

end GdbInput
end Blyt
