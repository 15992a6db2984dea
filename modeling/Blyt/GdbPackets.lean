import Blyt.Lib.Frames
import Blyt.Lib.HexText
import Blyt.RuntimeTracked

namespace Blyt
namespace GdbStub
open Frames

def maxPacket : Nat := 65536

def checksum (payload : List UInt8) : UInt8 := UInt8.ofNat ((payload.map UInt8.toNat).sum &&& 0xff)

/-- What `send_pkt` puts on the stream. -/
def sendPkt (payload : CString) : List UInt8 :=
  0x24 :: (payload.chars ++ 0x23 :: HexText.pair (checksum payload.chars))

/-- Where `read_pkt` stands: in front of `$`, in its second loop with what is in `buf`, or at the
checksum. -/
inductive Reading where
  | seek
  | store (buf : List UInt8)
  | csum (buf : List UInt8)
  deriving DecidableEq, Repr

/-- The condition of the second loop. -/
def Reading.loop (cap : Nat) (buf : List UInt8) : Reading := if buf.length + 1 < cap then store buf else csum buf

/-- One byte received in one of the loops. -/
def Reading.feed (cap : Nat) : Reading → UInt8 → Reading
  | seek, c => if c = 0x24 then loop cap [] else seek
  | store buf, c => if c = 0x23 then csum buf else loop cap (buf ++ [c])
  | csum buf, _ => csum buf

/-- The rest of `read_pkt` on the rest of the stream: what it leaves in `buf`, and what stays unread. -/
def readFrom (cap : Nat) : Reading → List UInt8 → Option (List UInt8 × List UInt8)
  | .seek, [] => none
  | .seek, c :: stream => readFrom cap (Reading.feed cap .seek c) stream
  | .store _, [] => none
  | .store buf, c :: stream => readFrom cap (Reading.feed cap (.store buf) c) stream
  | .csum buf, stream => if 2 ≤ stream.length then some (buf, stream.drop 2) else none

/-- `read_pkt`; `none` is `-1`. -/
def readPkt (cap : Nat) (stream : List UInt8) : Option (List UInt8 × List UInt8) := readFrom cap .seek stream

/-- The framing for a reader with `cap` bytes, one of them for the NUL, that holds `buf` already. -/
def format (cap : Nat) (buf : List UInt8) : Format UInt8 := ⟨0x24, 0x23, cap - 1 - buf.length, 2⟩

section
variable {cap : Nat} {buf stream : List UInt8}

theorem readFrom_loop : readFrom cap (.loop cap buf) stream =
    if (format cap buf).taken stream + 2 ≤ stream.length then
      some (buf ++ (format cap buf).stored stream, stream.drop ((format cap buf).taken stream + 2))
    else none := by
  induction stream generalizing buf with
  | nil =>
    by_cases within : buf.length + 1 < cap
    · have stuck : ¬ (format cap buf).taken [] + 2 ≤ ([] : List UInt8).length := by simp
      rw [Reading.loop, if_pos within, readFrom, if_neg stuck]
    · have full : (format cap buf).room = 0 := by
        show cap - 1 - buf.length = 0
        omega
      rw [Reading.loop, if_neg within, readFrom, Format.taken_of_no_room full]
      rfl
  | cons c stream ih =>
    by_cases within : buf.length + 1 < cap
    · have space : 0 < (format cap buf).room := by
        show 0 < cap - 1 - buf.length
        omega
      rw [Reading.loop, if_pos within, readFrom, Reading.feed]
      by_cases stop : c = 0x23
      · subst stop
        have taken : (format cap buf).taken (0x23 :: stream) = 1 := Format.taken_cons_stop space
        have stored : (format cap buf).stored (0x23 :: stream) = [] := Format.stored_cons_stop
        rw [if_pos rfl, readFrom, taken, stored, List.append_nil, List.length_cons, Nat.add_comm 1 2,
          List.drop_succ_cons]
        simp only [Nat.add_le_add_iff_right]
      · have less : { format cap buf with room := (format cap buf).room - 1 } = format cap (buf ++ [c]) := by
          simp only [format, List.length_append, List.length_singleton, Nat.sub_add_eq]
        rw [if_neg stop, ih, Format.taken_cons_of_ne stop space, Format.stored_cons_of_ne stop space, less]
        simp only [List.length_cons, Nat.add_right_comm _ 1 2, Nat.add_le_add_iff_right, List.drop_succ_cons,
          List.append_assoc, List.singleton_append]
    · have full : (format cap buf).room = 0 := by
        show cap - 1 - buf.length = 0
        omega
      rw [Reading.loop, if_neg within, readFrom, Format.taken_of_no_room full, Format.stored_of_no_room full,
        List.append_nil]

theorem readPkt_eq : readPkt cap stream = (format cap []).read stream := by
  rw [readPkt]
  induction stream with
  | nil => rfl
  | cons c stream ih =>
    rw [readFrom, Reading.feed]
    by_cases start : c = 0x24
    · subst start
      rw [if_pos rfl, readFrom_loop]
      rfl
    · have skip : (format cap []).start ∉ [c] := by simpa [format] using fun same => start (Eq.symm same)
      rw [if_neg start, ih]
      exact (Format.read_append_of_not_mem skip).symm

end

/-- `read_pkt` applied until it fails. -/
def readPkts (cap : Nat) (stream : List UInt8) : List (List UInt8) :=
  match _done : readPkt cap stream with
  | none => []
  | some (pkt, rest) => pkt :: readPkts cap rest
  termination_by stream.length
  decreasing_by exact (format cap []).read_shorter (readPkt_eq ▸ _done)

theorem readPkts_eq {cap : Nat} (stream : List UInt8) : readPkts cap stream = (format cap []).readAll stream := by
  fun_induction readPkts cap stream with
  | case1 stream ended =>
    rw [readPkt_eq] at ended
    exact (Format.readAll_of_none ended).symm
  | case2 stream pkt rest done ih =>
    rw [readPkt_eq] at done
    rw [Format.readAll_of_some done, ih]

/-- What is read of packets is what was sent, one for one, where it was shorter than `MAX_PACKET`. -/
def ReadBack (payloads : List CString) (pkts : List (List UInt8)) : Prop :=
  List.Forall₂ (fun payload pkt => payload.chars.length < maxPacket → pkt = payload.chars) payloads pkts

/-- No `#` in a payload that fits; in a longer one no `$` behind what the first read takes, which is
up to two bytes behind the first `#` or behind a full buffer. -/
def Clean (payload : CString) : Prop :=
  if payload.chars.length < maxPacket then 0x23 ∉ payload.chars
  else 0x24 ∉ payload.chars.drop (min (payload.chars.idxOf 0x23 + 1) (maxPacket - 1) + 2)

theorem dollar_not_mem_trailer (c : UInt8) : (0x24 : UInt8) ∉ 0x23 :: HexText.pair c := by
  have digit : ∀ n : Fin 16, (0x24 : UInt8) ≠ HexText.digit n := by decide
  simp [HexText.pair, digit]

theorem sendPkt_eq (cap : Nat) (payload : CString) :
    sendPkt payload = (format cap []).frame payload.chars (HexText.pair (checksum payload.chars)) := rfl

theorem readAll_sendPkt (cap : Nat) (payload : CString) :
    ∃ spurious, (format cap []).readAll (sendPkt payload) = (format cap []).stored payload.chars :: spurious ∧
      (spurious = [] ↔ 0x24 ∉ payload.chars.drop (min (payload.chars.idxOf 0x23 + 1) (cap - 1) + 2)) :=
  Format.readAll_frame rfl (dollar_not_mem_trailer _)

theorem readAll_flatMap_sendPkt (cap : Nat) (payloads : List CString) :
    (format cap []).readAll (payloads.flatMap sendPkt) =
      payloads.flatMap fun payload => (format cap []).readAll (sendPkt payload) := by
  induction payloads with
  | nil => exact Format.readAll_of_none rfl
  | cons payload payloads ih =>
    rw [List.flatMap_cons, List.flatMap_cons, ← ih, sendPkt_eq cap payload]
    exact Format.readAll_frame_append rfl (dollar_not_mem_trailer _)

theorem stored_eq_self_iff {payload : List UInt8} (short : payload.length < maxPacket) :
    (format maxPacket []).stored payload = payload ↔ 0x23 ∉ payload := by
  rw [Format.stored_eq_self_iff]
  exact and_iff_left (Nat.le_pred_of_lt short)

/-- Nothing is left behind a payload without a `#` that fits. -/
theorem nothing_behind {payload : List UInt8} (short : payload.length < maxPacket) (none : 0x23 ∉ payload) :
    payload.drop (min (payload.idxOf 0x23 + 1) (maxPacket - 1) + 2) = [] := by
  rw [List.idxOf_of_notMem none, List.drop_eq_nil_iff]
  omega

theorem clean_iff {payload : CString} : Clean payload ↔
    0x24 ∉ payload.chars.drop (min (payload.chars.idxOf 0x23 + 1) (maxPacket - 1) + 2) ∧
      (payload.chars.length < maxPacket → (format maxPacket []).stored payload.chars = payload.chars) := by
  rw [Clean]
  split
  · rename_i short
    rw [stored_eq_self_iff short]
    constructor
    · intro none
      rw [nothing_behind short none]
      exact ⟨List.not_mem_nil, fun _ => none⟩
    · exact fun both => both.2 short
  · rename_i long
    exact (and_iff_left fun short => absurd short long).symm

/-- Each packet is read, whatever is in those before it; it is read as it was sent, and nothing else
with it, exactly if it is clean. -/
theorem readBack_iff {payloads : List CString} :
    ReadBack payloads (readPkts maxPacket (payloads.flatMap sendPkt)) ↔ ∀ payload ∈ payloads, Clean payload := by
  have some : ∀ payload, (format maxPacket []).readAll (sendPkt payload) ≠ [] := by
    intro payload
    obtain ⟨spurious, all, -⟩ := readAll_sendPkt maxPacket payload
    rw [all]
    exact List.cons_ne_nil _ _
  rw [ReadBack, readPkts_eq, readAll_flatMap_sendPkt, forall₂_flatMap_iff some]
  refine forall₂_congr fun payload member => ?_
  obtain ⟨spurious, all, single⟩ := readAll_sendPkt maxPacket payload
  rw [clean_iff, all, ← single]
  constructor
  · rintro ⟨pkt, same, exact⟩
    cases same
    exact ⟨rfl, exact⟩
  · rintro ⟨rfl, exact⟩
    exact ⟨_, rfl, exact⟩

/-- The reply with the path of a cart `/a#b`. -/
theorem not_readBack : ¬ ∀ payloads, ReadBack payloads (readPkts maxPacket (payloads.flatMap sendPkt)) := by
  intro all
  have read := all [cstr "l/a#b"]
  obtain ⟨spurious, pkts, -⟩ := readAll_sendPkt maxPacket (cstr "l/a#b")
  rw [readPkts_eq, List.flatMap_singleton, pkts, ReadBack, List.forall₂_cons] at read
  have none := (stored_eq_self_iff (by decide)).mp (read.1 (by decide))
  exact none (by decide)

end GdbStub
end Blyt
