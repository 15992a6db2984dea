import Blyt.GdbStub

namespace Blyt
namespace GdbStub
open HexText
variable {σ : Type} {malloc : Nat → Bool}

/-- The two objects that can be read. -/
inductive XferObject where
  | libraries
  | execFile
  deriving DecidableEq, Repr

namespace XferObject

/-- What the client is to get: the document, or the path. -/
def text (layout : FcGdbLayout) : XferObject → List UInt8
  | libraries => librariesText layout ++ listEnd
  | execFile => match layout.execPath with
    | some path => path.chars
    | none => []

def query : XferObject → List UInt8
  | libraries => ascii "qXfer:libraries-svr4:read:"
  | execFile => ascii "qXfer:exec-file:read:"

/-- The document fits `xml` with its NUL; offsets in the path are 32 bits wide. -/
def Fits (layout : FcGdbLayout) : XferObject → Prop
  | libraries => (librariesText layout ++ listEnd).length < xmlCap
  | execFile => (text layout execFile).length < 2 ^ 32

end XferObject

/-- What stands in front of the colon of a read. -/
structure Annex where
  chars : List UInt8
  noNul : 0 ∉ chars
  noColon : 0x3a ∉ chars

/-- `annex:offset,length`. -/
def readArgs (annex : Annex) (off len : Nat) : List UInt8 :=
  annex.chars ++ 0x3a :: (number off ++ 0x2c :: number len)

def xferPkt (object : XferObject) (annex : Annex) (off len : Nat) : CString :=
  cString (object.query ++ readArgs annex off len)

/-- A client: the replies with data so far, each with the length it was asked with, and whether the last was an `l`. -/
structure XferClient where
  replies : List (Nat × List UInt8)
  done : Bool

namespace XferClient

def start : XferClient := ⟨[], false⟩

def received (c : XferClient) : List UInt8 := c.replies.flatMap Prod.snd

/-- A reply to a read of so many bytes; an error carries no data. -/
def take (c : XferClient) (len : Nat) : List UInt8 → XferClient
  | 0x6c :: data => ⟨c.replies ++ [(len, data)], true⟩
  | 0x6d :: data => ⟨c.replies ++ [(len, data)], false⟩
  | _ => c

/-- The next read, behind what was received. -/
def read (malloc : Nat → Bool) (g : GdbState σ) (object : XferObject) (annex : Annex) (c : XferClient) (len : Nat) :
    Exec XferClient :=
  if c.done then .returns c
  else do
    let (reply, _) ← handlePacket malloc g (xferPkt object annex c.received.length len)
    return c.take len reply.chars

end XferClient

/-- Whatever lengths a client asks for: every read is answered inside the buffers with no more than it asked for, the
replies up to an `l` are the whole object, and reads that fit a packet come to an `l`. -/
structure Transfers (malloc : Nat → Bool) (g : GdbState σ) (object : XferObject) (annex : Annex) : Prop where
  returns : ∀ lens, ∃ c, Exec.run (XferClient.read malloc g object annex) .start lens = .returns c
  inside : ∀ off len out g', handle malloc g (dispatch (xferPkt object annex off len).chars) = .returns (out, g') →
    out.length < maxPacket
  bounded : ∀ lens c, Exec.run (XferClient.read malloc g object annex) .start lens = .returns c →
    ∀ reply ∈ c.replies, reply.2.length ≤ reply.1
  whole : ∀ lens c, Exec.run (XferClient.read malloc g object annex) .start lens = .returns c → c.done = true →
    c.replies.flatMap Prod.snd = object.text g.layout
  ends : ∀ lens c, Exec.run (XferClient.read malloc g object annex) .start lens = .returns c →
    (∀ len ∈ lens, 0 < len ∧ len + 2 ≤ maxPacket) → (object.text g.layout).length < lens.length → c.done = true

/-! What the handlers read from the packet. -/

theorem isSpace_digit (d : Fin 16) : isSpace (digit d) = false := by
  revert d
  decide

theorem digit_ne (d : Fin 16) : digit d ≠ 0x2d ∧ digit d ≠ 0x2b ∧ digit d ≠ 0x78 ∧ digit d ≠ 0x58 ∧ digit d ≠ 0 := by
  revert d
  decide

theorem value_comma : value 0x2c = none := by decide

/-- What ends a number: a byte that is no digit, and not the `x` of a prefix. -/
def Stops (rest : List UInt8) : Prop := ∀ c, rest.head? = some c → value c = none ∧ c ≠ 0x78 ∧ c ≠ 0x58

theorem stops_comma {rest : List UInt8} (stops : rest = [] ∨ ∃ more, rest = 0x2c :: more) : Stops rest := by
  intro c head
  rcases stops with rfl | ⟨more, rfl⟩
  · cases head
  · cases head
    exact ⟨value_comma, by decide, by decide⟩

/-- A number goes up to what ends it. -/
theorem takeWhile_number (n : Nat) {rest : List UInt8} (stops : Stops rest) :
    (number n ++ rest).takeWhile (fun c => (value c).isSome) = number n := by
  have digits : ∀ c ∈ number n, (value c).isSome = true := by
    intro c member
    obtain ⟨d, rfl⟩ := digit_of_mem_number member
    rw [value_digit]
    rfl
  have none : rest.takeWhile (fun c => (value c).isSome) = [] := by
    cases rest with
    | nil => rfl
    | cons c more => exact List.takeWhile_cons_of_neg (by rw [(stops c rfl).1]; decide)
  rw [List.takeWhile_append_of_pos digits, none, List.append_nil]

/-- Nothing in it, nor the byte behind it, is the `x` of a prefix. -/
theorem second_ne_x (n : Nat) {rest : List UInt8} (stops : Stops rest) {c x : UInt8} {more : List UInt8}
    (text : number n ++ rest = c :: x :: more) : ¬(x = 0x78 ∨ x = 0x58) := by
  intro either
  have second : x ∈ number n ∨ x ∈ rest.take 1 := by
    obtain ⟨d, digits, first⟩ := List.exists_cons_of_ne_nil (number_ne_nil n)
    rw [first, List.cons_append] at text
    obtain ⟨-, tail⟩ := List.cons.inj text
    rw [first]
    cases digits with
    | nil =>
      rw [List.nil_append] at tail
      rw [tail]
      exact .inr (List.mem_singleton.mpr rfl)
    | cons y digits =>
      rw [(List.cons.inj tail).1]
      exact .inl (List.mem_cons_of_mem _ List.mem_cons_self)
  rcases second with inDigits | behind
  · obtain ⟨e, rfl⟩ := digit_of_mem_number inDigits
    obtain ⟨-, -, small, large, -⟩ := digit_ne e
    exact either.elim small large
  · cases rest with
    | nil => exact absurd behind List.not_mem_nil
    | cons y more =>
      rw [List.mem_singleton.mp behind] at either
      obtain ⟨-, small, large⟩ := stops y rfl
      exact either.elim small large

theorem strtoul16_upTo (n : Nat) {rest : List UInt8} (stops : Stops rest) :
    strtoul16 (number n ++ rest) = (min n (2 ^ 64 - 1), rest) := by
  obtain ⟨c, more, first⟩ := List.exists_cons_of_ne_nil (number_ne_nil n)
  obtain ⟨d, rfl⟩ := digit_of_mem_number (n := n) (c := c) (by rw [first]; exact List.mem_cons_self)
  obtain ⟨minus, plus, -, -, -⟩ := digit_ne d
  have front : (number n ++ rest).dropWhile isSpace = number n ++ rest := by
    rw [first, List.cons_append, List.dropWhile_cons, isSpace_digit]
    rfl
  have head : (number n ++ rest).head? = some (digit d) := by
    rw [first]
    rfl
  have noMinus : ¬ (number n ++ rest).head? = some 0x2d := by
    rw [head]
    exact fun same => minus (Option.some.inj same)
  have noSign : ¬ ((number n ++ rest).head? = some 0x2d ∨ (number n ++ rest).head? = some 0x2b) := by
    rw [head]
    rintro (same | same)
    · exact minus (Option.some.inj same)
    · exact plus (Option.some.inj same)
  have whole : (number n ++ rest).drop (number n).length = rest := List.drop_left
  rw [strtoul16]
  simp only [front, if_neg noSign]
  split
  case' h_1 x e others text => simp only [second_ne_x n stops text, false_and, if_false]
  all_goals
    rw [takeWhile_number n stops, if_neg (number_ne_nil n), if_neg noMinus, whole, hexValue, foldl_number]
    split
    · rw [Nat.min_eq_right (by omega)]
    · rw [Nat.min_eq_left (by omega)]

theorem strtoul16_number (n : Nat) (rest : List UInt8) (stops : rest = [] ∨ ∃ more, rest = 0x2c :: more) :
    strtoul16 (number n ++ rest) = (min n (2 ^ 64 - 1), rest) := strtoul16_upTo n (stops_comma stops)

theorem xferArgs_readArgs (annex : Annex) (off len : Nat) : xferArgs (readArgs annex off len) =
    some (UInt32.ofNat (min off (2 ^ 64 - 1)), UInt32.ofNat (min len (2 ^ 64 - 1))) := by
  have skipped : (readArgs annex off len).dropWhile (· ≠ 0x3a) = 0x3a :: (number off ++ 0x2c :: number len) := by
    have front : ∀ c ∈ annex.chars, decide (c ≠ 0x3a) = true := by
      intro c member
      rw [decide_eq_true_iff]
      exact fun same => annex.noColon (same ▸ member)
    rw [readArgs, List.dropWhile_append_of_pos front]
    rfl
  have last := strtoul16_number len [] (.inl rfl)
  rw [List.append_nil] at last
  rw [xferArgs, skipped]
  simp only [strtoul16_number off (0x2c :: number len) (.inr ⟨_, rfl⟩), List.head?_cons, if_true, List.tail_cons, last]

theorem cString_chars {bytes : List UInt8} (noNul : 0 ∉ bytes) : (cString bytes).chars = bytes :=
  List.takeWhile_eq_self_iff.mpr fun c member => by
    rw [decide_eq_true_iff]
    exact fun same => noNul (same ▸ member)

theorem cString_stop {front : List UInt8} (noNul : 0 ∉ front) (rest : List UInt8) :
    (cString (front ++ 0 :: rest)).chars = front := by
  have before : ∀ c ∈ front, decide (c ≠ 0) = true := by
    intro c member
    rw [decide_eq_true_iff]
    exact fun same => noNul (same ▸ member)
  show (front ++ 0 :: rest).takeWhile (· ≠ 0) = front
  rw [List.takeWhile_append_of_pos before]
  exact List.append_nil _

theorem number_noNul (n : Nat) : 0 ∉ number n := by
  intro member
  obtain ⟨d, same⟩ := digit_of_mem_number member
  exact (digit_ne d).2.2.2.2 same.symm

theorem xferPkt_chars (object : XferObject) (annex : Annex) (off len : Nat) :
    (xferPkt object annex off len).chars = object.query ++ readArgs annex off len := by
  refine cString_chars ?_
  have query : 0 ∉ object.query := by
    cases object <;> decide
  rw [readArgs]
  simp only [List.mem_append, List.mem_cons, not_or]
  exact ⟨query, annex.noNul, by decide, number_noNul off, by decide, number_noNul len⟩

/-- What the packet is taken for. -/
def XferObject.request (args : List UInt8) : XferObject → Request
  | libraries => .qXferLibraries args
  | execFile => .qXferExecFile args

theorem dispatch_xferPkt (object : XferObject) (annex : Annex) (off len : Nat) :
    dispatch (xferPkt object annex off len).chars = object.request (readArgs annex off len) := by
  rw [xferPkt_chars]
  cases object with
  | libraries => rfl
  | execFile => rfl

/-! The objects. -/

theorem hexText_noNul (n : UInt32) : 0 ∉ hexText n := by
  have digit : ∀ d < 16, (Nat.digitChar d).toNat ≠ 0 ∧ (Nat.digitChar d).toNat < 256 := by decide
  have all : ∀ k, ∀ c ∈ Nat.toDigits 16 k, c.toNat ≠ 0 ∧ c.toNat < 256 := by
    intro k
    induction k using Nat.strongRecOn with
    | _ k ih =>
      intro c member
      rw [Nat.toDigits_eq_if (by decide)] at member
      split at member
      · rename_i small
        rw [List.mem_singleton.mp member]
        exact digit k small
      · rcases List.mem_append.mp member with front | last
        · exact ih (k / 16) (Nat.div_lt_self (by omega) (by decide)) c front
        · rw [List.mem_singleton.mp last]
          exact digit _ (Nat.mod_lt _ (by decide))
  intro member
  obtain ⟨c, here, same⟩ := List.mem_map.mp member
  obtain ⟨nonzero, byte⟩ := all n.toNat c here
  have value := congrArg UInt8.toNat same
  rw [UInt8.toNat_ofNat', Nat.mod_eq_of_lt byte] at value
  exact nonzero value

theorem libraryXml_noNul (lib : FcGdbLibrary) : 0 ∉ libraryXml lib := by
  rw [libraryXml]
  simp only [List.mem_append, not_or]
  refine ⟨⟨⟨⟨⟨⟨⟨⟨by decide, lib.path.noNul⟩, by decide⟩, hexText_noNul _⟩, by decide⟩, hexText_noNul _⟩, by decide⟩,
    hexText_noNul _⟩, by decide⟩

theorem XferObject.text_noNul (layout : FcGdbLayout) (object : XferObject) : 0 ∉ object.text layout := by
  cases object with
  | libraries =>
    rw [text, librariesText]
    simp only [List.mem_append, List.mem_flatMap, not_or]
    refine ⟨⟨by decide, ?_⟩, by decide⟩
    rintro ⟨lib, -, member⟩
    exact libraryXml_noNul lib member
  | execFile =>
    rw [text]
    split
    · rename_i path _
      exact path.noNul
    · exact List.not_mem_nil

theorem handle_fitting {g : GdbState σ} {object : XferObject} (fits : object.Fits g.layout) (annex : Annex)
    (off len : Nat) : handle malloc g (object.request (readArgs annex off len)) =
      (·, g) <$> xferReply (object.text g.layout) (object.text g.layout).length (UInt32.ofNat (min off (2 ^ 64 - 1)))
        (UInt32.ofNat (min len (2 ^ 64 - 1))) := by
  cases object with
  | execFile =>
    show (·, g) <$> handleQXferExecFile g.layout (readArgs annex off len) = _
    rw [handleQXferExecFile, xferArgs_readArgs]
    rfl
  | libraries =>
    have short : (librariesText g.layout ++ listEnd).length < xmlCap := fits
    have front : (librariesText g.layout).length ≤ xmlCap := by
      rw [List.length_append] at short
      omega
    show (·, g) <$> handleQXferLibraries g.layout (readArgs annex off len) = _
    rw [handleQXferLibraries, xferArgs_readArgs]
    simp only
    rw [printLibraries_eq, if_pos front, Exec.returns_bind, xmlBuffer, if_pos short]
    rfl

theorem XferObject.Fits.small {layout : FcGdbLayout} {object : XferObject} (fits : object.Fits layout) :
    (object.text layout).length < 2 ^ 32 := by
  cases object with
  | execFile => exact fits
  | libraries => exact Nat.lt_trans fits (by decide)

/-- The reply is the window asked for, unless the window does not fit a packet. -/
theorem xferReply_window {object : List UInt8} {off : Nat} (small : object.length < 2 ^ 32) (within : off ≤ object.length)
    (len : UInt32) : ∃ out, xferReply object object.length (UInt32.ofNat off) len = .returns out ∧
      (out = ascii "E02" ∧ maxPacket < len.toNat + 2 ∨ out =
        (if object.length ≤ off + ((object.drop off).take len.toNat).length then 0x6c else 0x6d) ::
          (object.drop off).take len.toNat) := by
  have offset : (UInt32.ofNat off).toNat = off := by
    rw [UInt32.toNat_ofNat', Nat.mod_eq_of_lt (by omega)]
  rw [xferReply, offset]
  by_cases behind : off ≥ object.length
  · refine ⟨_, if_pos behind, .inr ?_⟩
    rw [List.drop_eq_nil_of_le behind, List.take_nil, if_pos (by rwa [List.length_nil])]
    rfl
  · have window := @xferLen_toNat object.length (UInt32.ofNat off) len small (by omega)
    rw [offset] at window
    rw [if_neg behind]
    by_cases beyond : maxPacket < (xferLen object.length (UInt32.ofNat off) len).toNat + 2
    · exact ⟨_, if_pos beyond, .inl ⟨rfl, by omega⟩⟩
    · have sum : (UInt32.ofNat off + xferLen object.length (UInt32.ofNat off) len).toNat =
          off + (xferLen object.length (UInt32.ofNat off) len).toNat := by
        rw [UInt32.toNat_add, offset, Nat.mod_eq_of_lt (by omega)]
      have cut : (object.drop off).take (xferLen object.length (UInt32.ofNat off) len).toNat =
          (object.drop off).take len.toNat := by
        rw [List.take_eq_take_iff, List.length_drop]
        omega
      have length : ((object.drop off).take len.toNat).length = (xferLen object.length (UInt32.ofNat off) len).toNat := by
        rw [List.length_take, List.length_drop]
        omega
      refine ⟨_, (if_neg beyond).trans (if_neg (by omega)), .inr ?_⟩
      rw [sum, cut, length]

section
variable {g : GdbState σ} {object : XferObject} {annex : Annex} {c c' : XferClient}

/-- What was received is the front of the object, in replies no longer than was asked. -/
structure XferClient.Receives (text : List UInt8) (c : XferClient) : Prop where
  front : c.received = text.take c.received.length
  bounded : ∀ reply ∈ c.replies, reply.2.length ≤ reply.1
  whole : c.done = true → c.received = text

/-- The length that the handler reads. -/
def askedLen (len : Nat) : UInt32 := UInt32.ofNat (min len (2 ^ 64 - 1))

theorem askedLen_le (len : Nat) : (askedLen len).toNat ≤ len := by
  rw [askedLen, UInt32.toNat_ofNat']
  exact (Nat.mod_le _ _).trans (Nat.min_le_left _ _)

theorem askedLen_small {len : Nat} (small : len < 2 ^ 32) : (askedLen len).toNat = len := by
  rw [askedLen, UInt32.toNat_ofNat', Nat.min_eq_left (by omega), Nat.mod_eq_of_lt small]

variable (malloc annex) in
theorem XferClient.read_window (fits : object.Fits g.layout) (open_ : c.done = false)
    (within : c.received.length ≤ (object.text g.layout).length) (len : Nat) :
    c.read malloc g object annex len = .returns c ∧ maxPacket < (askedLen len).toNat + 2 ∨
      c.read malloc g object annex len = .returns
        ⟨c.replies ++ [(len, ((object.text g.layout).drop c.received.length).take (askedLen len).toNat)],
          decide ((object.text g.layout).length ≤
            c.received.length + (((object.text g.layout).drop c.received.length).take (askedLen len).toNat).length)⟩ := by
  have small := fits.small
  obtain ⟨out, replied, what⟩ := xferReply_window small within (askedLen len)
  have handled : handlePacket malloc g (xferPkt object annex c.received.length len) = .returns (cString out, g) := by
    rw [handlePacket, dispatch_xferPkt, handle_fitting fits, Nat.min_eq_left (by omega), ← askedLen, replied]
    rfl
  have noNul : 0 ∉ ((object.text g.layout).drop c.received.length).take (askedLen len).toNat := fun member =>
    object.text_noNul g.layout (List.mem_of_mem_drop (List.mem_of_mem_take member))
  rw [read, open_, handled]
  rcases what with ⟨rfl, large⟩ | rfl
  · exact .inl ⟨rfl, large⟩
  · refine .inr ?_
    show Exec.returns (c.take len (cString _).chars) = _
    split
    · rename_i ends
      rw [cString_chars (by simpa using noNul), decide_eq_true ends]
      rfl
    · rename_i more
      rw [cString_chars (by simpa using noNul), decide_eq_false more]
      rfl

theorem XferClient.Receives.start (text : List UInt8) : Receives text .start :=
  ⟨List.take_zero.symm, fun _ member => absurd member List.not_mem_nil, fun done => absurd done Bool.false_ne_true⟩

theorem XferClient.Receives.within {text : List UInt8} (receives : Receives text c) :
    c.received.length ≤ text.length := by
  have length := congrArg List.length receives.front
  rw [List.length_take] at length
  omega

theorem XferClient.received_snoc (c : XferClient) (reply : Nat × List UInt8) (done : Bool) :
    received ⟨c.replies ++ [reply], done⟩ = c.received ++ reply.2 := by
  rw [received, List.flatMap_append, List.flatMap_singleton]
  rfl

/-- Behind an `l` the client reads nothing more. -/
theorem XferClient.run_done (done : c.done = true) (lens : List Nat) :
    Exec.run (XferClient.read malloc g object annex) c lens = .returns c := by
  induction lens with
  | nil => rfl
  | cons len lens ih =>
    rw [Exec.run, XferClient.read, done]
    exact ih

theorem XferClient.Receives.snoc {text : List UInt8} (receives : Receives text c) (len : Nat) :
    Receives text ⟨c.replies ++ [(len, (text.drop c.received.length).take (askedLen len).toNat)],
      decide (text.length ≤ c.received.length + ((text.drop c.received.length).take (askedLen len).toNat).length)⟩ := by
  have grown := c.received_snoc (len, (text.drop c.received.length).take (askedLen len).toNat)
  have front : c.received ++ (text.drop c.received.length).take (askedLen len).toNat =
      text.take (c.received.length + (askedLen len).toNat) := by
    rw [List.take_add, ← receives.front]
  constructor
  · rw [grown, front, List.length_take, List.take_eq_take_iff]
    omega
  · intro reply member
    rcases List.mem_append.mp member with old | new
    · exact receives.bounded reply old
    · rw [List.mem_singleton.mp new]
      exact (List.length_take_le _ _).trans (askedLen_le len)
  · intro done
    have end_ := of_decide_eq_true done
    rw [grown, front]
    rw [List.length_take, List.length_drop] at end_
    exact List.take_of_length_le (by omega)

variable (malloc annex) in
theorem XferClient.Receives.read (fits : object.Fits g.layout) (receives : Receives (object.text g.layout) c)
    (len : Nat) : ∃ c', c.read malloc g object annex len = .returns c' ∧ Receives (object.text g.layout) c' ∧
      (0 < len → len + 2 ≤ maxPacket → c'.done = true ∨ c.received.length < c'.received.length) := by
  cases open_ : c.done with
  | true => exact ⟨c, by rw [XferClient.read, open_]; rfl, receives, fun _ _ => .inl open_⟩
  | false =>
    rcases read_window malloc annex fits open_ receives.within len with ⟨ran, large⟩ | ran
    · refine ⟨c, ran, receives, fun _ short => ?_⟩
      have asked := askedLen_le len
      omega
    · refine ⟨_, ran, receives.snoc len, fun positive short => ?_⟩
      have asked := askedLen_small (Nat.lt_of_le_of_lt (Nat.le_of_add_right_le short) (by decide))
      by_cases behind : (object.text g.layout).length ≤ c.received.length
      · exact .inl (decide_eq_true (by omega))
      · refine .inr ?_
        rw [c.received_snoc, List.length_append, asked, List.length_take, List.length_drop]
        omega

variable (malloc annex) in
theorem XferClient.Receives.run (fits : object.Fits g.layout) (receives : Receives (object.text g.layout) c)
    (lens : List Nat) : ∃ c', Exec.run (XferClient.read malloc g object annex) c lens = .returns c' ∧
      Receives (object.text g.layout) c' ∧ ((∀ len ∈ lens, 0 < len ∧ len + 2 ≤ maxPacket) →
        c'.done = true ∨ c.received.length + lens.length ≤ c'.received.length) := by
  induction lens generalizing c with
  | nil => exact ⟨c, rfl, receives, fun _ => .inr (le_refl _)⟩
  | cons len lens ih =>
    obtain ⟨c₁, stepped, receives₁, more⟩ := receives.read malloc annex fits len
    obtain ⟨c', ran, receives', ends⟩ := ih receives₁
    refine ⟨c', ?_, receives', fun lengths => ?_⟩
    · rw [Exec.run, stepped]
      exact ran
    · obtain ⟨⟨positive, short⟩, others⟩ := List.forall_mem_cons.mp lengths
      rcases more positive short with done | grown
      · rw [XferClient.run_done done] at ran
        cases ran
        exact .inl done
      · rw [List.length_cons]
        exact (ends others).imp_right fun length => by omega

theorem transfers_of_fits (fits : object.Fits g.layout) : Transfers malloc g object annex := by
  have run := (XferClient.Receives.start (object.text g.layout)).run malloc annex fits
  refine ⟨fun lens => ?_, fun off len out g' done => (handle_spec done).short, fun lens c ran => ?_,
    fun lens c ran done => ?_, fun lens c ran lengths long => ?_⟩
  · obtain ⟨c, ran, -⟩ := run lens
    exact ⟨c, ran⟩
  · obtain ⟨c', ran', receives, -⟩ := run lens
    cases ran.symm.trans ran'
    exact receives.bounded
  · obtain ⟨c', ran', receives, -⟩ := run lens
    cases ran.symm.trans ran'
    exact receives.whole done
  · obtain ⟨c', ran', receives, ends⟩ := run lens
    cases ran.symm.trans ran'
    refine (ends lengths).resolve_right fun length => ?_
    have within := receives.within
    omega

/-- One read of a fresh client, looked at from its result. -/
theorem XferClient.read_returns {len : Nat}
    (ran : Exec.run (XferClient.read malloc g object annex) .start [len] = .returns c) :
    ∃ out g', handle malloc g (object.request (readArgs annex 0 len)) = .returns (out, g') ∧
      c = XferClient.start.take len (cString out).chars := by
  obtain ⟨c', stepped, same⟩ := Exec.bind_eq_returns.mp ran
  cases same
  obtain ⟨⟨reply, g'⟩, handled, same⟩ := Exec.bind_eq_returns.mp stepped
  cases same
  obtain ⟨⟨out, g''⟩, handled, same⟩ := Exec.bind_eq_returns.mp handled
  cases same
  rw [dispatch_xferPkt] at handled
  exact ⟨out, _, handled, rfl⟩

theorem askedLen_zero : askedLen 0 = 0 := by decide

/-- A document of as many bytes as `xml` loses its last byte to the NUL. -/
theorem xferReply_cut {text : List UInt8} (full : text.length = xmlCap) {len : UInt32} (all : len.toNat = xmlCap) :
    xferReply (xmlBuffer text) text.length 0 len = .returns (0x6c :: (text.take (xmlCap - 1) ++ [0])) := by
  have positive : 0 < xmlCap := by decide
  have zero : (0 : UInt32).toNat = 0 := rfl
  have packet : xmlCap + 2 ≤ maxPacket := by decide
  have size : text.length < 2 ^ 32 := by
    rw [full]
    decide
  have window := @xferLen_toNat text.length 0 len size (by rwa [zero, full])
  rw [zero, full, all, Nat.zero_add, Nat.zero_add, Nat.min_self] at window
  have buffer : xmlBuffer text = text.take (xmlCap - 1) ++ [0] := by
    rw [xmlBuffer, if_neg (by omega)]
  have cut : (text.take (xmlCap - 1) ++ [0]).length = xmlCap := by
    rw [← buffer, xmlBuffer_length, full, Nat.min_self]
  rw [xferReply, buffer, full, window, UInt32.zero_add, window, cut, zero, if_neg (by omega), if_neg (by omega),
    if_neg (by omega), if_pos (le_refl _), List.drop_zero, List.take_of_length_le (by omega)]

/-- A read of a document that just fills `xml` is answered without its last byte, as if that were its end. -/
theorem handle_full_libraries (full : (librariesText g.layout ++ listEnd).length = xmlCap) :
    handle malloc g (.qXferLibraries (readArgs annex 0 (librariesText g.layout ++ listEnd).length)) =
      .returns (0x6c :: ((librariesText g.layout ++ listEnd).take (xmlCap - 1) ++ [0]), g) := by
  have front : (librariesText g.layout).length ≤ xmlCap := by
    rw [← full, List.length_append]
    exact Nat.le_add_right _ _
  have asked : (askedLen (librariesText g.layout ++ listEnd).length).toNat = xmlCap := by
    rw [full]
    exact askedLen_small (by decide)
  show (·, g) <$> handleQXferLibraries g.layout _ = _
  rw [handleQXferLibraries, xferArgs_readArgs]
  simp only
  rw [printLibraries_eq, if_pos front, Exec.returns_bind, ← askedLen, ← askedLen, askedLen_zero, xferReply_cut full asked]
  rfl

/-- A client reads the reply up to its NUL. -/
theorem chars_of_last {data : List UInt8} (noNul : 0 ∉ data) :
    (cString (0x6c :: (data ++ [0]))).chars = 0x6c :: data := by
  have noNul' : 0 ∉ 0x6c :: data := by
    rw [List.mem_cons, not_or]
    exact ⟨by decide, noNul⟩
  exact cString_stop noNul' []

theorem XferObject.libraries_fits (transfers : Transfers malloc g .libraries annex) :
    XferObject.Fits g.layout .libraries := by
  by_contra long
  have long : xmlCap ≤ (librariesText g.layout ++ listEnd).length := Nat.not_lt.mp long
  obtain ⟨c, ran⟩ := transfers.returns [(librariesText g.layout ++ listEnd).length]
  obtain ⟨out, g', handled, same⟩ := XferClient.read_returns ran
  have fits := (handle_returns_iff malloc).mp ⟨_, handled⟩ _ rfl
  rw [ListFits, xferArgs_readArgs] at fits
  obtain ⟨front, window⟩ := fits
  -- the document is no longer than `xml`, or it would be read behind the end
  have full : (librariesText g.layout ++ listEnd).length = xmlCap := by
    have ending : listEnd.length = 20 := by decide
    have cap : xmlCap = 4096 := rfl
    have zero : (0 : UInt32).toNat = 0 := rfl
    have small : (librariesText g.layout ++ listEnd).length < 2 ^ 32 := by
      rw [List.length_append]
      omega
    have window := window (Nat.lt_of_lt_of_le (by decide) long)
    rw [← askedLen, ← askedLen, askedLen_zero, askedLen_small small] at window
    omega
  cases (handle_full_libraries full).symm.trans handled
  have noNul : 0 ∉ (librariesText g.layout ++ listEnd).take (xmlCap - 1) := fun member =>
    XferObject.libraries.text_noNul g.layout (List.mem_of_mem_take member)
  rw [chars_of_last noNul] at same
  subst same
  have whole := transfers.whole _ _ ran rfl
  have length := congrArg List.length whole
  have cut : ((librariesText g.layout ++ listEnd).take (xmlCap - 1)).length = xmlCap - 1 := by
    rw [List.length_take, full]
    decide
  have text : XferObject.text g.layout .libraries = librariesText g.layout ++ listEnd := rfl
  rw [text, full] at length
  change (List.flatMap Prod.snd [(_, _)]).length = _ at length
  rw [List.flatMap_singleton, cut] at length
  exact absurd length (by decide)

/-- No reply ends the transfer of a path whose end no offset reaches. -/
theorem XferClient.read_long (long : 2 ^ 32 ≤ (XferObject.execFile.text g.layout).length) (open_ : c.done = false)
    {len : Nat} (ran : c.read malloc g .execFile annex len = .returns c') : c'.done = false := by
  rw [XferClient.read, open_] at ran
  obtain ⟨⟨reply, g'⟩, handled, same⟩ := Exec.bind_eq_returns.mp ran
  cases same
  obtain ⟨⟨out, g''⟩, handled, same⟩ := Exec.bind_eq_returns.mp handled
  cases same
  rw [dispatch_xferPkt] at handled
  obtain ⟨out', replied, same⟩ := Exec.map_eq_returns.mp
    (show (·, g) <$> handleQXferExecFile g.layout (readArgs annex c.received.length len) = .returns (out, g') from handled)
  cases same
  rw [handleQXferExecFile, xferArgs_readArgs] at replied
  have replied : xferReply (XferObject.execFile.text g.layout) (XferObject.execFile.text g.layout).length
    (askedLen c.received.length) (askedLen len) = .returns out := replied
  rw [xferReply, if_neg (by have := (askedLen c.received.length).toNat_lt; omega)] at replied
  split at replied
  · cases replied
    exact open_
  · split at replied
    · cases replied
    · rw [if_neg (by have := (askedLen c.received.length +
        xferLen (XferObject.execFile.text g.layout).length (askedLen c.received.length) (askedLen len)).toNat_lt; omega)]
        at replied
      cases replied
      rfl

theorem XferObject.execFile_fits (transfers : Transfers malloc g .execFile annex) :
    XferObject.Fits g.layout .execFile := by
  by_contra long
  obtain ⟨c, ran⟩ := transfers.returns (List.replicate ((XferObject.execFile.text g.layout).length + 1) 1)
  have ended := transfers.ends _ _ ran (fun len member => by
    rw [List.eq_of_mem_replicate member]
    decide) (by rw [List.length_replicate]; exact Nat.lt_succ_self _)
  have stays := Exec.run_keeps (P := fun c => c.done = false)
    (fun c len c' open_ stepped => XferClient.read_long (Nat.not_lt.mp long) open_ stepped) ran rfl
  rw [ended] at stays
  cases stays

/-- Every client gets the whole object exactly if the object fits. -/
theorem transfers_iff (malloc : Nat → Bool) (g : GdbState σ) (object : XferObject) (annex : Annex) :
    Transfers malloc g object annex ↔ object.Fits g.layout := by
  refine ⟨fun transfers => ?_, transfers_of_fits⟩
  cases object with
  | libraries => exact XferObject.libraries_fits transfers
  | execFile => exact XferObject.execFile_fits transfers

end

theorem longPath_noNul : (0 : UInt8) ∉ List.replicate xmlCap 0x61 := fun member =>
  absurd (List.eq_of_mem_replicate member) (by decide)

/-- A stub with one library, whose path alone is as long as `xml`. -/
def longPathStub : GdbState Unit where
  connected := true
  layout := ⟨none, [⟨⟨List.replicate xmlCap 0x61, longPath_noNul⟩, 0, 0⟩]⟩
  ops := ⟨none, none, none, none, none, none, none⟩
  machine := ()
  breaks := ⟨[], Nat.zero_le _⟩
  halted := true
  pendingAction := .continue
  reloadPending := false

def noAnnex : Annex := ⟨[], List.not_mem_nil, List.not_mem_nil⟩

/-- The first read of the list prints behind `xml`. -/
theorem longPath_transfer : Exec.run (XferClient.read (fun _ => true) longPathStub .libraries noAnnex) .start [1] =
    .outOfBounds ∧ ¬ Transfers (fun _ => true) longPathStub .libraries noAnnex := by
  have long : ¬ (librariesText longPathStub.layout).length ≤ xmlCap := by
    have start : 0 < listStart.length := by decide
    show ¬ (listStart ++ (libraryXml _ ++ [])).length ≤ xmlCap
    simp only [libraryXml, List.length_append, List.length_replicate]
    omega
  constructor
  · rw [Exec.run, XferClient.read, handlePacket, dispatch_xferPkt]
    show ((((·, longPathStub) <$> handleQXferLibraries longPathStub.layout _) >>= _) >>= _) >>= _ = _
    rw [handleQXferLibraries, xferArgs_readArgs]
    simp only
    rw [printLibraries_eq, if_neg long]
    rfl
  · intro transfers
    have fits : (librariesText longPathStub.layout ++ listEnd).length < xmlCap := (transfers_iff _ _ _ _).mp transfers
    rw [List.length_append] at fits
    omega

end GdbStub
end Blyt
