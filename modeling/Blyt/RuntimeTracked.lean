import Blyt.Lib.Packed
import Mathlib.Data.List.Nodup

namespace Blyt
def ascii (s : String) : List UInt8 := s.toList.map fun c => UInt8.ofNat c.toNat

/-- A NUL-terminated string, without its terminator. -/
structure CString where
  chars : List UInt8
  noNul : 0 ∉ chars
  deriving DecidableEq

def cstr (s : String) (noNul : 0 ∉ ascii s := by decide) : CString := ⟨ascii s, noNul⟩

/-- `str_eq`: advance while both characters are present and equal, then
compare what the two pointers are at. -/
def strEqLoop : List UInt8 → List UInt8 → Bool
  | a :: as, b :: bs => if a = b then strEqLoop as bs else false
  | as, bs => as.headD 0 == bs.headD 0

def strEq (a b : CString) : Bool := strEqLoop a.chars b.chars

theorem strEqLoop_iff {as bs : List UInt8} (left : 0 ∉ as) (right : 0 ∉ bs) :
    strEqLoop as bs = true ↔ as = bs := by
  induction as generalizing bs with
  | nil =>
    cases bs with
    | nil => simp [strEqLoop]
    | cons b bs =>
      rw [List.mem_cons, not_or] at right
      simp [strEqLoop, right.1]
  | cons a as ih =>
    rw [List.mem_cons, not_or] at left
    cases bs with
    | nil => simp [strEqLoop, Ne.symm left.1]
    | cons b bs =>
      rw [List.mem_cons, not_or] at right
      simp [strEqLoop, ih left.2 right.2]

theorem strEq_iff {a b : CString} : strEq a b = true ↔ a = b := by
  rw [strEq, strEqLoop_iff a.noNul b.noNul]
  cases a
  cases b
  simp

/-- `string_sink_t`. The position is the number of characters appended. -/
structure StringSink where
  buf : List UInt8
  cap : Nat
  overflowed : Bool

def stringSinkPutc (s : StringSink) (c : UInt8) : StringSink :=
  if s.buf.length + 1 > s.cap then { s with overflowed := true } else { s with buf := s.buf ++ [c] }

def stringSinkPuts (s : StringSink) (str : List UInt8) : StringSink := str.foldl stringSinkPutc s

/-- The digits `string_sink_putu` collects in `tmp`, lowest first. -/
def decimalTmp : Nat → Nat → List UInt8
  | 0, _ => []
  | fuel + 1, v => if v = 0 then [] else UInt8.ofNat (48 + v % 10) :: decimalTmp fuel (v / 10)

/-- The characters `string_sink_putu` emits; `tmp` holds 24 of them. -/
def decimal (v : Nat) : List UInt8 := if v = 0 then [48] else (decimalTmp 24 v).reverse

def stringSinkPutu (s : StringSink) (v : Nat) : StringSink := stringSinkPuts s (decimal v)

/-- What a sink holds after a text was appended to an empty one: the text cut
at the capacity, with the flag set exactly when something was cut. -/
theorem stringSinkPuts_spec (s : StringSink) (str : List UInt8) (within : s.buf.length ≤ s.cap) :
    stringSinkPuts s str = { s with
      buf := s.buf ++ str.take (s.cap - s.buf.length)
      overflowed := s.overflowed || decide (s.cap < s.buf.length + str.length) } := by
  induction str generalizing s with
  | nil => simp [stringSinkPuts, Nat.not_lt.mpr within]
  | cons c str ih =>
    rw [stringSinkPuts, List.foldl_cons, ← stringSinkPuts]
    by_cases full : s.buf.length + 1 > s.cap
    · have none : s.cap - s.buf.length = 0 := by omega
      have excess : s.cap < s.buf.length + (str.length + 1) := by omega
      rw [stringSinkPutc, if_pos full, ih ⟨s.buf, s.cap, true⟩ within]
      simp [none, excess]
    · have some : s.cap - s.buf.length = (s.cap - (s.buf.length + 1)) + 1 := by omega
      have length : (s.buf ++ [c]).length = s.buf.length + 1 := List.length_append
      have same : s.buf.length + 1 + str.length = s.buf.length + (c :: str).length := by
        simp only [List.length_cons]; omega
      rw [stringSinkPutc, if_neg full, ih ⟨s.buf ++ [c], s.cap, s.overflowed⟩ (by simp only [length]; omega)]
      simp only [length, same, some, List.take_succ_cons, List.append_assoc, List.singleton_append]

/-- `runtime_tracked_region_t`, together with the static object `storage` its
callbacks copy from and to. `describe` is the text the callback appends, absent
for a NULL callback. `save` is handed the object and gives the bytes written at
`dst` and the object as canonicalized in place; `load` is handed `src[0..n)` and
the object. -/
structure RuntimeTrackedRegion (ι : Type) where
  name : CString
  size : UInt32
  describe : Option (List UInt8)
  storage : ι
  save : List UInt8 → List UInt8 × List UInt8
  load : List UInt8 → List UInt8 → Bool × List UInt8
  save_length : ∀ cell, (save cell).1.length = size.toNat

/-- `runtime_tracked_regions`. Each region's bytes live in a static object of
its own translation unit, so no two entries share one. -/
structure Registry (ι : Type) where
  regions : List (RuntimeTrackedRegion ι)
  distinct : (regions.map RuntimeTrackedRegion.storage).Nodup

variable {ι : Type}

def regionDescribe (out : StringSink) (r : RuntimeTrackedRegion ι) : StringSink :=
  let out := stringSinkPuts out (ascii "REGION:")
  let out := stringSinkPuts out r.name.chars
  let out := stringSinkPuts out (ascii ":size=")
  let out := stringSinkPutu out r.size.toNat
  let out := stringSinkPutc out 58
  let out := match r.describe with
    | some text => stringSinkPuts out text
    | none => out
  stringSinkPutc out 0

def runtimeTrackedDescribe (R : Registry ι) (out : StringSink) : StringSink :=
  R.regions.foldl regionDescribe out

/-- The sum of the sizes in `uint32_t`. -/
def runtimeTrackedTotalSize (R : Registry ι) : UInt32 :=
  R.regions.foldl (fun total r => total + r.size) 0

/-- The text a region contributes to the layout description. -/
def regionText (r : RuntimeTrackedRegion ι) : List UInt8 :=
  ascii "REGION:" ++ r.name.chars ++ ascii ":size=" ++ decimal r.size.toNat ++ [58] ++
    r.describe.getD [] ++ [0]

def layoutText (R : Registry ι) : List UInt8 := R.regions.flatMap regionText

/-- The bytes the regions take in a save, without wrapping. -/
def bodySize (regions : List (RuntimeTrackedRegion ι)) : Nat := (regions.map fun r => r.size.toNat).sum

@[simp] theorem bodySize_nil : bodySize ([] : List (RuntimeTrackedRegion ι)) = 0 := rfl

@[simp] theorem bodySize_cons (r : RuntimeTrackedRegion ι) (rs : List (RuntimeTrackedRegion ι)) :
    bodySize (r :: rs) = r.size.toNat + bodySize rs := rfl

theorem stringSinkPuts_append (s : StringSink) (as bs : List UInt8) :
    stringSinkPuts (stringSinkPuts s as) bs = stringSinkPuts s (as ++ bs) :=
  (List.foldl_append ..).symm

theorem regionDescribe_eq (out : StringSink) (r : RuntimeTrackedRegion ι) :
    regionDescribe out r = stringSinkPuts out (regionText r) := by
  have colon : ∀ s : StringSink, stringSinkPutc s 58 = stringSinkPuts s [58] := fun _ => rfl
  have nul : ∀ s : StringSink, stringSinkPutc s 0 = stringSinkPuts s [0] := fun _ => rfl
  unfold regionDescribe regionText stringSinkPutu
  cases r.describe with
  | none => simp only [colon, nul, stringSinkPuts_append, Option.getD_none, List.append_nil]
  | some text => simp only [colon, nul, stringSinkPuts_append, Option.getD_some]

/-- The walker appends the regions' texts one after another. -/
theorem runtimeTrackedDescribe_eq (R : Registry ι) (out : StringSink) :
    runtimeTrackedDescribe R out = stringSinkPuts out (layoutText R) := by
  unfold runtimeTrackedDescribe layoutText
  induction R.regions generalizing out with
  | nil => rfl
  | cons r rs ih =>
    rw [List.foldl_cons, ih, regionDescribe_eq, stringSinkPuts_append, List.flatMap_cons]

theorem runtimeTrackedTotalSize_toNat (R : Registry ι) :
    (runtimeTrackedTotalSize R).toNat = bodySize R.regions % 2 ^ 32 := by
  have sum : ∀ (rs : List (RuntimeTrackedRegion ι)) (total : UInt32),
      (rs.foldl (fun total r => total + r.size) total).toNat = (total.toNat + bodySize rs) % 2 ^ 32 := by
    intro rs
    induction rs with
    | nil => intro total; simp [Nat.mod_eq_of_lt total.toNat_lt]
    | cons r rs ih =>
      intro total
      rw [List.foldl_cons, ih, UInt32.toNat_add, bodySize_cons]
      omega
  simpa [runtimeTrackedTotalSize] using sum R.regions 0

theorem regionText_length (r : RuntimeTrackedRegion ι) : 16 ≤ (regionText r).length := by
  have opening : (ascii "REGION:").length = 7 := by decide
  have size : (ascii ":size=").length = 6 := by decide
  have digits : 1 ≤ (decimal r.size.toNat).length := by
    unfold decimal
    split
    · exact le_rfl
    · rename_i positive
      simp [decimalTmp, positive]
  simp only [regionText, List.length_append, opening, size, List.length_singleton]
  omega

theorem layoutText_length (R : Registry ι) : 16 * R.regions.length ≤ (layoutText R).length := by
  unfold layoutText
  induction R.regions with
  | nil => exact le_rfl
  | cons r rs ih =>
    have now := regionText_length r
    rw [List.flatMap_cons, List.length_append, List.length_cons]
    omega

end Blyt
