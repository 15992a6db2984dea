import Blyt.Decimal
import Blyt.TrackedRegions
import Blyt.Lib.SelfDelimiting

/-! What the layout description tells about a registry. -/

namespace Blyt
open SelfDelimiting

theorem CString.ext {a b : CString} (same : a.chars = b.chars) : a = b := by
  cases a
  cases b
  cases same
  rfl

/-- What the description of a region is made of. -/
@[ext] structure RegionShape where
  name : CString
  size : UInt32
  description : List UInt8
  deriving DecidableEq

/-- A region without a `describe` callback has nothing described. -/
def RuntimeTrackedRegion.shape {ι : Type} (r : RuntimeTrackedRegion ι) : RegionShape :=
  ⟨r.name, r.size, r.describe.getD []⟩

namespace RegionShape

/-- No character of the name is a colon, and none of the description is a NUL. -/
def Plain (s : RegionShape) : Prop := 58 ∉ s.name.chars ∧ 0 ∉ s.description

instance (s : RegionShape) : Decidable s.Plain := inferInstanceAs (Decidable (_ ∧ _))

def text (s : RegionShape) : List UInt8 :=
  ascii "REGION:" ++ ((s.name.chars ++ [58]) ++
    (ascii "size=" ++ ((decimal s.size.toNat ++ [58]) ++ (s.description ++ [0]))))

theorem regionText_eq {ι : Type} (r : RuntimeTrackedRegion ι) : regionText r = r.shape.text := by
  have size : ascii ":size=" = 58 :: ascii "size=" := rfl
  rw [regionText, text, RuntimeTrackedRegion.shape, size]
  simp only [List.append_assoc, List.cons_append, List.nil_append]

theorem size_injective (s t : RegionShape) (same : decimal s.size.toNat = decimal t.size.toNat) : s.size = t.size := by
  have small : ∀ v : UInt32, v.toNat < 10 ^ 24 := fun v => Nat.lt_trans v.toNat_lt (by decide)
  exact UInt32.toNat_inj.mp (decimal_injective (small s.size) (small t.size) same)

/-- The parts of a region's text are read one after another: each ends at a character that is not in it. -/
theorem reads_text : Reads Plain text fun s => ((), s.name, (), s.size, s.description) := by
  have name : Reads Plain (fun s : RegionShape => s.name.chars ++ [58]) RegionShape.name :=
     Reads.separated (fun s plain => plain.1) fun s t same => CString.ext same
  have size : Reads Plain (fun s : RegionShape => decimal s.size.toNat ++ [58]) RegionShape.size :=
    Reads.separated (fun s _ colon => absurd (decimal_digits 58 colon).2 (by decide)) size_injective
  have description : Reads Plain (fun s : RegionShape => s.description ++ [0]) RegionShape.description :=
    Reads.separated (fun s plain => plain.2) fun s t same => same
  exact (Reads.fixed _).append (name.append ((Reads.fixed _).append (size.append description)))

theorem shapes_of_text {ss ts : List RegionShape} (left : ∀ s ∈ ss, Plain s) (right : ∀ t ∈ ts, Plain t)
    (same : ss.flatMap text = ts.flatMap text) : ss = ts := by
  have some : ∀ s : RegionShape, s.text ≠ [] := fun s => List.cons_ne_nil _ _
  have keys := reads_text.sequence some left right same
  refine List.map_injective_iff.mpr (fun s t parts => ?_) keys
  simp only [Prod.mk.injEq, true_and] at parts
  exact RegionShape.ext parts.1 parts.2.1 parts.2.2

end RegionShape

/-- What overflowed once stays so. -/
theorem stringSinkPuts_overflowed {s : StringSink} (spilled : s.overflowed = true) (str : List UInt8) :
    (stringSinkPuts s str).overflowed = true := by
  induction str generalizing s with
  | nil => exact spilled
  | cons c str ih =>
    refine ih (s := stringSinkPutc s c) ?_
    rw [stringSinkPutc]
    split
    · rfl
    · exact spilled

theorem stringSinkPuts_whole {s : StringSink} {str : List UInt8} (fits : (stringSinkPuts s str).overflowed = false) :
    (stringSinkPuts s str).buf = s.buf ++ str := by
  induction str generalizing s with
  | nil => exact (List.append_nil _).symm
  | cons c str ih =>
    have rest := ih (s := stringSinkPutc s c) fits
    by_cases full : s.buf.length + 1 > s.cap
    · have spilled : (stringSinkPutc s c).overflowed = true := by rw [stringSinkPutc, if_pos full]
      exact absurd ((stringSinkPuts_overflowed spilled str).symm.trans fits) Bool.noConfusion
    · rw [stringSinkPutc, if_neg full, List.append_assoc] at rest
      rw [← List.singleton_append, ← rest, stringSinkPuts, List.singleton_append, List.foldl_cons, stringSinkPutc,
        if_neg full]
      rfl

namespace Registry
variable {ι κ : Type}

/-- The walk appends `text` to what the sink holds, and nothing of it is cut. -/
def Describes (R : Registry ι) (out : StringSink) (text : List UInt8) : Prop :=
  (runtimeTrackedDescribe R out).overflowed = false ∧ (runtimeTrackedDescribe R out).buf = out.buf ++ text

theorem Describes.text {R : Registry ι} {out : StringSink} {text : List UInt8} (described : R.Describes out text) :
    text = (R.regions.map RuntimeTrackedRegion.shape).flatMap RegionShape.text := by
  obtain ⟨fits, same⟩ := described
  rw [runtimeTrackedDescribe_eq] at fits same
  rw [stringSinkPuts_whole fits] at same
  rw [← List.append_cancel_left same, layoutText, List.flatMap_map]
  exact congrArg (List.flatMap · R.regions) (funext RegionShape.regionText_eq)

/-- Registries that are described by the same text have the same layout. -/
theorem shapes_of_described {R₁ : Registry ι} {R₂ : Registry κ} {out₁ out₂ : StringSink} {text : List UInt8}
    (plain₁ : ∀ r ∈ R₁.regions, r.shape.Plain) (plain₂ : ∀ r ∈ R₂.regions, r.shape.Plain)
    (described₁ : R₁.Describes out₁ text) (described₂ : R₂.Describes out₂ text) :
    R₁.regions.map RuntimeTrackedRegion.shape = R₂.regions.map RuntimeTrackedRegion.shape :=
  RegionShape.shapes_of_text (List.forall_mem_map.mpr plain₁) (List.forall_mem_map.mpr plain₂)
    (described₁.text.symm.trans described₂.text)

/-- The shake and the queue of one process and those of another, whose objects are told apart differently. -/
theorem shapes_of_described_shake_queue :
    [regionScreenShake true, regionVoiceEndQueue false].map RuntimeTrackedRegion.shape =
      [regionScreenShake 7, regionVoiceEndQueue 3].map RuntimeTrackedRegion.shape :=
  @shapes_of_described Bool Nat ⟨[regionScreenShake true, regionVoiceEndQueue false], by decide⟩
    ⟨[regionScreenShake 7, regionVoiceEndQueue 3], by decide⟩ ⟨[], 4096, false⟩ ⟨[], 512, false⟩
    (regionText (regionScreenShake true) ++ regionText (regionVoiceEndQueue false))
    (List.forall_mem_cons.mpr ⟨by decide +kernel, List.forall_mem_singleton.mpr (by decide +kernel)⟩)
    (List.forall_mem_cons.mpr ⟨by decide +kernel, List.forall_mem_singleton.mpr (by decide +kernel)⟩)
    ⟨by decide +kernel, by decide +kernel⟩ ⟨by decide +kernel, by decide +kernel⟩

end Registry
end Blyt
