import Mathlib.Data.List.Infix
import RustLibp2p.MediaPacket

/-! Which streams of NAL units the viewer takes for a key frame. The scan looks at the header of every
unit but for a last one of a single byte, and reads it both as an H.265 and as an H.264 header. -/

namespace RustLibp2p.Camera
open List

/-- No start code begins in the bytes, whatever follows them. -/
structure Inert (bytes : List UInt8) : Prop where
  free : ¬ [0, 0, 1] <:+: bytes
  last : bytes.getLast? ≠ some 0

structure NalUnit where
  header : UInt8
  payload : List UInt8
  inert : Inert (header :: payload)

namespace NalUnit

section

variable (unit : NalUnit)

def bytes : List UInt8 := unit.header :: unit.payload

def h265Type : UInt8 := (unit.header >>> 1) &&& 0x3F

def h264Type : UInt8 := unit.header &&& 0x1F

/-- The layer of an H.265 unit: the lowest bit of its first byte and the five highest of its second. -/
def layerId : Nat := 32 * (unit.header &&& 1).toNat + (unit.payload.headD 0 >>> 3).toNat

/-- A random access picture of H.265. -/
def Irap : Prop := 16 ≤ unit.h265Type ∧ unit.h265Type ≤ 21

end
end NalUnit

def startCode (long : Bool) : List UInt8 := if long then [0, 0, 0, 1] else [0, 0, 1]

/-- The units, each behind a start code that is long or short. -/
def joined (units : List (Bool × NalUnit)) : List UInt8 :=
  units.flatMap fun (long, unit) => startCode long ++ unit.bytes

/-- The scan looks at the header of the unit: a fifth byte follows, counted from its start code. -/
inductive Scanned (unit : NalUnit) : List (Bool × NalUnit) → Prop
  | here {long : Bool} {rest : List (Bool × NalUnit)} (hmore : long = false → unit.payload ++ joined rest ≠ []) :
      Scanned unit ((long, unit) :: rest)
  | later {first : Bool × NalUnit} {rest : List (Bool × NalUnit)} (hrest : Scanned unit rest) :
      Scanned unit (first :: rest)

variable {bytes : List UInt8} {byte : UInt8} {unit : NalUnit} {units : List (Bool × NalUnit)}

theorem Inert.tail (hi : Inert (byte :: bytes)) : Inert bytes := by
  refine ⟨fun hc => hi.free (hc.trans (suffix_cons byte bytes).isInfix), fun hl => hi.last ?_⟩
  rw [getLast?_cons, hl]
  rfl

theorem Inert.not_code (hi : Inert bytes) (hne : bytes ≠ []) (rest : List UInt8) :
    ¬ [0, 0, 1] <+: bytes ++ rest := by
  intro hc
  rcases bytes with _ | ⟨_, _ | ⟨_, _ | ⟨_, bytes⟩⟩⟩
  · exact hne rfl
  · obtain ⟨rfl, -⟩ := cons_prefix_cons.1 hc
    exact hi.last rfl
  · obtain ⟨-, hc⟩ := cons_prefix_cons.1 hc
    obtain ⟨rfl, -⟩ := cons_prefix_cons.1 hc
    exact hi.last rfl
  · refine hi.free (IsPrefix.isInfix ?_)
    simpa using hc

theorem isNalKeyframe_cons {data : List UInt8} (hs : ¬ [0, 0, 1] <+: byte :: data)
    (hl : byte = 0 → ¬ [0, 0, 1] <+: data) : isNalKeyframe (byte :: data) = isNalKeyframe data := by
  rcases data with _ | ⟨_, _ | ⟨_, _ | ⟨b3, _ | ⟨b4, rest⟩⟩⟩⟩
  · rfl
  · rfl
  · rfl
  · rfl
  rw [isNalKeyframe, if_neg, if_neg]
  · rintro ⟨rfl, rfl, rfl⟩
    exact hs (prefix_append [0, 0, 1] (b3 :: b4 :: rest))
  · rintro ⟨hz, rfl, rfl, rfl⟩
    exact hl hz (prefix_append [0, 0, 1] (b4 :: rest))

theorem isNalKeyframe_append (hi : Inert bytes) (data : List UInt8) :
    isNalKeyframe (bytes ++ data) = isNalKeyframe data := by
  induction bytes with
  | nil => rfl
  | cons byte bytes ih =>
    refine (isNalKeyframe_cons (hi.not_code (cons_ne_nil _ _) data) ?_).trans (ih hi.tail)
    rintro rfl
    cases bytes with
    | nil => exact absurd rfl hi.last
    | cons => exact hi.tail.not_code (cons_ne_nil _ _) data

theorem isNalKeyframe_unit {long : Bool} (data : List UInt8) (hm : long = false → unit.payload ++ data ≠ []) :
    isNalKeyframe (startCode long ++ unit.bytes ++ data) = (isKeyframeNal unit.header || isNalKeyframe data) := by
  rw [← isNalKeyframe_append unit.inert.tail data]
  cases long with
  | true => rfl
  | false =>
    obtain ⟨_, _, hn⟩ := exists_cons_of_ne_nil (hm rfl)
    show isNalKeyframe (0 :: 0 :: 1 :: unit.header :: (unit.payload ++ data)) = _
    rw [hn]
    rfl

theorem isKeyframeNal_header (unit : NalUnit) : isKeyframeNal unit.header ↔ unit.Irap ∨ unit.h264Type = 5 := by
  simp [isKeyframeNal, NalUnit.Irap, NalUnit.h265Type, NalUnit.h264Type]

theorem isNalKeyframe_iff (units : List (Bool × NalUnit)) :
    isNalKeyframe (joined units) ↔ ∃ unit, Scanned unit units ∧ (unit.Irap ∨ unit.h264Type = 5) := by
  induction units with
  | nil => exact ⟨nofun, nofun⟩
  | cons first rest ih =>
    obtain ⟨long, unit⟩ := first
    by_cases hm : long = false → unit.payload ++ joined rest ≠ []
    · have hj : joined ((long, unit) :: rest) = startCode long ++ unit.bytes ++ joined rest := rfl
      rw [hj, isNalKeyframe_unit _ hm, Bool.or_eq_true, ih, isKeyframeNal_header]
      constructor
      · rintro (hh | ⟨other, ho, hk⟩)
        · exact ⟨unit, .here hm, hh⟩
        · exact ⟨other, .later ho, hk⟩
      rintro ⟨other, ho, hk⟩
      cases ho with
      | here => exact .inl hk
      | later hr => exact .inr ⟨other, hr, hk⟩
    · -- the last unit is a single byte behind a short start code
      obtain ⟨rfl, hn⟩ := Classical.not_imp.1 hm
      rw [not_not] at hn
      show isNalKeyframe (0 :: 0 :: 1 :: unit.header :: (unit.payload ++ joined rest)) ↔ _
      rw [hn]
      refine ⟨nofun, ?_⟩
      rintro ⟨other, ho, hk⟩
      cases ho with
      | here hm => exact absurd hn (hm rfl)
      | later hr =>
        have hf := ih.2 ⟨other, hr, hk⟩
        rw [(append_eq_nil_iff.1 hn).2] at hf
        exact hf

theorem Scanned.mem (hs : Scanned unit units) : ∃ long, (long, unit) ∈ units := by
  induction hs with
  | here => exact ⟨_, mem_cons_self⟩
  | later hr ih => exact ih.imp fun _ => mem_cons_of_mem _

theorem scanned_of_mem {long : Bool} (hu : (long, unit) ∈ units) (hp : unit.payload ≠ []) :
    Scanned unit units := by
  obtain ⟨pre, _, rfl⟩ := append_of_mem hu
  induction pre with
  | nil => exact .here fun _ hn => hp (append_eq_nil_iff.1 hn).1
  | cons first pre ih => exact .later (ih (mem_append_right _ mem_cons_self))

/-! ### The two readings of a header -/

/-- The header of a unit of layer 0 is even, and that of an IDR slice of H.264 is odd. -/
theorem NalUnit.h264Type_ne (hl : unit.layerId = 0) : unit.h264Type ≠ 5 := by
  intro ht
  have ho : unit.header &&& 1 = 1 := by
    rw [show (1 : UInt8) = 0x1F &&& 1 from rfl, ← UInt8.and_assoc, show unit.header &&& 0x1F = 5 from ht]
    rfl
  rw [layerId, ho] at hl
  exact absurd hl (by simp)

theorem isNalKeyframe_h265 (units : List (Bool × NalUnit)) (hlength : ∀ unit ∈ units, 2 ≤ unit.2.bytes.length)
    (hlayer : ∀ unit ∈ units, unit.2.layerId = 0) :
    isNalKeyframe (joined units) = true ↔ ∃ unit ∈ units, unit.2.Irap := by
  rw [isNalKeyframe_iff]
  constructor
  · rintro ⟨unit, hs, hk⟩
    obtain ⟨long, hmem⟩ := hs.mem
    exact ⟨_, hmem, hk.resolve_right (NalUnit.h264Type_ne (hlayer _ hmem))⟩
  · rintro ⟨⟨long, unit⟩, hu, hi⟩
    refine ⟨unit, scanned_of_mem hu ?_, .inl hi⟩
    exact ne_nil_of_length_pos (Nat.lt_of_succ_lt_succ (hlength _ hu))

theorem isNalKeyframe_h265_idr : isNalKeyframe (joined [(true, ⟨0x40, [1], by decide, by decide⟩),
      (false, ⟨0x26, [1], by decide, by decide⟩)]) = true :=
  (isNalKeyframe_h265 _ (by decide) (by decide)).2 ⟨_, mem_cons_of_mem _ mem_cons_self, by decide, by decide⟩

/-- The verdict on an H.264 stream is right exactly if two conditions hold. With an IDR slice, the scan looks at one, or
at a unit whose header reads as a random access picture of H.265; without one, it looks at no such unit. -/
theorem isNalKeyframe_h264_iff (units : List (Bool × NalUnit)) :
    (isNalKeyframe (joined units) = true ↔ ∃ unit ∈ units, unit.2.h264Type = 5) ↔
      ((∃ unit ∈ units, unit.2.h264Type = 5) → ∃ unit, Scanned unit units ∧ (unit.Irap ∨ unit.h264Type = 5)) ∧
      ((∀ unit ∈ units, unit.2.h264Type ≠ 5) → ∀ unit, Scanned unit units → ¬ unit.Irap) := by
  rw [isNalKeyframe_iff]
  constructor
  · refine fun hi => ⟨hi.2, fun hn unit hs hir => ?_⟩
    obtain ⟨other, ho, ht⟩ := hi.1 ⟨unit, hs, .inl hir⟩
    exact hn other ho ht
  rintro ⟨hf, hn⟩
  refine ⟨?_, hf⟩
  rintro ⟨unit, hs, hk⟩
  by_contra hid
  have hot : ∀ unit ∈ units, unit.2.h264Type ≠ 5 := fun unit hu ht => hid ⟨unit, hu, ht⟩
  obtain ⟨_, hmem⟩ := hs.mem
  exact hk.elim (hn hot unit hs) (hot _ hmem)

/-- A slice that is not an IDR slice, with the priority 1. -/
def slice : NalUnit := ⟨0x21, [0x9A], by decide, by decide⟩

theorem slice_taken_for_keyframe :
    isNalKeyframe (joined [(true, slice)]) = true ∧ ¬ ∃ unit ∈ [(true, slice)], unit.2.h264Type = 5 := by decide

end RustLibp2p.Camera
