import Mathlib.Data.List.Induction
import Mathlib.Tactic.Common

/-! # XMP in a JPEG

`XmpPacket` and `embed_xmp` of `cceroby/src/xmp.rs`. The codec of the img_parts crate is a parameter
over the segments it reads and writes; what the crate keeps of a segment besides its marker and its
contents is of an arbitrary type.
-/

namespace Summoners.Cceroby
set_option autoImplicit false

namespace Xmp

/-- `XMP_IDENTIFIER`: `http://ns.adobe.com/xap/1.0/` and a zero byte. -/
def xmpIdentifier : List UInt8 :=
  [104, 116, 116, 112, 58, 47, 47, 110, 115, 46, 97, 100, 111, 98, 101, 46, 99, 111, 109, 47, 120,
    97, 112, 47, 49, 46, 48, 47, 0]

example : xmpIdentifier = "http://ns.adobe.com/xap/1.0/\x00".toUTF8.data.toList := by decide +kernel

/-- `MAX_XMP_PACKET_BYTES`. -/
def maxXmpPacketBytes : ℕ := 65502

/-- What the length field of a segment leaves to its contents. -/
def maxSegmentBytes : ℕ := 65533

/-- A packet that fits in one segment; no larger one can be built. -/
structure XmpPacket where
  asBytes : List UInt8
  bounded : asBytes.length ≤ maxXmpPacketBytes

inductive XmpError
  | buildFailed
  | packetTooLarge
  | invalidJpeg
  deriving DecidableEq

def XmpPacket.tryFromBytes (bytes : List UInt8) : Except XmpError XmpPacket :=
  if h : maxXmpPacketBytes < bytes.length then .error .packetTooLarge
  else .ok ⟨bytes, Nat.le_of_not_lt h⟩

/-! ## The JPEG container -/

def app1 : UInt8 := 0xe1

structure JpegSegment (E : Type) where
  marker : UInt8
  contents : List UInt8
  entropy : Option E
  deriving DecidableEq

/-- `JpegSegment::new_with_contents`. -/
def newWithContents {E : Type} (marker : UInt8) (contents : List UInt8) :
    JpegSegment E :=
  ⟨marker, contents, none⟩

/-- A faithful codec: what it writes of segments that can stand in a file it reads back. -/
structure Codec (E : Type) where
  fromBytes : List UInt8 → Option (List (JpegSegment E))
  writeTo : List (JpegSegment E) → List UInt8
  wellFormed : JpegSegment E → Prop
  fromBytes_wellFormed : ∀ bytes segments, fromBytes bytes = some segments →
    ∀ s ∈ segments, wellFormed s
  app1_wellFormed : ∀ contents, contents.length ≤ maxSegmentBytes →
    wellFormed (newWithContents app1 contents)
  fromBytes_writeTo : ∀ segments, (∀ s ∈ segments, wellFormed s) →
    fromBytes (writeTo segments) = some segments

section
variable {E : Type}

/-- An APP1 with the XMP identifier. -/
def JpegSegment.isXmp (segment : JpegSegment E) : Bool :=
  segment.marker = app1 && xmpIdentifier.isPrefixOf segment.contents

def xmpSegment (packet : XmpPacket) : JpegSegment E :=
  newWithContents app1 (xmpIdentifier ++ packet.asBytes)

@[simp] theorem isXmp_xmpSegment (packet : XmpPacket) :
    (xmpSegment (E := E) packet).isXmp = true := by
  have hprefix : xmpIdentifier.isPrefixOf (xmpIdentifier ++ packet.asBytes) = true :=
    List.isPrefixOf_iff_prefix.mpr (List.prefix_append _ _)
  simp [JpegSegment.isXmp, xmpSegment, newWithContents, hprefix]

end

/-! ## A codec of files without scans -/

/-- One segment: its marker, its length in two bytes and its contents. -/
def segmentBytes (segment : JpegSegment Empty) : List UInt8 :=
  let length := segment.contents.length + 2
  0xff :: segment.marker :: UInt8.ofNat (length / 256) :: UInt8.ofNat (length % 256) ::
    segment.contents

/-- The segments up to the end-of-image marker. -/
def readSegments : ℕ → List UInt8 → Option (List (JpegSegment Empty))
  | fuel + 1, 0xff :: marker :: rest =>
      if marker = 0xd9 then some []
      else
        match rest with
        | high :: low :: rest =>
            let length := 256 * high.toNat + low.toNat
            if length < 2 ∨ rest.length < length - 2 then none
            else
              (readSegments fuel (rest.drop (length - 2))).map
                (newWithContents marker (rest.take (length - 2)) :: ·)
        | _ => none
  | _, _ => none

theorem readSegments_wellFormed {fuel : ℕ} {bytes : List UInt8}
    {segments : List (JpegSegment Empty)} (h : readSegments fuel bytes = some segments) :
    ∀ s ∈ segments, s.marker ≠ 0xd9 ∧ s.contents.length ≤ maxSegmentBytes := by
  induction fuel generalizing bytes segments with
  | zero => simp [readSegments] at h
  | succ fuel ih =>
    unfold readSegments at h
    split at h
    · rename_i fuel' marker rest hfuel
      obtain rfl : fuel = fuel' := by simpa using hfuel
      split at h
      · cases h
        simp
      · rename_i hmarker
        split at h
        · rename_i high low rest
          simp only at h
          split at h
          · cases h
          · obtain ⟨tail, htail, rfl⟩ := Option.map_eq_some_iff.mp h
            intro s hs
            rcases List.mem_cons.mp hs with rfl | hs
            · refine ⟨hmarker, ?_⟩
              have hhigh := high.toNat_lt
              have hlow := low.toNat_lt
              simp only [newWithContents, List.length_take, maxSegmentBytes]
              omega
            · exact ih htail s hs
        · cases h
    · cases h

theorem readSegments_writeTo {segments : List (JpegSegment Empty)}
    (h : ∀ s ∈ segments, s.marker ≠ 0xd9 ∧ s.contents.length ≤ maxSegmentBytes) {fuel : ℕ}
    (hfuel : segments.length < fuel) :
    readSegments fuel (segments.flatMap segmentBytes ++ [0xff, 0xd9]) = some segments := by
  induction segments generalizing fuel with
  | nil =>
    cases fuel with
    | zero => cases hfuel
    | succ fuel => rfl
  | cons s segments ih =>
    obtain ⟨marker, contents, entropy⟩ := s
    obtain ⟨hmarker, hlength⟩ := h _ List.mem_cons_self
    obtain rfl : entropy = none := by
      cases entropy with
      | none => rfl
      | some e => exact e.elim
    cases fuel with
    | zero => cases hfuel
    | succ fuel =>
      have hfuel' : segments.length < fuel := Nat.lt_of_succ_lt_succ hfuel
      have htail := ih (fun t ht => h t (List.mem_cons_of_mem _ ht)) hfuel'
      simp only [maxSegmentBytes] at hlength
      have hword : 256 * (UInt8.ofNat ((contents.length + 2) / 256)).toNat +
          (UInt8.ofNat ((contents.length + 2) % 256)).toNat = contents.length + 2 := by
        rw [UInt8.toNat_ofNat', UInt8.toNat_ofNat']
        omega
      rw [List.flatMap_cons]
      simp only [segmentBytes, List.cons_append, readSegments, if_neg hmarker, hword,
        List.append_assoc, Nat.add_sub_cancel]
      rw [if_neg (by simp), List.drop_left, List.take_left, htail]
      rfl

/-- The codec of the files that have no entropy-coded data. -/
def Codec.plain : Codec Empty where
  fromBytes
    | 0xff :: 0xd8 :: rest => readSegments (rest.length + 1) rest
    | _ => none
  writeTo segments := 0xff :: 0xd8 :: (segments.flatMap segmentBytes ++ [0xff, 0xd9])
  wellFormed s := s.marker ≠ 0xd9 ∧ s.contents.length ≤ maxSegmentBytes
  fromBytes_wellFormed bytes segments h := by
    split at h
    · exact readSegments_wellFormed h
    · cases h
  app1_wellFormed _ h := ⟨(by decide : app1 ≠ 0xd9), h⟩
  fromBytes_writeTo segments h := by
    refine readSegments_writeTo h ?_
    have hle : segments.length ≤ (segments.flatMap segmentBytes).length := by
      induction segments with
      | nil => exact Nat.le_refl _
      | cons s segments ih =>
        have htail := ih (fun t ht => h t (List.mem_cons_of_mem _ ht))
        simp only [List.flatMap_cons, segmentBytes, List.length_cons, List.length_append]
        omega
    simp only [List.length_append]
    omega

end Xmp

section
open Xmp
variable {E : Type}

end

end Summoners.Cceroby
