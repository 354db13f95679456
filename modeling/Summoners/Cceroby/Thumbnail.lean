import Mathlib.Algebra.Ring.Int.Defs
import Mathlib.Algebra.Ring.Nat
import Summoners.Checked.BigEndian

/-! # The thumbnail cache format

`encode_thumbnail_entry` and `decode_thumbnail_entry` of `cceroby/src/cache.rs`: a magic number, a
timestamp in nanoseconds, the media type, a checksum over these and the payload, and the payload.
SHA-256 is a parameter.
-/

namespace Summoners.Cceroby
set_option autoImplicit false

open Checked

inductive DisplayMediaType
  | jpeg
  | png
  | webp
  deriving DecidableEq

/-- A `SystemTime` of nanosecond precision, as seconds in an `i64` and nanoseconds from the Unix
epoch. -/
structure SystemTime where
  seconds : ℤ
  nanoseconds : ℕ
  seconds_ok : -2 ^ 63 ≤ seconds ∧ seconds < 2 ^ 63
  nanoseconds_ok : nanoseconds < 1000000000
  deriving DecidableEq

namespace Thumbnail

/-- `THUMBNAIL_MAGIC`: `CCERTHM2`. -/
def thumbnailMagic : List UInt8 := [67, 67, 69, 82, 84, 72, 77, 50]

example : thumbnailMagic = "CCERTHM2".toUTF8.data.toList := by decide +kernel

def thumbnailTimestampBytes : ℕ := 16

def thumbnailChecksumBytes : ℕ := 32

structure ThumbnailEntry where
  fetchedAt : SystemTime
  bytes : List UInt8
  mediaType : DisplayMediaType
  deriving DecidableEq

def mediaTypeCode : DisplayMediaType → UInt8
  | .jpeg => 1
  | .png => 2
  | .webp => 3

def decodeMediaType (code : UInt8) : Option DisplayMediaType :=
  if code = 1 then some .jpeg else if code = 2 then some .png else if code = 3 then some .webp
  else none

/-- `duration_since(UNIX_EPOCH)` in nanoseconds; a time before the epoch has none. -/
def nanosSinceEpoch (time : SystemTime) : Option ℕ :=
  if time.seconds < 0 then none
  else some (time.seconds.toNat * 1000000000 + time.nanoseconds)

def systemTimeFromEpochNanos (timestamp : ℕ) : Option SystemTime :=
  -- the seconds fit in the `u64` of a Duration, and are added to the `i64` of the epoch
  if 2 ^ 64 ≤ timestamp / 1000000000 then none
  else if h : timestamp / 1000000000 < 2 ^ 63 then
    some ⟨(timestamp / 1000000000 : ℕ), timestamp % 1000000000, by omega,
      Nat.mod_lt _ (by decide)⟩
  else none

/-- `bytes.get(start..stop)`. -/
def getRange (bytes : List UInt8) (start stop : ℕ) : Option (List UInt8) :=
  if start ≤ stop ∧ stop ≤ bytes.length then some ((bytes.drop start).take (stop - start)) else none

section
variable (sha256 : List UInt8 → Vector UInt8 32)

def thumbnailChecksum (timestamp : List UInt8) (mediaCode : UInt8) (payload : List UInt8) :
    List UInt8 :=
  (sha256 (thumbnailMagic ++ timestamp ++ [mediaCode] ++ payload)).toList

def encodeThumbnailEntry (mediaType : DisplayMediaType) (bytes : List UInt8)
    (fetchedAt : SystemTime) : Option (List UInt8) :=
  if bytes.isEmpty then none
  else do
    let nanos ← nanosSinceEpoch fetchedAt
    let timestamp := toBigEndian thumbnailTimestampBytes nanos
    let mediaCode := mediaTypeCode mediaType
    let checksum := thumbnailChecksum sha256 timestamp mediaCode bytes
    pure (thumbnailMagic ++ timestamp ++ [mediaCode] ++ checksum ++ bytes)

def decodeThumbnailEntry (bytes : List UInt8) : Option ThumbnailEntry :=
  let headerLength :=
    thumbnailMagic.length + thumbnailTimestampBytes + 1 + thumbnailChecksumBytes
  if bytes.length ≤ headerLength ∨ getRange bytes 0 thumbnailMagic.length ≠ some thumbnailMagic then
    none
  else do
    let timestampStart := thumbnailMagic.length
    let timestampEnd := timestampStart + thumbnailTimestampBytes
    let timestamp ← getRange bytes timestampStart timestampEnd
    let mediaCode ← bytes[timestampEnd]?
    let mediaType ← decodeMediaType mediaCode
    let checksumStart := timestampEnd + 1
    let checksumEnd := checksumStart + thumbnailChecksumBytes
    let checksum ← getRange bytes checksumStart checksumEnd
    let payload ← getRange bytes checksumEnd bytes.length
    if thumbnailChecksum sha256 timestamp mediaCode payload ≠ checksum then none
    else
      let fetchedAt ← systemTimeFromEpochNanos (ofBigEndian timestamp)
      pure ⟨fetchedAt, payload, mediaType⟩

end

/-! ## The parts of a file -/

/-- A file of these parts. -/
structure Layout (timestamp : List UInt8) (mediaCode : UInt8) (checksum payload bytes : List UInt8) :
    Prop where
  bytes : bytes = thumbnailMagic ++ timestamp ++ [mediaCode] ++ checksum ++ payload
  timestamp : timestamp.length = thumbnailTimestampBytes
  checksum : checksum.length = thumbnailChecksumBytes
  payload : payload ≠ []

section
variable {timestamp checksum payload bytes : List UInt8} {mediaCode : UInt8}

theorem getRange_middle (front middle back : List UInt8) :
    getRange (front ++ middle ++ back) front.length (front.length + middle.length) =
      some middle := by
  unfold getRange
  rw [if_pos (by simp), List.append_assoc, List.drop_left, Nat.add_sub_cancel_left, List.take_left]

theorem exists_append (bytes : List UInt8) {n : ℕ} (h : n ≤ bytes.length) :
    ∃ front back, bytes = front ++ back ∧ front.length = n :=
  ⟨bytes.take n, bytes.drop n, (List.take_append_drop n bytes).symm,
    by rw [List.length_take, Nat.min_eq_left h]⟩

theorem Layout.magic (h : Layout timestamp mediaCode checksum payload bytes) :
    getRange bytes 0 thumbnailMagic.length = some thumbnailMagic := by
  have hrange := getRange_middle [] thumbnailMagic
    (timestamp ++ [mediaCode] ++ checksum ++ payload)
  rw [h.bytes]
  simpa using hrange

/-- Bytes that are long enough and begin with the magic number are a file. -/
theorem exists_layout (hlength : thumbnailMagic.length + thumbnailTimestampBytes + 1 +
      thumbnailChecksumBytes < bytes.length)
    (hmagic : getRange bytes 0 thumbnailMagic.length = some thumbnailMagic) :
    ∃ timestamp mediaCode checksum payload, Layout timestamp mediaCode checksum payload bytes := by
  obtain ⟨magic, rest, rfl, hm⟩ := exists_append (n := thumbnailMagic.length) bytes
    (by omega)
  have heq : magic = thumbnailMagic := by
    have hrange := getRange_middle [] magic rest
    rw [List.nil_append, List.length_nil, Nat.zero_add, hm, hmagic] at hrange
    exact (Option.some.inj hrange).symm
  rw [List.length_append, hm] at hlength
  obtain ⟨timestamp, rest, rfl, ht⟩ := exists_append (n := thumbnailTimestampBytes) rest
    (by omega)
  rw [List.length_append, ht] at hlength
  cases rest with
  | nil =>
    rw [List.length_nil] at hlength
    omega
  | cons mediaCode rest =>
    rw [List.length_cons] at hlength
    obtain ⟨checksum, payload, rfl, hc⟩ := exists_append (n := thumbnailChecksumBytes) rest
      (by omega)
    rw [List.length_append, hc] at hlength
    refine ⟨timestamp, mediaCode, checksum, payload, by rw [heq]; simp, ht, hc, ?_⟩
    rintro rfl
    rw [List.length_nil] at hlength
    omega

/-- **The decoder on a file.** -/
theorem Layout.decode (sha256 : List UInt8 → Vector UInt8 32)
    (h : Layout timestamp mediaCode checksum payload bytes) :
    decodeThumbnailEntry sha256 bytes =
      (decodeMediaType mediaCode).bind fun mediaType =>
        if thumbnailChecksum sha256 timestamp mediaCode payload ≠ checksum then none
        else (systemTimeFromEpochNanos (ofBigEndian timestamp)).map (⟨·, payload, mediaType⟩) := by
  have hpayload : 0 < payload.length := List.length_pos_iff.mpr h.payload
  have hlength : bytes.length = thumbnailMagic.length + thumbnailTimestampBytes + 1 +
      thumbnailChecksumBytes + payload.length := by
    rw [h.bytes]
    simp only [List.length_append, h.timestamp, h.checksum, List.length_singleton]
  have htimestamp : getRange bytes thumbnailMagic.length
      (thumbnailMagic.length + thumbnailTimestampBytes) = some timestamp := by
    have hrange := getRange_middle thumbnailMagic timestamp ([mediaCode] ++ checksum ++ payload)
    rw [h.timestamp] at hrange
    rw [h.bytes]
    simpa using hrange
  have hcode : bytes[thumbnailMagic.length + thumbnailTimestampBytes]? = some mediaCode := by
    have hfront : (thumbnailMagic ++ timestamp).length =
        thumbnailMagic.length + thumbnailTimestampBytes := by
      rw [List.length_append, h.timestamp]
    rw [h.bytes, ← hfront, List.append_assoc, List.append_assoc,
      List.getElem?_append_right (Nat.le_refl _), Nat.sub_self]
    rfl
  have hchecksum : getRange bytes (thumbnailMagic.length + thumbnailTimestampBytes + 1)
      (thumbnailMagic.length + thumbnailTimestampBytes + 1 + thumbnailChecksumBytes) =
        some checksum := by
    have hrange := getRange_middle (thumbnailMagic ++ timestamp ++ [mediaCode]) checksum payload
    rw [List.length_append, List.length_append, h.timestamp, h.checksum] at hrange
    rw [h.bytes]
    exact hrange
  have hrest : getRange bytes (thumbnailMagic.length + thumbnailTimestampBytes + 1 +
      thumbnailChecksumBytes) bytes.length = some payload := by
    have hrange := getRange_middle (thumbnailMagic ++ timestamp ++ [mediaCode] ++ checksum) payload []
    rw [List.append_nil, ← h.bytes] at hrange
    simp only [List.length_append, h.timestamp, h.checksum, List.length_singleton] at hrange
    rw [hlength]
    exact hrange
  unfold decodeThumbnailEntry
  simp only
  rw [if_neg (by rw [not_or, not_not]; exact ⟨by omega, h.magic⟩), htimestamp, hcode]
  simp only [Option.bind_eq_bind, Option.bind_some]
  congr 1
  funext mediaType
  rw [hchecksum, hrest]
  simp only [Option.bind_some]
  split
  · rfl
  · cases systemTimeFromEpochNanos (ofBigEndian timestamp) <;> rfl

end

/-! ## Times and media types -/

@[simp] theorem decodeMediaType_mediaTypeCode (mediaType : DisplayMediaType) :
    decodeMediaType (mediaTypeCode mediaType) = some mediaType := by
  cases mediaType <;> rfl

theorem mediaTypeCode_of_decode {code : UInt8} {mediaType : DisplayMediaType}
    (h : decodeMediaType code = some mediaType) : mediaTypeCode mediaType = code := by
  unfold decodeMediaType at h
  split at h
  · rename_i hcode
    cases h
    exact hcode.symm
  · split at h
    · rename_i hcode
      cases h
      exact hcode.symm
    · split at h
      · rename_i hcode
        cases h
        exact hcode.symm
      · cases h

/-- The nanoseconds of a time and the time of these nanoseconds. -/
theorem systemTimeFromEpochNanos_eq_some {nanos : ℕ} {time : SystemTime} :
    systemTimeFromEpochNanos nanos = some time ↔ nanosSinceEpoch time = some nanos := by
  obtain ⟨seconds, nanoseconds, hseconds, hnanoseconds⟩ := time
  unfold systemTimeFromEpochNanos nanosSinceEpoch
  simp only
  constructor
  · intro h
    split at h
    · cases h
    · split at h
      · simp only [Option.some.injEq, SystemTime.mk.injEq] at h
        obtain ⟨rfl, rfl⟩ := h
        rw [if_neg (by omega), Int.toNat_natCast, Nat.mul_comm, Nat.div_add_mod]
      · cases h
  · intro h
    split at h
    · cases h
    · rename_i hnonneg
      rw [Option.some.injEq] at h
      have hdiv : nanos / 1000000000 = seconds.toNat := by omega
      have hmod : nanos % 1000000000 = nanoseconds := by omega
      rw [if_neg (by omega), dif_pos (by omega)]
      simp only [Option.some.injEq, SystemTime.mk.injEq]
      omega

theorem nanosSinceEpoch_lt {nanos : ℕ} {time : SystemTime}
    (h : nanosSinceEpoch time = some nanos) : nanos < 256 ^ thumbnailTimestampBytes := by
  have hseconds := time.seconds_ok
  have hnanoseconds := time.nanoseconds_ok
  unfold nanosSinceEpoch at h
  split at h
  · cases h
  · rw [Option.some.injEq] at h
    have hbound : 256 ^ thumbnailTimestampBytes = 340282366920938463463374607431768211456 := rfl
    omega

end Thumbnail

open Thumbnail in
/-- **The thumbnail format round-trips**, both ways. -/
theorem thumbnail_format_round_trips (sha256 : List UInt8 → Vector UInt8 32) :
    (∀ mediaType bytes fetchedAt, bytes ≠ [] → 0 ≤ fetchedAt.seconds →
        ∃ encoded, encodeThumbnailEntry sha256 mediaType bytes fetchedAt = some encoded ∧
          decodeThumbnailEntry sha256 encoded = some ⟨fetchedAt, bytes, mediaType⟩) ∧
      ∀ file entry, decodeThumbnailEntry sha256 file = some entry →
        encodeThumbnailEntry sha256 entry.mediaType entry.bytes entry.fetchedAt = some file ∧
          ∃ timestamp mediaCode checksum,
            Layout timestamp mediaCode checksum entry.bytes file ∧
              checksum = thumbnailChecksum sha256 timestamp mediaCode entry.bytes := by
  constructor
  · intro mediaType bytes fetchedAt hbytes htime
    obtain ⟨nanos, hnanos⟩ : ∃ nanos, nanosSinceEpoch fetchedAt = some nanos :=
      ⟨_, if_neg (Int.not_lt.mpr htime)⟩
    have hencode : encodeThumbnailEntry sha256 mediaType bytes fetchedAt =
        some (thumbnailMagic ++ toBigEndian thumbnailTimestampBytes nanos ++
          [mediaTypeCode mediaType] ++ thumbnailChecksum sha256
            (toBigEndian thumbnailTimestampBytes nanos) (mediaTypeCode mediaType) bytes ++
          bytes) := by
      unfold encodeThumbnailEntry
      rw [if_neg (by simpa using hbytes), hnanos]
      rfl
    have hlayout : Layout (toBigEndian thumbnailTimestampBytes nanos) (mediaTypeCode mediaType)
        (thumbnailChecksum sha256 (toBigEndian thumbnailTimestampBytes nanos)
          (mediaTypeCode mediaType) bytes) bytes _ :=
      ⟨rfl, length_toBigEndian _ _, Vector.length_toList, hbytes⟩
    refine ⟨_, hencode, ?_⟩
    rw [hlayout.decode, decodeMediaType_mediaTypeCode, Option.bind_some, if_neg (not_not.mpr rfl),
      ofBigEndian_toBigEndian (nanosSinceEpoch_lt hnanos),
      systemTimeFromEpochNanos_eq_some.mpr hnanos]
    rfl
  · intro file entry h
    obtain ⟨timestamp, mediaCode, checksum, payload, hlayout⟩ :
        ∃ timestamp mediaCode checksum payload,
          Layout timestamp mediaCode checksum payload file := by
      by_contra hnone
      unfold decodeThumbnailEntry at h
      simp only at h
      split at h
      · cases h
      · rename_i hheader
        rw [not_or, not_not] at hheader
        exact hnone (exists_layout (Nat.lt_of_not_le hheader.1) hheader.2)
    rw [hlayout.decode] at h
    obtain ⟨mediaType, hmedia, h⟩ := Option.bind_eq_some_iff.mp h
    split at h
    · cases h
    · rename_i hchecksum
      rw [not_not] at hchecksum
      obtain ⟨fetchedAt, htime, rfl⟩ := Option.map_eq_some_iff.mp h
      refine ⟨?_, timestamp, mediaCode, checksum, hlayout, hchecksum.symm⟩
      have hstamp : toBigEndian thumbnailTimestampBytes (ofBigEndian timestamp) = timestamp := by
        rw [← hlayout.timestamp, toBigEndian_ofBigEndian]
      unfold encodeThumbnailEntry
      rw [if_neg (by simpa using hlayout.payload), systemTimeFromEpochNanos_eq_some.mp htime]
      simp only [Option.bind_eq_bind, Option.bind_some, hstamp, mediaTypeCode_of_decode hmedia,
        hchecksum]
      rw [hlayout.bytes]
      rfl

/-- A thumbnail of one byte. -/
theorem thumbnail_format_round_trips_jpeg :
    ∃ encoded, Thumbnail.encodeThumbnailEntry (fun _ => .replicate 32 7) .jpeg [1]
        ⟨1, 2, by decide, by decide⟩ = some encoded ∧
      Thumbnail.decodeThumbnailEntry (fun _ => .replicate 32 7) encoded =
        some ⟨⟨1, 2, by decide, by decide⟩, [1], .jpeg⟩ :=
  (thumbnail_format_round_trips (fun _ => .replicate 32 7)).1 .jpeg [1]
    ⟨1, 2, by decide, by decide⟩ (by decide) (by decide)

end Summoners.Cceroby
