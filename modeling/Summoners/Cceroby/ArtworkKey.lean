import Summoners.Checked.Utf8

/-! # Artwork keys

`SourceKind` of `core.rs` and `artwork.rs`: the identity of an artwork that routes carry. A key is
built from two texts only, so it holds what the checks have found.
-/

namespace Summoners.Cceroby
set_option autoImplicit false

open Checked

inductive SourceKind
  | artInstituteChicago
  | clevelandMuseum
  | metropolitanMuseum
  | smithsonian
  | wikimediaCommons
  deriving DecidableEq

namespace SourceKind

/-- `ALL`. -/
def all : List SourceKind :=
  [artInstituteChicago, clevelandMuseum, metropolitanMuseum, smithsonian, wikimediaCommons]

def key : SourceKind → String
  | artInstituteChicago => "aic"
  | clevelandMuseum => "cleveland"
  | metropolitanMuseum => "met"
  | smithsonian => "smithsonian"
  | wikimediaCommons => "wikimedia"

theorem mem_all (source : SourceKind) : source ∈ all := by
  cases source <;> decide

theorem nodup_all : all.Nodup := by decide

end SourceKind

/-! ## The checks -/

/-- `u64::MAX`. -/
def u64Max : ℕ := 18446744073709551615

/-- `str::parse` of an unsigned number up to `max`: decimal digits behind an optional plus sign. -/
def parseUnsigned (max : ℕ) (text : String) : Option ℕ :=
  let digits := match text.toList with
    | '+' :: digits => digits
    | digits => digits
  let value := digits.foldl (fun value c => 10 * value + (c.toNat - 48)) 0
  if !digits.isEmpty && digits.all Char.isDigit && value ≤ max then some value else none

/-- `char::is_control`: the Unicode category `Cc`. -/
def isControl (c : Char) : Bool := c.toNat < 32 || (127 ≤ c.toNat && c.toNat ≤ 159)

/-- `MAX_OBJECT_ID_LENGTH`. -/
def maxObjectIdLength : ℕ := 240

/-- The characters with a meaning in a URL. -/
def isReserved (c : Char) : Bool := ['/', '\\', '?', '#', '&', '=', '%'].contains c

inductive ArtworkKeyError
  | unknownSource
  | malformedId
  deriving DecidableEq

/-- `ArtworkIdValue`. -/
inductive ArtworkId
  | numeric (value : String)
  | smithsonian (value : String)
  | wikimedia (value : String)
  deriving DecidableEq

def ArtworkId.asStr : ArtworkId → String
  | .numeric value => value
  | .smithsonian value => value
  | .wikimedia value => value

def parseSource (raw : String) : Except ArtworkKeyError SourceKind :=
  match SourceKind.all.find? (fun source => source.key = raw) with
  | some source => .ok source
  | none => .error .unknownSource

/-- `u8::is_ascii_alphanumeric` and the marks an identifier may hold. -/
def isSmithsonianByte (byte : UInt8) : Bool :=
  (48 ≤ byte && byte ≤ 57) || (65 ≤ byte && byte ≤ 90) || (97 ≤ byte && byte ≤ 122) ||
    byte = 95 || byte = 45 || byte = 46

/-- What `raw.strip_prefix("edanmdm:")` leaves. -/
def smithsonianSuffix (raw : String) : Option String :=
  let front := "edanmdm:".toList
  if raw.toList.take front.length = front then some (String.ofList (raw.toList.drop front.length))
  else none

def parseSmithsonianId (raw : String) : Option String := do
  let suffix ← smithsonianSuffix raw
  if !suffix.isEmpty && suffix ≠ "." && suffix ≠ ".." && (bytesOf suffix).all isSmithsonianByte then
    some raw
  else none

/-- The value that the checks of its own source admit. -/
def artworkIdValue (source : SourceKind) (raw : String) : Option ArtworkId :=
  match source with
  | .artInstituteChicago | .clevelandMuseum | .metropolitanMuseum =>
      ((parseUnsigned u64Max raw).filter (fun id => 0 < id)).map (fun _ => .numeric raw)
  | .smithsonian => (parseSmithsonianId raw).map .smithsonian
  | .wikimediaCommons => some (.wikimedia raw)

def parseArtworkId (source : SourceKind) (raw : String) : Except ArtworkKeyError ArtworkId :=
  let validLength := !raw.isEmpty && raw.utf8ByteSize ≤ maxObjectIdLength
  let safeCharacters := raw.toList.all (fun c => !isControl c && !isReserved c)
  if !validLength || !safeCharacters then .error .malformedId
  else
    match artworkIdValue source raw with
    | some id => .ok id
    | none => .error .malformedId

/-- Short, and of characters that a route can carry. -/
structure SafeText (raw : String) : Prop where
  nonempty : raw ≠ ""
  short : raw.utf8ByteSize ≤ maxObjectIdLength
  safe : ∀ c ∈ raw.toList, isControl c = false ∧ isReserved c = false

theorem parseArtworkId_ok {source : SourceKind} {raw : String} {id : ArtworkId} :
    parseArtworkId source raw = .ok id ↔
      SafeText raw ∧ artworkIdValue source raw = some id := by
  have hsafe : SafeText raw ↔
      (!(!raw.isEmpty && decide (raw.utf8ByteSize ≤ maxObjectIdLength)) ||
          !raw.toList.all (fun c => !isControl c && !isReserved c)) = false := by
    constructor
    · rintro ⟨hne, hshort, hall⟩
      simp only [Bool.or_eq_false_iff, Bool.not_eq_false', Bool.and_eq_true, decide_eq_true_eq,
        Bool.not_eq_true', List.all_eq_true]
      exact ⟨⟨by simpa using hne, hshort⟩, hall⟩
    · simp only [Bool.or_eq_false_iff, Bool.not_eq_false', Bool.and_eq_true, decide_eq_true_eq,
        Bool.not_eq_true', List.all_eq_true]
      rintro ⟨⟨hne, hshort⟩, hall⟩
      exact ⟨by simpa using hne, hshort, hall⟩
  unfold parseArtworkId
  by_cases hchecks : SafeText raw
  · rw [if_neg (by rw [hsafe.mp hchecks]; exact Bool.false_ne_true)]
    cases artworkIdValue source raw with
    | none => simp
    | some value => simp [hchecks]
  · rw [if_pos (Bool.of_not_eq_false (mt hsafe.mpr hchecks))]
    simp [hchecks]

theorem parseSmithsonianId_eq {raw value : String} (h : parseSmithsonianId raw = some value) :
    value = raw := by
  unfold parseSmithsonianId at h
  cases hsuffix : smithsonianSuffix raw with
  | none => rw [hsuffix] at h; cases h
  | some suffix =>
    rw [hsuffix, Option.bind_eq_bind, Option.bind_some] at h
    split at h
    · exact (Option.some.inj h).symm
    · cases h

theorem artworkIdValue_asStr {source : SourceKind} {raw : String} {id : ArtworkId}
    (h : artworkIdValue source raw = some id) : id.asStr = raw := by
  have hnumeric : ∀ o : Option ℕ, o.map (fun _ => ArtworkId.numeric raw) = some id →
      id.asStr = raw := by
    intro o ho
    obtain ⟨_, -, rfl⟩ := Option.map_eq_some_iff.mp ho
    rfl
  cases source with
  | artInstituteChicago => exact hnumeric _ h
  | clevelandMuseum => exact hnumeric _ h
  | metropolitanMuseum => exact hnumeric _ h
  | smithsonian =>
    obtain ⟨value, hvalue, rfl⟩ := Option.map_eq_some_iff.mp h
    exact parseSmithsonianId_eq hvalue
  | wikimediaCommons =>
    cases h
    rfl

theorem parseArtworkId_asStr {source : SourceKind} {raw : String} {id : ArtworkId}
    (h : parseArtworkId source raw = .ok id) : id.asStr = raw :=
  artworkIdValue_asStr (parseArtworkId_ok.mp h).2

/-- A source and an identifier that its checks have passed; no other can be built. -/
structure ArtworkKey where
  source : SourceKind
  id : ArtworkId
  valid : parseArtworkId source id.asStr = .ok id

def ArtworkKey.tryFromParts (source id : String) : Except ArtworkKeyError ArtworkKey :=
  match parseSource source with
  | .error e => .error e
  | .ok source =>
      match h : parseArtworkId source id with
      | .error e => .error e
      | .ok value => .ok ⟨source, value, by rw [parseArtworkId_asStr h, h]⟩

namespace ArtworkKey

theorem eq_of_parts {a b : ArtworkKey} (hsource : a.source = b.source) (hid : a.id = b.id) :
    a = b := by
  obtain ⟨_, _, _⟩ := a
  obtain ⟨_, _, _⟩ := b
  cases hsource
  cases hid
  rfl

theorem parseSource_ok {raw : String} {source : SourceKind} :
    parseSource raw = .ok source ↔ raw = source.key := by
  unfold parseSource
  constructor
  · intro h
    split at h
    next found hfound =>
      cases h
      have hkey := List.find?_some hfound
      exact (of_decide_eq_true hkey).symm
    · cases h
  · rintro rfl
    cases source <;> rfl

theorem tryFromParts_ok {source id : String} {key : ArtworkKey} :
    tryFromParts source id = .ok key ↔ source = key.source.key ∧ id = key.id.asStr := by
  unfold tryFromParts
  constructor
  · intro h
    split at h
    · cases h
    next found hfound =>
      split at h
      · cases h
      next value hvalue =>
        cases h
        exact ⟨parseSource_ok.mp hfound, (parseArtworkId_asStr hvalue).symm⟩
  · rintro ⟨rfl, rfl⟩
    rw [parseSource_ok.mpr rfl]
    show (match h : parseArtworkId key.source key.id.asStr with
      | .error e => _
      | .ok value => _) = _
    split
    next e herror =>
      rw [key.valid] at herror
      cases herror
    next value hvalue =>
      rw [key.valid] at hvalue
      cases hvalue
      rfl

end ArtworkKey

end Summoners.Cceroby
