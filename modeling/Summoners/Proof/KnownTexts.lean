import Summoners.Proof.ReadBack

/-! # A serde of known records

For runs on concrete inputs: the JSON writer and its readers as a table of the records a run needs
and of their texts. Nothing else is written or read.
-/

namespace Summoners
set_option autoImplicit false

/-- Equality of records, of headers only where both are without metadata. -/
def RecordV1.same : RecordV1 → RecordV1 → Bool
  | .header v, .header w => v.sequence = w.sequence && v.format = w.format &&
      v.formatVersion = w.formatVersion && v.metadata.isEmpty && w.metadata.isEmpty
  | .matchCreated v, .matchCreated w => v = w
  | .action v, .action w => v = w
  | .event v, .event w => v = w
  | .stepCompleted v, .stepCompleted w => v = w
  | .stepRejected v, .stepRejected w => v = w
  | .finalState v, .finalState w => v = w
  | .matchCompleted v, .matchCompleted w => v = w
  | _, _ => false

theorem RecordV1.eq_of_same {r r' : RecordV1} (h : r.same r' = true) : r = r' := by
  cases r
  case header v =>
    cases r' with
    | header w =>
        obtain ⟨sequence, format, version, metadata⟩ := v
        obtain ⟨sequence', format', version', metadata'⟩ := w
        simp only [same, Bool.and_eq_true, decide_eq_true_eq, List.isEmpty_iff] at h
        obtain ⟨⟨⟨⟨rfl, rfl⟩, rfl⟩, rfl⟩, rfl⟩ := h
        rfl
    | _ => simp [same] at h
  all_goals cases r' <;> simp_all [same]

/-- The bytes of a text. -/
def utf8 (text : String) : List UInt8 := text.toByteArray.data.toList

theorem fromUTF8?_utf8 (text : String) : String.fromUTF8? ⟨(utf8 text).toArray⟩ = some text := by
  have hbytes : (⟨(utf8 text).toArray⟩ : ByteArray) = text.toByteArray := by
    unfold utf8
    rw [Array.toArray_toList]
  rw [hbytes, String.fromUTF8?, dif_pos text.isValidUTF8]
  rfl

/-- The records of a run with their texts, its two states with theirs, and the hashes of these. -/
structure KnownTexts where
  records : List (RecordV1 × String)
  states : List (StateProjectionV1 × String)
  digests : List (String × Vector UInt8 32)

namespace KnownTexts

/-- The record of a text. -/
def recordOf (known : KnownTexts) (text : String) : Option RecordV1 :=
  (known.records.find? (fun entry => entry.2 = text)).map (·.1)

/-- What a typed reader answers about a text that holds no record of its kind. -/
def notKnown : TypedFailure := ⟨".", "unknown text"⟩

def serde (known : KnownTexts) : Serde where
  toVec record :=
    match known.records.find? (fun entry => entry.1.same record) with
    | some entry => .ok (utf8 entry.2)
    | none => .error ⟨"unknown record"⟩
  canonicalBytes state :=
    match known.states.find? (fun entry => entry.1 = state) with
    | some entry => .ok (utf8 entry.2)
    | none => .error ⟨"unknown state"⟩
  sha256 bytes :=
    match known.digests.find? (fun entry => utf8 entry.1 = bytes) with
    | some entry => entry.2
    | none => Vector.replicate 32 0
  fromStr text := match known.recordOf text with
    | some record => .ok record.toJson
    | none => .error "unknown text"
  decodeHeader text := match known.recordOf text with
    | some (.header value) => .ok value
    | _ => .error notKnown
  decodeMatchCreated text := match known.recordOf text with
    | some (.matchCreated value) => .ok value
    | _ => .error notKnown
  decodeAction text := match known.recordOf text with
    | some (.action value) => .ok value
    | _ => .error notKnown
  decodeEvent text := match known.recordOf text with
    | some (.event value) => .ok value
    | _ => .error notKnown
  decodeStepCompleted text := match known.recordOf text with
    | some (.stepCompleted value) => .ok value
    | _ => .error notKnown
  decodeStepRejected text := match known.recordOf text with
    | some (.stepRejected value) => .ok value
    | _ => .error notKnown
  decodeFinalState text := match known.recordOf text with
    | some (.finalState value) => .ok value
    | _ => .error notKnown
  decodeMatchCompleted text := match known.recordOf text with
    | some (.matchCompleted value) => .ok value
    | _ => .error notKnown

/-- Different lines, each without a line feed and without a carriage return at its end. -/
structure Lines (known : KnownTexts) : Prop where
  nodup : (known.records.map (·.2)).Nodup
  oneLine : ∀ entry ∈ known.records, 10 ∉ utf8 entry.2
  noReturn : ∀ entry ∈ known.records, (utf8 entry.2).getLast? ≠ some 13

theorem recordOf_mem {known : KnownTexts} (h : known.Lines) {entry : RecordV1 × String}
    (hmem : entry ∈ known.records) : known.recordOf entry.2 = some entry.1 := by
  have hnodup := h.nodup
  unfold recordOf
  generalize known.records = entries at hmem hnodup
  induction entries with
  | nil => cases hmem
  | cons first entries ih =>
      rw [List.map_cons, List.nodup_cons] at hnodup
      rw [List.find?_cons]
      rcases List.mem_cons.mp hmem with rfl | hmem
      · simp
      · have hne : first.2 ≠ entry.2 := by
          intro heq
          apply hnodup.1
          rw [heq]
          exact List.mem_map_of_mem hmem
        simp only [hne, decide_false]
        exact ih hmem hnodup.2

/-- What such a serde writes, it reads back. -/
theorem readsBack {known : KnownTexts} (h : known.Lines) (record : RecordV1) (bytes : List UInt8)
    (hbytes : known.serde.toVec record = .ok bytes) : known.serde.ReadsBack record bytes := by
  simp only [serde] at hbytes
  split at hbytes
  · rename_i entry hfind
    cases hbytes
    have hmem := List.mem_of_find?_eq_some hfind
    have hsame : entry.1.same record = true := by simpa using List.find?_some hfind
    obtain rfl := RecordV1.eq_of_same hsame
    refine ⟨h.oneLine entry hmem, h.noReturn entry hmem, entry.2, fromUTF8?_utf8 _, ?_, ?_⟩
    · simp [serde, recordOf_mem h hmem]
    · have hread := recordOf_mem h hmem
      cases hrecord : entry.1 <;> simp [Serde.Decodes, serde, hread, hrecord]
  · cases hbytes

end KnownTexts

/-! ## One resignation

The match of `goldens/resignation.ndjson`.
-/

namespace Resignation

/-- A player without any card, as text. -/
def seatText : String :=
  "\x7b\"main\":null,\"bench\":[null,null,null],\"deck\":[],\"hand\":[],\"prizes\":[]," ++
    "\"discard\":[],\"mana\":\x7b\"matter\":0,\"mind\":0,\"spirit\":0\x7d,\"main_losses\":0," ++
    "\"enchantments\":[]\x7d"

/-- The state of two such players, as text. -/
def stateText (status : String) : String :=
  "\x7b\"players\":\x7b\"one\":" ++ seatText ++ ",\"two\":" ++ seatText ++
    "\x7d,\"coin\":false,\"turn\":\x7b\"active_player\":\"one\",\"phase\":\"main\"," ++
    "\"window\":null,\"normal_attack_used\":false,\"normal_retreat_used\":false," ++
    "\"spell_played_this_turn\":\x7b\"one\":false,\"two\":false\x7d\x7d,\"stack\":[]," ++
    "\"stack_segment_bases\":[],\"work\":[],\"pending\":null,\"status\":" ++ status ++ "\x7d"

def playingText : String := stateText "\x7b\"kind\":\"playing\"\x7d"

def endedText : String :=
  stateText
    ("\x7b\"kind\":\"ended\",\"outcome\":\x7b" ++
      "\"winner\":\"two\",\"reason\":\"resignation\"\x7d\x7d")

/-- The bytes that are hashed for a state, as text. -/
def hashedText (state : String) : String :=
  "\x7b\"projection_version\":1,\"state\":" ++ state ++ "\x7d"

def playingHash : Vector UInt8 32 :=
  #v[129, 76, 42, 7, 241, 53, 201, 19, 70, 64, 14, 81, 150, 251, 91, 130, 14, 43, 9,
    246, 1, 128, 169, 37, 195, 134, 94, 242, 92, 144, 101, 32]

def endedHash : Vector UInt8 32 :=
  #v[24, 56, 122, 58, 249, 143, 112, 240, 121, 162, 121, 10, 237, 171, 106, 88, 197, 92, 20,
    251, 156, 85, 109, 174, 47, 123, 117, 226, 151, 110, 190, 11]

def playingDigest : String :=
  "sha256:814c2a07f135c91346400e5196fb5b820e2b09f60180a925c3865ef25c906520"

def endedDigest : String :=
  "sha256:18387a3af98f70f079a2790aedab6a58c55c14fb9c556dae2f7b75e2976ebe0b"

/-- A player without any card. -/
def seat : PlayerState := ⟨none, Bench.empty, [], [], [], [], ⟨0, 0, 0⟩, 0, []⟩

def initial : GameState :=
  { players := ⟨seat, seat⟩
    coin := none
    turn := ⟨.one, .main, none, false, false, ⟨false, false⟩⟩
    stack := []
    stackSegmentBases := []
    work := []
    pending := none
    status := .playing
    cards := ⟨[]⟩ }

def ended : GameState := { initial with status := .ended ⟨.two, .resignation⟩ }

/-- The records of the match, with the texts `serde_json` gives them. -/
def known : KnownTexts where
  records :=
    [(.header (HeaderV1.new []),
        "\x7b\"sequence\":0,\"record\":\"header\",\"format\":\"summoners_match\"," ++
          "\"format_version\":1,\"metadata\":\x7b\x7d\x7d"),
      (.matchCreated ⟨1, [], StateProjectionV1.fromState initial, ⟨playingDigest⟩⟩,
        "\x7b\"sequence\":1,\"record\":\"match_created\",\"required_sets\":[]," ++
          "\"initial_state\":" ++ playingText ++ ",\"state_digest\":\"" ++ playingDigest ++
          "\"\x7d"),
      (.action ⟨2, 1, .resign .one⟩,
        "\x7b\"sequence\":2,\"record\":\"action\",\"step\":1," ++
          "\"action\":\x7b\"kind\":\"resign\",\"player\":\"one\"\x7d\x7d"),
      (.event ⟨3, 1, 0, .gameEnded .two .resignation⟩,
        "\x7b\"sequence\":3,\"record\":\"event\",\"step\":1,\"index\":0," ++
          "\"event\":\x7b\"kind\":\"game_ended\",\"winner\":\"two\"," ++
          "\"reason\":\"resignation\"\x7d\x7d"),
      (.stepCompleted ⟨4, 1, 1, ⟨endedDigest⟩⟩,
        "\x7b\"sequence\":4,\"record\":\"step_completed\",\"step\":1,\"event_count\":1," ++
          "\"state_digest\":\"" ++ endedDigest ++ "\"\x7d"),
      (.finalState ⟨5, StateProjectionV1.fromState ended, ⟨endedDigest⟩⟩,
        "\x7b\"sequence\":5,\"record\":\"final_state\",\"final_state\":" ++ endedText ++
          ",\"state_digest\":\"" ++ endedDigest ++ "\"\x7d"),
      (.matchCompleted ⟨6, 1, 1, ⟨endedDigest⟩, .two, .resignation⟩,
        "\x7b\"sequence\":6,\"record\":\"match_completed\",\"step_count\":1," ++
          "\"event_count\":1,\"state_digest\":\"" ++ endedDigest ++
          "\",\"winner\":\"two\",\"reason\":\"resignation\"\x7d")]
  states :=
    [(StateProjectionV1.fromState initial, hashedText playingText),
      (StateProjectionV1.fromState ended, hashedText endedText)]
  digests := [(hashedText playingText, playingHash), (hashedText endedText, endedHash)]

theorem known_texts : ∀ entry ∈ known.records,
    10 ∉ utf8 entry.2 ∧ (utf8 entry.2).getLast? ≠ some 13 := by
  decide +kernel

theorem known_lines : known.Lines where
  nodup := by decide +kernel
  oneLine entry hentry := (known_texts entry hentry).1
  noReturn entry hentry := (known_texts entry hentry).2

end Resignation

end Summoners
