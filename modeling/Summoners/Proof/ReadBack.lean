import Summoners.Proof.CanonicalJson

/-! # Reading written records back

What `serde_json` documents about the text of one record, and what the parser makes of it: lines are
found again, a canonical record is decoded to itself, and the records of a transcript come back in
order.
-/

namespace Summoners
set_option autoImplicit false
open Checked

/-! ## Digest texts -/

theorem lowerHex_digest (bytes : List UInt8) : ∀ c ∈ bytes.flatMap EntityId.lowerHex,
    c.toNat < 128 ∧ ((48 ≤ c.toNat ∧ c.toNat ≤ 57) ∨ (97 ≤ c.toNat ∧ c.toNat ≤ 102)) := by
  intro c hc
  obtain ⟨b, -, hb⟩ := List.mem_flatMap.mp hc
  have hdigit : ∀ m : Fin 16, (EntityId.hexDigit m).toNat < 128 ∧
      ((48 ≤ (EntityId.hexDigit m).toNat ∧ (EntityId.hexDigit m).toNat ≤ 57) ∨
        (97 ≤ (EntityId.hexDigit m).toNat ∧ (EntityId.hexDigit m).toNat ≤ 102)) := by decide
  simp only [EntityId.lowerHex, List.mem_cons, List.not_mem_nil, or_false] at hb
  obtain rfl | rfl := hb
  · exact hdigit ⟨_, EntityId.hex_high b⟩
  · exact hdigit ⟨_, EntityId.hex_low b⟩

theorem length_lowerHex (bytes : List UInt8) :
    (bytes.flatMap EntityId.lowerHex).length = 2 * bytes.length := by
  induction bytes with
  | nil => rfl
  | cons b bytes ih =>
      rw [List.flatMap_cons, List.length_append, ih, List.length_cons]
      show 2 + 2 * bytes.length = 2 * (bytes.length + 1)
      omega

/-- A computed digest is one the parser takes. -/
theorem isDigestText_digestText (bytes : Vector UInt8 32) :
    isDigestText (digestText bytes) = true := by
  have hhex := lowerHex_digest bytes.toList
  have hlength := length_lowerHex bytes.toList
  rw [Vector.length_toList] at hlength
  unfold isDigestText digestText
  generalize bytes.toList.flatMap EntityId.lowerHex = hex at hhex hlength
  have hsize : (String.ofList (digestPrefix ++ hex)).utf8ByteSize = 71 := by
    rw [EntityId.size_ascii, List.length_append, hlength]
    · rfl
    · intro c hc
      rcases List.mem_append.mp hc with hc | hc
      · have hascii : digestPrefix.all (fun c => c.toNat < 128) = true := by decide
        exact of_decide_eq_true (List.all_eq_true.mp hascii c hc)
      · exact (hhex c hc).1
  have hdrop : (digestPrefix ++ hex).drop 7 = hex := rfl
  have hstart : digestPrefix.isPrefixOf (digestPrefix ++ hex) = true :=
    List.isPrefixOf_iff_prefix.mpr (List.prefix_append _ _)
  rw [hsize, String.toList_ofList, hdrop, hstart]
  simp only [decide_true, Bool.true_and, List.all_eq_true, Bool.or_eq_true, Bool.and_eq_true,
    decide_eq_true_eq]
  exact fun c hc => (hhex c hc).2

theorem Serde.compute_canonical {serde : Serde} {state : StateProjectionV1}
    {digest : StateDigestV1} (h : serde.compute state = .ok digest) :
    isDigestText digest.text = true := by
  unfold Serde.compute at h
  simp only [bind_ok_iff, pure_ok_iff] at h
  obtain ⟨bytes, -, rfl⟩ := h
  exact isDigestText_digestText _

/-! ## One record -/

namespace RecordV1

/-- The record's ids and digests are canonical text, and a header has the format of this parser. -/
def Canonical : RecordV1 → Prop
  | .header value => value.format = "summoners_match" ∧ value.formatVersion = 1
  | .matchCreated value => CanonicalIds value.initialState.entityIds ∧
      isDigestText value.stateDigest.text = true
  | .action value => CanonicalIds value.action.entityIds
  | .event value => CanonicalIds value.event.entityIds
  | .stepCompleted value => isDigestText value.stateDigest.text = true
  | .stepRejected value => isDigestText value.stateDigest.text = true
  | .finalState value => CanonicalIds value.finalState.entityIds ∧
      isDigestText value.stateDigest.text = true
  | .matchCompleted value => isDigestText value.stateDigest.text = true

/-- A canonical record passes the check of its values. -/
theorem canonicalJson {record : RecordV1} (h : record.Canonical)
    (hheader : recordName record ≠ "header") : CanonicalJson record.toJson := by
  cases record with
  | header value => exact absurd rfl hheader
  | matchCreated value =>
      simp [NamedCanonical, toJson, MatchCreatedV1.toJson, StateDigestV1.toJson, JsonValue.asStr,
        StateProjectionV1.canonicalJson h.1, h.2]
  | action value =>
      simp [NamedCanonical, toJson, ActionRecordV1.toJson, ActionV1.canonicalJson h]
  | event value =>
      simp [NamedCanonical, toJson, EventRecordV1.toJson, EventV1.canonicalJson h]
  | stepCompleted value =>
      simp [NamedCanonical, toJson, StepCompletedV1.toJson, StateDigestV1.toJson, JsonValue.asStr]
      exact h
  | stepRejected value =>
      simp [NamedCanonical, toJson, StepRejectedV1.toJson, StateDigestV1.toJson, JsonValue.asStr]
      exact h
  | finalState value =>
      simp [NamedCanonical, toJson, FinalStateV1.toJson, StateDigestV1.toJson, JsonValue.asStr,
        StateProjectionV1.canonicalJson h.1, h.2]
  | matchCompleted value =>
      simp [NamedCanonical, toJson, MatchCompletedV1.toJson, StateDigestV1.toJson,
        JsonValue.asStr, PlayerIdV1.toJson, LossReasonV1.toJson]
      exact h

/-- The tag of a record is found among its fields. -/
theorem get_record (record : RecordV1) :
    record.toJson.get "record" = some (.string (recordName record)) := by
  cases record <;>
    · apply JsonValue.get_ofFields
      · simp [recordName]
      · simp [recordName]

end RecordV1

/-- The typed reader of a record's kind reads it from the text. -/
def Serde.Decodes (serde : Serde) (text : String) : RecordV1 → Prop
  | .header value => serde.decodeHeader text = .ok value
  | .matchCreated value => serde.decodeMatchCreated text = .ok value
  | .action value => serde.decodeAction text = .ok value
  | .event value => serde.decodeEvent text = .ok value
  | .stepCompleted value => serde.decodeStepCompleted text = .ok value
  | .stepRejected value => serde.decodeStepRejected text = .ok value
  | .finalState value => serde.decodeFinalState text = .ok value
  | .matchCompleted value => serde.decodeMatchCompleted text = .ok value

/-- What `serde_json` documents of the bytes written for a record: they hold no line feed and end in
no carriage return, and the value and the record are read back from them. -/
structure Serde.ReadsBack (serde : Serde) (record : RecordV1) (bytes : List UInt8) : Prop where
  oneLine : 10 ∉ bytes
  noReturn : bytes.getLast? ≠ some 13
  text : ∃ text, String.fromUTF8? ⟨bytes.toArray⟩ = some text ∧
    serde.fromStr text = .ok record.toJson ∧ serde.Decodes text record

section
variable {serde : Serde} {record : RecordV1} {bytes : List UInt8}

theorem decodeTagged_of_decodes {text : String} {context : ParseContext}
    (h : serde.Decodes text record) (hcanonical : record.Canonical) :
    decodeTagged serde (recordName record) text context = .ok record := by
  cases record with
  | header value =>
      simp only [Serde.Decodes] at h
      simp [decodeTagged, recordName, decodeHeaderRecord, decodeTyped, h, Except.mapError,
        hcanonical.1, hcanonical.2]
  | _ value =>
      simp only [Serde.Decodes] at h
      simp [decodeTagged, recordName, decodeTyped, h, Except.mapError]

theorem decodeRecord_of_readsBack (h : serde.ReadsBack record bytes)
    (hcanonical : record.Canonical) (line : ℕ) :
    decodeRecord serde bytes line = .ok ⟨line, record⟩ := by
  obtain ⟨text, hutf8, hvalue, hdecodes⟩ := h.text
  have hrecord : ∀ context, decodeTagged serde (recordName record) text context = .ok record :=
    fun context => decodeTagged_of_decodes hdecodes hcanonical
  unfold decodeRecord
  simp only [hutf8, hvalue, Except.mapError, ok_bind, RecordV1.get_record, Option.bind_some,
    JsonValue.asStr, hrecord]
  split_ifs with hname
  · rfl
  · rw [check_ok_iff, validateCanonicalValues_ok_iff]
    exact ⟨RecordV1.canonicalJson hcanonical hname, rfl⟩

/-! ## Lines -/

theorem readLines_append {rest : List UInt8} (h : 10 ∉ bytes) :
    readLines (bytes ++ 10 :: rest) = (bytes ++ [10]) :: readLines rest := by
  induction bytes with
  | nil => simp [readLines]
  | cons b bytes ih =>
      have hb : b ≠ 10 := by
        rintro rfl
        exact h List.mem_cons_self
      rw [List.cons_append, readLines, if_neg hb, ih (fun hmem => h (List.mem_cons_of_mem _ hmem))]
      rfl

/-- Chunks of one line each are the lines of what is written. -/
theorem readLines_flatten {lines : List (List UInt8)} (h : ∀ line ∈ lines, 10 ∉ line) :
    readLines (lines.map (· ++ [10])).flatten = lines.map (· ++ [10]) := by
  induction lines with
  | nil => rfl
  | cons line lines ih =>
      rw [List.map_cons, List.flatten_cons, List.append_assoc, List.singleton_append,
        readLines_append (h line List.mem_cons_self),
        ih (fun l hl => h l (List.mem_cons_of_mem _ hl))]

theorem chomp_line (h : bytes.getLast? ≠ some 13) : chomp (bytes ++ [10]) = bytes := by
  unfold chomp
  rw [List.getLast?_concat, if_pos rfl, List.dropLast_concat, if_neg h]

/-- Canonical records come back in order. -/
theorem decodeLines_of_readsBack {records : List RecordV1} {lines : List (List UInt8)}
    (h : List.Forall₂ serde.ReadsBack records lines)
    (hcanonical : ∀ record ∈ records, record.Canonical) (number : ℕ) :
    ∃ ds, decodeLines serde number (lines.map (· ++ [10])) = .ok ds ∧
      ds.map (·.record) = records := by
  induction h generalizing number with
  | nil => exact ⟨[], rfl, rfl⟩
  | @cons record line records lines hline _ ih =>
      obtain ⟨ds, hds, hrecords⟩ :=
        ih (fun r hr => hcanonical r (List.mem_cons_of_mem _ hr)) (number + 1)
      refine ⟨⟨number, record⟩ :: ds, ?_, by rw [List.map_cons, hrecords]⟩
      rw [List.map_cons, decodeLines, chomp_line hline.noReturn,
        decodeRecord_of_readsBack hline (hcanonical record List.mem_cons_self), ok_bind, hds]
      rfl

/-- Parsing what was written for canonical records folds these records. -/
theorem parse_written {records : List RecordV1} {lines : List (List UInt8)}
    (h : List.Forall₂ serde.ReadsBack records lines)
    (hcanonical : ∀ record ∈ records, record.Canonical) :
    ∃ ds, ds.map (·.record) = records ∧
      TranscriptV1.parse serde (lines.map (· ++ [10])).flatten =
        foldRecords serde.compute ds := by
  obtain ⟨ds, hds, hrecords⟩ := decodeLines_of_readsBack h hcanonical 1
  have hlines : ∀ line ∈ lines, 10 ∉ line := by
    intro line hline
    obtain ⟨record, -, hback⟩ := forall₂_mem_right h hline
    exact hback.oneLine
  refine ⟨ds, hrecords, ?_⟩
  unfold TranscriptV1.parse
  rw [readLines_flatten hlines, hds]
  rfl

end

end Summoners
