import Mathlib.Data.List.Basic

/-! # Journals

Records written one after the other by an encoder that can fail, to a medium that can give up in the
middle of a record. The definitions and rules are over arbitrary records, bytes and errors.

* `Encodes` is a journal of complete records, `Torn` one whose last record may be cut short.
* `Encodes.append` and `Encodes.append_torn` put journals together.
* `eq_of_mem_of_prefix` finds all of a plan in a part of it that has its last record.
-/

namespace Checked
set_option autoImplicit false

variable {ε ω β : Type}

/-- The bytes of the records, one after the other. -/
inductive Encodes (enc : ω → Except ε (List β)) : List ω → List β → Prop
  | nil : Encodes enc [] []
  | cons {record : ω} {bytes : List β} {records : List ω} {rest : List β}
      (h : enc record = .ok bytes) (hrest : Encodes enc records rest) :
      Encodes enc (record :: records) (bytes ++ rest)

/-- The same, of the last record perhaps only a part. -/
inductive Torn (enc : ω → Except ε (List β)) : List ω → List β → Prop
  | nil : Torn enc [] []
  | cut {record : ω} {bytes part : List β} (h : enc record = .ok bytes) (hpart : part <+: bytes) :
      Torn enc [record] part
  | cons {record : ω} {bytes : List β} {records : List ω} {rest : List β}
      (h : enc record = .ok bytes) (hrest : Torn enc records rest) :
      Torn enc (record :: records) (bytes ++ rest)

section
variable {enc : ω → Except ε (List β)} {records records' : List ω} {bytes bytes' : List β}

theorem Encodes.torn (h : Encodes enc records bytes) : Torn enc records bytes := by
  induction h with
  | nil => exact .nil
  | cons h _ ih => exact .cons h ih

theorem Encodes.append (h : Encodes enc records bytes) (h' : Encodes enc records' bytes') :
    Encodes enc (records ++ records') (bytes ++ bytes') := by
  induction h with
  | nil => exact h'
  | cons h _ ih =>
      rw [List.append_assoc]
      exact .cons h ih

theorem Encodes.append_torn (h : Encodes enc records bytes) (h' : Torn enc records' bytes') :
    Torn enc (records ++ records') (bytes ++ bytes') := by
  induction h with
  | nil => exact h'
  | cons h _ ih =>
      rw [List.append_assoc]
      exact .cons h ih

theorem Encodes.single {record : ω} (h : enc record = .ok bytes) : Encodes enc [record] bytes := by
  have hcons := Encodes.cons h .nil
  rwa [List.append_nil] at hcons

end

/-- A part of a plan that has a record only the end of the plan has is the whole plan. -/
theorem eq_of_mem_of_prefix {P : ω → Prop} {attempted front : List ω} {last record : ω}
    (h : attempted <+: front ++ [last]) (hfront : ∀ r ∈ front, ¬P r) (hmem : record ∈ attempted)
    (hP : P record) : attempted = front ++ [last] ∧ record = last := by
  have hwhole : attempted = front ++ [last] := by
    rcases List.prefix_concat_iff.mp h with heq | hwithin
    · exact heq
    · exact absurd hP (hfront record (hwithin.mem hmem))
  refine ⟨hwhole, ?_⟩
  rw [hwhole, List.mem_append, List.mem_singleton] at hmem
  rcases hmem with hmem | rfl
  · exact absurd hP (hfront record hmem)
  · rfl

end Checked
