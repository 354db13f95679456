import Summoners.MatchLog.EventWire
import Summoners.MatchLog.Parse

/-! # Canonical records pass the canonical check

`validate_canonical_values` walks a value and looks at four field names. A record whose ids and
digests are canonical passes it, as the names stand at these texts only.
-/

namespace Summoners
set_option autoImplicit false
open Checked

/-- What a field name asks is met. -/
def NamedCanonical (name : String) (child : JsonValue) : Prop :=
  ∀ text, child.asStr = some text →
    (name = "ability" ∨ name = "definition" ∨ name = "entity" →
      (EntityIdV1.mk text).isCanonical = true) ∧
    (name = "state_digest" → isDigestText text = true)

theorem validateNamed_ok_iff {name path : String} {child : JsonValue} {context : ParseContext}
    {u : Unit} : validateNamed name child path context = .ok u ↔ NamedCanonical name child := by
  unfold validateNamed NamedCanonical
  cases child.asStr with
  | none => simp
  | some text =>
      simp only [Option.some.injEq, forall_eq']
      split_ifs with hid hdigest
      · have hne : name ≠ "state_digest" := by
          rintro rfl
          simp at hid
        simp [validateEntityId, hid, hne]
      · subst hdigest
        simp [validateDigest]
      · simp [hid, hdigest]

mutual

/-- Every field named for an id or a digest holds a canonical one, at any depth. -/
def CanonicalJson : JsonValue → Prop
  | .object fields => CanonicalFields fields
  | .array values => CanonicalItems values
  | .null | .bool _ | .number _ | .string _ => True

def CanonicalFields : List (String × JsonValue) → Prop
  | [] => True
  | (name, child) :: fields =>
      NamedCanonical name child ∧ CanonicalJson child ∧ CanonicalFields fields

def CanonicalItems : List JsonValue → Prop
  | [] => True
  | child :: values => CanonicalJson child ∧ CanonicalItems values

end

mutual

theorem validateCanonicalValues_ok_iff (value : JsonValue) (path : String)
    (context : ParseContext) :
    validateCanonicalValues path context value = .ok () ↔ CanonicalJson value := by
  cases value with
  | object fields =>
      rw [validateCanonicalValues, CanonicalJson]
      exact validateFields_ok_iff fields path context
  | array values =>
      rw [validateCanonicalValues, CanonicalJson]
      exact validateItems_ok_iff values path context 0
  | null => simp [validateCanonicalValues, CanonicalJson]
  | bool value => simp [validateCanonicalValues, CanonicalJson]
  | number value => simp [validateCanonicalValues, CanonicalJson]
  | string value => simp [validateCanonicalValues, CanonicalJson]

theorem validateFields_ok_iff (fields : List (String × JsonValue)) (path : String)
    (context : ParseContext) :
    validateFields path context fields = .ok () ↔ CanonicalFields fields := by
  match fields with
  | [] => simp [validateFields, CanonicalFields]
  | (name, child) :: fields =>
      rw [validateFields, CanonicalFields]
      rw [check_ok_iff, check_ok_iff, validateNamed_ok_iff,
        validateCanonicalValues_ok_iff child (joinPath path name) context,
        validateFields_ok_iff fields path context]

theorem validateItems_ok_iff (values : List JsonValue) (path : String) (context : ParseContext)
    (index : ℕ) : validateItems path context index values = .ok () ↔ CanonicalItems values := by
  match values with
  | [] => simp [validateItems, CanonicalItems]
  | child :: values =>
      rw [validateItems, CanonicalItems]
      rw [check_ok_iff, validateItems_ok_iff values path context (index + 1),
        validateCanonicalValues_ok_iff child (path ++ "[" ++ toString index ++ "]") context]

end

section
variable {fields : List (String × JsonValue)} {values : List JsonValue} {text : String}

theorem canonicalFields_iff :
    CanonicalFields fields ↔ ∀ f ∈ fields, NamedCanonical f.1 f.2 ∧ CanonicalJson f.2 := by
  induction fields with
  | nil => simp [CanonicalFields]
  | cons f fields ih =>
      obtain ⟨name, child⟩ := f
      rw [CanonicalFields, ih, List.forall_mem_cons, and_assoc]

@[simp] theorem canonicalJson_array :
    CanonicalJson (.array values) ↔ ∀ v ∈ values, CanonicalJson v := by
  rw [CanonicalJson]
  induction values with
  | nil => simp [CanonicalItems]
  | cons v values ih => rw [CanonicalItems, ih, List.forall_mem_cons]

@[simp] theorem canonicalJson_string : CanonicalJson (.string text) := by
  simp only [CanonicalJson]

@[simp] theorem canonicalJson_bool {b : Bool} : CanonicalJson (.bool b) := by
  simp only [CanonicalJson]

@[simp] theorem canonicalJson_nat {n : ℕ} : CanonicalJson (.nat n) := by
  simp only [JsonValue.nat, CanonicalJson]

@[simp] theorem canonicalJson_optional {α : Type} {toJson : α → JsonValue} {o : Option α} :
    CanonicalJson (.optional toJson o) ↔ ∀ a ∈ o, CanonicalJson (toJson a) := by
  cases o with
  | none => simp [JsonValue.optional, CanonicalJson]
  | some a => simp [JsonValue.optional]

@[simp] theorem canonicalJson_ofFields : CanonicalJson (.ofFields fields) ↔
    ∀ f ∈ fields, NamedCanonical f.1 f.2 ∧ CanonicalJson f.2 := by
  rw [JsonValue.ofFields, CanonicalJson, canonicalFields_iff]
  simp only [JsonValue.mem_ofFields]

@[simp] theorem canonicalJson_ofKind : CanonicalJson (.ofKind text fields) ↔
    ∀ f ∈ fields, NamedCanonical f.1 f.2 ∧ CanonicalJson f.2 := by
  rw [JsonValue.ofKind, canonicalJson_ofFields, List.forall_mem_cons]
  simp [NamedCanonical]

end

/-! ## Values without ids -/

section

@[simp] theorem PositionV1.canonicalJson (w : PositionV1) : CanonicalJson w.toJson := by
  cases w <;>
    simp [NamedCanonical, PositionV1.toJson, BenchSlotV1.toJson]

@[simp] theorem SummonTurnRecordV1.canonicalJson (w : SummonTurnRecordV1) : CanonicalJson w.toJson := by
  simp [NamedCanonical, SummonTurnRecordV1.toJson, UpgradeActivityV1.toJson]

@[simp] theorem ManaBankV1.canonicalJson (w : ManaBankV1) : CanonicalJson w.toJson := by
  simp [NamedCanonical, ManaBankV1.toJson]

@[simp] theorem PerPlayerBoolV1.canonicalJson (w : PerPlayerBoolV1) : CanonicalJson w.toJson := by
  simp [NamedCanonical, PerPlayerBoolV1.toJson]

@[simp] theorem StackWindowV1.canonicalJson (w : StackWindowV1) : CanonicalJson w.toJson := by
  simp [NamedCanonical, StackWindowV1.toJson, PlayerIdV1.toJson]

@[simp] theorem TurnStateV1.canonicalJson (w : TurnStateV1) : CanonicalJson w.toJson := by
  simp [NamedCanonical, TurnStateV1.toJson, PlayerIdV1.toJson, PhaseV1.toJson]

@[simp] theorem ManaSourceV1.canonicalJson (w : ManaSourceV1) : CanonicalJson w.toJson := by
  cases w <;>
    simp [NamedCanonical, ManaSourceV1.toJson]

@[simp] theorem PendingInputV1.canonicalJson (w : PendingInputV1) : CanonicalJson w.toJson := by
  cases w <;>
    simp [NamedCanonical, PendingInputV1.toJson, PlayerIdV1.toJson]

@[simp] theorem GameOutcomeV1.canonicalJson (w : GameOutcomeV1) : CanonicalJson w.toJson := by
  simp [NamedCanonical, GameOutcomeV1.toJson, PlayerIdV1.toJson, LossReasonV1.toJson]

@[simp] theorem DamageConstraintsV1.canonicalJson (w : DamageConstraintsV1) : CanonicalJson w.toJson := by
  simp [NamedCanonical, DamageConstraintsV1.toJson]

@[simp] theorem DamageAdditionV1.canonicalJson (w : DamageAdditionV1) : CanonicalJson w.toJson := by
  simp [NamedCanonical, DamageAdditionV1.toJson, EffectConditionV1.toJson]

@[simp] theorem DamageEffectV1.canonicalJson (w : DamageEffectV1) : CanonicalJson w.toJson := by
  simp [NamedCanonical, DamageEffectV1.toJson]

@[simp] theorem EffectLeafV1.canonicalJson (w : EffectLeafV1) : CanonicalJson w.toJson := by
  cases w <;>
    simp [NamedCanonical, EffectLeafV1.toJson, EffectTargetV1.toJson, EffectConditionV1.toJson,
      ResponseBlockV1.toJson]

@[simp] theorem ErrorV1.canonicalJson (w : ErrorV1) : CanonicalJson w.toJson := by
  cases w <;>
    simp [NamedCanonical, ErrorV1.toJson]

@[simp] theorem DamageOperationV1.canonicalJson (w : DamageOperationV1) : CanonicalJson w.toJson := by
  cases w <;>
    simp [NamedCanonical, DamageOperationV1.toJson]

@[simp] theorem BattlefieldTargetV1.canonicalJson (w : BattlefieldTargetV1) : CanonicalJson w.toJson := by
  simp [NamedCanonical, BattlefieldTargetV1.toJson, PlayerIdV1.toJson]

@[simp] theorem SetRequirementV1.canonicalJson (w : SetRequirementV1) : CanonicalJson w.toJson := by
  simp [NamedCanonical, SetRequirementV1.toJson]

end

/-! ## Values with ids -/

@[simp] theorem CardRefV1.canonicalJson {w : CardRefV1} (h : CanonicalIds w.entityIds) :
    CanonicalJson w.toJson := by
  simp only [entityIds, canonicalIds_cons] at h
  simp [NamedCanonical, CardRefV1.toJson, EntityIdV1.toJson, JsonValue.asStr, h.1]

theorem cardRefs_canonicalJson {ws : List CardRefV1} (h : CanonicalIds (cardRefIds ws)) :
    ∀ w ∈ ws, CanonicalJson w.toJson := by
  intro w hw
  exact CardRefV1.canonicalJson (canonicalIds_flatMap.mp h w hw)

theorem SummonInstanceV1.canonicalJson {w : SummonInstanceV1} (h : CanonicalIds w.entityIds) :
    CanonicalJson w.toJson := by
  have hlayers : ∀ c ∈ w.chain.layers, CanonicalJson c.toJson := cardRefs_canonicalJson h
  simp only [toJson, UpgradeChainV1.toJson, canonicalJson_ofFields]
  simp [NamedCanonical, ReadinessV1.toJson, PlayerIdV1.toJson, DurationMarkerV1.toJson]
  exact hlayers

theorem slot_canonicalJson {w : Option SummonInstanceV1} (h : CanonicalIds (slotIds w)) :
    CanonicalJson (.optional SummonInstanceV1.toJson w) := by
  rw [canonicalJson_optional]
  intro x hx
  exact SummonInstanceV1.canonicalJson (canonicalIds_flatMap.mp h x (Option.mem_toList.mpr hx))

theorem BenchV1.canonicalJson {w : BenchV1} (h : CanonicalIds w.entityIds) :
    CanonicalJson w.toJson := by
  simp only [entityIds, canonicalIds_append] at h
  obtain ⟨⟨h₁, h₂⟩, h₃⟩ := h
  simp only [toJson, canonicalJson_array, List.forall_mem_map, List.forall_mem_cons]
  exact ⟨slot_canonicalJson h₁, slot_canonicalJson h₂, slot_canonicalJson h₃, by simp⟩

theorem PlayerStateV1.canonicalJson {w : PlayerStateV1} (h : CanonicalIds w.entityIds) :
    CanonicalJson w.toJson := by
  simp only [entityIds, canonicalIds_append] at h
  obtain ⟨⟨⟨⟨⟨⟨h₁, h₂⟩, h₃⟩, h₄⟩, h₅⟩, h₆⟩, h₇⟩ := h
  have hmain := slot_canonicalJson h₁
  have hbench := BenchV1.canonicalJson h₂
  have hcards : ∀ ws, CanonicalIds (cardRefIds ws) →
      CanonicalJson (.array (ws.map CardRefV1.toJson)) := by
    intro ws hws
    simpa using cardRefs_canonicalJson hws
  simp only [toJson, canonicalJson_ofFields, List.forall_mem_cons, hmain, hbench, hcards _ h₃,
    hcards _ h₄, hcards _ h₅, hcards _ h₆, hcards _ h₇]
  simp [NamedCanonical]

theorem GameStatusV1.canonicalJson {w : GameStatusV1} (h : CanonicalIds w.entityIds) :
    CanonicalJson w.toJson := by
  cases w with
  | playing => simp [toJson]
  | ended outcome => simp [NamedCanonical, toJson]
  | broken breakage =>
      simp only [entityIds, canonicalIds_cons] at h
      simp [NamedCanonical, toJson, BreakageV1.toJson, EntityIdV1.toJson, ComponentKindV1.toJson,
        JsonValue.asStr, h.1]

theorem StackItemV1.canonicalJson {w : StackItemV1} (h : CanonicalIds w.entityIds) :
    CanonicalJson w.toJson := by
  cases w with
  | attack attacker target => simp [NamedCanonical, toJson, PlayerIdV1.toJson]
  | spell caster card targets =>
      simp [NamedCanonical, toJson, PlayerIdV1.toJson, CardRefV1.canonicalJson h]
  | trigger controller source ability event targets effects =>
      simp only [entityIds, canonicalIds_cons] at h
      simp [NamedCanonical, toJson, PlayerIdV1.toJson, EntityIdV1.toJson, TriggerEventV1.toJson,
        JsonValue.asStr, h.1]

theorem WorkItemV1.canonicalJson {w : WorkItemV1} (h : CanonicalIds w.entityIds) :
    CanonicalJson w.toJson := by
  cases w
  case fireTrigger player position event ability =>
    simp only [entityIds, canonicalIds_cons] at h
    simp [NamedCanonical, toJson, PlayerIdV1.toJson, EntityIdV1.toJson, TriggerEventV1.toJson,
      JsonValue.asStr, h.1]
  all_goals simp [NamedCanonical, toJson, PlayerIdV1.toJson, MovementStepV1.toJson]

theorem StateProjectionV1.canonicalJson {w : StateProjectionV1} (h : CanonicalIds w.entityIds) :
    CanonicalJson w.toJson := by
  simp only [entityIds, canonicalIds_append, canonicalIds_flatMap] at h
  obtain ⟨⟨⟨⟨hone, htwo⟩, hstack⟩, hwork⟩, hstatus⟩ := h
  have hplayers : CanonicalJson w.players.toJson := by
    simp [NamedCanonical, PlayersV1.toJson, PlayerStateV1.canonicalJson hone,
      PlayerStateV1.canonicalJson htwo]
  have hitems : ∀ item ∈ w.stack, CanonicalJson item.toJson :=
    fun item hitem => StackItemV1.canonicalJson (hstack item hitem)
  have hqueue : ∀ item ∈ w.work, CanonicalJson item.toJson :=
    fun item hitem => WorkItemV1.canonicalJson (hwork item hitem)
  simp only [toJson, canonicalJson_ofFields, List.forall_mem_cons, hplayers, canonicalJson_array,
    List.forall_mem_map, GameStatusV1.canonicalJson hstatus]
  simp [NamedCanonical]
  exact ⟨hitems, hqueue⟩

theorem ActionV1.canonicalJson {w : ActionV1} (h : CanonicalIds w.entityIds) :
    CanonicalJson w.toJson := by
  cases w
  case activateSkill player position ability targets manaHint =>
    simp only [entityIds, canonicalIds_cons] at h
    simp [NamedCanonical, toJson, PlayerIdV1.toJson, EntityIdV1.toJson, ManaTypeV1.toJson,
      JsonValue.asStr, h.1]
  all_goals
    simp [NamedCanonical, toJson, PlayerIdV1.toJson, BenchSlotV1.toJson, ManaTypeV1.toJson]

theorem DamageContextV1.canonicalJson {w : DamageContextV1} (h : CanonicalIds w.entityIds) :
    CanonicalJson w.toJson := by
  obtain ⟨source, target⟩ := w
  cases source <;>
    simp only [entityIds, DamageSourceV1.entityIds, canonicalIds_cons] at h <;>
    simp [NamedCanonical, toJson, DamageSourceV1.toJson, PlayerIdV1.toJson, EntityIdV1.toJson,
      JsonValue.asStr, h.1]

theorem DamageOriginV1.canonicalJson {w : DamageOriginV1} (h : CanonicalIds w.entityIds) :
    CanonicalJson w.toJson := by
  cases w with
  | printedAbility ability =>
      simp only [entityIds, canonicalIds_cons] at h
      simp [NamedCanonical, toJson, EntityIdV1.toJson, JsonValue.asStr, h.1]
  | persistentCard card => simp [NamedCanonical, toJson]

theorem EventV1.canonicalJson {w : EventV1} (h : CanonicalIds w.entityIds) :
    CanonicalJson w.toJson := by
  cases w
  case skillActivated | triggerFired =>
    simp only [entityIds, canonicalIds_cons] at h
    simp [NamedCanonical, toJson, PlayerIdV1.toJson, EntityIdV1.toJson, TriggerEventV1.toJson,
      JsonValue.asStr, h.1]
  case stackItemResolved item =>
    have hitem : CanonicalJson item.toJson := StackItemV1.canonicalJson h
    simp [NamedCanonical, toJson, hitem]
  case damageCalculationStarted | damageApplied =>
    simp [NamedCanonical, toJson, DamageContextV1.canonicalJson h]
  case damageAdjustmentApplied | damageAdjustmentSkipped =>
    simp only [entityIds, canonicalIds_append] at h
    simp [NamedCanonical, toJson, DamageContextV1.canonicalJson h.1,
      DamageOriginV1.canonicalJson h.2, DamageStageV1.toJson, DamageConstraintV1.toJson]
  all_goals
    simp [NamedCanonical, toJson, PlayerIdV1.toJson, BenchSlotV1.toJson, ManaTypeV1.toJson,
      LossReasonV1.toJson]

end Summoners
