import Summoners.Proof.FirstDifference

/-! # The JSON form tells values apart

Two wire values are written as equal JSON only if they are equal; of two headers the metadata may
still differ as Lean values, where a zero has another sign.
-/

namespace Summoners
set_option autoImplicit false
open Checked

namespace JsonValue

/-- Different values of a type are written as different JSON. -/
def Tells {α : Type} (toJson : α → JsonValue) : Prop :=
  ∀ a b, (toJson a).eq (toJson b) = true ↔ a = b

section
variable {fields fields' : List (String × JsonValue)}

/-- Values of the same fields are compared field by field. -/
theorem ofFields_eq_iff (hkeys : fields.map Prod.fst = fields'.map Prod.fst)
    (hdistinct : (fields.map Prod.fst).Nodup) :
    (ofFields fields).eq (ofFields fields') = true ↔
      EntryWise (fun a b => a.eq b = true) fields fields' := by
  have hdistinct' : KeysDistinct fields' := by
    unfold KeysDistinct
    rwa [← hkeys]
  unfold ofFields
  rw [eq, eqFields_iff]
  constructor
  · intro h
    have hsame := (entryWise_sortKeys_iff hdistinct hdistinct').mp h
    refine entryWise_of_keys hkeys fun key x y hx hy => ?_
    obtain ⟨y', hy', hrel⟩ := hsame.related key x hx
    rwa [KeysDistinct.unique hdistinct' hy hy']
  · intro h
    exact (entryWise_sortKeys_iff hdistinct hdistinct').mpr (.of_entryWise h)

/-- Equal values have equal fields under one name. -/
theorem get_eq_of_eq {v v' : JsonValue} {name : String} {w w' : JsonValue} (h : v.eq v' = true)
    (hget : v.get name = some w) (hget' : v'.get name = some w') : w.eq w' = true := by
  cases v
  case object fields =>
    cases v'
    case object fields' =>
      rw [eq, eqFields_iff] at h
      simp only [get] at hget hget'
      induction h with
      | nil => cases hget
      | @cons f f' fs fs' hhead htail ih =>
          rw [List.find?_cons] at hget hget'
          rw [← hhead.1] at hget'
          by_cases hname : f.1 = name
          · simp only [hname, decide_true, Option.map_some, Option.some.injEq] at hget hget'
            rw [← hget, ← hget']
            exact hhead.2
          · simp only [hname, decide_false] at hget hget'
            exact ih hget hget'
    all_goals cases hget'
  all_goals cases hget

@[simp] theorem get_ofKind {kind : String} (h : ∀ f ∈ fields, f.1 ≠ "kind") :
    (ofKind kind fields).get "kind" = some (.string kind) := by
  unfold ofKind
  refine get_ofFields List.mem_cons_self ?_
  intro f hf hname
  rcases List.mem_cons.mp hf with rfl | hf
  · rfl
  · exact absurd hname (h f hf)

@[simp] theorem string_eq {text text' : String} :
    (JsonValue.string text).eq (.string text') = true ↔ text = text' := by
  rw [eq, beq_iff_eq]

@[simp] theorem bool_eq {b b' : Bool} : (JsonValue.bool b).eq (.bool b') = true ↔ b = b' := by
  rw [eq, beq_iff_eq]

@[simp] theorem nat_eq {n n' : ℕ} : (nat n).eq (nat n') = true ↔ n = n' := by
  rw [nat, nat, eq, JsonNumber.eq, beq_iff_eq]

/-- Values of one kind are compared field by field. -/
theorem ofKind_eq_iff {kind : String} (hkeys : fields.map Prod.fst = fields'.map Prod.fst)
    (hdistinct : ("kind" :: fields.map Prod.fst).Nodup) :
    (ofKind kind fields).eq (ofKind kind fields') = true ↔
      EntryWise (fun a b => a.eq b = true) fields fields' := by
  have hkeys' : (("kind", .string kind) :: fields).map Prod.fst =
      (("kind", .string kind) :: fields').map (Prod.fst (β := JsonValue)) := by
    rw [List.map_cons, List.map_cons, hkeys]
  rw [ofKind, ofKind, ofFields_eq_iff hkeys' hdistinct, EntryWise, List.forall₂_cons]
  simp

end

section
variable {α : Type} {toJson : α → JsonValue}

theorem Tells.list (h : Tells toJson) {as bs : List α} :
    (JsonValue.array (as.map toJson)).eq (.array (bs.map toJson)) = true ↔ as = bs := by
  rw [eq, eqItems_iff, List.forall₂_map_left_iff, List.forall₂_map_right_iff]
  simp only [h _ _]
  rw [List.forall₂_eq_eq_eq]

theorem Tells.optional (h : Tells toJson) (hnull : ∀ a, toJson a ≠ .null) {a b : Option α} :
    (JsonValue.optional toJson a).eq (JsonValue.optional toJson b) = true ↔ a = b := by
  cases a with
  | none =>
      cases b with
      | none => simp [JsonValue.optional, eq]
      | some b =>
          have hb := hnull b
          cases hj : toJson b <;> simp_all [JsonValue.optional, eq]
  | some a =>
      cases b with
      | none =>
          have ha := hnull a
          cases hj : toJson a <;> simp_all [JsonValue.optional, eq]
      | some b => simp [JsonValue.optional, h a b]

end

/-- Variants are told apart by their kinds, and the values of one kind by their fields. -/
theorem tells_of_kinds {α : Type} {toJson : α → JsonValue} (index : α → ℕ) (kinds : List String)
    (hnodup : kinds.Nodup)
    (hkinds : ∀ a, ∃ kind, kinds[index a]? = some kind ∧
      (toJson a).get "kind" = some (.string kind))
    (hsame : ∀ a b, index a = index b → ((toJson a).eq (toJson b) = true ↔ a = b)) :
    Tells toJson := by
  intro a b
  constructor
  · intro h
    refine (hsame a b ?_).mp h
    obtain ⟨kind, hkind, hget⟩ := hkinds a
    obtain ⟨kind', hkind', hget'⟩ := hkinds b
    have heq : kind = kind' := string_eq.mp (get_eq_of_eq h hget hget')
    obtain ⟨hlt, -⟩ := List.getElem?_eq_some_iff.mp hkind
    exact (List.getElem?_inj hlt hnodup).mp (by rw [hkind, hkind', heq])
  · rintro rfl
    exact (hsame a a rfl).mpr rfl

theorem nat_tells : Tells nat := by
  intro n n'
  exact nat_eq

theorem u32_tells : Tells (fun n : UInt32 => nat n.toNat) := by
  intro n n'
  rw [nat_eq, UInt32.toNat_inj]

end JsonValue

open JsonValue

/-! ## Summons and players -/

theorem EntityIdV1.tells : Tells EntityIdV1.toJson := by
  rintro ⟨a⟩ ⟨b⟩
  simp [toJson]

theorem PlayerIdV1.tells : Tells PlayerIdV1.toJson := by
  intro a b
  cases a <;> cases b <;> simp [toJson]

theorem BenchSlotV1.tells : Tells BenchSlotV1.toJson := by
  intro a b
  cases a <;> cases b <;> simp [toJson]

theorem PositionV1.tells : Tells PositionV1.toJson := by
  apply tells_of_kinds PositionV1.ctorIdx
    ["main", "bench"] (by decide)
  · intro a
    cases a <;> exact ⟨_, rfl, get_ofKind (by simp)⟩
  · intro a b hindex
    cases a <;> cases b <;> cases hindex <;> simp [toJson, ofKind_eq_iff, BenchSlotV1.tells _ _]

theorem ManaTypeV1.tells : Tells ManaTypeV1.toJson := by
  intro a b
  cases a <;> cases b <;> simp [toJson]

theorem CardRefV1.tells : Tells CardRefV1.toJson := by
  rintro ⟨a, i⟩ ⟨b, j⟩
  simp [toJson, ofFields_eq_iff, EntityIdV1.tells _ _, UInt32.toNat_inj]

theorem UpgradeChainV1.tells : Tells UpgradeChainV1.toJson := by
  rintro ⟨a⟩ ⟨b⟩
  simp [toJson, ofFields_eq_iff, CardRefV1.tells.list]

theorem DurationMarkerV1.tells : Tells DurationMarkerV1.toJson := by
  rintro ⟨⟩ ⟨⟩
  simp [toJson]

theorem UpgradeActivityV1.tells : Tells UpgradeActivityV1.toJson := by
  intro a b
  cases a <;> cases b <;> simp [toJson]

theorem SummonTurnRecordV1.tells : Tells SummonTurnRecordV1.toJson := by
  rintro ⟨a, i⟩ ⟨b, j⟩
  simp [toJson, ofFields_eq_iff, UpgradeActivityV1.tells _ _]

theorem ReadinessV1.tells : Tells ReadinessV1.toJson := by
  intro a b
  cases a <;> cases b <;> simp [toJson]

theorem SummonInstanceV1.tells : Tells SummonInstanceV1.toJson := by
  rintro ⟨⟩ ⟨⟩
  simp [toJson, ofFields_eq_iff, UpgradeChainV1.tells _ _, ReadinessV1.tells _ _,
    PlayerIdV1.tells _ _, DurationMarkerV1.tells.list, SummonTurnRecordV1.tells _ _,
    UInt32.toNat_inj]

theorem ManaBankV1.tells : Tells ManaBankV1.toJson := by
  rintro ⟨⟩ ⟨⟩
  simp [toJson, ofFields_eq_iff, UInt32.toNat_inj]

theorem SummonInstanceV1.toJson_ne_null (w : SummonInstanceV1) : w.toJson ≠ .null := by
  simp [toJson, ofFields]

theorem BenchV1.tells : Tells BenchV1.toJson := by
  rintro ⟨a₁, a₂, a₃⟩ ⟨b₁, b₂, b₃⟩
  simp [toJson, eq, eqItems, SummonInstanceV1.tells.optional SummonInstanceV1.toJson_ne_null]

theorem PlayerStateV1.tells : Tells PlayerStateV1.toJson := by
  rintro ⟨⟩ ⟨⟩
  simp [toJson, ofFields_eq_iff, SummonInstanceV1.tells.optional SummonInstanceV1.toJson_ne_null,
    BenchV1.tells _ _, CardRefV1.tells.list, ManaBankV1.tells _ _, UInt8.toNat_inj]

theorem PlayersV1.tells : Tells PlayersV1.toJson := by
  rintro ⟨⟩ ⟨⟩
  simp [toJson, ofFields_eq_iff, PlayerStateV1.tells _ _]

/-! ## Turn, decisions and outcome -/

theorem PerPlayerBoolV1.tells : Tells PerPlayerBoolV1.toJson := by
  rintro ⟨⟩ ⟨⟩
  simp [toJson, ofFields_eq_iff]

theorem StackWindowV1.tells : Tells StackWindowV1.toJson := by
  rintro ⟨⟩ ⟨⟩
  simp [toJson, ofFields_eq_iff, PlayerIdV1.tells _ _]

theorem StackWindowV1.toJson_ne_null (w : StackWindowV1) : w.toJson ≠ .null := by
  simp [toJson, ofFields]

theorem PhaseV1.tells : Tells PhaseV1.toJson := by
  intro a b
  cases a <;> cases b <;> simp [toJson]

theorem TurnStateV1.tells : Tells TurnStateV1.toJson := by
  rintro ⟨⟩ ⟨⟩
  simp [toJson, ofFields_eq_iff, PlayerIdV1.tells _ _, PhaseV1.tells _ _,
    StackWindowV1.tells.optional StackWindowV1.toJson_ne_null, PerPlayerBoolV1.tells _ _]

theorem ManaSourceV1.tells : Tells ManaSourceV1.toJson := by
  apply tells_of_kinds ManaSourceV1.ctorIdx
    ["player", "summon"] (by decide)
  · intro a
    cases a <;> exact ⟨_, rfl, get_ofKind (by simp)⟩
  · intro a b hindex
    cases a <;> cases b <;> cases hindex <;> simp [toJson, ofKind_eq_iff, PositionV1.tells _ _]

theorem PendingInputV1.tells : Tells PendingInputV1.toJson := by
  apply tells_of_kinds PendingInputV1.ctorIdx
    ["mana_production", "promotion", "prize_pick"] (by decide)
  · intro a
    cases a <;> exact ⟨_, rfl, get_ofKind (by simp)⟩
  · intro a b hindex
    cases a <;> cases b <;> cases hindex <;> simp [toJson, ofKind_eq_iff, PlayerIdV1.tells _ _,
      ManaSourceV1.tells _ _]

theorem PendingInputV1.toJson_ne_null (w : PendingInputV1) : w.toJson ≠ .null := by
  cases w <;> simp [toJson, ofKind, ofFields]

theorem LossReasonV1.tells : Tells LossReasonV1.toJson := by
  intro a b
  cases a <;> cases b <;> simp [toJson]

theorem GameOutcomeV1.tells : Tells GameOutcomeV1.toJson := by
  rintro ⟨⟩ ⟨⟩
  simp [toJson, ofFields_eq_iff, PlayerIdV1.tells _ _, LossReasonV1.tells _ _]

theorem ComponentKindV1.tells : Tells ComponentKindV1.toJson := by
  intro a b
  cases a <;> cases b <;> simp [toJson]

theorem BreakageV1.tells : Tells BreakageV1.toJson := by
  rintro ⟨⟩ ⟨⟩
  simp [toJson, ofFields_eq_iff, EntityIdV1.tells _ _, ComponentKindV1.tells _ _]

theorem GameStatusV1.tells : Tells GameStatusV1.toJson := by
  apply tells_of_kinds GameStatusV1.ctorIdx
    ["playing", "ended", "broken"] (by decide)
  · intro a
    cases a <;> exact ⟨_, rfl, get_ofKind (by simp)⟩
  · intro a b hindex
    cases a <;> cases b <;> cases hindex <;> simp [toJson, ofKind_eq_iff, GameOutcomeV1.tells _ _,
      BreakageV1.tells _ _]

/-! ## Effects, the Stack and the work queue -/

theorem TriggerEventV1.tells : Tells TriggerEventV1.toJson := by
  intro a b
  cases a <;> cases b <;> simp [toJson]

theorem EffectConditionV1.tells : Tells EffectConditionV1.toJson := by
  intro a b
  cases a <;> cases b <;> simp [toJson]

theorem EffectTargetV1.tells : Tells EffectTargetV1.toJson := by
  intro a b
  cases a <;> cases b <;> simp [toJson]

theorem DamageConstraintsV1.tells : Tells DamageConstraintsV1.toJson := by
  rintro ⟨⟩ ⟨⟩
  simp [toJson, ofFields_eq_iff]

theorem DamageAdditionV1.tells : Tells DamageAdditionV1.toJson := by
  rintro ⟨⟩ ⟨⟩
  simp [toJson, ofFields_eq_iff, EffectConditionV1.tells _ _, UInt32.toNat_inj]

theorem DamageEffectV1.tells : Tells DamageEffectV1.toJson := by
  rintro ⟨⟩ ⟨⟩
  simp [toJson, ofFields_eq_iff, DamageConstraintsV1.tells _ _, DamageAdditionV1.tells.list,
    UInt32.toNat_inj]

theorem ResponseBlockV1.tells : Tells ResponseBlockV1.toJson := by
  rintro ⟨⟩ ⟨⟩
  simp [toJson]

theorem EffectLeafV1.tells : Tells EffectLeafV1.toJson := by
  apply tells_of_kinds EffectLeafV1.ctorIdx
    ["deal_damage", "heal", "move_summon", "swap_positions", "block_responses",
      "return_spell_from_discard", "look_at_prizes", "draw_cards", "return_spell_to_deck_top",
      "produce_mana", "cannot_be_moved_by_opponent", "ready_summon", "swap_opposing_positions"] (by decide)
  · intro a
    cases a <;> exact ⟨_, rfl, get_ofKind (by simp)⟩
  · intro a b hindex
    cases a <;> cases b <;> cases hindex <;> simp [toJson, ofKind_eq_iff,
      DamageEffectV1.tells _ _, EffectTargetV1.tells _ _, EffectConditionV1.tells _ _,
      ResponseBlockV1.tells _ _, UInt32.toNat_inj]

theorem StackItemV1.tells : Tells StackItemV1.toJson := by
  apply tells_of_kinds StackItemV1.ctorIdx
    ["attack", "spell", "trigger"] (by decide)
  · intro a
    cases a <;> exact ⟨_, rfl, get_ofKind (by simp)⟩
  · intro a b hindex
    cases a <;> cases b <;> cases hindex <;> simp [toJson, ofKind_eq_iff, PlayerIdV1.tells _ _,
      PositionV1.tells _ _, CardRefV1.tells _ _, PositionV1.tells.list, EntityIdV1.tells _ _,
      TriggerEventV1.tells _ _, EffectLeafV1.tells.list]

theorem MovementStepV1.tells : Tells MovementStepV1.toJson := by
  intro a b
  cases a <;> cases b <;> simp [toJson]

theorem WorkItemV1.tells : Tells WorkItemV1.toJson := by
  apply tells_of_kinds WorkItemV1.ctorIdx
    ["destruction_check", "discard_destroyed_chain", "record_main_loss", "recover_prize",
      "promote_bench_summon", "resolve_movement_consequences", "movement_trigger", "fire_trigger",
      "loss_check", "ready_all", "draw_card", "produce_mana", "begin_main_phase"] (by decide)
  · intro a
    cases a <;> exact ⟨_, rfl, get_ofKind (by simp)⟩
  · intro a b hindex
    cases a <;> cases b <;> cases hindex <;> simp [toJson, ofKind_eq_iff, PositionV1.tells _ _,
      PlayerIdV1.tells _ _, MovementStepV1.tells _ _, TriggerEventV1.tells _ _,
      EntityIdV1.tells _ _, ManaSourceV1.tells _ _]

theorem StateProjectionV1.tells : Tells StateProjectionV1.toJson := by
  rintro ⟨⟩ ⟨⟩
  simp [toJson, ofFields_eq_iff, PlayersV1.tells _ _, TurnStateV1.tells _ _,
    StackItemV1.tells.list, nat_tells.list, WorkItemV1.tells.list,
    PendingInputV1.tells.optional PendingInputV1.toJson_ne_null, GameStatusV1.tells _ _]

/-! ## Actions, errors and events -/

theorem ManaTypeV1.toJson_ne_null (w : ManaTypeV1) : w.toJson ≠ .null := by
  simp [toJson]

theorem ActionV1.tells : Tells ActionV1.toJson := by
  apply tells_of_kinds ActionV1.ctorIdx
    ["play_summon", "upgrade_summon", "cast_spell", "activate_skill", "retreat", "declare_attack",
      "end_turn", "pass_priority", "convert_coin", "choose_mana_type", "choose_promotion",
      "choose_prize", "resign"] (by decide)
  · intro a
    cases a <;> exact ⟨_, rfl, get_ofKind (by simp)⟩
  · intro a b hindex
    cases a <;> cases b <;> cases hindex <;> simp [toJson, ofKind_eq_iff, PlayerIdV1.tells _ _,
      BenchSlotV1.tells _ _, PositionV1.tells _ _, PositionV1.tells.list, EntityIdV1.tells _ _,
      ManaTypeV1.tells _ _, ManaTypeV1.tells.optional ManaTypeV1.toJson_ne_null, UInt32.toNat_inj]

theorem ErrorV1.tells : Tells ErrorV1.toJson := by
  apply tells_of_kinds ErrorV1.ctorIdx
    ["not_your_decision", "game_already_over", "game_broken", "wrong_phase", "empty_position",
      "unknown_card", "insufficient_mana", "summon_exhausted", "normal_attack_already_used",
      "normal_retreat_already_used", "already_upgraded_this_turn", "played_this_turn",
      "illegal_upgrade_target", "invalid_target", "pending_input_mismatch", "invalid_mana_hint"] (by decide)
  · intro a
    cases a <;> exact ⟨_, rfl, get_ofKind (by simp)⟩
  · intro a b hindex
    cases a <;> cases b <;> cases hindex <;> simp [toJson, ofKind_eq_iff, ManaBankV1.tells _ _]

theorem DamageConstraintV1.tells : Tells DamageConstraintV1.toJson := by
  intro a b
  cases a <;> cases b <;> simp [toJson]

theorem DamageStageV1.tells : Tells DamageStageV1.toJson := by
  intro a b
  cases a <;> cases b <;> simp [toJson]

theorem DamageOperationV1.tells : Tells DamageOperationV1.toJson := by
  apply tells_of_kinds DamageOperationV1.ctorIdx
    ["add", "reduce", "clamp_to_zero"] (by decide)
  · intro a
    cases a <;> exact ⟨_, rfl, get_ofKind (by simp)⟩
  · intro a b hindex
    cases a <;> cases b <;> cases hindex <;> simp [toJson, ofKind_eq_iff, UInt32.toNat_inj]

theorem DamageSourceV1.tells : Tells DamageSourceV1.toJson := by
  apply tells_of_kinds DamageSourceV1.ctorIdx
    ["attack", "spell", "skill", "trigger"] (by decide)
  · intro a
    cases a <;> exact ⟨_, rfl, get_ofKind (by simp)⟩
  · intro a b hindex
    cases a <;> cases b <;> cases hindex <;> simp [toJson, ofKind_eq_iff, PlayerIdV1.tells _ _,
      PositionV1.tells _ _, EntityIdV1.tells _ _, UInt32.toNat_inj]

theorem DamageOriginV1.tells : Tells DamageOriginV1.toJson := by
  apply tells_of_kinds DamageOriginV1.ctorIdx
    ["printed_ability", "persistent_card"] (by decide)
  · intro a
    cases a <;> exact ⟨_, rfl, get_ofKind (by simp)⟩
  · intro a b hindex
    cases a <;> cases b <;> cases hindex <;> simp [toJson, ofKind_eq_iff, EntityIdV1.tells _ _,
      UInt32.toNat_inj]

theorem BattlefieldTargetV1.tells : Tells BattlefieldTargetV1.toJson := by
  rintro ⟨⟩ ⟨⟩
  simp [toJson, ofFields_eq_iff, PlayerIdV1.tells _ _, PositionV1.tells _ _]

theorem DamageContextV1.tells : Tells DamageContextV1.toJson := by
  rintro ⟨⟩ ⟨⟩
  simp [toJson, ofFields_eq_iff, DamageSourceV1.tells _ _, BattlefieldTargetV1.tells _ _]

theorem EventV1.tells : Tells EventV1.toJson := by
  apply tells_of_kinds EventV1.ctorIdx
    ["turn_began", "summons_readied", "card_drawn", "mana_produced", "summon_played",
      "summon_upgraded", "spell_cast", "skill_activated", "attack_declared", "priority_passed",
      "stack_item_resolved", "damage_calculation_started", "damage_adjustment_applied",
      "damage_adjustment_skipped", "damage_applied", "healed", "summon_destroyed",
      "prize_recovered", "prizes_viewed", "summon_promoted", "summons_swapped", "trigger_fired",
      "coin_converted", "mana_deducted", "game_ended"] (by decide)
  · intro a
    cases a <;> exact ⟨_, rfl, get_ofKind (by simp)⟩
  · intro a b hindex
    cases a <;> cases b <;> cases hindex <;> simp [toJson, ofKind_eq_iff, PlayerIdV1.tells _ _,
      PositionV1.tells.list, PositionV1.tells _ _, ManaSourceV1.tells _ _, ManaTypeV1.tells _ _,
      BenchSlotV1.tells _ _, EntityIdV1.tells _ _, StackItemV1.tells _ _,
      DamageContextV1.tells _ _, DamageConstraintsV1.tells _ _, DamageStageV1.tells _ _,
      DamageOperationV1.tells _ _, DamageOriginV1.tells _ _, DamageConstraintV1.tells _ _,
      u32_tells.list, TriggerEventV1.tells _ _, LossReasonV1.tells _ _, UInt32.toNat_inj]

/-! ## Records -/

theorem StateDigestV1.tells : Tells StateDigestV1.toJson := by
  rintro ⟨a⟩ ⟨b⟩
  simp [toJson]

theorem SetRequirementV1.tells : Tells SetRequirementV1.toJson := by
  rintro ⟨⟩ ⟨⟩
  simp [toJson, ofFields_eq_iff, UInt32.toNat_inj]

theorem MatchCreatedV1.tells : Tells MatchCreatedV1.toJson := by
  rintro ⟨⟩ ⟨⟩
  simp [toJson, ofFields_eq_iff, SetRequirementV1.tells.list, StateProjectionV1.tells _ _,
    StateDigestV1.tells _ _]

theorem ActionRecordV1.tells : Tells ActionRecordV1.toJson := by
  rintro ⟨⟩ ⟨⟩
  simp [toJson, ofFields_eq_iff, ActionV1.tells _ _]

theorem EventRecordV1.tells : Tells EventRecordV1.toJson := by
  rintro ⟨⟩ ⟨⟩
  simp [toJson, ofFields_eq_iff, EventV1.tells _ _]

theorem StepCompletedV1.tells : Tells StepCompletedV1.toJson := by
  rintro ⟨⟩ ⟨⟩
  simp [toJson, ofFields_eq_iff, StateDigestV1.tells _ _]

theorem StepRejectedV1.tells : Tells StepRejectedV1.toJson := by
  rintro ⟨⟩ ⟨⟩
  simp [toJson, ofFields_eq_iff, ErrorV1.tells _ _, StateDigestV1.tells _ _]

theorem FinalStateV1.tells : Tells FinalStateV1.toJson := by
  rintro ⟨⟩ ⟨⟩
  simp [toJson, ofFields_eq_iff, StateProjectionV1.tells _ _, StateDigestV1.tells _ _]

theorem MatchCompletedV1.tells : Tells MatchCompletedV1.toJson := by
  rintro ⟨⟩ ⟨⟩
  simp [toJson, ofFields_eq_iff, StateDigestV1.tells _ _, PlayerIdV1.tells _ _,
    LossReasonV1.tells _ _]

end Summoners
