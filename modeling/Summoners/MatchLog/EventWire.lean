import Summoners.MatchLog.StateWire

/-! # Actions and events on the wire

The conversions of `wire/action.rs` and `wire/event.rs` that can fail, with their laws. The ids of
an action or an event are read by `parse_entity_id`; a Stack item inside an event keeps the error of
`state.rs`, wrapped.
-/

namespace Summoners
set_option autoImplicit false
open Checked

def parseEntityId (w : EntityIdV1) : Except WireConversionError EntityId :=
  (EntityId.parse w.text).mapError fun _ => .invalidEntityId w.text

theorem parseEntityId_lossless : Lossless (fun _ => True) (fun w => w.isCanonical = true)
    EntityIdV1.fromCore parseEntityId :=
  EntityIdV1.parse_lossless.mapError _

/-- `StackItem::try_from(item)?` with its error converted. -/
def tryStackItem (w : StackItemV1) : Except WireConversionError StackItem :=
  w.tryIntoCore.mapError fun error => .stateRebuild error

theorem tryStackItem_lossless : Lossless (fun _ => True) (fun w => CanonicalIds w.entityIds)
    StackItemV1.fromCore tryStackItem :=
  StackItemV1.lossless.mapError _

/-! ## Actions -/

def ActionV1.entityIds : ActionV1 → List EntityIdV1
  | .activateSkill _ _ ability _ _ => [ability]
  | _ => []

def ActionV1.fromCore : GameAction → ActionV1
  | .playSummon player card slot =>
      .playSummon (PlayerIdV1.ofCore player) card.number (BenchSlotV1.ofCore slot)
  | .upgradeSummon player card position =>
      .upgradeSummon (PlayerIdV1.ofCore player) card.number (PositionV1.ofCore position)
  | .castSpell player card targets manaHint =>
      .castSpell (PlayerIdV1.ofCore player) card.number (targets.map PositionV1.ofCore)
        (manaHint.map ManaTypeV1.ofCore)
  | .activateSkill player position ability targets manaHint =>
      .activateSkill (PlayerIdV1.ofCore player) (PositionV1.ofCore position)
        (EntityIdV1.fromCore ability) (targets.map PositionV1.ofCore)
        (manaHint.map ManaTypeV1.ofCore)
  | .retreat player slot manaHint =>
      .retreat (PlayerIdV1.ofCore player) (BenchSlotV1.ofCore slot)
        (manaHint.map ManaTypeV1.ofCore)
  | .declareAttack player target manaHint =>
      .declareAttack (PlayerIdV1.ofCore player) (PositionV1.ofCore target)
        (manaHint.map ManaTypeV1.ofCore)
  | .endTurn player => .endTurn (PlayerIdV1.ofCore player)
  | .passPriority player => .passPriority (PlayerIdV1.ofCore player)
  | .convertCoin player manaType =>
      .convertCoin (PlayerIdV1.ofCore player) (ManaTypeV1.ofCore manaType)
  | .chooseManaType player manaType =>
      .chooseManaType (PlayerIdV1.ofCore player) (ManaTypeV1.ofCore manaType)
  | .choosePromotion player slot =>
      .choosePromotion (PlayerIdV1.ofCore player) (BenchSlotV1.ofCore slot)
  | .choosePrize player prizeIndex => .choosePrize (PlayerIdV1.ofCore player) prizeIndex
  | .resign player => .resign (PlayerIdV1.ofCore player)

def ActionV1.tryIntoCore : ActionV1 → Except WireConversionError GameAction
  | .playSummon player card slot =>
      .ok (.playSummon (PlayerIdV1.ofCore.symm player) (CardInstanceId.number.symm card)
        (BenchSlotV1.ofCore.symm slot))
  | .upgradeSummon player card position =>
      .ok (.upgradeSummon (PlayerIdV1.ofCore.symm player) (CardInstanceId.number.symm card)
        (PositionV1.ofCore.symm position))
  | .castSpell player card targets manaHint =>
      .ok (.castSpell (PlayerIdV1.ofCore.symm player) (CardInstanceId.number.symm card)
        (targets.map PositionV1.ofCore.symm) (manaHint.map ManaTypeV1.ofCore.symm))
  | .activateSkill player position ability targets manaHint => do
      let ability ← parseEntityId ability
      pure (.activateSkill (PlayerIdV1.ofCore.symm player) (PositionV1.ofCore.symm position)
        ability (targets.map PositionV1.ofCore.symm) (manaHint.map ManaTypeV1.ofCore.symm))
  | .retreat player slot manaHint =>
      .ok (.retreat (PlayerIdV1.ofCore.symm player) (BenchSlotV1.ofCore.symm slot)
        (manaHint.map ManaTypeV1.ofCore.symm))
  | .declareAttack player target manaHint =>
      .ok (.declareAttack (PlayerIdV1.ofCore.symm player) (PositionV1.ofCore.symm target)
        (manaHint.map ManaTypeV1.ofCore.symm))
  | .endTurn player => .ok (.endTurn (PlayerIdV1.ofCore.symm player))
  | .passPriority player => .ok (.passPriority (PlayerIdV1.ofCore.symm player))
  | .convertCoin player manaType =>
      .ok (.convertCoin (PlayerIdV1.ofCore.symm player) (ManaTypeV1.ofCore.symm manaType))
  | .chooseManaType player manaType =>
      .ok (.chooseManaType (PlayerIdV1.ofCore.symm player) (ManaTypeV1.ofCore.symm manaType))
  | .choosePromotion player slot =>
      .ok (.choosePromotion (PlayerIdV1.ofCore.symm player) (BenchSlotV1.ofCore.symm slot))
  | .choosePrize player prizeIndex =>
      .ok (.choosePrize (PlayerIdV1.ofCore.symm player) prizeIndex)
  | .resign player => .ok (.resign (PlayerIdV1.ofCore.symm player))

theorem ActionV1.lossless : Lossless (fun _ => True) (fun w => CanonicalIds w.entityIds)
    ActionV1.fromCore ActionV1.tryIntoCore where
  dec_enc {v} _ := by
    cases v <;> simp [tryIntoCore, fromCore, parseEntityId_lossless.dec_enc]
  written v := by
    cases v <;> simp [entityIds, fromCore, EntityIdV1.isCanonical_fromCore]
  enc_dec {w v} hw hread := by
    cases w
    case activateSkill player position ability targets manaHint =>
      simp only [tryIntoCore, bind_ok_iff, pure_ok_iff] at hread
      obtain ⟨id, hid, rfl⟩ := hread
      simp only [entityIds, canonicalIds_cons] at hw
      simp [fromCore, parseEntityId_lossless.enc_dec hw.1 hid]
    all_goals
      cases hread
      simp [fromCore]

/-! ## Damage traces -/

def DamageSourceV1.entityIds : DamageSourceV1 → List EntityIdV1
  | .attack _ _ ability => [ability]
  | .spell _ _ definition => [definition]
  | .skill _ _ ability => [ability]
  | .trigger _ _ ability => [ability]

def DamageSourceV1.fromCore : DamageSource → DamageSourceV1
  | .attack controller position ability =>
      .attack (PlayerIdV1.ofCore controller) (PositionV1.ofCore position)
        (EntityIdV1.fromCore ability)
  | .spell controller card definition =>
      .spell (PlayerIdV1.ofCore controller) card.number (EntityIdV1.fromCore definition)
  | .skill controller position ability =>
      .skill (PlayerIdV1.ofCore controller) (PositionV1.ofCore position)
        (EntityIdV1.fromCore ability)
  | .trigger controller position ability =>
      .trigger (PlayerIdV1.ofCore controller) (PositionV1.ofCore position)
        (EntityIdV1.fromCore ability)

def DamageSourceV1.tryIntoCore : DamageSourceV1 → Except WireConversionError DamageSource
  | .attack controller position ability => do
      let ability ← parseEntityId ability
      pure (.attack (PlayerIdV1.ofCore.symm controller) (PositionV1.ofCore.symm position) ability)
  | .spell controller card definition => do
      let definition ← parseEntityId definition
      pure (.spell (PlayerIdV1.ofCore.symm controller) (CardInstanceId.number.symm card)
        definition)
  | .skill controller position ability => do
      let ability ← parseEntityId ability
      pure (.skill (PlayerIdV1.ofCore.symm controller) (PositionV1.ofCore.symm position) ability)
  | .trigger controller position ability => do
      let ability ← parseEntityId ability
      pure (.trigger (PlayerIdV1.ofCore.symm controller) (PositionV1.ofCore.symm position)
        ability)

theorem DamageSourceV1.lossless : Lossless (fun _ => True) (fun w => CanonicalIds w.entityIds)
    DamageSourceV1.fromCore DamageSourceV1.tryIntoCore where
  dec_enc {v} _ := by
    cases v <;> simp [tryIntoCore, fromCore, parseEntityId_lossless.dec_enc]
  written v := by
    cases v <;> simp [entityIds, fromCore, EntityIdV1.isCanonical_fromCore]
  enc_dec {w v} hw hread := by
    cases w <;>
      · simp only [tryIntoCore, bind_ok_iff, pure_ok_iff] at hread
        obtain ⟨id, hid, rfl⟩ := hread
        simp only [entityIds, canonicalIds_cons] at hw
        simp [fromCore, parseEntityId_lossless.enc_dec hw.1 hid]

def DamageOriginV1.entityIds : DamageOriginV1 → List EntityIdV1
  | .printedAbility ability => [ability]
  | _ => []

def DamageOriginV1.fromCore : DamageOrigin → DamageOriginV1
  | .printedAbility ability => .printedAbility (EntityIdV1.fromCore ability)
  | .persistentCard card => .persistentCard card.number

def DamageOriginV1.tryIntoCore : DamageOriginV1 → Except WireConversionError DamageOrigin
  | .printedAbility ability => do
      let ability ← parseEntityId ability
      pure (.printedAbility ability)
  | .persistentCard card => .ok (.persistentCard (CardInstanceId.number.symm card))

theorem DamageOriginV1.lossless : Lossless (fun _ => True) (fun w => CanonicalIds w.entityIds)
    DamageOriginV1.fromCore DamageOriginV1.tryIntoCore where
  dec_enc {v} _ := by
    cases v <;> simp [tryIntoCore, fromCore, parseEntityId_lossless.dec_enc]
  written v := by
    cases v <;> simp [entityIds, fromCore, EntityIdV1.isCanonical_fromCore]
  enc_dec {w v} hw hread := by
    cases w with
    | printedAbility ability =>
        simp only [tryIntoCore, bind_ok_iff, pure_ok_iff] at hread
        obtain ⟨id, hid, rfl⟩ := hread
        simp only [entityIds, canonicalIds_cons] at hw
        simp [fromCore, parseEntityId_lossless.enc_dec hw.1 hid]
    | persistentCard card =>
        cases hread
        simp [fromCore]

def DamageContextV1.entityIds (w : DamageContextV1) : List EntityIdV1 := w.source.entityIds

def DamageContextV1.fromCore (v : DamageContext) : DamageContextV1 :=
  ⟨DamageSourceV1.fromCore v.source, BattlefieldTargetV1.ofCore v.target⟩

def DamageContextV1.tryIntoCore (w : DamageContextV1) :
    Except WireConversionError DamageContext := do
  let source ← w.source.tryIntoCore
  pure ⟨source, BattlefieldTargetV1.ofCore.symm w.target⟩

theorem DamageContextV1.lossless : Lossless (fun _ => True) (fun w => CanonicalIds w.entityIds)
    DamageContextV1.fromCore DamageContextV1.tryIntoCore where
  dec_enc {v} _ := by simp [tryIntoCore, fromCore, DamageSourceV1.lossless.dec_enc]
  written v := by
    exact DamageSourceV1.lossless.written v.source
  enc_dec {w v} hw hread := by
    simp only [tryIntoCore, bind_ok_iff, pure_ok_iff] at hread
    obtain ⟨source, hsource, rfl⟩ := hread
    simp [fromCore, DamageSourceV1.lossless.enc_dec hw hsource]

/-! ## Events -/

def EventV1.entityIds : EventV1 → List EntityIdV1
  | .skillActivated _ _ ability => [ability]
  | .stackItemResolved item => item.entityIds
  | .damageCalculationStarted context _ _ => context.entityIds
  | .damageAdjustmentApplied context _ _ origin _ _ => context.entityIds ++ origin.entityIds
  | .damageAdjustmentSkipped context _ _ origin _ _ => context.entityIds ++ origin.entityIds
  | .damageApplied context _ _ _ => context.entityIds
  | .triggerFired _ _ _ ability => [ability]
  | _ => []

def EventV1.fromCore : GameEvent → EventV1
  | .turnBegan player => .turnBegan (PlayerIdV1.ofCore player)
  | .summonsReadied player positions =>
      .summonsReadied (PlayerIdV1.ofCore player) (positions.map PositionV1.ofCore)
  | .cardDrawn player card => .cardDrawn (PlayerIdV1.ofCore player) card.number
  | .manaProduced player source manaType =>
      .manaProduced (PlayerIdV1.ofCore player) (ManaSourceV1.ofCore source)
        (ManaTypeV1.ofCore manaType)
  | .summonPlayed player card slot =>
      .summonPlayed (PlayerIdV1.ofCore player) card.number (BenchSlotV1.ofCore slot)
  | .summonUpgraded player card position =>
      .summonUpgraded (PlayerIdV1.ofCore player) card.number (PositionV1.ofCore position)
  | .spellCast player card targets =>
      .spellCast (PlayerIdV1.ofCore player) card.number (targets.map PositionV1.ofCore)
  | .skillActivated player position ability =>
      .skillActivated (PlayerIdV1.ofCore player) (PositionV1.ofCore position)
        (EntityIdV1.fromCore ability)
  | .attackDeclared player target =>
      .attackDeclared (PlayerIdV1.ofCore player) (PositionV1.ofCore target)
  | .priorityPassed player => .priorityPassed (PlayerIdV1.ofCore player)
  | .stackItemResolved item => .stackItemResolved (StackItemV1.fromCore item)
  | .damageCalculationStarted context base constraints =>
      .damageCalculationStarted (DamageContextV1.fromCore context) base
        (DamageConstraintsV1.ofCore constraints)
  | .damageAdjustmentApplied context stage operation origin input output =>
      .damageAdjustmentApplied (DamageContextV1.fromCore context) (DamageStageV1.ofCore stage)
        (DamageOperationV1.ofCore operation) (DamageOriginV1.fromCore origin) input output
  | .damageAdjustmentSkipped context stage operation origin input constraint =>
      .damageAdjustmentSkipped (DamageContextV1.fromCore context) (DamageStageV1.ofCore stage)
        (DamageOperationV1.ofCore operation) (DamageOriginV1.fromCore origin) input
        (DamageConstraintV1.ofCore constraint)
  | .damageApplied context amount before after =>
      .damageApplied (DamageContextV1.fromCore context) amount before after
  | .healed position amount => .healed (PositionV1.ofCore position) amount
  | .summonDestroyed position owner =>
      .summonDestroyed (PositionV1.ofCore position) (PlayerIdV1.ofCore owner)
  | .prizeRecovered player card => .prizeRecovered (PlayerIdV1.ofCore player) card.number
  | .prizesViewed player prizes =>
      .prizesViewed (PlayerIdV1.ofCore player) (prizes.map CardInstanceId.number)
  | .summonPromoted player slot =>
      .summonPromoted (PlayerIdV1.ofCore player) (BenchSlotV1.ofCore slot)
  | .summonsSwapped player slot =>
      .summonsSwapped (PlayerIdV1.ofCore player) (BenchSlotV1.ofCore slot)
  | .triggerFired controller position event ability =>
      .triggerFired (PlayerIdV1.ofCore controller) (PositionV1.ofCore position)
        (TriggerEventV1.ofCore event) (EntityIdV1.fromCore ability)
  | .coinConverted player manaType =>
      .coinConverted (PlayerIdV1.ofCore player) (ManaTypeV1.ofCore manaType)
  | .manaDeducted player manaType amount =>
      .manaDeducted (PlayerIdV1.ofCore player) (ManaTypeV1.ofCore manaType) amount
  | .gameEnded winner reason => .gameEnded (PlayerIdV1.ofCore winner) (LossReasonV1.ofCore reason)

def EventV1.tryIntoCore : EventV1 → Except WireConversionError GameEvent
  | .turnBegan player => .ok (.turnBegan (PlayerIdV1.ofCore.symm player))
  | .summonsReadied player positions =>
      .ok (.summonsReadied (PlayerIdV1.ofCore.symm player) (positions.map PositionV1.ofCore.symm))
  | .cardDrawn player card =>
      .ok (.cardDrawn (PlayerIdV1.ofCore.symm player) (CardInstanceId.number.symm card))
  | .manaProduced player source manaType =>
      .ok (.manaProduced (PlayerIdV1.ofCore.symm player) (ManaSourceV1.ofCore.symm source)
        (ManaTypeV1.ofCore.symm manaType))
  | .summonPlayed player card slot =>
      .ok (.summonPlayed (PlayerIdV1.ofCore.symm player) (CardInstanceId.number.symm card)
        (BenchSlotV1.ofCore.symm slot))
  | .summonUpgraded player card position =>
      .ok (.summonUpgraded (PlayerIdV1.ofCore.symm player) (CardInstanceId.number.symm card)
        (PositionV1.ofCore.symm position))
  | .spellCast player card targets =>
      .ok (.spellCast (PlayerIdV1.ofCore.symm player) (CardInstanceId.number.symm card)
        (targets.map PositionV1.ofCore.symm))
  | .skillActivated player position ability => do
      let ability ← parseEntityId ability
      pure (.skillActivated (PlayerIdV1.ofCore.symm player) (PositionV1.ofCore.symm position)
        ability)
  | .attackDeclared player target =>
      .ok (.attackDeclared (PlayerIdV1.ofCore.symm player) (PositionV1.ofCore.symm target))
  | .priorityPassed player => .ok (.priorityPassed (PlayerIdV1.ofCore.symm player))
  | .stackItemResolved item => do
      let item ← tryStackItem item
      pure (.stackItemResolved item)
  | .damageCalculationStarted context base constraints => do
      let context ← context.tryIntoCore
      pure (.damageCalculationStarted context base (DamageConstraintsV1.ofCore.symm constraints))
  | .damageAdjustmentApplied context stage operation origin input output => do
      let context ← context.tryIntoCore
      let origin ← origin.tryIntoCore
      pure (.damageAdjustmentApplied context (DamageStageV1.ofCore.symm stage)
        (DamageOperationV1.ofCore.symm operation) origin input output)
  | .damageAdjustmentSkipped context stage operation origin input constraint => do
      let context ← context.tryIntoCore
      let origin ← origin.tryIntoCore
      pure (.damageAdjustmentSkipped context (DamageStageV1.ofCore.symm stage)
        (DamageOperationV1.ofCore.symm operation) origin input
        (DamageConstraintV1.ofCore.symm constraint))
  | .damageApplied context amount before after => do
      let context ← context.tryIntoCore
      pure (.damageApplied context amount before after)
  | .healed position amount => .ok (.healed (PositionV1.ofCore.symm position) amount)
  | .summonDestroyed position owner =>
      .ok (.summonDestroyed (PositionV1.ofCore.symm position) (PlayerIdV1.ofCore.symm owner))
  | .prizeRecovered player card =>
      .ok (.prizeRecovered (PlayerIdV1.ofCore.symm player) (CardInstanceId.number.symm card))
  | .prizesViewed player prizes =>
      .ok (.prizesViewed (PlayerIdV1.ofCore.symm player) (prizes.map CardInstanceId.number.symm))
  | .summonPromoted player slot =>
      .ok (.summonPromoted (PlayerIdV1.ofCore.symm player) (BenchSlotV1.ofCore.symm slot))
  | .summonsSwapped player slot =>
      .ok (.summonsSwapped (PlayerIdV1.ofCore.symm player) (BenchSlotV1.ofCore.symm slot))
  | .triggerFired controller position event ability => do
      let ability ← parseEntityId ability
      pure (.triggerFired (PlayerIdV1.ofCore.symm controller) (PositionV1.ofCore.symm position)
        (TriggerEventV1.ofCore.symm event) ability)
  | .coinConverted player manaType =>
      .ok (.coinConverted (PlayerIdV1.ofCore.symm player) (ManaTypeV1.ofCore.symm manaType))
  | .manaDeducted player manaType amount =>
      .ok (.manaDeducted (PlayerIdV1.ofCore.symm player) (ManaTypeV1.ofCore.symm manaType) amount)
  | .gameEnded winner reason =>
      .ok (.gameEnded (PlayerIdV1.ofCore.symm winner) (LossReasonV1.ofCore.symm reason))

theorem EventV1.lossless : Lossless (fun _ => True) (fun w => CanonicalIds w.entityIds)
    EventV1.fromCore EventV1.tryIntoCore where
  dec_enc {v} _ := by
    cases v <;>
      simp [tryIntoCore, fromCore, parseEntityId_lossless.dec_enc, tryStackItem_lossless.dec_enc,
        DamageContextV1.lossless.dec_enc, DamageOriginV1.lossless.dec_enc]
  written v := by
    cases v <;>
      simp [entityIds, fromCore, EntityIdV1.isCanonical_fromCore, StackItemV1.lossless.written,
        DamageContextV1.lossless.written, DamageOriginV1.lossless.written]
  enc_dec {w v} hw hread := by
    cases w
    case skillActivated | triggerFired =>
      simp only [tryIntoCore, bind_ok_iff, pure_ok_iff] at hread
      obtain ⟨id, hid, rfl⟩ := hread
      simp only [entityIds, canonicalIds_cons] at hw
      simp [fromCore, parseEntityId_lossless.enc_dec hw.1 hid]
    case stackItemResolved item =>
      simp only [tryIntoCore, bind_ok_iff, pure_ok_iff] at hread
      obtain ⟨i, hi, rfl⟩ := hread
      simp [fromCore, tryStackItem_lossless.enc_dec hw hi]
    case damageCalculationStarted | damageApplied =>
      simp only [tryIntoCore, bind_ok_iff, pure_ok_iff] at hread
      obtain ⟨context, hcontext, rfl⟩ := hread
      simp [fromCore, DamageContextV1.lossless.enc_dec hw hcontext]
    case damageAdjustmentApplied | damageAdjustmentSkipped =>
      simp only [tryIntoCore, bind_ok_iff, pure_ok_iff] at hread
      obtain ⟨context, hcontext, origin, horigin, rfl⟩ := hread
      simp only [entityIds, canonicalIds_append] at hw
      simp [fromCore, DamageContextV1.lossless.enc_dec hw.1 hcontext,
        DamageOriginV1.lossless.enc_dec hw.2 horigin]
    all_goals
      cases hread
      simp [fromCore]

end Summoners
