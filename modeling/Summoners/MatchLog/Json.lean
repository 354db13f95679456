import Summoners.MatchLog.Records

/-! # The JSON form of a record

What the derived serialisers of the wire types write, as the value the text is read back into: a
struct is a map of its fields, an enumeration a string, any other enum a map tagged by `kind`, an
absent option `null`. Names are in snake case.
-/

namespace Summoners
set_option autoImplicit false

namespace JsonValue

/-- A map iterates in the order of its keys. -/
def ofFields (fields : List (String × JsonValue)) : JsonValue :=
  .object (fields.mergeSort (fun a b => decide (a.1 ≤ b.1)))

/-- A variant with its tag. -/
def ofKind (kind : String) (fields : List (String × JsonValue)) : JsonValue :=
  .ofFields (("kind", .string kind) :: fields)

def nat (n : ℕ) : JsonValue := .number (.posInt n)

def optional {α : Type} (toJson : α → JsonValue) : Option α → JsonValue
  | none => .null
  | some value => toJson value

/-- `Value::get`. -/
def get (name : String) : JsonValue → Option JsonValue
  | .object fields => (fields.find? (fun f => f.1 = name)).map (·.2)
  | _ => none

/-- `Value::as_str`. -/
def asStr : JsonValue → Option String
  | .string text => some text
  | _ => none

/-- `Value::as_u64`. -/
def asU64 : JsonValue → Option ℕ
  | .number (.posInt n) => some n
  | _ => none

theorem mem_ofFields {fields : List (String × JsonValue)} {f : String × JsonValue} :
    f ∈ fields.mergeSort (fun a b => decide (a.1 ≤ b.1)) ↔ f ∈ fields :=
  (List.mergeSort_perm fields _).mem_iff

/-- A field whose name no other field has is found. -/
theorem get_ofFields {fields : List (String × JsonValue)} {name : String} {value : JsonValue}
    (hmem : (name, value) ∈ fields) (hone : ∀ f ∈ fields, f.1 = name → f.2 = value) :
    (ofFields fields).get name = some value := by
  unfold ofFields get
  rw [Option.map_eq_some_iff]
  have hsome : ((fields.mergeSort (fun a b => decide (a.1 ≤ b.1))).find?
      (fun f => f.1 = name)).isSome := by
    rw [List.find?_isSome]
    exact ⟨(name, value), mem_ofFields.mpr hmem, by simp⟩
  obtain ⟨f, hf⟩ := Option.isSome_iff_exists.mp hsome
  refine ⟨f, hf, hone f (mem_ofFields.mp (List.mem_of_find?_eq_some hf)) ?_⟩
  simpa using List.find?_some hf

end JsonValue

/-! ## Summons and players -/

def EntityIdV1.toJson (w : EntityIdV1) : JsonValue := .string w.text

def StateDigestV1.toJson (w : StateDigestV1) : JsonValue := .string w.text

def PlayerIdV1.toJson (w : PlayerIdV1) : JsonValue :=
  .string (match w with
    | .one => "one"
    | .two => "two")

def BenchSlotV1.toJson (w : BenchSlotV1) : JsonValue :=
  .string (match w with
    | .first => "first"
    | .second => "second"
    | .third => "third")

def PositionV1.toJson : PositionV1 → JsonValue
  | .main => .ofKind "main" []
  | .bench slot => .ofKind "bench" [("slot", slot.toJson)]

def ManaTypeV1.toJson (w : ManaTypeV1) : JsonValue :=
  .string (match w with
    | .matter => "matter"
    | .mind => "mind"
    | .spirit => "spirit")

def CardRefV1.toJson (w : CardRefV1) : JsonValue :=
  .ofFields [("instance", .nat w.instanceId.toNat), ("definition", w.definition.toJson)]

def UpgradeChainV1.toJson (w : UpgradeChainV1) : JsonValue :=
  .ofFields [("layers", .array (w.layers.map CardRefV1.toJson))]

def DurationMarkerV1.toJson (w : DurationMarkerV1) : JsonValue :=
  .string (match w with
    | .cannotBeMovedByOpponent => "cannot_be_moved_by_opponent")

def UpgradeActivityV1.toJson (w : UpgradeActivityV1) : JsonValue :=
  .string (match w with
    | .available => "available"
    | .playedThisTurn => "played_this_turn"
    | .upgradedThisTurn => "upgraded_this_turn")

def SummonTurnRecordV1.toJson (w : SummonTurnRecordV1) : JsonValue :=
  .ofFields [("upgrade", w.upgrade.toJson), ("entered_main", .bool w.enteredMain)]

def ReadinessV1.toJson (w : ReadinessV1) : JsonValue :=
  .string (match w with
    | .ready => "ready"
    | .exhausted => "exhausted")

def SummonInstanceV1.toJson (w : SummonInstanceV1) : JsonValue :=
  .ofFields [("chain", w.chain.toJson), ("damage", .nat w.damage.toNat),
    ("readiness", w.readiness.toJson), ("owner", w.owner.toJson),
    ("controller", w.controller.toJson),
    ("duration_markers", .array (w.durationMarkers.map DurationMarkerV1.toJson)),
    ("turn", w.turn.toJson)]

def ManaBankV1.toJson (w : ManaBankV1) : JsonValue :=
  .ofFields [("matter", .nat w.matter.toNat), ("mind", .nat w.mind.toNat),
    ("spirit", .nat w.spirit.toNat)]

def BenchV1.toJson (w : BenchV1) : JsonValue :=
  .array ([w.first, w.second, w.third].map (.optional SummonInstanceV1.toJson))

def PlayerStateV1.toJson (w : PlayerStateV1) : JsonValue :=
  .ofFields [("main", .optional SummonInstanceV1.toJson w.main), ("bench", w.bench.toJson),
    ("deck", .array (w.deck.map CardRefV1.toJson)),
    ("hand", .array (w.hand.map CardRefV1.toJson)),
    ("prizes", .array (w.prizes.map CardRefV1.toJson)),
    ("discard", .array (w.discard.map CardRefV1.toJson)), ("mana", w.mana.toJson),
    ("main_losses", .nat w.mainLosses.toNat),
    ("enchantments", .array (w.enchantments.map CardRefV1.toJson))]

def PlayersV1.toJson (w : PlayersV1) : JsonValue :=
  .ofFields [("one", w.one.toJson), ("two", w.two.toJson)]

/-! ## Turn, decisions and outcome -/

def PerPlayerBoolV1.toJson (w : PerPlayerBoolV1) : JsonValue :=
  .ofFields [("one", .bool w.one), ("two", .bool w.two)]

def StackWindowV1.toJson (w : StackWindowV1) : JsonValue :=
  .ofFields [("holder", w.holder.toJson), ("prior_pass", .bool w.priorPass)]

def PhaseV1.toJson (w : PhaseV1) : JsonValue :=
  .string (match w with
    | .upkeep => "upkeep"
    | .main => "main"
    | .combat => "combat")

def TurnStateV1.toJson (w : TurnStateV1) : JsonValue :=
  .ofFields [("active_player", w.activePlayer.toJson), ("phase", w.phase.toJson),
    ("window", .optional StackWindowV1.toJson w.window),
    ("normal_attack_used", .bool w.normalAttackUsed),
    ("normal_retreat_used", .bool w.normalRetreatUsed),
    ("spell_played_this_turn", w.spellPlayedThisTurn.toJson)]

def ManaSourceV1.toJson : ManaSourceV1 → JsonValue
  | .player => .ofKind "player" []
  | .summon position => .ofKind "summon" [("position", position.toJson)]

def PendingInputV1.toJson : PendingInputV1 → JsonValue
  | .manaProduction player source =>
      .ofKind "mana_production" [("player", player.toJson), ("source", source.toJson)]
  | .promotion player => .ofKind "promotion" [("player", player.toJson)]
  | .prizePick chooser => .ofKind "prize_pick" [("chooser", chooser.toJson)]

def LossReasonV1.toJson (w : LossReasonV1) : JsonValue :=
  .string (match w with
    | .thirdMainLoss => "third_main_loss"
    | .noPromotionAvailable => "no_promotion_available"
    | .emptyDeckDraw => "empty_deck_draw"
    | .resignation => "resignation")

def GameOutcomeV1.toJson (w : GameOutcomeV1) : JsonValue :=
  .ofFields [("winner", w.winner.toJson), ("reason", w.reason.toJson)]

def ComponentKindV1.toJson (w : ComponentKindV1) : JsonValue :=
  .string (match w with
    | .name => "name"
    | .accountingId => "accounting_id"
    | .life => "life"
    | .retreatCost => "retreat_cost"
    | .form => "form"
    | .produces => "produces"
    | .tags => "tags"
    | .cost => "cost"
    | .skill => "skill"
    | .attack => "attack"
    | .trigger => "trigger"
    | .effect => "effect"
    | .passive => "passive"
    | .timing => "timing"
    | .event => "event"
    | .respondable => "respondable"
    | .persistent => "persistent")

def BreakageV1.toJson (w : BreakageV1) : JsonValue :=
  .ofFields [("rule", .string w.rule), ("entity", w.entity.toJson),
    ("expected", w.expected.toJson)]

def GameStatusV1.toJson : GameStatusV1 → JsonValue
  | .playing => .ofKind "playing" []
  | .ended outcome => .ofKind "ended" [("outcome", outcome.toJson)]
  | .broken breakage => .ofKind "broken" [("breakage", breakage.toJson)]

/-! ## Effects, the Stack and the work queue -/

def TriggerEventV1.toJson (w : TriggerEventV1) : JsonValue :=
  .string (match w with
    | .yourUpkeep => "your_upkeep"
    | .entersMain => "enters_main"
    | .entersBench => "enters_bench"
    | .leavesMain => "leaves_main"
    | .leavesBench => "leaves_bench"
    | .anySummonDestroyed => "any_summon_destroyed")

def EffectConditionV1.toJson (w : EffectConditionV1) : JsonValue :=
  .string (match w with
    | .defenderEnteredMainThisTurn => "defender_entered_main_this_turn"
    | .spellPlayedThisTurn => "spell_played_this_turn")

def EffectTargetV1.toJson (w : EffectTargetV1) : JsonValue :=
  .string (match w with
    | .selected => "selected"
    | .source => "source")

def DamageConstraintsV1.toJson (w : DamageConstraintsV1) : JsonValue :=
  .ofFields [("unincreasable", .bool w.unincreasable), ("unpreventable", .bool w.unpreventable)]

def DamageAdditionV1.toJson (w : DamageAdditionV1) : JsonValue :=
  .ofFields [("amount", .nat w.amount.toNat), ("condition", w.condition.toJson)]

def DamageEffectV1.toJson (w : DamageEffectV1) : JsonValue :=
  .ofFields [("base", .nat w.base.toNat), ("constraints", w.constraints.toJson),
    ("additions", .array (w.additions.map DamageAdditionV1.toJson))]

def ResponseBlockV1.toJson (w : ResponseBlockV1) : JsonValue :=
  .string (match w with
    | .attackSpells => "attack_spells")

def EffectLeafV1.toJson : EffectLeafV1 → JsonValue
  | .dealDamage damage => .ofKind "deal_damage" [("damage", damage.toJson)]
  | .heal amount target =>
      .ofKind "heal" [("amount", .nat amount.toNat), ("target", target.toJson)]
  | .moveSummon => .ofKind "move_summon" []
  | .swapPositions => .ofKind "swap_positions" []
  | .blockResponses condition block =>
      .ofKind "block_responses" [("condition", condition.toJson), ("block", block.toJson)]
  | .returnSpellFromDiscard => .ofKind "return_spell_from_discard" []
  | .lookAtPrizes => .ofKind "look_at_prizes" []
  | .drawCards amount => .ofKind "draw_cards" [("amount", .nat amount.toNat)]
  | .returnSpellToDeckTop => .ofKind "return_spell_to_deck_top" []
  | .produceMana target => .ofKind "produce_mana" [("target", target.toJson)]
  | .cannotBeMovedByOpponent target =>
      .ofKind "cannot_be_moved_by_opponent" [("target", target.toJson)]
  | .readySummon => .ofKind "ready_summon" []
  | .swapOpposingPositions => .ofKind "swap_opposing_positions" []

def StackItemV1.toJson : StackItemV1 → JsonValue
  | .attack attacker target =>
      .ofKind "attack" [("attacker", attacker.toJson), ("target", target.toJson)]
  | .spell caster card targets =>
      .ofKind "spell" [("caster", caster.toJson), ("card", card.toJson),
        ("targets", .array (targets.map PositionV1.toJson))]
  | .trigger controller source ability event targets effects =>
      .ofKind "trigger" [("controller", controller.toJson), ("source", source.toJson),
        ("ability", ability.toJson), ("event", event.toJson),
        ("targets", .array (targets.map PositionV1.toJson)),
        ("effects", .array (effects.map EffectLeafV1.toJson))]

def MovementStepV1.toJson (w : MovementStepV1) : JsonValue :=
  .string (match w with
    | .leavingMain => "leaving_main"
    | .enteringBench => "entering_bench"
    | .leavingBench => "leaving_bench"
    | .enteringMain => "entering_main")

def WorkItemV1.toJson : WorkItemV1 → JsonValue
  | .destructionCheck position => .ofKind "destruction_check" [("position", position.toJson)]
  | .discardDestroyedChain position =>
      .ofKind "discard_destroyed_chain" [("position", position.toJson)]
  | .recordMainLoss player => .ofKind "record_main_loss" [("player", player.toJson)]
  | .recoverPrize player => .ofKind "recover_prize" [("player", player.toJson)]
  | .promoteBenchSummon player => .ofKind "promote_bench_summon" [("player", player.toJson)]
  | .resolveMovementConsequences player =>
      .ofKind "resolve_movement_consequences" [("player", player.toJson)]
  | .movementTrigger step player position =>
      .ofKind "movement_trigger" [("step", step.toJson), ("player", player.toJson),
        ("position", position.toJson)]
  | .fireTrigger player position event ability =>
      .ofKind "fire_trigger" [("player", player.toJson), ("position", position.toJson),
        ("event", event.toJson), ("ability", ability.toJson)]
  | .lossCheck player => .ofKind "loss_check" [("player", player.toJson)]
  | .readyAll => .ofKind "ready_all" []
  | .drawCard => .ofKind "draw_card" []
  | .produceMana player source =>
      .ofKind "produce_mana" [("player", player.toJson), ("source", source.toJson)]
  | .beginMainPhase => .ofKind "begin_main_phase" []

def StateProjectionV1.toJson (w : StateProjectionV1) : JsonValue :=
  .ofFields [("players", w.players.toJson), ("coin", .bool w.coin), ("turn", w.turn.toJson),
    ("stack", .array (w.stack.map StackItemV1.toJson)),
    ("stack_segment_bases", .array (w.stackSegmentBases.map .nat)),
    ("work", .array (w.work.map WorkItemV1.toJson)),
    ("pending", .optional PendingInputV1.toJson w.pending), ("status", w.status.toJson)]

/-! ## Actions, errors and events -/

def ActionV1.toJson : ActionV1 → JsonValue
  | .playSummon player card slot =>
      .ofKind "play_summon" [("player", player.toJson), ("card", .nat card.toNat),
        ("slot", slot.toJson)]
  | .upgradeSummon player card position =>
      .ofKind "upgrade_summon" [("player", player.toJson), ("card", .nat card.toNat),
        ("position", position.toJson)]
  | .castSpell player card targets manaHint =>
      .ofKind "cast_spell" [("player", player.toJson), ("card", .nat card.toNat),
        ("targets", .array (targets.map PositionV1.toJson)),
        ("mana_hint", .optional ManaTypeV1.toJson manaHint)]
  | .activateSkill player position ability targets manaHint =>
      .ofKind "activate_skill" [("player", player.toJson), ("position", position.toJson),
        ("ability", ability.toJson), ("targets", .array (targets.map PositionV1.toJson)),
        ("mana_hint", .optional ManaTypeV1.toJson manaHint)]
  | .retreat player slot manaHint =>
      .ofKind "retreat" [("player", player.toJson), ("slot", slot.toJson),
        ("mana_hint", .optional ManaTypeV1.toJson manaHint)]
  | .declareAttack player target manaHint =>
      .ofKind "declare_attack" [("player", player.toJson), ("target", target.toJson),
        ("mana_hint", .optional ManaTypeV1.toJson manaHint)]
  | .endTurn player => .ofKind "end_turn" [("player", player.toJson)]
  | .passPriority player => .ofKind "pass_priority" [("player", player.toJson)]
  | .convertCoin player manaType =>
      .ofKind "convert_coin" [("player", player.toJson), ("mana_type", manaType.toJson)]
  | .chooseManaType player manaType =>
      .ofKind "choose_mana_type" [("player", player.toJson), ("mana_type", manaType.toJson)]
  | .choosePromotion player slot =>
      .ofKind "choose_promotion" [("player", player.toJson), ("slot", slot.toJson)]
  | .choosePrize player prizeIndex =>
      .ofKind "choose_prize" [("player", player.toJson), ("prize_index", .nat prizeIndex)]
  | .resign player => .ofKind "resign" [("player", player.toJson)]

def ErrorV1.toJson : ErrorV1 → JsonValue
  | .notYourDecision => .ofKind "not_your_decision" []
  | .gameAlreadyOver => .ofKind "game_already_over" []
  | .gameBroken => .ofKind "game_broken" []
  | .wrongPhase => .ofKind "wrong_phase" []
  | .emptyPosition => .ofKind "empty_position" []
  | .unknownCard => .ofKind "unknown_card" []
  | .insufficientMana short => .ofKind "insufficient_mana" [("short", short.toJson)]
  | .summonExhausted => .ofKind "summon_exhausted" []
  | .normalAttackAlreadyUsed => .ofKind "normal_attack_already_used" []
  | .normalRetreatAlreadyUsed => .ofKind "normal_retreat_already_used" []
  | .alreadyUpgradedThisTurn => .ofKind "already_upgraded_this_turn" []
  | .playedThisTurn => .ofKind "played_this_turn" []
  | .illegalUpgradeTarget => .ofKind "illegal_upgrade_target" []
  | .invalidTarget => .ofKind "invalid_target" []
  | .pendingInputMismatch => .ofKind "pending_input_mismatch" []
  | .invalidManaHint => .ofKind "invalid_mana_hint" []

def DamageConstraintV1.toJson (w : DamageConstraintV1) : JsonValue :=
  .string (match w with
    | .unincreasable => "unincreasable"
    | .unpreventable => "unpreventable")

def DamageStageV1.toJson (w : DamageStageV1) : JsonValue :=
  .string (match w with
    | .addition => "addition"
    | .persistentReduction => "persistent_reduction"
    | .clamp => "clamp"
    | .commit => "commit")

def DamageOperationV1.toJson : DamageOperationV1 → JsonValue
  | .add amount => .ofKind "add" [("amount", .nat amount.toNat)]
  | .reduce amount => .ofKind "reduce" [("amount", .nat amount.toNat)]
  | .clampToZero => .ofKind "clamp_to_zero" []

def DamageSourceV1.toJson : DamageSourceV1 → JsonValue
  | .attack controller position ability =>
      .ofKind "attack" [("controller", controller.toJson), ("position", position.toJson),
        ("ability", ability.toJson)]
  | .spell controller card definition =>
      .ofKind "spell" [("controller", controller.toJson), ("card", .nat card.toNat),
        ("definition", definition.toJson)]
  | .skill controller position ability =>
      .ofKind "skill" [("controller", controller.toJson), ("position", position.toJson),
        ("ability", ability.toJson)]
  | .trigger controller position ability =>
      .ofKind "trigger" [("controller", controller.toJson), ("position", position.toJson),
        ("ability", ability.toJson)]

def DamageOriginV1.toJson : DamageOriginV1 → JsonValue
  | .printedAbility ability => .ofKind "printed_ability" [("ability", ability.toJson)]
  | .persistentCard card => .ofKind "persistent_card" [("card", .nat card.toNat)]

def BattlefieldTargetV1.toJson (w : BattlefieldTargetV1) : JsonValue :=
  .ofFields [("controller", w.controller.toJson), ("position", w.position.toJson)]

def DamageContextV1.toJson (w : DamageContextV1) : JsonValue :=
  .ofFields [("source", w.source.toJson), ("target", w.target.toJson)]

def EventV1.toJson : EventV1 → JsonValue
  | .turnBegan player => .ofKind "turn_began" [("player", player.toJson)]
  | .summonsReadied player positions =>
      .ofKind "summons_readied" [("player", player.toJson),
        ("positions", .array (positions.map PositionV1.toJson))]
  | .cardDrawn player card =>
      .ofKind "card_drawn" [("player", player.toJson), ("card", .nat card.toNat)]
  | .manaProduced player source manaType =>
      .ofKind "mana_produced" [("player", player.toJson), ("source", source.toJson),
        ("mana_type", manaType.toJson)]
  | .summonPlayed player card slot =>
      .ofKind "summon_played" [("player", player.toJson), ("card", .nat card.toNat),
        ("slot", slot.toJson)]
  | .summonUpgraded player card position =>
      .ofKind "summon_upgraded" [("player", player.toJson), ("card", .nat card.toNat),
        ("position", position.toJson)]
  | .spellCast player card targets =>
      .ofKind "spell_cast" [("player", player.toJson), ("card", .nat card.toNat),
        ("targets", .array (targets.map PositionV1.toJson))]
  | .skillActivated player position ability =>
      .ofKind "skill_activated" [("player", player.toJson), ("position", position.toJson),
        ("ability", ability.toJson)]
  | .attackDeclared player target =>
      .ofKind "attack_declared" [("player", player.toJson), ("target", target.toJson)]
  | .priorityPassed player => .ofKind "priority_passed" [("player", player.toJson)]
  | .stackItemResolved item => .ofKind "stack_item_resolved" [("item", item.toJson)]
  | .damageCalculationStarted context base constraints =>
      .ofKind "damage_calculation_started" [("context", context.toJson),
        ("base", .nat base.toNat), ("constraints", constraints.toJson)]
  | .damageAdjustmentApplied context stage operation origin input output =>
      .ofKind "damage_adjustment_applied" [("context", context.toJson), ("stage", stage.toJson),
        ("operation", operation.toJson), ("origin", origin.toJson), ("input", .nat input.toNat),
        ("output", .nat output.toNat)]
  | .damageAdjustmentSkipped context stage operation origin input constraint =>
      .ofKind "damage_adjustment_skipped" [("context", context.toJson), ("stage", stage.toJson),
        ("operation", operation.toJson), ("origin", origin.toJson), ("input", .nat input.toNat),
        ("constraint", constraint.toJson)]
  | .damageApplied context amount before after =>
      .ofKind "damage_applied" [("context", context.toJson), ("amount", .nat amount.toNat),
        ("before", .nat before.toNat), ("after", .nat after.toNat)]
  | .healed position amount =>
      .ofKind "healed" [("position", position.toJson), ("amount", .nat amount.toNat)]
  | .summonDestroyed position owner =>
      .ofKind "summon_destroyed" [("position", position.toJson), ("owner", owner.toJson)]
  | .prizeRecovered player card =>
      .ofKind "prize_recovered" [("player", player.toJson), ("card", .nat card.toNat)]
  | .prizesViewed player prizes =>
      .ofKind "prizes_viewed" [("player", player.toJson),
        ("prizes", .array (prizes.map (fun n => .nat n.toNat)))]
  | .summonPromoted player slot =>
      .ofKind "summon_promoted" [("player", player.toJson), ("from", slot.toJson)]
  | .summonsSwapped player slot =>
      .ofKind "summons_swapped" [("player", player.toJson), ("main", slot.toJson)]
  | .triggerFired controller position event ability =>
      .ofKind "trigger_fired" [("controller", controller.toJson), ("position", position.toJson),
        ("event", event.toJson), ("ability", ability.toJson)]
  | .coinConverted player manaType =>
      .ofKind "coin_converted" [("player", player.toJson), ("mana_type", manaType.toJson)]
  | .manaDeducted player manaType amount =>
      .ofKind "mana_deducted" [("player", player.toJson), ("mana_type", manaType.toJson),
        ("amount", .nat amount.toNat)]
  | .gameEnded winner reason =>
      .ofKind "game_ended" [("winner", winner.toJson), ("reason", reason.toJson)]

/-! ## Records -/

def SetRequirementV1.toJson (w : SetRequirementV1) : JsonValue :=
  .ofFields [("set", .string w.set), ("revision", .nat w.revision.toNat)]

/-- The keys of `metadata` are already in order. -/
def HeaderV1.toJson (w : HeaderV1) : JsonValue :=
  .ofFields [("sequence", .nat w.sequence), ("record", .string "header"),
    ("format", .string w.format), ("format_version", .nat w.formatVersion.toNat),
    ("metadata", .object w.metadata)]

def MatchCreatedV1.toJson (w : MatchCreatedV1) : JsonValue :=
  .ofFields [("sequence", .nat w.sequence), ("record", .string "match_created"),
    ("required_sets", .array (w.requiredSets.map SetRequirementV1.toJson)),
    ("initial_state", w.initialState.toJson), ("state_digest", w.stateDigest.toJson)]

def ActionRecordV1.toJson (w : ActionRecordV1) : JsonValue :=
  .ofFields [("sequence", .nat w.sequence), ("record", .string "action"), ("step", .nat w.step),
    ("action", w.action.toJson)]

def EventRecordV1.toJson (w : EventRecordV1) : JsonValue :=
  .ofFields [("sequence", .nat w.sequence), ("record", .string "event"), ("step", .nat w.step),
    ("index", .nat w.index), ("event", w.event.toJson)]

def StepCompletedV1.toJson (w : StepCompletedV1) : JsonValue :=
  .ofFields [("sequence", .nat w.sequence), ("record", .string "step_completed"),
    ("step", .nat w.step), ("event_count", .nat w.eventCount),
    ("state_digest", w.stateDigest.toJson)]

def StepRejectedV1.toJson (w : StepRejectedV1) : JsonValue :=
  .ofFields [("sequence", .nat w.sequence), ("record", .string "step_rejected"),
    ("step", .nat w.step), ("error", w.error.toJson), ("state_digest", w.stateDigest.toJson)]

def FinalStateV1.toJson (w : FinalStateV1) : JsonValue :=
  .ofFields [("sequence", .nat w.sequence), ("record", .string "final_state"),
    ("final_state", w.finalState.toJson), ("state_digest", w.stateDigest.toJson)]

def MatchCompletedV1.toJson (w : MatchCompletedV1) : JsonValue :=
  .ofFields [("sequence", .nat w.sequence), ("record", .string "match_completed"),
    ("step_count", .nat w.stepCount), ("event_count", .nat w.eventCount),
    ("state_digest", w.stateDigest.toJson), ("winner", w.winner.toJson),
    ("reason", w.reason.toJson)]

def RecordV1.toJson : RecordV1 → JsonValue
  | .header value => value.toJson
  | .matchCreated value => value.toJson
  | .action value => value.toJson
  | .event value => value.toJson
  | .stepCompleted value => value.toJson
  | .stepRejected value => value.toJson
  | .finalState value => value.toJson
  | .matchCompleted value => value.toJson

end Summoners
