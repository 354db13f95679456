import Summoners.Checked.Codec
import Summoners.MatchLog.Vocabulary

/-! # The state on the wire

The conversions of `state.rs` and `state/work.rs` that can fail, each with the laws of its two
directions beside it. A wire value fails on an entity id that does not parse, on a chain without a
layer and on a breakage whose rule the engine does not have.

`entityIds` lists the entity ids that occur in a wire value. An id parses from two shapes of text,
and from capital digits, but is written in one, so writing undoes reading where these are canonical.
-/

namespace Summoners
set_option autoImplicit false
open Checked

/-! ## Entity ids -/

def EntityIdV1.fromCore (id : EntityId) : EntityIdV1 := ⟨id.toText⟩

/-- `TryFrom<EntityIdV1> for EntityId`. -/
def EntityIdV1.tryIntoCore (w : EntityIdV1) : Except StateRebuildError EntityId :=
  (EntityId.parse w.text).mapError fun _ => .invalidEntityId w.text

/-- The condition of `validate_entity_id`: the text is the one its id is written as. -/
def EntityIdV1.isCanonical (w : EntityIdV1) : Bool :=
  match EntityId.parse w.text with
  | .ok id => id.toText == w.text
  | .error _ => false

/-- Every id of a list is canonical text. -/
def CanonicalIds (ids : List EntityIdV1) : Prop := ∀ id ∈ ids, id.isCanonical = true

instance (ids : List EntityIdV1) : Decidable (CanonicalIds ids) :=
  inferInstanceAs (Decidable (∀ id ∈ ids, id.isCanonical = true))

theorem EntityIdV1.isCanonical_fromCore (id : EntityId) : (fromCore id).isCanonical = true := by
  simp [isCanonical, fromCore, EntityId.parse_toText]

theorem EntityIdV1.parse_lossless : Lossless (fun _ => True) (fun w => w.isCanonical = true)
    EntityIdV1.fromCore (fun w => EntityId.parse w.text) where
  dec_enc _ := EntityId.parse_toText _
  written := isCanonical_fromCore
  enc_dec {w id} hw hread := by
    simp only [isCanonical, hread, beq_iff_eq] at hw
    show EntityIdV1.mk id.toText = w
    rw [hw]

theorem EntityIdV1.lossless : Lossless (fun _ => True) (fun w => w.isCanonical = true)
    EntityIdV1.fromCore EntityIdV1.tryIntoCore :=
  parse_lossless.mapError _

section
variable {ids ids' : List EntityIdV1}

@[simp] theorem canonicalIds_nil : CanonicalIds [] := by simp [CanonicalIds]

@[simp] theorem canonicalIds_cons {id : EntityIdV1} :
    CanonicalIds (id :: ids) ↔ id.isCanonical = true ∧ CanonicalIds ids := by simp [CanonicalIds]

@[simp] theorem canonicalIds_append :
    CanonicalIds (ids ++ ids') ↔ CanonicalIds ids ∧ CanonicalIds ids' := by
  simp only [CanonicalIds, List.forall_mem_append]

@[simp] theorem canonicalIds_flatMap {α : Type} {f : α → List EntityIdV1} {l : List α} :
    CanonicalIds (l.flatMap f) ↔ ∀ x ∈ l, CanonicalIds (f x) := by
  simp only [CanonicalIds, List.forall_mem_flatMap]

end

/-! ## Cards and Summons -/

def CardRefV1.entityIds (w : CardRefV1) : List EntityIdV1 := [w.definition]

def CardRefV1.fromCore (v : CardRef) : CardRefV1 :=
  ⟨v.instanceId.number, EntityIdV1.fromCore v.defId⟩

def CardRefV1.tryIntoCore (w : CardRefV1) : Except StateRebuildError CardRef := do
  let defId ← w.definition.tryIntoCore
  pure ⟨CardInstanceId.number.symm w.instanceId, defId⟩

theorem CardRefV1.lossless : Lossless (fun _ => True) (fun w => CanonicalIds w.entityIds)
    CardRefV1.fromCore CardRefV1.tryIntoCore where
  dec_enc {v} _ := by
    simp [tryIntoCore, fromCore, EntityIdV1.lossless.dec_enc]
  written v := by
    simp [entityIds, fromCore, EntityIdV1.isCanonical_fromCore]
  enc_dec {w v} hw hread := by
    simp only [tryIntoCore, bind_ok_iff, pure_ok_iff] at hread
    obtain ⟨id, hid, rfl⟩ := hread
    simp only [entityIds, canonicalIds_cons] at hw
    simp [fromCore, EntityIdV1.lossless.enc_dec hw.1 hid]

/-- `card_refs`. -/
def cardRefs (ws : List CardRefV1) : Except StateRebuildError (List CardRef) :=
  ws.mapM CardRefV1.tryIntoCore

def cardRefIds (ws : List CardRefV1) : List EntityIdV1 := ws.flatMap CardRefV1.entityIds

theorem cardRefs_lossless : Lossless (fun _ => True) (fun ws => CanonicalIds (cardRefIds ws))
    (List.map CardRefV1.fromCore) cardRefs :=
  CardRefV1.lossless.list.congr (fun _ _ _ => trivial) canonicalIds_flatMap

def UpgradeChainV1.entityIds (w : UpgradeChainV1) : List EntityIdV1 := cardRefIds w.layers

def UpgradeChainV1.fromCore (v : UpgradeChain) : UpgradeChainV1 :=
  ⟨v.layers.map CardRefV1.fromCore⟩

def UpgradeChainV1.tryIntoCore (w : UpgradeChainV1) : Except StateRebuildError UpgradeChain :=
  match w.layers with
  | [] => .error .emptyUpgradeChain
  | base :: layers => do
      let base ← base.tryIntoCore
      let rest ← cardRefs layers
      pure ⟨base, rest⟩

theorem UpgradeChainV1.lossless : Lossless (fun _ => True) (fun w => CanonicalIds w.entityIds)
    UpgradeChainV1.fromCore UpgradeChainV1.tryIntoCore where
  dec_enc {v} _ := by
    simp [tryIntoCore, fromCore, UpgradeChain.layers, CardRefV1.lossless.dec_enc,
      cardRefs_lossless.dec_enc]
  written v := by
    exact cardRefs_lossless.written v.layers
  enc_dec {w v} hw hread := by
    obtain ⟨_ | ⟨base, layers⟩⟩ := w
    · cases hread
    · simp only [tryIntoCore, bind_ok_iff, pure_ok_iff] at hread
      obtain ⟨b, hb, rest, hrest, rfl⟩ := hread
      simp only [entityIds, cardRefIds, List.flatMap_cons, canonicalIds_append] at hw
      simp [fromCore, UpgradeChain.layers, CardRefV1.lossless.enc_dec hw.1 hb,
        cardRefs_lossless.enc_dec hw.2 hrest]

def SummonInstanceV1.entityIds (w : SummonInstanceV1) : List EntityIdV1 := w.chain.entityIds

def SummonInstanceV1.fromCore (v : SummonInstance) : SummonInstanceV1 where
  chain := UpgradeChainV1.fromCore v.chain
  damage := v.damage
  readiness := ReadinessV1.ofCore v.readiness
  owner := PlayerIdV1.ofCore v.owner
  controller := PlayerIdV1.ofCore v.controller
  durationMarkers := v.durationMarkers.map DurationMarkerV1.ofCore
  turn := SummonTurnRecordV1.ofCore v.turn

def SummonInstanceV1.tryIntoCore (w : SummonInstanceV1) :
    Except StateRebuildError SummonInstance := do
  let chain ← w.chain.tryIntoCore
  pure
    { chain
      damage := w.damage
      readiness := ReadinessV1.ofCore.symm w.readiness
      owner := PlayerIdV1.ofCore.symm w.owner
      controller := PlayerIdV1.ofCore.symm w.controller
      durationMarkers := w.durationMarkers.map DurationMarkerV1.ofCore.symm
      turn := SummonTurnRecordV1.ofCore.symm w.turn }

theorem SummonInstanceV1.lossless : Lossless (fun _ => True) (fun w => CanonicalIds w.entityIds)
    SummonInstanceV1.fromCore SummonInstanceV1.tryIntoCore where
  dec_enc {v} _ := by
    simp [tryIntoCore, fromCore, UpgradeChainV1.lossless.dec_enc]
  written v := by
    exact UpgradeChainV1.lossless.written v.chain
  enc_dec {w v} hw hread := by
    simp only [tryIntoCore, bind_ok_iff, pure_ok_iff] at hread
    obtain ⟨chain, hchain, rfl⟩ := hread
    simp [fromCore, UpgradeChainV1.lossless.enc_dec hw hchain]

/-! ## Players -/

/-- The ids of a slot that may hold a Summon. -/
def slotIds (w : Option SummonInstanceV1) : List EntityIdV1 :=
  w.toList.flatMap SummonInstanceV1.entityIds

/-- `summon.map(SummonInstance::try_from).transpose()`. -/
def trySlot (w : Option SummonInstanceV1) : Except StateRebuildError (Option SummonInstance) :=
  w.mapM SummonInstanceV1.tryIntoCore

theorem trySlot_lossless : Lossless (fun _ => True) (fun w => CanonicalIds (slotIds w))
    (Option.map SummonInstanceV1.fromCore) trySlot :=
  SummonInstanceV1.lossless.option.congr (fun _ _ _ => trivial) (by
    intro w
    simp only [slotIds, canonicalIds_flatMap, Option.mem_toList, Option.mem_def])

def BenchV1.entityIds (w : BenchV1) : List EntityIdV1 :=
  slotIds w.first ++ slotIds w.second ++ slotIds w.third

def BenchV1.fromCore (v : Bench) : BenchV1 where
  first := v.first.map SummonInstanceV1.fromCore
  second := v.second.map SummonInstanceV1.fromCore
  third := v.third.map SummonInstanceV1.fromCore

def BenchV1.tryIntoCore (w : BenchV1) : Except StateRebuildError Bench := do
  let first ← trySlot w.first
  let second ← trySlot w.second
  let third ← trySlot w.third
  pure ⟨first, second, third⟩

theorem BenchV1.lossless : Lossless (fun _ => True) (fun w => CanonicalIds w.entityIds)
    BenchV1.fromCore BenchV1.tryIntoCore where
  dec_enc {v} _ := by
    simp [tryIntoCore, fromCore, trySlot_lossless.dec_enc]
  written v := by
    simp only [entityIds, fromCore, canonicalIds_append, trySlot_lossless.written, and_self]
  enc_dec {w v} hw hread := by
    simp only [tryIntoCore, bind_ok_iff, pure_ok_iff] at hread
    obtain ⟨first, hfirst, second, hsecond, third, hthird, rfl⟩ := hread
    simp only [entityIds, canonicalIds_append] at hw
    obtain ⟨⟨hw₁, hw₂⟩, hw₃⟩ := hw
    simp [fromCore, trySlot_lossless.enc_dec hw₁ hfirst, trySlot_lossless.enc_dec hw₂ hsecond,
      trySlot_lossless.enc_dec hw₃ hthird]

def PlayerStateV1.entityIds (w : PlayerStateV1) : List EntityIdV1 :=
  slotIds w.main ++ w.bench.entityIds ++ cardRefIds w.deck ++ cardRefIds w.hand ++
    cardRefIds w.prizes ++ cardRefIds w.discard ++ cardRefIds w.enchantments

def PlayerStateV1.fromCore (v : PlayerState) : PlayerStateV1 where
  main := v.main.map SummonInstanceV1.fromCore
  bench := BenchV1.fromCore v.bench
  deck := v.deck.map CardRefV1.fromCore
  hand := v.hand.map CardRefV1.fromCore
  prizes := v.prizes.map CardRefV1.fromCore
  discard := v.discard.map CardRefV1.fromCore
  mana := ManaBankV1.ofCore v.mana
  mainLosses := v.mainLosses
  enchantments := v.enchantments.map CardRefV1.fromCore

def PlayerStateV1.tryIntoCore (w : PlayerStateV1) : Except StateRebuildError PlayerState := do
  let main ← trySlot w.main
  let bench ← w.bench.tryIntoCore
  let deck ← cardRefs w.deck
  let hand ← cardRefs w.hand
  let prizes ← cardRefs w.prizes
  let discard ← cardRefs w.discard
  let enchantments ← cardRefs w.enchantments
  pure
    { main, bench, deck, hand, prizes, discard
      mana := ManaBankV1.ofCore.symm w.mana
      mainLosses := w.mainLosses
      enchantments }

theorem PlayerStateV1.lossless : Lossless (fun _ => True) (fun w => CanonicalIds w.entityIds)
    PlayerStateV1.fromCore PlayerStateV1.tryIntoCore where
  dec_enc {v} _ := by
    simp [tryIntoCore, fromCore, trySlot_lossless.dec_enc, BenchV1.lossless.dec_enc,
      cardRefs_lossless.dec_enc]
  written v := by
    simp only [entityIds, fromCore, canonicalIds_append, trySlot_lossless.written,
      BenchV1.lossless.written, cardRefs_lossless.written, and_self]
  enc_dec {w v} hw hread := by
    simp only [tryIntoCore, bind_ok_iff, pure_ok_iff] at hread
    obtain ⟨main, hmain, bench, hbench, deck, hdeck, hand, hhand, prizes, hprizes, discard,
      hdiscard, enchantments, henchantments, rfl⟩ := hread
    simp only [entityIds, canonicalIds_append] at hw
    obtain ⟨⟨⟨⟨⟨⟨hw₁, hw₂⟩, hw₃⟩, hw₄⟩, hw₅⟩, hw₆⟩, hw₇⟩ := hw
    simp [fromCore, trySlot_lossless.enc_dec hw₁ hmain, BenchV1.lossless.enc_dec hw₂ hbench,
      cardRefs_lossless.enc_dec hw₃ hdeck, cardRefs_lossless.enc_dec hw₄ hhand,
      cardRefs_lossless.enc_dec hw₅ hprizes, cardRefs_lossless.enc_dec hw₆ hdiscard,
      cardRefs_lossless.enc_dec hw₇ henchantments]

/-! ## Outcome, the Stack and the work queue -/

def GameStatusV1.entityIds : GameStatusV1 → List EntityIdV1
  | .broken breakage => [breakage.entity]
  | _ => []

def GameStatusV1.fromCore : GameStatus → GameStatusV1
  | .playing => .playing
  | .ended outcome => .ended (GameOutcomeV1.ofCore outcome)
  | .broken breakage => .broken
      { rule := breakage.rule
        entity := EntityIdV1.fromCore breakage.entity
        expected := ComponentKindV1.ofCore breakage.expected }

/-- The `match` on `breakage.rule.as_str()`. -/
def knownRule (rule : String) : Except StateRebuildError String :=
  if rule = "destruction" then .ok "destruction"
  else if rule = "retreat" then .ok "retreat"
  else .error (.unsupportedBreakageRule rule)

theorem knownRule_ok_iff {rule r : String} :
    knownRule rule = .ok r ↔ r = rule ∧ (rule = "destruction" ∨ rule = "retreat") := by
  unfold knownRule
  split_ifs with h₁ h₂
  · simp [h₁, eq_comm]
  · simp [h₂, eq_comm]
  · simp [h₁, h₂]

def GameStatusV1.tryIntoCore : GameStatusV1 → Except StateRebuildError GameStatus
  | .playing => .ok .playing
  | .ended outcome => .ok (.ended (GameOutcomeV1.ofCore.symm outcome))
  | .broken breakage => do
      let rule ← knownRule breakage.rule
      let entity ← breakage.entity.tryIntoCore
      pure (.broken ⟨rule, entity, ComponentKindV1.ofCore.symm breakage.expected⟩)

/-- A Broken status names one of the two rules that `demand` a component. -/
def GameStatus.KnownRule (v : GameStatus) : Prop :=
  ∀ b, v = .broken b → b.rule = "destruction" ∨ b.rule = "retreat"

theorem GameStatusV1.lossless : Lossless GameStatus.KnownRule (fun w => CanonicalIds w.entityIds)
    GameStatusV1.fromCore GameStatusV1.tryIntoCore where
  dec_enc {v} hv := by
    cases v with
    | playing => rfl
    | ended outcome => simp [tryIntoCore, fromCore]
    | broken b =>
        have hrule : knownRule b.rule = .ok b.rule := knownRule_ok_iff.mpr ⟨rfl, hv b rfl⟩
        simp [tryIntoCore, fromCore, EntityIdV1.lossless.dec_enc, hrule]
  written v := by
    cases v <;> simp [entityIds, fromCore, EntityIdV1.isCanonical_fromCore]
  enc_dec {w v} hw hread := by
    cases w with
    | playing =>
        cases hread
        rfl
    | ended outcome =>
        cases hread
        simp [fromCore]
    | broken b =>
        simp only [tryIntoCore, bind_ok_iff, pure_ok_iff] at hread
        obtain ⟨rule, hrule, id, hid, rfl⟩ := hread
        have hsame : rule = b.rule := (knownRule_ok_iff.mp hrule).1
        simp only [entityIds, canonicalIds_cons] at hw
        simp [fromCore, hsame, EntityIdV1.lossless.enc_dec hw.1 hid]

/-- What is written of a status tells it apart, under whatever rule it broke. -/
theorem GameStatusV1.fromCore_injective : Function.Injective GameStatusV1.fromCore := by
  intro v v' h
  cases v <;> cases v' <;> simp only [fromCore, broken.injEq, ended.injEq, BreakageV1.mk.injEq,
    EmbeddingLike.apply_eq_iff_eq, reduceCtorEq] at h
  case playing.playing => rfl
  case ended.ended o o' => rw [h]
  case broken.broken b b' =>
    obtain ⟨hrule, hid, hexpected⟩ := h
    have hentity := EntityIdV1.lossless.injective trivial trivial hid
    cases b
    cases b'
    simp only at hrule hentity hexpected
    rw [hrule, hentity, hexpected]

def StackItemV1.entityIds : StackItemV1 → List EntityIdV1
  | .attack _ _ => []
  | .spell _ card _ => card.entityIds
  | .trigger _ _ ability _ _ _ => [ability]

def StackItemV1.fromCore : StackItem → StackItemV1
  | .attack attacker target => .attack (PlayerIdV1.ofCore attacker) (PositionV1.ofCore target)
  | .spell caster card targets =>
      .spell (PlayerIdV1.ofCore caster) (CardRefV1.fromCore card) (targets.map PositionV1.ofCore)
  | .trigger controller source ability event targets effects =>
      .trigger (PlayerIdV1.ofCore controller) (PositionV1.ofCore source)
        (EntityIdV1.fromCore ability) (TriggerEventV1.ofCore event)
        (targets.map PositionV1.ofCore) (effects.map EffectLeafV1.ofCore)

def StackItemV1.tryIntoCore : StackItemV1 → Except StateRebuildError StackItem
  | .attack attacker target =>
      .ok (.attack (PlayerIdV1.ofCore.symm attacker) (PositionV1.ofCore.symm target))
  | .spell caster card targets => do
      let card ← card.tryIntoCore
      pure (.spell (PlayerIdV1.ofCore.symm caster) card (targets.map PositionV1.ofCore.symm))
  | .trigger controller source ability event targets effects => do
      let ability ← ability.tryIntoCore
      pure (.trigger (PlayerIdV1.ofCore.symm controller) (PositionV1.ofCore.symm source) ability
        (TriggerEventV1.ofCore.symm event) (targets.map PositionV1.ofCore.symm)
        (effects.map EffectLeafV1.ofCore.symm))

theorem StackItemV1.lossless : Lossless (fun _ => True) (fun w => CanonicalIds w.entityIds)
    StackItemV1.fromCore StackItemV1.tryIntoCore where
  dec_enc {v} _ := by
    cases v <;>
      simp [tryIntoCore, fromCore, CardRefV1.lossless.dec_enc, EntityIdV1.lossless.dec_enc]
  written v := by
    cases v <;>
      simp [entityIds, fromCore, EntityIdV1.isCanonical_fromCore, CardRefV1.lossless.written]
  enc_dec {w v} hw hread := by
    cases w with
    | attack attacker target =>
        cases hread
        simp [fromCore]
    | spell caster card targets =>
        simp only [tryIntoCore, bind_ok_iff, pure_ok_iff] at hread
        obtain ⟨c, hc, rfl⟩ := hread
        simp [fromCore, CardRefV1.lossless.enc_dec hw hc]
    | trigger controller source ability event targets effects =>
        simp only [tryIntoCore, bind_ok_iff, pure_ok_iff] at hread
        obtain ⟨id, hid, rfl⟩ := hread
        simp only [entityIds, canonicalIds_cons] at hw
        simp [fromCore, EntityIdV1.lossless.enc_dec hw.1 hid]

def WorkItemV1.entityIds : WorkItemV1 → List EntityIdV1
  | .fireTrigger _ _ _ ability => [ability]
  | _ => []

def WorkItemV1.fromCore : WorkItem → WorkItemV1
  | .destructionCheck position => .destructionCheck (PositionV1.ofCore position)
  | .discardDestroyedChain position => .discardDestroyedChain (PositionV1.ofCore position)
  | .recordMainLoss player => .recordMainLoss (PlayerIdV1.ofCore player)
  | .recoverPrize player => .recoverPrize (PlayerIdV1.ofCore player)
  | .promoteBenchSummon player => .promoteBenchSummon (PlayerIdV1.ofCore player)
  | .resolveMovementConsequences player =>
      .resolveMovementConsequences (PlayerIdV1.ofCore player)
  | .movementTrigger step player position =>
      .movementTrigger (MovementStepV1.ofCore step) (PlayerIdV1.ofCore player)
        (PositionV1.ofCore position)
  | .fireTrigger player position event ability =>
      .fireTrigger (PlayerIdV1.ofCore player) (PositionV1.ofCore position)
        (TriggerEventV1.ofCore event) (EntityIdV1.fromCore ability)
  | .lossCheck player => .lossCheck (PlayerIdV1.ofCore player)
  | .readyAll => .readyAll
  | .drawCard => .drawCard
  | .produceMana player source =>
      .produceMana (PlayerIdV1.ofCore player) (ManaSourceV1.ofCore source)
  | .beginMainPhase => .beginMainPhase

def WorkItemV1.tryIntoCore : WorkItemV1 → Except StateRebuildError WorkItem
  | .destructionCheck position => .ok (.destructionCheck (PositionV1.ofCore.symm position))
  | .discardDestroyedChain position =>
      .ok (.discardDestroyedChain (PositionV1.ofCore.symm position))
  | .recordMainLoss player => .ok (.recordMainLoss (PlayerIdV1.ofCore.symm player))
  | .recoverPrize player => .ok (.recoverPrize (PlayerIdV1.ofCore.symm player))
  | .promoteBenchSummon player => .ok (.promoteBenchSummon (PlayerIdV1.ofCore.symm player))
  | .resolveMovementConsequences player =>
      .ok (.resolveMovementConsequences (PlayerIdV1.ofCore.symm player))
  | .movementTrigger step player position =>
      .ok (.movementTrigger (MovementStepV1.ofCore.symm step) (PlayerIdV1.ofCore.symm player)
        (PositionV1.ofCore.symm position))
  | .fireTrigger player position event ability => do
      let ability ← ability.tryIntoCore
      pure (.fireTrigger (PlayerIdV1.ofCore.symm player) (PositionV1.ofCore.symm position)
        (TriggerEventV1.ofCore.symm event) ability)
  | .lossCheck player => .ok (.lossCheck (PlayerIdV1.ofCore.symm player))
  | .readyAll => .ok .readyAll
  | .drawCard => .ok .drawCard
  | .produceMana player source =>
      .ok (.produceMana (PlayerIdV1.ofCore.symm player) (ManaSourceV1.ofCore.symm source))
  | .beginMainPhase => .ok .beginMainPhase

theorem WorkItemV1.lossless : Lossless (fun _ => True) (fun w => CanonicalIds w.entityIds)
    WorkItemV1.fromCore WorkItemV1.tryIntoCore where
  dec_enc {v} _ := by
    cases v <;> simp [tryIntoCore, fromCore, EntityIdV1.lossless.dec_enc]
  written v := by
    cases v <;> simp [entityIds, fromCore, EntityIdV1.isCanonical_fromCore]
  enc_dec {w v} hw hread := by
    cases w
    case fireTrigger player position event ability =>
      simp only [tryIntoCore, bind_ok_iff, pure_ok_iff] at hread
      obtain ⟨id, hid, rfl⟩ := hread
      simp only [entityIds, canonicalIds_cons] at hw
      simp [fromCore, EntityIdV1.lossless.enc_dec hw.1 hid]
    all_goals
      cases hread
      simp [fromCore]

/-! ## The projection -/

namespace StateProjectionV1

def entityIds (w : StateProjectionV1) : List EntityIdV1 :=
  w.players.one.entityIds ++ w.players.two.entityIds ++ w.stack.flatMap StackItemV1.entityIds ++
    w.work.flatMap WorkItemV1.entityIds ++ w.status.entityIds

def fromState (s : GameState) : StateProjectionV1 where
  players := ⟨PlayerStateV1.fromCore s.players.one, PlayerStateV1.fromCore s.players.two⟩
  coin := coinHeld s.coin
  turn := TurnStateV1.ofCore s.turn
  stack := s.stack.map StackItemV1.fromCore
  stackSegmentBases := s.stackSegmentBases
  work := s.work.map WorkItemV1.fromCore
  pending := s.pending.map PendingInputV1.ofCore
  status := GameStatusV1.fromCore s.status

def intoGameState (w : StateProjectionV1) (cards : CardSet) :
    Except StateRebuildError GameState := do
  let one ← w.players.one.tryIntoCore
  let two ← w.players.two.tryIntoCore
  let stack ← w.stack.mapM StackItemV1.tryIntoCore
  let work ← w.work.mapM WorkItemV1.tryIntoCore
  let status ← w.status.tryIntoCore
  pure
    { players := ⟨one, two⟩
      coin := coinHeld.symm w.coin
      turn := TurnStateV1.ofCore.symm w.turn
      stack
      stackSegmentBases := w.stackSegmentBases
      work
      pending := w.pending.map PendingInputV1.ofCore.symm
      status
      cards }

/-- The two laws at one card set. -/
theorem lossless (cards : CardSet) :
    Lossless (fun s => s.status.KnownRule ∧ s.cards = cards) (fun w => CanonicalIds w.entityIds)
      fromState (fun w => w.intoGameState cards) where
  dec_enc {s} hs := by
    obtain ⟨hrule, rfl⟩ := hs
    simp [intoGameState, fromState, PlayerStateV1.lossless.dec_enc,
      StackItemV1.lossless.list.dec_enc, WorkItemV1.lossless.list.dec_enc,
      GameStatusV1.lossless.dec_enc hrule]
  written s := by
    simp only [entityIds, fromState, canonicalIds_append, canonicalIds_flatMap,
      PlayerStateV1.lossless.written, GameStatusV1.lossless.written, and_true, true_and]
    exact ⟨StackItemV1.lossless.list.written s.stack, WorkItemV1.lossless.list.written s.work⟩
  enc_dec {w s} hw hread := by
    simp only [intoGameState, bind_ok_iff, pure_ok_iff] at hread
    obtain ⟨one, hone, two, htwo, stack, hstack, work, hwork, status, hstatus, rfl⟩ := hread
    simp only [entityIds, canonicalIds_append, canonicalIds_flatMap] at hw
    obtain ⟨⟨⟨⟨hw₁, hw₂⟩, hw₃⟩, hw₄⟩, hw₅⟩ := hw
    simp [fromState, PlayerStateV1.lossless.enc_dec hw₁ hone,
      PlayerStateV1.lossless.enc_dec hw₂ htwo, StackItemV1.lossless.list.enc_dec hw₃ hstack,
      WorkItemV1.lossless.list.enc_dec hw₄ hwork, GameStatusV1.lossless.enc_dec hw₅ hstatus]

/-- Over one card set the projection tells every two states apart, also two broken ones. -/
theorem fromState_injective {s s' : GameState} (hcards : s.cards = s'.cards)
    (h : fromState s = fromState s') : s = s' := by
  have hstatus : s.status = s'.status :=
    GameStatusV1.fromCore_injective (congrArg StateProjectionV1.status h)
  -- everything else is read back from the two states as if they were still played
  have hrest : ({ s with status := .playing } : GameState) = { s' with status := .playing } := by
    refine (lossless s'.cards).injective ⟨?_, hcards⟩ ⟨?_, rfl⟩ ?_
    · simp [GameStatus.KnownRule]
    · simp [GameStatus.KnownRule]
    · simp only [fromState, mk.injEq] at h ⊢
      simp only [h, and_self]
  cases s
  cases s'
  simp only [GameState.mk.injEq] at hrest hstatus ⊢
  simp only [hrest, hstatus, and_self]

end StateProjectionV1

end Summoners
