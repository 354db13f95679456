import Summoners.Engine.Apply
import Summoners.Steps.Leaves

/-! # What one iteration of the drain can do

`ItemStep` lists the outcomes of executing one work item, in the state it has been popped from;
`StackStep` those of resolving the top of the Stack. `drainStep_cases` says that an iteration is one
of the two.
-/

namespace Summoners
set_option autoImplicit false

open Destruction Effects

/-- The triggers one movement step puts in front of work. -/
def movementFires (s : GameState) (step : MovementStep) (c : PlayerId) (p : Position) :
    List WorkItem :=
  (Triggers.matchingAbilities s c p (Triggers.movementEvent step)).map (fun ability =>
    .fireTrigger c p (Triggers.movementEvent step) ability)

/-- The outcomes of executing one work item. -/
inductive ItemStep (s : GameState) : WorkItem → GameState → List GameEvent → Prop
  | readied : ItemStep s .readyAll (Upkeep.readyAll s).1 (Upkeep.readyAll s).2
  | drew {card : CardRef} {deck : List CardRef}
      (hd : (s.player s.turn.activePlayer).deck = card :: deck) :
      ItemStep s .drawCard
        (s.setPlayer s.turn.activePlayer
          { s.player s.turn.activePlayer with
            deck := deck, hand := (s.player s.turn.activePlayer).hand ++ [card] })
        [.cardDrawn s.turn.activePlayer card.instanceId]
  | deckEmpty : ItemStep s .drawCard (Loss.drawFailure s s.turn.activePlayer).1
      [.gameEnded s.turn.activePlayer.opponent .emptyDeckDraw]
  | unproduced {c : PlayerId} {source : ManaSource}
      (ht : Upkeep.availableTypes s.cards (s.player c) source = []) :
      ItemStep s (.produceMana c source) s []
  | produced {c : PlayerId} {source : ManaSource} {t : ManaType}
      (ht : Upkeep.availableTypes s.cards (s.player c) source = [t]) :
      ItemStep s (.produceMana c source) (s.setPlayer c (Upkeep.bank (s.player c) t))
        [.manaProduced c source t]
  | paused {c : PlayerId} {source : ManaSource} {t u : ManaType} {ts : List ManaType}
      (ht : Upkeep.availableTypes s.cards (s.player c) source = t :: u :: ts) :
      ItemStep s (.produceMana c source) { s with pending := some (.manaProduction c source) } []
  | mainPhase : ItemStep s .beginMainPhase { s with turn := { s.turn with phase := .main } } []
  | checked {p : Position} {hit : List PlayerId} (hsub : hit.Sublist (orderedPlayers s))
      (hhit : ∀ q ∈ hit, isDestroyed s q p = .ok true)
      (hmiss : ∀ q, q ∉ hit → isDestroyed s q p = .ok false) :
      ItemStep s (.destructionCheck p) (s.pushBack (hit.flatMap (destructionSteps · p))) []
  | checkBroke {p : Position} {hit : List PlayerId} {b : Breakage}
      (hsub : hit.Sublist (orderedPlayers s)) (hhit : ∀ q ∈ hit, isDestroyed s q p = .ok true)
      (hbroke : ∃ q, isDestroyed s q p = .error b) :
      ItemStep s (.destructionCheck p)
        ((s.pushBack (hit.flatMap (destructionSteps · p))).breakGame b) []
  | discardBroke {p : Position} {b : Breakage} (hb : destroyedController s p = .error b) :
      ItemStep s (.discardDestroyedChain p) (s.breakGame b) []
  | discardMissed {p : Position} (hn : destroyedController s p = .ok none) :
      ItemStep s (.discardDestroyedChain p) s []
  | discarded {p : Position} {c : PlayerId} {x : SummonInstance}
      (hc : destroyedController s p = .ok (some c)) (hx : (s.player c).summonAt p = some x) :
      ItemStep s (.discardDestroyedChain p)
        (Triggers.discoverFront (discardSummon s c p x) (orderedPlayers s) .anySummonDestroyed)
        [.summonDestroyed p x.owner]
  | lossRecorded {c : PlayerId} :
      ItemStep s (.recordMainLoss c)
        (s.setPlayer c { s.player c with mainLosses := (s.player c).mainLosses + 1 }) []
  | prizeless {c : PlayerId} (hp : (s.player c).prizes = []) : ItemStep s (.recoverPrize c) s []
  | prizeDue {c : PlayerId} (hp : (s.player c).prizes ≠ []) :
      ItemStep s (.recoverPrize c) { s with pending := some (.prizePick c.opponent) } []
  | promoteNone {c : PlayerId} (hb : occupiedBenchSlots (s.player c) = []) :
      ItemStep s (.promoteBenchSummon c) s []
  | promoted {c : PlayerId} {slot : BenchSlot} {x : SummonInstance}
      (hb : occupiedBenchSlots (s.player c) = [slot]) (hx : (s.player c).bench.get slot = some x) :
      ItemStep s (.promoteBenchSummon c)
        (s.setPlayer c
          { s.player c with bench := (s.player c).bench.set slot none, main := some x })
        [.summonPromoted c slot]
  | promotionDue {c : PlayerId} {a b : BenchSlot} {l : List BenchSlot}
      (hb : occupiedBenchSlots (s.player c) = a :: b :: l) :
      ItemStep s (.promoteBenchSummon c) { s with pending := some (.promotion c) } []
  | consequences {c : PlayerId} (hm : (s.player c).main.isSome = true) :
      ItemStep s (.resolveMovementConsequences c)
        (s.pushFront [.movementTrigger .leavingBench c .main, .movementTrigger .enteringMain c .main])
        []
  | noConsequences {c : PlayerId} (hm : (s.player c).main = none) :
      ItemStep s (.resolveMovementConsequences c) s []
  | movement {step : MovementStep} {c : PlayerId} {p : Position} :
      ItemStep s (.movementTrigger step c p)
        ((Triggers.markMainEntry s step c p).pushFront (movementFires s step c p)) []
  | unfired {c : PlayerId} {p : Position} {ev : TriggerEvent} {ability : EntityId}
      (ha : Triggers.abilityAt s c p ability = none) : ItemStep s (.fireTrigger c p ev ability) s []
  | opened {c : PlayerId} {p : Position} {ev : TriggerEvent} {ability : EntityId}
      {effects : List EffectLeaf} (ha : Triggers.abilityAt s c p ability = some (true, effects)) :
      ItemStep s (.fireTrigger c p ev ability)
        { s with
          stackSegmentBases := s.stackSegmentBases ++ [s.stack.length]
          stack := s.stack ++
            [.trigger c p ability ev (Triggers.implicitTargets p effects) effects]
          turn := { s.turn with window := some (Stack.windowAfterPlay c) } }
        [.triggerFired c p ev ability]
  | fired {c : PlayerId} {p : Position} {ev : TriggerEvent} {ability : EntityId}
      {effects : List EffectLeaf} {u : GameState} {es : List GameEvent}
      (ha : Triggers.abilityAt s c p ability = some (false, effects))
      (hl : applyLeaves s (.trigger c p ability) (Triggers.implicitTargets p effects) effects =
        (u, es)) :
      ItemStep s (.fireTrigger c p ev ability) u (.triggerFired c p ev ability :: es)
  | lost {c : PlayerId} {reason : LossReason}
      (hl : (3 ≤ (s.player c).mainLosses ∧ reason = .thirdMainLoss) ∨
        (¬3 ≤ (s.player c).mainLosses ∧ reason = .noPromotionAvailable ∧
          (s.player c).main = none ∧ ∀ slot, (s.player c).bench.get slot = none)) :
      ItemStep s (.lossCheck c) (Loss.lose s c reason).1 [.gameEnded c.opponent reason]
  | spared {c : PlayerId} (hl : ¬3 ≤ (s.player c).mainLosses)
      (hb : (s.player c).main ≠ none ∨ ∃ slot, (s.player c).bench.get slot ≠ none) :
      ItemStep s (.lossCheck c) s []

section
variable {s : GameState}

/-! ## The destruction reads -/

theorem mem_orderedPlayers (s : GameState) (q : PlayerId) : q ∈ orderedPlayers s := by
  rcases PlayerId.eq_or_eq_opponent s.turn.activePlayer q with rfl | rfl <;> simp [orderedPlayers]

theorem checkPlayers_cases (p : Position) : ∀ (players : List PlayerId) (s : GameState),
    ∃ hit : List PlayerId, hit.Sublist players ∧ (∀ q ∈ hit, isDestroyed s q p = .ok true) ∧
      ((checkPlayers s p players = s.pushBack (hit.flatMap (destructionSteps · p)) ∧
          ∀ q ∈ players, q ∉ hit → isDestroyed s q p = .ok false) ∨
        ∃ b, (∃ q, isDestroyed s q p = .error b) ∧ checkPlayers s p players =
          (s.pushBack (hit.flatMap (destructionSteps · p))).breakGame b)
  | [], s => ⟨[], .slnil, by simp, .inl ⟨by simp [checkPlayers, GameState.pushBack], by simp⟩⟩
  | player :: players, s => by
      unfold checkPlayers
      split
      · rename_i hd
        obtain ⟨hit, hsub, hhit, hres⟩ :=
          checkPlayers_cases p players (enqueueDestruction s player p)
        have hsame : ∀ q, isDestroyed (enqueueDestruction s player p) q p = isDestroyed s q p :=
          fun _ => rfl
        have hpush : ∀ items, (enqueueDestruction s player p).pushBack items =
            s.pushBack (destructionSteps player p ++ items) := fun items => by
          simp [enqueueDestruction, GameState.pushBack]
        simp only [hsame, hpush] at hhit hres
        refine ⟨player :: hit, hsub.cons_cons _, ?_, ?_⟩
        · intro q hq
          rcases List.mem_cons.mp hq with rfl | hq
          · exact hd
          · exact hhit q hq
        · refine hres.imp (fun h => ⟨h.1, fun q hq hn => ?_⟩) id
          simp only [List.mem_cons, not_or] at hq hn
          exact h.2 q (hq.resolve_left hn.1) hn.2
      · rename_i hd
        obtain ⟨hit, hsub, hhit, hres⟩ := checkPlayers_cases p players s
        refine ⟨hit, hsub.cons _, hhit, hres.imp (fun h => ⟨h.1, fun q hq hn => ?_⟩) id⟩
        rcases List.mem_cons.mp hq with rfl | hq
        · exact hd
        · exact h.2 q hq hn
      · rename_i b hd
        exact ⟨[], List.nil_sublist _, by simp, .inr ⟨b, ⟨player, hd⟩, by simp [GameState.pushBack]⟩⟩

theorem firstDestroyed_some {p : Position} {c : PlayerId} : ∀ {players : List PlayerId},
    firstDestroyed s p players = .ok (some c) → c ∈ players ∧ isDestroyed s c p = .ok true
  | [], h => by cases h
  | player :: players, h => by
      unfold firstDestroyed at h
      split at h
      · cases h
      · rename_i hd
        cases h
        exact ⟨List.mem_cons_self, hd⟩
      · obtain ⟨hm, hd⟩ := firstDestroyed_some h
        exact ⟨List.mem_cons_of_mem _ hm, hd⟩

theorem firstDestroyed_none {p : Position} : ∀ {players : List PlayerId},
    firstDestroyed s p players = .ok none → ∀ q ∈ players, isDestroyed s q p = .ok false
  | [], _ => by simp
  | player :: players, h => by
      unfold firstDestroyed at h
      split at h
      · cases h
      · cases h
      · rename_i hd
        intro q hq
        rcases List.mem_cons.mp hq with rfl | hq
        · exact hd
        · exact firstDestroyed_none h q hq

/-- A destroyed Summon is there, and its damage reaches its printed Life. -/
theorem isDestroyed_true {q : PlayerId} {p : Position} (h : isDestroyed s q p = .ok true) :
    ∃ x life, (s.player q).summonAt p = some x ∧ lifeOf s.cards x = .ok life ∧ life ≤ x.damage := by
  unfold isDestroyed at h
  split at h
  · cases h
  · rename_i x hx
    split at h
    · cases h
    · rename_i life hl
      exact ⟨x, life, hx, hl, by simpa using h⟩

theorem firstDestroyed_error {p : Position} {b : Breakage} : ∀ {players : List PlayerId},
    firstDestroyed s p players = .error b → ∃ q, isDestroyed s q p = .error b
  | [], h => by cases h
  | player :: players, h => by
      unfold firstDestroyed at h
      split at h
      · rename_i hd
        cases h
        exact ⟨player, hd⟩
      · cases h
      · exact firstDestroyed_error h

/-- Only a Summon that prints no Life makes the check fail. -/
theorem isDestroyed_error {q : PlayerId} {p : Position} {b : Breakage}
    (h : isDestroyed s q p = .error b) :
    ∃ x, (s.player q).summonAt p = some x ∧ lifeOf s.cards x = .error b := by
  unfold isDestroyed at h
  split at h
  · cases h
  · rename_i x hx
    split at h
    · rename_i hl
      cases h
      exact ⟨x, hx, hl⟩
    · cases h

theorem destroyedController_some {p : Position} {c : PlayerId}
    (h : destroyedController s p = .ok (some c)) : isDestroyed s c p = .ok true :=
  (firstDestroyed_some h).2

theorem destroyedController_none {p : Position} (h : destroyedController s p = .ok none)
    (q : PlayerId) : isDestroyed s q p = .ok false :=
  firstDestroyed_none h q (mem_orderedPlayers s q)

/-- Both players once a Summon has been discarded. -/
theorem discardSummon_player (s : GameState) (c : PlayerId) (p : Position) (x : SummonInstance)
    (q : PlayerId) :
    (discardSummon s c p x).player q =
      { (if q = c then (s.player q).setAt p none else s.player q) with
        discard := (s.player q).discard ++ if q = x.owner then x.chain.layers else [] } := by
  unfold discardSummon
  simp only [GameState.player_setPlayer]
  by_cases hc : q = c
  · subst hc
    by_cases ho : q = x.owner
    · rw [← ho]
      cases p <;> simp [PlayerState.setAt]
    · cases p <;> simp [PlayerState.setAt, ho]
  · by_cases ho : q = x.owner
    · subst ho
      simp [hc]
    · simp [hc, ho]

/-! ## Work items -/

theorem check_step (p : Position) :
    ItemStep s (.destructionCheck p) (check s p).1 (check s p).2 := by
  obtain ⟨hit, hsub, hhit, ⟨heq, hmiss⟩ | ⟨b, hbroke, heq⟩⟩ :=
    checkPlayers_cases p (orderedPlayers s) s
  · have hs : (check s p).1 = _ := heq
    rw [hs]
    exact .checked hsub hhit (fun q => hmiss q (mem_orderedPlayers s q))
  · have hs : (check s p).1 = _ := heq
    rw [hs]
    exact .checkBroke hsub hhit hbroke

theorem discard_step (p : Position) :
    ItemStep s (.discardDestroyedChain p) (discardDestroyedChain s p).1
      (discardDestroyedChain s p).2 := by
  unfold discardDestroyedChain
  split
  · rename_i hb
    exact .discardBroke hb
  · rename_i hn
    exact .discardMissed hn
  · rename_i c hc
    obtain ⟨x, -, hx, -⟩ := isDestroyed_true (destroyedController_some hc)
    split
    · rename_i hn
      rw [hx] at hn
      cases hn
    · rename_i y hy
      rw [hx] at hy
      cases hy
      exact .discarded hc hx

theorem promote_step (c : PlayerId) :
    ItemStep s (.promoteBenchSummon c) (promoteBenchSummon s c).1 (promoteBenchSummon s c).2 := by
  unfold promoteBenchSummon
  split
  · rename_i hb
    exact .promoteNone hb
  · rename_i slot hb
    have hs : slot ∈ occupiedBenchSlots (s.player c) := by rw [hb]; exact List.mem_singleton_self _
    obtain ⟨x, hx⟩ := Option.isSome_iff_exists.mp (mem_occupiedBenchSlots.mp hs)
    simp only [promoteFromSlot, hx]
    exact .promoted hb hx
  · rename_i hb
    exact .promotionDue hb

/-- Recording a Main arrival changes no printed card. -/
theorem cardAt_markMainEntry (s : GameState) (step : MovementStep) (c q : PlayerId)
    (p r : Position) : Triggers.cardAt (Triggers.markMainEntry s step c p) q r =
      Triggers.cardAt s q r := by
  unfold Triggers.markMainEntry
  split
  · rename_i x hx
    unfold Triggers.cardAt
    by_cases hq : q = c
    · subst hq
      rw [GameState.player_setPlayer_self]
      cases r with
      | main => simp only [PlayerState.summonAt_main, hx, GameState.setPlayer_cards]
      | bench slot => rfl
    · rw [GameState.player_setPlayer_of_ne _ _ _ hq]
      rfl
  · rfl

theorem movementTrigger_step (step : MovementStep) (c : PlayerId) (p : Position) :
    ItemStep s (.movementTrigger step c p) (Triggers.movementTrigger s step c p).1
      (Triggers.movementTrigger s step c p).2 := by
  have hfires : (Triggers.movementTrigger s step c p).1 =
      (Triggers.markMainEntry s step c p).pushFront (movementFires s step c p) := by
    unfold Triggers.movementTrigger movementFires Triggers.matchingAbilities
    simp only [cardAt_markMainEntry]
  rw [hfires]
  exact .movement

theorem lossCheck_step (c : PlayerId) :
    ItemStep s (.lossCheck c) (Loss.check s c).1 (Loss.check s c).2 := by
  unfold Loss.check
  simp only
  split
  · rename_i h
    exact .lost (.inl ⟨h, rfl⟩)
  · rename_i h
    split
    · rename_i hb
      simp only [Bool.and_eq_true, Option.isNone_iff_eq_none, List.all_eq_true] at hb
      exact .lost (.inr ⟨h, rfl, hb.1, fun slot => hb.2 slot slot.mem_all⟩)
    · rename_i hb
      refine .spared h ?_
      by_contra hn
      simp only [not_or, not_exists, not_not, ne_eq] at hn
      exact hb (by simp [hn.1, hn.2])

/-- **One work item does one of the listed things.** -/
theorem execute_step (s : GameState) (item : WorkItem) :
    ItemStep s item (Resolution.execute s item).1 (Resolution.execute s item).2 := by
  cases item with
  | destructionCheck p => exact check_step p
  | discardDestroyedChain p => exact discard_step p
  | recordMainLoss c => exact .lossRecorded
  | recoverPrize c =>
      simp only [Resolution.execute, recoverPrize]
      split
      · rename_i h
        exact .prizeless (by simpa using h)
      · rename_i h
        exact .prizeDue (by simpa using h)
  | promoteBenchSummon c => exact promote_step c
  | resolveMovementConsequences c =>
      simp only [Resolution.execute, resolveMovementConsequences]
      split
      · rename_i h
        exact .consequences h
      · rename_i h
        exact .noConsequences (by simpa using h)
  | movementTrigger step c p => exact movementTrigger_step step c p
  | fireTrigger c p ev ability =>
      simp only [Resolution.execute, Triggers.fireQueued]
      split
      · rename_i trigger ha
        obtain ⟨respondable, effects⟩ := trigger
        cases respondable with
        | true => exact .opened ha
        | false => exact .fired ha rfl
      · rename_i ha
        exact .unfired ha
  | lossCheck c => exact lossCheck_step c
  | readyAll => exact .readied
  | drawCard =>
      simp only [Resolution.execute, Resolution.executeDraw, Upkeep.drawCard]
      cases hd : (s.player s.turn.activePlayer).deck with
      | nil => exact .deckEmpty
      | cons card deck => exact .drew hd
  | produceMana c source =>
      simp only [Resolution.execute, Upkeep.produceMana]
      split
      · rename_i ht
        exact .unproduced ht
      · rename_i ht
        exact .produced ht
      · rename_i ht
        exact .paused ht
  | beginMainPhase => exact .mainPhase

/-! ## The Stack -/

/-- The source and the leaves a Stack item resolves with, read off the state it resolves in. An
Attack whose Attack can no longer be read has none. -/
def itemLeaves (s : GameState) : StackItem → EffectSource × List Position × List EffectLeaf
  | .attack attacker target =>
      match Resolution.attackerEffects s attacker with
      | none => (.attack attacker .main ⟨Vector.replicate 16 0⟩, [target], [])
      | some (ability, effects) => (.attack attacker .main ability, [target], effects)
  | .spell caster card targets =>
      (.spell caster card.instanceId card.defId, targets, Resolution.spellEffects s.cards card.defId)
  | .trigger controller source ability _ targets effects =>
      (.trigger controller source ability, targets, effects)

/-- What happens to the card of a resolved item: a Spell goes to its owner's zones. -/
def placeItem (s : GameState) : StackItem → GameState
  | .spell caster card _ => Resolution.placeSpell s caster card
  | _ => s

theorem resolveItem_eq (s : GameState) (item : StackItem) :
    Resolution.resolveItem s item =
      (placeItem (applyLeaves s (itemLeaves s item).1 (itemLeaves s item).2.1
          (itemLeaves s item).2.2).1 item,
        (applyLeaves s (itemLeaves s item).1 (itemLeaves s item).2.1 (itemLeaves s item).2.2).2) := by
  cases item with
  | attack attacker target =>
      simp only [Resolution.resolveItem, Resolution.resolveAttack, itemLeaves]
      cases Resolution.attackerEffects s attacker <;> rfl
  | spell caster card targets => rfl
  | trigger controller source ability ev targets effects => rfl

/-- The state in which the leaves of the top item run. -/
def poppedStack (s : GameState) : GameState := { s with stack := s.stack.dropLast }

/-- The state in which the front of work is executed. -/
def poppedWork (s : GameState) (work : List WorkItem) : GameState := { s with work := work }

section
variable (s : GameState) (work : List WorkItem) (q : PlayerId)

@[simp] theorem poppedStack_player : (poppedStack s).player q = s.player q := rfl
@[simp] theorem poppedStack_coin : (poppedStack s).coin = s.coin := rfl
@[simp] theorem poppedStack_turn : (poppedStack s).turn = s.turn := rfl
@[simp] theorem poppedStack_stack : (poppedStack s).stack = s.stack.dropLast := rfl
@[simp] theorem poppedStack_bases : (poppedStack s).stackSegmentBases = s.stackSegmentBases := rfl
@[simp] theorem poppedStack_work : (poppedStack s).work = s.work := rfl
@[simp] theorem poppedStack_pending : (poppedStack s).pending = s.pending := rfl
@[simp] theorem poppedStack_status : (poppedStack s).status = s.status := rfl
@[simp] theorem poppedStack_cards : (poppedStack s).cards = s.cards := rfl

@[simp] theorem poppedWork_player : (poppedWork s work).player q = s.player q := rfl
@[simp] theorem poppedWork_coin : (poppedWork s work).coin = s.coin := rfl
@[simp] theorem poppedWork_turn : (poppedWork s work).turn = s.turn := rfl
@[simp] theorem poppedWork_stack : (poppedWork s work).stack = s.stack := rfl
@[simp] theorem poppedWork_bases :
    (poppedWork s work).stackSegmentBases = s.stackSegmentBases := rfl
@[simp] theorem poppedWork_work : (poppedWork s work).work = work := rfl
@[simp] theorem poppedWork_pending : (poppedWork s work).pending = s.pending := rfl
@[simp] theorem poppedWork_status : (poppedWork s work).status = s.status := rfl
@[simp] theorem poppedWork_cards : (poppedWork s work).cards = s.cards := rfl

end

/-- The top of the Stack resolved, `u` and `es` being what its leaves lead to. -/
structure StackStep (s : GameState) (item : StackItem) (u t : GameState) (es : List GameEvent) :
    Prop where
  top : s.stack.getLast? = some item
  above : Stack.segmentBase s < s.stack.length
  leaves : applyLeaves (poppedStack s) (itemLeaves (poppedStack s) item).1
    (itemLeaves (poppedStack s) item).2.1 (itemLeaves (poppedStack s) item).2.2 = (u, es)
  result : t = Resolution.closeSegment (placeItem u item)

/-- The guards of an iteration: no decision, a Playing status, no window. -/
structure Draining (s : GameState) : Prop where
  pending : s.pending = none
  playing : s.status = .playing
  window : s.turn.window = none

/-- The work item the next iteration executes, if it executes one. -/
def nextWork (s : GameState) : Option WorkItem :=
  if Resolution.stackHasUnresolvedItems s then none else s.work.head?

theorem nextWork_of_low {item : WorkItem} {work : List WorkItem}
    (hlow : s.stack.length ≤ Stack.segmentBase s) (hwork : s.work = item :: work) :
    nextWork s = some item := by
  unfold nextWork Resolution.stackHasUnresolvedItems
  rw [decide_eq_false (by omega), hwork]
  rfl

theorem nextWork_of_above (habove : Stack.segmentBase s < s.stack.length) : nextWork s = none := by
  unfold nextWork Resolution.stackHasUnresolvedItems
  rw [decide_eq_true habove]
  rfl

/-- **An iteration of the drain** resolves the top of the Stack or executes the front of work. -/
theorem drainStep_cases {t : GameState} {es : List GameEvent}
    (h : Resolution.drainStep s = some (t, es)) :
    Draining s ∧
      ((∃ item u es', StackStep s item u t es' ∧ es = .stackItemResolved item :: es') ∨
        (s.stack.length ≤ Stack.segmentBase s ∧
          ∃ item work, s.work = item :: work ∧ ItemStep (poppedWork s work) item t es)) := by
  unfold Resolution.drainStep at h
  split at h
  · cases h
  · rename_i hg
    simp only [Bool.or_eq_true, Bool.not_eq_true', not_or, Bool.not_eq_true,
      Option.isSome_eq_false_iff, Option.isNone_iff_eq_none, Bool.not_eq_false] at hg
    split at h
    · cases h
    · rename_i hw
      refine ⟨⟨hg.1, (GameStatus.isPlaying_iff _).mp hg.2, by simpa using hw⟩, ?_⟩
      split at h
      · rename_i ha
        left
        have ha : Stack.segmentBase s < s.stack.length := by
          simpa [Resolution.stackHasUnresolvedItems] using ha
        unfold Resolution.resolveTopStackItem at h
        split at h
        · rename_i hn
          rw [List.getLast?_eq_none_iff] at hn
          rw [hn] at ha
          cases ha
        · rename_i item hi
          simp only [resolveItem_eq, Option.some.injEq, Prod.mk.injEq] at h
          obtain ⟨rfl, rfl⟩ := h
          exact ⟨item, _, _, ⟨hi, ha, rfl, rfl⟩, rfl⟩
      · rename_i ha
        right
        refine ⟨by simpa [Resolution.stackHasUnresolvedItems] using ha, ?_⟩
        split at h
        · rename_i item work hwork
          simp only [Option.some.injEq] at h
          have := execute_step (poppedWork s work) item
          unfold poppedWork at this
          rw [h] at this
          exact ⟨item, work, hwork, this⟩
        · cases h

/-- The iteration that executes the item `nextWork` names. -/
theorem drainStep_of_nextWork {t : GameState} {es : List GameEvent} {item : WorkItem}
    (h : Resolution.drainStep s = some (t, es)) (hnw : nextWork s = some item) :
    ∃ work, s.work = item :: work ∧ ItemStep (poppedWork s work) item t es := by
  obtain ⟨-, ⟨_, _, _, hst, -⟩ | ⟨hlow, first, work, hwork, hi⟩⟩ := drainStep_cases h
  · rw [nextWork_of_above hst.above] at hnw
    cases hnw
  · rw [nextWork_of_low hlow hwork] at hnw
    cases hnw
    exact ⟨work, hwork, hi⟩

/-- At rest: a decision, a finished game, a window, or nothing left to do. -/
theorem drainStep_eq_none (h : Resolution.drainStep s = none) :
    s.pending.isSome = true ∨ s.status ≠ .playing ∨ s.turn.window.isSome = true ∨
      (s.stack.length ≤ Stack.segmentBase s ∧ s.work = []) := by
  unfold Resolution.drainStep at h
  split at h
  · rename_i hg
    simp only [Bool.or_eq_true, Bool.not_eq_true'] at hg
    refine hg.imp id (fun hp => .inl (fun hs => ?_))
    rw [hs] at hp
    cases hp
  · split at h
    · rename_i hw
      exact .inr (.inr (.inl hw))
    · split at h
      · cases h
      · rename_i ha
        split at h
        · cases h
        · rename_i hw
          exact .inr (.inr (.inr ⟨by simpa [Resolution.stackHasUnresolvedItems] using ha, hw⟩))

end

end Summoners
