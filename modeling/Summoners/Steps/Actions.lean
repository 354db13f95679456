import Summoners.Engine.Apply
import Summoners.Steps.Items

/-! # What one accepted action can do

`ActionStep` lists the outcomes of the thirteen handlers, before the drain.
-/

namespace Summoners
set_option autoImplicit false

open Effects

/-- The free Main Phase most actions ask for. -/
structure FreeMain (s : GameState) : Prop where
  pending : s.pending = none
  phase : s.turn.phase = .main
  window : s.turn.window = none

/-- Free play: the match goes on, nobody is asked, and nothing is left to do. -/
def FreePlay (s : GameState) : Prop :=
  s.status = .playing ∧ s.pending = none ∧ s.turn.window = none ∧ s.work = []

instance : DecidablePred FreePlay := fun _ => inferInstanceAs (Decidable (_ ∧ _ ∧ _ ∧ _))

theorem freeMain_of_require {s : GameState} (h : Board.requireFreeMainPhase s = none) :
    FreeMain s := by
  unfold Board.requireFreeMainPhase at h
  split at h
  · cases h
  · rename_i hp
    split at h
    · cases h
    · rename_i hw
      simp only [not_or, not_not] at hw
      exact ⟨by simpa using hp, hw.1, by simpa using hw.2⟩

/-- A hand card named by its instance, with the hand it leaves behind. -/
def TakesFromHand (ps : PlayerState) (card : CardInstanceId) (cardRef : CardRef)
    (hand : List CardRef) : Prop :=
  removeFirst (fun c => c.instanceId = card) ps.hand = some (cardRef, hand)

/-- The state a paid Attack leaves: Combat begun, the Attack on the Stack, the window open. -/
def attackBegun (s : GameState) (player : PlayerId) (target : Position) : GameState :=
  { s with
    turn := { s.turn with
      normalAttackUsed := true
      phase := .combat
      window := some (Stack.windowAfterPlay player) }
    stack := s.stack ++ [.attack player target] }

/-- The same for a cast card. -/
def castBegun (s : GameState) (player : PlayerId) (card : CardRef) (targets : List Position) :
    GameState :=
  { s with
    turn := { s.turn with
      window := some (Stack.windowAfterPlay player)
      spellPlayedThisTurn := s.turn.spellPlayedThisTurn.set player true }
    stack := s.stack ++ [.spell player card targets] }

/-- The state the leaves of a Skill run in: the cost paid, the Summon exhausted. -/
def skillBegun (s : GameState) (player : PlayerId) (p : Position) (bank : ManaBank)
    (x : SummonInstance) : GameState :=
  s.setPlayer player ({ s.player player with mana := bank }.setAt p (some (Skills.exhaust x)))

def windowClosed (s : GameState) : GameState := { s with turn := { s.turn with window := none } }

/-- What the handover of `ending`'s turn does to a Summon of `p`. -/
def renew (ending p : PlayerId) (x : SummonInstance) : SummonInstance :=
  if p = ending then Upkeep.clearPerTurnFlags x else Turn.expireMarker (Upkeep.clearPerTurnFlags x)

theorem renew_same (ending p : PlayerId) (x : SummonInstance) :
    SameSummon x (renew ending p x) ∧ (renew ending p x).damage = x.damage := by
  unfold renew
  split <;> exact ⟨⟨rfl, rfl, rfl⟩, rfl⟩

/-- A handover touches per-turn records and markers only, the same way on a player's whole board. -/
theorem handover_player_eq (s : GameState) (p : PlayerId) :
    (Turn.handover s).state.player p =
      { s.player p with
        main := (s.player p).main.map (renew s.turn.activePlayer p)
        bench := (s.player p).bench.mapSummons (renew s.turn.activePlayer p) } := by
  have hplayer : (Turn.handover s).state.player p =
      (Turn.handoverBoards s.players s.turn.activePlayer).get p := rfl
  rw [hplayer]
  unfold Turn.handoverBoards
  rcases PlayerId.eq_or_eq_opponent s.turn.activePlayer p with rfl | rfl
  · have hne : s.turn.activePlayer ≠ s.turn.activePlayer.opponent := (PlayerId.opponent_ne _).symm
    have hrenew : renew s.turn.activePlayer s.turn.activePlayer = Upkeep.clearPerTurnFlags := by
      funext x
      exact if_pos rfl
    rw [PerPlayer.get_set_of_ne _ hne, PerPlayer.get_set_self, hrenew]
    rfl
  · have hrenew : renew s.turn.activePlayer s.turn.activePlayer.opponent =
        Turn.expireMarker ∘ Upkeep.clearPerTurnFlags := by
      funext x
      exact if_neg (PlayerId.opponent_ne _)
    rw [PerPlayer.get_set_self, PerPlayer.get_set_opponent, hrenew]
    simp [Turn.expireCannotBeMovedByOpponent, Upkeep.resetPerTurnSummonRecords,
      Bench.mapSummons, GameState.player]

theorem handover_player (s : GameState) (p : PlayerId) :
    ∃ f : SummonInstance → SummonInstance,
      (∀ x, SameSummon x (f x) ∧ (f x).damage = x.damage) ∧
        (Turn.handover s).state.player p =
          { s.player p with
            main := (s.player p).main.map f, bench := (s.player p).bench.mapSummons f } :=
  ⟨_, renew_same _ p, handover_player_eq s p⟩

/-- What a handover queues: the steps of Upkeep, with the Upkeep triggers behind the readying. -/
theorem handover_work (s : GameState) :
    ∃ v : GameState, (Turn.handover s).state.work = s.work ++ (([.readyAll] ++
      Triggers.candidates v [s.turn.activePlayer.opponent] .yourUpkeep) ++
        [.drawCard, .produceMana s.turn.activePlayer.opponent .player, .beginMainPhase]) := by
  refine ⟨(({ s with
    turn := Turn.freshTurn s.turn.activePlayer.opponent
    players := Turn.handoverBoards s.players s.turn.activePlayer } : GameState).pushBack
      [.readyAll]), ?_⟩
  simp only [Turn.handover, Triggers.discoverBack, GameState.pushBack_work, List.append_assoc]

/-- The outcomes of one accepted action. -/
inductive ActionStep (s : GameState) : GameAction → GameState → List GameEvent → Prop
  | played {c : PlayerId} {card : CardInstanceId} {slot : BenchSlot} {cardRef : CardRef}
      {hand : List CardRef} {entity : Entity} (free : FreeMain s)
      (hslot : (s.player c).bench.get slot = none)
      (hhand : TakesFromHand (s.player c) card cardRef hand)
      (hcard : s.cards.get cardRef.defId = some entity) (hfamily : family entity = .summon)
      (hform : entity.get .form = some .base) :
      ActionStep s (.playSummon c card slot)
        (s.setPlayer c
          { s.player c with
            hand := hand
            bench := (s.player c).bench.set slot (some (Board.enteringSummon c cardRef)) })
        [.summonPlayed c card slot]
  | upgraded {c : PlayerId} {card : CardInstanceId} {p : Position} {x : SummonInstance}
      {cardRef : CardRef} {hand : List CardRef} {entity top : Entity} {newForm topForm : Form}
      (free : FreeMain s) (hx : (s.player c).summonAt p = some x)
      (hturn : x.turn.upgrade = .available)
      (hhand : TakesFromHand (s.player c) card cardRef hand)
      (hcard : s.cards.get cardRef.defId = some entity) (hfamily : family entity = .summon)
      (hform : entity.get .form = some newForm)
      (htop : s.cards.get x.chain.top.defId = some top) (htopForm : top.get .form = some topForm)
      (hallowed : Board.upgradeAllowed entity top newForm topForm = true) :
      ActionStep s (.upgradeSummon c card p)
        (s.setPlayer c
          ({ s.player c with hand := hand }.setAt p (some (Board.upgraded x cardRef))))
        [.summonUpgraded c card p]
  | cast {c : PlayerId} {card : CardInstanceId} {targets : List Position}
      {hint : Option ManaType} {cardRef : CardRef} {hand : List CardRef} {entity : Entity}
      {timing : SpellTiming} {cost : Cost} {payment : Payment} (hpending : s.pending = none)
      (hhand : TakesFromHand (s.player c) card cardRef hand)
      (hcard : s.cards.get cardRef.defId = some entity)
      (hcast : Stack.castingOf entity = some (timing, cost))
      (htiming : Stack.legalTiming s c timing = true)
      (hpay : Payment.deduct (s.player c).mana cost hint = .ok payment) :
      ActionStep s (.castSpell c card targets hint)
        ((castBegun s c cardRef targets).setPlayer c
          { s.player c with mana := payment.bank, hand := hand })
        (payment.events c ++ [.spellCast c card targets])
  | skill {c : PlayerId} {p : Position} {ability : EntityId} {targets : List Position}
      {hint : Option ManaType} {x : SummonInstance} {top skill : Entity} {payment : Payment}
      (free : FreeMain s) (hx : (s.player c).summonAt p = some x) (hready : x.readiness = .ready)
      (htop : s.cards.get x.chain.top.defId = some top)
      (hskill : (top.all .skill).find? (fun e => e.id = ability) = some skill)
      (hvalid : ∀ leaf ∈ skill.all .effectLeaf, Skills.validTargets s c targets leaf = true)
      (hpay : Payment.deduct (s.player c).mana ((skill.get .cost).getD .default) hint =
        .ok payment) {u : GameState} {es : List GameEvent}
      (hleaves : applyLeaves
        (s.setPlayer c ({ s.player c with mana := payment.bank }.setAt p (some (Skills.exhaust x))))
        (.skill c p ability) targets (skill.all .effectLeaf) = (u, es)) :
      ActionStep s (.activateSkill c p ability targets hint) u
        (payment.events c ++ .skillActivated c p ability :: es)
  | retreated {c : PlayerId} {slot : BenchSlot} {hint : Option ManaType} {x y : SummonInstance}
      {cost : Cost} {payment : Payment} (free : FreeMain s) (hmain : (s.player c).main = some x)
      (hbench : (s.player c).bench.get slot = some y)
      (hpay : Payment.deduct (s.player c).mana cost hint = .ok payment) :
      ActionStep s (.retreat c slot hint)
        ((({ s with turn := { s.turn with normalRetreatUsed := true } } : GameState).setPlayer c
          (exchange { s.player c with mana := payment.bank } slot x y)).pushBack
            (exchangeSteps c slot))
        (payment.events c ++ [.summonsSwapped c slot])
  | attacked {c : PlayerId} {hint : Option ManaType} {x : SummonInstance} {top attack : Entity}
      {payment : Payment} (free : FreeMain s) (hmain : (s.player c).main = some x)
      (htop : s.cards.get x.chain.top.defId = some top) (hattack : top.get .attack = some attack)
      (hpay : Payment.deduct (s.player c).mana ((attack.get .cost).getD .default) hint =
        .ok payment) :
      ActionStep s (.declareAttack c .main hint)
        ((attackBegun s c .main).setPlayer c { s.player c with mana := payment.bank })
        (payment.events c ++ [.attackDeclared c .main])
  | turnEnded {c : PlayerId} (hpending : s.pending = none) (hwindow : s.turn.window = none)
      (hphase : s.turn.phase = .main ∨ s.turn.phase = .combat) (hactive : c = s.turn.activePlayer) :
      ActionStep s (.endTurn c)
        { s with turn := { s.turn with window := some (Stack.windowAfterPlay c) } } []
  | passed {c : PlayerId} (hpending : s.pending = none)
      (hwindow : s.turn.window = some ⟨c, false⟩) :
      ActionStep s (.passPriority c)
        { s with turn := { s.turn with window := some ⟨c.opponent, true⟩ } } [.priorityPassed c]
  | passedToStack {c : PlayerId} (hpending : s.pending = none)
      (hwindow : s.turn.window = some ⟨c, true⟩) (hstack : s.stack ≠ []) :
      ActionStep s (.passPriority c) (windowClosed s) [.priorityPassed c]
  | handedOver {c : PlayerId} (hpending : s.pending = none)
      (hwindow : s.turn.window = some ⟨c, true⟩) (hstack : s.stack = []) :
      ActionStep s (.passPriority c) (Turn.handover (windowClosed s)).state
        [.priorityPassed c, .turnBegan s.turn.activePlayer.opponent]
  | converted {t : ManaType} (hpending : s.pending = none)
      (hwhen : Turn.restingInOwnMain s .two = true ∨ Turn.holdsPriority s .two = true)
      (hcoin : s.coin = some .mk) (ht : t ∈ Upkeep.anchorTypes s.cards (s.player .two)) :
      ActionStep s (.convertCoin .two t)
        (({ s with coin := none } : GameState).setPlayer .two (Upkeep.bank (s.player .two) t))
        [.coinConverted .two t]
  | manaChosen {c : PlayerId} {source : ManaSource} {t : ManaType}
      (hpending : s.pending = some (.manaProduction c source))
      (ht : t ∈ Upkeep.availableTypes s.cards (s.player c) source) :
      ActionStep s (.chooseManaType c t)
        (({ s with pending := none } : GameState).setPlayer c (Upkeep.bank (s.player c) t))
        [.manaProduced c source t]
  | promotionChosen {c : PlayerId} {slot : BenchSlot} {x : SummonInstance}
      (hpending : s.pending = some (.promotion c)) (hx : (s.player c).bench.get slot = some x) :
      ActionStep s (.choosePromotion c slot)
        (({ s with pending := none } : GameState).setPlayer c
          { s.player c with bench := (s.player c).bench.set slot none, main := some x })
        [.summonPromoted c slot]
  | prizeChosen {c : PlayerId} {i : ℕ} {card : CardRef}
      (hpending : s.pending = some (.prizePick c))
      (hcard : (s.player c.opponent).prizes[i]? = some card) :
      ActionStep s (.choosePrize c i)
        (({ s with pending := none } : GameState).setPlayer c.opponent
          { s.player c.opponent with
            prizes := (s.player c.opponent).prizes.eraseIdx i
            hand := (s.player c.opponent).hand ++ [card] })
        [.prizeRecovered c.opponent card.instanceId]
  | resigned {c : PlayerId} :
      ActionStep s (.resign c) { s with status := .ended ⟨c.opponent, .resignation⟩ }
        [.gameEnded c.opponent .resignation]

section
variable {s : GameState} {o : ActionOutcome}

/-! ## One handler each -/

theorem playSummon_step {c : PlayerId} {card : CardInstanceId} {slot : BenchSlot}
    (h : Board.playSummon s c card slot = .ok o) :
    ActionStep s (.playSummon c card slot) o.state o.events := by
  unfold Board.playSummon at h
  split at h
  · cases h
  · rename_i hf
    simp only at h
    split at h
    · cases h
    · rename_i hslot
      split at h
      · cases h
      · rename_i hhand
        split at h
        · cases h
        · rename_i hcard
          split at h
          · cases h
          · rename_i hk
            simp only [not_or, ne_eq, not_not] at hk
            cases h
            exact .played (freeMain_of_require hf) (by simpa using hslot) hhand hcard hk.1 hk.2

theorem upgradeSummon_step {c : PlayerId} {card : CardInstanceId} {p : Position}
    (h : Board.upgradeSummon s c card p = .ok o) :
    ActionStep s (.upgradeSummon c card p) o.state o.events := by
  unfold Board.upgradeSummon at h
  split at h
  · cases h
  · rename_i hf
    simp only at h
    split at h
    · cases h
    · rename_i hx
      split at h
      · cases h
      · cases h
      · rename_i hturn
        split at h
        · cases h
        · rename_i hhand
          split at h
          · cases h
          · rename_i hcard
            split at h
            · cases h
            · rename_i hfamily
              split at h
              · rename_i hform htop
                split at h
                · cases h
                · rename_i htopForm
                  split at h
                  · rename_i hallowed
                    cases h
                    exact .upgraded (freeMain_of_require hf) hx hturn hhand hcard
                      (by simpa using hfamily) hform htop htopForm hallowed
                  · cases h
              · cases h

theorem castSpell_step {c : PlayerId} {card : CardInstanceId} {targets : List Position}
    {hint : Option ManaType} (h : Stack.castSpell s c card targets hint = .ok o) :
    ActionStep s (.castSpell c card targets hint) o.state o.events := by
  unfold Stack.castSpell at h
  split at h
  · cases h
  · rename_i hp
    simp only at h
    split at h
    · cases h
    · rename_i hhand
      split at h
      · cases h
      · rename_i hcard
        split at h
        · cases h
        · rename_i hcast
          split at h
          · cases h
          · rename_i htiming
            split at h
            · cases h
            · split at h
              · cases h
              · rename_i hpay
                cases h
                exact .cast (by simpa using hp) hhand hcard hcast (by simpa using htiming) hpay

theorem activateSkill_step {c : PlayerId} {p : Position} {ability : EntityId}
    {targets : List Position} {hint : Option ManaType}
    (h : Skills.activateSkill s c p ability targets hint = .ok o) :
    ActionStep s (.activateSkill c p ability targets hint) o.state o.events := by
  unfold Skills.activateSkill at h
  split at h
  · cases h
  · rename_i hf
    simp only at h
    split at h
    · cases h
    · rename_i hx
      split at h
      · cases h
      · rename_i hready
        split at h
        · cases h
        · rename_i htop
          split at h
          · cases h
          · rename_i hskill
            split at h
            · cases h
            · rename_i hvalid
              split at h
              · cases h
              · rename_i hpay
                cases h
                refine .skill (freeMain_of_require hf) hx hready htop hskill ?_ hpay rfl
                simpa using hvalid

theorem retreat_step {c : PlayerId} {slot : BenchSlot} {hint : Option ManaType}
    (h : Board.retreat s c slot hint = .ok o) :
    ActionStep s (.retreat c slot hint) o.state o.events := by
  unfold Board.retreat at h
  split at h
  · cases h
  · rename_i hf
    split at h
    · cases h
    · simp only at h
      split at h
      · rename_i hmain hbench
        split at h
        · cases h
        · split at h
          · cases h
          · split at h
            · cases h
            · rename_i hpay
              cases h
              exact .retreated (freeMain_of_require hf) hmain hbench hpay
      · cases h

theorem declareAttack_step {c : PlayerId} {target : Position} {hint : Option ManaType}
    (h : Stack.declareAttack s c target hint = .ok o) :
    ActionStep s (.declareAttack c target hint) o.state o.events := by
  unfold Stack.declareAttack at h
  split at h
  · cases h
  · rename_i hp
    split at h
    · cases h
    · split at h
      · cases h
      · rename_i hw
        simp only [not_or, not_not, ne_eq] at hw
        split at h
        · cases h
        · rename_i ht
          simp only at h
          split at h
          · cases h
          · rename_i hmain
            split at h
            · cases h
            · rename_i htop
              split at h
              · cases h
              · rename_i hattack
                split at h
                · cases h
                · rename_i hpay
                  cases h
                  obtain rfl : target = .main := by simpa using ht
                  exact .attacked ⟨by simpa using hp, hw.1, by simpa using hw.2⟩ hmain htop hattack
                    hpay

theorem endTurn_step {c : PlayerId} (h : Turn.endTurn s c = .ok o) :
    ActionStep s (.endTurn c) o.state o.events := by
  unfold Turn.endTurn at h
  split at h
  · cases h
  · rename_i hg
    rw [not_or, not_or, not_or, not_not, not_not] at hg
    cases h
    exact .turnEnded (by simpa using hg.1) (by simpa using hg.2.1) hg.2.2.1 hg.2.2.2

theorem pass_step {c : PlayerId} (h : Stack.pass s c = .ok o) :
    ActionStep s (.passPriority c) o.state o.events := by
  unfold Stack.pass at h
  split at h
  · cases h
  · rename_i hp
    have hp : s.pending = none := by simpa using hp
    split at h
    · cases h
    · rename_i w hw
      obtain ⟨holder, priorPass⟩ := w
      split at h
      · cases h
      · rename_i hc
        obtain rfl : holder = c := by simpa using hc
        split at h
        · rename_i hpp
          obtain rfl : priorPass = true := hpp
          simp only at h
          split at h
          · rename_i hstack
            cases h
            exact .handedOver hp hw (by simpa using hstack)
          · rename_i hstack
            cases h
            exact .passedToStack hp hw (by simpa using hstack)
        · rename_i hpp
          obtain rfl : priorPass = false := by simpa using hpp
          cases h
          exact .passed hp hw

theorem convertCoin_step {c : PlayerId} {t : ManaType} (h : Turn.convertCoin s c t = .ok o) :
    ActionStep s (.convertCoin c t) o.state o.events := by
  unfold Turn.convertCoin at h
  split at h
  · cases h
  · rename_i hp
    split at h
    · cases h
    · rename_i hwhen
      split at h
      · cases h
      · rename_i hc
        simp only [not_or, not_not, ne_eq] at hc
        obtain ⟨rfl, hcoin⟩ := hc
        split at h
        · cases h
        · rename_i ht
          cases h
          refine .converted (by simpa using hp) ?_ ?_ (by simpa using ht)
          · by_contra hn
            simp only [not_or, Bool.not_eq_true] at hn
            exact hwhen (by simp [hn.1, hn.2])
          · cases hs : s.coin with
            | none => simp [hs] at hcoin
            | some coin => cases coin; rfl

theorem chooseManaType_step {c : PlayerId} {t : ManaType} (h : Turn.chooseManaType s c t = .ok o) :
    ActionStep s (.chooseManaType c t) o.state o.events := by
  unfold Turn.chooseManaType at h
  split at h
  · rename_i hp
    split at h
    · cases h
    · rename_i hc
      obtain rfl := not_not.mp hc
      split at h
      · cases h
      · rename_i ht
        cases h
        exact .manaChosen hp (by simpa using ht)
  · cases h

theorem answerPromotion_step {c : PlayerId} {slot : BenchSlot}
    (h : Destruction.answerPromotion s c slot = .ok o) :
    ActionStep s (.choosePromotion c slot) o.state o.events := by
  unfold Destruction.answerPromotion at h
  split at h
  · rename_i hp
    cases hx : (s.player c).bench.get slot with
    | none => simp [hx] at h
    | some x =>
        simp only [hx, Option.isNone_some, Bool.false_eq_true, if_false,
          Destruction.promoteFromSlot, Except.ok.injEq] at h
        subst h
        exact .promotionChosen hp hx
  · cases h

theorem answerPrize_step {c : PlayerId} {i : ℕ} (h : Destruction.answerPrize s c i = .ok o) :
    ActionStep s (.choosePrize c i) o.state o.events := by
  unfold Destruction.answerPrize at h
  split at h
  · rename_i hp
    simp only at h
    split at h
    · cases h
    · rename_i hcard
      cases h
      exact .prizeChosen hp hcard
  · cases h

/-- **One accepted action does one of the listed things.** -/
theorem dispatch_step {a : GameAction} (h : Apply.dispatch s a = .ok o) :
    ActionStep s a o.state o.events := by
  cases a with
  | playSummon c card slot => exact playSummon_step h
  | upgradeSummon c card p => exact upgradeSummon_step h
  | castSpell c card targets hint => exact castSpell_step h
  | activateSkill c p ability targets hint => exact activateSkill_step h
  | retreat c slot hint => exact retreat_step h
  | declareAttack c target hint => exact declareAttack_step h
  | endTurn c => exact endTurn_step h
  | passPriority c => exact pass_step h
  | convertCoin c t => exact convertCoin_step h
  | chooseManaType c t => exact chooseManaType_step h
  | choosePromotion c slot => exact answerPromotion_step h
  | choosePrize c i => exact answerPrize_step h
  | resign c => cases h; exact .resigned

/-- An action the engine accepts: the state was Playing, and the actor was the required one unless
the action is a resignation. -/
theorem accept_step {a : GameAction} {t : GameState} {es : List GameEvent}
    (h : engine.accept s a = some (t, es)) :
    s.status = .playing ∧ ActionStep s a t es ∧
      ((∃ c, a = .resign c) ∨ a.actor = Apply.requiredActor s) := by
  have hh := engine_accept_eq_some.mp h
  refine ⟨Apply.playing_of_handle hh, ?_⟩
  obtain ⟨c, rfl, ho⟩ | ⟨-, hactor, hd⟩ := Apply.handle_cases hh
  · cases ho
    exact ⟨.resigned, .inl ⟨c, rfl⟩⟩
  · exact ⟨dispatch_step hd, .inr hactor⟩

end

end Summoners
