import Mathlib.Algebra.Order.BigOperators.Group.List
import Mathlib.Algebra.Order.Group.Nat
import Mathlib.Algebra.Ring.Nat
import Mathlib.Data.Prod.Lex
import Summoners.Fixtures
import Summoners.Steps.Standing

/-! # The drain terminates

An iteration resolves a Stack item and may queue any number of consequences, or it executes a work
item and leaves the Stack alone, unless it opens a window, which stops the loop. So the Stack ranks
above work, and work is weighed by what an item can still queue: a check stands for two whole
destruction chains, a discard for the triggers of eight positions, a movement step for those of one.
The triggers themselves queue nothing, as long as they print what the loader admits in a trigger.
-/

namespace Summoners
set_option autoImplicit false

open Effects RunToCompletion Destruction

/-! ## How many triggers one event can queue -/

/-- The Trigger abilities of all cards together, a bound for those of any one card. -/
def CardSet.triggerCount (cards : CardSet) : ℕ :=
  (cards.entities.map (fun e => (e.all .trigger).length)).sum

theorem CardSet.length_triggers_le {cards : CardSet} {e : Entity} (he : e ∈ cards.entities) :
    (e.all .trigger).length ≤ cards.triggerCount :=
  List.single_le_sum (fun _ _ => Nat.zero_le _) _ (List.mem_map_of_mem he)

section
variable (s : GameState) (c : PlayerId) (p : Position) (ev : TriggerEvent)

theorem length_matchingAbilities_le :
    (Triggers.matchingAbilities s c p ev).length ≤ s.cards.triggerCount := by
  unfold Triggers.matchingAbilities
  split
  · exact Nat.zero_le _
  · rename_i e he
    rw [List.length_map]
    exact (List.length_filter_le _ _).trans (CardSet.length_triggers_le (cardAt_mem he))

theorem length_movementFires_le (step : MovementStep) :
    (movementFires s step c p).length ≤ s.cards.triggerCount := by
  unfold movementFires
  rw [List.length_map]
  exact length_matchingAbilities_le s c p _

theorem length_controlledPositions_le (ps : PlayerState) :
    (Triggers.controlledPositions ps).length ≤ 4 := by
  have hmain : (if ps.main.isSome then [Position.main] else []).length ≤ 1 := by
    split <;> simp
  have hbench : (occupiedBenchSlots ps).length ≤ 3 := List.length_filter_le _ _
  unfold Triggers.controlledPositions
  rw [List.length_append, List.length_map]
  omega

theorem length_flatMap_le {α β : Type} {f : α → List β} {bound : ℕ} (hf : ∀ a, (f a).length ≤ bound) :
    ∀ l : List α, (l.flatMap f).length ≤ l.length * bound
  | [] => by simp
  | a :: l => by
      have hhead := hf a
      have htail := length_flatMap_le hf l
      rw [List.flatMap_cons, List.length_append, List.length_cons, Nat.add_mul, Nat.one_mul]
      omega

theorem length_candidates_le (players : List PlayerId) :
    (Triggers.candidates s players ev).length ≤ players.length * (4 * s.cards.triggerCount) := by
  unfold Triggers.candidates
  refine length_flatMap_le (fun q => ?_) players
  have hfound : ∀ r, ((Triggers.matchingAbilities s q r ev).map (fun ability =>
      WorkItem.fireTrigger q r ev ability)).length ≤ s.cards.triggerCount := by
    intro r
    rw [List.length_map]
    exact length_matchingAbilities_le s q r ev
  exact (length_flatMap_le hfound _).trans
    (Nat.mul_le_mul_right _ (length_controlledPositions_le _))

end

section
variable {s t : GameState} {es : List GameEvent}

/-! ## What work can still queue -/

/-- One for the item itself and the weights of all it can queue, where one event queues at most
`bound` triggers of one card. -/
def WorkItem.weight (bound : ℕ) : WorkItem → ℕ
  | .movementTrigger _ _ _ => 1 + bound
  | .resolveMovementConsequences _ => 3 + 2 * bound
  | .discardDestroyedChain _ => 1 + 8 * bound
  | .destructionCheck _ => 17 + 20 * bound
  | _ => 1

def workWeight (bound : ℕ) (work : List WorkItem) : ℕ := (work.map (WorkItem.weight bound)).sum

section
variable (bound : ℕ)

@[simp] theorem workWeight_nil : workWeight bound [] = 0 := rfl

@[simp] theorem workWeight_cons (item : WorkItem) (work : List WorkItem) :
    workWeight bound (item :: work) = item.weight bound + workWeight bound work := by
  simp [workWeight]

@[simp] theorem workWeight_append (work work' : List WorkItem) :
    workWeight bound (work ++ work') = workWeight bound work + workWeight bound work' := by
  simp [workWeight]

theorem WorkItem.weight_pos (item : WorkItem) : 0 < item.weight bound := by
  cases item <;> simp only [WorkItem.weight] <;> omega

/-- Fired triggers weigh one each. -/
theorem workWeight_fires {work : List WorkItem}
    (h : ∀ item ∈ work, ∃ c p ev ability, item = .fireTrigger c p ev ability) :
    workWeight bound work = work.length := by
  induction work with
  | nil => rfl
  | cons item work ih =>
      obtain ⟨c, p, ev, ability, rfl⟩ := h item List.mem_cons_self
      rw [workWeight_cons, ih (fun i hi => h i (List.mem_cons_of_mem _ hi)), List.length_cons]
      exact Nat.add_comm 1 _

theorem workWeight_movementFires (s : GameState) (step : MovementStep) (c : PlayerId)
    (p : Position) : workWeight bound (movementFires s step c p) =
      (movementFires s step c p).length := by
  refine workWeight_fires bound (fun item hitem => ?_)
  obtain ⟨ability, -, rfl⟩ := List.mem_map.mp hitem
  exact ⟨_, _, _, _, rfl⟩

theorem workWeight_candidates (s : GameState) (players : List PlayerId) (ev : TriggerEvent) :
    workWeight bound (Triggers.candidates s players ev) =
      (Triggers.candidates s players ev).length := by
  refine workWeight_fires bound (fun item hitem => ?_)
  obtain ⟨q, -, hq⟩ := List.mem_flatMap.mp hitem
  obtain ⟨r, -, hr⟩ := List.mem_flatMap.mp hq
  obtain ⟨ability, -, rfl⟩ := List.mem_map.mp hr
  exact ⟨_, _, _, _, rfl⟩

/-- One player's chain, at Main or on the Bench. -/
theorem workWeight_destructionSteps_le (c : PlayerId) (p : Position) :
    workWeight bound (destructionSteps c p) ≤ 8 + 10 * bound := by
  cases p with
  | main =>
      simp only [destructionSteps, workWeight_cons, workWeight_nil, WorkItem.weight]
      omega
  | bench slot =>
      simp only [destructionSteps, workWeight_cons, workWeight_nil, WorkItem.weight]
      omega

theorem workWeight_chains_le (p : Position) : ∀ hit : List PlayerId,
    workWeight bound (hit.flatMap (destructionSteps · p)) ≤ hit.length * (8 + 10 * bound)
  | [] => by simp
  | c :: hit => by
      have hhead := workWeight_destructionSteps_le bound c p
      have htail := workWeight_chains_le p hit
      rw [List.flatMap_cons, workWeight_append, List.length_cons, Nat.add_mul, Nat.one_mul]
      omega

/-- A check queues at most the chains of both players. -/
theorem workWeight_hit_le {s : GameState} {hit : List PlayerId} (p : Position)
    (hsub : hit.Sublist (orderedPlayers s)) :
    workWeight bound (hit.flatMap (destructionSteps · p)) ≤ 16 + 20 * bound := by
  have hlen : hit.length ≤ 2 := hsub.length_le
  have hle := workWeight_chains_le bound p hit
  have hmul : hit.length * (8 + 10 * bound) ≤ 2 * (8 + 10 * bound) := Nat.mul_le_mul_right _ hlen
  omega

end

/-- **Executing an item makes work lighter**, unless it opens a window. -/
theorem ItemStep.lighter {item : WorkItem} (h : ItemStep s item t es) (hs : s.status = .playing)
    (hcards : s.cards.TriggersAdmitted) :
    t.turn.window.isSome = true ∨
      t.stack = s.stack ∧ workWeight s.cards.triggerCount t.work <
        item.weight s.cards.triggerCount + workWeight s.cards.triggerCount s.work := by
  have hpos := item.weight_pos s.cards.triggerCount
  cases h with
  | opened _ => exact .inl rfl
  | fired ha hl =>
      refine .inr ⟨(applyLeaves_frame hl hs).stack, ?_⟩
      rw [applyLeaves_work_of_trigger hl hs (abilityAt_admitted hcards ha)]
      omega
  | @checked p hit hsub _ _ =>
      have hle := workWeight_hit_le s.cards.triggerCount p hsub
      refine .inr ⟨rfl, ?_⟩
      rw [GameState.pushBack_work, workWeight_append]
      simp only [WorkItem.weight]
      omega
  | @checkBroke p hit b hsub _ _ =>
      have hle := workWeight_hit_le s.cards.triggerCount p hsub
      refine .inr ⟨rfl, ?_⟩
      show workWeight _ (s.work ++ hit.flatMap (destructionSteps · p)) < _
      rw [workWeight_append]
      simp only [WorkItem.weight]
      omega
  | @discarded p c x _ _ =>
      have hle := length_candidates_le (discardSummon s c p x) .anySummonDestroyed (orderedPlayers s)
      have hcount : (discardSummon s c p x).cards = s.cards := rfl
      have hlen : (orderedPlayers s).length = 2 := rfl
      rw [hcount, hlen] at hle
      refine .inr ⟨rfl, ?_⟩
      show workWeight _ (Triggers.candidates (discardSummon s c p x) (orderedPlayers s)
        .anySummonDestroyed ++ s.work) < _
      rw [workWeight_append, workWeight_candidates]
      simp only [WorkItem.weight]
      omega
  | consequences _ =>
      refine .inr ⟨rfl, ?_⟩
      rw [GameState.pushFront_work]
      simp only [List.cons_append, List.nil_append, workWeight_cons, WorkItem.weight]
      omega
  | @movement step c p =>
      obtain ⟨-, hstack, -, hwork, -, -, -⟩ := markMainEntry_frame s step c p
      have hle := length_movementFires_le s c p step
      refine .inr ⟨hstack, ?_⟩
      rw [GameState.pushFront_work, hwork, workWeight_append, workWeight_movementFires]
      simp only [WorkItem.weight]
      omega
  | _ => exact .inr ⟨rfl, Nat.lt_add_of_pos_left hpos⟩

/-! ## The rank of an iteration -/

/-- What the drain still has before it: nothing once a window is open, else the Stack and then what
work can still queue. -/
def drainRank (bound : ℕ) (s : GameState) : ℕ ×ₗ ℕ :=
  if s.turn.window.isSome then toLex (0, 0)
  else toLex (s.stack.length, workWeight bound s.work + 1)

theorem drainRank_lt {bound : ℕ} (hw : s.turn.window = none)
    (h : t.turn.window.isSome = true ∨ t.stack.length < s.stack.length ∨
      t.stack = s.stack ∧ workWeight bound t.work < workWeight bound s.work) :
    drainRank bound t < drainRank bound s := by
  unfold drainRank
  rw [hw, Option.isSome_none, if_neg Bool.false_ne_true]
  split
  · rw [Prod.Lex.toLex_lt_toLex]
    omega
  · rename_i hclosed
    rw [Prod.Lex.toLex_lt_toLex]
    rcases h with hopen | hstack | ⟨hstack, hwork⟩
    · exact absurd hopen hclosed
    · exact .inl hstack
    · exact .inr ⟨by rw [hstack], Nat.succ_lt_succ hwork⟩

/-- **One iteration keeps the cards and lowers the rank.** -/
theorem drainStep_rank (hcards : s.cards.TriggersAdmitted)
    (h : Resolution.drainStep s = some (t, es)) :
    t.cards = s.cards ∧
      drainRank s.cards.triggerCount t < drainRank s.cards.triggerCount s := by
  obtain ⟨hd, ⟨item, u, es', hst, rfl⟩ | ⟨-, item, work, hwork, hi⟩⟩ := drainStep_cases h
  · have hf := applyLeaves_frame hst.leaves hd.playing
    obtain ⟨front, hfront⟩ := List.getLast?_eq_some_iff.mp hst.top
    have hstack : t.stack = front := by
      rw [hst.result, closeSegment_stack, placeItem_stack, hf.stack, poppedStack_stack, hfront,
        List.dropLast_concat]
    refine ⟨by rw [hst.result, closeSegment_cards, placeItem_cards, hf.cards, poppedStack_cards],
      drainRank_lt hd.window (.inr (.inl ?_))⟩
    rw [hstack, hfront, List.length_append]
    exact Nat.lt_succ_self _
  · have hlight := hi.lighter hd.playing hcards
    refine ⟨(hi.frame hd.playing).cards, drainRank_lt hd.window (hlight.imp id (fun hr => .inr ?_))⟩
    rw [hwork, workWeight_cons]
    exact hr

/-- The iterations come to rest, since each lowers the rank. -/
theorem settles_of_admitted (hcards : s.cards.TriggersAdmitted) :
    ∃ tr t, engine.Settles s tr t := by
  refine engine.settles_of_rank (r := (· < ·)) wellFounded_lt (drainRank s.cards.triggerCount)
    (fun t => t.cards = s.cards) (fun {u t es} hu hn => ?_) (s := s) rfl
  have hstep := drainStep_rank (by rw [hu]; exact hcards) hn
  rw [hu] at hstep
  exact hstep

end

/-- **The drain terminates** in every state over cards whose triggers print what the loader
admits. -/
theorem drain_terminates {s : GameState} (hcards : s.cards.TriggersAdmitted) :
    ∃ fuel r, Resolution.drain fuel s = some r := by
  obtain ⟨tr, t, hsettle⟩ := settles_of_admitted hcards
  exact ⟨_, _, Machine.settle_of_settles hsettle⟩

open Fixtures in
/-- A board of over-damaged Summons that all react to a destruction, an Attack on the Stack, and
checks of two positions queued. -/
theorem drain_terminates_checks :
    ∃ start, fromScenario
        ⟨[summon 1 10 .base [attack 1 [strike 10],
          trigger 1 .anySummonDestroyed true [.heal 10 .source, .produceMana .source]] [.matter]]⟩
        (facing (benching (lone { inPlay 1 1 with damage := 10 }) .first (inPlay 2 1))
          (lone { inPlay 3 1 with damage := 10 })) = .ok start ∧
      ∃ fuel r, Resolution.drain fuel
        { start with
          stack := [.attack .one .main]
          work := [.destructionCheck .main, .destructionCheck (.bench .first)] } = some r := by
  have hdemo : (demo ⟨[summon 1 10 .base [attack 1 [strike 10],
        trigger 1 .anySummonDestroyed true [.heal 10 .source, .produceMana .source]] [.matter]]⟩
      (facing (benching (lone { inPlay 1 1 with damage := 10 }) .first (inPlay 2 1))
        (lone { inPlay 3 1 with damage := 10 })) []).map (fun r => decide (r.1.cards.entities.all (fun e =>
          (e.all .trigger).all (fun a =>
            (a.all .effectLeaf).all Model.EffectContext.trigger.admits)) = true)) =
      some true := by decide +kernel
  obtain ⟨⟨start, s, evs⟩, hr, hv⟩ := Option.map_eq_some_iff.mp hdemo
  refine ⟨start, (reachable_of_demo hr).1, drain_terminates ?_⟩
  intro e he ability hability leaf hleaf
  have hall := of_decide_eq_true hv
  simp only [List.all_eq_true] at hall
  exact hall e he ability hability leaf hleaf

end Summoners
