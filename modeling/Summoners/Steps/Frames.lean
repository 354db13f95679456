import Summoners.Steps.Actions

/-! # What the leaves of one ability leave alone

Leaves run with the turn, the Stack and the work already queued fixed: they append consequences at
the back of work, may leave a Mana choice pending, and keep Main occupied or empty as they found it.
-/

namespace Summoners
set_option autoImplicit false

open Effects

/-- The work a leaf can queue: a destruction check or a movement step. -/
def WorkItem.isConsequence : WorkItem → Bool
  | .destructionCheck _ | .movementTrigger _ _ _ => true
  | _ => false

/-- Whether a player has a Summon on the Bench. -/
def PlayerState.benched (ps : PlayerState) : Prop := ∃ slot, ps.bench.get slot ≠ none

structure LeafFrame (s t : GameState) : Prop where
  turn : t.turn = s.turn
  stack : t.stack = s.stack
  bases : t.stackSegmentBases = s.stackSegmentBases
  cards : t.cards = s.cards
  work : ∃ added, t.work = s.work ++ added ∧ ∀ item ∈ added, item.isConsequence = true
  pending : t.pending = s.pending ∨ ∃ c p, t.pending = some (.manaProduction c (.summon p))
  main : ∀ q, (t.player q).main.isSome = (s.player q).main.isSome
  benched : ∀ q, (t.player q).benched ↔ (s.player q).benched
  prizes : ∀ q, (t.player q).prizes = (s.player q).prizes
  mainLosses : ∀ q, (t.player q).mainLosses = (s.player q).mainLosses

section
variable {s t u : GameState} {es : List GameEvent}

theorem LeafFrame.refl (s : GameState) : LeafFrame s s where
  turn := rfl
  stack := rfl
  bases := rfl
  cards := rfl
  work := ⟨[], by simp⟩
  pending := .inl rfl
  main _ := rfl
  benched _ := .rfl
  prizes _ := rfl
  mainLosses _ := rfl

theorem LeafFrame.trans (h : LeafFrame s t) (h' : LeafFrame t u) : LeafFrame s u where
  turn := h'.turn.trans h.turn
  stack := h'.stack.trans h.stack
  bases := h'.bases.trans h.bases
  cards := h'.cards.trans h.cards
  work := by
    obtain ⟨added, ha, hc⟩ := h.work
    obtain ⟨added', ha', hc'⟩ := h'.work
    refine ⟨added ++ added', by rw [ha', ha, List.append_assoc], fun item hi => ?_⟩
    exact (List.mem_append.mp hi).elim (hc item) (hc' item)
  pending := by
    rcases h'.pending with hp | hp
    · rw [hp]
      exact h.pending
    · exact .inr hp
  main q := (h'.main q).trans (h.main q)
  benched q := (h'.benched q).trans (h.benched q)
  prizes q := (h'.prizes q).trans (h.prizes q)
  mainLosses q := (h'.mainLosses q).trans (h.mainLosses q)

/-- What a leaf does to the one player it writes. -/
structure PlayerFrame (ps qs : PlayerState) : Prop where
  main : qs.main.isSome = ps.main.isSome
  benched : qs.benched ↔ ps.benched
  prizes : qs.prizes = ps.prizes
  mainLosses : qs.mainLosses = ps.mainLosses

theorem PlayerFrame.refl (ps : PlayerState) : PlayerFrame ps ps := ⟨rfl, .rfl, rfl, rfl⟩

/-- A write to one player, with consequences queued behind. -/
theorem LeafFrame.write {c : PlayerId} {ps : PlayerState} {items : List WorkItem}
    (h : PlayerFrame (s.player c) ps) (hitems : ∀ item ∈ items, item.isConsequence = true) :
    LeafFrame s ((s.setPlayer c ps).pushBack items) := by
  have hq : ∀ q, PlayerFrame (s.player q) (((s.setPlayer c ps).pushBack items).player q) := by
    intro q
    rw [GameState.pushBack_player, GameState.player_setPlayer]
    split
    · rename_i hqc
      rw [hqc]
      exact h
    · exact .refl _
  exact ⟨rfl, rfl, rfl, rfl, ⟨items, rfl, hitems⟩, .inl rfl, fun q => (hq q).main,
    fun q => (hq q).benched, fun q => (hq q).prizes, fun q => (hq q).mainLosses⟩

theorem LeafFrame.write_only {c : PlayerId} {ps : PlayerState}
    (h : PlayerFrame (s.player c) ps) : LeafFrame s (s.setPlayer c ps) := by
  have hw : LeafFrame s ((s.setPlayer c ps).pushBack []) := .write h (by simp)
  simpa using hw

theorem PlayerFrame.setAt {ps : PlayerState} {p : Position} {x : SummonInstance}
    (hx : ps.summonAt p = some x) (y : SummonInstance) :
    PlayerFrame ps (ps.setAt p (some y)) := by
  cases p with
  | main => exact ⟨by rw [PlayerState.summonAt_main] at hx; simp [PlayerState.setAt, hx], .rfl, rfl,
      rfl⟩
  | bench slot =>
      refine ⟨rfl, ⟨fun _ => ⟨slot, ?_⟩, fun _ => ⟨slot, ?_⟩⟩, rfl, rfl⟩
      · rw [PlayerState.summonAt_bench] at hx
        simp [hx]
      · simp [PlayerState.setAt]

theorem ZoneMove.frame {ps qs : PlayerState} (h : ZoneMove ps qs) : PlayerFrame ps qs := by
  refine ⟨by rw [h.main], ?_, h.prizes, h.mainLosses⟩
  unfold PlayerState.benched
  rw [h.bench]

theorem bank_frame (ps : PlayerState) (t : ManaType) : PlayerFrame ps (Upkeep.bank ps t) := by
  cases t <;> exact ⟨rfl, .rfl, rfl, rfl⟩

theorem LeafStep.frame {source : EffectSource} {targets : List Position} {leaf : EffectLeaf}
    (h : LeafStep s source targets leaf t es) : LeafFrame s t := by
  cases h with
  | quiet _ => exact .refl s
  | touched hx _ _ _ => exact .write_only (.setAt hx _)
  | hit hx _ _ => exact .write (.setAt hx _) (by simp [WorkItem.isConsequence])
  | zones hz _ => exact .write_only hz.frame
  | @drewOut ps _ hz _ =>
      have h := LeafFrame.write_only (s := s) hz.frame
      exact ⟨h.turn, h.stack, h.bases, h.cards, h.work, h.pending, h.main, h.benched, h.prizes,
        h.mainLosses⟩
  | @moved fromSlot toSlot x hto hfrom =>
      refine .write ⟨rfl, ⟨fun _ => ⟨fromSlot, ?_⟩, fun _ => ⟨toSlot, ?_⟩⟩, rfl, rfl⟩
        (by simp [WorkItem.isConsequence])
      · simp [hfrom]
      · simp
  | @exchanged c slot x y hmain hbench =>
      refine .write ⟨?_, ⟨fun _ => ⟨slot, ?_⟩, fun _ => ⟨slot, ?_⟩⟩, rfl, rfl⟩
        (by simp [exchangeSteps, WorkItem.isConsequence])
      · simp [exchange, hmain]
      · simp [hbench]
      · simp [exchange]
  | produced _ => exact .write_only (bank_frame _ _)
  | paused _ =>
      exact ⟨rfl, rfl, rfl, rfl, ⟨[], by simp⟩, .inr ⟨_, _, rfl⟩, fun _ => rfl, fun _ => .rfl,
        fun _ => rfl, fun _ => rfl⟩

theorem applyLeaves_frame {source : EffectSource} {targets : List Position}
    {leaves : List EffectLeaf} (h : applyLeaves s source targets leaves = (t, es))
    (hs : s.status = .playing) : LeafFrame s t :=
  applyLeaves_rel (R := fun s _ t => LeafFrame s t) h hs LeafFrame.refl (fun _ h h' => h.trans h')
    (fun _ _ h => h.frame)

end

/-! ## Work items -/

/-- What executing one item, popped from work, does to the turn, the Stack and the rest of work. -/
structure ItemFrame (s : GameState) (item : WorkItem) (t : GameState) : Prop where
  work : ∃ front back, t.work = front ++ s.work ++ back
  cards : t.cards = s.cards
  stack : (item ≠ .beginMainPhase ∧ t.turn = s.turn ∧ t.stack = s.stack ∧
      t.stackSegmentBases = s.stackSegmentBases) ∨
    (item = .beginMainPhase ∧ t = { s with turn := { s.turn with phase := .main } }) ∨
    (∃ c p ev ability effects, item = .fireTrigger c p ev ability ∧
      t = { s with
        stackSegmentBases := s.stackSegmentBases ++ [s.stack.length]
        stack := s.stack ++ [.trigger c p ability ev (Triggers.implicitTargets p effects) effects]
        turn := { s.turn with window := some (Stack.windowAfterPlay c) } })

@[simp] theorem markMainEntry_frame (s : GameState) (step : MovementStep) (c : PlayerId)
    (p : Position) :
    (Triggers.markMainEntry s step c p).turn = s.turn ∧
      (Triggers.markMainEntry s step c p).stack = s.stack ∧
      (Triggers.markMainEntry s step c p).stackSegmentBases = s.stackSegmentBases ∧
      (Triggers.markMainEntry s step c p).work = s.work ∧
      (Triggers.markMainEntry s step c p).pending = s.pending ∧
      (Triggers.markMainEntry s step c p).status = s.status ∧
      (Triggers.markMainEntry s step c p).cards = s.cards := by
  unfold Triggers.markMainEntry
  split <;> simp

theorem ItemStep.frame {s t : GameState} {item : WorkItem} {es : List GameEvent}
    (h : ItemStep s item t es) (hs : s.status = .playing) : ItemFrame s item t := by
  have kept : ∃ front back, s.work = front ++ s.work ++ back := ⟨[], [], by simp⟩
  cases h with
  | mainPhase => exact ⟨kept, rfl, .inr (.inl ⟨rfl, rfl⟩)⟩
  | opened _ => exact ⟨kept, rfl, .inr (.inr ⟨_, _, _, _, _, rfl, rfl⟩)⟩
  | fired _ hl =>
      have hf := applyLeaves_frame hl hs
      obtain ⟨added, ha, -⟩ := hf.work
      exact ⟨⟨[], added, ha⟩, hf.cards, .inl ⟨by simp, hf.turn, hf.stack, hf.bases⟩⟩
  | @checked p hit _ _ _ => exact ⟨⟨[], _, rfl⟩, rfl, .inl ⟨by simp, rfl, rfl, rfl⟩⟩
  | checkBroke _ _ _ => exact ⟨⟨[], _, rfl⟩, rfl, .inl ⟨by simp, rfl, rfl, rfl⟩⟩
  | discarded _ _ => exact ⟨⟨_, [], by simp [Triggers.discoverFront]; rfl⟩, rfl,
      .inl ⟨by simp, rfl, rfl, rfl⟩⟩
  | consequences _ => exact ⟨⟨[_, _], [], (List.append_nil _).symm⟩, rfl, .inl ⟨by simp, rfl, rfl, rfl⟩⟩
  | @movement step c p =>
      obtain ⟨ht, hst, hb, hw, -, -, hc⟩ := markMainEntry_frame s step c p
      refine ⟨⟨movementFires s step c p, [], ?_⟩, hc, .inl ⟨by simp, ht, hst, hb⟩⟩
      rw [GameState.pushFront_work, hw, List.append_nil]
  | _ => exact ⟨kept, rfl, .inl ⟨by simp, rfl, rfl, rfl⟩⟩

/-! ## The card of a resolved item, and the end of a segment -/

section
variable (s : GameState) (item : StackItem)

@[simp] theorem placeItem_turn : (placeItem s item).turn = s.turn := by
  cases item <;> simp only [placeItem, Resolution.placeSpell]
  split <;> rfl

@[simp] theorem placeItem_stack : (placeItem s item).stack = s.stack := by
  cases item <;> simp only [placeItem, Resolution.placeSpell]
  split <;> rfl

@[simp] theorem placeItem_bases : (placeItem s item).stackSegmentBases = s.stackSegmentBases := by
  cases item <;> simp only [placeItem, Resolution.placeSpell]
  split <;> rfl

@[simp] theorem placeItem_work : (placeItem s item).work = s.work := by
  cases item <;> simp only [placeItem, Resolution.placeSpell]
  split <;> rfl

@[simp] theorem placeItem_pending : (placeItem s item).pending = s.pending := by
  cases item <;> simp only [placeItem, Resolution.placeSpell]
  split <;> rfl

@[simp] theorem placeItem_status : (placeItem s item).status = s.status := by
  cases item <;> simp only [placeItem, Resolution.placeSpell]
  split <;> rfl

@[simp] theorem placeItem_cards : (placeItem s item).cards = s.cards := by
  cases item <;> simp only [placeItem, Resolution.placeSpell]
  split <;> rfl

@[simp] theorem closeSegment_players : (Resolution.closeSegment s).players = s.players := by
  unfold Resolution.closeSegment
  split <;> rfl

@[simp] theorem closeSegment_player (q : PlayerId) :
    (Resolution.closeSegment s).player q = s.player q := by
  unfold Resolution.closeSegment
  split <;> rfl

@[simp] theorem closeSegment_turn : (Resolution.closeSegment s).turn = s.turn := by
  unfold Resolution.closeSegment
  split <;> rfl

@[simp] theorem closeSegment_stack : (Resolution.closeSegment s).stack = s.stack := by
  unfold Resolution.closeSegment
  split <;> rfl

@[simp] theorem closeSegment_work : (Resolution.closeSegment s).work = s.work := by
  unfold Resolution.closeSegment
  split <;> rfl

@[simp] theorem closeSegment_pending : (Resolution.closeSegment s).pending = s.pending := by
  unfold Resolution.closeSegment
  split <;> rfl

@[simp] theorem closeSegment_status : (Resolution.closeSegment s).status = s.status := by
  unfold Resolution.closeSegment
  split <;> rfl

@[simp] theorem closeSegment_cards : (Resolution.closeSegment s).cards = s.cards := by
  unfold Resolution.closeSegment
  split <;> rfl

end

/-- A resolved card joins its caster's Enchantments or discard pile. -/
theorem placeItem_player (s : GameState) (item : StackItem) (q : PlayerId) :
    (placeItem s item).player q = s.player q ∨
      ∃ caster card targets, item = .spell caster card targets ∧ q = caster ∧
        ((placeItem s item).player q =
            { s.player q with enchantments := (s.player q).enchantments ++ [card] } ∨
          (placeItem s item).player q =
            { s.player q with discard := (s.player q).discard ++ [card] }) := by
  cases item with
  | attack _ _ => exact .inl rfl
  | trigger _ _ _ _ _ _ => exact .inl rfl
  | spell caster card targets =>
      simp only [placeItem, Resolution.placeSpell]
      by_cases hq : q = caster
      · subst hq
        refine .inr ⟨q, card, targets, rfl, rfl, ?_⟩
        split
        · exact .inl (by simp)
        · exact .inr (by simp)
      · refine .inl ?_
        split <;> rw [GameState.player_setPlayer_of_ne _ _ _ hq]

/-! ## The card pool -/

section
variable {s t : GameState} {es : List GameEvent}

theorem drainStep_cards (h : Resolution.drainStep s = some (t, es)) : t.cards = s.cards := by
  obtain ⟨hd, ⟨item, u, es', hst, rfl⟩ | ⟨-, item, work, -, hi⟩⟩ := drainStep_cases h
  · rw [hst.result, closeSegment_cards, placeItem_cards]
    exact (applyLeaves_frame hst.leaves hd.playing).cards
  · exact (hi.frame hd.playing).cards

theorem ActionStep.cards {a : GameAction} (h : ActionStep s a t es) (hs : s.status = .playing) :
    t.cards = s.cards := by
  cases h with
  | skill _ _ _ _ _ _ _ hl => exact (applyLeaves_frame hl hs).cards
  | _ => rfl

end

end Summoners
