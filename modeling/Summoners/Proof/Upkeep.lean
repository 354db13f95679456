import Summoners.Proof.Firing

/-! # Every turn runs its whole Upkeep

The handover leaves the steps of Upkeep in an otherwise empty queue. Whatever interrupts them, a
window, a Spell or a Mana choice, queues its consequences behind; nothing that is executed before the
last step pushes to the front. So the steps are executed one after the other, each once, and the phase
is Upkeep as long as one is left.
-/

namespace Summoners
set_option autoImplicit false

open Effects RunToCompletion Destruction

/-- The steps of the Upkeep of `p` that begins in `s`: readying, the triggers printed on the board, the
draw, the Mana, the move to the Main Phase. -/
def upkeepOf (s : GameState) (p : PlayerId) : List WorkItem :=
  (.readyAll :: Triggers.candidates s [p] .yourUpkeep) ++
    [.drawCard, .produceMana p .player, .beginMainPhase]

def WorkItem.isUpkeep : WorkItem → Bool
  | .readyAll | .drawCard | .produceMana _ _ | .beginMainPhase | .fireTrigger _ _ .yourUpkeep _ => true
  | _ => false

/-- No turn begins in the steps. -/
def SameTurn (tr : List (Entry GameState GameAction GameEvent)) : Prop :=
  ∀ p, .turnBegan p ∉ facts tr

section
variable {s t : GameState} {es : List GameEvent} {p : PlayerId}
  {tr mid : List (Entry GameState GameAction GameEvent)}
  {x : Entry GameState GameAction GameEvent}

theorem SameTurn.concat : SameTurn (tr ++ [x]) ↔ SameTurn tr ∧ ∀ p, .turnBegan p ∉ x.emitted := by
  unfold SameTurn
  simp only [facts_append, facts_cons, facts_nil, List.append_nil, List.mem_append, not_or,
    forall_and]

/-! ## The list of steps -/

theorem isUpkeep_candidates : ∀ i ∈ Triggers.candidates s [p] .yourUpkeep,
    ∃ c r ability, i = .fireTrigger c r .yourUpkeep ability := by
  intro i hi
  simp only [Triggers.candidates, List.mem_flatMap, List.mem_map] at hi
  obtain ⟨q, -, r, -, ability, -, rfl⟩ := hi
  exact ⟨q, r, ability, rfl⟩

theorem isUpkeep_upkeepOf : ∀ i ∈ upkeepOf s p, i.isUpkeep = true := by
  intro i hi
  rcases List.mem_append.mp hi with hi | hi
  · rcases List.mem_cons.mp hi with rfl | hi
    · rfl
    · obtain ⟨_, _, _, rfl⟩ := isUpkeep_candidates i hi
      rfl
  · simp only [List.mem_cons, List.not_mem_nil, or_false] at hi
    rcases hi with rfl | rfl | rfl <;> rfl

/-- The move to the Main Phase is the last step, and only the last. -/
theorem upkeepOf_last {done left : List WorkItem} {item : WorkItem}
    (h : upkeepOf s p = done ++ item :: left) : item = .beginMainPhase ↔ left = [] := by
  have hfront : upkeepOf s p = ((.readyAll :: Triggers.candidates s [p] .yourUpkeep) ++
      [.drawCard, .produceMana p .player]) ++ [.beginMainPhase] := by
    simp [upkeepOf]
  have hnot : .beginMainPhase ∉ (.readyAll :: Triggers.candidates s [p] .yourUpkeep) ++
      [.drawCard, .produceMana p .player] := by
    intro hmem
    simp only [List.mem_append, List.mem_cons, List.not_mem_nil, or_false, reduceCtorEq,
      false_or] at hmem
    obtain ⟨_, _, _, heq⟩ := isUpkeep_candidates _ hmem
    cases heq
  rw [hfront] at h
  rcases List.eq_nil_or_concat left with rfl | ⟨front, last, rfl⟩
  · have hlast := (List.append_inj' h rfl).2
    cases hlast
    simp
  · rw [List.concat_eq_append, ← List.cons_append, ← List.append_assoc] at h
    obtain ⟨hinit, hlast⟩ := List.append_inj' h rfl
    refine ⟨fun heq => ?_, fun heq => by simp at heq⟩
    rw [hinit, heq] at hnot
    simp at hnot

/-! ## What the other steps queue -/

theorem isUpkeep_of_consequence {item : WorkItem} (h : item.isConsequence = true) :
    item.isUpkeep = false := by
  cases item <;> first | rfl | cases h

/-- Executing an item queues no step of Upkeep. -/
theorem ItemStep.adds {item : WorkItem} (h : ItemStep s item t es) (hs : s.status = .playing) :
    ∃ front back, t.work = front ++ s.work ++ back ∧ (∀ i ∈ front, i.isUpkeep = false) ∧
      ∀ i ∈ back, i.isUpkeep = false := by
  have hkept : ∃ front back, s.work = front ++ s.work ++ back ∧
      (∀ i ∈ front, i.isUpkeep = false) ∧ ∀ i ∈ back, i.isUpkeep = false :=
    ⟨[], [], by simp, by simp, by simp⟩
  have hchain : ∀ (hit : List PlayerId) (r : Position),
      ∀ i ∈ hit.flatMap (destructionSteps · r), i.isUpkeep = false := by
    intro hit r i hi
    obtain ⟨q, -, hq⟩ := List.mem_flatMap.mp hi
    cases r <;> simp only [destructionSteps, List.mem_cons, List.not_mem_nil, or_false] at hq
    · rcases hq with rfl | rfl | rfl | rfl | rfl | rfl <;> rfl
    · rcases hq with rfl | rfl <;> rfl
  cases h with
  | fired _ hl =>
      obtain ⟨added, ha, hadded⟩ := (applyLeaves_frame hl hs).work
      exact ⟨[], added, ha, by simp, fun i hi => isUpkeep_of_consequence (hadded i hi)⟩
  | @checked r hit _ _ _ => exact ⟨[], _, rfl, by simp, hchain hit r⟩
  | @checkBroke r hit _ _ _ _ => exact ⟨[], _, rfl, by simp, hchain hit r⟩
  | @discarded r c y _ _ =>
      refine ⟨Triggers.candidates (discardSummon s c r y) (orderedPlayers s) .anySummonDestroyed, [],
        (List.append_nil _).symm, fun i hi => ?_, by simp⟩
      simp only [Triggers.candidates, List.mem_flatMap, List.mem_map] at hi
      obtain ⟨q, -, r', -, ability, -, rfl⟩ := hi
      rfl
  | @consequences c _ =>
      refine ⟨[.movementTrigger .leavingBench c .main, .movementTrigger .enteringMain c .main], [],
        (List.append_nil _).symm, ?_, by simp⟩
      simp [WorkItem.isUpkeep]
  | @movement step c r =>
      obtain ⟨-, -, -, hw, -⟩ := markMainEntry_frame s step c r
      refine ⟨movementFires s step c r, [], ?_, fun i hi => ?_, by simp⟩
      · rw [GameState.pushFront_work, hw, List.append_nil]
      · obtain ⟨ability, -, rfl⟩ := List.mem_map.mp hi
        cases step <;> rfl
  | _ => exact hkept

/-- A step of Upkeep leaves the rest of work as it is. -/
theorem ItemStep.work_of_upkeep {item : WorkItem} (h : ItemStep s item t es)
    (hs : s.status = .playing) (hcards : s.cards.TriggersAdmitted)
    (hitem : item.isUpkeep = true) : t.work = s.work := by
  cases h with
  | fired ha hl => exact applyLeaves_work_of_trigger hl hs (abilityAt_admitted hcards ha)
  | checked _ _ _ => cases hitem
  | checkBroke _ _ _ => cases hitem
  | discarded _ _ => cases hitem
  | consequences _ => cases hitem
  | movement => rename_i step c r; cases step <;> cases hitem
  | _ => rfl

/-! ## The Upkeep of one turn -/

/-- How far the Upkeep that began after `y` has come, `mid` being the steps since: `done` has been
executed, `left` stands in front of work. -/
structure InTurn (y : Entry GameState GameAction GameEvent)
    (mid : List (Entry GameState GameAction GameEvent)) (p : PlayerId) (s : GameState)
    (done left later : List WorkItem) : Prop where
  begun : ∃ t, engine.Takes y t ∧ t.turn.activePlayer = p ∧ upkeepOf t p = done ++ left
  executed : mid.filterMap executes = done ++ later
  waits : left ≠ [] → later = []
  rest : ∃ rest, s.work = left ++ rest ∧ ∀ i ∈ rest, i.isUpkeep = false
  apart : ∀ i ∈ later, i.isUpkeep = false
  active : s.turn.activePlayer = p
  phase : s.turn.phase = .upkeep ↔ left ≠ []

/-- What a run keeps: before the first turn begins there is no Upkeep, and in each turn it is somewhere
between its beginning and its end. -/
structure Turns (tr : List (Entry GameState GameAction GameEvent)) (s : GameState) : Prop where
  firing : Firing tr s
  before : SameTurn tr → s.turn.phase ≠ .upkeep ∧ ∀ i ∈ s.work, i.isUpkeep = false
  during : ∀ pre y mid p, tr = pre ++ y :: mid → .turnBegan p ∈ y.emitted → SameTurn mid →
    ∃ done left later, InTurn y mid p s done left later

variable {y : Entry GameState GameAction GameEvent} {done left later : List WorkItem}

/-- A step that executes nothing and queues no step of Upkeep. -/
theorem InTurn.aside (h : InTurn y mid p x.before done left later) (hx : executes x = none)
    (hactive : t.turn.activePlayer = x.before.turn.activePlayer)
    (hphase : t.turn.phase = .upkeep ↔ x.before.turn.phase = .upkeep)
    (hwork : ∃ added, t.work = x.before.work ++ added ∧ ∀ i ∈ added, i.isUpkeep = false) :
    InTurn y (mid ++ [x]) p t done left later := by
  obtain ⟨rest, hrest, hnone⟩ := h.rest
  obtain ⟨added, hadded, hnew⟩ := hwork
  refine ⟨h.begun, ?_, h.waits, ⟨rest ++ added, ?_, ?_⟩, h.apart, hactive.trans h.active,
    hphase.trans h.phase⟩
  · rw [List.filterMap_append, h.executed]
    simp [hx]
  · rw [hadded, hrest, List.append_assoc]
  · intro i hi
    exact (List.mem_append.mp hi).elim (hnone i) (hnew i)

/-- A step that executes the front of work. -/
theorem InTurn.item {item : WorkItem} {work : List WorkItem}
    (h : InTurn y mid p s done left later) (hd : Draining s) (hwork : s.work = item :: work)
    (hx : executes (⟨s, none, es⟩ : Entry GameState GameAction GameEvent) = some item)
    (hi : ItemStep (poppedWork s work) item t es) (hcards : s.cards.TriggersAdmitted) :
    ∃ done left later, InTurn y (mid ++ [⟨s, none, es⟩]) p t done left later := by
  obtain ⟨rest, hrest, hnone⟩ := h.rest
  have hexecuted : (mid ++ [(⟨s, none, es⟩ : Entry GameState GameAction GameEvent)]).filterMap
      executes = done ++ later ++ [item] := by
    rw [List.filterMap_append, h.executed]
    simp [hx]
  have hactive : t.turn.activePlayer = s.turn.activePlayer := by
    rcases (hi.frame hd.playing).stack with ⟨-, hturn, -, -⟩ | ⟨-, rfl⟩ | ⟨_, _, _, _, _, -, rfl⟩
    · rw [hturn, poppedWork_turn]
    · rfl
    · rfl
  have hphase : item ≠ .beginMainPhase → t.turn.phase = s.turn.phase := by
    intro hne
    rcases (hi.frame hd.playing).stack with ⟨-, hturn, -, -⟩ | ⟨heq, -⟩ | ⟨_, _, _, _, _, -, rfl⟩
    · rw [hturn, poppedWork_turn]
    · exact absurd heq hne
    · rfl
  cases left with
  | cons step left =>
      -- the next step of Upkeep
      obtain rfl := h.waits (List.cons_ne_nil _ _)
      rw [hwork, List.cons_append] at hrest
      obtain ⟨rfl, rfl⟩ := List.cons.inj hrest
      obtain ⟨u, hu, hactiveu, hsteps⟩ := h.begun
      have hupkeep : item.isUpkeep = true :=
        isUpkeep_upkeepOf (s := u) (p := p) item (by
          rw [hsteps]
          exact List.mem_append_right _ List.mem_cons_self)
      have hkept := hi.work_of_upkeep hd.playing hcards hupkeep
      refine ⟨done ++ [item], left, [], ⟨u, hu, hactiveu, by rw [hsteps, List.append_assoc]; rfl⟩, ?_,
        fun _ => rfl, ⟨rest, hkept, hnone⟩, by simp, hactive.trans h.active, ?_⟩
      · rw [hexecuted]
        simp
      · by_cases hlast : item = .beginMainPhase
        · have hleft := (upkeepOf_last hsteps).mp hlast
          subst hlast hleft
          cases hi with
          | mainPhase => simp
        · rw [hphase hlast, h.phase]
          have hleft : left ≠ [] := fun hnil => hlast ((upkeepOf_last hsteps).mpr hnil)
          simp [hleft]
  | nil =>
      -- Upkeep is over
      rw [List.nil_append] at hrest
      have hitem : item.isUpkeep = false := hnone item (by rw [← hrest, hwork]; exact List.mem_cons_self)
      have hothers : ∀ i ∈ work, i.isUpkeep = false := fun i hi =>
        hnone i (by rw [← hrest, hwork]; exact List.mem_cons_of_mem _ hi)
      obtain ⟨front, back, hfb, hfront, hback⟩ := hi.adds hd.playing
      refine ⟨done, [], later ++ [item], h.begun, ?_, fun hne => absurd rfl hne,
        ⟨t.work, rfl, ?_⟩, ?_, hactive.trans h.active, ?_⟩
      · rw [hexecuted, List.append_assoc]
      · intro i hi
        rw [hfb] at hi
        rcases List.mem_append.mp hi with hi | hi
        · exact (List.mem_append.mp hi).elim (hfront i) (hothers i)
        · exact hback i hi
      · intro i hi
        rcases List.mem_append.mp hi with hi | hi
        · exact h.apart i hi
        · rw [List.mem_singleton.mp hi]
          exact hitem
      · have hne : item ≠ .beginMainPhase := by
          rintro rfl
          cases hitem
        rw [hphase hne]
        exact h.phase

/-! ## Runs -/

/-- An action that begins no turn goes on with the turn there is. -/
theorem ActionStep.sameTurn {a : GameAction} (h : ActionStep s a t es) (hs : s.status = .playing)
    (hnone : ∀ p, .turnBegan p ∉ es) : t.turn.activePlayer = s.turn.activePlayer ∧
      (t.turn.phase = .upkeep ↔ s.turn.phase = .upkeep) ∧
        ∃ added, t.work = s.work ++ added ∧ ∀ i ∈ added, i.isUpkeep = false := by
  have hkept : ∃ added, s.work = s.work ++ added ∧ ∀ i ∈ added, i.isUpkeep = false :=
    ⟨[], by simp, by simp⟩
  cases h with
  | skill _ _ _ _ _ _ _ hl =>
      have hf := applyLeaves_frame hl hs
      obtain ⟨added, ha, hadded⟩ := hf.work
      refine ⟨by rw [hf.turn]; rfl, by rw [hf.turn]; rfl, added, ha, fun i hi => ?_⟩
      exact isUpkeep_of_consequence (hadded i hi)
  | @retreated c slot _ _ _ _ _ _ _ _ _ =>
      exact ⟨rfl, .rfl, exchangeSteps c slot, rfl, by simp [exchangeSteps, WorkItem.isUpkeep]⟩
  | attacked free _ _ _ _ =>
      refine ⟨rfl, ⟨fun hp => (by cases hp), fun hp => ?_⟩, hkept⟩
      rw [free.phase] at hp
      cases hp
  | handedOver _ _ _ => exact absurd (List.mem_cons_of_mem _ List.mem_cons_self) (hnone _)
  | _ => exact ⟨rfl, .rfl, hkept⟩

/-- The turn that begins has its whole Upkeep before it. -/
theorem ActionStep.begins {a : GameAction} (h : ActionStep s a t es) (hc : Coherent s)
    (hs : s.status = .playing) (ha : engine.accept s a = some (t, es)) (hp : .turnBegan p ∈ es) :
    InTurn ⟨s, some a, es⟩ [] p t [] (upkeepOf t p) [] := by
  obtain ⟨c, rfl, hpending, hwindow, hstack, rfl, ht⟩ := h.turnBegan hs hp
  have hwork : s.work = [] := hc.finished (by rw [hwindow]; rfl) hstack
  have hsteps : t.work = upkeepOf t s.turn.activePlayer.opponent := by
    rw [ht]
    simp only [Turn.handover, Triggers.discoverBack, GameState.pushBack_work, windowClosed, hwork,
      List.nil_append]
    rfl
  have hactive : t.turn.activePlayer = s.turn.activePlayer.opponent := by rw [ht]; rfl
  have hphase : t.turn.phase = .upkeep := by rw [ht]; rfl
  exact ⟨⟨t, ha, hactive, rfl⟩, rfl, fun _ => rfl, ⟨[], by rw [hsteps, List.append_nil], by simp⟩,
    by simp, hactive, ⟨fun _ => by simp [upkeepOf], fun _ => hphase⟩⟩

theorem Turns.action {a : GameAction} (h : Turns tr s) (hf : Firing (tr ++ [⟨s, some a, es⟩]) t)
    (hs : s.status = .playing) (ha : engine.accept s a = some (t, es)) (hst : ActionStep s a t es) :
    Turns (tr ++ [⟨s, some a, es⟩]) t := by
  refine ⟨hf, fun hsame => ?_, fun pre y mid p heq hp hsame => ?_⟩
  · obtain ⟨hbefore, hnone⟩ := SameTurn.concat.mp hsame
    obtain ⟨-, hphase, added, hadded, hnew⟩ := hst.sameTurn hs hnone
    obtain ⟨hfirst, hwork⟩ := h.before hbefore
    refine ⟨fun hu => hfirst (hphase.mp hu), fun i hi => ?_⟩
    rw [hadded] at hi
    exact (List.mem_append.mp hi).elim (hwork i) (hnew i)
  · rcases List.eq_nil_or_concat mid with rfl | ⟨front, last, rfl⟩
    · obtain ⟨rfl, hy⟩ := List.append_inj' heq rfl
      cases hy
      exact ⟨_, _, _, hst.begins h.firing.coherent hs ha hp⟩
    · rw [List.concat_eq_append, ← List.cons_append, ← List.append_assoc] at heq
      obtain ⟨htr, hlast⟩ := List.append_inj' heq rfl
      cases hlast
      obtain ⟨hbefore, hnone⟩ := SameTurn.concat.mp (by rwa [List.concat_eq_append] at hsame)
      obtain ⟨done, left, later, hin⟩ := h.during pre y front p htr hp hbefore
      obtain ⟨hactive, hphase, hadded⟩ := hst.sameTurn hs hnone
      rw [List.concat_eq_append]
      exact ⟨done, left, later, hin.aside (x := ⟨s, some a, es⟩) rfl hactive hphase hadded⟩

theorem Turns.drainStep (h : Turns tr s) (hf : Firing (tr ++ [⟨s, none, es⟩]) t)
    (hn : Resolution.drainStep s = some (t, es)) : Turns (tr ++ [⟨s, none, es⟩]) t := by
  have hquiet : ∀ p, .turnBegan p ∉ es := fun p hp => by
    cases (drainStep_unannounced hn _ hp).2
  have hsplit : ∀ {pre : List (Entry GameState GameAction GameEvent)}
      {y : Entry GameState GameAction GameEvent}
      {mid : List (Entry GameState GameAction GameEvent)} {p : PlayerId},
      tr ++ [⟨s, none, es⟩] = pre ++ y :: mid → .turnBegan p ∈ y.emitted → SameTurn mid →
        ∃ front, mid = front ++ [⟨s, none, es⟩] ∧ ∃ done left later, InTurn y front p s done left later := by
    intro pre y mid p heq hp hsame
    rcases List.eq_nil_or_concat mid with rfl | ⟨front, last, rfl⟩
    · obtain ⟨rfl, hy⟩ := List.append_inj' heq rfl
      cases hy
      exact absurd hp (hquiet p)
    · rw [List.concat_eq_append] at hsame ⊢
      rw [List.concat_eq_append, ← List.cons_append, ← List.append_assoc] at heq
      obtain ⟨htr, hlast⟩ := List.append_inj' heq rfl
      cases hlast
      exact ⟨front, rfl, h.during pre y front p htr hp (SameTurn.concat.mp hsame).1⟩
  obtain ⟨hd, ⟨item, u, es', hst, rfl⟩ | ⟨hlow, item, work, hwork, hi⟩⟩ := drainStep_cases hn
  · -- the Stack resolves
    have hf' := applyLeaves_frame hst.leaves hd.playing
    have hturn : t.turn = s.turn := by
      rw [hst.result, closeSegment_turn, placeItem_turn, hf'.turn, poppedStack_turn]
    have hadded : ∃ added, t.work = s.work ++ added ∧ ∀ i ∈ added, i.isUpkeep = false := by
      obtain ⟨added, ha, hadded⟩ := hf'.work
      refine ⟨added, ?_, fun i hi => isUpkeep_of_consequence (hadded i hi)⟩
      rw [hst.result, closeSegment_work, placeItem_work, ha, poppedStack_work]
    refine ⟨hf, fun hsame => ?_, fun pre y mid p heq hp hsame => ?_⟩
    · obtain ⟨hfirst, hrest⟩ := h.before (SameTurn.concat.mp hsame).1
      obtain ⟨added, ha, hnew⟩ := hadded
      rw [hturn]
      refine ⟨hfirst, fun i hi => ?_⟩
      rw [ha] at hi
      exact (List.mem_append.mp hi).elim (hrest i) (hnew i)
    · obtain ⟨front, rfl, done, left, later, hin⟩ := hsplit heq hp hsame
      refine ⟨done, left, later, hin.aside (x := ⟨s, none, _⟩) (nextWork_of_above hst.above) ?_ ?_
        hadded⟩
      · rw [hturn]
      · rw [hturn]
  · -- work is executed
    have hnext := nextWork_of_low hlow hwork
    refine ⟨hf, fun hsame => ?_, fun pre y mid p heq hp hsame => ?_⟩
    · obtain ⟨hfirst, hrest⟩ := h.before (SameTurn.concat.mp hsame).1
      rw [hwork] at hrest
      obtain ⟨front, back, hfb, hfront, hback⟩ := hi.adds hd.playing
      refine ⟨?_, fun i hi => ?_⟩
      · rcases (hi.frame hd.playing).stack with ⟨-, hturn, -, -⟩ | ⟨heq, -⟩ | ⟨_, _, _, _, _, -, rfl⟩
        · rw [hturn]
          exact hfirst
        · rw [heq] at hrest
          cases hrest _ List.mem_cons_self
        · exact hfirst
      · rw [hfb] at hi
        rcases List.mem_append.mp hi with hi | hi
        · exact (List.mem_append.mp hi).elim (hfront i)
            (fun hw => hrest i (List.mem_cons_of_mem _ hw))
        · exact hback i hi
    · obtain ⟨front, rfl, done, left, later, hin⟩ := hsplit heq hp hsame
      exact hin.item hd hwork hnext hi h.firing.authored.triggersAdmitted

end

end Summoners
