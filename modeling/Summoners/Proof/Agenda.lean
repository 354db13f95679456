import Summoners.Steps.Frames

/-! # The agenda behind the work queue

`work` is not an arbitrary list: in front stand triggers and movement steps, then what is left of the
destruction of one Main Summon, then a queue of single items and of whole such destructions. An
`Agenda` is a queue of that shape, `Pops` says what executing its front item does to the destruction
under way, and `drainStep_agenda` and `ActionStep.follows` say that the engine keeps to it.
-/

namespace Summoners
set_option autoImplicit false

open Effects Destruction

/-- How far the destruction of a Main Summon has come once the Summon has been discarded: what is to
be done next. -/
inductive Stage
  | loss
  | prize
  | promote
  | consequences
  | verdict
  deriving DecidableEq

/-- The work that is left of the destruction. -/
def Stage.rest (p : PlayerId) : Stage → List WorkItem
  | .loss => .recordMainLoss p :: .recoverPrize p :: .promoteBenchSummon p ::
      [.resolveMovementConsequences p, .lossCheck p]
  | .prize => [.recoverPrize p, .promoteBenchSummon p, .resolveMovementConsequences p, .lossCheck p]
  | .promote => [.promoteBenchSummon p, .resolveMovementConsequences p, .lossCheck p]
  | .consequences => [.resolveMovementConsequences p, .lossCheck p]
  | .verdict => [.lossCheck p]

/-- A destruction under way, or none. -/
abbrev Current := Option (PlayerId × Stage)

def Current.rest : Current → List WorkItem
  | none => []
  | some (p, stage) => stage.rest p

/-- What the engine pushes in front of work. -/
def WorkItem.isUrgent : WorkItem → Bool
  | .movementTrigger _ _ _ | .fireTrigger _ _ _ _ => true
  | _ => false

/-- What may stand alone in the queue: anything but a step of a Main destruction. -/
def WorkItem.isLoose : WorkItem → Bool
  | .discardDestroyedChain .main | .recordMainLoss _ | .recoverPrize _ | .promoteBenchSummon _
  | .resolveMovementConsequences _ => false
  | _ => true

/-- What the queue is made of. -/
inductive Block
  | loose (item : WorkItem)
  | chain (player : PlayerId)

namespace Block

def items : Block → List WorkItem
  | .loose item => [item]
  | .chain player => destructionSteps player .main

def wellFormed : Block → Bool
  | .loose item => item.isLoose
  | .chain _ => true

end Block

structure Agenda where
  urgent : List WorkItem
  current : Current
  queue : List Block
  urgent_ok : ∀ item ∈ urgent, item.isUrgent = true
  queue_ok : ∀ block ∈ queue, block.wellFormed = true

namespace Agenda

def work (A : Agenda) : List WorkItem :=
  A.urgent ++ A.current.rest ++ A.queue.flatMap Block.items

def empty : Agenda := ⟨[], none, [], by simp, by simp⟩

/-- The agenda with triggers put in front and blocks queued behind. -/
def extend (A : Agenda) (front : List WorkItem) (back : List Block)
    (hfront : ∀ item ∈ front, item.isUrgent = true)
    (hback : ∀ block ∈ back, block.wellFormed = true) : Agenda where
  urgent := front ++ A.urgent
  current := A.current
  queue := A.queue ++ back
  urgent_ok item hi := (List.mem_append.mp hi).elim (hfront item) (A.urgent_ok item)
  queue_ok block hb := (List.mem_append.mp hb).elim (A.queue_ok block) (hback block)

end Agenda

/-- The work of a state follows an agenda with this destruction under way. -/
def Follows (current : Current) (work : List WorkItem) : Prop :=
  ∃ A : Agenda, A.current = current ∧ A.work = work

/-- What executing one item does to the destruction under way. -/
inductive Pops : Current → WorkItem → Current → Prop
  | urgent {current : Current} {item : WorkItem} (h : item.isUrgent = true) :
      Pops current item current
  | loose {item : WorkItem} (h : item.isLoose = true) : Pops none item none
  | chain {p : PlayerId} : Pops none (.discardDestroyedChain .main) (some (p, .loss))
  | loss {p : PlayerId} : Pops (some (p, .loss)) (.recordMainLoss p) (some (p, .prize))
  | prize {p : PlayerId} : Pops (some (p, .prize)) (.recoverPrize p) (some (p, .promote))
  | promote {p : PlayerId} :
      Pops (some (p, .promote)) (.promoteBenchSummon p) (some (p, .consequences))
  | consequences {p : PlayerId} :
      Pops (some (p, .consequences)) (.resolveMovementConsequences p) (some (p, .verdict))
  | verdict {p : PlayerId} : Pops (some (p, .verdict)) (.lossCheck p) none

section
variable {current : Current} {work : List WorkItem}

theorem Follows.nil : Follows none [] := ⟨.empty, rfl, rfl⟩

theorem Follows.extend (h : Follows current work) (front : List WorkItem) (back : List Block)
    (hfront : ∀ item ∈ front, item.isUrgent = true)
    (hback : ∀ block ∈ back, block.wellFormed = true) :
    Follows current (front ++ work ++ back.flatMap Block.items) := by
  obtain ⟨A, hcurrent, hwork⟩ := h
  refine ⟨A.extend front back hfront hback, hcurrent, ?_⟩
  rw [← hwork]
  simp [Agenda.extend, Agenda.work]

theorem Follows.push (h : Follows current work) (back : List Block)
    (hback : ∀ block ∈ back, block.wellFormed = true) :
    Follows current (work ++ back.flatMap Block.items) :=
  h.extend [] back (by simp) hback

/-- Single items behind the queue. -/
theorem Follows.push_loose (h : Follows current work) {items : List WorkItem}
    (hitems : ∀ item ∈ items, item.isLoose = true) : Follows current (work ++ items) := by
  have hblocks : (items.map Block.loose).flatMap Block.items = items := by
    simp [List.flatMap_map, Block.items]
  have := h.push (items.map .loose) (by
    intro block hb
    obtain ⟨item, hi, rfl⟩ := List.mem_map.mp hb
    exact hitems item hi)
  rwa [hblocks] at this

theorem Follows.push_front (h : Follows current work) (front : List WorkItem)
    (hfront : ∀ item ∈ front, item.isUrgent = true) : Follows current (front ++ work) := by
  simpa using h.extend front [] hfront (by simp)

/-- The rest of a stage, by its first item and the stage after it. -/
theorem stage_pops (p : PlayerId) (stage : Stage) :
    ∃ item next, stage.rest p = item :: Current.rest next ∧ Pops (some (p, stage)) item next := by
  cases stage
  · exact ⟨_, some (p, .prize), rfl, .loss⟩
  · exact ⟨_, some (p, .promote), rfl, .prize⟩
  · exact ⟨_, some (p, .consequences), rfl, .promote⟩
  · exact ⟨_, some (p, .verdict), rfl, .consequences⟩
  · exact ⟨_, none, rfl, .verdict⟩

/-- **The front of an agenda.** What stands behind it is an agenda again; a Main destruction that
begins has the recording of its own player's loss right behind it. -/
theorem Follows.pop {item : WorkItem} (h : Follows current (item :: work)) :
    ∃ next, Pops current item next ∧ Follows next work ∧
      ∀ p, item = .discardDestroyedChain .main → next = some (p, .loss) →
        work.head? = some (.recordMainLoss p) := by
  obtain ⟨⟨urgent, current, queue, hurgent, hqueue⟩, rfl, hwork⟩ := h
  simp only [Agenda.work] at hwork ⊢
  cases urgent with
  | cons u us =>
      simp only [List.cons_append, List.cons.injEq] at hwork
      obtain ⟨rfl, rfl⟩ := hwork
      refine ⟨current, .urgent (hurgent u List.mem_cons_self),
        ⟨⟨us, current, queue, fun i hi => hurgent i (List.mem_cons_of_mem _ hi), hqueue⟩, rfl, rfl⟩,
        fun p hu _ => ?_⟩
      have := hurgent u List.mem_cons_self
      rw [hu] at this
      cases this
  | nil =>
      cases current with
      | some c =>
          obtain ⟨p, stage⟩ := c
          obtain ⟨first, next, hrest, hpops⟩ := stage_pops p stage
          simp only [Current.rest, hrest, List.nil_append, List.cons_append, List.cons.injEq] at hwork
          obtain ⟨rfl, rfl⟩ := hwork
          refine ⟨next, hpops, ⟨⟨[], next, queue, by simp, hqueue⟩, rfl, rfl⟩, fun q hf _ => ?_⟩
          rw [hf] at hpops
          cases hpops with
          | urgent hu => cases hu
      | none =>
          cases queue with
          | nil => simp [Current.rest] at hwork
          | cons block queue =>
              have hrest : ∀ b ∈ queue, b.wellFormed = true :=
                fun b hb => hqueue b (List.mem_cons_of_mem _ hb)
              cases block with
              | loose i =>
                  simp only [Current.rest, List.nil_append, List.flatMap_cons, Block.items,
                    List.cons_append, List.cons.injEq] at hwork
                  obtain ⟨rfl, rfl⟩ := hwork
                  have hloose : i.isLoose = true := hqueue _ List.mem_cons_self
                  refine ⟨none, .loose hloose, ⟨⟨[], none, queue, by simp, hrest⟩, rfl, rfl⟩,
                    fun q hi _ => ?_⟩
                  rw [hi] at hloose
                  cases hloose
              | chain p =>
                  simp only [Current.rest, List.nil_append, List.flatMap_cons, Block.items,
                    destructionSteps, List.cons_append, List.cons.injEq] at hwork
                  obtain ⟨rfl, rfl⟩ := hwork
                  refine ⟨some (p, .loss), .chain,
                    ⟨⟨[], some (p, .loss), queue, by simp, hrest⟩, rfl, rfl⟩, fun q _ hq => ?_⟩
                  cases hq
                  rfl

end

/-! ## The engine keeps to an agenda -/

section
variable {s t u : GameState} {es : List GameEvent} {current : Current}

theorem isLoose_of_consequence {item : WorkItem} (h : item.isConsequence = true) :
    item.isLoose = true := by
  cases item <;> first | rfl | cases h

theorem isUrgent_candidates {players : List PlayerId} {event : TriggerEvent} :
    ∀ item ∈ Triggers.candidates s players event, item.isUrgent = true := by
  intro item hi
  simp only [Triggers.candidates, List.mem_flatMap, List.mem_map] at hi
  obtain ⟨q, -, p, -, ability, -, rfl⟩ := hi
  rfl

theorem isUrgent_movementFires {step : MovementStep} {c : PlayerId} {p : Position} :
    ∀ item ∈ movementFires s step c p, item.isUrgent = true := by
  intro item hi
  obtain ⟨ability, -, rfl⟩ := List.mem_map.mp hi
  rfl

theorem LeafFrame.follows (h : LeafFrame s t) (hf : Follows current s.work) :
    Follows current t.work := by
  obtain ⟨added, ha, hadded⟩ := h.work
  rw [ha]
  exact hf.push_loose (fun item hi => isLoose_of_consequence (hadded item hi))

/-- The destructions a check queues. -/
theorem Follows.push_destructions {work : List WorkItem} (h : Follows current work)
    (hit : List PlayerId) (p : Position) :
    Follows current (work ++ hit.flatMap (destructionSteps · p)) := by
  cases p with
  | main =>
      have := h.push (hit.map .chain) (by simp [Block.wellFormed])
      simpa [List.flatMap_map, Block.items] using this
  | bench slot =>
      refine h.push_loose (fun item hi => ?_)
      simp only [destructionSteps, List.mem_flatMap, List.mem_cons, List.not_mem_nil, or_false] at hi
      obtain ⟨q, -, rfl | rfl⟩ := hi <;> rfl

/-- Executing an item leaves an agenda an agenda. -/
theorem ItemStep.follows {item : WorkItem} (h : ItemStep s item t es) (hs : s.status = .playing)
    (hf : Follows current s.work) : Follows current t.work := by
  cases h with
  | checked _ _ _ => exact hf.push_destructions _ _
  | checkBroke _ _ _ => exact hf.push_destructions _ _
  | discarded _ _ => exact hf.push_front _ isUrgent_candidates
  | consequences _ => exact hf.push_front [_, _] (by simp [WorkItem.isUrgent])
  | @movement step c p =>
      obtain ⟨-, -, -, hw, -⟩ := markMainEntry_frame s step c p
      rw [GameState.pushFront_work, hw]
      exact hf.push_front _ isUrgent_movementFires
  | fired _ hl => exact (applyLeaves_frame hl hs).follows hf
  | _ => exact hf

/-- **An iteration of the drain, on its agenda.** -/
theorem drainStep_agenda (hf : Follows current s.work)
    (h : Resolution.drainStep s = some (t, es)) :
    Draining s ∧
      ((nextWork s = none ∧ Follows current t.work ∧
          ∃ item u es', StackStep s item u t es' ∧ es = .stackItemResolved item :: es') ∨
        ∃ item work next, nextWork s = some item ∧ s.work = item :: work ∧ Pops current item next ∧
          Follows next t.work ∧ ItemStep (poppedWork s work) item t es ∧
          ∀ p, item = .discardDestroyedChain .main → next = some (p, .loss) →
            work.head? = some (.recordMainLoss p)) := by
  obtain ⟨hd, ⟨item, u, es', hst, rfl⟩ | ⟨hlow, item, work, hwork, hi⟩⟩ := drainStep_cases h
  · refine ⟨hd, .inl ⟨nextWork_of_above hst.above, ?_, item, u, es', hst, rfl⟩⟩
    rw [hst.result, closeSegment_work, placeItem_work]
    exact (applyLeaves_frame hst.leaves hd.playing).follows hf
  · rw [hwork] at hf
    obtain ⟨next, hpops, hnext, hhead⟩ := hf.pop
    exact ⟨hd, .inr ⟨item, work, next, nextWork_of_low hlow hwork, hwork, hpops,
      hi.follows hd.playing hnext, hi, hhead⟩⟩

/-- Actions queue single items only. -/
theorem ActionStep.follows {a : GameAction} (h : ActionStep s a t es) (hs : s.status = .playing)
    (hf : Follows current s.work) : Follows current t.work := by
  cases h with
  | skill _ _ _ _ _ _ _ hl => exact (applyLeaves_frame hl hs).follows hf
  | retreated _ _ _ _ =>
      exact hf.push_loose (by simp [exchangeSteps, WorkItem.isLoose])
  | handedOver _ _ _ =>
      obtain ⟨v, hwork⟩ := handover_work (windowClosed s)
      rw [hwork]
      refine hf.push_loose (fun item hi => ?_)
      simp only [List.mem_append, List.mem_cons, List.not_mem_nil, or_false] at hi
      rcases hi with (rfl | hi) | rfl | rfl | rfl
      · rfl
      · have := isUrgent_candidates item hi
        cases item <;> first | rfl | cases this
      all_goals rfl
  | _ => exact hf

end

end Summoners
