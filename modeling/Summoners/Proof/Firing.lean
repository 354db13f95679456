import Summoners.Cards.Specimen
import Summoners.Proof.Rest
import Summoners.Steps.Facts
import Summoners.Steps.Standing

/-! # No queued trigger is lost

The triggers in work are one batch, queued by one step: the discard of a destroyed Summon, a movement
step or the handover. While any of the batch is left, only triggers and what the Stack holds run, and
only Spells, passes, the Coin and Mana choices are accepted; none of these moves a Summon or changes
the card on top of it. So each trigger finds the Summon it was queued for.
-/

namespace Summoners
set_option autoImplicit false

open Effects RunToCompletion Destruction

def WorkItem.isFire : WorkItem → Bool
  | .fireTrigger _ _ _ _ => true
  | _ => false

/-- The item fires a trigger of this Summon for this event. -/
def WorkItem.fires (player : PlayerId) (position : Position) (event : TriggerEvent) :
    WorkItem → Bool
  | .fireTrigger p q ev _ => p == player && q == position && ev == event
  | _ => false

/-- The triggers queued, in order. -/
def firesIn (work : List WorkItem) : List WorkItem := work.filter WorkItem.isFire

/-- The step looks for triggers: those of a destruction, of a movement or of Upkeep. -/
def Discovers (x : Entry GameState GameAction GameEvent) : Prop :=
  (∃ p, executes x = some (.discardDestroyedChain p)) ∨
    (∃ step c p, executes x = some (.movementTrigger step c p)) ∨
      ∃ c, .turnBegan c ∈ x.emitted

section
variable {work work' items : List WorkItem} {item : WorkItem}

@[simp] theorem firesIn_nil : firesIn [] = [] := rfl

@[simp] theorem firesIn_append : firesIn (work ++ work') = firesIn work ++ firesIn work' :=
  List.filter_append work work'

theorem firesIn_cons : firesIn (item :: work) = firesIn [item] ++ firesIn work :=
  List.filter_append [item] work

theorem firesIn_of_fires (h : ∀ i ∈ items, i.isFire = true) : firesIn items = items :=
  List.filter_eq_self.mpr h

theorem firesIn_of_none (h : ∀ i ∈ items, i.isFire = false) : firesIn items = [] := by
  unfold firesIn
  rw [List.filter_eq_nil_iff]
  intro i hi
  rw [h i hi]
  exact Bool.false_ne_true

theorem mem_firesIn {c : PlayerId} {p : Position} {ev : TriggerEvent} {ability : EntityId} :
    .fireTrigger c p ev ability ∈ firesIn work ↔ .fireTrigger c p ev ability ∈ work := by
  unfold firesIn
  rw [List.mem_filter]
  exact ⟨And.left, fun h => ⟨h, rfl⟩⟩

theorem isFire_of_consequence (h : item.isConsequence = true) : item.isFire = false := by
  cases item <;> first | rfl | cases h

/-! ## One batch in front -/

/-- The triggers in work stand together, in front or behind the readying of Upkeep. -/
def Batched (work : List WorkItem) : Prop :=
  ∃ lead batch rest, work = lead ++ batch ++ rest ∧ (lead = [] ∨ lead = [.readyAll]) ∧
    (∀ i ∈ batch, i.isFire = true) ∧ ∀ i ∈ rest, i.isFire = false

theorem Batched.of_none (h : firesIn work = []) : Batched work := by
  refine ⟨[], [], work, rfl, .inl rfl, by simp, fun i hi => ?_⟩
  have hnot := List.filter_eq_nil_iff.mp h i hi
  simpa using hnot

/-- The front of a batched queue is a trigger, the readying, or there is no trigger at all. -/
theorem Batched.pop (h : Batched (item :: work)) :
    Batched work ∧ (item.isFire = true ∨ item = .readyAll ∨ firesIn (item :: work) = []) := by
  obtain ⟨lead, batch, rest, heq, hlead, hbatch, hrest⟩ := h
  rcases hlead with rfl | rfl
  · cases batch with
    | nil =>
        obtain rfl : item :: work = rest := by simpa using heq
        have hnone := firesIn_of_none hrest
        refine ⟨.of_none (firesIn_of_none (fun i hi => hrest i (List.mem_cons_of_mem _ hi))), ?_⟩
        exact .inr (.inr hnone)
    | cons f batch =>
        simp only [List.nil_append, List.cons_append, List.cons.injEq] at heq
        obtain ⟨rfl, rfl⟩ := heq
        exact ⟨⟨[], batch, rest, rfl, .inl rfl, fun i hi => hbatch i (List.mem_cons_of_mem _ hi),
          hrest⟩, .inl (hbatch _ List.mem_cons_self)⟩
  · simp only [List.cons_append, List.nil_append, List.cons.injEq] at heq
    obtain ⟨rfl, rfl⟩ := heq
    exact ⟨⟨[], batch, rest, rfl, .inl rfl, hbatch, hrest⟩, .inr (.inl rfl)⟩

theorem Batched.push_back (h : Batched work) (hitems : ∀ i ∈ items, i.isFire = false) :
    Batched (work ++ items) := by
  obtain ⟨lead, batch, rest, rfl, hlead, hbatch, hrest⟩ := h
  refine ⟨lead, batch, rest ++ items, by simp only [List.append_assoc], hlead, hbatch,
    fun i hi => ?_⟩
  exact (List.mem_append.mp hi).elim (hrest i) (hitems i)

theorem Batched.push_fires (h : firesIn work = []) (hitems : ∀ i ∈ items, i.isFire = true) :
    Batched (items ++ work) := by
  refine ⟨[], items, work, rfl, .inl rfl, hitems, fun i hi => ?_⟩
  simpa using List.filter_eq_nil_iff.mp h i hi

end

/-! ## What is queued -/

section
variable {s t u : GameState} {es : List GameEvent}
  {tr : List (Entry GameState GameAction GameEvent)}
  {x : Entry GameState GameAction GameEvent}

/-- Every trigger of the list is printed on the Summon it names. -/
def NamesPrinted (s : GameState) (work : List WorkItem) : Prop :=
  ∀ c p ev ability, .fireTrigger c p ev ability ∈ work →
    ability ∈ Triggers.matchingAbilities s c p ev

theorem isFire_candidates {players : List PlayerId} {event : TriggerEvent} :
    ∀ i ∈ Triggers.candidates s players event, i.isFire = true := by
  intro i hi
  simp only [Triggers.candidates, List.mem_flatMap, List.mem_map] at hi
  obtain ⟨q, -, p, -, ability, -, rfl⟩ := hi
  rfl

theorem printed_candidates {players : List PlayerId} {event : TriggerEvent} :
    NamesPrinted s (Triggers.candidates s players event) := by
  intro c p ev ability hmem
  simp only [Triggers.candidates, List.mem_flatMap, List.mem_map] at hmem
  obtain ⟨q, -, r, -, a, ha, heq⟩ := hmem
  cases heq
  exact ha

theorem isFire_movementFires {step : MovementStep} {c : PlayerId} {p : Position} :
    ∀ i ∈ movementFires s step c p, i.isFire = true := by
  intro i hi
  obtain ⟨ability, -, rfl⟩ := List.mem_map.mp hi
  rfl

theorem printed_movementFires {step : MovementStep} {c : PlayerId} {p : Position} :
    NamesPrinted s (movementFires s step c p) := by
  intro c' p' ev ability hmem
  obtain ⟨a, ha, heq⟩ := List.mem_map.mp hmem
  cases heq
  exact ha

theorem NamesPrinted.stands {work : List WorkItem} (h : NamesPrinted s work) (hs : Stands s t)
    (hcards : t.cards = s.cards) : NamesPrinted t work := by
  intro c p ev ability hmem
  rw [hs.matchingAbilities hcards]
  exact h c p ev ability hmem

/-- No promotion is being asked for. -/
def Unasked (s : GameState) : Prop := ∀ c, s.pending ≠ some (.promotion c)

theorem LeafFrame.unasked (h : LeafFrame s t) (hs : Unasked s) : Unasked t := by
  intro c hp
  rcases h.pending with hk | ⟨c', p, hk⟩
  · rw [hk] at hp
    exact hs c hp
  · rw [hk] at hp
    cases hp

theorem LeafFrame.fires (h : LeafFrame s t) :
    firesIn t.work = firesIn s.work ∧ (Batched s.work → Batched t.work) := by
  obtain ⟨added, ha, hadded⟩ := h.work
  have hnone : ∀ i ∈ added, i.isFire = false := fun i hi => isFire_of_consequence (hadded i hi)
  rw [ha]
  exact ⟨by rw [firesIn_append, firesIn_of_none hnone, List.append_nil],
    fun hb => hb.push_back hnone⟩

/-! ## One step -/

/-- A step that leaves the Summons where they stand and takes the front of the batch, if it executes a
trigger. -/
structure Advances (x : Entry GameState GameAction GameEvent) (t : GameState) : Prop where
  stands : Stands x.before t
  cards : t.cards = x.before.cards
  fires : firesIn x.before.work = firesIn (executes x).toList ++ firesIn t.work
  batched : Batched t.work
  unasked : firesIn t.work ≠ [] → Unasked t

/-- A step that finds no trigger in work and queues the ones it discovers. -/
structure Queues (x : Entry GameState GameAction GameEvent) (t : GameState) : Prop where
  discovers : Discovers x
  none : firesIn x.before.work = []
  printed : NamesPrinted t t.work
  batched : Batched t.work
  unasked : Unasked t

/-- Executing an item that is no trigger, where none is queued. -/
theorem ItemStep.queues {item : WorkItem} {work : List WorkItem}
    (hi : ItemStep (poppedWork s work) item t es) (hd : Draining s)
    (hwork : s.work = item :: work) (hnext : nextWork s = some item)
    (hnone : firesIn (item :: work) = []) :
    Queues ⟨s, none, es⟩ t ∨ (firesIn t.work = [] ∧ Batched t.work) := by
  have hsplit : firesIn [item] = [] ∧ firesIn work = [] := by
    rw [firesIn_cons] at hnone
    exact List.append_eq_nil_iff.mp hnone
  have hrest := hsplit.2
  have hquiet : ∀ {added : List WorkItem}, t.work = work ++ added →
      (∀ i ∈ added, i.isFire = false) → firesIn t.work = [] ∧ Batched t.work := by
    intro added ht hadded
    have hfires : firesIn t.work = [] := by
      rw [ht, firesIn_append, hrest, firesIn_of_none hadded, List.append_nil]
    exact ⟨hfires, .of_none hfires⟩
  have hchain : ∀ {hit : List PlayerId} {p : Position},
      ∀ i ∈ hit.flatMap (destructionSteps · p), i.isFire = false := by
    intro hit p i hi
    obtain ⟨q, -, hq⟩ := List.mem_flatMap.mp hi
    cases p <;> simp only [destructionSteps, List.mem_cons, List.not_mem_nil, or_false] at hq
    · rcases hq with rfl | rfl | rfl | rfl | rfl | rfl <;> rfl
    · rcases hq with rfl | rfl <;> rfl
  have hmem : ∀ {c : PlayerId} {p : Position} {ev : TriggerEvent} {ability : EntityId},
      .fireTrigger c p ev ability ∉ work := by
    intro c p ev ability hw
    rw [← mem_firesIn, hrest] at hw
    cases hw
  have hpending : s.pending = none := hd.pending
  cases hi with
  | checked _ _ _ => exact .inr (hquiet rfl hchain)
  | checkBroke _ _ _ => exact .inr (hquiet rfl hchain)
  | @discarded p c y _ _ =>
      left
      have hprinted : NamesPrinted (Triggers.discoverFront (discardSummon (poppedWork s work) c p y)
          (orderedPlayers (poppedWork s work)) .anySummonDestroyed)
          (Triggers.candidates (discardSummon (poppedWork s work) c p y)
            (orderedPlayers (poppedWork s work)) .anySummonDestroyed) := printed_candidates
      refine ⟨.inl ⟨p, hnext⟩, by rw [hwork]; exact hnone, fun c' p' ev ability hw => ?_,
        .push_fires hrest isFire_candidates, fun c' hp => ?_⟩
      · rcases List.mem_append.mp hw with hw | hw
        · exact hprinted _ _ _ _ hw
        · exact absurd hw hmem
      · have hp : s.pending = some (.promotion c') := hp
        rw [hpending] at hp
        cases hp
  | @consequences c _ =>
      right
      have hfires : firesIn ([WorkItem.movementTrigger .leavingBench c .main,
          .movementTrigger .enteringMain c .main] ++ work) = [] := by
        rw [firesIn_append, hrest]
        rfl
      exact ⟨hfires, .of_none hfires⟩
  | @movement step c p =>
      left
      obtain ⟨-, -, -, hw, hp, -, hcards⟩ := markMainEntry_frame (poppedWork s work) step c p
      have hstands := markMainEntry_stands (poppedWork s work) step c p
      have hfound : NamesPrinted (Triggers.markMainEntry (poppedWork s work) step c p)
          (movementFires (poppedWork s work) step c p) :=
        NamesPrinted.stands printed_movementFires hstands hcards
      refine ⟨.inr (.inl ⟨step, c, p, hnext⟩), by rw [hwork]; exact hnone,
        fun c' p' ev ability hmem' => ?_, ?_, fun c' hp' => ?_⟩
      · rw [GameState.pushFront_work, hw] at hmem'
        rcases List.mem_append.mp hmem' with hmem' | hmem'
        · exact hfound _ _ _ _ hmem'
        · exact absurd hmem' hmem
      · rw [GameState.pushFront_work, hw]
        exact .push_fires hrest isFire_movementFires
      · rw [GameState.pushFront_pending, hp, poppedWork_pending, hpending] at hp'
        cases hp'
  | opened _ => cases hsplit.1
  | unfired _ => cases hsplit.1
  | fired _ _ => cases hsplit.1
  | _ => exact .inr (hquiet (List.append_nil work).symm (by simp))

/-- **An iteration of the drain** goes on with the batch there is, or queues one. -/
theorem drainStep_firing (hcards : s.cards.Authored) (hstill : StillStack s)
    (hb : Batched s.work) (h : Resolution.drainStep s = some (t, es)) :
    Advances ⟨s, none, es⟩ t ∨ Queues ⟨s, none, es⟩ t ∨
      (firesIn t.work = [] ∧ Batched t.work) := by
  obtain ⟨hd, ⟨item, u, es', hst, rfl⟩ | ⟨hlow, item, work, hwork, hi⟩⟩ := drainStep_cases h
  · left
    have hnext : nextWork s = none := nextWork_of_above hst.above
    have hf := applyLeaves_frame hst.leaves hd.playing
    have htwork : t.work = u.work := by rw [hst.result, closeSegment_work, placeItem_work]
    have hpending : t.pending = u.pending := by
      rw [hst.result, closeSegment_pending, placeItem_pending]
    refine ⟨drainStep_stands h hcards hstill (fun i hi => ?_), ?_, ?_, ?_, fun _ c hp => ?_⟩
    · rw [hnext] at hi
      cases hi
    · rw [hst.result, closeSegment_cards, placeItem_cards, hf.cards, poppedStack_cards]
    · have hexec : executes (⟨s, none, .stackItemResolved item :: es'⟩ :
          Entry GameState GameAction GameEvent) = none := hnext
      rw [hexec, htwork, hf.fires.1]
      rfl
    · rw [htwork]
      exact hf.fires.2 hb
    · have hunasked : Unasked (poppedStack s) := fun c hp => by
        rw [poppedStack_pending, hd.pending] at hp
        cases hp
      rw [hpending] at hp
      exact hf.unasked hunasked c hp
  · have hnext := nextWork_of_low hlow hwork
    have hexec : executes (⟨s, none, es⟩ : Entry GameState GameAction GameEvent) = some item := hnext
    rw [hwork] at hb
    obtain ⟨hrest, hfire | rfl | hnone⟩ := hb.pop
    · left
      have hstands := hi.stands hd.playing hcards.triggersAdmitted
        (by cases item <;> first | rfl | cases hfire)
      have hw : t.work = work ∧ Unasked t := by
        have hunasked : Unasked (poppedWork s work) := fun c hp => by
          rw [poppedWork_pending, hd.pending] at hp
          cases hp
        cases hi with
        | unfired _ => exact ⟨rfl, hunasked⟩
        | opened _ => exact ⟨rfl, hunasked⟩
        | fired ha hl =>
            exact ⟨applyLeaves_work_of_trigger hl hd.playing
                (abilityAt_admitted (s := poppedWork s work) hcards.triggersAdmitted ha),
              (applyLeaves_frame hl hd.playing).unasked hunasked⟩
        | _ => cases hfire
      refine ⟨hstands, (hi.frame hd.playing).cards, ?_, by rw [hw.1]; exact hrest, fun _ => hw.2⟩
      rw [hexec, hw.1, hwork, firesIn_cons]
      rfl
    · left
      have hstands := hi.stands hd.playing hcards.triggersAdmitted rfl
      cases hi with
      | readied =>
          refine ⟨hstands, rfl, ?_, hrest, fun _ c hp => ?_⟩
          · rw [hexec, hwork, firesIn_cons]
            rfl
          · have hp : s.pending = some (.promotion c) := hp
            rw [hd.pending] at hp
            cases hp
    · exact .inr (hi.queues hd hwork hnext hnone)

/-- **An action** accepted with triggers queued leaves the Summons where they stand; the handover
queues those of Upkeep. -/
theorem ActionStep.firing {a : GameAction} (h : ActionStep s a t es) (hc : Coherent s)
    (hs : s.status = .playing) (hrest : Resolution.drainStep s = none) (hb : Batched s.work)
    (hunasked : firesIn s.work ≠ [] → Unasked s) :
    Advances ⟨s, some a, es⟩ t ∨ Queues ⟨s, some a, es⟩ t ∨
      (firesIn t.work = [] ∧ Batched t.work) := by
  have hfree : FreeMain s → firesIn s.work = [] := fun free => by
    rw [(hc.idle hs hrest free.pending free.window).1]
    rfl
  have hkept : t.work = s.work → firesIn s.work = [] → firesIn t.work = [] ∧ Batched t.work := by
    intro hwork hnone
    rw [hwork]
    exact ⟨hnone, hb⟩
  have hadvance : a.reseats = false → t.cards = s.cards → t.work = s.work →
      (t.pending = s.pending ∨ t.pending = none) → Advances ⟨s, some a, es⟩ t := by
    intro ha hcards hwork hpending
    refine ⟨h.stands ha, hcards, ?_, by rw [hwork]; exact hb, fun hne c hp => ?_⟩
    · rw [hwork]
      rfl
    · rw [hwork] at hne
      rcases hpending with hk | hk
      · rw [hk] at hp
        exact hunasked hne c hp
      · rw [hk] at hp
        cases hp
  cases h with
  | played free _ _ _ _ _ => exact .inr (.inr (hkept rfl (hfree free)))
  | upgraded free _ _ _ _ _ _ _ _ _ => exact .inr (.inr (hkept rfl (hfree free)))
  | cast _ _ _ _ _ _ => exact .inl (hadvance rfl rfl rfl (.inl rfl))
  | skill free _ _ _ _ _ _ hl =>
      right
      right
      have hfires := (applyLeaves_frame hl hs).fires
      exact ⟨hfires.1.trans (hfree free), hfires.2 hb⟩
  | @retreated c slot _ _ _ _ _ free _ _ _ =>
      right
      right
      have hnone : ∀ i ∈ exchangeSteps c slot, i.isFire = false := by
        simp [exchangeSteps, WorkItem.isFire]
      refine ⟨?_, hb.push_back hnone⟩
      rw [GameState.pushBack_work, firesIn_append, firesIn_of_none hnone, List.append_nil]
      exact hfree free
  | attacked _ _ _ _ _ => exact .inl (hadvance rfl rfl rfl (.inl rfl))
  | handedOver hp hw hstack =>
      right
      left
      have hwork : s.work = [] := hc.finished (by rw [hw]; rfl) hstack
      have hmem : ∀ i ∈ [WorkItem.drawCard, .produceMana s.turn.activePlayer.opponent .player,
          .beginMainPhase], i.isFire = false := by
        simp [WorkItem.isFire]
      refine ⟨.inr (.inr ⟨_, List.mem_cons_of_mem _ List.mem_cons_self⟩), by rw [hwork]; rfl, ?_, ?_,
        fun c hk => ?_⟩
      · intro c p ev ability hi
        simp only [Turn.handover, Triggers.discoverBack, GameState.pushBack_work,
          List.mem_append, List.mem_cons, List.not_mem_nil, or_false, windowClosed, hwork,
          reduceCtorEq, false_or] at hi
        exact printed_candidates _ _ _ _ hi
      · simp only [Turn.handover, Triggers.discoverBack, GameState.pushBack_work, windowClosed, hwork,
          List.nil_append]
        exact ⟨[.readyAll], _, _, rfl, .inr rfl, isFire_candidates, hmem⟩
      · have hk : s.pending = some (.promotion c) := hk
        rw [hp] at hk
        cases hk
  | manaChosen _ _ => exact .inl (hadvance rfl rfl rfl (.inr rfl))
  | promotionChosen hp _ =>
      right
      right
      refine hkept rfl ?_
      by_contra hne
      exact hunasked hne _ hp
  | prizeChosen _ _ => exact .inl (hadvance rfl rfl rfl (.inr rfl))
  | _ => exact .inl (hadvance rfl rfl rfl (.inl rfl))

/-! ## Runs -/

/-- Where the triggers now queued come from: one step `y` queued them with those executed since, all
printed on the Summons they name, and no Summon has left its position. -/
def Origin (tr : List (Entry GameState GameAction GameEvent)) (s : GameState) : Prop :=
  ∃ pre y mid t, tr = pre ++ y :: mid ∧ engine.Takes y t ∧ Queues y t ∧ t.cards = s.cards ∧
    firesIn t.work = firesIn (mid.filterMap executes) ++ firesIn s.work ∧
      (∀ z ∈ mid, Stands t z.before) ∧ Stands t s

/-- What a run keeps. -/
structure Firing (tr : List (Entry GameState GameAction GameEvent)) (s : GameState) : Prop where
  coherent : Coherent s
  authored : s.cards.Authored
  still : StillStack s
  batched : Batched s.work
  unasked : firesIn s.work ≠ [] → Unasked s
  origin : firesIn s.work ≠ [] → Origin tr s

theorem Origin.extend (h : Origin tr x.before) (hx : Advances x t) : Origin (tr ++ [x]) t := by
  obtain ⟨pre, y, mid, u, rfl, hy, hqueues, hcards, hfires, hmid, hlast⟩ := h
  refine ⟨pre, y, mid ++ [x], u, by rw [List.append_assoc, List.cons_append], hy, hqueues,
    hcards.trans hx.cards.symm, ?_, fun z hz => ?_, hlast.trans hx.stands⟩
  · rw [hfires, hx.fires, List.filterMap_append, firesIn_append, List.append_assoc]
    rfl
  · rcases List.mem_append.mp hz with hz | hz
    · exact hmid z hz
    · rw [List.mem_singleton.mp hz]
      exact hlast

theorem Firing.step (h : Firing tr x.before) (hx : engine.Takes x t) (hcoherent : Coherent t)
    (hcards : t.cards = x.before.cards) (hstill : StillStack t)
    (hcases : Advances x t ∨ Queues x t ∨ (firesIn t.work = [] ∧ Batched t.work)) :
    Firing (tr ++ [x]) t := by
  have hauthored : t.cards.Authored := by
    rw [hcards]
    exact h.authored
  rcases hcases with hadv | hqueues | ⟨hnone, hbatched⟩
  · refine ⟨hcoherent, hauthored, hstill, hadv.batched, hadv.unasked, fun hne => ?_⟩
    refine (h.origin (fun hempty => hne ?_)).extend hadv
    have hfires := hadv.fires
    rw [hempty] at hfires
    exact (List.append_eq_nil_iff.mp hfires.symm).2
  · refine ⟨hcoherent, hauthored, hstill, hqueues.batched, fun _ => hqueues.unasked, fun _ => ?_⟩
    exact ⟨tr, x, [], t, rfl, hx, hqueues, rfl, rfl, by simp, .refl t⟩
  · exact ⟨hcoherent, hauthored, hstill, hbatched, fun hne => absurd hnone hne,
      fun hne => absurd hnone hne⟩

theorem Firing.action {a : GameAction} (h : Firing tr s) (hrest : Resolution.drainStep s = none)
    (ha : engine.accept s a = some (t, es)) : Firing (tr ++ [⟨s, some a, es⟩]) t := by
  obtain ⟨hs, hst, -⟩ := accept_step ha
  exact h.step (x := ⟨s, some a, es⟩) ha (h.coherent.action hs hrest hst) (hst.cards hs)
    (h.still.action hs hst) (hst.firing h.coherent hs hrest h.batched h.unasked)

theorem Firing.drainStep (h : Firing tr s) (hn : Resolution.drainStep s = some (t, es)) :
    Firing (tr ++ [⟨s, none, es⟩]) t :=
  h.step (x := ⟨s, none, es⟩) hn (h.coherent.drainStep hn) (drainStep_cards hn)
    (h.still.drainStep h.authored.triggersAdmitted hn)
    (drainStep_firing h.authored h.still h.batched hn)

theorem Opening.firing {cards : CardSet} (h : Opening cards s) (hcards : cards.Authored) :
    Firing [] s := by
  have hinit : firesIn s.work = [] := by
    rw [h.work]
    rfl
  have hstill : StillStack s := by
    intro item hitem
    rw [h.stack] at hitem
    cases hitem
  exact ⟨h.coherent, by rw [h.cards]; exact hcards, hstill, .of_none hinit,
    fun hne => absurd hinit hne, fun hne => absurd hinit hne⟩

theorem Opening.run_firing {cards : CardSet} {start : GameState} (h : Opening cards start)
    (hcards : cards.Authored) (hr : engine.Run start tr s) : Firing tr s ∧
      ∀ {pre post : List (Entry GameState GameAction GameEvent)}
        {x : Entry GameState GameAction GameEvent}, tr = pre ++ x :: post →
        Firing pre x.before ∧ ∃ t, engine.Takes x t ∧ Firing (pre ++ [x]) t :=
  hr.split h.rest (h.firing hcards) (fun hI hrest ha => hI.action hrest ha)
    (fun hI hn => hI.drainStep hn)

/-- A queued trigger that is executed fires. -/
theorem Firing.emits {c : PlayerId} {p : Position} {ev : TriggerEvent} {ability : EntityId}
    (h : Firing tr x.before) (ht : engine.Takes x t)
    (hx : executes x = some (.fireTrigger c p ev ability)) :
    (∃ trigger, Triggers.abilityAt x.before c p ability = some trigger) ∧
      ∃ es, x.emitted = .triggerFired c p ev ability :: es := by
  obtain ⟨hinput, hnext⟩ := executes_eq_some.mp hx
  obtain ⟨work, hwork, hi⟩ := drainStep_of_nextWork (ht.next hinput) hnext
  have hmem : .fireTrigger c p ev ability ∈ firesIn x.before.work := by
    rw [mem_firesIn, hwork]
    exact List.mem_cons_self
  obtain ⟨_, _, mid, u, -, -, hqueues, hcards, hbatch, -, hlast⟩ :=
    h.origin (List.ne_nil_of_mem hmem)
  have hqueued : .fireTrigger c p ev ability ∈ u.work := by
    rw [← mem_firesIn, hbatch]
    exact List.mem_append_right _ hmem
  have hfound := hqueues.printed.stands hlast hcards.symm c p ev ability hqueued
  obtain ⟨trigger, htrigger⟩ := abilityAt_of_matching hfound
  refine ⟨⟨trigger, htrigger⟩, ?_⟩
  generalize x.emitted = emitted at hi
  cases hi with
  | unfired ha =>
      have hnone : Triggers.abilityAt x.before c p ability = none := ha
      rw [hnone] at htrigger
      cases htrigger
  | opened _ => exact ⟨[], rfl⟩
  | fired _ _ => exact ⟨_, rfl⟩

end

/-- **No queued trigger is lost or misdirected.** Whenever a drain over a loaded set executes a queued
trigger, it fires. One earlier step queued it, as the next trigger of its batch; the Summon it names
stood there then, printed the ability, and has been the one at that position ever since. -/
theorem queued_triggers_fire {newV5 : Vector UInt8 16 → String → String} {decoded : Dto.Set}
    {loaded : LoadedSet} {scenario : Scenario} {start s : GameState}
    {tr : List (Entry GameState GameAction GameEvent)} (hload : load newV5 decoded = .ok loaded)
    (hstart : fromScenario loaded.cards scenario = .ok start) (hr : engine.Run start tr s)
    {pre post : List (Entry GameState GameAction GameEvent)}
    {x : Entry GameState GameAction GameEvent} {c : PlayerId} {p : Position} {ev : TriggerEvent}
    {ability : EntityId} (hsplit : tr = pre ++ x :: post)
    (hx : executes x = some (.fireTrigger c p ev ability)) :
    (∃ trigger, Triggers.abilityAt x.before c p ability = some trigger) ∧
      (∃ es, x.emitted = .triggerFired c p ev ability :: es) ∧
      ∃ first y mid t later seen found, pre = first ++ y :: mid ∧ engine.Takes y t ∧ Discovers y ∧
        firesIn y.before.work = [] ∧
        firesIn t.work = firesIn (mid.filterMap executes) ++ .fireTrigger c p ev ability :: later ∧
        ability ∈ Triggers.matchingAbilities t c p ev ∧
        (t.player c).summonAt p = some seen ∧ (x.before.player c).summonAt p = some found ∧
        SameSummon seen found ∧
        ∀ z ∈ mid, ∃ between, (z.before.player c).summonAt p = some between ∧
          SameSummon seen between := by
  have hrun := (opening_of_fromScenario hstart).run_firing (authored_of_load hload) hr
  obtain ⟨hbefore, t', htakes, -⟩ := hrun.2 hsplit
  obtain ⟨hinput, hnext⟩ := executes_eq_some.mp hx
  obtain ⟨work, hwork, -⟩ := drainStep_of_nextWork (htakes.next hinput) hnext
  have hfires : firesIn x.before.work = .fireTrigger c p ev ability :: firesIn work := by
    rw [hwork, firesIn_cons]
    rfl
  obtain ⟨first, y, mid, t, hpre, hy, hqueues, hcards, hbatch, hmid, hlast⟩ :=
    hbefore.origin (by rw [hfires]; exact List.cons_ne_nil _ _)
  rw [hfires] at hbatch
  have hqueued : .fireTrigger c p ev ability ∈ t.work := by
    rw [← mem_firesIn, hbatch]
    exact List.mem_append_right _ List.mem_cons_self
  have hprinted := hqueues.printed c p ev ability hqueued
  obtain ⟨seen, hseen⟩ := summonAt_of_matching hprinted
  obtain ⟨found, hstands, hsame⟩ := (hlast c).summonAt hseen
  obtain ⟨htrigger, hes⟩ := hbefore.emits htakes hx
  exact ⟨htrigger, hes, first, y, mid, t, firesIn work, seen, found, hpre, hy, hqueues.discovers,
    hqueues.none, hbatch, hprinted, hseen, hstands, hsame, fun z hz => (hmid z hz c).summonAt hseen⟩

open Specimen in
/-- The Upkeep trigger of Player Two's Main, which pauses for a Mana Type. -/
theorem queued_triggers_fire_upkeep :
    ∃ l start tr s, load newV5 (document [herald]) = .ok l ∧
      fromScenario l.cards (Fixtures.facing (Fixtures.lone (inPlay 1 "herald"))
        (Fixtures.lone (inPlay 2 "herald"))) = .ok start ∧ engine.Run start tr s ∧
      ∃ x ∈ tr, ∃ ability es,
        x.emitted = .triggerFired .two .main .yourUpkeep ability :: es := by
  have hdemo : (trace [herald] (Fixtures.facing (Fixtures.lone (inPlay 1 "herald"))
      (Fixtures.lone (inPlay 2 "herald")))
      [.endTurn .one, .passPriority .two, .passPriority .one]).map
        (fun r => r.2.2.1.any (fun x => (executes x).any
          (WorkItem.fires .two .main .yourUpkeep))) = some true := by decide +kernel
  obtain ⟨⟨l, start, tr, s⟩, hr, hv⟩ := Option.map_eq_some_iff.mp hdemo
  obtain ⟨hload, hstart, hrun⟩ := run_of_trace hr
  obtain ⟨x, hx, hfire⟩ := List.any_eq_true.mp hv
  obtain ⟨item, hitem, hmatch⟩ := (Option.any_eq_true _ _).mp hfire
  cases item with
  | fireTrigger p q ev ability =>
    simp only [WorkItem.fires, Bool.and_eq_true, beq_iff_eq] at hmatch
    obtain ⟨⟨rfl, rfl⟩, rfl⟩ := hmatch
    obtain ⟨pre, post, hsplit⟩ := List.append_of_mem hx
    obtain ⟨-, hes, -⟩ := queued_triggers_fire hload hstart hrun hsplit hitem
    exact ⟨l, start, tr, s, hload, hstart, hrun, x, hx, ability, hes⟩
  | _ => simp [WorkItem.fires] at hmatch

end Summoners
