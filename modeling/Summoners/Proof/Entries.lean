import Summoners.Proof.Answers
import Summoners.Proof.Moments
import Summoners.Proof.Roster

/-! # What an arrival in Main queues

An exchange and the end of a destruction queue one entry step for the Summon now in Main, and that step
the triggers printed for it. Before them stand other movement steps, triggers and destruction checks
only, so no step of a destruction is executed while an entry is queued. What is queued for a player is
counted by `Owes`.
-/

namespace Summoners
set_option autoImplicit false

open Effects RunToCompletion Destruction

/-- The entry step of an arrival in Main, or a trigger it has queued. -/
def WorkItem.isEntry : WorkItem → Bool
  | .movementTrigger .enteringMain _ .main | .fireTrigger _ .main .entersMain _ => true
  | _ => false

/-- What may stand before an entry in the queue. -/
def WorkItem.isLight : WorkItem → Bool
  | .movementTrigger _ _ _ | .fireTrigger _ _ _ _ | .destructionCheck _ => true
  | _ => false

/-- Nothing but movement steps, triggers and destruction checks stands before an entry. -/
def EntriesFirst (work : List WorkItem) : Prop :=
  ∃ front back, work = front ++ back ∧ (∀ i ∈ front, i.isLight = true) ∧
    ∀ i ∈ back, i.isEntry = false

/-- The trigger an item fires for an arrival of `q` in Main. -/
def WorkItem.entryFire (q : PlayerId) : WorkItem → Option EntityId
  | .fireTrigger c .main .entersMain ability => if c = q then some ability else none
  | _ => none

/-- What is queued for the Main of `q`: the entry steps, counted, and the triggers, in order. -/
structure Owes (q : PlayerId) (work : List WorkItem) (due : ℕ) (fires : List EntityId) : Prop where
  due : work.count (.movementTrigger .enteringMain q .main) = due
  fires : work.filterMap (WorkItem.entryFire q) = fires

/-- The trigger a fact reports for an arrival of `q` in Main. -/
def GameEvent.entryFired (q : PlayerId) : GameEvent → Option EntityId
  | .triggerFired c .main .entersMain ability => if c = q then some ability else none
  | _ => none

/-- Whether a leaf of `c` exchanges the Main of `q` with a Bench slot. -/
def EffectLeaf.exchanges (c q : PlayerId) : EffectLeaf → Bool
  | .swapPositions => decide (q = c)
  | .swapOpposingPositions => decide (q = c.opponent)
  | _ => false

section
variable {work items front back : List WorkItem} {item : WorkItem} {q c : PlayerId} {n m : ℕ}
  {fires fires' : List EntityId}

/-! ## The order of the queue -/

theorem EntriesFirst.of_light (h : ∀ i ∈ work, i.isLight = true) : EntriesFirst work :=
  ⟨work, [], by simp, h, by simp⟩

theorem EntriesFirst.push_back (h : EntriesFirst work) (hitems : ∀ i ∈ items, i.isEntry = false) :
    EntriesFirst (work ++ items) := by
  obtain ⟨front, back, rfl, hfront, hback⟩ := h
  refine ⟨front, back ++ items, List.append_assoc _ _ _, hfront, fun i hi => ?_⟩
  exact (List.mem_append.mp hi).elim (hback i) (hitems i)

theorem EntriesFirst.push_front (h : EntriesFirst work) (hitems : ∀ i ∈ items, i.isLight = true) :
    EntriesFirst (items ++ work) := by
  obtain ⟨front, back, rfl, hfront, hback⟩ := h
  refine ⟨items ++ front, back, (List.append_assoc _ _ _).symm, fun i hi => ?_, hback⟩
  exact (List.mem_append.mp hi).elim (hitems i) (hfront i)

/-- At the front stands a light item, or no entry is queued. -/
theorem EntriesFirst.pop (h : EntriesFirst (item :: work)) :
    EntriesFirst work ∧ (item.isLight = true ∨ ∀ i ∈ item :: work, i.isEntry = false) := by
  obtain ⟨front, back, heq, hfront, hback⟩ := h
  cases front with
  | nil =>
      rw [List.nil_append] at heq
      subst heq
      exact ⟨⟨[], work, rfl, by simp, fun i hi => hback i (List.mem_cons_of_mem _ hi)⟩, .inr hback⟩
  | cons first front =>
      rw [List.cons_append] at heq
      obtain ⟨rfl, rfl⟩ := List.cons.inj heq
      exact ⟨⟨front, back, rfl, fun i hi => hfront i (List.mem_cons_of_mem _ hi), hback⟩,
        .inl (hfront item List.mem_cons_self)⟩

/-! ## What is owed -/

theorem Owes.unique (h : Owes q work n fires) (h' : Owes q work m fires') :
    n = m ∧ fires = fires' :=
  ⟨h.due.symm.trans h'.due, h.fires.symm.trans h'.fires⟩

theorem Owes.append (h : Owes q work n fires) (h' : Owes q items m fires') :
    Owes q (work ++ items) (n + m) (fires ++ fires') :=
  ⟨by rw [List.count_append, h.due, h'.due], by rw [List.filterMap_append, h.fires, h'.fires]⟩

/-- Nothing but entries is owed. -/
theorem owes_nothing (h : ∀ i ∈ work, i.isEntry = false) : Owes q work 0 [] := by
  constructor
  · rw [List.count_eq_zero]
    intro hmem
    cases h _ hmem
  · rw [List.filterMap_eq_nil_iff]
    intro i hi
    have hi := h i hi
    cases i with
    | fireTrigger c p ev ability => cases p <;> cases ev <;> first | rfl | cases hi
    | _ => rfl

theorem owes_nil : Owes q [] 0 [] := owes_nothing (by simp)

/-- The work of another player's Main, and steps elsewhere. -/
theorem owes_of_others (h : ∀ i ∈ work, i ≠ .movementTrigger .enteringMain q .main ∧
    i.entryFire q = none) : Owes q work 0 [] :=
  ⟨List.count_eq_zero.mpr (fun hmem => (h _ hmem).1 rfl),
    List.filterMap_eq_nil_iff.mpr (fun i hi => (h i hi).2)⟩

theorem Owes.push_back (h : Owes q work n fires) (h' : Owes q items 0 []) :
    Owes q (work ++ items) n fires := by
  have := h.append h'
  rwa [Nat.add_zero, List.append_nil] at this

theorem Owes.push_front (h : Owes q work n fires) (h' : Owes q items 0 []) :
    Owes q (items ++ work) n fires := by
  have := h'.append h
  rwa [Nat.zero_add, List.nil_append] at this

/-- What is owed behind an item that is not owed itself. -/
theorem Owes.tail (h : Owes q (item :: work) n fires)
    (hitem : item ≠ .movementTrigger .enteringMain q .main) (hfire : item.entryFire q = none) :
    Owes q work n fires := by
  constructor
  · rw [← h.due, List.count_cons_of_ne hitem]
  · rw [← h.fires, List.filterMap_cons, hfire]

theorem Owes.pop_entry (h : Owes q (.movementTrigger .enteringMain q .main :: work) (n + 1) fires) :
    Owes q work n fires := by
  constructor
  · have hdue := h.due
    rw [List.count_cons_self] at hdue
    exact Nat.succ.inj hdue
  · exact h.fires

theorem eq_fireTrigger_of_entryFire {ability : EntityId} (h : item.entryFire q = some ability) :
    item = .fireTrigger q .main .entersMain ability := by
  unfold WorkItem.entryFire at h
  split at h
  · split at h
    · rename_i hc
      cases h
      rw [hc]
    · cases h
  · cases h

theorem owes_destructions (hit : List PlayerId) (p : Position) :
    Owes q (hit.flatMap (destructionSteps · p)) 0 [] ∧
      ∀ i ∈ hit.flatMap (destructionSteps · p), i.isEntry = false := by
  have hnone : ∀ i ∈ hit.flatMap (destructionSteps · p), i.isEntry = false := by
    intro i hi
    obtain ⟨c, -, hc⟩ := List.mem_flatMap.mp hi
    cases p <;> simp only [destructionSteps, List.mem_cons, List.not_mem_nil, or_false] at hc
    · rcases hc with rfl | rfl | rfl | rfl | rfl | rfl <;> rfl
    · rcases hc with rfl | rfl <;> rfl
  exact ⟨owes_nothing hnone, hnone⟩

/-- The four steps of an exchange owe one entry to its player. -/
theorem owes_exchange (slot : BenchSlot) :
    Owes q (exchangeSteps c slot) (if q = c then 1 else 0) [] := by
  constructor
  · by_cases hq : q = c
    · subst hq
      simp [exchangeSteps]
    · simp [exchangeSteps, hq, Ne.symm hq]
  · simp [exchangeSteps, WorkItem.entryFire]

end

section
variable {s t u : GameState} {es : List GameEvent} {q c : PlayerId} {p : Position}
  {step : MovementStep} {n : ℕ} {fires : List EntityId}

/-- The triggers of the entry step are owed, those of other movement steps are not. -/
theorem owes_movementFires :
    Owes q (movementFires s step c p) 0
        (if step = .enteringMain ∧ c = q ∧ p = .main then
          Triggers.matchingAbilities s q .main .entersMain else []) ∧
      ∀ i ∈ movementFires s step c p, i.isLight = true := by
  have hlight : ∀ i ∈ movementFires s step c p, i.isLight = true := by
    intro i hi
    obtain ⟨ability, -, rfl⟩ := List.mem_map.mp hi
    rfl
  have hcount : (movementFires s step c p).count (.movementTrigger .enteringMain q .main) = 0 := by
    rw [List.count_eq_zero]
    intro hmem
    obtain ⟨ability, -, heq⟩ := List.mem_map.mp hmem
    cases heq
  refine ⟨⟨hcount, ?_⟩, hlight⟩
  unfold movementFires
  rw [List.filterMap_map]
  split
  · rename_i h
    obtain ⟨rfl, rfl, rfl⟩ := h
    have hall : WorkItem.entryFire c ∘ (fun ability =>
        .fireTrigger c .main (Triggers.movementEvent .enteringMain) ability) = some := by
      funext ability
      exact if_pos rfl
    rw [hall, List.filterMap_some]
    rfl
  · rename_i h
    rw [List.filterMap_eq_nil_iff]
    intro ability _
    cases step <;> cases p <;> first | rfl | skip
    exact if_neg (fun hc => h ⟨rfl, hc, rfl⟩)

/-! ## Leaves -/

/-- A leaf that moves nobody queues destruction checks only. -/
theorem LeafStep.checks {source : EffectSource} {targets : List Position} {leaf : EffectLeaf}
    (h : LeafStep s source targets leaf t es) (hleaf : leaf.moves = false) :
    ∃ added, t.work = s.work ++ added ∧ ∀ i ∈ added, ∃ p, i = .destructionCheck p := by
  have hkept : ∃ added, s.work = s.work ++ added ∧ ∀ i ∈ added, ∃ p, i = .destructionCheck p :=
    ⟨[], by simp, by simp⟩
  cases h with
  | hit _ _ _ _ _ => exact ⟨[_], rfl, by simp⟩
  | moved _ _ hmove _ =>
      subst hmove
      cases hleaf
  | exchanged _ _ hswap _ =>
      obtain ⟨rfl, -⟩ | ⟨rfl, -, -⟩ := hswap
      · cases hleaf
      · cases hleaf
  | _ => exact hkept

theorem applyLeaves_checks {source : EffectSource} {targets : List Position}
    {leaves : List EffectLeaf} (h : applyLeaves s source targets leaves = (t, es))
    (hs : s.status = .playing) (hleaves : ∀ leaf ∈ leaves, leaf.moves = false) :
    ∃ added, t.work = s.work ++ added ∧ ∀ i ∈ added, ∃ p, i = .destructionCheck p := by
  refine applyLeaves_rel (R := fun s _ t => ∃ added, t.work = s.work ++ added ∧
    ∀ i ∈ added, ∃ p, i = .destructionCheck p) h hs (fun _ => ⟨[], by simp, by simp⟩)
    (fun _ h h' => ?_) (fun hmem _ h => h.checks (hleaves _ hmem))
  obtain ⟨added, ha, hadded⟩ := h
  obtain ⟨added', ha', hadded'⟩ := h'
  refine ⟨added ++ added', by rw [ha', ha, List.append_assoc], fun i hi => ?_⟩
  exact (List.mem_append.mp hi).elim (hadded i) (hadded' i)

theorem isEntry_of_check {items : List WorkItem}
    (h : ∀ i ∈ items, ∃ p, i = .destructionCheck p) : ∀ i ∈ items, i.isEntry = false := by
  intro i hi
  obtain ⟨p, rfl⟩ := h i hi
  rfl

theorem isLight_of_consequence {item : WorkItem} (h : item.isConsequence = true) :
    item.isLight = true := by
  cases item <;> first | rfl | cases h

/-- The base of the Summon in Main. -/
def PlayerState.mainBase (ps : PlayerState) : Option CardInstanceId := ps.main.map SummonInstance.base

theorem PlayerState.Stands.mainBase {ps qs : PlayerState} (h : ps.Stands qs) :
    qs.mainBase = ps.mainBase := by
  have hm : Option.Rel SameSummon ps.main qs.main := h .main
  unfold PlayerState.mainBase
  generalize ps.main = x at hm
  generalize qs.main = y at hm
  cases hm with
  | none => rfl
  | some same => exact congrArg some same.base

/-- **A leaf and one player's Main.** It exchanges that Main and queues its entry, or leaves there whom
it finds there and queues none. -/
theorem LeafStep.entry {source : EffectSource} {targets : List Position} {leaf : EffectLeaf}
    (h : LeafStep s source targets leaf t es) (q : PlayerId) :
    ((t.player q).mainBase = (s.player q).mainBase ∧
        ∀ n fires, Owes q s.work n fires → Owes q t.work n fires) ∨
      (leaf.exchanges source.controller q = true ∧
        ∀ n fires, Owes q s.work n fires → Owes q t.work (n + 1) fires) := by
  by_cases hmoves : leaf.moves = false
  · obtain ⟨added, ha, hadded⟩ := h.checks hmoves
    refine .inl ⟨(h.stands hmoves q).mainBase, fun n fires howes => ?_⟩
    rw [ha]
    exact howes.push_back (owes_nothing (isEntry_of_check hadded))
  · have hmain : ∀ {ps : PlayerState} {c : PlayerId}, (q = c → ps.mainBase = (s.player q).mainBase) →
        ((s.setPlayer c ps).player q).mainBase = (s.player q).mainBase := by
      intro ps c hps
      rw [GameState.player_setPlayer]
      split
      · rename_i hq
        exact hps hq
      · rfl
    cases h with
    | @moved fromSlot toSlot x hto hfrom hmove htargets =>
        refine .inl ⟨hmain (fun hq => by rw [hq]; rfl), fun n fires howes => ?_⟩
        exact howes.push_back (owes_nothing (by simp [WorkItem.isEntry]))
    | @exchanged c slot x y hx hy hswap htargets =>
        by_cases hq : q = c
        · subst hq
          refine .inr ⟨?_, fun n fires howes => ?_⟩
          · rcases hswap with ⟨rfl, hc⟩ | ⟨rfl, hc, -⟩ <;> exact decide_eq_true hc
          · have hsteps := owes_exchange (q := q) (c := q) slot
            rw [if_pos rfl] at hsteps
            have howed := howes.append hsteps
            rwa [List.append_nil] at howed
        · refine .inl ⟨hmain (fun heq => absurd heq hq), fun n fires howes => ?_⟩
          have hsteps := owes_exchange (q := q) (c := c) slot
          rw [if_neg hq] at hsteps
          exact howes.push_back hsteps
    | quiet _ => exact .inl ⟨rfl, fun _ _ howes => howes⟩
    | touched hx same _ _ _ =>
        exact .inl ⟨(Stands.write (stands_setAt hx same) q).mainBase, fun _ _ howes => howes⟩
    | hit hx same _ _ _ =>
        refine .inl ⟨(Stands.write (stands_setAt hx same) q).mainBase, fun n fires howes => ?_⟩
        exact howes.push_back (owes_nothing (by simp [WorkItem.isEntry]))
    | zones hz _ _ =>
        exact .inl ⟨(Stands.write (stands_of_board hz.main hz.bench) q).mainBase,
          fun _ _ howes => howes⟩
    | drewOut hz _ _ =>
        exact .inl ⟨(Stands.write (stands_of_board hz.main hz.bench) q).mainBase,
          fun _ _ howes => howes⟩
    | produced _ _ => exact .inl ⟨(Stands.write (stands_bank _ _) q).mainBase, fun _ _ howes => howes⟩
    | paused _ _ => exact .inl ⟨rfl, fun _ _ howes => howes⟩

/-! ## Work items -/

/-- Executing the front of the queue keeps its order. -/
theorem ItemStep.entriesFirst {item : WorkItem} {work : List WorkItem}
    (h : ItemStep (poppedWork s work) item t es) (hs : s.status = .playing)
    (hcards : s.cards.TriggersAdmitted) (hwork : EntriesFirst work) : EntriesFirst t.work := by
  cases h with
  | fired ha hl =>
      rw [applyLeaves_work_of_trigger hl hs (abilityAt_admitted (s := poppedWork s work) hcards ha)]
      exact hwork
  | checked _ _ _ => exact hwork.push_back (owes_destructions (q := .one) _ _).2
  | checkBroke _ _ _ => exact hwork.push_back (owes_destructions (q := .one) _ _).2
  | @discarded p c x _ _ =>
      refine hwork.push_front (fun i hi => ?_)
      have hurgent := isUrgent_candidates i hi
      cases i <;> first | rfl | cases hurgent
  | @consequences c _ =>
      have hlight : ∀ i ∈ [WorkItem.movementTrigger .leavingBench c .main,
          WorkItem.movementTrigger .enteringMain c .main], i.isLight = true := by
        simp [WorkItem.isLight]
      exact hwork.push_front hlight
  | @movement step c p =>
      obtain ⟨-, -, -, hw, -⟩ := markMainEntry_frame (poppedWork s work) step c p
      rw [GameState.pushFront_work, hw]
      exact hwork.push_front (owes_movementFires (q := .one)).2
  | _ => exact hwork

/-- An item that is neither the entry step of `q` nor the end of a destruction of `q` leaves what is
owed to `q` as it is. -/
theorem ItemStep.owes {item : WorkItem} {work : List WorkItem}
    (h : ItemStep (poppedWork s work) item t es) (hs : s.status = .playing)
    (hcards : s.cards.TriggersAdmitted) (hentry : item ≠ .movementTrigger .enteringMain q .main)
    (hend : item ≠ .resolveMovementConsequences q) (howes : Owes q work n fires) :
    Owes q t.work n fires := by
  cases h with
  | fired ha hl =>
      rw [applyLeaves_work_of_trigger hl hs (abilityAt_admitted (s := poppedWork s work) hcards ha)]
      exact howes
  | checked _ _ _ => exact howes.push_back (owes_destructions _ _).1
  | checkBroke _ _ _ => exact howes.push_back (owes_destructions _ _).1
  | @discarded p c x _ _ =>
      refine howes.push_front (owes_nothing (fun i hi => ?_))
      simp only [Triggers.candidates, List.mem_flatMap, List.mem_map] at hi
      obtain ⟨_, -, r, -, ability, -, rfl⟩ := hi
      cases r <;> rfl
  | @consequences c _ =>
      have hne : c ≠ q := fun hc => hend (by rw [hc])
      refine (howes.push_front (owes_of_others (fun i hi => ?_)) : Owes q ([_, _] ++ _) _ _)
      simp only [List.mem_cons, List.not_mem_nil, or_false] at hi
      rcases hi with rfl | rfl
      · exact ⟨by simp, rfl⟩
      · exact ⟨by simp [hne], rfl⟩
  | @movement step c p =>
      obtain ⟨-, -, -, hw, -⟩ := markMainEntry_frame (poppedWork s work) step c p
      have hfires : Owes q (movementFires (poppedWork s work) step c p) 0 _ := owes_movementFires.1
      rw [if_neg (fun h => hentry (by rw [h.1, h.2.1, h.2.2]))] at hfires
      rw [GameState.pushFront_work, hw]
      exact howes.push_front hfires
  | _ => exact howes

/-- No item but the promotion of `q` leads to the end of a destruction of `q`. -/
theorem Pops.reaches_consequences {current : Current} {item : WorkItem}
    (h : Pops current item (some (q, .consequences))) :
    item = .promoteBenchSummon q ∨ (item.isUrgent = true ∧ current = some (q, .consequences)) := by
  cases h with
  | urgent hu => exact .inr ⟨hu, rfl⟩
  | promote => exact .inl rfl

/-- Behind a promotion stands the end of its destruction. -/
theorem Follows.promotes {current : Current} {work : List WorkItem}
    (h : Follows current (.promoteBenchSummon q :: work)) :
    work.head? = some (.resolveMovementConsequences q) := by
  obtain ⟨⟨urgent, current, queue, hurgent, hqueue⟩, -, hwork⟩ := h
  simp only [Agenda.work] at hwork
  cases urgent with
  | cons u us =>
      simp only [List.cons_append, List.cons.injEq] at hwork
      have hu := hurgent u List.mem_cons_self
      rw [hwork.1] at hu
      cases hu
  | nil =>
      cases current with
      | some c =>
          obtain ⟨p, stage⟩ := c
          cases stage <;> simp only [Current.rest, Stage.rest, List.nil_append, List.cons_append,
            List.cons.injEq, reduceCtorEq, false_and, WorkItem.promoteBenchSummon.injEq] at hwork
          obtain ⟨rfl, rfl⟩ := hwork
          rfl
      | none =>
          cases queue with
          | nil => simp [Current.rest] at hwork
          | cons block queue =>
              have hblock := hqueue block List.mem_cons_self
              cases block with
              | loose i =>
                  simp only [Current.rest, List.nil_append, List.flatMap_cons, Block.items,
                    List.cons_append, List.cons.injEq] at hwork
                  have hloose : i.isLoose = true := hblock
                  rw [hwork.1] at hloose
                  cases hloose
              | chain p =>
                  simp [Current.rest, Block.items, destructionSteps] at hwork

end

end Summoners
