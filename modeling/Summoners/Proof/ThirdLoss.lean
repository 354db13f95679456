import Summoners.Proof.Roster

/-! # The third loss

Between the step that records a third Main loss and the loss check that ends the match stand the
Prize, the promotion and the movement triggers of the same destruction. Where none of them has
anything to do the drain runs straight through them; `endsAtOnce` says when that is.
-/

namespace Summoners
set_option autoImplicit false

open Destruction RunToCompletion

/-- What a third loss is not followed by. -/
def GameEvent.afterLoss : GameEvent → Bool
  | .prizeRecovered _ _ | .summonPromoted _ _ | .triggerFired _ _ _ _ => true
  | _ => false

/-- Whether a step that records a third loss finds nothing for the steps behind it: no Prize, no
Bench, and no movement trigger on what is in Main. -/
def endsAtOnce (x : Entry GameState GameAction GameEvent) : Bool :=
  match x.input, nextWork x.before with
  | none, some (.recordMainLoss p) =>
      (x.before.player p).mainLosses ≠ 2 ∨
        ((x.before.player p).prizes = [] ∧ occupiedBenchSlots (x.before.player p) = [] ∧
          movementFires x.before .leavingBench p .main = [] ∧
            movementFires x.before .enteringMain p .main = [])
  | _, _ => true

/-- What can be left of the work between the loss and its check. -/
def endings (p : PlayerId) : List (List WorkItem) :=
  [Stage.prize.rest p, Stage.promote.rest p, Stage.consequences.rest p,
    [.movementTrigger .leavingBench p .main, .movementTrigger .enteringMain p .main, .lossCheck p],
    [.movementTrigger .enteringMain p .main, .lossCheck p], Stage.verdict.rest p]

/-- A match that has recorded a third loss of `p` and is about to end. -/
structure Closing (p : PlayerId) (s : GameState) : Prop where
  pending : s.pending = none
  window : s.turn.window = none
  low : s.stack.length ≤ Stack.segmentBase s
  losses : (s.player p).mainLosses = 3
  other : (s.player p.opponent).mainLosses ≤ 2
  prizes : (s.player p).prizes = []
  bench : occupiedBenchSlots (s.player p) = []
  leaving : movementFires s .leavingBench p .main = []
  entering : movementFires s .enteringMain p .main = []
  work : ∃ ending ∈ endings p, ∃ tail, s.work = ending ++ tail

section
variable {s t : GameState} {es : List GameEvent} {p : PlayerId} {current : Current}

theorem movementFires_congr {c : PlayerId} {r : Position}
    (h : Triggers.cardAt t c r = Triggers.cardAt s c r) (step : MovementStep) :
    movementFires t step c r = movementFires s step c r := by
  unfold movementFires Triggers.matchingAbilities
  rw [h]

/-- Behind the recording of a loss stands the rest of its destruction. -/
theorem Follows.recording {work : List WorkItem}
    (h : Follows current (.recordMainLoss p :: work)) :
    ∃ tail, work = Stage.prize.rest p ++ tail := by
  obtain ⟨⟨urgent, current, queue, hurgent, hqueue⟩, rfl, hwork⟩ := h
  simp only [Agenda.work] at hwork
  cases urgent with
  | cons u us =>
      simp only [List.cons_append, List.cons.injEq] at hwork
      have hu := hurgent u List.mem_cons_self
      rw [hwork.1] at hu
      cases hu
  | nil =>
      cases current with
      | some c =>
          obtain ⟨q, stage⟩ := c
          cases stage <;>
            simp only [Current.rest, Stage.rest, List.nil_append, List.cons_append, List.cons.injEq,
              reduceCtorEq, false_and, WorkItem.recordMainLoss.injEq] at hwork
          obtain ⟨rfl, rfl⟩ := hwork
          exact ⟨_, rfl⟩
      | none =>
          cases queue with
          | nil => simp [Current.rest] at hwork
          | cons block queue =>
              cases block with
              | loose i =>
                  simp only [Current.rest, List.nil_append, List.flatMap_cons, Block.items,
                    List.cons_append, List.cons.injEq] at hwork
                  have hi := hqueue (.loose i) List.mem_cons_self
                  rw [hwork.1] at hi
                  cases hi
              | chain q =>
                  simp [Current.rest, Block.items, destructionSteps] at hwork

/-! ## The steps between the loss and its check -/

/-- A step that leaves the player and the Stack alone, and an ending behind it. -/
theorem Closing.next (h : Closing p s) (ending tail : List WorkItem) (hmem : ending ∈ endings p) :
    Closing p (poppedWork s (ending ++ tail)) :=
  ⟨h.pending, h.window, h.low, h.losses, h.other, h.prizes, h.bench, h.leaving, h.entering,
    ending, hmem, tail, rfl⟩

theorem Closing.marked (h : Closing p s) (step : MovementStep) :
    Closing p (Triggers.markMainEntry s step p .main) := by
  obtain ⟨hturn, hstack, hbases, hwork, hpending, -, -⟩ := markMainEntry_frame s step p .main
  have hplayer : ∀ q, ((Triggers.markMainEntry s step p .main).player q).mainLosses =
      (s.player q).mainLosses ∧ ((Triggers.markMainEntry s step p .main).player q).prizes =
        (s.player q).prizes ∧ ((Triggers.markMainEntry s step p .main).player q).bench =
          (s.player q).bench := by
    intro q
    unfold Triggers.markMainEntry
    split
    · rw [GameState.player_setPlayer]
      split
      · rename_i hq
        rw [hq]
        exact ⟨rfl, rfl, rfl⟩
      · exact ⟨rfl, rfl, rfl⟩
    · exact ⟨rfl, rfl, rfl⟩
  have hcard := cardAt_markMainEntry s step p p .main .main
  refine ⟨hpending.trans h.pending, by rw [hturn, h.window], ?_, (hplayer p).1.trans h.losses,
    by rw [(hplayer p.opponent).1]; exact h.other, (hplayer p).2.1.trans h.prizes, ?_, (movementFires_congr hcard _).trans h.leaving,
    (movementFires_congr hcard _).trans h.entering, by rw [hwork]; exact h.work⟩
  · have hlow := h.low
    unfold Stack.segmentBase at hlow ⊢
    rwa [hstack, hbases]
  · have hbench := h.bench
    unfold occupiedBenchSlots at hbench ⊢
    rwa [(hplayer p).2.2]

/-- A movement step that fires nothing. -/
theorem Closing.moved (h : Closing p s) (step : MovementStep)
    (hfires : movementFires s step p .main = []) :
    Closing p ((Triggers.markMainEntry s step p .main).pushFront
      (movementFires s step p .main)) := by
  rw [hfires]
  exact h.marked step

/-- **No pause.** A match about to end takes a silent step closer to its end, or ends. -/
theorem Closing.drainStep (h : Closing p s) (hn : Resolution.drainStep s = some (t, es)) :
    (es = [] ∧ t.status = s.status ∧ Closing p t) ∨
      (es = [.gameEnded p.opponent .thirdMainLoss] ∧
        t.status = .ended ⟨p.opponent, .thirdMainLoss⟩ ∧ t.pending = none ∧
          (t.player p).mainLosses = 3 ∧ (t.player p.opponent).mainLosses ≤ 2) := by
  obtain ⟨-, ⟨item, u, es', hst, rfl⟩ | ⟨-, item, work, hwork, hi⟩⟩ := drainStep_cases hn
  · have habove := hst.above
    have hlow := h.low
    omega
  · obtain ⟨ending, hmem, tail, hending⟩ := h.work
    rw [hending] at hwork
    have hstatus : ∀ step work, (Triggers.markMainEntry (poppedWork s work) step p .main).status =
        s.status := fun step work =>
      (markMainEntry_frame (poppedWork s work) step p .main).2.2.2.2.2.1
    simp only [endings, List.mem_cons, List.not_mem_nil, or_false] at hmem
    rcases hmem with rfl | rfl | rfl | rfl | rfl | rfl <;>
      simp only [Stage.rest, List.cons_append, List.cons.injEq] at hwork <;>
      obtain ⟨rfl, rfl⟩ := hwork
    · cases hi with
      | prizeless _ => exact .inl ⟨rfl, rfl, h.next (Stage.promote.rest p) tail (by simp [endings])⟩
      | prizeDue hp => exact absurd h.prizes hp
    · cases hi with
      | promoteNone _ =>
          exact .inl ⟨rfl, rfl, h.next (Stage.consequences.rest p) tail (by simp [endings])⟩
      | promoted hb _ =>
          rw [poppedWork_player, h.bench] at hb
          cases hb
      | promotionDue hb =>
          rw [poppedWork_player, h.bench] at hb
          cases hb
    · cases hi with
      | consequences _ =>
          exact .inl ⟨rfl, rfl, h.next [.movementTrigger .leavingBench p .main,
            .movementTrigger .enteringMain p .main, .lossCheck p] tail (by simp [endings])⟩
      | noConsequences _ =>
          exact .inl ⟨rfl, rfl, h.next (Stage.verdict.rest p) tail (by simp [endings])⟩
    · cases hi with
      | movement =>
          have hnext := h.next [.movementTrigger .enteringMain p .main, .lossCheck p] tail
            (by simp [endings])
          exact .inl ⟨rfl, hstatus .leavingBench _, hnext.moved .leavingBench h.leaving⟩
    · cases hi with
      | movement =>
          have hnext := h.next (Stage.verdict.rest p) tail (by simp [endings])
          exact .inl ⟨rfl, hstatus .enteringMain _, hnext.moved .enteringMain h.entering⟩
    · have hthree : 3 ≤ (s.player p).mainLosses := by
        rw [h.losses]
        decide
      cases hi with
      | lost hl =>
          rcases hl with ⟨-, rfl⟩ | ⟨hlow, -⟩
          · exact .inr ⟨rfl, rfl, h.pending, h.losses, h.other⟩
          · exact absurd hthree hlow
      | spared hl _ => exact absurd hthree hl

/-- Only the recording of a loss moves the counter. -/
theorem ItemStep.mainLosses {item : WorkItem} (h : ItemStep s item t es) (hs : s.status = .playing)
    (hitem : ∀ c, item ≠ .recordMainLoss c) (q : PlayerId) :
    (t.player q).mainLosses = (s.player q).mainLosses := by
  cases h with
  | readied => exact ((map_frame _ _).write q).mainLosses
  | @drew card deck _ =>
      have hdrawn : PlayerFrame (s.player s.turn.activePlayer)
          { s.player s.turn.activePlayer with
            deck := deck, hand := (s.player s.turn.activePlayer).hand ++ [card] } :=
        zones_frame rfl rfl rfl rfl
      exact (hdrawn.write q).mainLosses
  | produced _ => exact ((bank_frame _ _).write q).mainLosses
  | lossRecorded => exact absurd rfl (hitem _)
  | promoted _ _ =>
      rw [GameState.player_setPlayer]
      split
      · rename_i hq
        rw [hq]
      · rfl
  | @discarded r c x _ _ =>
      have hplayer : (Triggers.discoverFront (discardSummon s c r x) (orderedPlayers s)
        .anySummonDestroyed).player q = (discardSummon s c r x).player q := rfl
      rw [hplayer, discardSummon_player]
      split <;> simp
  | @movement step c r => exact (markMainEntry_player s step c r q).mainLosses
  | fired _ hl => exact (applyLeaves_frame hl hs).mainLosses q
  | _ => rfl

theorem Answer.losses {r r' : Roster} (h : Answer r current r' es) : r'.losses = r.losses := by
  cases h with
  | aside hf _ => exact hf.losses
  | _ => rfl

theorem ActionStep.mainLosses {a : GameAction} (h : ActionStep s a t es) (hs : s.status = .playing)
    (q : PlayerId) : (t.player q).mainLosses = (s.player q).mainLosses := by
  have hanswer : Answer s.roster none t.roster es := h.answer hs (fun _ => rfl)
  exact congrFun hanswer.losses q

/-- An iteration leaves the counters alone, or records a loss. -/
theorem drainStep_mainLosses (h : Resolution.drainStep s = some (t, es)) :
    (∀ q, (t.player q).mainLosses = (s.player q).mainLosses) ∨
      ∃ c work, nextWork s = some (.recordMainLoss c) ∧ s.work = .recordMainLoss c :: work ∧
        s.stack.length ≤ Stack.segmentBase s ∧ es = [] ∧
        t = (poppedWork s work).setPlayer c
          { s.player c with mainLosses := (s.player c).mainLosses + 1 } := by
  obtain ⟨hd, ⟨item, u, es', hst, rfl⟩ | ⟨hlow, item, work, hwork, hi⟩⟩ := drainStep_cases h
  · refine .inl (fun q => ?_)
    rw [hst.result, closeSegment_player]
    have hleaves := (applyLeaves_frame hst.leaves hd.playing).mainLosses q
    rcases placeItem_player u item q with hq | ⟨_, _, _, _, _, hq | hq⟩ <;> rw [hq] <;>
      exact hleaves
  · by_cases hrecord : ∃ c, item = .recordMainLoss c
    · obtain ⟨c, rfl⟩ := hrecord
      cases hi with
      | lossRecorded =>
          exact .inr ⟨c, work, nextWork_of_low hlow hwork, hwork, hlow, rfl, rfl⟩
    · rw [not_exists] at hrecord
      exact .inl (fun q => hi.mainLosses hd.playing hrecord q)

/-! ## Runs -/

/-- At most two losses each, or a third one whose match is about to end or has ended by it. -/
def Judged (s : GameState) : Prop :=
  (∀ q, (s.player q).mainLosses ≤ 2) ∨
    ∃ p, (s.player p).mainLosses = 3 ∧ (s.player p.opponent).mainLosses ≤ 2 ∧
      (s.status = .playing ∧ Closing p s ∨
        s.status = .ended ⟨p.opponent, .thirdMainLoss⟩ ∧ s.pending = none)

/-- Whether a step records a third loss, or comes after one. -/
def FromThirdLoss (x : Entry GameState GameAction GameEvent) : Prop :=
  ∃ p, (x.before.player p).mainLosses = 3 ∨
    (x.input = none ∧ nextWork x.before = some (.recordMainLoss p) ∧
      (x.before.player p).mainLosses = 2)

/-- From the third loss on, the drain goes on with nobody asked and reports none of the steps
between. -/
def Immediate (x : Entry GameState GameAction GameEvent) : Prop :=
  (∀ p, (x.before.player p).mainLosses ≤ 3) ∧
    (FromThirdLoss x → x.input = none ∧ x.before.pending = none ∧
      ∀ e ∈ x.emitted, e.afterLoss = false)

theorem le_three_of_le_two {n : UInt8} (h : n ≤ 2) : n ≤ 3 := by
  rw [UInt8.le_iff_toNat_le] at h ⊢
  exact h.trans (by decide)

theorem Judged.le_three (h : Judged s) (q : PlayerId) : (s.player q).mainLosses ≤ 3 := by
  rcases h with h | ⟨p, hp, hother, -⟩
  · exact le_three_of_le_two (h q)
  · rcases PlayerId.eq_or_eq_opponent p q with rfl | rfl
    · exact UInt8.le_of_eq hp
    · exact le_three_of_le_two hother

theorem add_one_le_two {n : UInt8} (h : n ≤ 2) (hne : n ≠ 2) : n + 1 ≤ 2 := by
  have hlt : n.toNat ≠ 2 := fun he => hne (UInt8.toNat_inj.mp he)
  rw [UInt8.le_iff_toNat_le] at h ⊢
  have hle : n.toNat ≤ 2 := h
  rw [UInt8.toNat_add, UInt8.toNat_one, Nat.mod_eq_of_lt (by omega)]
  show n.toNat + 1 ≤ 2
  omega

/-- An iteration of the drain in a match that has no third loss yet. -/
theorem Judged.record (h : ∀ q, (s.player q).mainLosses ≤ 2) (hf : Follows current s.work)
    (hn : Resolution.drainStep s = some (t, es)) (hG : endsAtOnce ⟨s, none, es⟩ = true) :
    Judged t := by
  have hd := (drainStep_cases hn).1
  rcases drainStep_mainLosses hn with hsame | ⟨c, work, hnw, hwork, hlow, rfl, rfl⟩
  · exact .inl (fun q => by rw [hsame q]; exact h q)
  · by_cases hsecond : (s.player c).mainLosses = 2
    · obtain ⟨tail, rfl⟩ : ∃ tail, work = Stage.prize.rest c ++ tail := by
        rw [hwork] at hf
        exact hf.recording
      have hclean : (s.player c).prizes = [] ∧ occupiedBenchSlots (s.player c) = [] ∧
          movementFires s .leavingBench c .main = [] ∧
            movementFires s .enteringMain c .main = [] := by
        simpa [endsAtOnce, hnw, hsecond] using hG
      obtain ⟨hprizes, hbench, hleaving, hentering⟩ := hclean
      have hother : (((poppedWork s (Stage.prize.rest c ++ tail)).setPlayer c
          { s.player c with mainLosses := (s.player c).mainLosses + 1 }).player
            c.opponent).mainLosses ≤ 2 := by
        rw [GameState.player_setPlayer_opponent]
        exact h c.opponent
      have hthree : (((poppedWork s (Stage.prize.rest c ++ tail)).setPlayer c
          { s.player c with mainLosses := (s.player c).mainLosses + 1 }).player c).mainLosses =
            3 := by
        rw [GameState.player_setPlayer_self]
        show (s.player c).mainLosses + 1 = 3
        rw [hsecond]
        rfl
      have hcard : Triggers.cardAt ((poppedWork s (Stage.prize.rest c ++ tail)).setPlayer c
          { s.player c with mainLosses := (s.player c).mainLosses + 1 }) c .main =
            Triggers.cardAt s c .main := by
        unfold Triggers.cardAt
        rw [GameState.player_setPlayer_self]
        rfl
      refine .inr ⟨c, hthree, hother, .inl ⟨hd.playing, ?_⟩⟩
      refine ⟨hd.pending, hd.window, hlow, hthree, hother, ?_, ?_,
        (movementFires_congr hcard _).trans hleaving, (movementFires_congr hcard _).trans hentering,
        Stage.prize.rest c, by simp [endings], tail, rfl⟩
      · rw [GameState.player_setPlayer_self]
        exact hprizes
      · rw [GameState.player_setPlayer_self]
        exact hbench
    · refine .inl (fun q => ?_)
      rw [GameState.player_setPlayer]
      split
      · exact add_one_le_two (h c) hsecond
      · exact h q

/-- Nothing is reported from the third loss on. -/
theorem Judged.silent (h : Judged s) (hn : Resolution.drainStep s = some (t, es))
    (hfrom : FromThirdLoss ⟨s, none, es⟩) : ∀ e ∈ es, e.afterLoss = false := by
  have hd := (drainStep_cases hn).1
  have hsilent : ∀ p, Closing p s → ∀ e ∈ es, e.afterLoss = false := by
    intro p hclosing
    rcases hclosing.drainStep hn with ⟨rfl, -⟩ | ⟨rfl, -⟩
    · simp
    · simp [GameEvent.afterLoss]
  rcases h with h | ⟨p, -, -, ⟨-, hclosing⟩ | ⟨hended, -⟩⟩
  · obtain ⟨p, hthree | ⟨-, hnw, -⟩⟩ := hfrom
    · have hthree : (s.player p).mainLosses = 3 := hthree
      have hle := h p
      rw [hthree] at hle
      exact absurd hle (by decide)
    · obtain ⟨work, -, hi⟩ := drainStep_of_nextWork hn hnw
      cases hi with
      | lossRecorded => simp
  · exact hsilent p hclosing
  · rw [hd.playing] at hended
    cases hended

theorem Judged.drainStep (h : Judged s) (hf : Follows current s.work)
    (hn : Resolution.drainStep s = some (t, es)) (hG : endsAtOnce ⟨s, none, es⟩ = true) :
    Judged t ∧ Immediate ⟨s, none, es⟩ := by
  have hd := (drainStep_cases hn).1
  refine ⟨?_, h.le_three, fun hfrom => ⟨rfl, hd.pending, h.silent hn hfrom⟩⟩
  rcases h with h | ⟨p, -, -, ⟨-, hclosing⟩ | ⟨hended, -⟩⟩
  · exact .record h hf hn hG
  · rcases hclosing.drainStep hn with ⟨-, hstatus, ht⟩ | ⟨-, hended, hpending, hthree, hother⟩
    · exact .inr ⟨p, ht.losses, ht.other, .inl ⟨hstatus.trans hd.playing, ht⟩⟩
    · exact .inr ⟨p, hthree, hother, .inr ⟨hended, hpending⟩⟩
  · rw [hd.playing] at hended
    cases hended

end

end Summoners
