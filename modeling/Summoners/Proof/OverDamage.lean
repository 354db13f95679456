import Summoners.Proof.Rest
import Summoners.Steps.Boards

/-! # No destroyed Summon stays in play

Damage is checked later than it is dealt, and by position. What keeps an over-damaged Summon from
staying is that work holds, for its position, either a check or at least as many discards as there
are over-damaged Summons there. Every step keeps that but one that puts an over-damaged Summon where
nothing of the kind is queued; `placesSafely` says that a step does not.
-/

namespace Summoners
set_option autoImplicit false

open Destruction Effects RunToCompletion

/-- Whether a Summon's damage has reached the printed Life of its topmost card. -/
def overDamaged (cards : CardSet) (x : SummonInstance) : Bool :=
  match lifeOf cards x with
  | .ok life => life ≤ x.damage
  | .error _ => false

/-- Whether a player has an over-damaged Summon at a position. -/
def doomed (s : GameState) (q : PlayerId) (p : Position) : Bool :=
  ((s.player q).summonAt p).any (overDamaged s.cards)

def doomedAt (s : GameState) (p : Position) : ℕ :=
  (doomed s .one p).toNat + (doomed s .two p).toNat

/-- Work will deal with whatever is over-damaged at a position. -/
def Covered (s : GameState) (p : Position) : Prop :=
  .destructionCheck p ∈ s.work ∨ doomedAt s p ≤ s.work.count (.discardDestroyedChain p)

/-- Work will deal with one over-damaged Summon more at a position of `q`. -/
def Spare (s : GameState) (q : PlayerId) (p : Position) : Prop :=
  .destructionCheck p ∈ s.work ∨
    (doomed s q.opponent p).toNat + 1 ≤ s.work.count (.discardDestroyedChain p)

instance (s : GameState) (q : PlayerId) (p : Position) : Decidable (Spare s q p) :=
  inferInstanceAs (Decidable (_ ∨ _))

/-- Whether a Summon may be put at a position of `q`. -/
def settles (s : GameState) (q : PlayerId) (p : Position) (x : SummonInstance) : Bool :=
  !overDamaged s.cards x || decide (Spare s q p)

section
variable {s t u : GameState} {es : List GameEvent}

theorem doomed_iff {q : PlayerId} {p : Position} :
    doomed s q p = true ↔
      ∃ x, (s.player q).summonAt p = some x ∧ overDamaged s.cards x = true := by
  unfold doomed
  rw [Option.any_eq_true]

theorem doomedAt_eq (s : GameState) (q : PlayerId) (p : Position) :
    doomedAt s p = (doomed s q p).toNat + (doomed s q.opponent p).toNat := by
  cases q
  · rfl
  · exact Nat.add_comm _ _

/-- The engine's own check finds exactly the over-damaged Summons. -/
theorem isDestroyed_eq_doomed {q : PlayerId} {p : Position} {b : Bool}
    (h : isDestroyed s q p = .ok b) : doomed s q p = b := by
  unfold isDestroyed at h
  unfold doomed
  cases hx : (s.player q).summonAt p with
  | none =>
      rw [hx] at h
      cases h
      rfl
  | some x =>
      simp only [hx] at h
      simp only [Option.any_some, overDamaged]
      cases hl : lifeOf s.cards x with
      | error b => rw [hl] at h; cases h
      | ok life =>
          rw [hl] at h
          cases h
          rfl

/-- **The step lemma.** Where a step keeps work, and only `c` gets over-damaged Summons at positions
that can take one more, everything stays covered. -/
theorem covered_of {c : PlayerId} (h : ∀ p, Covered s p)
    (hwork : ∃ front back, t.work = front ++ s.work ++ back)
    (hboard : ∀ q p, doomed t q p = true → doomed s q p = true ∨ (q = c ∧ Spare s c p)) :
    ∀ p, Covered t p := by
  intro p
  obtain ⟨front, back, hwork⟩ := hwork
  have hcheck : .destructionCheck p ∈ s.work → .destructionCheck p ∈ t.work := by
    intro hm
    rw [hwork]
    exact List.mem_append_left _ (List.mem_append_right _ hm)
  have hcount : s.work.count (.discardDestroyedChain p) ≤
      t.work.count (.discardDestroyedChain p) := by
    rw [hwork, List.count_append, List.count_append]
    omega
  have hle : ∀ q, (doomed t q p = true → doomed s q p = true) →
      (doomed t q p).toNat ≤ (doomed s q p).toNat := by
    intro q hq
    cases hd : doomed t q p with
    | false => exact Nat.zero_le _
    | true => rw [hq hd]
  have hother : (doomed t c.opponent p).toNat ≤ (doomed s c.opponent p).toNat :=
    hle _ (fun hd => (hboard _ p hd).resolve_right (fun hc => PlayerId.opponent_ne c hc.1))
  by_cases hspare : doomed t c p = true ∧ Spare s c p
  · rcases hspare.2 with hm | hroom
    · exact .inl (hcheck hm)
    · right
      have hone : (doomed t c p).toNat ≤ 1 := Bool.toNat_le _
      rw [doomedAt_eq t c]
      omega
  · have hown : (doomed t c p).toNat ≤ (doomed s c p).toNat := by
      refine hle _ (fun hd => (hboard c p hd).resolve_right (fun hc => hspare ⟨hd, hc.2⟩))
    refine (h p).imp hcheck (fun hroom => ?_)
    rw [doomedAt_eq s c] at hroom
    rw [doomedAt_eq t c]
    omega

/-! ## Boards on which nothing gets worse -/

theorem overDamaged_mono {cards : CardSet} {x y : SummonInstance} (hchain : y.chain = x.chain)
    (hdamage : y.damage ≤ x.damage) (h : overDamaged cards y = true) :
    overDamaged cards x = true := by
  have hlife : lifeOf cards y = lifeOf cards x := by
    unfold lifeOf
    rw [hchain]
  unfold overDamaged at h ⊢
  rw [hlife] at h
  split at h
  · simp only [decide_eq_true_eq] at h ⊢
    exact UInt32.le_trans h hdamage
  · cases h

/-- Every Summon stands where it stood, and is no more damaged. -/
def PlayerState.Eases (ps qs : PlayerState) : Prop :=
  ∀ p y, qs.summonAt p = some y →
    ∃ x, ps.summonAt p = some x ∧ y.chain = x.chain ∧ y.damage ≤ x.damage

theorem PlayerState.Eases.refl (ps : PlayerState) : ps.Eases ps :=
  fun _ y hy => ⟨y, hy, rfl, UInt32.le_refl _⟩

theorem eases_of_board {ps qs : PlayerState} (hmain : qs.main = ps.main)
    (hbench : qs.bench = ps.bench) : ps.Eases qs := by
  intro p y hy
  refine ⟨y, ?_, rfl, UInt32.le_refl _⟩
  cases p with
  | main => rwa [PlayerState.summonAt_main, hmain] at hy
  | bench slot => rwa [PlayerState.summonAt_bench, hbench] at hy

theorem eases_setAt {ps : PlayerState} {p : Position} {v : Option SummonInstance}
    (h : ∀ y, v = some y → ∃ x, ps.summonAt p = some x ∧ y.chain = x.chain ∧ y.damage ≤ x.damage) :
    ps.Eases (ps.setAt p v) := by
  intro q y hy
  by_cases hq : q = p
  · subst hq
    rw [PlayerState.summonAt_setAt_self] at hy
    exact h y hy
  · rw [PlayerState.summonAt_setAt_of_ne _ _ _ hq] at hy
    exact ⟨y, hy, rfl, UInt32.le_refl _⟩

theorem eases_map {ps : PlayerState} {f : SummonInstance → SummonInstance}
    (hf : ∀ x, (f x).chain = x.chain ∧ (f x).damage = x.damage) :
    ps.Eases { ps with main := ps.main.map f, bench := ps.bench.mapSummons f } := by
  intro p y hy
  have hmap : (ps.summonAt p).map f = some y := by
    cases p with
    | main => exact hy
    | bench slot => rwa [PlayerState.summonAt_bench, Bench.get_mapSummons] at hy
  obtain ⟨x, hx, rfl⟩ := Option.map_eq_some_iff.mp hmap
  exact ⟨x, hx, (hf x).1, UInt32.le_of_eq (hf x).2⟩

theorem eases_bank (ps : PlayerState) (m : ManaType) : ps.Eases (Upkeep.bank ps m) := by
  cases m <;> exact eases_of_board rfl rfl

theorem PlayerState.Eases.trans {ps qs rs : PlayerState} (h : ps.Eases qs) (h' : qs.Eases rs) :
    ps.Eases rs := by
  intro p z hz
  obtain ⟨y, hy, hc, hd⟩ := h' p z hz
  obtain ⟨x, hx, hc', hd'⟩ := h p y hy
  exact ⟨x, hx, hc.trans hc', UInt32.le_trans hd hd'⟩

theorem PlayerState.Eases.write {c : PlayerId} {ps : PlayerState} (h : (s.player c).Eases ps)
    (q : PlayerId) : (s.player q).Eases ((s.setPlayer c ps).player q) := by
  rw [GameState.player_setPlayer]
  split
  · rename_i hq
    rw [hq]
    exact h
  · exact .refl _

theorem doomed_of_eases {q : PlayerId} {p : Position} (hcards : t.cards = s.cards)
    (h : (s.player q).Eases (t.player q)) (hd : doomed t q p = true) : doomed s q p = true := by
  obtain ⟨y, hy, hover⟩ := doomed_iff.mp hd
  obtain ⟨x, hx, hchain, hdamage⟩ := h p y hy
  rw [hcards] at hover
  exact doomed_iff.mpr ⟨x, hx, overDamaged_mono hchain hdamage hover⟩

theorem covered_of_eases (h : ∀ p, Covered s p) (hcards : t.cards = s.cards)
    (hwork : ∃ front back, t.work = front ++ s.work ++ back)
    (hboard : ∀ q, (s.player q).Eases (t.player q)) : ∀ p, Covered t p :=
  covered_of (c := .one) h hwork (fun q _ hd => .inl (doomed_of_eases hcards (hboard q) hd))

/-- One position filled by a Summon that may be put there, the others eased. -/
theorem covered_of_place {c : PlayerId} (h : ∀ p, Covered s p) (hcards : t.cards = s.cards)
    (hwork : ∃ front back, t.work = front ++ s.work ++ back)
    (hother : t.player c.opponent = s.player c.opponent)
    (hplace : ∀ p y, (t.player c).summonAt p = some y →
      (∃ x, (s.player c).summonAt p = some x ∧ y.chain = x.chain ∧ y.damage ≤ x.damage) ∨
        settles s c p y = true) : ∀ p, Covered t p := by
  refine covered_of (c := c) h hwork (fun q r hd => ?_)
  rcases PlayerId.eq_or_eq_opponent c q with rfl | rfl
  · obtain ⟨y, hy, hover⟩ := doomed_iff.mp hd
    rw [hcards] at hover
    rcases hplace r y hy with ⟨x, hx, hchain, hdamage⟩ | hsettles
    · exact .inl (doomed_iff.mpr ⟨x, hx, overDamaged_mono hchain hdamage hover⟩)
    · refine .inr ⟨rfl, ?_⟩
      simpa [settles, hover] using hsettles
  · refine .inl (doomed_of_eases hcards ?_ hd)
    rw [hother]
    exact .refl _

/-! ## Leaves -/

/-- Whether an exchange of `c`'s Main with a Bench slot may put both Summons where it puts them. -/
def exchangeSettles (s : GameState) (c : PlayerId) (slot : BenchSlot) : Bool :=
  match (s.player c).main, (s.player c).bench.get slot with
  | some x, some y => settles s c (.bench slot) x && settles s c .main y
  | _, _ => true

/-- Whether a movement leaf moves only Summons that may be put where it puts them. -/
def leafSettles (s : GameState) (source : EffectSource) (targets : List Position) :
    EffectLeaf → Bool
  | .moveSummon =>
      match targets with
      | .bench fromSlot :: .bench toSlot :: _ =>
          ((s.player source.controller).bench.get toSlot).isSome ||
            ((s.player source.controller).bench.get fromSlot).all
              (settles s source.controller (.bench toSlot))
      | _ => true
  | .swapPositions =>
      match targets with
      | .bench slot :: _ => exchangeSettles s source.controller slot
      | _ => true
  | .swapOpposingPositions =>
      match targets with
      | .bench slot :: _ =>
          (s.player source.controller.opponent).main.any
              (fun x => x.durationMarkers.contains .cannotBeMovedByOpponent) ||
            exchangeSettles s source.controller.opponent slot
      | _ => true
  | _ => true

/-- The same for every leaf of an ability, each in the state it runs in. -/
def leavesSettle (source : EffectSource) (targets : List Position) :
    List EffectLeaf → GameState → Bool
  | [], _ => true
  | leaf :: leaves, s =>
      leafSettles s source targets leaf &&
        (!(applyLeaf s source targets leaf).1.status.isPlaying ||
          leavesSettle source targets leaves (applyLeaf s source targets leaf).1)

theorem covered_exchange {c : PlayerId} {slot : BenchSlot} {x y : SummonInstance}
    (h : ∀ p, Covered s p) (hmain : (s.player c).main = some x)
    (hbench : (s.player c).bench.get slot = some y) (hsettles : exchangeSettles s c slot = true)
    (hcards : t.cards = s.cards) (hwork : ∃ front back, t.work = front ++ s.work ++ back)
    (hother : t.player c.opponent = s.player c.opponent)
    (ht : (t.player c).main = some y ∧
      (t.player c).bench = (s.player c).bench.set slot (some x)) : ∀ p, Covered t p := by
  obtain ⟨hmain', hbench'⟩ := ht
  have hboth : settles s c (.bench slot) x = true ∧ settles s c .main y = true := by
    simpa [exchangeSettles, hmain, hbench] using hsettles
  refine covered_of_place h hcards hwork hother (fun r z hz => ?_)
  cases r with
  | main =>
      rw [PlayerState.summonAt_main, hmain'] at hz
      cases hz
      exact .inr hboth.2
  | bench r =>
      rw [PlayerState.summonAt_bench, hbench'] at hz
      by_cases hr : r = slot
      · subst hr
        rw [Bench.get_set_self] at hz
        cases hz
        exact .inr hboth.1
      · rw [Bench.get_set_of_ne _ hr] at hz
        exact .inl ⟨z, hz, rfl, UInt32.le_refl _⟩

theorem LeafStep.covered {source : EffectSource} {targets : List Position} {leaf : EffectLeaf}
    (h : LeafStep s source targets leaf t es) (hc : ∀ p, Covered s p)
    (hsettles : leafSettles s source targets leaf = true) : ∀ p, Covered t p := by
  have kept : ∃ front back, s.work = front ++ s.work ++ back := ⟨[], [], by simp⟩
  cases h with
  | quiet _ => exact hc
  | @touched r x y _ hx same hd _ =>
      refine covered_of_eases hc rfl kept (PlayerState.Eases.write (eases_setAt ?_))
      rintro z ⟨⟩
      exact ⟨x, hx, same.chain, hd⟩
  | @hit r x y _ hx same _ _ =>
      intro p
      by_cases hpr : p = r
      · subst hpr
        exact .inl (by simp)
      · have hdoomed : ∀ q, doomed ((s.setPlayer source.controller.opponent
            ((s.player source.controller.opponent).setAt r (some y))).pushBack
              [.destructionCheck r]) q p = doomed s q p := by
          intro q
          unfold doomed
          rw [GameState.pushBack_player, GameState.player_setPlayer]
          split
          · rename_i hq
            rw [hq, PlayerState.summonAt_setAt_of_ne _ _ _ hpr]
            rfl
          · rfl
        have hcount : ((s.setPlayer source.controller.opponent
            ((s.player source.controller.opponent).setAt r (some y))).pushBack
              [.destructionCheck r]).work.count (.discardDestroyedChain p) =
                s.work.count (.discardDestroyedChain p) := by
          simp
        refine (hc p).imp (fun hm => by simp [hm]) (fun hroom => ?_)
        unfold doomedAt at hroom ⊢
        rwa [hdoomed, hdoomed, hcount]
  | zones hz _ =>
      exact covered_of_eases hc rfl kept
        (PlayerState.Eases.write (eases_of_board hz.main hz.bench))
  | drewOut hz _ =>
      exact covered_of_eases hc rfl kept
        (PlayerState.Eases.write (eases_of_board hz.main hz.bench))
  | @moved fromSlot toSlot x hto hfrom hleaf htargets =>
      obtain ⟨rest, rfl⟩ := htargets
      subst hleaf
      have hx : settles s source.controller (.bench toSlot) x = true := by
        simpa [leafSettles, hto, hfrom] using hsettles
      refine covered_of_place (c := source.controller) hc rfl ⟨[], _, rfl⟩ (by simp) ?_
      intro r z hz
      rw [GameState.pushBack_player, GameState.player_setPlayer_self] at hz
      cases r with
      | main => exact .inl ⟨z, hz, rfl, UInt32.le_refl _⟩
      | bench r =>
          rw [PlayerState.summonAt_bench] at hz
          by_cases hr : r = toSlot
          · subst hr
            rw [Bench.get_set_self] at hz
            cases hz
            exact .inr hx
          · rw [Bench.get_set_of_ne _ hr] at hz
            by_cases hr' : r = fromSlot
            · subst hr'
              rw [Bench.get_set_self] at hz
              cases hz
            · rw [Bench.get_set_of_ne _ hr'] at hz
              exact .inl ⟨z, hz, rfl, UInt32.le_refl _⟩
  | @exchanged c slot x y hmain hbench hleaf htargets =>
      obtain ⟨rest, rfl⟩ := htargets
      have hboth : exchangeSettles s c slot = true := by
        rcases hleaf with ⟨rfl, rfl⟩ | ⟨rfl, rfl, hfree⟩
        · exact hsettles
        · simp only [leafSettles, hmain, Option.any_some, hfree, Bool.false_or] at hsettles
          exact hsettles
      exact covered_exchange hc hmain hbench hboth rfl ⟨[], _, rfl⟩ (by simp [swapBoard])
        (by simp [swapBoard, exchange])
  | produced _ _ =>
      exact covered_of_eases hc rfl kept (PlayerState.Eases.write (eases_bank _ _))
  | paused _ _ => exact hc

theorem applyLeaves_covered {source : EffectSource} {targets : List Position}
    {leaves : List EffectLeaf} (h : applyLeaves s source targets leaves = (t, es))
    (hc : ∀ p, Covered s p) (hsettles : leavesSettle source targets leaves s = true) :
    ∀ p, Covered t p := by
  induction leaves generalizing s t es with
  | nil => cases h; exact hc
  | cons leaf leaves ih =>
      simp only [leavesSettle, Bool.and_eq_true, Bool.or_eq_true, Bool.not_eq_true'] at hsettles
      obtain ⟨hleaf, hrest⟩ := hsettles
      have hfirst := (applyLeaf_step s source targets leaf).covered hc hleaf
      unfold applyLeaves at h
      simp only at h
      split at h
      · rename_i hplaying
        cases h
        refine ih rfl hfirst (hrest.resolve_left (fun hstopped => ?_))
        rw [hplaying] at hstopped
        cases hstopped
      · rw [h] at hfirst
        exact hfirst

/-! ## The drain -/

/-- Whether executing a work item, already popped, puts a Summon only where it may be put. -/
def workSettles (s : GameState) : WorkItem → Bool
  | .promoteBenchSummon c =>
      match occupiedBenchSlots (s.player c) with
      | [slot] => ((s.player c).bench.get slot).all (settles s c .main)
      | _ => true
  | .fireTrigger c p _ ability =>
      match Triggers.abilityAt s c p ability with
      | some (false, effects) =>
          leavesSettle (.trigger c p ability) (Triggers.implicitTargets p effects) effects s
      | _ => true
  | _ => true

/-- The same for an iteration of the drain. -/
def drainSettles (s : GameState) : Bool :=
  if Resolution.stackHasUnresolvedItems s then
    s.stack.getLast?.all (fun item =>
      leavesSettle (itemLeaves (poppedStack s) item).1 (itemLeaves (poppedStack s) item).2.1
        (itemLeaves (poppedStack s) item).2.2 (poppedStack s))
  else
    match s.work with
    | item :: work => workSettles (poppedWork s work) item
    | [] => true

/-- A Bench Summon moved to Main. -/
theorem covered_promote {c : PlayerId} (slot : BenchSlot) {x : SummonInstance}
    (h : ∀ p, Covered s p) (hsettles : settles s c .main x = true) (hcards : t.cards = s.cards)
    (hwork : ∃ front back, t.work = front ++ s.work ++ back)
    (hother : t.player c.opponent = s.player c.opponent)
    (ht : (t.player c).main = some x ∧
      (t.player c).bench = (s.player c).bench.set slot none) : ∀ p, Covered t p := by
  obtain ⟨hmain, hbench⟩ := ht
  refine covered_of_place h hcards hwork hother (fun r z hz => ?_)
  cases r with
  | main =>
      rw [PlayerState.summonAt_main, hmain] at hz
      cases hz
      exact .inr hsettles
  | bench r =>
      rw [PlayerState.summonAt_bench, hbench] at hz
      by_cases hr : r = slot
      · subst hr
        rw [Bench.get_set_self] at hz
        cases hz
      · rw [Bench.get_set_of_ne _ hr] at hz
        exact .inl ⟨z, hz, rfl, UInt32.le_refl _⟩

theorem markMainEntry_eases (s : GameState) (step : MovementStep) (c : PlayerId) (p : Position)
    (q : PlayerId) : (s.player q).Eases ((Triggers.markMainEntry s step c p).player q) := by
  unfold Triggers.markMainEntry
  split
  · rename_i x hx
    have hentered (y : SummonInstance) (hc : y.chain = x.chain) (hd : y.damage = x.damage) :
        (s.player c).Eases { s.player c with main := some y } :=
      eases_setAt (p := .main) (by rintro _ ⟨⟩; exact ⟨x, hx, hc, UInt32.le_of_eq hd⟩)
    refine (hentered _ ?_ ?_).write q <;> rfl
  · exact .refl _

/-- Items that neither check nor discard. -/
theorem ItemStep.covered {item : WorkItem} (h : ItemStep s item t es) (hs : s.status = .playing)
    (hc : ∀ p, Covered s p) (hcheck : ∀ p, item ≠ .destructionCheck p)
    (hdiscard : ∀ p, item ≠ .discardDestroyedChain p) (hsettles : workSettles s item = true) :
    ∀ p, Covered t p := by
  have hf := h.frame hs
  cases h with
  | readied =>
      exact covered_of_eases hc hf.cards hf.work
        (PlayerState.Eases.write (eases_map (fun _ => ⟨rfl, rfl⟩)))
  | drew _ =>
      exact covered_of_eases hc hf.cards hf.work
        (PlayerState.Eases.write (eases_of_board rfl rfl))
  | produced _ =>
      exact covered_of_eases hc hf.cards hf.work (PlayerState.Eases.write (eases_bank _ _))
  | checked _ _ _ => exact absurd rfl (hcheck _)
  | checkBroke _ _ _ => exact absurd rfl (hcheck _)
  | discardBroke _ => exact absurd rfl (hdiscard _)
  | discardMissed _ => exact absurd rfl (hdiscard _)
  | discarded _ _ => exact absurd rfl (hdiscard _)
  | lossRecorded =>
      exact covered_of_eases hc hf.cards hf.work
        (PlayerState.Eases.write (eases_of_board rfl rfl))
  | @promoted c slot x hb hx =>
      have hx' : settles s c .main x = true := by
        simpa [workSettles, hb, hx] using hsettles
      exact covered_promote slot hc hx' hf.cards hf.work (by simp) (by simp)
  | @movement step c p =>
      exact covered_of_eases hc hf.cards hf.work (markMainEntry_eases s step c p)
  | fired ha hl =>
      simp only [workSettles, ha] at hsettles
      exact applyLeaves_covered hl hc hsettles
  | _ => exact covered_of_eases hc hf.cards hf.work (fun _ => .refl _)

/-- A check queues a discard for each over-damaged Summon at its position. -/
theorem checked_covered {p : Position} {work : List WorkItem} {hit : List PlayerId}
    (hc : ∀ r, Covered s r) (hwork : s.work = .destructionCheck p :: work)
    (hmiss : ∀ q, q ∉ hit → isDestroyed (poppedWork s work) q p = .ok false) :
    ∀ r, Covered ((poppedWork s work).pushBack (hit.flatMap (destructionSteps · p))) r := by
  intro r
  have hdoomed : doomedAt ((poppedWork s work).pushBack (hit.flatMap (destructionSteps · p))) r =
      doomedAt s r := rfl
  by_cases hr : r = p
  · subst hr
    right
    have hcount : ∀ hit : List PlayerId,
        (hit.flatMap (destructionSteps · r)).count (.discardDestroyedChain r) = hit.length := by
      intro hit
      induction hit with
      | nil => rfl
      | cons q hit ih =>
          rw [List.flatMap_cons, List.count_append, ih, List.length_cons, Nat.add_comm]
          cases r <;> simp [destructionSteps]
    have hmem : ∀ q, doomed s q r = true → q ∈ hit := by
      intro q hd
      by_contra hn
      have hfalse : doomed s q r = false := isDestroyed_eq_doomed (hmiss q hn)
      rw [hfalse] at hd
      cases hd
    have hlen : doomedAt s r ≤ hit.length := by
      unfold doomedAt
      match hit, hmem with
      | [], hmem =>
          have hnone : ∀ q, doomed s q r = false := fun q => by
            by_contra hd
            exact List.not_mem_nil (hmem q (by simpa using hd))
          simp [hnone]
      | [a], hmem =>
          have hone : ∀ q, doomed s q r = true → q = a := fun q hd =>
            List.mem_singleton.mp (hmem q hd)
          cases h1 : doomed s .one r <;> cases h2 : doomed s .two r <;> try simp
          have := (hone _ h1).trans (hone _ h2).symm
          cases this
      | _ :: _ :: rest, _ =>
          have h1 := Bool.toNat_le (doomed s .one r)
          have h2 := Bool.toNat_le (doomed s .two r)
          simp only [List.length_cons]
          omega
    rw [hdoomed, GameState.pushBack_work, List.count_append, hcount]
    omega
  · have hsame := hc r
    unfold Covered at hsame ⊢
    rw [hdoomed, GameState.pushBack_work]
    rw [hwork] at hsame
    refine hsame.imp (fun hm => ?_) (fun hroom => ?_)
    · exact List.mem_append_left _ ((List.mem_cons.mp hm).resolve_left (by simpa using hr))
    · rw [List.count_cons_of_ne (by simp)] at hroom
      rw [List.count_append, poppedWork_work]
      omega

/-- A discard takes one over-damaged Summon off its position. -/
theorem discarded_covered {p : Position} {c : PlayerId} {x : SummonInstance} {work : List WorkItem}
    (hc : ∀ r, Covered s r) (hwork : s.work = .discardDestroyedChain p :: work)
    (hfound : destroyedController (poppedWork s work) p = .ok (some c)) (hcards : t.cards = s.cards)
    (hplayer : ∀ q, t.player q = (discardSummon (poppedWork s work) c p x).player q)
    (hfront : ∃ front, t.work = front ++ work) : ∀ r, Covered t r := by
  intro r
  obtain ⟨front, hfront⟩ := hfront
  have heases : ∀ q, (s.player q).Eases (t.player q) := by
    intro q
    rw [hplayer, discardSummon_player]
    split
    · exact (eases_setAt (p := p) (v := none) (by simp)).trans (eases_of_board rfl rfl)
    · exact eases_of_board rfl rfl
  have hle : ∀ q, (doomed t q r).toNat ≤ (doomed s q r).toNat := by
    intro q
    cases hd : doomed t q r with
    | false => exact Nat.zero_le _
    | true => rw [doomed_of_eases hcards (heases q) hd]
  have hown := hle c
  have hother := hle c.opponent
  have hsame := hc r
  unfold Covered at hsame ⊢
  rw [hfront, List.count_append]
  rw [hwork] at hsame
  refine hsame.imp (fun hm => ?_) (fun hroom => ?_)
  · exact List.mem_append_right _ ((List.mem_cons.mp hm).resolve_left (by simp))
  · rw [doomedAt_eq s c] at hroom
    rw [doomedAt_eq t c]
    by_cases hr : r = p
    · subst hr
      have hgone : (t.player c).summonAt r = none := by
        rw [hplayer, discardSummon_player, if_pos rfl]
        have hcleared := PlayerState.summonAt_setAt_self (s.player c) r none
        cases r <;> exact hcleared
      have hthere : doomed s c r = true :=
        isDestroyed_eq_doomed (s := poppedWork s work) (destroyedController_some hfound)
      have hnot : doomed t c r = false := by
        unfold doomed
        rw [hgone]
        rfl
      rw [List.count_cons_self, hthere] at hroom
      rw [hnot]
      simp only [Bool.toNat_true, Bool.toNat_false] at hroom ⊢
      omega
    · rw [List.count_cons_of_ne (by simpa using Ne.symm hr)] at hroom
      omega

/-- A discard that finds nobody is not missed. -/
theorem discardMissed_covered {p : Position} {work : List WorkItem} (hc : ∀ r, Covered s r)
    (hwork : s.work = .discardDestroyedChain p :: work)
    (hnone : destroyedController (poppedWork s work) p = .ok none) :
    ∀ r, Covered (poppedWork s work) r := by
  intro r
  by_cases hr : r = p
  · subst hr
    have hnot : ∀ q, doomed (poppedWork s work) q r = false :=
      fun q => isDestroyed_eq_doomed (destroyedController_none hnone q)
    right
    unfold doomedAt
    rw [hnot, hnot]
    exact Nat.zero_le _
  · have hsame := hc r
    unfold Covered at hsame ⊢
    rw [hwork] at hsame
    refine hsame.imp (fun hm => (List.mem_cons.mp hm).resolve_left (by simp)) (fun hroom => ?_)
    rwa [List.count_cons_of_ne (by simpa using Ne.symm hr)] at hroom

theorem covered_pop {item : WorkItem} {work : List WorkItem} (hc : ∀ p, Covered s p)
    (hwork : s.work = item :: work) (hcheck : ∀ p, item ≠ .destructionCheck p)
    (hdiscard : ∀ p, item ≠ .discardDestroyedChain p) : ∀ p, Covered (poppedWork s work) p := by
  intro p
  have hsame := hc p
  unfold Covered at hsame ⊢
  rw [hwork] at hsame
  refine hsame.imp (fun hm => (List.mem_cons.mp hm).resolve_left (fun he => hcheck p he.symm))
    (fun hroom => ?_)
  rwa [List.count_cons_of_ne (hdiscard p)] at hroom

/-- **An iteration of the drain** that places safely keeps everything covered. -/
theorem drainStep_covered (hc : ∀ p, Covered s p) (hn : Resolution.drainStep s = some (t, es))
    (ht : t.status = .playing) (hsettles : drainSettles s = true) : ∀ p, Covered t p := by
  obtain ⟨hd, ⟨item, u, es', hst, rfl⟩ | ⟨hlow, item, work, hwork, hi⟩⟩ := drainStep_cases hn
  · have habove : Resolution.stackHasUnresolvedItems s = true := decide_eq_true hst.above
    simp only [drainSettles, habove, if_true, hst.top, Option.all_some] at hsettles
    have hu : ∀ p, Covered u p := applyLeaves_covered (s := poppedStack s) hst.leaves hc hsettles
    rw [hst.result]
    refine covered_of_eases hu (by simp) ⟨[], [], by simp⟩ (fun q => ?_)
    rw [closeSegment_player]
    rcases placeItem_player u item q with h | ⟨_, _, _, _, _, h | h⟩ <;> rw [h]
    · exact .refl _
    · exact eases_of_board rfl rfl
    · exact eases_of_board rfl rfl
  · have hbelow : Resolution.stackHasUnresolvedItems s = false := by
      simpa [Resolution.stackHasUnresolvedItems] using hlow
    simp only [drainSettles, hbelow, Bool.false_eq_true, if_false, hwork] at hsettles
    by_cases hcheck : ∃ p, item = .destructionCheck p
    · obtain ⟨p, rfl⟩ := hcheck
      cases hi with
      | checked _ _ hmiss => exact checked_covered hc hwork hmiss
      | checkBroke _ _ _ => cases ht
    · by_cases hdiscard : ∃ p, item = .discardDestroyedChain p
      · obtain ⟨p, rfl⟩ := hdiscard
        cases hi with
        | discardBroke _ => cases ht
        | discardMissed hnone => exact discardMissed_covered hc hwork hnone
        | discarded hfound _ =>
            exact discarded_covered hc hwork hfound rfl (fun _ => rfl) ⟨_, rfl⟩
      · rw [not_exists] at hcheck hdiscard
        exact hi.covered hd.playing (covered_pop hc hwork hcheck hdiscard) hcheck hdiscard hsettles

/-! ## Actions -/

/-- Whether an action puts a Summon only where it may be put. -/
def actionSettles (s : GameState) : GameAction → Bool
  | .playSummon c card slot =>
      (removeFirst (fun r => r.instanceId = card) (s.player c).hand).all (fun taken =>
        settles s c (.bench slot) (Board.enteringSummon c taken.1))
  | .upgradeSummon c card p =>
      match (s.player c).summonAt p,
          removeFirst (fun r => r.instanceId = card) (s.player c).hand with
      | some x, some taken => settles s c p (Board.upgraded x taken.1)
      | _, _ => true
  | .choosePromotion c slot => ((s.player c).bench.get slot).all (settles s c .main)
  | .activateSkill c p ability targets hint =>
      match (s.player c).summonAt p with
      | none => true
      | some x =>
          match s.cards.get x.chain.top.defId with
          | none => true
          | some top =>
              match (top.all .skill).find? (fun e => e.id = ability) with
              | none => true
              | some skill =>
                  match Payment.deduct (s.player c).mana ((skill.get .cost).getD .default) hint with
                  | .error _ => true
                  | .ok payment =>
                      leavesSettle (.skill c p ability) targets (skill.all .effectLeaf)
                        (s.setPlayer c
                          ({ s.player c with mana := payment.bank }.setAt p
                            (some (Skills.exhaust x))))
  | _ => true

/-- In free play nothing is over-damaged, so everything may be put anywhere. -/
theorem settles_of_idle {c : PlayerId} {p r : Position} {x : SummonInstance}
    (hc : ∀ p, Covered s p) (hwork : s.work = []) (hx : (s.player c).summonAt p = some x) :
    settles s c r x = true := by
  have hnot : overDamaged s.cards x = false := by
    by_contra hover
    have hd : doomed s c p = true := doomed_iff.mpr ⟨x, hx, by simpa using hover⟩
    rcases hc p with hm | hroom
    · rw [hwork] at hm
      cases hm
    · rw [hwork, doomedAt_eq s c, hd] at hroom
      simp at hroom
  simp [settles, hnot]

/-- One position filled, the other zones of the player aside. -/
theorem covered_of_setAt {c : PlayerId} {p : Position} {y : SummonInstance} {ps : PlayerState}
    (hc : ∀ r, Covered s r) (hps : (s.player c).Eases ps) (hsettles : settles s c p y = true) :
    ∀ r, Covered (s.setPlayer c (ps.setAt p (some y))) r := by
  refine covered_of_place (c := c) hc rfl ⟨[], [], by simp⟩ (by simp) (fun r z hz => ?_)
  rw [GameState.player_setPlayer_self] at hz
  by_cases hr : r = p
  · subst hr
    rw [PlayerState.summonAt_setAt_self] at hz
    cases hz
    exact .inr hsettles
  · rw [PlayerState.summonAt_setAt_of_ne _ _ _ hr] at hz
    exact .inl (hps r z hz)

/-- **An action** that places safely keeps everything covered. -/
theorem ActionStep.covered {a : GameAction} (h : ActionStep s a t es) (hc : ∀ p, Covered s p)
    (hidle : FreeMain s → s.work = []) (hsettles : actionSettles s a = true) :
    ∀ p, Covered t p := by
  have kept : ∃ front back, s.work = front ++ s.work ++ back := ⟨[], [], by simp⟩
  cases h with
  | @played c card slot cardRef hand _ _ _ hhand _ _ _ =>
      have htaken : (s.player c).Eases { s.player c with hand := hand } := eases_of_board rfl rfl
      have hentering : settles s c (.bench slot) (Board.enteringSummon c cardRef) = true := by
        unfold TakesFromHand at hhand
        simpa only [actionSettles, hhand, Option.all_some] using hsettles
      have hplaced := covered_of_setAt hc htaken hentering
      exact hplaced
  | @upgraded c card p x cardRef hand _ _ _ _ _ hx _ hhand _ _ _ _ _ _ =>
      have htaken : (s.player c).Eases { s.player c with hand := hand } := eases_of_board rfl rfl
      have hupgraded : settles s c p (Board.upgraded x cardRef) = true := by
        unfold TakesFromHand at hhand
        simpa only [actionSettles, hx, hhand] using hsettles
      have hplaced := covered_of_setAt hc htaken hupgraded
      exact hplaced
  | @cast c card targets hint cardRef hand _ _ _ payment _ _ _ _ _ _ =>
      have hpaid : (s.player c).Eases { s.player c with mana := payment.bank, hand := hand } :=
        eases_of_board rfl rfl
      exact covered_of_eases hc rfl kept
        (PlayerState.Eases.write (s := castBegun s c cardRef targets) hpaid)
  | @skill c p ability targets hint x top skill payment _ hx _ htop hskill _ hpay u es hl =>
      have hpaid : (s.player c).Eases { s.player c with mana := payment.bank } :=
        eases_of_board rfl rfl
      have hexhausted : (s.player c).Eases
          ({ s.player c with mana := payment.bank }.setAt p (some (Skills.exhaust x))) := by
        refine hpaid.trans (eases_setAt ?_)
        rintro _ ⟨⟩
        refine ⟨x, ?_, rfl, UInt32.le_refl _⟩
        cases p <;> exact hx
      simp only [actionSettles, hx, htop, hskill, hpay] at hsettles
      exact applyLeaves_covered hl
        (covered_of_eases hc rfl kept (PlayerState.Eases.write hexhausted)) hsettles
  | @retreated c slot hint x y _ payment free hmain hbench _ =>
      have hwork := hidle free
      have hboth : exchangeSettles s c slot = true := by
        have hx : settles s c (.bench slot) x = true :=
          settles_of_idle (p := .main) hc hwork hmain
        have hy : settles s c .main y = true :=
          settles_of_idle (p := .bench slot) hc hwork hbench
        simp [exchangeSettles, hmain, hbench, hx, hy]
      exact covered_exchange hc hmain hbench hboth rfl ⟨[], _, rfl⟩
        (GameState.player_setPlayer_opponent ({ s with turn := _ } : GameState) _ _)
        (by simp [exchange])
  | @attacked c _ _ _ _ payment _ _ _ _ _ =>
      have hpaid : (s.player c).Eases { s.player c with mana := payment.bank } :=
        eases_of_board rfl rfl
      exact covered_of_eases hc rfl kept
        (PlayerState.Eases.write (s := attackBegun s c .main) hpaid)
  | handedOver _ _ _ =>
      obtain ⟨v, hwork⟩ := handover_work (windowClosed s)
      refine covered_of_eases hc rfl ⟨[], _, hwork⟩ (fun q => ?_)
      obtain ⟨f, hf, hq⟩ := handover_player (windowClosed s) q
      rw [hq]
      exact eases_map (fun x => ⟨(hf x).1.chain, (hf x).2⟩)
  | converted _ _ _ _ =>
      exact covered_of_eases hc rfl kept
        (PlayerState.Eases.write (s := ({ s with coin := none } : GameState)) (eases_bank _ _))
  | manaChosen _ _ =>
      exact covered_of_eases hc rfl kept
        (PlayerState.Eases.write (s := ({ s with pending := none } : GameState)) (eases_bank _ _))
  | @promotionChosen c slot x hp hx =>
      have hpromoted : settles s c .main x = true := by
        simpa only [actionSettles, hx, Option.all_some] using hsettles
      exact covered_promote slot hc hpromoted rfl kept
        (GameState.player_setPlayer_opponent ({ s with pending := none } : GameState) _ _)
        (by simp)
  | @prizeChosen c i card hp hcard =>
      have hrecovered : (s.player c.opponent).Eases { s.player c.opponent with
          prizes := (s.player c.opponent).prizes.eraseIdx i
          hand := (s.player c.opponent).hand ++ [card] } := eases_of_board rfl rfl
      exact covered_of_eases hc rfl kept
        (PlayerState.Eases.write (s := ({ s with pending := none } : GameState)) hrecovered)
  | turnEnded _ _ _ _ | passed _ _ | passedToStack _ _ _ | resigned =>
      exact covered_of_eases hc rfl kept (fun _ => .refl _)

/-! ## The card pool -/

/-- Every Summon in play prints Life. -/
def Printed (s : GameState) : Prop :=
  ∀ q p x, (s.player q).summonAt p = some x → ∃ life, lifeOf s.cards x = .ok life

theorem Printed.descends (h : Printed s) (hcards : t.cards = s.cards) (hd : Descends s t) :
    Printed t := by
  intro q p y hy
  obtain ⟨r, x, hx, same⟩ := hd q p y hy
  obtain ⟨life, hl⟩ := h q r x hx
  refine ⟨life, ?_⟩
  unfold lifeOf at hl ⊢
  rw [same.chain, hcards]
  exact hl

theorem lifeOf_of_printed {cards : CardSet} {x : SummonInstance} {entity : Entity}
    (hcard : cards.get x.chain.top.defId = some entity) (hlife : (entity.get .life).isSome = true) :
    ∃ life, lifeOf cards x = .ok life := by
  obtain ⟨life, hl⟩ := Option.isSome_iff_exists.mp hlife
  exact ⟨life, by simp [lifeOf, hcard, Entity.demand, hl]⟩

theorem Printed.place {c : PlayerId} {p : Position} {x : SummonInstance} {ps : PlayerState}
    (h : Printed s) (hx : ∃ life, lifeOf s.cards x = .ok life) (hps : (s.player c).Descends ps) :
    Printed (s.setPlayer c (ps.setAt p (some x))) := by
  intro q r y hy
  by_cases hq : q = c
  · subst hq
    rw [GameState.player_setPlayer_self] at hy
    by_cases hr : r = p
    · subst hr
      rw [PlayerState.summonAt_setAt_self] at hy
      cases hy
      exact hx
    · rw [PlayerState.summonAt_setAt_of_ne _ _ _ hr] at hy
      obtain ⟨r', z, hz, same⟩ := hps r y hy
      obtain ⟨life, hl⟩ := h q r' z hz
      refine ⟨life, ?_⟩
      unfold lifeOf at hl ⊢
      rw [same.chain]
      exact hl
  · rw [GameState.player_setPlayer_of_ne _ _ _ hq] at hy
    exact h q r y hy

theorem Printed.action {a : GameAction} (h : Printed s) (hs : s.status = .playing)
    (hlife : ∀ id entity, s.cards.get id = some entity → family entity = .summon →
      (entity.get .life).isSome = true)
    (ha : ActionStep s a t es) : Printed t := by
  by_cases hplay : ∃ c card slot, a = .playSummon c card slot
  · obtain ⟨c, card, slot, rfl⟩ := hplay
    cases ha with
    | @played _ _ _ cardRef hand _ _ _ _ hcard hfamily _ =>
        have htaken : (s.player c).Descends { s.player c with hand := hand } :=
          descends_of_board rfl rfl
        have hprinted : ∃ life, lifeOf s.cards (Board.enteringSummon c cardRef) = .ok life :=
          lifeOf_of_printed hcard (hlife _ _ hcard hfamily)
        exact h.place (p := .bench slot) hprinted htaken
  · by_cases hupgrade : ∃ c card p, a = .upgradeSummon c card p
    · obtain ⟨c, card, p, rfl⟩ := hupgrade
      cases ha with
      | @upgraded _ _ _ x cardRef hand entity _ _ _ _ hx _ _ hcard hfamily _ _ _ _ =>
          have htaken : (s.player c).Descends { s.player c with hand := hand } :=
            descends_of_board rfl rfl
          have htop : (Board.upgraded x cardRef).chain.top = cardRef := by
            simp [Board.upgraded, UpgradeChain.top]
          have hprinted : ∃ life, lifeOf s.cards (Board.upgraded x cardRef) = .ok life :=
            lifeOf_of_printed (by rw [htop]; exact hcard) (hlife _ _ hcard hfamily)
          exact h.place hprinted htaken
    · simp only [not_exists] at hplay hupgrade
      exact h.descends (ha.cards hs) (ha.descends hs hplay hupgrade)

/-! ## Runs -/

/-- Whether a step puts a Summon only where it may be put. -/
def placesSafely (x : Entry GameState GameAction GameEvent) : Bool :=
  match x.input with
  | none => drainSettles x.before
  | some a => actionSettles x.before a

/-- Every Summon's damage is below its printed Life. -/
def Healthy (s : GameState) : Prop :=
  ∀ q p x, (s.player q).summonAt p = some x →
    ∃ life, lifeOf s.cards x = .ok life ∧ x.damage < life

theorem Healthy.covered (h : Healthy s) (p : Position) : Covered s p := by
  have hnot : ∀ q, doomed s q p = false := by
    intro q
    by_contra hd
    obtain ⟨x, hx, hover⟩ := doomed_iff.mp (Bool.eq_true_of_not_eq_false hd)
    obtain ⟨life, hl, hlt⟩ := h q p x hx
    simp only [overDamaged, hl, decide_eq_true_eq] at hover
    exact UInt32.not_le.mpr hlt hover
  right
  unfold doomedAt
  rw [hnot, hnot]
  exact Nat.zero_le _

/-- Over a run that places safely, work covers every over-damaged Summon and all Summons print
Life. -/
theorem Opening.run_covered {cards : CardSet} {start : GameState}
    {tr : List (Entry GameState GameAction GameEvent)} (h : Opening cards start)
    (hlife : ∀ id entity, cards.get id = some entity → family entity = .summon →
      (entity.get .life).isSome = true) (hhealthy : Healthy start)
    (hr : engine.Run start tr s) (hg : ∀ x ∈ tr, placesSafely x = true) :
    Printed s ∧ (s.status = .playing → ∀ p, Covered s p) := by
  have hrun : Coherent s ∧ s.cards = cards ∧ Printed s ∧
      (s.status = .playing → ∀ p, Covered s p) := by
    refine hr.invariant (G := fun x => placesSafely x = true)
      (I := fun s => Coherent s ∧ s.cards = cards ∧ Printed s ∧
        (s.status = .playing → ∀ p, Covered s p)) h.rest
      ⟨h.coherent, h.cards, ?_, fun _ => hhealthy.covered⟩ ?_ ?_ hg
    · intro q p x hx
      obtain ⟨life, hl, -⟩ := hhealthy q p x hx
      exact ⟨life, hl⟩
    · intro s t a es ⟨hc, hcards, hprinted, hcovered⟩ hrest ha hG
      obtain ⟨hs, hst, -⟩ := accept_step ha
      have hlife' := hlife
      rw [← hcards] at hlife'
      have hidle : FreeMain s → s.work = [] := fun free =>
        (hc.idle hs hrest free.pending free.window).1
      exact ⟨hc.action hs hrest hst, (hst.cards hs).trans hcards, hprinted.action hs hlife' hst,
        fun _ => hst.covered (hcovered hs) hidle hG⟩
    · intro s t es ⟨hc, hcards, hprinted, hcovered⟩ hn hG
      have hd := (drainStep_cases hn).1
      exact ⟨hc.drainStep hn, (drainStep_cards hn).trans hcards,
        hprinted.descends (drainStep_cards hn) (drainStep_descends hn),
        fun ht => drainStep_covered (hcovered hd.playing) hn ht hG⟩
  exact hrun.2.2

end

/-- **No destroyed Summon stays in play**, over runs whose steps put an over-damaged Summon only
where work will deal with it. -/
theorem no_destroyed_in_free_play {cards : CardSet} {scenario : Scenario} {start s : GameState}
    {tr : List (Entry GameState GameAction GameEvent)}
    (hlife : ∀ id entity, cards.get id = some entity → family entity = .summon →
      (entity.get .life).isSome = true)
    (hstart : fromScenario cards scenario = .ok start) (hhealthy : Healthy start)
    (hr : engine.Run start tr s) (hsafe : ∀ x ∈ tr, placesSafely x = true) (hfree : FreePlay s) :
    Healthy s := by
  obtain ⟨hs, -, -, hwork⟩ := hfree
  obtain ⟨hprinted, hcovered⟩ :=
    (opening_of_fromScenario hstart).run_covered hlife hhealthy hr hsafe
  intro q p x hx
  obtain ⟨life, hl⟩ := hprinted q p x hx
  have hsettles : settles s q p x = true := settles_of_idle (hcovered hs) hwork hx
  have hnospare : ¬Spare s q p := by
    rintro (hm | hroom)
    · rw [hwork] at hm
      cases hm
    · rw [hwork] at hroom
      simp at hroom
  have hnot : overDamaged s.cards x = false := by simpa [settles, hnospare] using hsettles
  refine ⟨life, hl, UInt32.not_le.mp (fun hle => ?_)⟩
  simp [overDamaged, hl, hle] at hnot

/-! ## An upgrade to less Life -/

/-- Every position of a board. -/
def positions : List Position := .main :: BenchSlot.all.map .bench

theorem mem_positions (p : Position) : p ∈ positions := by
  cases p with
  | main => exact List.mem_cons_self
  | bench slot => exact List.mem_cons_of_mem _ (List.mem_map_of_mem slot.mem_all)

theorem healthy_iff {s : GameState} :
    (∀ q ∈ [PlayerId.one, .two], ∀ p ∈ positions, ∀ x ∈ (s.player q).summonAt p,
      !overDamaged s.cards x && (lifeOf s.cards x).isOk) ↔ Healthy s := by
  have hx : ∀ x : SummonInstance, (!overDamaged s.cards x && (lifeOf s.cards x).isOk) = true ↔
      ∃ life, lifeOf s.cards x = .ok life ∧ x.damage < life := by
    intro x
    unfold overDamaged
    cases hl : lifeOf s.cards x with
    | error b => simp [Except.isOk, Except.toBool]
    | ok life => simp [Except.isOk, Except.toBool]
  constructor
  · intro h q p x hp
    refine (hx x).mp (h q ?_ p (mem_positions p) x hp)
    cases q <;> simp
  · intro h q _ p _ x hp
    exact (hx x).mpr (h q p x hp)

instance : DecidablePred Healthy := fun _ => decidable_of_iff _ healthy_iff

open Fixtures in
/-- An upgrade to a card of less Life is followed by no check. -/
theorem destroyed_in_free_play :
    ∃ cards scenario start s evs, (∀ id entity, CardSet.get cards id = some entity →
        family entity = .summon → (entity.get .life).isSome = true) ∧
      fromScenario cards scenario = .ok start ∧ Healthy start ∧ Reachable start evs s ∧
        FreePlay s ∧ ¬Healthy s := by
  have hdemo : (demo ⟨[summon 1 20 .base [] [], summon 2 10 .enhanced [] []]⟩
      (facing { lone ⟨[card 1 1], 10, .ready⟩ with hand := [card 2 2] } (lone (inPlay 3 1)))
        [.upgradeSummon .one ⟨2⟩ .main]).map (fun r =>
          decide (Healthy r.1 ∧ FreePlay r.2.1 ∧ ¬Healthy r.2.1)) = some true := by
    decide +kernel
  obtain ⟨⟨start, s, evs⟩, hr, hv⟩ := Option.map_eq_some_iff.mp hdemo
  obtain ⟨hhealthy, hrest⟩ := of_decide_eq_true hv
  obtain ⟨hstart, hreach⟩ := reachable_of_demo hr
  refine ⟨_, _, start, s, evs, fun id entity hget _ => ?_, hstart, hhealthy, hreach, hrest⟩
  have hmem := CardSet.get_mem hget
  simp only [List.mem_cons, List.not_mem_nil, or_false] at hmem
  rcases hmem with rfl | rfl <;> rfl

open Fixtures in
/-- A lethal Attack and the promotion behind it. -/
theorem no_destroyed_in_free_play_attack :
    ∃ start tr s, engine.Run start tr s ∧ .summonDestroyed .main .two ∈ facts tr ∧ Healthy s := by
  have hdemo : (demoTrace striking (facing (lone (inPlay 1 1))
      (benching (lone (inPlay 2 1)) .first (inPlay 3 1))) attackPassPass).map (fun r =>
        decide (Healthy r.1 ∧ (∀ x ∈ r.2.1, placesSafely x = true) ∧
          .summonDestroyed .main .two ∈ facts r.2.1 ∧ FreePlay r.2.2)) = some true := by
    decide +kernel
  obtain ⟨⟨start, tr, s⟩, hr, hv⟩ := Option.map_eq_some_iff.mp hdemo
  obtain ⟨hhealthy, hsafe, hdestroyed, hfree⟩ := of_decide_eq_true hv
  obtain ⟨hstart, hrun⟩ := run_of_demoTrace hr
  refine ⟨start, tr, s, hrun, hdestroyed,
    no_destroyed_in_free_play (fun id entity hget _ => ?_) hstart hhealthy hrun hsafe hfree⟩
  have hmem := CardSet.get_mem hget
  simp only [striking, List.mem_cons, List.not_mem_nil, or_false] at hmem
  subst hmem
  rfl

end Summoners
