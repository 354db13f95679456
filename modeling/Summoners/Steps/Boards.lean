import Summoners.Steps.Frames
import Summoners.Steps.Opening

/-! # Where the Summons on a board come from

No step but a play puts a Summon on a board that was not there before: what a step leaves on a
player's board was on that player's board, with the same base and the same seats. `Carries R` says so
and that `R` relates each Summon and its position to what they were; `Persistent R` lists what `R` has
to allow to be carried over the drain. A Summon `Persists` where it keeps its markers and its per-turn
record and is not exhausted. So every Summon stays on its owner's board.
-/

namespace Summoners
set_option autoImplicit false

open Effects RunToCompletion

theorem SameSummon.refl (x : SummonInstance) : SameSummon x x := ⟨rfl, rfl, rfl⟩

theorem SameSummon.trans {x y z : SummonInstance} (h : SameSummon x y) (h' : SameSummon y z) :
    SameSummon x z :=
  ⟨h'.chain.trans h.chain, h'.owner.trans h.owner, h'.controller.trans h.controller⟩

/-- What the drain leaves of a Summon. -/
structure Persists (x y : SummonInstance) : Prop extends SameSummon x y where
  upgrade : y.turn.upgrade = x.turn.upgrade
  entered : x.turn.mainEntry.isSome = true → y.turn.mainEntry.isSome = true
  markers : ∀ marker ∈ x.durationMarkers, marker ∈ y.durationMarkers
  ready : x.readiness = .ready → y.readiness = .ready

theorem Persists.refl (x : SummonInstance) : Persists x x :=
  ⟨.refl x, rfl, id, fun _ hm => hm, id⟩

theorem Persists.trans {x y z : SummonInstance} (h : Persists x y) (h' : Persists y z) :
    Persists x z :=
  ⟨h.toSameSummon.trans h'.toSameSummon, h'.upgrade.trans h.upgrade, h'.entered ∘ h.entered,
    fun m hm => h'.markers m (h.markers m hm), h'.ready ∘ h.ready⟩

/-! ## Boards -/

/-- What relates a Summon at a position before to a Summon at a position after. -/
abbrev BoardRel := Position → SummonInstance → Position → SummonInstance → Prop

/-- A relation of the Summons alone. -/
def anywhere (R : SummonInstance → SummonInstance → Prop) : PlayerId → BoardRel :=
  fun _ _ x _ y => R x y

/-- Every Summon of the later board was on the earlier one, and `R` relates the two. -/
def PlayerState.Carries (R : BoardRel) (ps qs : PlayerState) : Prop :=
  ∀ p y, qs.summonAt p = some y → ∃ r x, ps.summonAt r = some x ∧ R r x p y

def Carries (R : PlayerId → BoardRel) (s t : GameState) : Prop :=
  ∀ q, (s.player q).Carries (R q) (t.player q)

/-- Every Summon of the later board was, as the same Summon, on the earlier one. -/
def PlayerState.Descends (ps qs : PlayerState) : Prop :=
  ∀ p y, qs.summonAt p = some y → ∃ r x, ps.summonAt r = some x ∧ SameSummon x y

def Descends (s t : GameState) : Prop := ∀ q, (s.player q).Descends (t.player q)

section
variable {R : BoardRel} {ps qs rs : PlayerState}

theorem PlayerState.Carries.trans
    (hR : ∀ {p x q y r z}, R p x q y → R q y r z → R p x r z) (h : ps.Carries R qs)
    (h' : qs.Carries R rs) : ps.Carries R rs := by
  intro p z hz
  obtain ⟨r, y, hy, hyz⟩ := h' p z hz
  obtain ⟨r', x, hx, hxy⟩ := h r y hy
  exact ⟨r', x, hx, hR hxy hyz⟩

/-- A whole board rewritten Summon by Summon. -/
theorem carries_map {f : SummonInstance → SummonInstance}
    (hf : ∀ p x, ps.summonAt p = some x → R p x p (f x)) :
    ps.Carries R { ps with main := ps.main.map f, bench := ps.bench.mapSummons f } := by
  intro p y hy
  cases p with
  | main =>
      obtain ⟨x, hx, rfl⟩ := Option.map_eq_some_iff.mp hy
      exact ⟨.main, x, hx, hf _ x hx⟩
  | bench slot =>
      rw [PlayerState.summonAt_bench, Bench.get_mapSummons] at hy
      obtain ⟨x, hx, rfl⟩ := Option.map_eq_some_iff.mp hy
      exact ⟨.bench slot, x, hx, hf _ x hx⟩

section
variable (hstay : ∀ p x, R p x p x)
include hstay

theorem PlayerState.Carries.refl (ps : PlayerState) : ps.Carries R ps :=
  fun p y hy => ⟨p, y, hy, hstay p y⟩

/-- A write of the other zones. -/
theorem carries_of_board (hmain : qs.main = ps.main) (hbench : qs.bench = ps.bench) :
    ps.Carries R qs := by
  intro p y hy
  refine ⟨p, y, ?_, hstay p y⟩
  cases p with
  | main => rwa [PlayerState.summonAt_main, hmain] at hy
  | bench slot => rwa [PlayerState.summonAt_bench, hbench] at hy

/-- A position rewritten by what it held, or cleared. -/
theorem carries_setAt {p : Position} {v : Option SummonInstance}
    (h : ∀ y, v = some y → ∃ r x, ps.summonAt r = some x ∧ R r x p y) :
    ps.Carries R (ps.setAt p v) := by
  intro q y hy
  by_cases hq : q = p
  · subst hq
    rw [PlayerState.summonAt_setAt_self] at hy
    exact h y hy
  · rw [PlayerState.summonAt_setAt_of_ne _ _ _ hq] at hy
    exact ⟨q, y, hy, hstay q y⟩

theorem carries_write {p : Position} {x y : SummonInstance} (hx : ps.summonAt p = some x)
    (hxy : R p x p y) : ps.Carries R (ps.setAt p (some y)) := by
  refine carries_setAt hstay (fun z hz => ?_)
  cases hz
  exact ⟨p, x, hx, hxy⟩

theorem carries_exchange {slot : BenchSlot} {x y : SummonInstance} (hmain : ps.main = some x)
    (hbench : ps.bench.get slot = some y)
    (hR : R .main x (.bench slot) x ∧ R (.bench slot) y .main y) :
    ps.Carries R (exchange ps slot x y) := by
  intro p z hz
  cases p with
  | main =>
      cases hz
      exact ⟨.bench slot, y, hbench, hR.2⟩
  | bench r =>
      simp only [exchange, PlayerState.summonAt_bench] at hz
      by_cases hr : r = slot
      · subst hr
        rw [Bench.get_set_self] at hz
        cases hz
        exact ⟨.main, x, hmain, hR.1⟩
      · rw [Bench.get_set_of_ne _ hr] at hz
        exact ⟨.bench r, z, hz, hstay _ z⟩

/-- A benched Summon moved to Main. -/
theorem carries_promote {slot : BenchSlot} {x : SummonInstance}
    (hx : ps.bench.get slot = some x) (hR : R (.bench slot) x .main x) :
    ps.Carries R { ps with bench := ps.bench.set slot none, main := some x } := by
  intro p z hz
  cases p with
  | main =>
      cases hz
      exact ⟨.bench slot, x, hx, hR⟩
  | bench r =>
      simp only [PlayerState.summonAt_bench] at hz
      by_cases hr : r = slot
      · subst hr
        rw [Bench.get_set_self] at hz
        cases hz
      · rw [Bench.get_set_of_ne _ hr] at hz
        exact ⟨.bench r, z, hz, hstay _ z⟩

/-- A benched Summon moved to another slot. -/
theorem carries_moved {fromSlot toSlot : BenchSlot} {x : SummonInstance}
    (hx : ps.bench.get fromSlot = some x) (hR : R (.bench fromSlot) x (.bench toSlot) x) :
    ps.Carries R { ps with bench := (ps.bench.set fromSlot none).set toSlot (some x) } := by
  intro p y hy
  cases p with
  | main => exact ⟨.main, y, hy, hstay _ y⟩
  | bench r =>
      rw [PlayerState.summonAt_bench] at hy
      by_cases hto : r = toSlot
      · subst hto
        rw [Bench.get_set_self] at hy
        cases hy
        exact ⟨.bench fromSlot, x, hx, hR⟩
      · rw [Bench.get_set_of_ne _ hto] at hy
        by_cases hfrom : r = fromSlot
        · subst hfrom
          rw [Bench.get_set_self] at hy
          cases hy
        · rw [Bench.get_set_of_ne _ hfrom] at hy
          exact ⟨.bench r, y, hy, hstay _ y⟩

theorem carries_bank (ps : PlayerState) (t : ManaType) : ps.Carries R (Upkeep.bank ps t) := by
  cases t <;> exact carries_of_board hstay rfl rfl

end

end

/-! ## Steps that only move Summons -/

section
variable {R : PlayerId → BoardRel} {s t u : GameState} {es : List GameEvent}

theorem Carries.trans
    (hR : ∀ {c p x q y r z}, R c p x q y → R c q y r z → R c p x r z) (h : Carries R s t)
    (h' : Carries R t u) : Carries R s u :=
  fun q => (h q).trans hR (h' q)

section
variable (hstay : ∀ c p x, R c p x p x)
include hstay

theorem Carries.refl (s : GameState) : Carries R s s := fun _ => .refl (hstay _) _

theorem Carries.write {c : PlayerId} {ps : PlayerState} (h : (s.player c).Carries (R c) ps) :
    Carries R s (s.setPlayer c ps) := by
  intro q
  rw [GameState.player_setPlayer]
  split
  · rename_i hq
    rw [hq]
    exact h
  · exact .refl (hstay _) _

/-- One leaf, for a relation that allows what it does to the Summons it writes and moves. -/
theorem LeafStep.tracks {source : EffectSource} {targets : List Position} {leaf : EffectLeaf}
    (h : LeafStep s source targets leaf t es)
    (touched : ∀ {p x y}, SameSummon x y → Touch source.controller p x y es →
      R source.controller p x p y)
    (hurt : ∀ c p x d, R c p x p { x with damage := d })
    (moved : ∀ a b x, R source.controller (.bench a) x (.bench b) x)
    (exchanged : ∀ c slot x y, (leaf = .swapPositions ∧ c = source.controller ∨
      leaf = .swapOpposingPositions ∧ c = source.controller.opponent ∧
        x.durationMarkers.contains .cannotBeMovedByOpponent = false) →
      R c .main x (.bench slot) x ∧ R c (.bench slot) y .main y) : Carries R s t := by
  cases h with
  | quiet _ => exact .refl hstay s
  | touched hx same _ _ touch =>
      exact .write hstay (carries_write (hstay _) hx (touched same touch))
  | hit hx _ _ _ harm =>
      obtain ⟨d, rfl⟩ := harm
      exact Carries.write hstay (carries_write (hstay _) hx (hurt _ _ _ d))
  | zones hz _ => exact .write hstay (carries_of_board (hstay _) hz.main hz.bench)
  | drewOut hz _ => exact Carries.write hstay (carries_of_board (hstay _) hz.main hz.bench)
  | moved _ hfrom _ _ => exact Carries.write hstay (carries_moved (hstay _) hfrom (moved _ _ _))
  | exchanged hmain hbench hleaf _ =>
      exact Carries.write hstay
        (carries_exchange (hstay _) hmain hbench (exchanged _ _ _ _ hleaf))
  | produced _ _ => exact .write hstay (carries_bank (hstay _) _ _)
  | paused _ _ => exact .refl hstay s

theorem markMainEntry_carries
    (entered : ∀ c p x, R c p x p { x with turn := { x.turn with mainEntry := some .mk } })
    (s : GameState) (step : MovementStep) (c : PlayerId) (p : Position) :
    Carries R s (Triggers.markMainEntry s step c p) := by
  unfold Triggers.markMainEntry
  split
  · rename_i x hx
    have hentered (y : SummonInstance) (hy : R c .main x .main y) :
        (s.player c).Carries (R c) { s.player c with main := some y } :=
      carries_write (p := .main) (hstay _) hx hy
    exact .write hstay (hentered _ (entered c .main x))
  · exact .refl hstay s

/-- Discarding takes a Summon off a board and puts none on one. -/
theorem discardSummon_carries (s : GameState) (c : PlayerId) (p : Position) (x : SummonInstance) :
    Carries R s (Destruction.discardSummon s c p x) := by
  intro q
  rw [discardSummon_player]
  split
  · intro r y hy
    obtain ⟨r', z, hz, hzy⟩ :=
      (carries_of_board (hstay q) rfl rfl : ((s.player q).setAt p none).Carries (R q) _) r y hy
    by_cases hr : r' = p
    · subst hr
      rw [PlayerState.summonAt_setAt_self] at hz
      cases hz
    · rw [PlayerState.summonAt_setAt_of_ne _ _ _ hr] at hz
      exact ⟨r', z, hz, hzy⟩
  · exact carries_of_board (hstay _) rfl rfl

/-- A work item, for a relation that allows its readying, its promotion or the leaves it runs. -/
theorem ItemStep.tracks {item : WorkItem} (h : ItemStep s item t es)
    (entered : ∀ c p x, R c p x p { x with turn := { x.turn with mainEntry := some .mk } })
    (readied : ∀ p x, es = (Upkeep.readyAll s).2 →
      (s.player s.turn.activePlayer).summonAt p = some x →
        R s.turn.activePlayer p x p (Upkeep.readySummon x))
    (fired : ∀ c p ev ability effects es', item = .fireTrigger c p ev ability →
      Triggers.abilityAt s c p ability = some (false, effects) →
        applyLeaves s (.trigger c p ability) (Triggers.implicitTargets p effects) effects =
          (t, es') → Carries R s t)
    (promoted : ∀ c slot x, item = .promoteBenchSummon c → R c (.bench slot) x .main x) :
    Carries R s t := by
  cases h with
  | readied => exact .write hstay (carries_map (fun p x => readied p x rfl))
  | drew _ => exact .write hstay (carries_of_board (hstay _) rfl rfl)
  | produced _ => exact .write hstay (carries_bank (hstay _) _ _)
  | discarded _ _ => exact discardSummon_carries hstay s _ _ _
  | lossRecorded => exact .write hstay (carries_of_board (hstay _) rfl rfl)
  | promoted _ hx => exact .write hstay (carries_promote (hstay _) hx (promoted _ _ _ rfl))
  | movement => exact markMainEntry_carries hstay entered s _ _ _
  | fired ha hl => exact fired _ _ _ _ _ _ rfl ha hl
  | _ => exact fun _ => .refl (hstay _) _

theorem placeItem_carries (s : GameState) (item : StackItem) : Carries R s (placeItem s item) := by
  intro q
  rcases placeItem_player s item q with h | ⟨_, _, _, _, _, h | h⟩
  · rw [h]
    exact .refl (hstay _) _
  · rw [h]
    exact carries_of_board (hstay _) rfl rfl
  · rw [h]
    exact carries_of_board (hstay _) rfl rfl

/-- An action, a play and an upgrade apart, for a relation that allows what a Skill, a handover, a
Retreat and a promotion do. -/
theorem ActionStep.tracks {a : GameAction} (h : ActionStep s a t es)
    (hplay : ∀ c card slot, a ≠ .playSummon c card slot)
    (hupgrade : ∀ c card p, a ≠ .upgradeSummon c card p)
    (skill : ∀ c p ability targets hint, a = .activateSkill c p ability targets hint →
      Carries R s t)
    (renewed : ∀ p, .turnBegan p ∈ es → p = s.turn.activePlayer.opponent →
      ∀ q r x, R q r x r (renew s.turn.activePlayer q x))
    (retreated : ∀ c slot hint x y, a = .retreat c slot hint →
      R c .main x (.bench slot) x ∧ R c (.bench slot) y .main y)
    (promoted : ∀ c slot x, a = .choosePromotion c slot → R c (.bench slot) x .main x) :
    Carries R s t := by
  cases h with
  | played _ _ _ _ _ _ => exact absurd rfl (hplay _ _ _)
  | upgraded _ _ _ _ _ _ _ _ _ _ => exact absurd rfl (hupgrade _ _ _)
  | cast _ _ _ _ _ _ =>
      exact .write (s := castBegun s _ _ _) hstay (carries_of_board (hstay _) rfl rfl)
  | skill _ _ _ _ _ _ _ _ => exact skill _ _ _ _ _ rfl
  | @retreated c slot hint x y _ payment _ hmain hbench _ =>
      refine Carries.write (s := ({ s with turn := _ } : GameState)) hstay ?_
      have hexchange : ({ s.player c with mana := payment.bank } : PlayerState).Carries (R c)
          (exchange { s.player c with mana := payment.bank } slot x y) :=
        carries_exchange (hstay _) hmain hbench (retreated _ _ _ _ _ rfl)
      exact hexchange
  | attacked _ _ _ _ _ =>
      exact .write (s := attackBegun s _ _) hstay (carries_of_board (hstay _) rfl rfl)
  | handedOver _ _ _ =>
      intro q
      rw [handover_player_eq]
      exact carries_map (fun p x _ =>
        renewed _ (List.mem_cons_of_mem _ List.mem_cons_self) rfl q p x)
  | converted _ _ _ _ =>
      exact .write (s := ({ s with coin := none } : GameState)) hstay (carries_bank (hstay _) _ _)
  | manaChosen _ _ =>
      exact .write (s := ({ s with pending := none } : GameState)) hstay
        (carries_bank (hstay _) _ _)
  | promotionChosen _ hx =>
      exact .write (s := ({ s with pending := none } : GameState)) hstay
        (carries_promote (hstay _) hx (promoted _ _ _ rfl))
  | prizeChosen _ _ =>
      exact .write (s := ({ s with pending := none } : GameState)) hstay
        (carries_of_board (hstay _) rfl rfl)
  | _ => exact fun _ => .refl (hstay _) _

/-- The payment and the exhaustion a Skill begins with. -/
theorem skillBegun_carries {c : PlayerId} {p : Position} {x : SummonInstance} (bank : ManaBank)
    (hx : (s.player c).summonAt p = some x) (exhausted : R c p x p (Skills.exhaust x)) :
    Carries R s (skillBegun s c p bank x) := by
  refine .write hstay (fun q y hy => ?_)
  have hx' : ({ s.player c with mana := bank } : PlayerState).summonAt p = some x := by
    cases p <;> exact hx
  obtain ⟨r, z, hz, hzy⟩ := carries_write (hstay c) hx' exhausted q y hy
  refine ⟨r, z, ?_, hzy⟩
  cases r <;> exact hz

end

/-! ## Relations that allow every move -/

section
variable (hmoves : ∀ c p x q, R c p x q x)
include hmoves

theorem LeafStep.carries {source : EffectSource} {targets : List Position} {leaf : EffectLeaf}
    (h : LeafStep s source targets leaf t es)
    (touched : ∀ {p x y}, SameSummon x y → Touch source.controller p x y es →
      R source.controller p x p y)
    (hurt : ∀ c p x d, R c p x p { x with damage := d }) : Carries R s t :=
  h.tracks (fun c p x => hmoves c p x p) touched hurt (fun _ _ _ => hmoves _ _ _ _)
    (fun _ _ _ _ _ => ⟨hmoves _ _ _ _, hmoves _ _ _ _⟩)

theorem ItemStep.carries {item : WorkItem} (h : ItemStep s item t es)
    (entered : ∀ c p x, R c p x p { x with turn := { x.turn with mainEntry := some .mk } })
    (readied : ∀ p x, es = (Upkeep.readyAll s).2 →
      (s.player s.turn.activePlayer).summonAt p = some x →
        R s.turn.activePlayer p x p (Upkeep.readySummon x))
    (fired : ∀ c p ev ability effects es', item = .fireTrigger c p ev ability →
      Triggers.abilityAt s c p ability = some (false, effects) →
        applyLeaves s (.trigger c p ability) (Triggers.implicitTargets p effects) effects =
          (t, es') → Carries R s t) : Carries R s t :=
  h.tracks (fun c p x => hmoves c p x p) entered readied fired (fun _ _ _ _ => hmoves _ _ _ _)

theorem ActionStep.carries {a : GameAction} (h : ActionStep s a t es)
    (hplay : ∀ c card slot, a ≠ .playSummon c card slot)
    (hupgrade : ∀ c card p, a ≠ .upgradeSummon c card p)
    (skill : ∀ c p ability targets hint, a = .activateSkill c p ability targets hint →
      Carries R s t)
    (renewed : ∀ p, .turnBegan p ∈ es → p = s.turn.activePlayer.opponent →
      ∀ q r x, R q r x r (renew s.turn.activePlayer q x)) : Carries R s t :=
  h.tracks (fun c p x => hmoves c p x p) hplay hupgrade skill renewed
    (fun _ _ _ _ _ _ => ⟨hmoves _ _ _ _, hmoves _ _ _ _⟩) (fun _ _ _ _ => hmoves _ _ _ _)

end

/-! ## The drain -/

/-- What a relation has to allow to be carried over every step of the drain. -/
structure Persistent (R : PlayerId → BoardRel) : Prop where
  moves : ∀ c p x q, R c p x q x
  trans : ∀ {c p x q y r z}, R c p x q y → R c q y r z → R c p x r z
  touched : ∀ {c p x y es}, SameSummon x y → Touch c p x y es → R c p x p y
  hurt : ∀ c p x d, R c p x p { x with damage := d }
  readied : ∀ c p x, R c p x p (Upkeep.readySummon x)
  entered : ∀ c p x, R c p x p { x with turn := { x.turn with mainEntry := some .mk } }

theorem Persistent.stay (hR : Persistent R) (c : PlayerId) (p : Position) (x : SummonInstance) :
    R c p x p x := hR.moves c p x p

theorem persistent_same : Persistent (anywhere SameSummon) where
  moves _ _ x _ := .refl x
  trans h h' := SameSummon.trans h h'
  touched same _ := same
  hurt _ _ _ _ := ⟨rfl, rfl, rfl⟩
  readied _ _ _ := ⟨rfl, rfl, rfl⟩
  entered _ _ _ := ⟨rfl, rfl, rfl⟩

theorem persistent_persists : Persistent (anywhere Persists) where
  moves _ _ x _ := .refl x
  trans h h' := Persists.trans h h'
  touched {_ _ _ _ _} same touch := by
    refine ⟨same, by rw [touch.turn], by rw [touch.turn]; exact id, touch.markers, fun hx => ?_⟩
    rcases touch.readiness with hr | ⟨hr, -⟩
    · rw [hr]
      exact hx
    · exact hr
  hurt _ _ _ _ := ⟨⟨rfl, rfl, rfl⟩, rfl, id, fun _ hm => hm, id⟩
  readied _ _ _ := ⟨⟨rfl, rfl, rfl⟩, rfl, id, fun _ hm => hm, fun _ => rfl⟩
  entered _ _ _ := ⟨⟨rfl, rfl, rfl⟩, rfl, fun _ => rfl, fun _ hm => hm, id⟩

section
variable (hR : Persistent R)
include hR

theorem applyLeaves_carries {source : EffectSource} {targets : List Position}
    {leaves : List EffectLeaf} (h : applyLeaves s source targets leaves = (t, es))
    (hs : s.status = .playing) : Carries R s t :=
  applyLeaves_rel (R := fun s _ t => Carries R s t) h hs (Carries.refl hR.stay)
    (fun _ h h' => h.trans hR.trans h') (fun _ _ h => h.carries hR.moves hR.touched hR.hurt)

/-- **The drain carries** every relation it can. -/
theorem drainStep_carries (h : Resolution.drainStep s = some (t, es)) : Carries R s t := by
  obtain ⟨hd, ⟨item, u, es', hst, rfl⟩ | ⟨-, item, work, -, hi⟩⟩ := drainStep_cases h
  · rw [hst.result]
    have hleaves := applyLeaves_carries hR hst.leaves hd.playing
    intro q
    rw [closeSegment_player]
    exact (hleaves q).trans hR.trans (placeItem_carries hR.stay u item q)
  · exact hi.carries (s := poppedWork s work) hR.moves hR.entered (fun _ _ _ _ => hR.readied _ _ _)
      (fun _ _ _ _ _ _ _ _ hl => applyLeaves_carries hR hl hd.playing)

/-- So does a Skill, if the relation allows the exhaustion. -/
theorem ActionStep.carries_skill {c : PlayerId} {p : Position} {ability : EntityId}
    {targets : List Position} {hint : Option ManaType}
    (h : ActionStep s (.activateSkill c p ability targets hint) t es) (hs : s.status = .playing)
    (exhausted : ∀ c p x, R c p x p (Skills.exhaust x)) : Carries R s t := by
  cases h with
  | skill _ hx _ _ _ _ _ hl =>
      exact (skillBegun_carries hR.stay _ hx (exhausted _ _ _)).trans hR.trans
        (applyLeaves_carries hR hl hs)

end

/-! ## The same Summons -/

theorem descends_of_board {ps qs : PlayerState} (hmain : qs.main = ps.main)
    (hbench : qs.bench = ps.bench) : ps.Descends qs :=
  carries_of_board (R := fun _ x _ y => SameSummon x y) (fun _ x => .refl x) hmain hbench

theorem drainStep_descends (h : Resolution.drainStep s = some (t, es)) : Descends s t :=
  drainStep_carries persistent_same h

/-- An action leaves the Summons there were on the boards, a play and an upgrade apart. -/
theorem ActionStep.descends {a : GameAction} (h : ActionStep s a t es) (hs : s.status = .playing)
    (hplay : ∀ c card slot, a ≠ .playSummon c card slot)
    (hupgrade : ∀ c card p, a ≠ .upgradeSummon c card p) : Descends s t :=
  h.carries persistent_same.moves hplay hupgrade
    (fun c p ability targets hint ha => by
      subst ha
      exact h.carries_skill persistent_same hs (fun _ _ _ => ⟨rfl, rfl, rfl⟩))
    (fun _ _ _ q _ x => (renew_same _ q x).1)

/-! ## A property of every Summon -/

/-- `P` holds of every Summon in play and the player on whose board it stands. -/
def EachSummon (P : PlayerId → SummonInstance → Prop) (s : GameState) : Prop :=
  ∀ q p x, (s.player q).summonAt p = some x → P q x

/-- A property that stays with a Summon, and that one has that is played or upgraded. -/
structure Inherited (cards : CardSet) (P : PlayerId → SummonInstance → Prop) : Prop where
  same : ∀ {q : PlayerId} {x y : SummonInstance}, SameSummon x y → P q x → P q y
  played : ∀ {q : PlayerId} {card : CardRef} {entity : Entity},
    cards.get card.defId = some entity → family entity = .summon →
      entity.get .form = some .base → P q (Board.enteringSummon q card)
  upgraded : ∀ {q : PlayerId} {x : SummonInstance} {card : CardRef} {entity top : Entity}
    {newForm topForm : Form}, P q x → cards.get card.defId = some entity →
      family entity = .summon → entity.get .form = some newForm →
      cards.get x.chain.top.defId = some top → top.get .form = some topForm →
      Board.upgradeAllowed entity top newForm topForm = true → P q (Board.upgraded x card)

section
variable {P : PlayerId → SummonInstance → Prop}

theorem EachSummon.descends {cards : CardSet} (h : EachSummon P s) (hP : Inherited cards P)
    (hd : Descends s t) : EachSummon P t := by
  intro q p y hy
  obtain ⟨r, x, hx, same⟩ := hd q p y hy
  exact hP.same same (h q r x hx)

/-- One position of one board written, the rest of that player's zones aside. -/
theorem EachSummon.place {cards : CardSet} {c : PlayerId} {p : Position} {x : SummonInstance}
    {ps : PlayerState} (h : EachSummon P s) (hP : Inherited cards P) (hx : P c x)
    (hps : (s.player c).Descends ps) : EachSummon P (s.setPlayer c (ps.setAt p (some x))) := by
  intro q r y hy
  by_cases hq : q = c
  · subst hq
    rw [GameState.player_setPlayer_self] at hy
    by_cases hr : r = p
    · subst hr
      rw [PlayerState.summonAt_setAt_self] at hy
      cases hy
      exact hx
    · rw [PlayerState.summonAt_setAt_of_ne _ _ _ hr] at hy
      obtain ⟨r', z, hz, same⟩ := hps r y hy
      exact hP.same same (h q r' z hz)
  · rw [GameState.player_setPlayer_of_ne _ _ _ hq] at hy
    exact h q r y hy

theorem EachSummon.action {a : GameAction} (h : EachSummon P s) (hP : Inherited s.cards P)
    (hs : s.status = .playing) (ha : ActionStep s a t es) : EachSummon P t := by
  by_cases hplay : ∃ c card slot, a = .playSummon c card slot
  · obtain ⟨c, card, slot, rfl⟩ := hplay
    cases ha with
    | @played _ _ _ cardRef hand _ _ _ _ hcard hfamily hform =>
        have htaken : (s.player c).Descends { s.player c with hand := hand } :=
          descends_of_board rfl rfl
        exact h.place (p := .bench slot) hP (hP.played hcard hfamily hform) htaken
  · by_cases hupgrade : ∃ c card p, a = .upgradeSummon c card p
    · obtain ⟨c, card, p, rfl⟩ := hupgrade
      cases ha with
      | upgraded _ hx _ _ hcard hfamily hform htop htopForm hallowed =>
          exact h.place hP
            (hP.upgraded (h c p _ hx) hcard hfamily hform htop htopForm hallowed)
            (descends_of_board rfl rfl)
    · simp only [not_exists] at hplay hupgrade
      exact h.descends hP (ha.descends hs hplay hupgrade)

/-- What every Summon of a scenario has, every Summon has in every state of its runs. -/
theorem Opening.run_each {cards : CardSet} {start : GameState}
    {tr : List (Entry GameState GameAction GameEvent)} (h : Opening cards start)
    (hP : Inherited cards P) (hstart : EachSummon P start) (hr : engine.Run start tr s) :
    EachSummon P s ∧ s.cards = cards := by
  refine hr.invariant (I := fun s => EachSummon P s ∧ s.cards = cards) (G := fun _ => True) h.rest
    ⟨hstart, h.cards⟩ ?_ ?_ (by simp)
  · rintro s t a es ⟨he, hcards⟩ _ ha _
    obtain ⟨hs, hst, -⟩ := accept_step ha
    refine ⟨he.action (by rw [hcards]; exact hP) hs hst, ?_⟩
    rw [hst.cards hs, hcards]
  · rintro s t es ⟨he, hcards⟩ hn _
    refine ⟨he.descends hP (drainStep_descends hn), ?_⟩
    rw [drainStep_cards hn, hcards]

end

/-! ## Ownership -/

/-- Every Summon stands on its owner's board. -/
def Owned (s : GameState) : Prop :=
  ∀ q p x, (s.player q).summonAt p = some x → x.owner = q ∧ x.controller = q

theorem inherited_owner (cards : CardSet) :
    Inherited cards (fun q x => x.owner = q ∧ x.controller = q) where
  same same hx := by
    rw [same.owner, same.controller]
    exact hx
  played _ _ _ := ⟨rfl, rfl⟩
  upgraded hx _ _ _ _ _ _ := ⟨hx.1, hx.2⟩

theorem Owned.descends (h : Owned s) (hd : Descends s t) : Owned t :=
  EachSummon.descends h (inherited_owner s.cards) hd

theorem Owned.action {a : GameAction} (h : Owned s) (hs : s.status = .playing)
    (ha : ActionStep s a t es) : Owned t :=
  EachSummon.action h (inherited_owner s.cards) hs ha

/-- Every state before a step of a run from a scenario, and the last one, has each Summon on its
owner's board. -/
theorem Opening.run_owned {cards : CardSet} {start : GameState}
    {tr : List (Entry GameState GameAction GameEvent)} (h : Opening cards start)
    (hr : engine.Run start tr s) : Owned s :=
  (h.run_each (inherited_owner cards) h.owner hr).1

end

end Summoners
