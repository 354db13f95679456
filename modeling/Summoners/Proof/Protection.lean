import Summoners.Proof.Moments
import Summoners.Proof.TurnLimits

/-! # Protection from the opponent

A mark is set by a leaf of the Summon's controller, travels with the Summon and goes where its
controller's next turn begins. What an opponent's handler writes is the opponent's own board, and an
opponent's leaf that moves a Summon looks for the mark on the one in Main. A marked Summon is displaced
by its own side, by a promotion, or from the Bench by an opposing exchange.
-/

namespace Summoners
set_option autoImplicit false

open Effects RunToCompletion

def SummonInstance.Marked (x : SummonInstance) : Prop :=
  .cannotBeMovedByOpponent ∈ x.durationMarkers

instance (x : SummonInstance) : Decidable x.Marked :=
  inferInstanceAs (Decidable (_ ∈ x.durationMarkers))

/-- The steps that bring a benched Summon of `q` to Main because Main is, or was, empty. -/
def Promotes (x : Entry GameState GameAction GameEvent) (q : PlayerId) : Prop :=
  (∃ slot, x.input = some (.choosePromotion q slot)) ∨ executes x = some (.promoteBenchSummon q)

/-- What takes a marked Summon of `q` from `p` to `r` in a moment: a leaf of `q`, a Retreat of `q`, a
promotion, or from the Bench an opposing exchange. -/
def Displaces (x : Entry GameState GameAction GameEvent) (m : Moment) (q : PlayerId)
    (p r : Position) : Prop :=
  (∃ source leaf, m.cause = some (source, leaf) ∧ source.controller = q) ∨
    (m.cause = none ∧ ∃ slot hint, x.input = some (.retreat q slot hint)) ∨
    (m.cause = none ∧ p ≠ .main ∧ r = .main ∧ Promotes x q) ∨
    ∃ source, m.cause = some (source, .swapOpposingPositions) ∧ source.controller = q.opponent ∧
      p ≠ .main ∧ r = .main

/-- What a moment leaves of a Summon: its base, its mark unless its controller's turn begins, and where
it is marked its position too unless something displaces it. -/
def Guarded (x : Entry GameState GameAction GameEvent) (m : Moment) : PlayerId → BoardRel :=
  fun q p y r z => z.base = y.base ∧ (y.Marked → .turnBegan q ∉ m.emitted → z.Marked) ∧
    (y.Marked → r ≠ p → Displaces x m q p r)

section
variable {s t u v : GameState} {es : List GameEvent} {m : Moment} {q : PlayerId} {p r : Position}
  {y z : SummonInstance} {i : CardInstanceId}
  {tr pre mid : List (Entry GameState GameAction GameEvent)}
  {x : Entry GameState GameAction GameEvent}

/-! ## Where a marked Summon goes -/

theorem guarded_stay (c : PlayerId) (p : Position) (y z : SummonInstance) (hbase : z.base = y.base)
    (hmarks : z.durationMarkers = y.durationMarkers) : Guarded x m c p y p z := by
  refine ⟨hbase, fun hm _ => ?_, fun _ hne => absurd rfl hne⟩
  unfold SummonInstance.Marked at hm ⊢
  rwa [hmarks]

theorem guarded_move (h : y.Marked → Displaces x m q p r) : Guarded x m q p y r y :=
  ⟨rfl, fun hm _ => hm, fun hm _ => h hm⟩

theorem LeafStep.guarded {source : EffectSource} {targets : List Position} {leaf : EffectLeaf}
    (hcause : m.cause = some (source, leaf)) (h : LeafStep s source targets leaf t m.emitted) :
    Carries (Guarded x m) s t := by
  refine h.tracks (fun c p y => guarded_stay c p y y rfl rfl) (fun {p y z} same touch => ?_)
    (fun c p y d => guarded_stay c p y _ rfl rfl) (fun a b y => ?_) (fun c slot y z hleaf => ?_)
  · exact ⟨same.base, fun hm _ => touch.markers _ hm, fun _ hne => absurd rfl hne⟩
  · exact guarded_move (fun _ => .inl ⟨source, leaf, hcause, rfl⟩)
  · rcases hleaf with ⟨-, rfl⟩ | ⟨rfl, rfl, hfree⟩
    · have hown : ∀ p r, Displaces x m source.controller p r :=
        fun _ _ => .inl ⟨source, leaf, hcause, rfl⟩
      exact ⟨guarded_move (fun _ => hown _ _), guarded_move (fun _ => hown _ _)⟩
    · refine ⟨guarded_move (fun hm => ?_), guarded_move (fun _ => ?_)⟩
      · have hmarked : y.durationMarkers.contains .cannotBeMovedByOpponent = true :=
          List.contains_iff_mem.mpr hm
        rw [hfree] at hmarked
        cases hmarked
      · exact .inr (.inr (.inr ⟨source, hcause, (PlayerId.opponent_opponent _).symm, by simp, rfl⟩))

theorem ItemStep.guarded {item : WorkItem} (hcause : m.cause = none) (hitem : executes x = some item)
    (h : ItemStep s item t m.emitted)
    (hfire : ∀ c p ev ability effects, item = .fireTrigger c p ev ability →
      Triggers.abilityAt s c p ability ≠ some (false, effects)) : Carries (Guarded x m) s t := by
  refine h.tracks (fun c p y => guarded_stay c p y y rfl rfl)
    (fun c p y => guarded_stay c p y _ rfl rfl) (fun p y _ _ => guarded_stay _ p y _ rfl rfl)
    (fun c p ev ability effects es' heq ha => absurd ha (hfire c p ev ability effects heq))
    (fun c slot y heq => guarded_move (fun _ => ?_))
  rw [heq] at hitem
  exact .inr (.inr (.inl ⟨hcause, by simp, rfl, .inr hitem⟩))

theorem ActionStep.guarded {a : GameAction} (hcause : m.cause = none) (hinput : x.input = some a)
    (h : ActionStep s a t m.emitted) (hplay : ∀ c card slot, a ≠ .playSummon c card slot)
    (hupgrade : ∀ c card p, a ≠ .upgradeSummon c card p)
    (hskill : ∀ c p ability targets hint, a ≠ .activateSkill c p ability targets hint) :
    Carries (Guarded x m) s t := by
  refine h.tracks (fun c p y => guarded_stay c p y y rfl rfl) hplay hupgrade
    (fun c p ability targets hint ha => absurd ha (hskill c p ability targets hint))
    (fun p hp heq q r y => ?_) (fun c slot hint y z ha => ?_) (fun c slot y ha => ?_)
  · unfold renew
    split
    · exact guarded_stay q r y _ rfl rfl
    · -- the marks that go are those of the player whose turn begins
      rename_i hq
      have hbegins : q = p := by
        rcases PlayerId.eq_or_eq_opponent s.turn.activePlayer q with hq' | hq'
        · exact absurd hq' hq
        · rw [hq', heq]
      subst hbegins
      exact ⟨rfl, fun _ hnone => absurd hp hnone, fun _ hne => absurd rfl hne⟩
  · subst ha
    have hretreat : ∀ p r, Displaces x m c p r :=
      fun _ _ => .inr (.inl ⟨hcause, slot, hint, hinput⟩)
    exact ⟨guarded_move (fun _ => hretreat _ _), guarded_move (fun _ => hretreat _ _)⟩
  · subst ha
    exact guarded_move (fun _ => .inr (.inr (.inl ⟨hcause, by simp, rfl, .inl ⟨slot, hinput⟩⟩)))

theorem MomentStep.guarded (h : MomentStep x m) (hz : (m.after.player q).summonAt r = some z) :
    (∃ p y, (m.before.player q).summonAt p = some y ∧ Guarded x m q p y r z) ∨
      ∃ card ∈ (m.before.player q).hand, z = Board.enteringSummon q card :=
  h.tracks (fun c p y => guarded_stay c p y y rfl rfl) (fun _ _ _ hcause hleaf => hleaf.guarded hcause)
    (fun c p _ _ _ y _ _ => guarded_stay c p y _ rfl rfl)
    (fun c _ p y _ _ _ => guarded_stay c p y _ rfl rfl)
    (fun _ hinput hcause hst hplay hupgrade hskill =>
      hst.guarded hcause hinput hplay hupgrade hskill)
    (fun _ _ hitem hcause hi hfire => hi.guarded hcause hitem hfire) hz

/-- A marked Summon, followed by its base through one moment. -/
theorem Within.guarded (h : Within x m) (hd : Distinct x.before) {q' : PlayerId}
    (hy : (m.before.player q).summonAt p = some y) (hm : y.Marked)
    (hz : (m.after.player q').summonAt r = some z) (hbase : z.base = y.base) :
    q' = q ∧ (.turnBegan q ∉ m.emitted → z.Marked) ∧ (r ≠ p → Displaces x m q p r) := by
  have hdistinct : Distinct m.before := nodup_of_tally_le hd h.cards
  rcases h.step.guarded hz with ⟨p', y', hy', hb, hmark, hmove⟩ | ⟨card, hcard, rfl⟩
  · obtain ⟨rfl, rfl⟩ := hdistinct.position_eq hy' hy (hb.symm.trans hbase)
    obtain rfl : y' = y := by
      rw [hy] at hy'
      exact (Option.some.inj hy').symm
    exact ⟨rfl, hmark hm, hmove hm⟩
  · have hstock : card ∈ (m.before.player q').deck ++ (m.before.player q').hand ++
        (m.before.player q').prizes := by simp [hcard]
    exact absurd hbase.symm (hdistinct.base_ne hy hstock)

/-! ## What the opponent leaves in its place -/

/-- A Summon keeps its base, and its mark too where it is `q`'s. -/
def KeepsMark (q : PlayerId) : PlayerId → BoardRel := fun c _ y _ z =>
  z.base = y.base ∧ (c = q → y.Marked → z.Marked)

theorem persistent_mark (q : PlayerId) : Persistent (KeepsMark q) where
  moves _ _ _ _ := ⟨rfl, fun _ hm => hm⟩
  trans h h' := ⟨h'.1.trans h.1, fun hc hm => h'.2 hc (h.2 hc hm)⟩
  touched same touch := ⟨same.base, fun _ hm => touch.markers _ hm⟩
  hurt _ _ _ _ := ⟨rfl, fun _ hm => hm⟩
  readied _ _ _ := ⟨rfl, fun _ hm => hm⟩
  entered _ _ _ := ⟨rfl, fun _ hm => hm⟩

/-- The Summon of that base is a marked one of `q` where it is in play, and no card to be played. -/
structure Sealed (q : PlayerId) (i : CardInstanceId) (s : GameState) : Prop where
  marked : ∀ r p y, (s.player r).summonAt p = some y → y.base = i → r = q ∧ y.Marked
  gone : ¬Playable s i

theorem sealed_of_marked (hd : Distinct s) (hy : (s.player q).summonAt p = some y)
    (hm : y.Marked) : Sealed q y.base s := by
  refine ⟨fun r p' z hz hbase => ?_, fun ⟨card, hcard, _, r, hr⟩ => hd.base_ne hy hr hcard.symm⟩
  obtain ⟨rfl, rfl⟩ := hd.position_eq hz hy hbase
  rw [hy] at hz
  obtain rfl := Option.some.inj hz
  exact ⟨rfl, hm⟩

theorem Sealed.carries (h : Sealed q i s) (hc : Carries (KeepsMark q) s t) (ht : Thinned s t) :
    Sealed q i t := by
  refine ⟨fun r p z hz hbase => ?_, fun ⟨card, hcard, hstock⟩ =>
    h.gone ⟨card, hcard, ht.stocked hstock⟩⟩
  obtain ⟨p', y, hy, hb, hmark⟩ := hc r p z hz
  obtain ⟨rfl, hm⟩ := h.marked r p' y hy (hb.symm.trans hbase)
  exact ⟨rfl, hmark rfl hm⟩

theorem Sealed.action {a : GameAction} (h : Sealed q i s) (hs : s.status = .playing)
    (hst : ActionStep s a t es) (hnone : .turnBegan q ∉ es) : Sealed q i t := by
  have hthin := hst.thins hs
  have hgone : ¬Playable t i := fun ⟨card, hcard, hstock⟩ =>
    h.gone ⟨card, hcard, hthin.stocked hstock⟩
  by_cases hplay : ∃ c card slot, a = .playSummon c card slot
  · obtain ⟨c, card, slot, rfl⟩ := hplay
    cases hst with
    | @played _ _ _ ref hand entity _ _ hhand hcard hfamily _ =>
        refine ⟨fun r p z hz hbase => ?_, hgone⟩
        obtain ⟨rfl, rfl, rfl⟩ | ⟨-, hz⟩ :=
          summonAt_placed (p := .bench slot) (summonAt_hand (s.player c) hand) hz
        · -- the card was in a hand, where no sealed card is
          refine absurd ⟨ref, hbase, ?_, r, ?_⟩ h.gone
          · unfold isSpell
            rw [hcard]
            simp [hfamily]
          · simp [PlayerState.stock, hhand.mem.1]
        · exact h.marked r p z hz hbase
  · by_cases hupgrade : ∃ c card p, a = .upgradeSummon c card p
    · obtain ⟨c, card, p, rfl⟩ := hupgrade
      cases hst with
      | @upgraded _ _ _ y ref hand _ _ _ _ _ hy _ _ _ _ _ _ _ _ =>
          refine ⟨fun r p' z hz hbase => ?_, hgone⟩
          obtain ⟨rfl, rfl, rfl⟩ | ⟨-, hz⟩ :=
            summonAt_placed (summonAt_hand (s.player c) hand) hz
          · exact h.marked r p' y hy hbase
          · exact h.marked r p' z hz hbase
    · simp only [not_exists] at hplay hupgrade
      refine h.carries (hst.carries (persistent_mark q).moves hplay hupgrade
        (fun c p ability targets hint ha => ?_) (fun r hr heq c p y => ?_)) hthin
      · subst ha
        exact hst.carries_skill (persistent_mark q) hs (fun _ _ _ => ⟨rfl, fun _ hm => hm⟩)
      · refine ⟨(renew_same _ c y).1.base, fun hc hm => ?_⟩
        subst hc
        unfold renew
        split
        · exact hm
        · rename_i hne
          have hr' : r = c := by
            rw [heq]
            exact (PlayerId.eq_or_eq_opponent s.turn.activePlayer c).resolve_left hne |>.symm
          rw [hr'] at hr
          exact absurd hr hnone

theorem Sealed.takes (h : Sealed q i x.before) (hx : engine.Takes x t)
    (hnone : .turnBegan q ∉ x.emitted) : Sealed q i t := by
  cases hinput : x.input with
  | none =>
      have hn := hx.next hinput
      exact h.carries (drainStep_carries (persistent_mark q) hn) (drainStep_thins hn)
  | some a =>
      obtain ⟨hs, hst, -⟩ := accept_step (hx.accept hinput)
      exact h.action hs hst hnone

/-- What a run keeps: a Summon marked before a step is sealed since, until its player's turn begins. -/
structure Shielded (tr : List (Entry GameState GameAction GameEvent)) (s : GameState) : Prop where
  distinct : Distinct s
  marks : ∀ pre y mid q p w, tr = pre ++ y :: mid → (y.before.player q).summonAt p = some w →
    w.Marked → .turnBegan q ∉ facts (y :: mid) → Sealed q w.base s

theorem Shielded.step (h : Shielded tr x.before) (hx : engine.Takes x t) (hd : Distinct t) :
    Shielded (tr ++ [x]) t := by
  refine ⟨hd, fun pre y mid q p w heq hw hm hnone => ?_⟩
  rcases List.eq_nil_or_concat mid with rfl | ⟨front, last, rfl⟩
  · obtain ⟨-, hlast⟩ := List.append_inj' heq rfl
    cases hlast
    exact (sealed_of_marked h.distinct hw hm).takes hx (by simpa using hnone)
  · rw [List.concat_eq_append] at heq hnone
    rw [← List.cons_append, ← List.append_assoc] at heq
    obtain ⟨htr, hlast⟩ := List.append_inj' heq rfl
    cases hlast
    rw [← List.cons_append, facts_append, List.mem_append, not_or] at hnone
    exact (h.marks pre y front q p w htr hw hm hnone.1).takes hx (by simpa using hnone.2)

end

end Summoners
