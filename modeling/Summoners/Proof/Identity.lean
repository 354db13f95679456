import Mathlib.Data.List.Nodup
import Summoners.Proof.Conservation

/-! # One instance in one place

A parsed scenario holds every instance once and no step gains a card, so wherever a run passes an
instance is in one zone at most. A Summon is therefore followed by the base card of its chain: no two
positions show the same one, and a card in a hand is the base of no Summon.
-/

namespace Summoners
set_option autoImplicit false

open RunToCompletion

/-- The base card a Summon is followed by. -/
def SummonInstance.base (x : SummonInstance) : CardInstanceId := x.chain.base.instanceId

theorem SameSummon.base {x y : SummonInstance} (h : SameSummon x y) : y.base = x.base := by
  unfold SummonInstance.base
  rw [h.chain]

/-- No instance is in two places. -/
def Distinct (s : GameState) : Prop := (s.cardRefs.map (·.instanceId)).Nodup

section
variable {s t : GameState} {es : List GameEvent} {q r : PlayerId} {p p' : Position}
  {x y : SummonInstance}

/-! ## Counting one card -/

theorem chainCount_le_tally {ps : PlayerState} (card : CardRef) (hx : ps.summonAt p = some x) :
    chainCount card (some x) ≤ ps.tally card := by
  have hput := tally_setAt card ps p none
  rw [hx] at hput
  have hnone : chainCount card none = 0 := rfl
  omega

theorem chainCount_base_pos (x : SummonInstance) : 0 < chainCount x.chain.base (some x) :=
  List.count_pos_iff.mpr List.mem_cons_self

theorem tally_le (card : CardRef) (s : GameState) (q : PlayerId) :
    (s.player q).tally card ≤ s.tally card := by
  cases q <;> simp only [GameState.tally] <;> omega

/-- Two positions of one player that show the same card hold it twice. -/
theorem chainCount_add_le_tally {ps : PlayerState} (card : CardRef) (hx : ps.summonAt p = some x)
    (hy : ps.summonAt p' = some y) (hne : p' ≠ p) :
    chainCount card (some x) + chainCount card (some y) ≤ ps.tally card := by
  have hput := tally_setAt card ps p none
  have hleft : (ps.setAt p none).summonAt p' = some y := by
    rw [PlayerState.summonAt_setAt_of_ne _ _ _ hne]
    exact hy
  have := chainCount_le_tally card hleft
  rw [hx] at hput
  have hnone : chainCount card none = 0 := rfl
  omega

theorem mem_cardRefs_of_pos {card : CardRef} (h : 0 < s.tally card) : card ∈ s.cardRefs := by
  rw [← count_cardRefs] at h
  exact List.count_pos_iff.mp h

theorem Distinct.tally_le_one (h : Distinct s) (card : CardRef) : s.tally card ≤ 1 := by
  rw [← count_cardRefs]
  exact List.nodup_iff_count_le_one.mp (List.Nodup.of_map _ h) card

/-- Cards of the game with the same instance are the same card. -/
theorem Distinct.card_eq (h : Distinct s) {card card' : CardRef} (hc : 0 < s.tally card)
    (hc' : 0 < s.tally card') (heq : card.instanceId = card'.instanceId) : card = card' :=
  List.inj_on_of_nodup_map h (mem_cardRefs_of_pos hc) (mem_cardRefs_of_pos hc') heq

theorem base_tally_pos (hx : (s.player q).summonAt p = some x) : 0 < s.tally x.chain.base := by
  have := chainCount_base_pos x
  have := chainCount_le_tally x.chain.base hx
  have := tally_le x.chain.base s q
  omega

/-- **A Summon is known by its base card.** -/
theorem Distinct.position_eq (h : Distinct s) (hx : (s.player q).summonAt p = some x)
    (hy : (s.player r).summonAt p' = some y) (heq : x.base = y.base) : q = r ∧ p = p' := by
  have hbase : x.chain.base = y.chain.base := h.card_eq (base_tally_pos hx) (base_tally_pos hy) heq
  have hone := h.tally_le_one x.chain.base
  have hcx := chainCount_base_pos x
  have hcy := chainCount_base_pos y
  rw [← hbase] at hcy
  have hplayer : q = r := by
    by_contra hne
    have hqx := chainCount_le_tally x.chain.base hx
    have hry := chainCount_le_tally x.chain.base hy
    cases q <;> cases r <;> simp only [GameState.tally, not_true_eq_false] at hone hne <;> omega
  refine ⟨hplayer, ?_⟩
  subst hplayer
  by_contra hne
  have hboth := chainCount_add_le_tally x.chain.base hx hy (fun h => hne h.symm)
  have := tally_le x.chain.base s q
  omega

theorem Distinct.summon_eq (h : Distinct s) (hx : (s.player q).summonAt p = some x)
    (hy : (s.player r).summonAt p' = some y) (heq : x.base = y.base) : x = y := by
  obtain ⟨rfl, rfl⟩ := h.position_eq hx hy heq
  rw [hx] at hy
  exact Option.some.inj hy

/-- A card of a hand, a Deck or the Prizes is the base of no Summon. -/
theorem Distinct.base_ne (h : Distinct s) (hx : (s.player q).summonAt p = some x) {card : CardRef}
    (hcard : card ∈ (s.player r).deck ++ (s.player r).hand ++ (s.player r).prizes) :
    x.base ≠ card.instanceId := by
  intro heq
  have hcount := List.count_pos_iff.mpr hcard
  simp only [List.count_append] at hcount
  have hcx := chainCount_base_pos x
  have hboard : ∀ ps : PlayerState, ps.summonAt p = some x →
      ps.deck.count x.chain.base + ps.hand.count x.chain.base + ps.prizes.count x.chain.base +
        chainCount x.chain.base (some x) ≤ ps.tally x.chain.base := by
    intro ps hps
    rcases p with _ | slot
    · rw [PlayerState.summonAt_main] at hps
      simp only [PlayerState.tally, hps]
      omega
    · rw [PlayerState.summonAt_bench] at hps
      cases slot <;> simp only [Bench.get] at hps <;> simp only [PlayerState.tally, hps] <;> omega
  have hzones : ∀ ps : PlayerState, ps.deck.count card + ps.hand.count card +
      ps.prizes.count card ≤ ps.tally card := by
    intro ps
    simp only [PlayerState.tally]
    omega
  have hpos : 0 < s.tally card := by
    have := hzones (s.player r)
    have := tally_le card s r
    omega
  have hbase : x.chain.base = card := h.card_eq (base_tally_pos hx) hpos heq
  have hone := h.tally_le_one card
  rw [hbase] at hcx hboard
  have hq := hboard (s.player q) hx
  by_cases hqr : r = q
  · subst hqr
    have := tally_le card s r
    omega
  · have hr := hzones (s.player r)
    cases q <;> cases r <;> simp only [GameState.tally, not_true_eq_false] at hone hqr <;> omega

/-! ## Runs -/

theorem Distinct.action {a : GameAction} (h : Distinct s) (hs : s.status = .playing)
    (hst : ActionStep s a t es) : Distinct t :=
  nodup_of_tally_le h (hst.accounts hs).tally_le

theorem Distinct.drainStep (h : Distinct s) (hn : Resolution.drainStep s = some (t, es)) :
    Distinct t :=
  nodup_of_tally_le h (drainStep_accounts hn).tally_le

end

end Summoners
