import Summoners.Proof.Identity
import Summoners.Steps.Boards

/-! # Cards that can still come to be played

A Deck, a hand and the Prizes gain nothing but Spells: what goes to a board or to the discard pile and
is no Spell does not come back. And a step that writes one position leaves the others.
-/

namespace Summoners
set_option autoImplicit false

open Effects RunToCompletion

/-- A card other than a Spell in some player's stock. -/
def Stocked (s : GameState) (card : CardRef) : Prop :=
  isSpell s.cards card = false ∧ ∃ q, card ∈ (s.player q).stock

section
variable {s t u : GameState} {es : List GameEvent} {c q : PlayerId} {p r : Position}
  {x y z : SummonInstance} {ps : PlayerState}

/-! ## One position written -/

/-- What stands where once a position has been written. -/
theorem summonAt_placed (hps : ∀ r, ps.summonAt r = (s.player c).summonAt r)
    (hz : ((s.setPlayer c (ps.setAt p (some y))).player q).summonAt r = some z) :
    (q = c ∧ r = p ∧ z = y) ∨ ((q ≠ c ∨ r ≠ p) ∧ (s.player q).summonAt r = some z) := by
  by_cases hq : q = c
  · subst hq
    rw [GameState.player_setPlayer_self] at hz
    by_cases hr : r = p
    · subst hr
      rw [PlayerState.summonAt_setAt_self] at hz
      cases hz
      exact .inl ⟨rfl, rfl, rfl⟩
    · rw [PlayerState.summonAt_setAt_of_ne _ _ _ hr, hps] at hz
      exact .inr ⟨.inr hr, hz⟩
  · rw [GameState.player_setPlayer_of_ne _ _ _ hq] at hz
    exact .inr ⟨.inl hq, hz⟩

theorem summonAt_hand (ps : PlayerState) (hand : List CardRef) (r : Position) :
    PlayerState.summonAt { ps with hand := hand } r = ps.summonAt r := by
  cases r <;> rfl

theorem summonAt_mana (ps : PlayerState) (bank : ManaBank) (r : Position) :
    PlayerState.summonAt { ps with mana := bank } r = ps.summonAt r := by
  cases r <;> rfl

/-- Every Summon of that base that is in play has the property. -/
def EachOf (P : SummonInstance → Prop) (s : GameState) (i : CardInstanceId) : Prop :=
  ∀ q p x, (s.player q).summonAt p = some x → x.base = i → P x

theorem EachOf.place {P : SummonInstance → Prop} {i : CardInstanceId} (h : EachOf P s i)
    (hps : ∀ r, ps.summonAt r = (s.player c).summonAt r) (hy : P y) :
    EachOf P (s.setPlayer c (ps.setAt p (some y))) i := by
  intro q r z hz hbase
  obtain ⟨-, -, rfl⟩ | ⟨-, hz⟩ := summonAt_placed hps hz
  · exact hy
  · exact h q r z hz hbase

/-- The Summon just written, if no other position shows its base. -/
theorem eachOf_placed {P : SummonInstance → Prop} {i : CardInstanceId}
    (hps : ∀ r, ps.summonAt r = (s.player c).summonAt r) (hy : P y)
    (hother : ∀ q r z, (s.player q).summonAt r = some z → z.base = i → q = c ∧ r = p) :
    EachOf P (s.setPlayer c (ps.setAt p (some y))) i := by
  intro q r z hz hbase
  obtain ⟨-, -, rfl⟩ | ⟨hne, hz⟩ := summonAt_placed hps hz
  · exact hy
  · obtain ⟨rfl, rfl⟩ := hother q r z hz hbase
    rcases hne with hne | hne
    · exact absurd rfl hne
    · exact absurd rfl hne

/-! ## Stocks -/

theorem thins_refl (cards : CardSet) (ps : PlayerState) : Thins cards ps ps := fun _ h _ => h

/-- A write of the board or of a counter. -/
theorem thins_of_zones {cards : CardSet} {qs : PlayerState} (hdeck : qs.deck = ps.deck)
    (hhand : qs.hand = ps.hand) (hprizes : qs.prizes = ps.prizes) : Thins cards ps qs := by
  intro card hcard _
  unfold PlayerState.stock at hcard ⊢
  rwa [hdeck, hhand, hprizes] at hcard

theorem TakesFromHand.thins {cards : CardSet} {card : CardInstanceId} {cardRef : CardRef}
    {hand : List CardRef} {qs : PlayerState} (h : TakesFromHand ps card cardRef hand)
    (hdeck : qs.deck = ps.deck) (hhand : qs.hand = hand) (hprizes : qs.prizes = ps.prizes) :
    Thins cards ps qs := by
  intro c hc _
  unfold PlayerState.stock at hc ⊢
  rw [hdeck, hhand, hprizes] at hc
  simp only [List.mem_append] at hc ⊢
  rcases hc with (hc | hc) | hc
  · exact .inl (.inl hc)
  · exact .inl (.inr ((removeFirst_perm h).subset (List.mem_cons_of_mem _ hc)))
  · exact .inr hc

theorem TakesFromHand.mem {card : CardInstanceId} {cardRef : CardRef} {hand : List CardRef}
    (h : TakesFromHand ps card cardRef hand) : cardRef ∈ ps.hand ∧ cardRef.instanceId = card := by
  unfold TakesFromHand at h
  exact ⟨(removeFirst_perm h).subset List.mem_cons_self, by simpa using removeFirst_pos h⟩

/-- No player's stock gains a card other than a Spell. -/
def Thinned (s t : GameState) : Prop :=
  t.cards = s.cards ∧ ∀ q, Thins s.cards (s.player q) (t.player q)

theorem Thinned.refl (s : GameState) : Thinned s s := ⟨rfl, fun _ => thins_refl _ _⟩

theorem Thinned.trans (h : Thinned s t) (h' : Thinned t u) : Thinned s u := by
  refine ⟨h'.1.trans h.1, fun q => (h.2 q).trans ?_⟩
  rw [← h.1]
  exact h'.2 q

theorem Thinned.stocked (h : Thinned s t) {card : CardRef} (hcard : Stocked t card) :
    Stocked s card := by
  obtain ⟨hspell, q, hq⟩ := hcard
  rw [h.1] at hspell
  exact ⟨hspell, q, h.2 q card hq hspell⟩

theorem Thinned.write (h : Thins s.cards (s.player c) ps) : Thinned s (s.setPlayer c ps) := by
  refine ⟨rfl, fun q => ?_⟩
  rw [GameState.player_setPlayer]
  split
  · rename_i hq
    rw [hq]
    exact h
  · exact thins_refl _ _

theorem Thinned.pushed {items : List WorkItem} (h : Thinned s t) : Thinned s (t.pushBack items) :=
  ⟨h.1, h.2⟩

theorem thins_setAt {cards : CardSet} (ps : PlayerState) (p : Position) (v : Option SummonInstance) :
    Thins cards ps (ps.setAt p v) :=
  thins_of_zones (by simp) (by simp) (by simp)

theorem thins_bank {cards : CardSet} (ps : PlayerState) (t : ManaType) :
    Thins cards ps (Upkeep.bank ps t) := by
  cases t <;> exact thins_of_zones rfl rfl rfl

theorem LeafStep.thins {source : EffectSource} {targets : List Position} {leaf : EffectLeaf}
    (h : LeafStep s source targets leaf t es) : Thinned s t := by
  cases h with
  | quiet _ => exact .refl s
  | touched _ _ _ _ _ => exact .write (thins_setAt _ _ _)
  | hit _ _ _ _ _ => exact Thinned.pushed (.write (thins_setAt _ _ _))
  | zones _ _ hstock => exact .write hstock
  | drewOut _ _ hstock => exact Thinned.write hstock
  | moved _ _ _ _ => exact Thinned.pushed (.write (thins_of_zones rfl rfl rfl))
  | exchanged _ _ _ _ => exact Thinned.pushed (.write (thins_of_zones rfl rfl rfl))
  | produced _ _ => exact .write (thins_bank _ _)
  | paused _ _ => exact .refl s

theorem applyLeaves_thins {source : EffectSource} {targets : List Position}
    {leaves : List EffectLeaf} (h : applyLeaves s source targets leaves = (t, es))
    (hs : s.status = .playing) : Thinned s t :=
  applyLeaves_rel (R := fun s _ t => Thinned s t) h hs Thinned.refl (fun _ h h' => h.trans h')
    (fun _ _ h => h.thins)

theorem discardSummon_thins (s : GameState) (c : PlayerId) (p : Position) (x : SummonInstance) :
    Thinned s (Destruction.discardSummon s c p x) := by
  refine ⟨rfl, fun q => ?_⟩
  rw [discardSummon_player]
  split
  · exact (thins_setAt (s.player q) p none).trans (thins_of_zones rfl rfl rfl)
  · exact thins_of_zones rfl rfl rfl

theorem markMainEntry_thins (s : GameState) (step : MovementStep) (c : PlayerId) (p : Position) :
    Thinned s (Triggers.markMainEntry s step c p) := by
  unfold Triggers.markMainEntry
  split
  · exact .write (thins_of_zones rfl rfl rfl)
  · exact .refl s

theorem ItemStep.thins {item : WorkItem} (h : ItemStep s item t es) (hs : s.status = .playing) :
    Thinned s t := by
  cases h with
  | readied => exact .write (thins_of_zones rfl rfl rfl)
  | drew hd => exact .write (thins_draw hd)
  | produced _ => exact .write (thins_bank _ _)
  | discarded _ _ => exact discardSummon_thins s _ _ _
  | lossRecorded => exact .write (thins_of_zones rfl rfl rfl)
  | promoted _ _ => exact .write (thins_of_zones rfl rfl rfl)
  | movement => exact markMainEntry_thins s _ _ _
  | fired _ hl => exact applyLeaves_thins hl hs
  | _ => exact .refl s

theorem placeItem_thins (s : GameState) (item : StackItem) : Thinned s (placeItem s item) := by
  refine ⟨placeItem_cards s item, fun q => ?_⟩
  rcases placeItem_player s item q with h | ⟨_, _, _, _, _, h | h⟩ <;> rw [h]
  · exact thins_refl _ _
  · exact thins_of_zones rfl rfl rfl
  · exact thins_of_zones rfl rfl rfl

theorem drainStep_thins (h : Resolution.drainStep s = some (t, es)) : Thinned s t := by
  obtain ⟨hd, ⟨item, u, es', hst, rfl⟩ | ⟨-, item, work, -, hi⟩⟩ := drainStep_cases h
  · have hleaves : Thinned s u := applyLeaves_thins (s := poppedStack s) hst.leaves hd.playing
    have hplaced := hleaves.trans (placeItem_thins u item)
    rw [hst.result]
    refine ⟨by rw [closeSegment_cards, hplaced.1], fun q => ?_⟩
    rw [closeSegment_player]
    exact hplaced.2 q
  · exact hi.thins (s := poppedWork s work) hd.playing

theorem ActionStep.thins {a : GameAction} (h : ActionStep s a t es) (hs : s.status = .playing) :
    Thinned s t := by
  cases h with
  | played _ _ hhand _ _ _ => exact .write (hhand.thins rfl rfl rfl)
  | @upgraded c _ p _ _ hand _ _ _ _ _ _ _ hhand _ _ _ _ _ _ =>
      have htaken : Thins s.cards (s.player c) { s.player c with hand := hand } :=
        hhand.thins rfl rfl rfl
      exact .write (htaken.trans (thins_setAt _ p _))
  | cast _ hhand _ _ _ _ => exact .write (s := castBegun s _ _ _) (hhand.thins rfl rfl rfl)
  | @skill c p _ _ _ _ _ _ payment _ _ _ _ _ _ _ _ _ hl =>
      have hpaid : Thins s.cards (s.player c) { s.player c with mana := payment.bank } :=
        thins_of_zones rfl rfl rfl
      exact Thinned.trans (.write (hpaid.trans (thins_setAt _ p _))) (applyLeaves_thins hl hs)
  | retreated _ _ _ _ =>
      exact Thinned.pushed (.write (s := ({ s with turn := _ } : GameState))
        (thins_of_zones rfl rfl rfl))
  | attacked _ _ _ _ _ => exact .write (s := attackBegun s _ _) (thins_of_zones rfl rfl rfl)
  | handedOver _ _ _ =>
      refine ⟨rfl, fun q => ?_⟩
      rw [handover_player_eq]
      exact thins_of_zones rfl rfl rfl
  | converted _ _ _ _ => exact .write (s := ({ s with coin := none } : GameState)) (thins_bank _ _)
  | manaChosen _ _ => exact .write (s := ({ s with pending := none } : GameState)) (thins_bank _ _)
  | promotionChosen _ _ =>
      exact .write (s := ({ s with pending := none } : GameState)) (thins_of_zones rfl rfl rfl)
  | @prizeChosen c i card _ hcard =>
      refine .write (s := ({ s with pending := none } : GameState)) (fun k hk _ => ?_)
      simp only [PlayerState.stock, List.mem_append, List.mem_singleton] at hk ⊢
      rcases hk with (hk | hk | rfl) | hk
      · exact .inl (.inl hk)
      · exact .inl (.inr hk)
      · exact .inr (List.mem_of_getElem? hcard)
      · exact .inr (List.mem_of_mem_eraseIdx hk)
  | _ => exact .refl s

end

end Summoners
