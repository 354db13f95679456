import Mathlib.Data.List.Perm.Subperm
import Summoners.Fixtures
import Summoners.Proof.Interpretable
import Summoners.Steps.Boards

/-! # Upgrade chains stay legal

The Forms of a chain climb where a scenario puts it in play, and of the two ways a chain comes about
later one starts it at a Base and the other adds a higher Form; every move keeps it. An accepted
upgrade is looked at as a whole: nothing is left to drain behind it.
-/

namespace Summoners
set_option autoImplicit false

open RunToCompletion

/-! ## Climbing -/

section
variable {cards : CardSet} {layers : List CardRef} {card : CardRef} {form topForm : Form}

theorem climbs_singleton (h : printedForm cards card = some form) : Climbs cards [card] :=
  ⟨[form], by simp [h], by simp⟩

/-- One more card, of a Form above that of the last one. -/
theorem Climbs.concat {top : CardRef} (h : Climbs cards (layers ++ [top]))
    (htop : printedForm cards top = some topForm) (hcard : printedForm cards card = some form)
    (hlt : topForm.rank < form.rank) : Climbs cards (layers ++ [top] ++ [card]) := by
  obtain ⟨forms, hforms, hclimb⟩ := h
  refine ⟨forms ++ [form], by simp [← hforms, hcard], ?_⟩
  -- the last Form so far is the top's, and the others are below it
  obtain ⟨below, last, rfl⟩ : ∃ below last, forms = below ++ [last] := by
    cases forms using List.reverseRecOn with
    | nil => simp at hforms
    | append_singleton below last => exact ⟨below, last, rfl⟩
  have hlast : last = topForm := by
    rw [List.map_append, List.map_append] at hforms
    have hsame := (List.append_inj' hforms rfl).2
    simp only [List.map_cons, List.map_nil, List.cons.injEq, and_true, htop] at hsame
    exact (Option.some.inj hsame).symm
  subst hlast
  rw [List.pairwise_append] at hclimb ⊢
  refine ⟨List.pairwise_append.mpr hclimb, by simp, ?_⟩
  intro a ha b hb
  obtain rfl := List.mem_singleton.mp hb
  rcases List.mem_append.mp ha with ha | ha
  · exact (hclimb.2.2 a ha _ List.mem_cons_self).trans hlt
  · obtain rfl := List.mem_singleton.mp ha
    exact hlt

/-- There are three Forms. -/
theorem Climbs.length_le (h : Climbs cards layers) : layers.length ≤ 3 := by
  obtain ⟨forms, hforms, hclimb⟩ := h
  have hlength : layers.length = forms.length := by simpa using congrArg List.length hforms
  have hranks : (forms.map Form.rank).Nodup := by
    rw [List.Nodup, List.pairwise_map]
    exact hclimb.imp (fun hab => Nat.ne_of_lt hab)
  have hsubset : forms.map Form.rank ⊆ [0, 1, 2] := by
    intro n hn
    obtain ⟨form, -, rfl⟩ := List.mem_map.mp hn
    cases form <;> decide
  have hle := (hranks.subperm hsubset).length_le
  rw [List.length_map] at hle
  rw [hlength]
  exact hle

/-- The layers of a chain end in its top card. -/
theorem layers_eq_top (chain : UpgradeChain) : ∃ below, chain.layers = below ++ [chain.top] := by
  obtain ⟨base, rest⟩ := chain
  cases rest using List.reverseRecOn with
  | nil => exact ⟨[], rfl⟩
  | append_singleton rest top => exact ⟨base :: rest, by simp [UpgradeChain.layers, UpgradeChain.top]⟩

theorem inherited_climbs (cards : CardSet) :
    Inherited cards (fun _ x => Climbs cards x.chain.layers) where
  same same hx := by
    rw [same.chain]
    exact hx
  played {_ card _} hcard _ hform := by
    have hbase : printedForm cards card = some .base := by simp [printedForm, hcard, hform]
    exact climbs_singleton hbase
  upgraded {_ x card _ _ newForm topForm} hx hcard _ hform htop htopForm hallowed := by
    obtain ⟨below, hlayers⟩ := layers_eq_top x.chain
    have hupgraded : (Board.upgraded x card).chain.layers = below ++ [x.chain.top] ++ [card] := by
      rw [← hlayers]
      rfl
    rw [hlayers] at hx
    rw [hupgraded]
    simp only [Board.upgradeAllowed, Bool.and_eq_true, decide_eq_true_eq] at hallowed
    have hprinted : printedForm cards card = some newForm := by simp [printedForm, hcard, hform]
    have hprintedTop : printedForm cards x.chain.top = some topForm := by
      simp [printedForm, htop, htopForm]
    exact hx.concat hprintedTop hprinted hallowed.1

/-- A chain a scenario describes climbs. -/
theorem eachSummon_climbs_start {scenario : Scenario} {start : GameState}
    (h : fromScenario cards scenario = .ok start) :
    EachSummon (fun _ x => Climbs cards x.chain.layers) start := by
  obtain ⟨-, -, hplayers, -⟩ := fromScenario_parts h
  have hinterpretable := fromScenario_isOk_iff.mp ⟨start, h⟩
  intro q p x hx
  have hboard := buildAt_ok ((buildPlayerState_ok (hplayers q)).1 p)
  rw [hx] at hboard
  obtain ⟨summon, hsummon, hsame⟩ := Option.map_eq_some_iff.mp hboard.symm
  simp only [Prod.mk.injEq] at hsame
  rw [← hsame.1]
  exact (hinterpretable.chains q p summon hsummon).climbs

end

/-! ## An accepted upgrade -/

/-- What an action leaves at rest that touches nothing but the boards and zones. -/
theorem drainStep_idle {s t : GameState} (hs : Resolution.drainStep s = none) (free : FreeMain s)
    (hplaying : s.status = .playing) (hturn : t.turn = s.turn) (hstack : t.stack = s.stack)
    (hbases : t.stackSegmentBases = s.stackSegmentBases) (hwork : t.work = s.work) :
    Resolution.drainStep t = none := by
  obtain hpending | hstatus | hwindow | ⟨hlow, hidle⟩ := drainStep_eq_none hs
  · simp [free.pending] at hpending
  · exact absurd hplaying hstatus
  · simp [free.window] at hwindow
  · have hdone : Resolution.stackHasUnresolvedItems t = false := by
      simpa [Resolution.stackHasUnresolvedItems, Stack.segmentBase, hstack, hbases] using hlow
    unfold Resolution.drainStep
    split
    · rfl
    · simp [hturn, free.window, hdone, hwork, hidle]

/-- What an accepted upgrade does to the state: a card leaves the hand for the top of the chain. -/
theorem upgrade_accepted {cards : CardSet} {start s : GameState} {evs : List GameEvent}
    (hopen : Opening cards start) (hr : Reachable start evs s) {c : PlayerId}
    {card : CardInstanceId} {p : Position} {o : ActionOutcome}
    (ha : Accepted s (.upgradeSummon c card p) o) :
    ∃ x ref hand top newForm topForm entity, (s.player c).summonAt p = some x ∧
      TakesFromHand (s.player c) card ref hand ∧ s.cards.get ref.defId = some entity ∧
      s.cards.get x.chain.top.defId = some top ∧
      Board.upgradeAllowed entity top newForm topForm = true ∧
      o.state = s.setPlayer c
        ({ s.player c with hand := hand }.setAt p (some (Board.upgraded x ref))) := by
  obtain ⟨tr, hrun, -⟩ := reachable_iff.mp hr
  obtain ⟨tr', ⟨t, es, tr'', haccept, hsettles, -⟩, -⟩ := accepted_iff.mp ha
  obtain ⟨hplaying, hstep, -⟩ := accept_step haccept
  have hrest := hrun.rest hopen.rest
  cases hstep with
  | upgraded free hx _ hhand hcard _ _ htop _ hallowed =>
      obtain ⟨hstate, -⟩ := hsettles.eq_of_rest
        (drainStep_idle hrest free hplaying rfl rfl rfl rfl)
      exact ⟨_, _, _, _, _, _, _, hx, hhand, hcard, htop, hallowed, hstate⟩

theorem chains_stay_legal (cards : CardSet) (scenario : Scenario) (start s : GameState)
    (evs : List GameEvent) (hstart : fromScenario cards scenario = .ok start)
    (hr : Reachable start evs s) :
    (∀ q p x, (s.player q).summonAt p = some x →
        Climbs cards x.chain.layers ∧ x.chain.layers.length ≤ 3) ∧
      ∀ c card p o, Accepted s (.upgradeSummon c card p) o →
        ∃ x y ref before after, (s.player c).summonAt p = some x ∧
          (s.player c).hand = before ++ ref :: after ∧ ref.instanceId = card ∧
          o.state = s.setPlayer c
            ({ s.player c with hand := before ++ after }.setAt p (some y)) ∧
          y.chain.layers = x.chain.layers ++ [ref] ∧ y.damage = x.damage ∧ y.owner = x.owner ∧
          y.controller = x.controller ∧ y.durationMarkers = x.durationMarkers ∧
          y.turn.mainEntry = x.turn.mainEntry ∧
          ∀ t ∈ Upkeep.producedTypes cards x, t ∈ Upkeep.producedTypes cards y := by
  have hopen := opening_of_fromScenario hstart
  obtain ⟨tr, hrun, -⟩ := reachable_iff.mp hr
  obtain ⟨heach, hcards⟩ :=
    hopen.run_each (inherited_climbs cards) (eachSummon_climbs_start hstart) hrun
  refine ⟨fun q p x hx => ⟨heach q p x hx, (heach q p x hx).length_le⟩, ?_⟩
  intro c card p o ha
  obtain ⟨x, ref, hand, top, newForm, topForm, entity, hx, hhand, hcard, htop, hallowed, hstate⟩ :=
    upgrade_accepted hopen hr ha
  obtain ⟨before, after, hsplit, rfl⟩ := removeFirst_split hhand
  refine ⟨x, Board.upgraded x ref, ref, before, after, hx, hsplit,
    by simpa using removeFirst_pos hhand, hstate, rfl, rfl, rfl, rfl, rfl, rfl, ?_⟩
  intro t ht
  have hupgradedTop : (Board.upgraded x ref).chain.top = ref := by
    simp [Board.upgraded, UpgradeChain.top]
  rw [hcards] at hcard htop
  simp only [Upkeep.producedTypes, htop] at ht
  simp only [Board.upgradeAllowed, Bool.and_eq_true, List.all_eq_true] at hallowed
  simp only [Upkeep.producedTypes, hupgradedTop, hcard]
  exact List.contains_iff_mem.mp (hallowed.2 t ht)

open Fixtures in
/-- A Summon of one layer becomes one of two, and its damage stays. -/
theorem chains_stay_legal_upgrade : ∃ cards scenario start evs s o x y,
    fromScenario cards scenario = .ok start ∧ Reachable start evs s ∧
      Accepted s (.upgradeSummon .one ⟨3⟩ .main) o ∧ (s.player .one).main = some x ∧
      (o.state.player .one).main = some y ∧ Climbs cards x.chain.layers ∧
      y.chain.layers = [card 1 1, card 3 2] ∧ y.damage = x.damage := by
  let cards : CardSet :=
    ⟨[summon 1 10 .base [] [.matter], summon 2 20 .enhanced [] [.mind, .matter]]⟩
  let scenario : Scenario :=
    facing { lone ⟨[card 1 1], 5, .ready⟩ with hand := [card 3 2] } (lone (inPlay 2 1))
  have hdemo : (demoStep cards scenario [] (.upgradeSummon .one ⟨3⟩ .main)).map (fun r =>
      decide ((r.2.2.state.player .one).main.map (fun y => y.chain.layers) =
        some [card 1 1, card 3 2])) = some true := by
    decide +kernel
  obtain ⟨⟨start, s, o⟩, hd, hv⟩ := Option.map_eq_some_iff.mp hdemo
  obtain ⟨y, hy, hlayers⟩ := Option.map_eq_some_iff.mp (of_decide_eq_true hv)
  obtain ⟨hstart, ⟨evs, hr⟩, ha⟩ := accepted_of_demoStep hd
  obtain ⟨hclimbs, hupgrade⟩ := chains_stay_legal cards scenario start s evs hstart hr
  obtain ⟨x, z, ref, before, after, hx, -, -, hstate, -, hdamage, -⟩ := hupgrade _ _ _ o ha
  refine ⟨cards, scenario, start, evs, s, o, x, y, hstart, hr, ha, hx, hy,
    (hclimbs .one .main x hx).1, hlayers, ?_⟩
  -- the Summon in Main is the one the upgrade wrote
  rw [hstate, GameState.player_setPlayer_self] at hy
  rw [← hdamage, Option.some.inj hy]

end Summoners
