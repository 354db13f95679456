import Mathlib.Data.List.Perm.Subperm
import Mathlib.Data.List.Perm.Basic
import Summoners.Fixtures
import Summoners.Steps.Frames
import Summoners.Steps.Opening

/-! # Card conservation

Cards move between zones and layers; the one write that loses some is a promotion onto an occupied
Main. A card is counted zone by zone, and every step is an equation between two counts.
-/

namespace Summoners
set_option autoImplicit false

open Effects RunToCompletion

/-! ## Where a card can be -/

def PlayerState.boardCards (ps : PlayerState) : List CardRef :=
  (Upkeep.controlledSummons ps).flatMap (fun x => x.chain.layers)

def PlayerState.cardRefs (ps : PlayerState) : List CardRef :=
  ps.deck ++ ps.hand ++ ps.prizes ++ ps.discard ++ ps.enchantments ++ ps.boardCards

/-- The card of a Spell on the Stack. -/
def StackItem.cards : StackItem → List CardRef
  | .spell _ card _ => [card]
  | _ => []

/-- Every card of the game: both players' zones and chains, and the Spells on the Stack. -/
def GameState.cardRefs (s : GameState) : List CardRef :=
  (s.player .one).cardRefs ++ (s.player .two).cardRefs ++ s.stack.flatMap StackItem.cards

/-- The copies of a card in one chain. -/
def chainCount (card : CardRef) (x : Option SummonInstance) : ℕ :=
  x.elim 0 (fun x => x.chain.layers.count card)

/-- The copies of a card one player has, zone by zone. -/
def PlayerState.tally (ps : PlayerState) (card : CardRef) : ℕ :=
  ps.deck.count card + ps.hand.count card + ps.prizes.count card + ps.discard.count card +
    ps.enchantments.count card + chainCount card ps.main + chainCount card ps.bench.first +
    chainCount card ps.bench.second + chainCount card ps.bench.third

def GameState.tally (s : GameState) (card : CardRef) : ℕ :=
  (s.player .one).tally card + (s.player .two).tally card +
    (s.stack.flatMap StackItem.cards).count card

section
variable {s t u : GameState} {es : List GameEvent} {card : CardRef}

theorem count_boardCards (ps : PlayerState) :
    ps.boardCards.count card = chainCount card ps.main + chainCount card ps.bench.first +
      chainCount card ps.bench.second + chainCount card ps.bench.third := by
  unfold PlayerState.boardCards Upkeep.controlledSummons Bench.summons chainCount
  cases ps.main <;> cases ps.bench.first <;> cases ps.bench.second <;> cases ps.bench.third <;>
    simp <;> omega

theorem count_cardRefs (s : GameState) : s.cardRefs.count card = s.tally card := by
  unfold GameState.cardRefs PlayerState.cardRefs GameState.tally PlayerState.tally
  simp only [List.count_append, count_boardCards]
  omega

theorem cardRefs_perm_iff : t.cardRefs.Perm s.cardRefs ↔ ∀ card, t.tally card = s.tally card := by
  rw [List.perm_iff_count]
  simp only [count_cardRefs]

/-! ## Counts under a write -/

theorem tally_setPlayer (card : CardRef) (s : GameState) (p : PlayerId) (ps : PlayerState) :
    (s.setPlayer p ps).tally card + (s.player p).tally card = s.tally card + ps.tally card := by
  cases p <;> simp only [GameState.tally, GameState.setPlayer, GameState.player, PerPlayer.set,
    PerPlayer.get] <;> omega

theorem tally_setAt (card : CardRef) (ps : PlayerState) (p : Position) (v : Option SummonInstance) :
    (ps.setAt p v).tally card + chainCount card (ps.summonAt p) =
      ps.tally card + chainCount card v := by
  rcases p with _ | slot
  · simp only [PlayerState.tally, PlayerState.setAt, PlayerState.summonAt]
    omega
  · cases slot <;> simp only [PlayerState.tally, PlayerState.setAt, PlayerState.summonAt, Bench.set,
      Bench.get] <;> omega

theorem tally_bench_set (card : CardRef) (ps : PlayerState) (slot : BenchSlot) (v : Option SummonInstance) :
    PlayerState.tally { ps with bench := ps.bench.set slot v } card +
      chainCount card (ps.bench.get slot) = ps.tally card + chainCount card v :=
  tally_setAt card ps (.bench slot) v

theorem SameSummon.chainCount {x y : SummonInstance} (h : SameSummon x y) :
    chainCount card (some y) = chainCount card (some x) := by
  simp only [Summoners.chainCount, Option.elim, h.chain]

theorem chainCount_map {f : SummonInstance → SummonInstance} (h : ∀ x, SameSummon x (f x))
    (x : Option SummonInstance) : chainCount card (x.map f) = chainCount card x := by
  cases x with
  | none => rfl
  | some x => exact (h x).chainCount

/-- One map over a whole board. -/
theorem tally_map {f : SummonInstance → SummonInstance} (h : ∀ x, SameSummon x (f x))
    (ps : PlayerState) :
    PlayerState.tally { ps with main := ps.main.map f, bench := ps.bench.mapSummons f } card =
      ps.tally card := by
  simp only [PlayerState.tally, Bench.mapSummons, chainCount_map h]

theorem ZoneMove.tally {ps qs : PlayerState} (h : ZoneMove ps qs) :
    qs.tally card = ps.tally card := by
  have hcards := h.cards.count_eq card
  simp only [List.count_append] at hcards
  simp only [PlayerState.tally, h.main, h.bench, h.prizes, h.enchantments]
  omega

theorem tally_bank (card : CardRef) (ps : PlayerState) (t : ManaType) :
    (Upkeep.bank ps t).tally card = ps.tally card := by
  cases t <;> rfl

/-! ## Steps that keep every card -/

/-- Every card is as often in `t` as in `s`. -/
def Keeps (s t : GameState) : Prop := ∀ card, t.tally card = s.tally card

theorem Keeps.refl (s : GameState) : Keeps s s := fun _ => rfl

theorem Keeps.trans (h : Keeps s t) (h' : Keeps t u) : Keeps s u :=
  fun card => (h' card).trans (h card)

/-- A write to one player that keeps the player's cards. -/
theorem Keeps.write {c : PlayerId} {ps : PlayerState}
    (h : ∀ card, ps.tally card = (s.player c).tally card) : Keeps s (s.setPlayer c ps) := by
  intro card
  have := tally_setPlayer card s c ps
  have := h card
  omega

/-- States with the same players and the same Stack hold the same cards. -/
theorem Keeps.of_same (hp : t.players = s.players) (hs : t.stack = s.stack) : Keeps s t := by
  intro card
  simp only [GameState.tally, GameState.player, hp, hs]

/-- One Summon moved from a Bench slot onto an empty one. -/
theorem tally_moved (card : CardRef) {ps : PlayerState} {fromSlot toSlot : BenchSlot} {x : SummonInstance}
    (hto : ps.bench.get toSlot = none) (hfrom : ps.bench.get fromSlot = some x) :
    PlayerState.tally
      { ps with bench := (ps.bench.set fromSlot none).set toSlot (some x) } card =
        ps.tally card := by
  have hne : toSlot ≠ fromSlot := fun h => by rw [h, hfrom] at hto; cases hto
  have htaken := tally_bench_set card ps fromSlot none
  have hput := tally_bench_set card
    { ps with bench := ps.bench.set fromSlot none } toSlot (some x)
  rw [hfrom] at htaken
  rw [show (ps.bench.set fromSlot none).get toSlot = none by
    rw [Bench.get_set_of_ne _ hne, hto]] at hput
  have hnone : chainCount card none = 0 := rfl
  simp only at hput
  omega

theorem tally_exchange (card : CardRef) {ps : PlayerState} {slot : BenchSlot} {x y : SummonInstance}
    (hmain : ps.main = some x) (hbench : ps.bench.get slot = some y) :
    (exchange ps slot x y).tally card = ps.tally card := by
  have hput := tally_setAt card ps .main (some y)
  have hback := tally_setAt card (ps.setAt .main (some y)) (.bench slot) (some x)
  have hget : (ps.setAt .main (some y)).summonAt (.bench slot) = some y := hbench
  rw [PlayerState.summonAt_main, hmain] at hput
  rw [hget] at hback
  have heq : exchange ps slot x y = (ps.setAt .main (some y)).setAt (.bench slot) (some x) := rfl
  rw [heq]
  omega

theorem LeafStep.keeps {source : EffectSource} {targets : List Position} {leaf : EffectLeaf}
    (h : LeafStep s source targets leaf t es) : Keeps s t := by
  cases h with
  | quiet _ => exact .refl s
  | @touched p x y _ hx same _ _ =>
      refine .write (fun card => ?_)
      have hput := tally_setAt card (s.player source.controller) p (some y)
      rw [hx, same.chainCount] at hput
      omega
  | @hit p x y _ hx same _ =>
      refine Keeps.trans (.write (c := source.controller.opponent) (fun card => ?_))
        (.of_same rfl rfl)
      have hput := tally_setAt card (s.player source.controller.opponent) p (some y)
      rw [hx, same.chainCount] at hput
      omega
  | zones hz _ => exact .write (fun _ => hz.tally)
  | drewOut hz _ =>
      exact Keeps.trans (.write (c := source.controller) (fun _ => hz.tally)) (.of_same rfl rfl)
  | moved hto hfrom =>
      exact Keeps.trans (.write (c := source.controller) (fun _ => tally_moved _ hto hfrom))
        (.of_same rfl rfl)
  | exchanged hmain hbench =>
      exact Keeps.trans (.write (fun _ => tally_exchange _ hmain hbench)) (.of_same rfl rfl)
  | produced _ => exact .write (fun _ => tally_bank _ _ _)
  | paused _ => exact .of_same rfl rfl

theorem applyLeaves_keeps {source : EffectSource} {targets : List Position}
    {leaves : List EffectLeaf} (h : applyLeaves s source targets leaves = (t, es))
    (hs : s.status = .playing) : Keeps s t :=
  applyLeaves_rel (R := fun s _ t => Keeps s t) h hs Keeps.refl (fun _ h h' => h.trans h')
    (fun _ _ h => h.keeps)

/-- A discarded chain goes to its owner's discard pile, whoever controlled it. -/
theorem discardSummon_keeps {c : PlayerId} {p : Position} {x : SummonInstance}
    (hx : (s.player c).summonAt p = some x) : Keeps s (Destruction.discardSummon s c p x) := by
  intro card
  unfold Destruction.discardSummon
  simp only
  have htaken := tally_setPlayer card s c ((s.player c).setAt p none)
  have hboard := tally_setAt card (s.player c) p none
  rw [hx] at hboard
  have hput := tally_setPlayer card (s.setPlayer c ((s.player c).setAt p none)) x.owner
    { (s.setPlayer c ((s.player c).setAt p none)).player x.owner with
      discard := ((s.setPlayer c ((s.player c).setAt p none)).player x.owner).discard ++
        x.chain.layers }
  have hpile : ∀ ps : PlayerState,
      PlayerState.tally { ps with discard := ps.discard ++ x.chain.layers } card =
        ps.tally card + chainCount card (some x) := by
    intro ps
    simp only [PlayerState.tally, List.count_append, chainCount, Option.elim]
    omega
  rw [hpile] at hput
  have hnone : chainCount card none = 0 := rfl
  dsimp only at hput
  omega

/-! ## Promotions -/

/-- The item carries out a promotion onto a Main that is occupied. -/
def promotesOver (s : GameState) : WorkItem → Bool
  | .promoteBenchSummon c =>
      decide ((Destruction.occupiedBenchSlots (s.player c)).length = 1) && (s.player c).main.isSome
  | _ => false

/-- The step carries out a promotion, queued or chosen, onto a Main that is occupied. -/
def overwrites (x : Entry GameState GameAction GameEvent) : Bool :=
  match x.input with
  | some (.choosePromotion c _) => (x.before.player c).main.isSome
  | some _ => false
  | none => (nextWork x.before).any (promotesOver x.before)

/-- A promotion drops whatever Main held. -/
theorem tally_promoted (card : CardRef) {ps : PlayerState} {slot : BenchSlot} {x : SummonInstance}
    (hx : ps.bench.get slot = some x) :
    PlayerState.tally { ps with bench := ps.bench.set slot none, main := some x } card +
      chainCount card ps.main = ps.tally card := by
  have htaken := tally_setAt card ps (.bench slot) none
  have hput := tally_setAt card (ps.setAt (.bench slot) none) .main (some x)
  have hmain : (ps.setAt (.bench slot) none).summonAt .main = ps.main := rfl
  rw [PlayerState.summonAt_bench, hx] at htaken
  rw [hmain] at hput
  have heq : ({ ps with bench := ps.bench.set slot none, main := some x } : PlayerState) =
      (ps.setAt (.bench slot) none).setAt .main (some x) := rfl
  have hnone : chainCount card none = 0 := rfl
  rw [heq]
  omega

/-- Some card is rarer in `t` than in `s`, and none is more frequent. -/
def Loses (s t : GameState) : Prop :=
  (∀ card, t.tally card ≤ s.tally card) ∧ ∃ card, t.tally card < s.tally card

/-- What a step does to the cards, by whether it overwrites. -/
def Accounts (b : Bool) (s t : GameState) : Prop :=
  (b = false → Keeps s t) ∧ (b = true → Loses s t)

theorem Keeps.accounts (h : Keeps s t) : Accounts false s t :=
  ⟨fun _ => h, fun hb => by cases hb⟩

theorem Accounts.tally_le {b : Bool} (h : Accounts b s t) (card : CardRef) :
    t.tally card ≤ s.tally card := by
  cases b with
  | false => exact (h.1 rfl card).le
  | true => exact (h.2 rfl).1 card

/-- A promotion keeps the cards if and only if Main is empty. -/
theorem promoted_accounts {c : PlayerId} {slot : BenchSlot} {x : SummonInstance}
    (hx : (s.player c).bench.get slot = some x) :
    Accounts (s.player c).main.isSome s
      (s.setPlayer c
        { s.player c with bench := (s.player c).bench.set slot none, main := some x }) := by
  have hcount : ∀ card, (s.setPlayer c { s.player c with
      bench := (s.player c).bench.set slot none, main := some x }).tally card +
        chainCount card (s.player c).main = s.tally card := by
    intro card
    have hput := tally_setPlayer card s c
      { s.player c with bench := (s.player c).bench.set slot none, main := some x }
    have hps := tally_promoted card hx
    dsimp only at hput hps ⊢
    omega
  refine ⟨fun hmain card => ?_, fun hmain => ⟨fun card => ?_, ?_⟩⟩
  · have hnone : (s.player c).main = none := by simpa using hmain
    have := hcount card
    rw [hnone] at this
    exact this
  · have := hcount card
    omega
  · obtain ⟨y, hy⟩ := Option.isSome_iff_exists.mp hmain
    refine ⟨y.chain.base, ?_⟩
    have := hcount y.chain.base
    rw [hy] at this
    have hbase : 0 < chainCount y.chain.base (some y) :=
      List.count_pos_iff.mpr List.mem_cons_self
    omega

/-! ## Every step of a run -/

/-- A write on top of a state with the same players and the same Stack. -/
theorem Keeps.write_over {c : PlayerId} {ps : PlayerState} {v : GameState}
    (hp : v.players = s.players) (hs : v.stack = s.stack)
    (h : ∀ card, ps.tally card = (s.player c).tally card) : Keeps s (v.setPlayer c ps) := by
  refine Keeps.trans (.of_same hp hs) (.write (fun card => ?_))
  rw [h card]
  simp only [GameState.player, hp]

theorem markMainEntry_keeps (s : GameState) (step : MovementStep) (c : PlayerId) (p : Position) :
    Keeps s (Triggers.markMainEntry s step c p) := by
  unfold Triggers.markMainEntry
  split
  · rename_i hx
    refine .write (fun card => ?_)
    simp only [PlayerState.tally, hx]
    rfl
  · exact .refl s

theorem ItemStep.accounts {item : WorkItem} (h : ItemStep s item t es) (hs : s.status = .playing) :
    Accounts (promotesOver s item) s t := by
  cases h with
  | readied =>
      refine Keeps.accounts (.write (fun card => ?_))
      exact tally_map (f := Upkeep.readySummon) (fun _ => ⟨rfl, rfl, rfl⟩) _
  | drew hd => exact Keeps.accounts (.write (fun _ => (zoneMove_draw hd).tally))
  | produced _ => exact Keeps.accounts (.write (fun _ => tally_bank _ _ _))
  | discarded _ hx =>
      exact Keeps.accounts ((discardSummon_keeps hx).trans (.of_same rfl rfl))
  | lossRecorded => exact Keeps.accounts (.write (fun _ => rfl))
  | @promoteNone c hb =>
      have : promotesOver s (.promoteBenchSummon c) = false := by simp [promotesOver, hb]
      rw [this]
      exact Keeps.accounts (.refl s)
  | @promoted c slot x hb hx =>
      have : promotesOver s (.promoteBenchSummon c) = (s.player c).main.isSome := by
        simp [promotesOver, hb]
      rw [this]
      exact promoted_accounts hx
  | @promotionDue c a b l hb =>
      have : promotesOver s (.promoteBenchSummon c) = false := by simp [promotesOver, hb]
      rw [this]
      exact Keeps.accounts (.of_same rfl rfl)
  | movement =>
      exact Keeps.accounts ((markMainEntry_keeps s _ _ _).trans (.of_same rfl rfl))
  | opened _ =>
      refine Keeps.accounts (fun card => ?_)
      simp [GameState.tally, GameState.player, StackItem.cards]
  | fired _ hl => exact Keeps.accounts (applyLeaves_keeps hl hs)
  | _ => exact Keeps.accounts (.of_same rfl rfl)

/-- Taking the top off the Stack takes its card out of the game, until it is put away. -/
theorem tally_poppedStack (card : CardRef) {item : StackItem} (h : s.stack.getLast? = some item) :
    s.tally card = (poppedStack s).tally card + item.cards.count card := by
  obtain ⟨front, hfront⟩ := List.getLast?_eq_some_iff.mp h
  simp only [GameState.tally, poppedStack_player, poppedStack_stack, hfront, List.dropLast_concat,
    List.flatMap_append, List.count_append, List.flatMap_cons, List.flatMap_nil, List.append_nil]
  omega

/-- The top item off the Stack, and its card into a zone. -/
theorem StackStep.keeps {item : StackItem} (h : StackStep s item u t es)
    (hs : s.status = .playing) : Keeps s t := by
  intro card
  have hpop := tally_poppedStack card h.top
  have hleaves := applyLeaves_keeps h.leaves hs card
  have hplace : (placeItem u item).tally card = u.tally card + item.cards.count card := by
    cases item with
    | attack _ _ => rfl
    | trigger _ _ _ _ _ _ => rfl
    | spell caster ref targets =>
        have hpile : ∀ ps : PlayerState,
            PlayerState.tally { ps with discard := ps.discard ++ [ref] } card =
              ps.tally card + [ref].count card := by
          intro ps
          simp only [PlayerState.tally, List.count_append]
          omega
        have hrow : ∀ ps : PlayerState,
            PlayerState.tally { ps with enchantments := ps.enchantments ++ [ref] } card =
              ps.tally card + [ref].count card := by
          intro ps
          simp only [PlayerState.tally, List.count_append]
          omega
        simp only [placeItem, Resolution.placeSpell, StackItem.cards]
        split
        · have hput := tally_setPlayer card u caster
            { u.player caster with enchantments := (u.player caster).enchantments ++ [ref] }
          rw [hrow] at hput
          dsimp only at hput ⊢
          omega
        · have hput := tally_setPlayer card u caster
            { u.player caster with discard := (u.player caster).discard ++ [ref] }
          rw [hpile] at hput
          dsimp only at hput ⊢
          omega
  have hclose : t.tally card = (placeItem u item).tally card := by
    rw [h.result]
    exact Keeps.of_same (by simp) (by simp) card
  omega

theorem drainStep_accounts (h : Resolution.drainStep s = some (t, es)) :
    Accounts (overwrites ⟨s, none, es⟩) s t := by
  obtain ⟨hd, ⟨item, u, es', hst, rfl⟩ | ⟨hlow, item, work, hwork, hi⟩⟩ := drainStep_cases h
  · have hnone : overwrites ⟨s, none, .stackItemResolved item :: es'⟩ = false := by
      simp [overwrites, nextWork_of_above hst.above]
    rw [hnone]
    exact (hst.keeps hd.playing).accounts
  · have hitem : overwrites ⟨s, none, es⟩ = promotesOver (poppedWork s work) item := by
      simp only [overwrites, nextWork_of_low hlow hwork, Option.any_some]
      cases item <;> rfl
    rw [hitem]
    exact hi.accounts hd.playing

/-- A card taken from a hand. -/
theorem TakesFromHand.count {ps : PlayerState} {id : CardInstanceId} {ref : CardRef}
    {hand : List CardRef} (h : TakesFromHand ps id ref hand) (card : CardRef) :
    ps.hand.count card = hand.count card + [ref].count card := by
  have := (removeFirst_perm h).count_eq card
  rw [List.count_cons] at this
  rw [List.count_singleton]
  omega

/-- Paying for a Skill and exhausting its Summon keeps every card. -/
theorem skillBegun_keeps {c : PlayerId} {p : Position} {x : SummonInstance} (bank : ManaBank)
    (hx : (s.player c).summonAt p = some x) : Keeps s (skillBegun s c p bank x) := by
  refine .write (fun card => ?_)
  have hput := tally_setAt card { s.player c with mana := bank } p (some (Skills.exhaust x))
  have hat : ({ s.player c with mana := bank } : PlayerState).summonAt p = some x := by
    cases p <;> exact hx
  have hchain : chainCount card (some (Skills.exhaust x)) = chainCount card (some x) := rfl
  have hbank : ({ s.player c with mana := bank } : PlayerState).tally card =
      (s.player c).tally card := rfl
  rw [hat, hchain, hbank] at hput
  omega

theorem ActionStep.accounts {a : GameAction} (h : ActionStep s a t es)
    (hs : s.status = .playing) : Accounts (overwrites ⟨s, some a, es⟩) s t := by
  cases h with
  | @played c id slot ref hand entity free hslot hhand _ _ _ =>
      refine Keeps.accounts (.write (fun card => ?_))
      have hput := tally_bench_set card { s.player c with hand := hand } slot
        (some (Board.enteringSummon c ref))
      have hcount := hhand.count card
      have hchain : chainCount card (some (Board.enteringSummon c ref)) = [ref].count card := rfl
      rw [hslot, hchain] at hput
      have hnone : chainCount card none = 0 := rfl
      simp only [PlayerState.tally] at hput ⊢
      omega
  | @upgraded c id p x ref hand entity top newForm topForm free hx _ hhand _ _ _ _ _ _ =>
      refine Keeps.accounts (.write (fun card => ?_))
      have hput := tally_setAt card { s.player c with hand := hand } p
        (some (Board.upgraded x ref))
      have hcount := hhand.count card
      have hat : ({ s.player c with hand := hand } : PlayerState).summonAt p = some x := by
        cases p <;> exact hx
      have hchain : chainCount card (some (Board.upgraded x ref)) =
          chainCount card (some x) + [ref].count card := by
        simp only [chainCount, Option.elim, Board.upgraded, UpgradeChain.layers]
        rw [← List.cons_append, List.count_append]
      rw [hat, hchain] at hput
      have hhandTally : ({ s.player c with hand := hand } : PlayerState).tally card +
          [ref].count card = (s.player c).tally card := by
        simp only [PlayerState.tally]
        omega
      omega
  | @cast c id targets hint ref hand entity timing cost payment _ hhand _ _ _ _ =>
      refine Keeps.accounts (fun card => ?_)
      have hput := tally_setPlayer card (castBegun s c ref targets) c
        { s.player c with mana := payment.bank, hand := hand }
      have hcount := hhand.count card
      have hbegun : (castBegun s c ref targets).tally card = s.tally card + [ref].count card := by
        simp only [GameState.tally, castBegun, GameState.player, List.flatMap_append,
          List.count_append, List.flatMap_cons, List.flatMap_nil, List.append_nil, StackItem.cards]
        omega
      have hsame : (castBegun s c ref targets).player c = s.player c := rfl
      have hps : PlayerState.tally { s.player c with mana := payment.bank, hand := hand } card +
          [ref].count card = (s.player c).tally card := by
        simp only [PlayerState.tally]
        omega
      rw [hsame] at hput
      dsimp only at hput hps ⊢
      omega
  | @skill c p ability targets hint x top skill payment _ hx _ _ _ _ _ _ _ hl =>
      exact Keeps.accounts ((skillBegun_keeps payment.bank hx).trans (applyLeaves_keeps hl hs))
  | @retreated c slot hint x y cost payment _ hmain hbench _ =>
      have hpaid : ∀ card, (exchange { s.player c with mana := payment.bank } slot x y).tally card =
          (s.player c).tally card := fun card => tally_exchange card hmain hbench
      exact Keeps.accounts ((Keeps.write_over rfl rfl hpaid).trans (.of_same rfl rfl))
  | @attacked c hint x top attack payment _ _ _ _ _ =>
      have hbegun : Keeps s (attackBegun s c .main) := by
        intro card
        simp [GameState.tally, attackBegun, GameState.player, StackItem.cards]
      exact Keeps.accounts (hbegun.trans (.write (fun _ => rfl)))
  | handedOver _ _ _ =>
      refine Keeps.accounts (fun card => ?_)
      have hplayer : ∀ q, ((Turn.handover (windowClosed s)).state.player q).tally card =
          (s.player q).tally card := by
        intro q
        obtain ⟨f, hf, hq⟩ := handover_player (windowClosed s) q
        rw [hq]
        exact tally_map (fun x => (hf x).1) _
      have hstack : (Turn.handover (windowClosed s)).state.stack = s.stack := rfl
      simp only [GameState.tally, hplayer, hstack]
  | converted _ _ _ _ =>
      exact Keeps.accounts (.write_over rfl rfl (fun card => tally_bank card _ _))
  | manaChosen _ _ => exact Keeps.accounts (.write_over rfl rfl (fun card => tally_bank card _ _))
  | @promotionChosen c slot x _ hx =>
      have hclear : Keeps s { s with pending := none } := .of_same rfl rfl
      obtain ⟨hkeep, hlose⟩ := promoted_accounts (s := { s with pending := none }) hx
      refine ⟨fun hb => hclear.trans (hkeep hb), fun hb => ?_⟩
      obtain ⟨hle, card, hlt⟩ := hlose hb
      exact ⟨fun card => hclear card ▸ hle card, card, hclear card ▸ hlt⟩
  | @prizeChosen c i ref _ hcard =>
      refine Keeps.accounts (.write_over rfl rfl (fun card => ?_))
      obtain ⟨hi, rfl⟩ := List.getElem?_eq_some_iff.mp hcard
      have hperm := (List.getElem_cons_eraseIdx_perm hi).count_eq card
      rw [List.count_cons] at hperm
      simp only [PlayerState.tally, List.count_append, List.count_singleton]
      omega
  | _ => exact Keeps.accounts (.of_same rfl rfl)

/-! ## One call -/

/-- The account of a whole trace: nothing is gained, and nothing is lost exactly where no step
overwrites. -/
def Balanced (s : GameState) (tr : List (Entry GameState GameAction GameEvent))
    (t : GameState) : Prop :=
  (∀ card, t.tally card ≤ s.tally card) ∧ (Keeps s t ↔ ∀ x ∈ tr, overwrites x = false)

theorem Balanced.step {tr : List (Entry GameState GameAction GameEvent)}
    {x : Entry GameState GameAction GameEvent} (h : Balanced s tr t)
    (hx : Accounts (overwrites x) t u) : Balanced s (tr ++ [x]) u := by
  obtain ⟨hle, hiff⟩ := h
  cases hb : overwrites x with
  | false =>
      have hkeep : Keeps t u := hx.1 hb
      have hsame : Keeps s u ↔ Keeps s t :=
        ⟨fun h card => (hkeep card).symm.trans (h card), fun h => h.trans hkeep⟩
      refine ⟨fun card => (hkeep card).trans_le (hle card), ?_⟩
      rw [hsame, hiff]
      simp [or_imp, forall_and, hb]
  | true =>
      obtain ⟨hless, card, hlt⟩ := hx.2 hb
      refine ⟨fun k => (hless k).trans (hle k), fun h => ?_, fun h => ?_⟩
      · -- what was lost in this step cannot have been gained before it
        have := h card
        have := hle card
        omega
      · rw [h x (List.mem_append_right _ (List.mem_singleton_self x))] at hb
        cases hb

theorem call_balanced {a : GameAction} {tr : List (Entry GameState GameAction GameEvent)}
    (h : engine.Call s a tr t) : Balanced s tr t := by
  have hnil : Balanced s [] s := ⟨fun _ => le_rfl, by simp [Keeps.refl]⟩
  refine h.induct (fun ha => ?_) (fun hb hn => hb.step (drainStep_accounts hn))
  obtain ⟨hs, hst, -⟩ := accept_step ha
  exact hnil.step (hst.accounts hs)

/-- No run gains a card. -/
theorem reachable_tally_le {start : GameState} {evs : List GameEvent}
    (h : Reachable start evs s) (card : CardRef) : s.tally card ≤ start.tally card := by
  induction h with
  | refl => exact le_rfl
  | apply _ ha ih =>
      obtain ⟨tr, hc, -⟩ := accepted_iff.mp ha
      exact ((call_balanced hc).1 card).trans ih

/-! ## The cards of a scenario -/

theorem firstDuplicate_none : ∀ {refs : List CardRef} {seen : List CardInstanceId},
    Scenario.firstDuplicate seen refs = none →
      (refs.map (·.instanceId)).Nodup ∧ ∀ ref ∈ refs, ref.instanceId ∉ seen
  | [], _, _ => by simp
  | ref :: refs, seen, h => by
      unfold Scenario.firstDuplicate at h
      split at h
      · cases h
      · rename_i hnew
        obtain ⟨hnodup, hseen⟩ := firstDuplicate_none h
        refine ⟨?_, ?_⟩
        · rw [List.map_cons, List.nodup_cons]
          refine ⟨fun hm => ?_, hnodup⟩
          obtain ⟨r, hr, heq⟩ := List.mem_map.mp hm
          exact hseen r hr (by rw [heq]; exact List.mem_cons_self)
        · intro r hr
          rcases List.mem_cons.mp hr with rfl | hr
          · exact hnew
          · exact fun hm => hseen r hr (List.mem_cons_of_mem _ hm)

/-- The cards a scenario describes are the cards it starts with. -/
theorem cardRefs_of_build {cards : CardSet} {q : PlayerId} {sp : ScenarioPlayer}
    {ps : PlayerState} (h : Scenario.buildPlayerState cards q sp = .ok ps) :
    ps.cardRefs = Scenario.playerCardRefs sp := by
  obtain ⟨hat, -, hdeck, hhand, hprizes, hdiscard, henchantments, -⟩ := buildPlayerState_ok h
  have hchain : ∀ p, (ps.summonAt p).toList.flatMap (fun x => x.chain.layers) =
      (sp.describedAt p).toList.flatMap (fun x => x.chain) := by
    intro p
    have hp := buildAt_ok (hat p)
    cases hx : ps.summonAt p <;> cases hy : sp.describedAt p <;> rw [hx, hy] at hp <;>
      simp_all
  have h0 := hchain .main
  have h1 := hchain (.bench .first)
  have h2 := hchain (.bench .second)
  have h3 := hchain (.bench .third)
  simp only [PlayerState.summonAt, Bench.get, ScenarioPlayer.describedAt] at h0 h1 h2 h3
  have hboard : ps.boardCards = (Scenario.positionedSummons sp).flatMap (fun r => r.2.chain) := by
    simp only [PlayerState.boardCards, Upkeep.controlledSummons, Bench.summons,
      Scenario.positionedSummons, BenchSlot.all, List.flatMap_append, List.flatMap_cons,
      List.flatMap_nil, List.append_nil, h0, h1, h2, h3, List.flatMap_map, List.append_assoc]
  simp only [PlayerState.cardRefs, Scenario.playerCardRefs, hdeck, hhand, hprizes, hdiscard,
    henchantments, hboard, List.append_nil]

/-- A parsed scenario holds every instance once. -/
theorem start_nodup {cards : CardSet} {scenario : Scenario} {start : GameState}
    (h : fromScenario cards scenario = .ok start) :
    (start.cardRefs.map (·.instanceId)).Nodup := by
  obtain ⟨hdup, -, hplayers, -⟩ := fromScenario_parts h
  have hrefs : start.cardRefs = Scenario.allCardRefs scenario := by
    have h1 := cardRefs_of_build (hplayers .one)
    have h2 := cardRefs_of_build (hplayers .two)
    simp only [GameState.cardRefs, Scenario.allCardRefs, h1, h2, PerPlayer.get,
      (opening_of_fromScenario h).stack, List.flatMap_nil, List.append_nil]
  unfold Scenario.checkNoDuplicateInstances at hdup
  split at hdup
  · cases hdup
  · rename_i hnone
    rw [hrefs]
    exact (firstDuplicate_none hnone).1

/-- Where no card is gained, no instance comes to be in two places. -/
theorem nodup_of_tally_le (h : (s.cardRefs.map (·.instanceId)).Nodup)
    (hle : ∀ card, t.tally card ≤ s.tally card) : (t.cardRefs.map (·.instanceId)).Nodup := by
  have hsub : t.cardRefs.Subperm s.cardRefs := by
    rw [List.subperm_ext_iff]
    intro card _
    rw [count_cardRefs, count_cardRefs]
    exact hle card
  obtain ⟨refs, hperm, hlist⟩ := hsub
  exact (hperm.map _).nodup_iff.mp (h.sublist (hlist.map (·.instanceId)))

/-- In every state a scenario reaches, an instance is in one zone at most. -/
theorem reachable_nodup {cards : CardSet} {scenario : Scenario} {start : GameState}
    {evs : List GameEvent} (hstart : fromScenario cards scenario = .ok start)
    (hr : Reachable start evs s) : (s.cardRefs.map (·.instanceId)).Nodup :=
  nodup_of_tally_le (start_nodup hstart) (reachable_tally_le hr)

end

/-- **Card conservation.** An accepted action from a state a scenario reaches keeps the multiset of
all cards if and only if none of its steps promotes onto an occupied Main; and no instance is ever
in two places. -/
theorem cards_conserved_iff {cards : CardSet} {scenario : Scenario} {start s : GameState}
    {evs : List GameEvent} {a : GameAction} {o : ActionOutcome}
    (hstart : fromScenario cards scenario = .ok start) (hr : Reachable start evs s)
    (ha : Accepted s a o) :
    ∃ tr, engine.Call s a tr o.state ∧ o.events = facts tr ∧
      (o.state.cardRefs.Perm s.cardRefs ↔ ∀ x ∈ tr, overwrites x = false) ∧
      (o.state.cardRefs.map (·.instanceId)).Nodup := by
  obtain ⟨tr, hc, he⟩ := accepted_iff.mp ha
  refine ⟨tr, hc, he, ?_, reachable_nodup hstart (hr.apply ha)⟩
  rw [cardRefs_perm_iff]
  exact (call_balanced hc).2

open Fixtures in
/-- Two hits on one Main queue two chains; the answer to the first chain's promotion is overwritten
by the second chain's own promotion. -/
theorem cards_not_conserved :
    ∃ start s evs o, fromScenario twiceStriking twiceStruck = .ok start ∧ Reachable start evs s ∧
      Accepted s (.choosePromotion .two .first) o ∧ ¬o.state.cardRefs.Perm s.cardRefs := by
  have hdemo : (demoStep twiceStriking twiceStruck attackPassPass (.choosePromotion .two .first)).map
      (fun r => (r.2.1.cardRefs.length, r.2.2.state.cardRefs.length)) = some (4, 3) := by
    decide +kernel
  obtain ⟨⟨start, s, o⟩, hr, hv⟩ := Option.map_eq_some_iff.mp hdemo
  simp only [Prod.mk.injEq] at hv
  obtain ⟨hstart, ⟨evs, hreach⟩, ha⟩ := accepted_of_demoStep hr
  refine ⟨start, s, evs, o, hstart, hreach, ha, fun hperm => ?_⟩
  have := hperm.length_eq
  omega

open Fixtures in
/-- The Attack itself, whose batch stops at the first chain's promotion, keeps every card. -/
theorem cards_conserved_iff_attack :
    ∃ start s evs tr, ∃ o : ActionOutcome, fromScenario twiceStriking twiceStruck = .ok start ∧
      Reachable start evs s ∧ engine.Call s (.passPriority .one) tr o.state ∧
      o.state.cardRefs.length = 4 ∧ (o.state.cardRefs.map (·.instanceId)).Nodup ∧
      ∀ x ∈ tr, overwrites x = false := by
  have hdemo : (demoStep twiceStriking twiceStruck [.declareAttack .one .main none,
      .passPriority .two] (.passPriority .one)).map
        (fun r => (r.2.2.state.cardRefs.length, r.2.1.cardRefs.isPerm r.2.2.state.cardRefs)) =
      some (4, true) := by decide +kernel
  obtain ⟨⟨start, s, o⟩, hr, hv⟩ := Option.map_eq_some_iff.mp hdemo
  simp only [Prod.mk.injEq] at hv
  obtain ⟨hstart, ⟨evs, hreach⟩, ha⟩ := accepted_of_demoStep hr
  obtain ⟨tr, hc, -, hiff, hnodup⟩ := cards_conserved_iff hstart hreach ha
  exact ⟨start, s, evs, tr, o, hstart, hreach, hc, hv.1, hnodup,
    hiff.mp (List.isPerm_iff.mp hv.2).symm⟩

end Summoners
