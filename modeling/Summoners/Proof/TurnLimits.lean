import Summoners.Proof.Upkeep
import Summoners.Steps.Stock

/-! # The limits of one turn

Two flags of the turn and a record on every Summon say what has been used up. Within a turn the flags
are only set and a record never becomes available again, wherever the Summon goes; the handover clears
them all, on both boards. A card upgraded in a turn was in play, so it is in nobody's hand, and it does
not come back to one.
-/

namespace Summoners
set_option autoImplicit false

open Effects RunToCompletion

def GameEvent.isAttack : GameEvent → Bool
  | .attackDeclared _ _ => true
  | _ => false

def GameAction.isAttack : GameAction → Bool
  | .declareAttack _ _ _ => true
  | _ => false

def GameAction.isRetreat : GameAction → Bool
  | .retreat _ _ _ => true
  | _ => false

def GameAction.isCastBy (c : PlayerId) : GameAction → Bool
  | .castSpell p _ _ _ => decide (p = c)
  | _ => false

/-- The Summon of `s` an event reports as upgraded, known by its base. -/
def GameEvent.upgradedIn (s : GameState) : GameEvent → Option CardInstanceId
  | .summonUpgraded c _ p => ((s.player c).summonAt p).map SummonInstance.base
  | _ => none

/-- The Summon an event reports as put in play. -/
def GameEvent.putInPlay : GameEvent → Option CardInstanceId
  | .summonPlayed _ card _ => some card
  | _ => none

/-- The Summons a step reports as upgraded. -/
def upgrades (x : Entry GameState GameAction GameEvent) : List CardInstanceId :=
  x.emitted.filterMap (GameEvent.upgradedIn x.before)

/-- The Summons a step reports as put in play. -/
def plays (x : Entry GameState GameAction GameEvent) : List CardInstanceId :=
  x.emitted.filterMap GameEvent.putInPlay

/-- The Attacks declared in some steps. -/
def attacks (tr : List (Entry GameState GameAction GameEvent)) : ℕ :=
  (facts tr).countP GameEvent.isAttack

/-- The Retreats accepted in some steps. -/
def retreats (tr : List (Entry GameState GameAction GameEvent)) : ℕ :=
  tr.countP (fun x => x.input.any GameAction.isRetreat)

/-- The Summon of that base, where it is in play, cannot be upgraded. -/
def Spent (s : GameState) (i : CardInstanceId) : Prop :=
  EachOf (fun x => x.turn.upgrade ≠ .available) s i

/-- The card of that instance can be played. -/
def Playable (s : GameState) (i : CardInstanceId) : Prop :=
  ∃ card, card.instanceId = i ∧ Stocked s card

section
variable {s t u : GameState} {es : List GameEvent} {i : CardInstanceId}
  {tr pre span : List (Entry GameState GameAction GameEvent)}
  {x : Entry GameState GameAction GameEvent}

/-! ## What a step reports -/

theorem takes_announces (h : engine.Takes x t) :
    x.emitted.filter GameEvent.announces = x.input.elim [] GameAction.announcement := by
  cases hx : x.input with
  | none => exact (drainStep_unannounced (h.next hx)).announces
  | some a =>
      obtain ⟨hs, hst, -⟩ := accept_step (h.accept hx)
      exact hst.announces hs

/-- What is read off announcements only is read off the action. -/
theorem filterMap_announced {α : Type} {f : GameEvent → Option α} (h : engine.Takes x t)
    (hf : ∀ e, e.announces = false → f e = none) :
    x.emitted.filterMap f = (x.input.elim [] GameAction.announcement).filterMap f := by
  rw [← takes_announces h, List.filterMap_filter]
  refine List.filterMap_congr (fun e _ => ?_)
  cases he : e.announces with
  | true => rfl
  | false => exact hf e he

theorem attacks_eq (h : engine.Takes x t) :
    attacks [x] = (x.input.elim [] GameAction.announcement).countP GameEvent.isAttack := by
  have hattack : ∀ e : GameEvent, e.isAttack = (e.isAttack && e.announces) := by
    intro e
    cases e <;> rfl
  rw [← takes_announces h, List.countP_filter]
  simp only [attacks, facts_cons, facts_nil, List.append_nil]
  exact List.countP_congr (fun e _ => by rw [← hattack])

theorem upgrades_eq (h : engine.Takes x t) : upgrades x =
    (x.input.elim [] GameAction.announcement).filterMap (GameEvent.upgradedIn x.before) :=
  filterMap_announced h (fun e he => by cases e <;> first | rfl | cases he)

theorem plays_eq (h : engine.Takes x t) :
    plays x = (x.input.elim [] GameAction.announcement).filterMap GameEvent.putInPlay :=
  filterMap_announced h (fun e he => by cases e <;> first | rfl | cases he)

theorem mem_announced {e : GameEvent} (h : engine.Takes x t) (he : e.announces = true) :
    e ∈ x.emitted ↔ e ∈ x.input.elim [] GameAction.announcement := by
  rw [← takes_announces h, List.mem_filter]
  simp [he]

/-! ## Marks on Summons -/

/-- What leaves the record of upgrades as it is. -/
def SameRecord (x y : SummonInstance) : Prop := SameSummon x y ∧ y.turn.upgrade = x.turn.upgrade

theorem persistent_record : Persistent (anywhere SameRecord) where
  moves _ _ x _ := ⟨.refl x, rfl⟩
  trans h h' := ⟨h.1.trans h'.1, h'.2.trans h.2⟩
  touched same touch := ⟨same, by rw [touch.turn]⟩
  hurt _ _ _ _ := ⟨⟨rfl, rfl, rfl⟩, rfl⟩
  readied _ _ _ := ⟨⟨rfl, rfl, rfl⟩, rfl⟩
  entered _ _ _ := ⟨⟨rfl, rfl, rfl⟩, rfl⟩

theorem Spent.carries (h : Spent s i) (hc : Carries (anywhere SameRecord) s t) : Spent t i := by
  intro q p y hy hbase
  obtain ⟨r, x, hx, same, hturn⟩ := hc q p y hy
  rw [hturn]
  exact h q r x hx (same.base.symm.trans hbase)

/-! ## The flags of the turn -/

theorem drainStep_flags (h : Resolution.drainStep s = some (t, es)) :
    t.turn.normalAttackUsed = s.turn.normalAttackUsed ∧
      t.turn.normalRetreatUsed = s.turn.normalRetreatUsed ∧
        t.turn.spellPlayedThisTurn = s.turn.spellPlayedThisTurn := by
  obtain ⟨hd, ⟨item, u, es', hst, rfl⟩ | ⟨-, item, work, -, hi⟩⟩ := drainStep_cases h
  · have hturn : t.turn = s.turn := by
      rw [hst.result, closeSegment_turn, placeItem_turn,
        (applyLeaves_frame hst.leaves hd.playing).turn, poppedStack_turn]
    rw [hturn]
    exact ⟨rfl, rfl, rfl⟩
  · rcases (hi.frame hd.playing).stack with ⟨-, hturn, -, -⟩ | ⟨-, rfl⟩ | ⟨_, _, _, _, _, -, rfl⟩
    · rw [hturn]
      exact ⟨rfl, rfl, rfl⟩
    · exact ⟨rfl, rfl, rfl⟩
    · exact ⟨rfl, rfl, rfl⟩

/-- Within a turn an action sets its own flag and leaves the others. -/
theorem ActionStep.flags {a : GameAction} (h : ActionStep s a t es) (hs : s.status = .playing)
    (hnone : ∀ p, .turnBegan p ∉ es) :
    t.turn.normalAttackUsed = (s.turn.normalAttackUsed || a.isAttack) ∧
      t.turn.normalRetreatUsed = (s.turn.normalRetreatUsed || a.isRetreat) ∧
        ∀ c, t.turn.spellPlayedThisTurn.get c =
          (s.turn.spellPlayedThisTurn.get c || a.isCastBy c) := by
  have hkept : ∀ turn : TurnState, t.turn = turn → a.isAttack = false → a.isRetreat = false →
      (∀ c, a.isCastBy c = false) → turn.normalAttackUsed = s.turn.normalAttackUsed →
      turn.normalRetreatUsed = s.turn.normalRetreatUsed →
      turn.spellPlayedThisTurn = s.turn.spellPlayedThisTurn →
      t.turn.normalAttackUsed = (s.turn.normalAttackUsed || a.isAttack) ∧
        t.turn.normalRetreatUsed = (s.turn.normalRetreatUsed || a.isRetreat) ∧
          ∀ c, t.turn.spellPlayedThisTurn.get c =
            (s.turn.spellPlayedThisTurn.get c || a.isCastBy c) := by
    intro turn ht ha hr hc h1 h2 h3
    rw [ht, h1, h2, h3, ha, hr]
    simp [hc]
  cases h with
  | @cast p card targets hint _ _ _ _ _ _ _ _ _ _ _ _ =>
      refine ⟨(Bool.or_false _).symm, (Bool.or_false _).symm, fun c => ?_⟩
      show (s.turn.spellPlayedThisTurn.set p true).get c = _
      rw [PerPlayer.get_set]
      by_cases hc : c = p
      · subst hc
        simp [GameAction.isCastBy]
      · simp [GameAction.isCastBy, hc, Ne.symm hc]
  | attacked _ _ _ _ _ =>
      exact ⟨(Bool.or_true _).symm, (Bool.or_false _).symm, fun c => (Bool.or_false _).symm⟩
  | retreated _ _ _ _ =>
      exact ⟨(Bool.or_false _).symm, (Bool.or_true _).symm, fun c => (Bool.or_false _).symm⟩
  | skill _ _ _ _ _ _ _ hl =>
      exact hkept _ (applyLeaves_frame hl hs).turn rfl rfl (fun _ => rfl) rfl rfl rfl
  | handedOver _ _ _ => exact absurd (List.mem_cons_of_mem _ List.mem_cons_self) (hnone _)
  | _ => exact hkept _ rfl rfl rfl (fun _ => rfl) rfl rfl rfl

theorem accept_attack {c : PlayerId} {p : Position} {hint : Option ManaType}
    (h : engine.accept s (.declareAttack c p hint) = some (t, es)) :
    s.turn.normalAttackUsed = false := by
  obtain ⟨_, ha, -⟩ | ⟨-, -, hd⟩ := Apply.handle_cases (engine_accept_eq_some.mp h)
  · cases ha
  · have hattack : Stack.declareAttack s c p hint = .ok ⟨t, es⟩ := hd
    unfold Stack.declareAttack at hattack
    split at hattack
    · cases hattack
    · split at hattack
      · cases hattack
      · rename_i hunused
        simpa using hunused

theorem accept_retreat {c : PlayerId} {slot : BenchSlot} {hint : Option ManaType}
    (h : engine.accept s (.retreat c slot hint) = some (t, es)) :
    s.turn.normalRetreatUsed = false := by
  obtain ⟨_, ha, -⟩ | ⟨-, -, hd⟩ := Apply.handle_cases (engine_accept_eq_some.mp h)
  · cases ha
  · have hretreat : Board.retreat s c slot hint = .ok ⟨t, es⟩ := hd
    unfold Board.retreat at hretreat
    split at hretreat
    · cases hretreat
    · split at hretreat
      · cases hretreat
      · rename_i hunused
        simpa using hunused

/-! ## One step within a turn -/

/-- What one step that begins no turn does to what the limits are read off. -/
structure Progress (x : Entry GameState GameAction GameEvent) (t : GameState) : Prop where
  attacks : attacks [x] + x.before.turn.normalAttackUsed.toNat ≤ t.turn.normalAttackUsed.toNat
  retreats : retreats [x] + x.before.turn.normalRetreatUsed.toNat ≤ t.turn.normalRetreatUsed.toNat
  spent : ∀ i, Spent x.before i → Spent t i
  playable : ∀ i, Playable t i → Playable x.before i
  upgraded : ∀ i ∈ upgrades x, ¬Spent x.before i ∧ Spent t i ∧ ¬Playable x.before i
  played : ∀ i ∈ plays x, Spent t i ∧ Playable x.before i
  once : (upgrades x).Nodup

theorem Progress.of_kept (hupgrades : upgrades x = []) (hplays : plays x = [])
    (hattacks : Summoners.attacks [x] + x.before.turn.normalAttackUsed.toNat ≤
      t.turn.normalAttackUsed.toNat)
    (hretreats : Summoners.retreats [x] + x.before.turn.normalRetreatUsed.toNat ≤
      t.turn.normalRetreatUsed.toNat)
    (hc : Carries (anywhere SameRecord) x.before t) (ht : Thinned x.before t) : Progress x t where
  attacks := hattacks
  retreats := hretreats
  spent _ h := h.carries hc
  playable := fun _ ⟨card, hcard, hstock⟩ => ⟨card, hcard, ht.stocked hstock⟩
  upgraded := by simp [hupgrades]
  played := by simp [hplays]
  once := by simp [hupgrades]

theorem drainStep_progress (h : Resolution.drainStep s = some (t, es)) :
    Progress ⟨s, none, es⟩ t := by
  have htakes : engine.Takes ⟨s, none, es⟩ t := h
  obtain ⟨hattack, hretreat, -⟩ := drainStep_flags h
  refine .of_kept (by rw [upgrades_eq htakes]; rfl) (by rw [plays_eq htakes]; rfl) ?_ ?_
    (drainStep_carries persistent_record h) (drainStep_thins h)
  · rw [attacks_eq htakes, hattack]
    simp
  · rw [hretreat]
    simp [Summoners.retreats]

/-- An accepted Attack or Retreat sets a flag that was not set. -/
theorem accept_counts {a : GameAction} (ha : engine.accept s a = some (t, es))
    (hnone : ∀ p, .turnBegan p ∉ es) :
    attacks [⟨s, some a, es⟩] + s.turn.normalAttackUsed.toNat ≤ t.turn.normalAttackUsed.toNat ∧
      retreats [⟨s, some a, es⟩] + s.turn.normalRetreatUsed.toNat ≤
        t.turn.normalRetreatUsed.toNat := by
  obtain ⟨hs, hst, -⟩ := accept_step ha
  obtain ⟨hattack, hretreat, -⟩ := hst.flags hs hnone
  have htakes : engine.Takes ⟨s, some a, es⟩ t := ha
  rw [hattack, hretreat, attacks_eq htakes]
  cases a with
  | declareAttack c p hint =>
      rw [accept_attack ha]
      simp [GameAction.announcement, GameEvent.isAttack, GameAction.isAttack, GameAction.isRetreat,
        retreats]
  | retreat c slot hint =>
      rw [accept_retreat ha]
      simp [GameAction.announcement, GameAction.isAttack, GameAction.isRetreat, retreats]
  | _ =>
      simp [GameAction.announcement, GameEvent.isAttack, GameAction.isAttack, GameAction.isRetreat,
        retreats]

/-- A card put in play was in a hand, so no Summon of it was in play. -/
theorem playSummon_progress {c : PlayerId} {card : CardInstanceId} {slot : BenchSlot}
    (hd : Distinct s) (ha : engine.accept s (.playSummon c card slot) = some (t, es)) :
    Progress ⟨s, some (.playSummon c card slot), es⟩ t := by
  obtain ⟨hs, hst, -⟩ := accept_step ha
  have htakes : engine.Takes ⟨s, some (.playSummon c card slot), es⟩ t := ha
  have hupgrades : upgrades ⟨s, some (.playSummon c card slot), es⟩ = [] := by
    rw [upgrades_eq htakes]
    rfl
  have hplays : plays ⟨s, some (.playSummon c card slot), es⟩ = [card] := by
    rw [plays_eq htakes]
    rfl
  have hthin := hst.thins hs
  cases hst with
  | @played _ _ _ cardRef hand entity free hslot hhand hcard hfamily hform =>
      obtain ⟨hattacks, hretreats⟩ := accept_counts ha (by simp)
      obtain ⟨hmem, hid⟩ := hhand.mem
      have hps := summonAt_hand (s.player c) hand
      have hentering : (Board.enteringSummon c cardRef).turn.upgrade ≠ .available := by
        simp [Board.enteringSummon]
      refine ⟨hattacks, hretreats, fun i hi => EachOf.place (p := .bench slot) hi hps hentering,
        fun i ⟨k, hk, hstock⟩ => ⟨k, hk, hthin.stocked hstock⟩, by simp [hupgrades], ?_,
        by simp [hupgrades]⟩
      intro i hi
      rw [hplays, List.mem_singleton] at hi
      subst hi
      refine ⟨eachOf_placed (p := .bench slot) hps hentering (fun q r z hz hbase => ?_),
        cardRef, hid, ?_, c, ?_⟩
      · exact absurd (hbase.trans hid.symm) (hd.base_ne (r := c) hz (by simp [hmem]))
      · unfold isSpell
        rw [hcard]
        simp [hfamily]
      · simp [PlayerState.stock, hmem]

/-- An upgraded Summon could be upgraded, and was in play. -/
theorem upgradeSummon_progress {c : PlayerId} {card : CardInstanceId} {p : Position}
    (hd : Distinct s) (ha : engine.accept s (.upgradeSummon c card p) = some (t, es)) :
    Progress ⟨s, some (.upgradeSummon c card p), es⟩ t := by
  obtain ⟨hs, hst, -⟩ := accept_step ha
  have htakes : engine.Takes ⟨s, some (.upgradeSummon c card p), es⟩ t := ha
  have hplays : plays ⟨s, some (.upgradeSummon c card p), es⟩ = [] := by
    rw [plays_eq htakes]
    rfl
  have hupgrades := upgrades_eq htakes
  have hthin := hst.thins hs
  cases hst with
  | @upgraded _ _ _ y cardRef hand entity top newForm topForm free hx hturn hhand hcard hfamily
      hform htop htopForm hallowed =>
      obtain ⟨hattacks, hretreats⟩ := accept_counts ha (by simp)
      have hone : upgrades ⟨s, some (.upgradeSummon c card p), [.summonUpgraded c card p]⟩ =
          [y.base] := by
        rw [hupgrades]
        simp [GameAction.announcement, GameEvent.upgradedIn, hx]
      have hps := summonAt_hand (s.player c) hand
      have hspent : (Board.upgraded y cardRef).turn.upgrade ≠ .available := by
        simp [Board.upgraded]
      refine ⟨hattacks, hretreats, fun i hi => EachOf.place hi hps hspent,
        fun i hi => hi.imp (fun _ hk => hk.imp_right hthin.stocked), ?_, by simp [hplays],
        by simp [hone]⟩
      intro i hi
      rw [hone, List.mem_singleton] at hi
      subst hi
      refine ⟨fun h => h c p y hx rfl hturn, ?_, ?_⟩
      · refine eachOf_placed hps hspent (fun q r z hz hbase => ?_)
        exact hd.position_eq hz hx hbase
      · rintro ⟨k, hk, -, q, hq⟩
        exact hd.base_ne hx hq hk.symm

/-- **Every step within a turn** only uses the limits up. -/
theorem accept_progress {a : GameAction} (hd : Distinct s)
    (ha : engine.accept s a = some (t, es)) (hnone : ∀ p, .turnBegan p ∉ es) :
    Progress ⟨s, some a, es⟩ t := by
  have hrest : (∀ c card slot, a ≠ .playSummon c card slot) →
      (∀ c card p, a ≠ .upgradeSummon c card p) → Progress ⟨s, some a, es⟩ t := by
    intro hplay hupgrade
    obtain ⟨hs, hst, -⟩ := accept_step ha
    have htakes : engine.Takes ⟨s, some a, es⟩ t := ha
    obtain ⟨hattacks, hretreats⟩ := accept_counts ha hnone
    refine .of_kept ?_ ?_ hattacks hretreats ?_ (hst.thins hs)
    · rw [upgrades_eq htakes]
      cases a <;> first | rfl | exact absurd rfl (hupgrade _ _ _)
    · rw [plays_eq htakes]
      cases a <;> first | rfl | exact absurd rfl (hplay _ _ _)
    · refine hst.carries persistent_record.moves hplay hupgrade (fun c p ability targets hint h => ?_)
        (fun p hp => absurd hp (hnone p))
      subst h
      exact hst.carries_skill persistent_record hs (fun _ _ _ => ⟨⟨rfl, rfl, rfl⟩, rfl⟩)
  cases a with
  | playSummon c card slot => exact playSummon_progress hd ha
  | upgradeSummon c card p => exact upgradeSummon_progress hd ha
  | _ => exact hrest (by simp) (by simp)

/-! ## The steps of one turn -/

/-- What some steps of one turn have used up. -/
structure WithinTurn (span : List (Entry GameState GameAction GameEvent)) (s : GameState) :
    Prop where
  attacks : attacks span ≤ s.turn.normalAttackUsed.toNat
  retreats : retreats span ≤ s.turn.normalRetreatUsed.toNat
  spent : ∀ i, i ∈ span.flatMap upgrades ∨ i ∈ span.flatMap plays → Spent s i
  gone : ∀ i ∈ span.flatMap upgrades, ¬Playable s i
  once : (span.flatMap upgrades).Nodup
  disjoint : (span.flatMap upgrades).Disjoint (span.flatMap plays)

theorem WithinTurn.nil (s : GameState) : WithinTurn [] s where
  attacks := Nat.zero_le _
  retreats := Nat.zero_le _
  spent := by simp
  gone := by simp
  once := List.nodup_nil
  disjoint := by simp

theorem attacks_append (tr tr' : List (Entry GameState GameAction GameEvent)) :
    attacks (tr ++ tr') = attacks tr + attacks tr' := by
  unfold attacks
  rw [facts_append, List.countP_append]

theorem WithinTurn.concat (h : WithinTurn span x.before) (hx : Progress x t) :
    WithinTurn (span ++ [x]) t := by
  have hupgrades : (span ++ [x]).flatMap upgrades = span.flatMap upgrades ++ upgrades x := by simp
  have hplays : (span ++ [x]).flatMap plays = span.flatMap plays ++ plays x := by simp
  refine ⟨?_, ?_, ?_, ?_, ?_, ?_⟩
  · have hnow := hx.attacks
    have hbefore := h.attacks
    rw [attacks_append]
    omega
  · have hnow := hx.retreats
    have hbefore := h.retreats
    unfold Summoners.retreats at hnow hbefore ⊢
    rw [List.countP_append]
    omega
  · intro i hi
    rw [hupgrades, hplays, List.mem_append, List.mem_append] at hi
    rcases hi with (hi | hi) | (hi | hi)
    · exact hx.spent i (h.spent i (.inl hi))
    · exact (hx.upgraded i hi).2.1
    · exact hx.spent i (h.spent i (.inr hi))
    · exact (hx.played i hi).1
  · intro i hi hplay
    rw [hupgrades, List.mem_append] at hi
    rcases hi with hi | hi
    · exact h.gone i hi (hx.playable i hplay)
    · exact (hx.upgraded i hi).2.2 (hx.playable i hplay)
  · rw [hupgrades, List.nodup_append]
    refine ⟨h.once, hx.once, fun i hi j hj heq => ?_⟩
    subst heq
    exact (hx.upgraded i hj).1 (h.spent i (.inl hi))
  · rw [hupgrades, hplays]
    intro i hi hp
    rcases List.mem_append.mp hi with hi | hi
    · rcases List.mem_append.mp hp with hp | hp
      · exact h.disjoint hi hp
      · exact h.gone i hi (hx.played i hp).2
    · rcases List.mem_append.mp hp with hp | hp
      · exact (hx.upgraded i hi).1 (h.spent i (.inr hp))
      · exact (hx.upgraded i hi).2.2 (hx.played i hp).2

/-- The steps end with the beginning of a turn, or there are none. -/
def EndsTurn (pre : List (Entry GameState GameAction GameEvent)) : Prop :=
  ∀ y ∈ pre.getLast?, ∃ p, .turnBegan p ∈ y.emitted

/-- The flags of the Spells cast since the turn began, `span` being the steps since. -/
def SpellFlags (span : List (Entry GameState GameAction GameEvent)) (s : GameState) : Prop :=
  ∀ p, s.turn.spellPlayedThisTurn.get p = true ↔
    ∃ card targets, .spellCast p card targets ∈ facts span

theorem SpellFlags.concat (h : SpellFlags span x.before) (hx : engine.Takes x t)
    (hnone : ∀ p, .turnBegan p ∉ x.emitted) : SpellFlags (span ++ [x]) t := by
  intro p
  have hnow : (∃ card targets, .spellCast p card targets ∈ x.emitted) ↔
      x.input.any (GameAction.isCastBy p) = true := by
    have hiff : ∀ card targets, .spellCast p card targets ∈ x.emitted ↔
        .spellCast p card targets ∈ x.input.elim [] GameAction.announcement :=
      fun card targets => mem_announced hx rfl
    simp only [hiff]
    cases x.input with
    | none => simp
    | some a =>
        cases a with
        | castSpell c card targets hint =>
            simp [GameAction.announcement, GameAction.isCastBy, eq_comm]
        | _ => simp [GameAction.announcement, GameAction.isCastBy]
  have hflag : t.turn.spellPlayedThisTurn.get p =
      (x.before.turn.spellPlayedThisTurn.get p || x.input.any (GameAction.isCastBy p)) := by
    cases hinput : x.input with
    | none =>
        rw [(drainStep_flags (hx.next hinput)).2.2]
        simp
    | some a =>
        obtain ⟨hs, hst, -⟩ := accept_step (hx.accept hinput)
        exact (hst.flags hs hnone).2.2 p
  rw [hflag, Bool.or_eq_true, h p, ← hnow]
  simp only [facts_append, facts_cons, facts_nil, List.append_nil, List.mem_append, exists_or]

/-- What a run keeps. -/
structure Limits (tr : List (Entry GameState GameAction GameEvent)) (s : GameState) : Prop where
  distinct : Distinct s
  within : ∀ pre span, tr = pre ++ span → SameTurn span → WithinTurn span s
  spells : ∀ pre span, tr = pre ++ span → EndsTurn pre → SameTurn span → SpellFlags span s

theorem Limits.step (h : Limits tr x.before) (hx : engine.Takes x t) (hd : Distinct t)
    (hprogress : (∀ p, .turnBegan p ∉ x.emitted) → Progress x t)
    (hbegun : ∀ p, .turnBegan p ∈ x.emitted → ∀ q, t.turn.spellPlayedThisTurn.get q = false)
    (hidle : EndsTurn (tr ++ [x]) → ∃ p, .turnBegan p ∈ x.emitted) : Limits (tr ++ [x]) t := by
  refine ⟨hd, fun pre span heq hsame => ?_, fun pre span heq hends hsame => ?_⟩
  · rcases List.eq_nil_or_concat span with rfl | ⟨front, last, rfl⟩
    · exact .nil t
    · rw [List.concat_eq_append] at heq hsame ⊢
      rw [← List.append_assoc] at heq
      obtain ⟨htr, hlast⟩ := List.append_inj' heq rfl
      cases hlast
      obtain ⟨hbefore, hnone⟩ := SameTurn.concat.mp hsame
      exact (h.within pre front htr hbefore).concat (hprogress hnone)
  · rcases List.eq_nil_or_concat span with rfl | ⟨front, last, rfl⟩
    · rw [List.append_nil] at heq
      rw [← heq] at hends
      obtain ⟨p, hp⟩ := hidle hends
      intro q
      rw [hbegun p hp q]
      simp
    · rw [List.concat_eq_append] at heq hsame ⊢
      rw [← List.append_assoc] at heq
      obtain ⟨htr, hlast⟩ := List.append_inj' heq rfl
      cases hlast
      obtain ⟨hbefore, hnone⟩ := SameTurn.concat.mp hsame
      exact (h.spells pre front htr hends hbefore).concat hx hnone

theorem run_limits {cards : CardSet} {scenario : Scenario} {start : GameState}
    (hstart : fromScenario cards scenario = .ok start) (hr : engine.Run start tr s)
    (hu : Machine.Passes tr s pre u) : Limits pre u := by
  have hends : ∀ {tr : List (Entry GameState GameAction GameEvent)}
      {x : Entry GameState GameAction GameEvent}, EndsTurn (tr ++ [x]) →
        ∃ p, .turnBegan p ∈ x.emitted := fun h => h _ (by simp)
  have hfirst : Limits [] start := by
    refine ⟨start_nodup hstart, fun pre span heq _ => ?_, fun pre span heq _ _ => ?_⟩
    · obtain ⟨-, rfl⟩ := List.append_eq_nil_iff.mp heq.symm
      exact .nil start
    · obtain ⟨-, rfl⟩ := List.append_eq_nil_iff.mp heq.symm
      obtain ⟨-, -, -, hs⟩ := fromScenario_parts hstart
      intro q
      rw [hs]
      cases q <;> simp [PerPlayer.get]
  refine hr.passes (opening_of_fromScenario hstart).rest hfirst ?_ ?_ hu
  · intro tr s t a es hI _ ha
    obtain ⟨hs, hst, -⟩ := accept_step ha
    refine hI.step ha (hI.distinct.action hs hst) (accept_progress hI.distinct ha)
      (fun p hp q => ?_) hends
    obtain ⟨-, -, -, -, -, -, rfl⟩ := hst.turnBegan hs hp
    cases q <;> rfl
  · intro tr s t es hI hn
    have hquiet := drainStep_unannounced hn
    refine hI.step (x := ⟨s, none, es⟩) hn (hI.distinct.drainStep hn)
      (fun _ => drainStep_progress hn) (fun p hp => ?_) hends
    cases (hquiet _ hp).2

/-- An upgrade names a Summon that is there. -/
theorem upgrade_present {c : PlayerId} {card : CardInstanceId} {p : Position}
    (h : engine.Takes x t) (he : .summonUpgraded c card p ∈ x.emitted) :
    ∃ y, (x.before.player c).summonAt p = some y := by
  rw [mem_announced h rfl] at he
  have hinput : x.input = some (.upgradeSummon c card p) := by
    rcases hx : x.input with _ | a
    · simp [hx] at he
    · cases a <;> simp_all [GameAction.announcement]
  obtain ⟨-, hst, -⟩ := accept_step (h.accept hinput)
  generalize x.before = before at hst ⊢
  generalize x.emitted = emitted at hst
  cases hst with
  | upgraded _ hx _ _ _ _ _ _ _ _ => exact ⟨_, hx⟩

/-- A play puts a Summon of the card it names on the Bench. -/
theorem play_present {c : PlayerId} {card : CardInstanceId} {slot : BenchSlot}
    (h : engine.Takes x t) (he : .summonPlayed c card slot ∈ x.emitted) :
    ∃ y, (t.player c).bench.get slot = some y ∧ y.base = card := by
  rw [mem_announced h rfl] at he
  have hinput : x.input = some (.playSummon c card slot) := by
    rcases hx : x.input with _ | a
    · simp [hx] at he
    · cases a <;> simp_all [GameAction.announcement]
  obtain ⟨-, hst, -⟩ := accept_step (h.accept hinput)
  generalize x.before = before at hst
  generalize x.emitted = emitted at hst
  cases hst with
  | @played _ _ _ cardRef _ _ _ _ hhand _ _ _ =>
      refine ⟨Board.enteringSummon c cardRef, ?_, hhand.mem.2⟩
      rw [GameState.player_setPlayer_self, Bench.get_set_self]

end

/-- **The limits of a turn hold over every run.** Where no turn begins, at most one Attack is declared
and one Retreat accepted, no Summon is upgraded twice, and none that was put in play there; and in
every state a run passes, a player's flag says whether that player has cast a Spell since the turn
began. -/
theorem per_turn_limits {cards : CardSet} {scenario : Scenario} {start s : GameState}
    {tr : List (Entry GameState GameAction GameEvent)}
    (hstart : fromScenario cards scenario = .ok start) (hr : engine.Run start tr s) :
    (∀ pre span post, tr = pre ++ span ++ post → SameTurn span →
      attacks span ≤ 1 ∧ retreats span ≤ 1 ∧ (span.flatMap upgrades).Nodup ∧
        (span.flatMap upgrades).Disjoint (span.flatMap plays)) ∧
      (∀ x ∈ tr, ∃ t, engine.Takes x t ∧
        (∀ c card p, .summonUpgraded c card p ∈ x.emitted →
          ∃ y, (x.before.player c).summonAt p = some y) ∧
        ∀ c card slot, .summonPlayed c card slot ∈ x.emitted →
          ∃ y, (t.player c).bench.get slot = some y ∧ y.base = card) ∧
      ∀ pre span u, Machine.Passes tr s (pre ++ span) u → EndsTurn pre → SameTurn span →
        ∀ p, u.turn.spellPlayedThisTurn.get p = true ↔
          ∃ card targets, .spellCast p card targets ∈ facts span := by
  refine ⟨fun pre span post heq hsame => ?_, fun x hx => ?_, fun pre span u hu hends hsame => ?_⟩
  · have hpasses : ∃ u, Machine.Passes tr s (pre ++ span) u := by
      cases post with
      | nil => exact ⟨s, .inl ⟨by rw [heq, List.append_nil], rfl⟩⟩
      | cons x post => exact ⟨x.before, .inr ⟨x, post, heq, rfl⟩⟩
    obtain ⟨u, hu⟩ := hpasses
    have hin := (run_limits hstart hr hu).within pre span rfl hsame
    exact ⟨hin.attacks.trans (Bool.toNat_le _), hin.retreats.trans (Bool.toNat_le _), hin.once,
      hin.disjoint⟩
  · obtain ⟨pre, post, heq⟩ := List.append_of_mem hx
    obtain ⟨-, t, ht, -⟩ := (hr.split (I := fun _ _ => True) (opening_of_fromScenario hstart).rest
      trivial (fun _ _ _ => trivial) (fun _ _ => trivial)).2 heq
    exact ⟨t, ht, fun c card p he => upgrade_present ht he, fun c card slot he => play_present ht he⟩
  · exact (run_limits hstart hr hu).spells pre span rfl hends hsame

open Fixtures in
/-- A turn with a play, an upgrade, a Retreat, a Spell and an Attack. -/
theorem per_turn_limits_busy :
    ∃ start tr s, fromScenario
        ⟨striking.entities ++ [summon 2 10 .enhanced [attack 2 [strike 10]] [.matter],
          spell 3 .support [.readySummon]]⟩
        (facing { benching (lone (inPlay 1 1)) .first (inPlay 2 1) with
          hand := [card 3 1, card 4 2, card 5 3] } (lone (inPlay 6 1))) = .ok start ∧
      engine.Run start tr s ∧ tr.flatMap upgrades = [⟨1⟩] ∧ tr.flatMap plays = [⟨3⟩] ∧
      attacks tr ≤ 1 ∧ retreats tr ≤ 1 ∧ ∃ card targets, .spellCast .one card targets ∈ facts tr := by
  have hdemo : (demoTrace
      ⟨striking.entities ++ [summon 2 10 .enhanced [attack 2 [strike 10]] [.matter],
        spell 3 .support [.readySummon]]⟩
      (facing { benching (lone (inPlay 1 1)) .first (inPlay 2 1) with
        hand := [card 3 1, card 4 2, card 5 3] } (lone (inPlay 6 1)))
      [.playSummon .one ⟨3⟩ .second, .upgradeSummon .one ⟨4⟩ .main, .retreat .one .first none,
        .castSpell .one ⟨5⟩ [.main] none, .passPriority .two, .passPriority .one,
        .declareAttack .one .main none]).map (fun r =>
          decide (r.2.1.flatMap upgrades = [⟨1⟩] ∧ r.2.1.flatMap plays = [⟨3⟩] ∧
            (facts r.2.1).all (fun e => !e.isTurnBegan) = true ∧
            r.2.2.turn.spellPlayedThisTurn.get .one = true)) = some true := by
    decide +kernel
  obtain ⟨⟨start, tr, s⟩, hr, hv⟩ := Option.map_eq_some_iff.mp hdemo
  obtain ⟨hupgrades, hplays, hquiet, hflag⟩ := of_decide_eq_true hv
  obtain ⟨hstart, hrun⟩ := run_of_demoTrace hr
  have hsame : SameTurn tr := by
    intro p hp
    cases List.all_eq_true.mp hquiet _ hp
  obtain ⟨hspans, -, hspells⟩ := per_turn_limits hstart hrun
  obtain ⟨hattacks, hretreats, -⟩ := hspans [] tr [] (by simp) hsame
  exact ⟨start, tr, s, hstart, hrun, hupgrades, hplays, hattacks, hretreats,
    (hspells [] tr s (.inl ⟨rfl, rfl⟩) (by simp [EndsTurn]) hsame .one).mp hflag⟩

end Summoners
