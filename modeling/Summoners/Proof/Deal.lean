import Summoners.Cards.Recipe
import Summoners.Proof.Chains
import Summoners.Proof.Conservation
import Summoners.Setup

/-! # The opening deal

A resolved Deck has the twenty cards `deal` splits and a Starter that may stand in Main, so a match
between two of them always starts, whatever the shuffle does.
-/

namespace Summoners
set_option autoImplicit false

open Setup

/-! ## Minting -/

theorem mint_ok (next : UInt32) (h : next.toNat + 1 ≤ u32Max) :
    mint next = some (⟨next⟩, next + 1) ∧ (next + 1).toNat = next.toNat + 1 := by
  have hmax : u32Max = 4294967295 := rfl
  have hone : (1 : UInt32).toNat = 1 := rfl
  refine ⟨if_pos (by omega), ?_⟩
  rw [UInt32.toNat_add, hone, Nat.mod_eq_of_lt (by omega)]

/-- Cards are minted in a row. -/
theorem mintAll_ok (next : UInt32) (defs : List EntityId) (h : next.toNat + defs.length ≤ u32Max) :
    ∃ cards next', mintAll next defs = some (cards, next') ∧ cards.map (·.defId) = defs ∧
      cards.map (·.instanceId.id.toNat) = List.range' next.toNat defs.length ∧
      next'.toNat = next.toNat + defs.length := by
  induction defs generalizing next with
  | nil => exact ⟨[], next, rfl, rfl, rfl, rfl⟩
  | cons defId defs ih =>
      rw [List.length_cons] at h
      obtain ⟨hmint, hnext⟩ := mint_ok next (by omega)
      obtain ⟨cards, next', hcards, hdefs, hids, hlast⟩ := ih (next + 1) (by omega)
      refine ⟨⟨⟨next⟩, defId⟩ :: cards, next', ?_, by simp [hdefs], ?_, ?_⟩
      · simp [mintAll, hmint, hcards]
      · rw [List.map_cons, hids, hnext, List.length_cons, List.range'_succ]
      · rw [hlast, hnext, List.length_cons]
        omega

/-! ## One player -/

/-- The hand, the Prizes and the deck cut off twenty cards in this order. -/
def dealt (starter : CardRef) (body : List CardRef) : ScenarioPlayer :=
  { deck := (body.drop 5).drop 2
    hand := body.take 5
    prizes := (body.drop 5).take 2
    discard := []
    mana := ⟨0, 0, 0⟩
    mainLosses := 0
    main := some ⟨[starter], 0, .exhausted⟩
    bench := fun _ => none }

theorem dealt_cardRefs (starter : CardRef) (body : List CardRef) :
    (Scenario.playerCardRefs (dealt starter body)).Perm (starter :: body) := by
  have hchains : (Scenario.positionedSummons (dealt starter body)).flatMap (fun r => r.2.chain) =
      [starter] := rfl
  have hzones : ((dealt starter body).deck ++ (dealt starter body).hand ++
      (dealt starter body).prizes).Perm body := by
    rw [List.append_assoc]
    apply List.perm_append_comm.trans
    show (body.take 5 ++ (body.drop 5).take 2 ++ (body.drop 5).drop 2).Perm body
    rw [List.append_assoc, List.take_append_drop, List.take_append_drop]
  unfold Scenario.playerCardRefs
  rw [hchains]
  show (_ ++ [] ++ [starter]).Perm _
  rw [List.append_nil]
  exact (hzones.append_right _).trans (List.perm_append_singleton _ _)

/-- What `deal` makes of a Deck, its instances minted in a row from `next`. -/
structure DealtFrom (built : Deck) (next : ℕ) (starter : CardRef) (body : List CardRef) : Prop where
  front : starter.defId = built.starter
  length : body.length = 20
  cards : (body.map (·.defId)).Perm built.body
  instances : (starter :: body).map (·.instanceId.id.toNat) = List.range' next 21

section
variable {Rng : Type} {shuffle : Rng → List EntityId → List EntityId × Rng}

theorem deal_ok (hshuffle : ∀ shuffler cards, (shuffle shuffler cards).1.Perm cards) {built : Deck}
    (hbody : built.body.length = 20) (next : UInt32) (h : next.toNat + 21 ≤ u32Max)
    (shuffler : Rng) : ∃ starter body next' shuffler', deal shuffle built next shuffler =
      some (dealt starter body, next', shuffler') ∧ next'.toNat = next.toNat + 21 ∧
      DealtFrom built next.toNat starter body := by
  have hperm := hshuffle shuffler built.body
  obtain ⟨hmint, hnext⟩ := mint_ok next (by omega)
  have hlength : (shuffle shuffler built.body).1.length = 20 := by rw [hperm.length_eq, hbody]
  obtain ⟨cards, next', hcards, hdefs, hids, hlast⟩ :=
    mintAll_ok (next + 1) (shuffle shuffler built.body).1 (by omega)
  have hcount : cards.length = 20 := by rw [← hlength, ← hdefs, List.length_map]
  refine ⟨⟨⟨next⟩, built.starter⟩, cards, next', (shuffle shuffler built.body).2, ?_, by omega,
    rfl, hcount, hdefs ▸ hperm, ?_⟩
  · simp [deal, hmint, shuffledBody, hcards, splitAt, handSize, prizeCount, hcount, dealt]
  · rw [List.map_cons, hids, hnext, hlength]
    rfl

end

/-! ## Both players -/

/-- What a player starts with. -/
structure OpeningSide (built : Deck) (ps : PlayerState) : Prop where
  main : ∃ x starter, ps.main = some x ∧ x.chain.layers = [starter] ∧
    starter.defId = built.starter
  bench : ∀ slot, ps.bench.get slot = none
  hand : ps.hand.length = 5
  prizes : ps.prizes.length = 2
  deck : ps.deck.length = 13
  discard : ps.discard = []
  enchantments : ps.enchantments = []
  definitions : (ps.cardRefs.map (·.defId)).Perm (built.starter :: built.body)

section
variable {built : Deck} {next : ℕ} {starter : CardRef} {body : List CardRef}

theorem DealtFrom.definitions (h : DealtFrom built next starter body) :
    ((Scenario.playerCardRefs (dealt starter body)).map (·.defId)).Perm
      (built.starter :: built.body) := by
  refine ((dealt_cardRefs starter body).map _).trans ?_
  rw [List.map_cons, h.front]
  exact h.cards.cons _

theorem DealtFrom.openingSide (h : DealtFrom built next starter body) {ps : PlayerState}
    (hps : AsDescribed (dealt starter body) ps)
    (hrefs : ps.cardRefs = Scenario.playerCardRefs (dealt starter body)) :
    OpeningSide built ps where
  main := by
    have hmain := hps.board .main
    obtain ⟨x, hx, heq⟩ := Option.map_eq_some_iff.mp hmain
    cases heq' : x.chain.layers with
    | nil => simp [heq'] at heq
    | cons ref rest =>
        simp [heq'] at heq
        obtain ⟨⟨rfl, rfl⟩, -, -⟩ := heq
        exact ⟨x, ref, hx, heq', h.front⟩
  bench slot := by
    have hslot := hps.board (.bench slot)
    exact Option.map_eq_none_iff.mp hslot
  hand := by
    rw [hps.hand]
    simp [dealt, h.length]
  prizes := by
    rw [hps.prizes]
    simp [dealt, h.length]
  deck := by
    rw [hps.deck]
    simp [dealt, h.length]
  discard := hps.discard
  enchantments := hps.enchantments
  definitions := by
    rw [hrefs]
    exact h.definitions

end

/-- The two deals make a scenario that `from_scenario` accepts. -/
theorem interpretable_of_dealt {library : CardLibrary} {one two : Deck} {first second : CardRef}
    {body body' : List CardRef}
    (hknown : ∀ id, id ∈ one.starter :: one.body ∨ id ∈ two.starter :: two.body →
      library.coreCards.get id ≠ none)
    (hone : ∀ e, library.coreCards.get one.starter = some e → e.get .form = some .base)
    (htwo : ∀ e, library.coreCards.get two.starter = some e → e.get .form = some .base)
    (h : DealtFrom one 1 first body) (h' : DealtFrom two 22 second body') :
    Interpretable library.coreCards ⟨⟨dealt first body, dealt second body'⟩, .one, some .mk⟩ where
  distinct := by
    have hids : ((Scenario.allCardRefs ⟨⟨dealt first body, dealt second body'⟩, .one,
        some .mk⟩).map (·.instanceId.id.toNat)).Perm (List.range' 1 42) := by
      show ((Scenario.playerCardRefs (dealt first body) ++
        Scenario.playerCardRefs (dealt second body')).map _).Perm _
      rw [List.map_append]
      refine (((dealt_cardRefs first body).map _).append
        ((dealt_cardRefs second body').map _)).trans ?_
      rw [h.instances, h'.instances]
      exact List.Perm.refl _
    have hnodup := hids.nodup_iff.mpr List.nodup_range'
    refine List.Nodup.of_map (fun i : CardInstanceId => i.id.toNat) ?_
    rwa [List.map_map]
  known := by
    intro card hcard
    apply hknown
    rcases List.mem_append.mp hcard with hcard | hcard
    · exact .inl (h.definitions.mem_iff.mp (List.mem_map_of_mem hcard))
    · exact .inr (h'.definitions.mem_iff.mp (List.mem_map_of_mem hcard))
  chains := by
    have hbase : ∀ {starter : CardRef} {id : EntityId}, starter.defId = id →
        library.coreCards.get id ≠ none →
        (∀ e, library.coreCards.get id = some e → e.get .form = some .base) →
        LegalChain library.coreCards [starter] := by
      rintro starter _ rfl hget hform
      obtain ⟨e, he⟩ := Option.ne_none_iff_exists'.mp hget
      have hprinted : printedForm library.coreCards starter = some .base := by
        simp [printedForm, he, hform e he]
      exact ⟨List.cons_ne_nil _ _, climbs_singleton hprinted⟩
    intro player position summon hsummon
    cases player with
    | one =>
        cases position with
        | main =>
            cases hsummon
            exact hbase h.front (hknown _ (.inl List.mem_cons_self)) hone
        | bench slot => cases hsummon
    | two =>
        cases position with
        | main =>
            cases hsummon
            exact hbase h'.front (hknown _ (.inr List.mem_cons_self)) htwo
        | bench slot => cases hsummon
  inPlay player := by
    refine ⟨.main, ?_⟩
    cases player <;> exact Option.some_ne_none _

/-- The deck a player was dealt from. -/
def deckOf (one two : Deck) : PlayerId → Deck
  | .one => one
  | .two => two

theorem opening_deal_is_legal {Rng : Type} (newV5 : Vector UInt8 16 → String → String)
    (sets : List LoadedSet) (library : CardLibrary) (rawOne rawTwo : Dto.Deck) (one two : Deck)
    (seedFromU64 : UInt64 → Rng) (shuffle : Rng → List EntityId → List EntityId × Rng)
    (seed : UInt64) (hload : ∀ set ∈ sets, ∃ document, load newV5 document = .ok set)
    (hlibrary : CardLibrary.fromSets sets = .ok library)
    (hone : Deck.resolve rawOne library = .ok one) (htwo : Deck.resolve rawTwo library = .ok two)
    (hshuffle : ∀ shuffler cards, (shuffle shuffler cards).1.Perm cards) :
    ∃ s, initialState seedFromU64 shuffle library one two seed = some (.ok s) ∧
      (s.cardRefs.map (·.instanceId)).Nodup ∧ s.cardRefs.length = 42 ∧
      (∀ player, OpeningSide (deckOf one two player) (s.player player)) ∧ s.status = .playing ∧
      s.turn.activePlayer = .one ∧ s.turn.phase = .main ∧ s.turn.window = none ∧
      s.coin = some .mk ∧ s.pending = none ∧ s.work = [] ∧ s.stack = [] ∧
      s.stackSegmentBases = [] := by
  have hbuilt : ∀ {raw : Dto.Deck} {built : Deck}, Deck.resolve raw library = .ok built →
      built.body.length = 20 ∧ (∀ id ∈ built.starter :: built.body, library.coreCards.get id ≠ none) ∧
        ∀ e, library.coreCards.get built.starter = some e → e.get .form = some .base := by
    intro raw built hresolve
    have hspec := Deck.resolve_spec raw library
    rw [hresolve] at hspec
    obtain ⟨hlegal, hexpands⟩ := hspec
    refine ⟨Deck.body_length hlegal hexpands, fun id hid => ?_, fun e he => ?_⟩
    · rcases List.mem_cons.mp hid with rfl | hid
      · exact known_of_cardId hload hlibrary hexpands.starter
      · obtain ⟨item, -, hitem⟩ := Deck.mem_body hexpands hid
        exact known_of_cardId hload hlibrary hitem
    · obtain ⟨id, e', hid, he', hform⟩ := hlegal.starterBase
      rw [hexpands.starter] at hid
      cases hid
      rw [he] at he'
      cases he'
      exact hform
  obtain ⟨hlengthOne, hknownOne, hbaseOne⟩ := hbuilt hone
  obtain ⟨hlengthTwo, hknownTwo, hbaseTwo⟩ := hbuilt htwo
  have hmax : u32Max = 4294967295 := rfl
  have hfirst : (1 : UInt32).toNat = 1 := rfl
  obtain ⟨first, body, next, shuffler, hdeal, hnext, hfrom⟩ :=
    deal_ok hshuffle hlengthOne 1 (by omega) (seedFromU64 seed)
  obtain ⟨second, body', next', shuffler', hdeal', -, hfrom'⟩ :=
    deal_ok hshuffle hlengthTwo next (by omega) shuffler
  rw [hnext] at hfrom'
  have hinterpretable := interpretable_of_dealt (fun id hid => hid.elim (hknownOne id) (hknownTwo id))
    hbaseOne hbaseTwo hfrom hfrom'
  obtain ⟨s, hs⟩ := fromScenario_isOk_iff.mpr hinterpretable
  have hdescribed := asDescribed_of_fromScenario hs
  obtain ⟨-, -, hplayers, hparts⟩ := fromScenario_parts hs
  have hopen := opening_of_fromScenario hs
  have hrefsOne := cardRefs_of_build (hplayers .one)
  have hrefsTwo := cardRefs_of_build (hplayers .two)
  have hsideOne := hfrom.openingSide (hdescribed .one) hrefsOne
  have hsideTwo := hfrom'.openingSide (hdescribed .two) hrefsTwo
  have hpending : s.pending = none := by
    obtain ⟨x, -, hx, -⟩ := hsideOne.main
    obtain ⟨y, -, hy, -⟩ := hsideTwo.main
    have hmains : s.players.one.main = some x ∧ s.players.two.main = some y := ⟨hx, hy⟩
    rw [hopen.pending]
    simp [Scenario.derivePending, hmains]
  refine ⟨s, ?_, start_nodup hs, ?_, ?_, hopen.status, ?_, hopen.phase, hopen.window, ?_, hpending,
    hopen.work, hopen.stack, hopen.bases⟩
  · simp [initialState, hdeal, hdeal', hs, Except.mapError]
  · have hcount : ∀ {built : Deck} {ps : PlayerState}, OpeningSide built ps →
        built.body.length = 20 → ps.cardRefs.length = 21 := by
      intro built ps hside hbody
      have hperm := hside.definitions.length_eq
      rw [List.length_map, List.length_cons, hbody] at hperm
      exact hperm
    rw [GameState.cardRefs, hopen.stack, List.length_append, List.length_append,
      hcount hsideOne hlengthOne, hcount hsideTwo hlengthTwo]
    rfl
  · intro player
    cases player with
    | one => exact hsideOne
    | two => exact hsideTwo
  · rw [hparts]
  · rw [hparts]

/-- Two Herald Decks, shuffled into reverse order. -/
theorem opening_deal_is_legal_heralds : ∃ library deck s,
    Deck.resolve heraldDeck library = .ok deck ∧
      initialState (fun seed => seed) (fun shuffler cards => (cards.reverse, shuffler)) library deck
        deck 7 = some (.ok s) ∧
      s.cardRefs.length = 42 ∧ (s.player .two).hand.length = 5 := by
  obtain ⟨⟨⟨l, library⟩, deck⟩, h⟩ := Option.isSome_iff_exists.mp heraldBuilt_isSome
  obtain ⟨hload, hlibrary, hdeck⟩ := heraldBuilt_parts h
  have hloaded : ∀ set ∈ [l], ∃ document, load Specimen.newV5 document = .ok set := by
    intro set hset
    rw [List.mem_singleton.mp hset]
    exact ⟨_, hload⟩
  obtain ⟨s, hs, -, hlength, hsides, -⟩ := opening_deal_is_legal Specimen.newV5 [l] library
    heraldDeck heraldDeck deck deck (fun seed => seed)
    (fun shuffler cards => (cards.reverse, shuffler)) 7 hloaded hlibrary hdeck hdeck
    (fun _ cards => cards.reverse_perm)
  exact ⟨library, deck, s, hdeck, hs, hlength, (hsides .two).hand⟩

end Summoners
