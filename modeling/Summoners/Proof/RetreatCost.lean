import Mathlib.Algebra.Ring.Int.Defs
import Summoners.Cards.Specimen
import Summoners.Cards.Loaded
import Summoners.Steps.Boards

/-! # What a Retreat costs

The deltas of the opposing Passives are summed in `i32`. `sumI32` is that sum where no addition
overflows; the cost charged is the true one, and no addition overflows, exactly where the true sum
fits.
-/

namespace Summoners
set_option autoImplicit false

open RunToCompletion

/-! ## Sums in `i32` -/

/-- `i32::MAX`. -/
def i32Max : ℕ := 2147483647

/-- `i32` addition, without a result where it overflows. -/
def addI32 (a b : Int32) : Option Int32 :=
  if -2147483648 ≤ a.toInt + b.toInt ∧ a.toInt + b.toInt ≤ i32Max then some (a + b) else none

/-- `Iterator::sum`, likewise. -/
def sumI32 (deltas : List Int32) : Option Int32 := deltas.foldlM addI32 0

theorem toInt_add_of_fits {a b : Int32} (h : -2147483648 ≤ a.toInt + b.toInt)
    (h' : a.toInt + b.toInt ≤ i32Max) : (a + b).toInt = a.toInt + b.toInt := by
  have hmax : (i32Max : ℤ) = 2147483647 := rfl
  rw [Int32.toInt_add, Int.bmod_def]
  split_ifs <;> omega

theorem sum_nonneg {deltas : List Int32} (h : ∀ d ∈ deltas, 0 ≤ d.toInt) :
    0 ≤ (deltas.map Int32.toInt).sum := by
  induction deltas with
  | nil => simp
  | cons d deltas ih =>
      have hd := h d List.mem_cons_self
      have hrest := ih (fun e he => h e (List.mem_cons_of_mem _ he))
      rw [List.map_cons, List.sum_cons]
      omega

/-- Where no delta is negative, the loop overflows exactly if the whole sum does not fit. -/
theorem foldlM_addI32_iff {deltas : List Int32} {a : Int32} (ha : 0 ≤ a.toInt)
    (h : ∀ d ∈ deltas, 0 ≤ d.toInt) :
    ((deltas.foldlM addI32 a).isSome = true ↔ a.toInt + (deltas.map Int32.toInt).sum ≤ i32Max) ∧
      (a.toInt + (deltas.map Int32.toInt).sum ≤ i32Max →
        (deltas.foldl (· + ·) a).toInt = a.toInt + (deltas.map Int32.toInt).sum) := by
  induction deltas generalizing a with
  | nil =>
      have hle : a.toInt ≤ i32Max := by
        have hlt := Int32.toInt_lt a
        have hmax : (i32Max : ℤ) = 2147483647 := rfl
        omega
      simp [hle]
  | cons d deltas ih =>
      have hd := h d List.mem_cons_self
      have hrest : ∀ e ∈ deltas, 0 ≤ e.toInt := fun e he => h e (List.mem_cons_of_mem _ he)
      have hsum := sum_nonneg hrest
      rw [List.foldlM_cons, List.foldl_cons, List.map_cons, List.sum_cons]
      by_cases hfits : a.toInt + d.toInt ≤ i32Max
      · have hadd := toInt_add_of_fits (by omega) hfits
        obtain ⟨hiff, hfold⟩ := ih (a := a + d) (by omega) hrest
        rw [hadd] at hiff hfold
        have hstep : addI32 a d = some (a + d) := if_pos ⟨by omega, hfits⟩
        rw [hstep, ← Int.add_assoc]
        exact ⟨hiff, hfold⟩
      · have hstep : addI32 a d = none := if_neg (fun hcon => hfits hcon.2)
        rw [hstep]
        constructor
        · simp only [Option.bind_eq_bind, Option.bind_none, Option.isSome_none, Bool.false_eq_true,
            false_iff]
          omega
        · intro hle
          omega

theorem sumI32_isSome_iff {deltas : List Int32} (h : ∀ d ∈ deltas, 0 ≤ d.toInt) :
    (sumI32 deltas).isSome = true ↔ (deltas.map Int32.toInt).sum ≤ i32Max := by
  have hiff := (foldlM_addI32_iff (a := 0) (by decide) h).1
  rwa [Int32.toInt_zero, Int.zero_add] at hiff

theorem toInt_foldl {deltas : List Int32} (h : ∀ d ∈ deltas, 0 ≤ d.toInt)
    (hle : (deltas.map Int32.toInt).sum ≤ i32Max) :
    (deltas.foldl (· + ·) (0 : Int32)).toInt = (deltas.map Int32.toInt).sum := by
  have hfold := (foldlM_addI32_iff (a := 0) (by decide) h).2
  rw [Int32.toInt_zero, Int.zero_add] at hfold
  exact hfold hle

/-- An unsigned cost raised by a delta. -/
theorem saturatingAddSigned_toNat {a : UInt32} {b : Int32} (hb : 0 ≤ b.toInt) :
    ((saturatingAddSigned a b).toNat : ℤ) = min (u32Max : ℤ) (a.toNat + b.toInt) := by
  have hmax : (u32Max : ℤ) = 4294967295 := rfl
  have hlt := a.toNat_lt
  unfold saturatingAddSigned
  rw [if_neg (by omega)]
  split_ifs with hle
  · have hsize : ((a.toNat : ℤ) + b.toInt).toNat < UInt32.size := by
      show _ < 4294967296
      omega
    rw [min_eq_right hle, UInt32.toNat_ofNat_of_lt' hsize]
    omega
  · rw [min_eq_left (by omega)]
    rfl

/-! ## The cost of a Retreat -/

/-- The Retreat Cost printed on the card a player's Main shows. -/
def printedRetreatCost (s : GameState) (c : PlayerId) : Option UInt32 :=
  (s.player c).main.bind fun x =>
    (s.cards.get x.chain.top.defId).bind fun top => top.get .retreatCost

/-- What the Summons of the opponent add to it, one entry a Summon. -/
def retreatDeltas (s : GameState) (c : PlayerId) : List Int32 :=
  (Upkeep.controlledSummons (s.player c.opponent)).map (Board.retreatDelta s.cards)

/-- The same in true arithmetic. -/
def trueDelta (s : GameState) (c : PlayerId) : ℤ := ((retreatDeltas s c).map Int32.toInt).sum

/-- The Generic cost that `retreat` hands to `deduct`. -/
def chargedCost (s : GameState) (c : PlayerId) (printed : UInt32) : UInt32 :=
  saturatingAddSigned printed (Board.opposingRetreatCostDelta s c)

/-- What `deduct` answers to it. -/
def retreatPayment (s : GameState) (c : PlayerId) (hint : Option ManaType) (printed : UInt32) :
    Except PaymentError Payment :=
  Payment.deduct (s.player c).mana ⟨0, 0, 0, chargedCost s c printed⟩ hint

section
variable {s : GameState} {c : PlayerId} {slot : BenchSlot} {hint : Option ManaType}

/-- Whether an answer to a Retreat has got as far as its cost. -/
def Priced (answer : Except ActionError ActionOutcome) : Prop :=
  (∃ o, answer = .ok o) ∨ ∃ short, answer = .error (.insufficientMana short)

/-- A Retreat that gets as far as its cost is answered by what `deduct` says to it. -/
theorem retreat_deducts {answer : Except ActionError ActionOutcome}
    (h : Board.retreat s c slot hint = answer) (hpriced : Priced answer) :
    ∃ printed, printedRetreatCost s c = some printed ∧
      match retreatPayment s c hint printed with
      | .ok payment =>
          ∃ o, answer = .ok o ∧ o.events = payment.events c ++ [.summonsSwapped c slot]
      | .error e => answer = .error e.toAction := by
  have hrefused : ∀ e, answer = .error e → (∀ short, e ≠ .insufficientMana short) → False := by
    rintro e rfl hne
    obtain ⟨o, ho⟩ | ⟨short, hshort⟩ := hpriced
    · cases ho
    · exact hne short (Except.error.inj hshort)
  unfold Board.retreat at h
  split at h
  · rename_i e hgate
    refine (hrefused e h.symm fun short hshort => ?_).elim
    unfold Board.requireFreeMainPhase at hgate
    split_ifs at hgate <;> cases hgate <;> cases hshort
  · split at h
    · exact (hrefused _ h.symm (by simp)).elim
    · simp only at h
      split at h
      · rename_i x y hmain hbench
        split at h
        · exact (hrefused _ h.symm (by simp)).elim
        · rename_i top htop
          split at h
          · exact (hrefused _ h.symm (by simp)).elim
          · rename_i printed hprinted
            refine ⟨printed, by simp [printedRetreatCost, hmain, htop, hprinted], ?_⟩
            unfold retreatPayment chargedCost
            split at h
            · rename_i e hdeduct
              rw [hdeduct]
              exact h.symm
            · rename_i payment hdeduct
              rw [hdeduct]
              exact ⟨_, h.symm, rfl⟩
      · exact (hrefused _ h.symm (by simp)).elim

/-- The gates before the handler refuse with other errors than this one. -/
theorem retreat_of_handle {short : ManaBank}
    (h : Apply.handle s (.retreat c slot hint) = .error (.insufficientMana short)) :
    Board.retreat s c slot hint = .error (.insufficientMana short) := by
  unfold Apply.handle at h
  split at h
  · cases h
  · cases h
  · simp only at h
    split at h
    · rename_i e hactor
      unfold Apply.checkActor at hactor
      split_ifs at hactor
      cases hactor
      cases h
    · exact h

/-- What `apply` says to a Retreat, before anything is drained. -/
theorem retreat_of_apply {fuel : ℕ} {answer : Except ActionError ActionOutcome}
    (h : apply fuel s (.retreat c slot hint) = some answer) (hpriced : Priced answer) :
    ∃ first, Board.retreat s c slot hint = first ∧ Priced first ∧
      match first with
      | .ok o => ∃ o', answer = .ok o' ∧ o.events <+: o'.events
      | .error e => answer = .error e := by
  unfold apply at h
  cases hhandle : Apply.handle s (.retreat c slot hint) with
  | error e =>
      rw [hhandle] at h
      cases h
      obtain ⟨o, ho⟩ | ⟨short, hshort⟩ := hpriced
      · cases ho
      · cases hshort
        exact ⟨_, retreat_of_handle hhandle, .inr ⟨short, rfl⟩, rfl⟩
  | ok o =>
      rw [hhandle] at h
      obtain ⟨-, -, hdispatch⟩ := (Apply.handle_cases hhandle).resolve_left (by simp)
      obtain ⟨r, -, rfl⟩ := Option.map_eq_some_iff.mp h
      exact ⟨_, hdispatch, .inl ⟨o, rfl⟩, _, rfl, List.prefix_append _ _⟩

/-- The deltas summed are those of the Summons on the board across. -/
theorem retreatDelta_nonneg {newV5 : Vector UInt8 16 → String → String} {sets : List LoadedSet}
    {library : CardLibrary} (hload : ∀ set ∈ sets, ∃ document, load newV5 document = .ok set)
    (hlibrary : CardLibrary.fromSets sets = .ok library) (x : SummonInstance) :
    0 ≤ (Board.retreatDelta library.coreCards x).toInt := by
  unfold Board.retreatDelta
  split
  · decide
  · rename_i top htop
    split
    · rename_i delta hdelta
      exact delta_nonneg hload hlibrary (List.mem_of_find?_eq_some htop) hdelta
    · decide

/-- The cost charged is the true one, and the sum has a result, exactly where it fits. -/
theorem charges_iff (hnonneg : ∀ x, 0 ≤ (Board.retreatDelta s.cards x).toInt) (printed : UInt32) :
    ((sumI32 (retreatDeltas s c)).isSome = true ∧
        ((chargedCost s c printed).toNat : ℤ) = min (u32Max : ℤ) (printed.toNat + trueDelta s c)) ↔
      trueDelta s c ≤ i32Max := by
  have hdeltas : ∀ d ∈ retreatDeltas s c, 0 ≤ d.toInt := by
    intro d hd
    obtain ⟨x, -, rfl⟩ := List.mem_map.mp hd
    exact hnonneg x
  have hiff := sumI32_isSome_iff hdeltas
  constructor
  · rintro ⟨hsome, -⟩
    exact hiff.mp hsome
  · intro hfits
    refine ⟨hiff.mpr hfits, ?_⟩
    have hsum : (Board.opposingRetreatCostDelta s c).toInt = trueDelta s c :=
      toInt_foldl hdeltas hfits
    have hpos : 0 ≤ trueDelta s c := sum_nonneg hdeltas
    rw [chargedCost, saturatingAddSigned_toNat (by omega), hsum]

end

theorem retreat_charges_true_cost_iff (newV5 : Vector UInt8 16 → String → String)
    (sets : List LoadedSet) (library : CardLibrary) (scenario : Scenario) (start s : GameState)
    (evs : List GameEvent) (c : PlayerId) (slot : BenchSlot) (hint : Option ManaType) (fuel : ℕ)
    (answer : Except ActionError ActionOutcome)
    (hload : ∀ set ∈ sets, ∃ document, load newV5 document = .ok set)
    (hlibrary : CardLibrary.fromSets sets = .ok library)
    (hstart : fromScenario library.coreCards scenario = .ok start) (hr : Reachable start evs s)
    (hanswer : apply fuel s (.retreat c slot hint) = some answer)
    (hpriced : (∃ o, answer = .ok o) ∨ ∃ short, answer = .error (.insufficientMana short)) :
    ∃ printed, printedRetreatCost s c = some printed ∧
      (∀ o, answer = .ok o →
        ∃ payment, retreatPayment s c hint printed = .ok payment ∧ payment.events c <+: o.events) ∧
      (∀ short, answer = .error (.insufficientMana short) →
        retreatPayment s c hint printed = .error (.insufficient short)) ∧
      (((sumI32 (retreatDeltas s c)).isSome = true ∧
          ((chargedCost s c printed).toNat : ℤ) =
            min (u32Max : ℤ) (printed.toNat + trueDelta s c)) ↔
        trueDelta s c ≤ i32Max) := by
  obtain ⟨tr, hrun, -⟩ := reachable_iff.mp hr
  obtain ⟨-, hcards⟩ := (opening_of_fromScenario hstart).run_each
    (inherited_owner library.coreCards) (opening_of_fromScenario hstart).owner hrun
  obtain ⟨first, hfirst, hpricedFirst, hrest⟩ := retreat_of_apply hanswer hpriced
  obtain ⟨printed, hprinted, hdeducted⟩ := retreat_deducts hfirst hpricedFirst
  refine ⟨printed, hprinted, ?_, ?_, charges_iff ?_ printed⟩
  · rintro o rfl
    cases first with
    | error e => cases hrest
    | ok o' =>
        obtain ⟨o'', ho, hprefix⟩ := hrest
        cases ho
        cases hdeduct : retreatPayment s c hint printed with
        | error e => simp [hdeduct] at hdeducted
        | ok payment =>
            simp only [hdeduct] at hdeducted
            obtain ⟨_, ho', hevents⟩ := hdeducted
            cases ho'
            exact ⟨payment, rfl, (hevents ▸ List.prefix_append _ _).trans hprefix⟩
  · rintro short rfl
    cases first with
    | ok o =>
        obtain ⟨o', ho, -⟩ := hrest
        cases ho
    | error e =>
        cases hrest
        cases hdeduct : retreatPayment s c hint printed with
        | ok payment =>
            simp only [hdeduct] at hdeducted
            obtain ⟨_, ho, -⟩ := hdeducted
            cases ho
        | error e =>
            simp only [hdeduct, Except.error.injEq] at hdeducted
            cases e <;> simp [PaymentError.toAction] at hdeducted
            rw [hdeducted]
  · intro x
    rw [hcards]
    exact retreatDelta_nonneg hload hlibrary x

section
open Specimen Fixtures

/-- A Summon to retreat and one behind it, against two that raise the cost by `toll` each. -/
def tolled : Scenario :=
  facing (benching (lone (inPlay 1 "warden")) .first (inPlay 2 "warden"))
    (benching (lone (inPlay 3 "warden")) .first (inPlay 4 "warden"))

/-- What loads and starts it, and the answer to the Retreat. -/
def tolledRetreat (toll : UInt32) :
    Option ((LoadedSet × CardLibrary) × GameState × Except ActionError ActionOutcome) :=
  (shelf [warden toll]).bind fun r =>
    match fromScenario r.2.coreCards tolled with
    | .ok start => (apply 60 start (.retreat .one .first none)).map fun answer => (r, start, answer)
    | .error _ => none

theorem tolled_parts {toll : UInt32} {l : LoadedSet} {library : CardLibrary} {start : GameState}
    {answer : Except ActionError ActionOutcome}
    (h : tolledRetreat toll = some ((l, library), start, answer)) :
    load newV5 (document [warden toll]) = .ok l ∧ CardLibrary.fromSets [l] = .ok library ∧
      fromScenario library.coreCards tolled = .ok start ∧
      apply 60 start (.retreat .one .first none) = some answer := by
  unfold tolledRetreat at h
  obtain ⟨r, hshelf, h⟩ := Option.bind_eq_some_iff.mp h
  split at h
  · rename_i start' hstart
    obtain ⟨answer', hanswer, heq⟩ := Option.map_eq_some_iff.mp h
    cases heq
    exact ⟨(library_of_shelf hshelf).1, (library_of_shelf hshelf).2, hstart, hanswer⟩
  · cases h

/-- Two tolls of `i32::MAX` wrap around, and the Retreat is free. -/
theorem retreat_charge_wraps : ∃ l library start o,
    load newV5 (document [warden 2147483647]) = .ok l ∧ CardLibrary.fromSets [l] = .ok library ∧
      fromScenario library.coreCards tolled = .ok start ∧
      Accepted start (.retreat .one .first none) o ∧ printedRetreatCost start .one = some 0 ∧
      trueDelta start .one = 4294967294 ∧ sumI32 (retreatDeltas start .one) = none ∧
      chargedCost start .one 0 = 0 ∧
      ¬ ((sumI32 (retreatDeltas start .one)).isSome = true ∧
        ((chargedCost start .one 0).toNat : ℤ) =
          min (u32Max : ℤ) ((0 : UInt32).toNat + trueDelta start .one)) := by
  have hdemo : (tolledRetreat 2147483647).map (fun r => decide (r.2.2.toOption.isSome = true ∧
      printedRetreatCost r.2.1 .one = some 0 ∧ trueDelta r.2.1 .one = 4294967294 ∧
      sumI32 (retreatDeltas r.2.1 .one) = none ∧ chargedCost r.2.1 .one 0 = 0)) = some true := by
    decide +kernel
  obtain ⟨⟨⟨l, library⟩, start, answer⟩, hd, hv⟩ := Option.map_eq_some_iff.mp hdemo
  obtain ⟨hload, hlibrary, hstart, hanswer⟩ := tolled_parts hd
  obtain ⟨haccepted, hprinted, htrue, hnone, hcharged⟩ := of_decide_eq_true hv
  cases answer with
  | error e => cases haccepted
  | ok o =>
      refine ⟨l, library, start, o, hload, hlibrary, hstart, ⟨60, hanswer⟩, hprinted, htrue, hnone,
        hcharged, ?_⟩
      rintro ⟨hsome, -⟩
      rw [hnone] at hsome
      cases hsome

def refusedForMana : Except ActionError ActionOutcome → Bool
  | .error (.insufficientMana _) => true
  | _ => false

/-- Two tolls of 3 make a Retreat that cannot be paid for, at the true cost. -/
theorem retreat_charges_true_cost_tolled : ∃ l library start short,
    load newV5 (document [warden 3]) = .ok l ∧ CardLibrary.fromSets [l] = .ok library ∧
      fromScenario library.coreCards tolled = .ok start ∧
      apply 60 start (.retreat .one .first none) = some (.error (.insufficientMana short)) ∧
      retreatPayment start .one none 0 = .error (.insufficient short) ∧
      ((chargedCost start .one 0).toNat : ℤ) = 6 := by
  have hdemo : (tolledRetreat 3).map (fun r => decide (trueDelta r.2.1 .one = 6 ∧
      printedRetreatCost r.2.1 .one = some 0 ∧ refusedForMana r.2.2 = true)) = some true := by
    decide +kernel
  obtain ⟨⟨⟨l, library⟩, start, answer⟩, hd, hv⟩ := Option.map_eq_some_iff.mp hdemo
  obtain ⟨hload, hlibrary, hstart, hanswer⟩ := tolled_parts hd
  obtain ⟨htrue, hzero, hshort⟩ := of_decide_eq_true hv
  unfold refusedForMana at hshort
  split at hshort
  · rename_i short hrefused
    subst hrefused
    have hloaded : ∀ set ∈ [l], ∃ document, load newV5 document = .ok set := by
      intro set hset
      rw [List.mem_singleton.mp hset]
      exact ⟨_, hload⟩
    obtain ⟨printed, hprinted, -, hunaffordable, hiff⟩ :=
      retreat_charges_true_cost_iff newV5 [l] library tolled start start [] .one .first none 60 _
        hloaded hlibrary hstart .refl hanswer (.inr ⟨short, rfl⟩)
    rw [hzero] at hprinted
    cases hprinted
    refine ⟨l, library, start, short, hload, hlibrary, hstart, hanswer, hunaffordable short rfl, ?_⟩
    rw [(hiff.mpr (by rw [htrue]; decide)).2, htrue]
    decide
  · cases hshort

end

end Summoners
