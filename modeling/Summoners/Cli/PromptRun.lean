import Mathlib.Data.List.Induction
import Summoners.Cli.Prompt

/-! # Runs of the prompt

The loop of `play` in `client.rs` over the prompt: a poll that finds no line only looks at the
revision, a line is a step of the form. What a step can do is said once, by `Leads` and `Submits`;
that every form belongs to the view of its revision, and that a list of targets is what was entered,
are invariants of it.
-/

namespace Summoners.Cli
set_option autoImplicit false

open Checked

/-! ## What a step of a form can do -/

section
variable (view : PlayerView) (actor : PlayerIdV1) (n : Option ℕ)

/-- The forms that follow a form. -/
inductive Leads : Form → Form → Prop
  | playCard {card : HandCardView} (h : card ∈ view.hand) : Leads .playCard (.playSlot card.instanceId)
  | upgradeCard {card : HandCardView} (h : card ∈ view.hand) :
      Leads .upgradeCard (.upgradePosition card.instanceId)
  | retreatSlot (slot : BenchSlotV1) : Leads .retreatSlot (.mana (.retreat slot))
  | attackTarget (target : PositionV1) : Leads .attackTarget (.mana (.attack target))
  | castCard {card : HandCardView} (h : card ∈ view.hand) :
      Leads .castCard (.targets (.cast card.instanceId) .empty)
  | skillPosition (position : PositionV1) : Leads .skillPosition (.skillAbility position)
  | skillAbility (position : PositionV1) (skill : ℕ) :
      Leads (.skillAbility position) (.targets (.skill position skill) .empty)
  | done {action : TargetAction} {targets : TargetList} (h : n = some 5) :
      Leads (.targets action targets) (.manaHint action targets)
  | undo {action : TargetAction} {targets : TargetList} (h : n = some 6) :
      Leads (.targets action targets) (.targets action targets.undo)
  | clear {action : TargetAction} {targets : TargetList} (h : n = some 7) :
      Leads (.targets action targets) (.targets action .empty)
  | enter {action : TargetAction} {targets pushed : TargetList} {target : PositionV1}
      (hundo : n ≠ some 6) (hclear : n ≠ some 7) (h : position n = some target)
      (hpush : targets.push target = some pushed) :
      Leads (.targets action targets) (.targets action pushed)

/-- The actions that a form sends. -/
inductive Submits : Form → ActionV1 → Prop
  | playSlot (card : UInt32) (slot : BenchSlotV1) :
      Submits (.playSlot card) (.playSummon actor card slot)
  | upgradePosition (card : UInt32) (position : PositionV1) :
      Submits (.upgradePosition card) (.upgradeSummon actor card position)
  | convert (manaType : ManaTypeV1) : Submits (.mana .convert) (.convertCoin actor manaType)
  | choose (manaType : ManaTypeV1) : Submits (.mana .choose) (.chooseManaType actor manaType)
  | retreat (slot : BenchSlotV1) (hint : Option ManaTypeV1) :
      Submits (.mana (.retreat slot)) (.retreat actor slot hint)
  | attack (target : PositionV1) (hint : Option ManaTypeV1) :
      Submits (.mana (.attack target)) (.declareAttack actor target hint)
  | endTurn : Submits .endTurn (.endTurn actor)
  | resign : Submits .resign (.resign actor)
  | promotion (slot : BenchSlotV1) : Submits .promotion (.choosePromotion actor slot)
  | prize (index : ℕ) : Submits .prize (.choosePrize actor index)
  | cast (card : UInt32) (targets : TargetList) (hint : Option ManaTypeV1) :
      Submits (.manaHint (.cast card) targets) (.castSpell actor card targets.values hint)
  | skill {position : PositionV1} {skill : ℕ} {ability : AbilityDescription} (targets : TargetList)
      (hint : Option ManaTypeV1) (h : (skillsAt view position)[skill]? = some ability) :
      Submits (.manaHint (.skill position skill) targets)
        (.activateSkill actor position ability.id targets.values hint)

/-- The outcomes of a step of a form. -/
inductive FormOutcome (revision : ℕ) (form : Form) : Outcome → Prop
  | leads {next : Form} (lines : List String) (h : Leads view n form next) :
      FormOutcome revision form (opened revision next lines)
  | submits {action : ActionV1} (h : Submits view actor form action) :
      FormOutcome revision form (submit revision action)
  | invalid : FormOutcome revision form (invalid revision)

variable {view actor n} {revision : ℕ} {form : Form}

theorem FormOutcome.orInvalid {α : Type} {value : Option α} {next : α → Outcome}
    (h : ∀ a, value = some a → FormOutcome view actor n revision form (next a)) :
    FormOutcome view actor n revision form (Cli.orInvalid revision value next) := by
  unfold Cli.orInvalid
  split
  next a => exact h a rfl
  · exact .invalid

theorem mem_of_chosen {α : Type} {items : List α} {a : α} (h : chosen items n = some a) :
    a ∈ items := by
  obtain ⟨index, -, hget⟩ := Option.bind_eq_some_iff.mp h
  exact List.mem_of_getElem? hget

theorem FormOutcome.confirm {action : ActionV1} (h : Submits view actor form action) :
    FormOutcome view actor n revision form (confirmSubmit revision n action) := by
  unfold confirmSubmit
  split
  · exact .submits h
  · exact .invalid

theorem FormOutcome.target {action : TargetAction} {targets : TargetList} :
    FormOutcome view actor n revision (.targets action targets)
      (targetStep revision action targets n) := by
  unfold targetStep
  split_ifs with hdone hundo hclear
  · exact .leads _ (.done hdone)
  · exact .leads _ (.undo hundo)
  · exact .leads _ (.clear hclear)
  · exact .orInvalid (fun target htarget => .orInvalid (fun pushed hpush =>
      .leads _ (.enter hundo hclear htarget hpush)))

theorem FormOutcome.mana {action : ManaAction} :
    FormOutcome view actor n revision (.mana action) (manaSubmit revision actor action n) := by
  cases action with
  | convert => exact .orInvalid (fun manaType _ => .submits (.convert manaType))
  | choose => exact .orInvalid (fun manaType _ => .submits (.choose manaType))
  | retreat slot => exact .orInvalid (fun hint _ => .submits (.retreat slot hint))
  | attack target => exact .orInvalid (fun hint _ => .submits (.attack target hint))

theorem FormOutcome.hint {action : TargetAction} {targets : TargetList} {hint : Option ManaTypeV1} :
    FormOutcome view actor n revision (.manaHint action targets)
      (targetSubmit revision view actor action targets hint) := by
  cases action with
  | cast card => exact .submits (.cast card targets hint)
  | skill position skill =>
    exact .orInvalid (fun ability hability => .submits (.skill targets hint hability))

theorem formStep_outcome :
    FormOutcome view actor n revision form (formStep revision view actor form n) := by
  cases form with
  | playCard => exact .orInvalid (fun card hcard => .leads _ (.playCard (mem_of_chosen hcard)))
  | playSlot card => exact .orInvalid (fun slot _ => .submits (.playSlot card slot))
  | upgradeCard => exact .orInvalid (fun card hcard => .leads _ (.upgradeCard (mem_of_chosen hcard)))
  | upgradePosition card =>
    exact .orInvalid (fun position _ => .submits (.upgradePosition card position))
  | retreatSlot => exact .orInvalid (fun slot _ => .leads _ (.retreatSlot slot))
  | attackTarget => exact .orInvalid (fun target _ => .leads _ (.attackTarget target))
  | endTurn => exact .confirm .endTurn
  | mana action => exact .mana
  | promotion => exact .orInvalid (fun slot _ => .submits (.promotion slot))
  | prize => exact .orInvalid (fun index _ => .submits (.prize _))
  | castCard => exact .orInvalid (fun card hcard => .leads _ (.castCard (mem_of_chosen hcard)))
  | skillPosition => exact .orInvalid (fun position _ => .leads _ (.skillPosition position))
  | skillAbility position => exact .orInvalid (fun skill _ => .leads _ (.skillAbility position skill))
  | targets action targets => exact .target
  | manaHint action targets => exact .orInvalid (fun hint _ => .hint)
  | resign => exact .confirm .resign

end

/-! ## The loop -/

inductive Event
  | poll (revision : ℕ)
  | line (revision : ℕ) (text : String)

variable (views : ℕ → PlayerView) (seat : Seat)

/-- A menu gives way to the form of a pending decision of this seat. -/
def enterForced (view : PlayerView) (revision : ℕ) (state : PromptState) : PromptState :=
  match state with
  | .form _ _ => state
  | .menu _ =>
      if view.pending.any (fun pending => pending.owner = seat) then
        match forcedForm view with
        | some form => .form revision form
        | none => state
      else state

/-- The state that a line finds. -/
def ready (state : PromptState) (revision : ℕ) : PromptState :=
  enterForced seat (views revision) revision (revised state revision).1

/-- What `reduce` is given for a line. -/
def inputOf (text : String) : String := if matchesWord "give up" (trimmed text) then "8" else text

def step (state : PromptState) : Event → Outcome
  | .poll revision => revised state revision
  | .line revision text =>
      let outcome := reduce (ready views seat state revision) (views revision) (inputOf text)
      (outcome.1, (revised state revision).2 ++ outcome.2)

def stateAfter (start : PromptState) (events : List Event) : PromptState :=
  events.foldl (fun state event => (step views seat state event).1) start

theorem stateAfter_concat (start : PromptState) (events : List Event) (event : Event) :
    stateAfter views seat start (events ++ [event]) =
      (step views seat (stateAfter views seat start events) event).1 := by
  unfold stateAfter
  rw [List.foldl_append]
  rfl

/-! ## What a line can do -/

/-- The pending decision of the view has the kind and belongs to the seat. -/
def Awaits (view : PlayerView) (seat : Seat) (kind : PendingKindView) : Prop :=
  ∃ pending, view.pending = some pending ∧ pending.kind = kind ∧ pending.owner = seat

/-- The form that a pending decision forces. -/
inductive Forced (view : PlayerView) (seat : Seat) : Form → Prop
  | choose (h : Awaits view seat .manaProduction) : Forced view seat (.mana .choose)
  | promotion (h : Awaits view seat .promotion) : Forced view seat .promotion
  | prize (h : Awaits view seat .prizePick) : Forced view seat .prize

/-- The forms of the menu. -/
def menuForms : List Form :=
  [.playCard, .upgradeCard, .retreatSlot, .attackTarget, .endTurn, .mana .convert, .resign,
    .castCard, .skillPosition]

/-- The form a line is read by: the one that was open, or a forced one. -/
def InForm (state : PromptState) (revision : ℕ) (form : Form) : Prop :=
  state = .form revision form ∨ Forced (views revision) seat form

theorem revised_cases (state : PromptState) (revision : ℕ) :
    (state.revision = revision ∧ revised state revision = (state, [])) ∨
      revised state revision = (.menu revision, [.cancelled]) := by
  unfold revised
  by_cases h : state.revision = revision
  · exact .inl ⟨h, if_neg (not_not.mpr h)⟩
  · exact .inr (if_pos h)

theorem enterForced_menu (view : PlayerView) (revision : ℕ) :
    enterForced seat view revision (.menu revision) = .menu revision ∨
      ∃ form, enterForced seat view revision (.menu revision) = .form revision form ∧
        Forced view seat form := by
  unfold enterForced forcedForm
  cases hpending : view.pending with
  | none => exact .inl rfl
  | some pending =>
    by_cases howner : pending.owner = seat
    · refine .inr ?_
      have hawaits : Awaits view seat pending.kind := ⟨pending, hpending, rfl, howner⟩
      cases hkind : pending.kind <;> rw [hkind] at hawaits
      · exact ⟨_, by simp [howner, hkind], .choose hawaits⟩
      · exact ⟨_, by simp [howner, hkind], .promotion hawaits⟩
      · exact ⟨_, by simp [howner, hkind], .prize hawaits⟩
    · exact .inl (by simp [howner])

theorem ready_cases (state : PromptState) (revision : ℕ) :
    ready views seat state revision = .menu revision ∨
      ∃ form, ready views seat state revision = .form revision form ∧
        InForm views seat state revision form := by
  unfold ready
  have hmenu : enterForced seat (views revision) revision (.menu revision) = .menu revision ∨
      ∃ form, enterForced seat (views revision) revision (.menu revision) = .form revision form ∧
        InForm views seat state revision form := by
    refine (enterForced_menu seat (views revision) revision).imp_right ?_
    rintro ⟨form, hform, hforced⟩
    exact ⟨form, hform, .inr hforced⟩
  obtain ⟨hsame, hkept⟩ | hcancelled := revised_cases state revision
  · rw [hkept]
    cases state with
    | menu old =>
      obtain rfl : old = revision := hsame
      exact hmenu
    | form old form =>
      obtain rfl : old = revision := hsame
      exact .inr ⟨form, rfl, .inl rfl⟩
  · rw [hcancelled]
    exact hmenu

/-- The outcomes of reading a line. -/
inductive LineOutcome (state : PromptState) (revision : ℕ) (input : String) : Outcome → Prop
  | cancelled (lines : List String) :
      LineOutcome state revision input (.menu revision, [.cancelled, .render lines])
  | chosen {form : Form} (lines : List String) (h : form ∈ menuForms) :
      LineOutcome state revision input (opened revision form lines)
  | passed :
      LineOutcome state revision input
        (submit revision (.passPriority (player (views revision).you)))
  | unknown : LineOutcome state revision input (invalid revision)
  | form {form : Form} {outcome : Outcome} (hform : InForm views seat state revision form)
      (h : FormOutcome (views revision) (player (views revision).you)
        (number (.form revision form) input) revision form outcome) :
      LineOutcome state revision input outcome

theorem menu_outcome (state : PromptState) (revision : ℕ) (input : String) (n : Option ℕ) :
    LineOutcome views seat state revision input (menu revision (views revision) n) := by
  unfold menu
  split
  all_goals first
    | exact .chosen _ (by decide)
    | exact .passed
    | exact .unknown

theorem reduce_outcome (state : PromptState) (revision : ℕ) (input : String) :
    LineOutcome views seat state revision input
      (reduce (ready views seat state revision) (views revision) input) := by
  unfold reduce
  obtain hready | ⟨form, hready, hform⟩ := ready_cases views seat state revision
  · rw [hready]
    split
    · exact .cancelled _
    · exact menu_outcome views seat state revision input _
  · rw [hready]
    split
    · exact .cancelled _
    · exact .form hform formStep_outcome

variable {views seat} {state : PromptState} {revision r : ℕ} {text : String}

theorem LineOutcome.submit {input : String} {outcome : Outcome} {action : ActionV1}
    (houtcome : LineOutcome views seat state revision input outcome)
    (h : .submit r action ∈ outcome.2) :
    r = revision ∧ (action = .passPriority (player (views revision).you) ∨
      ∃ form, InForm views seat state revision form ∧
        Submits (views revision) (player (views revision).you) form action) := by
  have hsubmit : ∀ {sent : ActionV1}, .submit r action ∈ (Cli.submit revision sent).2 →
      r = revision ∧ action = sent := by
    intro sent hsent
    obtain ⟨rfl, rfl⟩ := PromptEffect.submit.inj (List.mem_singleton.mp hsent)
    exact ⟨rfl, rfl⟩
  cases houtcome with
  | cancelled lines => simp at h
  | chosen lines hform => simp [opened] at h
  | passed => exact (hsubmit h).imp_right .inl
  | unknown => simp [invalid] at h
  | form hform houtcome =>
    cases houtcome with
    | leads lines hleads => simp [opened] at h
    | submits hsubmits =>
      obtain ⟨hrevision, rfl⟩ := hsubmit h
      exact ⟨hrevision, .inr ⟨_, hform, hsubmits⟩⟩
    | invalid => simp [invalid] at h

theorem LineOutcome.next {input : String} {outcome : Outcome} {next : Form}
    (houtcome : LineOutcome views seat state revision input outcome)
    (h : outcome.1 = .form r next) :
    r = revision ∧ (next ∈ menuForms ∨
      ∃ form, InForm views seat state revision form ∧
        Leads (views revision) (number (.form revision form) input) form next) := by
  cases houtcome with
  | cancelled lines => cases h
  | chosen lines hform =>
    obtain ⟨rfl, rfl⟩ := PromptState.form.inj h
    exact ⟨rfl, .inl hform⟩
  | passed => cases h
  | unknown => cases h
  | form hform houtcome =>
    cases houtcome with
    | leads lines hleads =>
      obtain ⟨rfl, rfl⟩ := PromptState.form.inj h
      exact ⟨rfl, .inr ⟨_, hform, hleads⟩⟩
    | submits hsubmits => cases h
    | invalid => cases h

theorem submit_of_line {action : ActionV1}
    (h : .submit r action ∈ (step views seat state (.line revision text)).2) :
    r = revision ∧ (action = .passPriority (player (views revision).you) ∨
      ∃ form, InForm views seat state revision form ∧
        Submits (views revision) (player (views revision).you) form action) := by
  have hrevised : .submit r action ∉ (revised state revision).2 := by
    obtain ⟨-, hkept⟩ | hcancelled := revised_cases state revision
    · simp [hkept]
    · simp [hcancelled]
  exact (reduce_outcome views seat state revision (inputOf text)).submit
    ((List.mem_append.mp h).resolve_left hrevised)

theorem form_of_line {next : Form}
    (h : (step views seat state (.line revision text)).1 = .form r next) :
    r = revision ∧ (next ∈ menuForms ∨
      ∃ form, InForm views seat state revision form ∧
        Leads (views revision) (number (.form revision form) (inputOf text)) form next) := by
  have hstep : (step views seat state (.line revision text)).1 =
      (reduce (ready views seat state revision) (views revision) (inputOf text)).1 := by
    rw [step]
  rw [hstep] at h
  exact (reduce_outcome views seat state revision (inputOf text)).next h

theorem form_of_poll {form : Form}
    (h : (step views seat state (.poll revision)).1 = .form r form) :
    r = revision ∧ state = .form r form := by
  replace h : (revised state revision).1 = .form r form := h
  obtain ⟨hsame, hkept⟩ | hcancelled := revised_cases state revision
  · rw [hkept] at h
    obtain rfl : state = .form r form := h
    exact ⟨hsame, rfl⟩
  · rw [hcancelled] at h
    cases h

/-! ## Forms belong to the view of their revision -/

/-- A card of the hand. -/
def InHand (view : PlayerView) (card : UInt32) : Prop := ∃ entry ∈ view.hand, entry.instanceId = card

/-- The form carries choices that the view shows. -/
def Form.Shown (view : PlayerView) (seat : Seat) : Form → Prop
  | .playSlot card => InHand view card
  | .upgradePosition card => InHand view card
  | .targets (.cast card) _ => InHand view card
  | .manaHint (.cast card) _ => InHand view card
  | .mana .choose => Awaits view seat .manaProduction
  | .promotion => Awaits view seat .promotion
  | .prize => Awaits view seat .prizePick
  | _ => True

section
variable {view : PlayerView} {form next : Form}

theorem Forced.shown (h : Forced view seat form) : form.Shown view seat := by
  cases h with
  | choose h => exact h
  | promotion h => exact h
  | prize h => exact h

theorem shown_of_menu (h : form ∈ menuForms) : form.Shown view seat := by
  simp only [menuForms, List.mem_cons, List.not_mem_nil, or_false] at h
  rcases h with rfl | rfl | rfl | rfl | rfl | rfl | rfl | rfl | rfl <;> trivial

theorem Leads.shown {n : Option ℕ} (h : Leads view n form next) (hform : form.Shown view seat) :
    next.Shown view seat := by
  cases h with
  | playCard h => exact ⟨_, h, rfl⟩
  | upgradeCard h => exact ⟨_, h, rfl⟩
  | castCard h => exact ⟨_, h, rfl⟩
  | retreatSlot | attackTarget | skillPosition | skillAbility => trivial
  | @done action targets h => cases action <;> exact hform
  | @undo action targets h => cases action <;> exact hform
  | @clear action targets h => cases action <;> exact hform
  | @enter action targets pushed target hundo hclear h hpush => cases action <;> exact hform

end

theorem InForm.shown {form : Form} (h : InForm views seat state revision form)
    (hstate : ∀ r form, state = .form r form → form.Shown (views r) seat) :
    form.Shown (views revision) seat := by
  obtain hopen | hforced := h
  · exact hstate _ _ hopen
  · exact hforced.shown

variable (views seat) in
theorem stateAfter_shown (first : ℕ) (events : List Event) {r : ℕ} {form : Form}
    (h : stateAfter views seat (.menu first) events = .form r form) : form.Shown (views r) seat := by
  induction events using List.reverseRecOn generalizing r form with
  | nil => cases h
  | append_singleton events event ih =>
    rw [stateAfter_concat] at h
    cases event with
    | poll revision =>
      obtain ⟨-, hsame⟩ := form_of_poll h
      exact ih hsame
    | line revision text =>
      obtain ⟨rfl, hmenu | ⟨before, hbefore, hleads⟩⟩ := form_of_line h
      · exact shown_of_menu hmenu
      · exact hleads.shown (hbefore.shown (fun _ _ => ih))

/-! ## Actions belong to the view of their revision -/

/-- The player who acts. -/
def actorOf : ActionV1 → PlayerIdV1
  | .playSummon player _ _ => player
  | .upgradeSummon player _ _ => player
  | .castSpell player _ _ _ => player
  | .activateSkill player _ _ _ _ => player
  | .retreat player _ _ => player
  | .declareAttack player _ _ => player
  | .endTurn player => player
  | .passPriority player => player
  | .convertCoin player _ => player
  | .chooseManaType player _ => player
  | .choosePromotion player _ => player
  | .choosePrize player _ => player
  | .resign player => player

def namedCard : ActionV1 → Option UInt32
  | .playSummon _ card _ => some card
  | .upgradeSummon _ card _ => some card
  | .castSpell _ card _ _ => some card
  | _ => none

def namedSkill : ActionV1 → Option (PositionV1 × EntityIdV1)
  | .activateSkill _ position ability _ _ => some (position, ability)
  | _ => none

def namedTargets : ActionV1 → Option (List PositionV1)
  | .castSpell _ _ targets _ => some targets
  | .activateSkill _ _ _ targets _ => some targets
  | _ => none

/-- The decision that the action answers. -/
def answeredKind : ActionV1 → Option PendingKindView
  | .chooseManaType _ _ => some .manaProduction
  | .choosePromotion _ _ => some .promotion
  | .choosePrize _ _ => some .prizePick
  | _ => none

def SeatsView.of {α : Type} (seats : SeatsView α) : Seat → α
  | .one => seats.one
  | .two => seats.two

def BoardView.summon (board : BoardView) : PositionV1 → Option SummonView
  | .main => board.main
  | .bench .first => board.first
  | .bench .second => board.second
  | .bench .third => board.third

/-- A Skill printed on the top card of the seat's own Summon at the position. -/
def PrintedSkill (view : PlayerView) (seat : Seat) (position : PositionV1) (id : EntityIdV1) : Prop :=
  ∃ summon card ability, (view.players.of seat).board.summon position = some summon ∧
    summon.chain.getLast? = some card ∧ ability ∈ card.abilities ∧ ability.kind = .skill ∧
    ability.id = id

/-- The action names what the view shows to the seat. -/
structure ActionShown (view : PlayerView) (seat : Seat) (action : ActionV1) : Prop where
  actor : actorOf action = player seat
  card : ∀ card, namedCard action = some card → InHand view card
  skill : ∀ position id, namedSkill action = some (position, id) → PrintedSkill view seat position id
  answer : ∀ kind, answeredKind action = some kind → Awaits view seat kind

theorem printedSkill_of_mem {view : PlayerView} {position : PositionV1}
    {ability : AbilityDescription} (hseat : view.you = seat)
    (h : ability ∈ skillsAt view position) : PrintedSkill view seat position ability.id := by
  have hboard : ∀ card,
      ((view.players.of seat).board.summon position).bind (fun s => s.chain.getLast?) = card →
        skillsAt view position =
          card.elim [] (fun card => card.abilities.filter (fun ability => ability.kind = .skill)) := by
    intro card hcard
    rw [← hseat] at hcard
    unfold SeatsView.of BoardView.summon at hcard
    unfold skillsAt
    cases hyou : view.you <;> rcases position with _ | (_ | _ | _) <;>
      simp only [hyou] at hcard ⊢ <;> rw [hcard] <;> cases card <;> rfl
  cases hcard : ((view.players.of seat).board.summon position).bind (fun s => s.chain.getLast?) with
  | none =>
    rw [hboard none hcard] at h
    cases h
  | some card =>
    rw [hboard (some card) hcard] at h
    obtain ⟨summon, hsummon, hlast⟩ := Option.bind_eq_some_iff.mp hcard
    obtain ⟨hmem, hkind⟩ := List.mem_filter.mp h
    exact ⟨summon, card, ability, hsummon, hlast, hmem, of_decide_eq_true hkind, rfl⟩

theorem Submits.shown {view : PlayerView} {form : Form} {action : ActionV1} (hseat : view.you = seat)
    (h : Submits view (player view.you) form action) (hform : form.Shown view seat) :
    ActionShown view seat action := by
  have hactor : player view.you = player seat := by rw [hseat]
  cases h with
  | playSlot card slot => exact ⟨hactor, by rintro _ ⟨⟩; exact hform, nofun, nofun⟩
  | upgradePosition card position =>
    exact ⟨hactor, by rintro _ ⟨⟩; exact hform, nofun, nofun⟩
  | cast card targets hint => exact ⟨hactor, by rintro _ ⟨⟩; exact hform, nofun, nofun⟩
  | skill targets hint h =>
    exact ⟨hactor, nofun, by
      rintro _ _ ⟨⟩
      exact printedSkill_of_mem hseat (List.mem_of_getElem? h), nofun⟩
  | choose manaType => exact ⟨hactor, nofun, nofun, by rintro _ ⟨⟩; exact hform⟩
  | promotion slot => exact ⟨hactor, nofun, nofun, by rintro _ ⟨⟩; exact hform⟩
  | prize index => exact ⟨hactor, nofun, nofun, by rintro _ ⟨⟩; exact hform⟩
  | convert | retreat | attack | endTurn | resign => exact ⟨hactor, nofun, nofun, nofun⟩

theorem passPriority_shown {view : PlayerView} (hseat : view.you = seat) :
    ActionShown view seat (.passPriority (player view.you)) :=
  ⟨by rw [hseat]; rfl, nofun, nofun, nofun⟩

/-! ## Targets are what was entered -/

/-- The number typed in a line. -/
def typed (text : String) : Option ℕ := Cceroby.parseUnsigned Cceroby.u64Max (trimmed text)

/-- A position is entered, undone with 6 and the list cleared with 7; a poll changes nothing. -/
def Event.edit (entered : List PositionV1) : Event → List PositionV1
  | .poll _ => entered
  | .line _ text =>
      if typed text = some 6 then entered.dropLast
      else if typed text = some 7 then []
      else match position (typed text) with
        | some target => entered ++ [target]
        | none => entered

/-- The slots hold the list from the front. -/
structure TargetList.Holds (targets : TargetList) (entered : List PositionV1) : Prop where
  short : entered.length ≤ 4
  slots : targets.slots = filled 4 entered

namespace TargetList.Holds

variable {targets pushed : TargetList} {entered : List PositionV1} {target : PositionV1}

theorem empty : TargetList.empty.Holds [] := ⟨Nat.zero_le _, rfl⟩

theorem values (h : targets.Holds entered) : targets.values = entered := by
  unfold TargetList.values
  rw [h.slots, filterMap_filled]

theorem undo (h : targets.Holds entered) : targets.undo.Holds entered.dropLast where
  short := by
    have := h.short
    rw [List.length_dropLast]
    omega
  slots := by
    show freeLast targets.slots = _
    rw [h.slots, freeLast_filled h.short]

theorem push (h : targets.Holds entered) (hpush : targets.push target = some pushed) :
    pushed.Holds (entered ++ [target]) := by
  unfold TargetList.push at hpush
  split at hpush
  next slots hput =>
    cases hpush
    rw [h.slots, put_filled target h.short] at hput
    split_ifs at hput with hroom
    exact ⟨by rw [List.length_append, List.length_singleton]; omega, (Option.some.inj hput).symm⟩
  · cases hpush

end TargetList.Holds

variable (views seat) in
/-- The line at the end of `init` opened a form of targets, and none of the `edits` left it. -/
structure OpenSince (start : PromptState) (r : ℕ) (action : TargetAction) (init edits : List Event) :
    Prop where
  opened : ∃ earlier opening, init = earlier ++ [opening] ∧
    ∀ action targets, stateAfter views seat start earlier ≠ .form r (.targets action targets)
  stayed : ∀ front, front <+: edits →
    ∃ targets, stateAfter views seat start (init ++ front) = .form r (.targets action targets)

variable (views seat) in
/-- What was entered since the form opened. -/
def Editing (start : PromptState) (events : List Event) (r : ℕ) (action : TargetAction)
    (entered : List PositionV1) : Prop :=
  ∃ init edits, events = init ++ edits ∧ OpenSince views seat start r action init edits ∧
    entered = edits.foldl Event.edit []

variable (views seat) in
/-- The same, and the form was left with 5 by the last line. -/
def Finished (start : PromptState) (events : List Event) (r : ℕ) (action : TargetAction)
    (entered : List PositionV1) : Prop :=
  ∃ typing text polls, events = typing ++ .line r text :: polls ∧ typed text = some 5 ∧
    (∀ event ∈ polls, event = .poll r) ∧ Editing views seat start typing r action entered

section
variable {start : PromptState} {events : List Event} {event : Event} {action : TargetAction}
  {targets : TargetList} {entered : List PositionV1}

/-- A line that opens the form. -/
theorem Editing.opened
    (hbefore : ∀ action targets,
      stateAfter views seat start events ≠ .form r (.targets action targets))
    (h : stateAfter views seat start (events ++ [event]) = .form r (.targets action targets)) :
    Editing views seat start (events ++ [event]) r action [] := by
  refine ⟨events ++ [event], [], (List.append_nil _).symm, ⟨⟨events, event, rfl, hbefore⟩, ?_⟩, rfl⟩
  intro front hfront
  rw [List.prefix_nil.mp hfront, List.append_nil]
  exact ⟨targets, h⟩

/-- An event that leaves the form open. -/
theorem Editing.edited (h : Editing views seat start events r action entered)
    (hafter : stateAfter views seat start (events ++ [event]) = .form r (.targets action targets)) :
    Editing views seat start (events ++ [event]) r action (event.edit entered) := by
  obtain ⟨init, edits, rfl, hopen, rfl⟩ := h
  refine ⟨init, edits ++ [event], List.append_assoc _ _ _, ⟨hopen.opened, ?_⟩, ?_⟩
  · intro front hfront
    obtain rfl | hshort := List.prefix_concat_iff.mp hfront
    · rw [← List.append_assoc]
      exact ⟨targets, hafter⟩
    · exact hopen.stayed front hshort
  · rw [List.foldl_append]
    rfl

/-- The number a form of targets is given; the word for resigning is no edit. -/
theorem number_targets (text : String) :
    number (.form r (.targets action targets)) (inputOf text) = typed text ∨
      number (.form r (.targets action targets)) (inputOf text) = some 8 := by
  unfold inputOf
  split
  · refine .inr ?_
    show typed "8" = some 8
    decide +kernel
  · exact .inl rfl

theorem typed_eq {n : ℕ} (hn : n ≠ 8)
    (h : number (.form r (.targets action targets)) (inputOf text) = some n) :
    typed text = some n := by
  obtain hnumber | hnumber := number_targets text
  · rw [← hnumber, h]
  · rw [hnumber] at h
    exact absurd (Option.some.inj h).symm hn

theorem position_typed {target : PositionV1}
    (h : position (number (.form r (.targets action targets)) (inputOf text)) = some target) :
    position (typed text) = some target := by
  obtain hnumber | hnumber := number_targets text
  · rw [← hnumber, h]
  · rw [hnumber] at h
    cases h

theorem InForm.kept {form : Form} (h : InForm views seat state r form)
    (hforced : ¬Forced (views r) seat form) : state = .form r form :=
  h.resolve_right hforced

theorem edit_undo (h : typed text = some 6) :
    (Event.line revision text).edit entered = entered.dropLast := by
  simp only [Event.edit, if_pos h]

theorem edit_clear (h : typed text = some 7) : (Event.line revision text).edit entered = [] := by
  have hundo : typed text ≠ some 6 := by rw [h]; decide
  simp only [Event.edit, if_neg hundo, if_pos h]

theorem edit_enter {target : PositionV1} (h : position (typed text) = some target) :
    (Event.line revision text).edit entered = entered ++ [target] := by
  have hundo : typed text ≠ some 6 := fun hsix => by rw [hsix] at h; cases h
  have hclear : typed text ≠ some 7 := fun hseven => by rw [hseven] at h; cases h
  simp only [Event.edit, if_neg hundo, if_neg hclear, h]

variable (views seat) in
/-- By induction on the run: the list of an open form is what was entered in it. -/
theorem targets_history (first : ℕ) (events : List Event)
    (h : stateAfter views seat (.menu first) events = .form r (.targets action targets)) :
    ∃ entered, Editing views seat (.menu first) events r action entered ∧
      targets.Holds entered := by
  induction events using List.reverseRecOn generalizing r action targets with
  | nil => cases h
  | append_singleton events event ih =>
    have hafter := h
    rw [stateAfter_concat] at h
    cases event with
    | poll revision =>
      obtain ⟨-, hsame⟩ := form_of_poll h
      obtain ⟨entered, hediting, hholds⟩ := ih hsame
      exact ⟨_, hediting.edited hafter, hholds⟩
    | line revision text =>
      obtain ⟨rfl, hmenu | ⟨before, hbefore, hleads⟩⟩ := form_of_line h
      · exact absurd hmenu (by simp [menuForms])
      cases hleads with
      | castCard hcard =>
        -- Only the form before opened a list, so this line starts one.
        have hopen := hbefore.kept nofun
        exact ⟨[], .opened (fun _ _ hsame => by rw [hopen] at hsame; cases hsame) hafter, .empty⟩
      | skillAbility position skill =>
        have hopen := hbefore.kept nofun
        exact ⟨[], .opened (fun _ _ hsame => by rw [hopen] at hsame; cases hsame) hafter, .empty⟩
      | undo hnumber =>
        obtain ⟨entered, hediting, hholds⟩ := ih (hbefore.kept nofun)
        have hedit := hediting.edited hafter
        rw [edit_undo (typed_eq (by decide) hnumber)] at hedit
        exact ⟨_, hedit, hholds.undo⟩
      | clear hnumber =>
        obtain ⟨entered, hediting, hholds⟩ := ih (hbefore.kept nofun)
        have hedit := hediting.edited hafter
        rw [edit_clear (typed_eq (by decide) hnumber)] at hedit
        exact ⟨_, hedit, .empty⟩
      | enter hundo hclear hposition hpush =>
        obtain ⟨entered, hediting, hholds⟩ := ih (hbefore.kept nofun)
        have hedit := hediting.edited hafter
        rw [edit_enter (position_typed hposition)] at hedit
        exact ⟨_, hedit, hholds.push hpush⟩

variable (views seat) in
theorem hint_history (first : ℕ) (events : List Event)
    (h : stateAfter views seat (.menu first) events = .form r (.manaHint action targets)) :
    ∃ entered, Finished views seat (.menu first) events r action entered ∧
      targets.Holds entered := by
  induction events using List.reverseRecOn with
  | nil => cases h
  | append_singleton events event ih =>
    rw [stateAfter_concat] at h
    cases event with
    | poll revision =>
      obtain ⟨rfl, hsame⟩ := form_of_poll h
      obtain ⟨entered, ⟨typing, text, polls, rfl, htyped, hpolls, hediting⟩, hholds⟩ := ih hsame
      refine ⟨entered, ⟨typing, text, polls ++ [.poll r], ?_, htyped, ?_, hediting⟩, hholds⟩
      · rw [List.append_assoc, List.cons_append]
      · intro event hevent
        exact (List.mem_append.mp hevent).elim (hpolls event) List.mem_singleton.mp
    | line revision text =>
      obtain ⟨rfl, hmenu | ⟨before, hbefore, hleads⟩⟩ := form_of_line h
      · exact absurd hmenu (by simp [menuForms])
      cases hleads with
      | done hnumber =>
        obtain ⟨entered, hediting, hholds⟩ :=
          targets_history views seat first events (hbefore.kept nofun)
        exact ⟨entered, ⟨events, text, [], rfl, typed_eq (by decide) hnumber, nofun, hediting⟩, hholds⟩

end

/-! ## Runs -/

/-- Whatever the prompt sends in any run carries the current revision, names what the view of that
revision shows to the seat, and lists the targets that were entered since the form opened. -/
theorem prompts_submit_what_is_shown (views : ℕ → PlayerView) (seat : Seat)
    (hseat : ∀ revision, (views revision).you = seat) (first : ℕ) (events : List Event)
    (event : Event) {r : ℕ} {action : ActionV1}
    (h : .submit r action ∈
      (step views seat (stateAfter views seat (.menu first) events) event).2) :
    (∃ text, event = .line r text) ∧ ActionShown (views r) seat action ∧
      ∀ targets, namedTargets action = some targets → targets.length ≤ 4 ∧
        ∃ chosen, Finished views seat (.menu first) events r chosen targets := by
  cases event with
  | poll revision =>
    replace h : .submit r action ∈
        (revised (stateAfter views seat (.menu first) events) revision).2 := h
    obtain ⟨-, hkept⟩ | hcancelled := revised_cases (stateAfter views seat (.menu first) events) revision
    · simp [hkept] at h
    · simp [hcancelled] at h
  | line revision text =>
    obtain ⟨rfl, rfl | ⟨form, hform, hsubmits⟩⟩ := submit_of_line h
    · exact ⟨⟨text, rfl⟩, passPriority_shown (hseat r), nofun⟩
    · have hshown := hform.shown (fun _ _ => stateAfter_shown views seat first events)
      refine ⟨⟨text, rfl⟩, hsubmits.shown (hseat r) hshown, ?_⟩
      have hlisted : ∀ {chosen : TargetAction} {list : TargetList}, form = .manaHint chosen list →
          list.values.length ≤ 4 ∧
            ∃ chosen, Finished views seat (.menu first) events r chosen list.values := by
        rintro chosen list rfl
        obtain ⟨entered, hfinished, hholds⟩ :=
          hint_history views seat first events (hform.kept nofun)
        rw [hholds.values]
        exact ⟨hholds.short, chosen, hfinished⟩
      intro targets htargets
      cases hsubmits with
      | cast card list hint =>
        cases htargets
        exact hlisted rfl
      | skill list hint hability =>
        cases htargets
        exact hlisted rfl
      | playSlot | upgradePosition | convert | choose | retreat | attack | endTurn | resign
        | promotion | prize => cases htargets

/-- Two cards in hand at the revision 7, none before. -/
def dealtViews (revision : ℕ) : PlayerView where
  you := .one
  hand := if revision = 7 then [⟨9, ⟨"Base", []⟩⟩, ⟨4, ⟨"Bolt", []⟩⟩] else []
  players := ⟨⟨⟨none, none, none, none⟩⟩, ⟨⟨none, none, none, none⟩⟩⟩
  priorityHolder := none
  pending := none

/-- A form that a new revision cancels, then a Spell with one target undone. -/
def castRun : List Event :=
  [.line 3 "9", .poll 7, .line 7 "9", .line 7 "2", .line 7 "1", .poll 7, .line 7 "3", .line 7 " 6 ",
    .line 7 "2", .line 7 "5"]

theorem prompts_submit_what_is_shown_undo :
    InHand (dealtViews 7) 4 ∧
      ∃ chosen, Finished dealtViews .one (.menu 0) castRun 7 chosen [.main, .bench .first] := by
  have hsent : .submit 7 (.castSpell .one 4 [.main, .bench .first] none) ∈
      (step dealtViews .one (stateAfter dealtViews .one (.menu 0) castRun) (.line 7 "4")).2 := by
    decide +kernel
  obtain ⟨-, hshown, htargets⟩ := prompts_submit_what_is_shown dealtViews .one (fun _ => rfl) 0
    castRun (.line 7 "4") hsent
  exact ⟨hshown.card 4 rfl, (htargets _ rfl).2⟩

end Summoners.Cli
