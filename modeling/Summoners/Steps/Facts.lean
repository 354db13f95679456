import Summoners.Steps.Actions

/-! # Which steps report which facts

What a leaf can report, what only an action announces, and the one step that begins a turn.
-/

namespace Summoners
set_option autoImplicit false

open Effects RunToCompletion

/-- The facts a leaf can report. -/
def GameEvent.byLeaf : GameEvent → Bool
  | .manaProduced _ _ _ | .gameEnded _ _ => true
  | e => e.minor

/-- The facts that report what a player did. -/
def GameEvent.announces : GameEvent → Bool
  | .summonPlayed _ _ _ | .summonUpgraded _ _ _ | .spellCast _ _ _ | .skillActivated _ _ _
  | .attackDeclared _ _ | .priorityPassed _ | .coinConverted _ _ => true
  | _ => false

/-- What an accepted action reports of itself. -/
def GameAction.announcement : GameAction → List GameEvent
  | .playSummon c card slot => [.summonPlayed c card slot]
  | .upgradeSummon c card p => [.summonUpgraded c card p]
  | .castSpell c card targets _ => [.spellCast c card targets]
  | .activateSkill c p ability _ _ => [.skillActivated c p ability]
  | .declareAttack c target _ => [.attackDeclared c target]
  | .passPriority c => [.priorityPassed c]
  | .convertCoin c t => [.coinConverted c t]
  | _ => []

/-- The work item a step executes, if it executes one. -/
def executes (x : Entry GameState GameAction GameEvent) : Option WorkItem :=
  match x.input with
  | none => nextWork x.before
  | some _ => none

theorem executes_eq_some {x : Entry GameState GameAction GameEvent} {item : WorkItem} :
    executes x = some item ↔ x.input = none ∧ nextWork x.before = some item := by
  unfold executes
  cases x.input with
  | none => simp
  | some a => simp

def GameEvent.isTurnBegan : GameEvent → Bool
  | .turnBegan _ => true
  | _ => false

section
variable {s t : GameState} {es : List GameEvent}

theorem Minor.byLeaf (h : Minor es) : ∀ e ∈ es, e.byLeaf = true := by
  intro e he
  have hm := h e he
  cases e <;> first | rfl | cases hm

theorem LeafStep.byLeaf {source : EffectSource} {targets : List Position} {leaf : EffectLeaf}
    (h : LeafStep s source targets leaf t es) : ∀ e ∈ es, e.byLeaf = true := by
  cases h with
  | quiet hm => exact hm.byLeaf
  | touched _ _ _ hm => exact hm.byLeaf
  | hit _ _ hm _ => exact hm.byLeaf
  | zones _ hm => exact hm.byLeaf
  | drewOut _ hm =>
      intro e he
      rcases List.mem_append.mp he with he | he
      · exact hm.byLeaf e he
      · rw [List.mem_singleton.mp he]
        rfl
  | _ => simp [GameEvent.byLeaf, GameEvent.minor]

theorem applyLeaves_byLeaf {source : EffectSource} {targets : List Position}
    {leaves : List EffectLeaf} (h : applyLeaves s source targets leaves = (t, es))
    (hs : s.status = .playing) : ∀ e ∈ es, e.byLeaf = true := by
  refine applyLeaves_rel (R := fun _ es _ => ∀ e ∈ es, e.byLeaf = true) h hs (fun _ => by simp)
    (fun _ h h' e he => ?_) (fun _ _ h => h.byLeaf)
  exact (List.mem_append.mp he).elim (h e) (h' e)

theorem GameEvent.announces_of_byLeaf {e : GameEvent} (h : e.byLeaf = true) :
    e.announces = false ∧ e.isTurnBegan = false := by
  cases e <;> first | exact ⟨rfl, rfl⟩ | cases h

theorem not_announces_payment (payment : Payment) (c : PlayerId) :
    ∀ e ∈ payment.events c, e.announces = false ∧ e.isTurnBegan = false := by
  intro e he
  obtain ⟨d, -, rfl⟩ := List.mem_map.mp he
  exact ⟨rfl, rfl⟩

/-- Facts that no player announced and that begin no turn. -/
def Unannounced (es : List GameEvent) : Prop :=
  ∀ e ∈ es, e.announces = false ∧ e.isTurnBegan = false

theorem Unannounced.announces (h : Unannounced es) : es.filter GameEvent.announces = [] := by
  rw [List.filter_eq_nil_iff]
  intro e he
  rw [(h e he).1]
  exact Bool.false_ne_true

theorem unannounced_of_byLeaf (h : ∀ e ∈ es, e.byLeaf = true) : Unannounced es :=
  fun e he => GameEvent.announces_of_byLeaf (h e he)

theorem ItemStep.unannounced {item : WorkItem} (h : ItemStep s item t es)
    (hs : s.status = .playing) : Unannounced es := by
  cases h with
  | fired _ hl =>
      intro e he
      rcases List.mem_cons.mp he with rfl | he
      · exact ⟨rfl, rfl⟩
      · exact unannounced_of_byLeaf (applyLeaves_byLeaf hl hs) e he
  | _ => simp [Unannounced, Upkeep.readyAll, GameEvent.announces, GameEvent.isTurnBegan]

/-- The drain announces nothing and begins no turn. -/
theorem drainStep_unannounced (h : Resolution.drainStep s = some (t, es)) : Unannounced es := by
  obtain ⟨hd, ⟨item, u, es', hst, rfl⟩ | ⟨-, item, work, -, hi⟩⟩ := drainStep_cases h
  · intro e he
    rcases List.mem_cons.mp he with rfl | he
    · exact ⟨rfl, rfl⟩
    · exact unannounced_of_byLeaf (applyLeaves_byLeaf hst.leaves hd.playing) e he
  · exact hi.unannounced hd.playing

/-- **An accepted action announces itself**, and nothing else. -/
theorem ActionStep.announces {a : GameAction} (h : ActionStep s a t es)
    (hs : s.status = .playing) : es.filter GameEvent.announces = a.announcement := by
  have hpaid : ∀ (payment : Payment) (c : PlayerId),
      (payment.events c).filter GameEvent.announces = [] :=
    fun payment c => Unannounced.announces (not_announces_payment payment c)
  cases h with
  | cast _ _ _ _ _ _ => rw [List.filter_append, hpaid]; rfl
  | skill _ _ _ _ _ _ _ hl =>
      have hleaves := (unannounced_of_byLeaf (applyLeaves_byLeaf hl hs)).announces
      rw [List.filter_append, hpaid, List.nil_append, List.filter_cons_of_pos rfl, hleaves]
      rfl
  | retreated _ _ _ _ => rw [List.filter_append, hpaid]; rfl
  | attacked _ _ _ _ _ => rw [List.filter_append, hpaid]; rfl
  | _ => rfl

/-- A fact of a paid action that is no deduction stands behind the payment. -/
theorem mem_of_mem_paid {payment : Payment} {c : PlayerId} {e : GameEvent}
    (he : e ∈ payment.events c ++ es) (hne : ∀ c t n, e ≠ .manaDeducted c t n) : e ∈ es := by
  rcases List.mem_append.mp he with he | he
  · obtain ⟨d, -, hd⟩ := List.mem_map.mp he
    exact absurd hd.symm (hne _ _ _)
  · exact he

/-- Only the pass that closes a window over an empty Stack begins a turn. -/
theorem ActionStep.turnBegan {a : GameAction} {p : PlayerId} (h : ActionStep s a t es)
    (hs : s.status = .playing) (he : .turnBegan p ∈ es) :
    ∃ c, a = .passPriority c ∧ s.pending = none ∧ s.turn.window = some ⟨c, true⟩ ∧
      s.stack = [] ∧ p = s.turn.activePlayer.opponent ∧
        t = (Turn.handover (windowClosed s)).state := by
  cases h with
  | cast _ _ _ _ _ _ => simpa using mem_of_mem_paid he (by simp)
  | skill _ _ _ _ _ _ _ hl =>
      rcases List.mem_cons.mp (mem_of_mem_paid he (by simp)) with he | he
      · cases he
      · cases (GameEvent.announces_of_byLeaf (applyLeaves_byLeaf hl hs _ he)).2
  | retreated _ _ _ _ => simpa using mem_of_mem_paid he (by simp)
  | attacked _ _ _ _ _ => simpa using mem_of_mem_paid he (by simp)
  | handedOver hp hw hst =>
      simp only [List.mem_cons, reduceCtorEq, GameEvent.turnBegan.injEq, List.not_mem_nil, or_false,
        false_or] at he
      exact ⟨_, rfl, hp, hw, hst, he, rfl⟩
  | _ => simp at he

/-- No handler resolves a Stack item. -/
theorem ActionStep.not_resolved {a : GameAction} {item : StackItem} (h : ActionStep s a t es)
    (hs : s.status = .playing) : .stackItemResolved item ∉ es := by
  intro he
  cases h with
  | cast _ _ _ _ _ _ => simpa using mem_of_mem_paid he (by simp)
  | skill _ _ _ _ _ _ _ hl =>
      rcases List.mem_cons.mp (mem_of_mem_paid he (by simp)) with he | he
      · cases he
      · cases applyLeaves_byLeaf hl hs _ he
  | retreated _ _ _ _ => simpa using mem_of_mem_paid he (by simp)
  | attacked _ _ _ _ _ => simpa using mem_of_mem_paid he (by simp)
  | _ => simp at he

end

end Summoners
