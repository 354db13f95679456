import Summoners.Proof.Entries
import Summoners.Proof.Upkeep

/-! # Arrivals in Main

An arrival runs a course. Its entry step is due, or a destruction has still to queue it; the step
records the arrival and queues the printed triggers; these fire one after the other. While it lasts no
action moves a Summon but the answer to a promotion, which puts another Summon in its place.
-/

namespace Summoners
set_option autoImplicit false

open Effects RunToCompletion Destruction

/-- The moment brings a benched Summon of `q` to Main. -/
def Moment.Arrives (m : Moment) (q : PlayerId) (i : CardInstanceId) : Prop :=
  (∃ slot y, (m.before.player q).bench.get slot = some y ∧ y.base = i) ∧
    ∃ y, (m.after.player q).main = some y ∧ y.base = i

/-- The triggers fired for arrivals of `q` in Main. -/
def entriesFired (q : PlayerId) (es : List GameEvent) : List EntityId :=
  es.filterMap (GameEvent.entryFired q)

/-- Whether a step leaves an arrival of `q` without an entry step or queues one too many: a promotion
no destruction has asked for, a Skill that exchanges Main twice, a destruction that promotes nobody to
an occupied Main. -/
def misrecords (q : PlayerId) (x : Entry GameState GameAction GameEvent) : Bool :=
  match x.input with
  | some (.choosePromotion c _) =>
      decide (c = q ∧ x.before.work.head? ≠ some (.resolveMovementConsequences q))
  | some (.activateSkill c p ability _ _) =>
      decide (2 ≤ (skillLeaves x.before c p ability).countP (EffectLeaf.exchanges c q))
  | some _ => false
  | none =>
      decide (nextWork x.before = some (.promoteBenchSummon q)) &&
        ((x.before.player q).main.isSome && (occupiedBenchSlots (x.before.player q)).isEmpty)

/-- The state of an arrival of `i` in the Main of `q`, `fired` being the triggers fired for it so far:
its entry step is queued, the end of a destruction is about to queue it, it is recorded and its other
triggers are queued, or the Summon has left play. -/
inductive Course (q : PlayerId) (i : CardInstanceId) (fired : List EntityId) (s : GameState)
    (current : Current) : Prop
  | due {y : SummonInstance} (hy : (s.player q).main = some y) (hi : y.base = i)
      (hnone : fired = []) (howes : Owes q s.work 1 [])
      (hcurrent : current ≠ some (q, .consequences))
  | landed {y : SummonInstance} (hy : (s.player q).main = some y) (hi : y.base = i)
      (hnone : fired = []) (howes : Owes q s.work 0 [])
      (hend : s.work.head? = some (.resolveMovementConsequences q))
  | running {y : SummonInstance} {fires : List EntityId} (hy : (s.player q).main = some y)
      (hi : y.base = i) (hentry : y.turn.mainEntry.isSome = true) (howes : Owes q s.work 0 fires)
      (hall : fired ++ fires = Triggers.matchingAbilities s q .main .entersMain)
      (hasked : current = some (q, .consequences) → s.pending = some (.promotion q))
  | gone (h : ∀ p y, (s.player q).summonAt p = some y → y.base ≠ i)

/-- The same Summon is in the Main of `q`, with its record, or nobody. -/
def MainStays (q : PlayerId) (s t : GameState) : Prop :=
  Option.Rel (fun y z => SameSummon y z ∧
    (y.turn.mainEntry.isSome = true → z.turn.mainEntry.isSome = true)) (s.player q).main
      (t.player q).main

section
variable {s t u : GameState} {es : List GameEvent} {q c : PlayerId} {i : CardInstanceId}
  {y z : SummonInstance} {fired : List EntityId} {current next : Current} {m : Moment}
  {tr mid : List (Entry GameState GameAction GameEvent)}
  {x : Entry GameState GameAction GameEvent}

/-! ## Facts -/

theorem entriesFired_append {es es' : List GameEvent} :
    entriesFired q (es ++ es') = entriesFired q es ++ entriesFired q es' := List.filterMap_append

theorem entriesFired_of_byLeaf (h : ∀ e ∈ es, e.byLeaf = true) : entriesFired q es = [] := by
  unfold entriesFired
  rw [List.filterMap_eq_nil_iff]
  intro e he
  have hleaf := h e he
  cases e <;> first | rfl | cases hleaf

theorem entriesFired_cons_of_none {e : GameEvent} (he : e.entryFired q = none) :
    entriesFired q (e :: es) = entriesFired q es := by
  unfold entriesFired
  rw [List.filterMap_cons, he]

/-! ## Who is in Main -/

theorem MainStays.summon (h : MainStays q s t) (hy : (s.player q).main = some y) :
    ∃ z, (t.player q).main = some z ∧ SameSummon y z ∧
      (y.turn.mainEntry.isSome = true → z.turn.mainEntry.isSome = true) := by
  unfold MainStays at h
  rw [hy] at h
  generalize (t.player q).main = z at h
  cases h with
  | some hrel => exact ⟨_, rfl, hrel⟩

theorem MainStays.mainBase (h : MainStays q s t) :
    (t.player q).mainBase = (s.player q).mainBase := by
  unfold MainStays at h
  unfold PlayerState.mainBase
  generalize (s.player q).main = y at h
  generalize (t.player q).main = z at h
  cases h with
  | none => rfl
  | some hrel => exact congrArg some hrel.1.base

theorem MainStays.of_eq (h : (t.player q).main = (s.player q).main) : MainStays q s t := by
  unfold MainStays
  rw [h]
  cases (s.player q).main with
  | none => exact .none
  | some y => exact .some ⟨.refl y, id⟩

theorem mainStays_of_stands (hd : Distinct s) (h : Stands s t)
    (hc : Carries (anywhere Persists) s t) : MainStays q s t := by
  have hmain : Option.Rel SameSummon (s.player q).main (t.player q).main := h q .main
  have hcarried : ∀ y z, (s.player q).main = some y → (t.player q).main = some z →
      SameSummon y z → y.turn.mainEntry.isSome = true → z.turn.mainEntry.isSome = true := by
    intro y z hy hz same
    obtain ⟨r, w, hw, hwz⟩ := hc q .main z hz
    have hwz : Persists w z := hwz
    have hthere : (s.player q).summonAt .main = some y := hy
    obtain rfl : w = y := hd.summon_eq hw hthere (hwz.toSameSummon.base.symm.trans same.base)
    exact hwz.entered
  unfold MainStays
  generalize (s.player q).main = y at hmain hcarried
  generalize (t.player q).main = z at hmain hcarried
  cases hmain with
  | none => exact .none
  | some same => exact .some ⟨same, hcarried _ _ rfl rfl same⟩

theorem matchingAbilities_main (hy : (s.player q).main = some y) (hz : (t.player q).main = some z)
    (same : SameSummon y z) (hcards : t.cards = s.cards) (ev : TriggerEvent) :
    Triggers.matchingAbilities t q .main ev = Triggers.matchingAbilities s q .main ev := by
  unfold Triggers.matchingAbilities Triggers.cardAt
  simp only [PlayerState.summonAt_main, hy, hz, same.chain, hcards]

/-- Where only benched Summons are left, the one in Main has gone. -/
theorem gone_of_benched (hd : Distinct s) (hy : (s.player q).main = some y) (hi : y.base = i)
    (hleft : ∀ p z, (t.player q).summonAt p = some z →
      ∃ slot, (s.player q).bench.get slot = some z) : Course q i fired t current := by
  refine .gone (fun p z hz hbase => ?_)
  obtain ⟨slot, hslot⟩ := hleft p z hz
  have hbench : (s.player q).summonAt (.bench slot) = some z := hslot
  have hthere : (s.player q).summonAt .main = some y := hy
  obtain ⟨-, hp⟩ := hd.position_eq hbench hthere (hbase.trans hi.symm)
  cases hp

/-- A promotion leaves the Summons of the Bench. -/
theorem benched_of_promoted {slot : BenchSlot} {ps : PlayerState}
    (hx : ps.bench.get slot = some y) (p : Position) (z : SummonInstance)
    (hz : ({ ps with bench := ps.bench.set slot none, main := some y } : PlayerState).summonAt p =
      some z) : ∃ r, ps.bench.get r = some z := by
  cases p with
  | main =>
      cases hz
      exact ⟨slot, hx⟩
  | bench r =>
      simp only [PlayerState.summonAt_bench] at hz
      by_cases hr : r = slot
      · subst hr
        rw [Bench.get_set_self] at hz
        cases hz
      · rw [Bench.get_set_of_ne _ hr] at hz
        exact ⟨r, hz⟩

/-! ## The course through steps that leave it alone -/

theorem Course.keep (h : Course q i fired s current) (hmain : MainStays q s t)
    (hcards : t.cards = s.cards) (hdescends : Descends s t)
    (howes : ∀ n fires, Owes q s.work n fires → Owes q t.work n fires)
    (hend : s.work.head? = some (.resolveMovementConsequences q) →
      t.work.head? = some (.resolveMovementConsequences q))
    (hnext : next = some (q, .consequences) → current = some (q, .consequences) ∧
      (s.pending = some (.promotion q) → t.pending = some (.promotion q))) :
    Course q i fired t next := by
  cases h with
  | due hy hi hnone howed hcurrent =>
      obtain ⟨z, hz, same, -⟩ := hmain.summon hy
      exact .due hz (same.base.trans hi) hnone (howes _ _ howed) (fun h => hcurrent (hnext h).1)
  | landed hy hi hnone howed hhead =>
      obtain ⟨z, hz, same, -⟩ := hmain.summon hy
      exact .landed hz (same.base.trans hi) hnone (howes _ _ howed) (hend hhead)
  | running hy hi hentry howed hall hasked =>
      obtain ⟨z, hz, same, hkept⟩ := hmain.summon hy
      refine .running hz (same.base.trans hi) (hkept hentry) (howes _ _ howed) ?_ (fun h => ?_)
      · rw [hall, matchingAbilities_main hy hz same hcards]
      · exact (hnext h).2 (hasked (hnext h).1)
  | gone hgone =>
      refine .gone (fun p z hz => ?_)
      obtain ⟨r, w, hw, same⟩ := hdescends q p z hz
      rw [same.base]
      exact hgone r w hw

/-! ## The drain -/

/-- What stands before an entry is light, and a light item ends no destruction. -/
theorem EntriesFirst.light {item : WorkItem} {work : List WorkItem} {n : ℕ}
    {fires : List EntityId} (h : EntriesFirst (item :: work)) (howes : Owes q (item :: work) n fires)
    (hpos : n ≠ 0) : item.isLight = true := by
  rcases h.pop.2 with hlight | hnone
  · exact hlight
  · exact absurd (howes.unique (owes_nothing hnone)).1 hpos

/-- What an item but the promotion of `q` does to the Main of `q`: it stays, or it is discarded. -/
theorem ItemStep.mainStays {item : WorkItem} {work : List WorkItem} (hd : Distinct s)
    (h : ItemStep (poppedWork s work) item t es) (hs : s.status = .playing)
    (hcards : s.cards.TriggersAdmitted) (hc : Carries (anywhere Persists) s t)
    (hpromote : item ≠ .promoteBenchSummon q) :
    MainStays q s t ∨ (item = .discardDestroyedChain .main ∧ (t.player q).main = none ∧
      (t.player q).bench = (s.player q).bench) := by
  have hstill : item.unseats = false → MainStays q s t := fun hu =>
    mainStays_of_stands hd (fun r => h.stands hs hcards hu r) hc
  cases h with
  | discardBroke _ => exact .inl (.of_eq rfl)
  | discardMissed _ => exact .inl (.of_eq rfl)
  | @discarded p c w _ _ =>
      have hplayer : ∀ r, (Triggers.discoverFront (discardSummon (poppedWork s work) c p w)
          (orderedPlayers (poppedWork s work)) .anySummonDestroyed).player r =
            (discardSummon (poppedWork s work) c p w).player r := fun _ => rfl
      by_cases hmain : q = c ∧ p = .main
      · obtain ⟨rfl, rfl⟩ := hmain
        refine .inr ⟨rfl, ?_, ?_⟩
        · rw [hplayer, discardSummon_player, if_pos rfl]
          rfl
        · rw [hplayer, discardSummon_player, if_pos rfl]
          rfl
      · refine .inl (.of_eq ?_)
        rw [hplayer, discardSummon_player]
        by_cases hq : q = c
        · rw [if_pos hq]
          cases p with
          | main => exact absurd ⟨hq, rfl⟩ hmain
          | bench slot => rfl
        · rw [if_neg hq]
          rfl
  | promoteNone _ => exact .inl (.of_eq rfl)
  | promotionDue _ => exact .inl (.of_eq rfl)
  | @promoted c slot w _ _ =>
      have hq : q ≠ c := fun hq => hpromote (by rw [hq])
      refine .inl (.of_eq ?_)
      rw [GameState.player_setPlayer_of_ne _ _ _ hq]
      rfl
  | _ => exact .inl (hstill rfl)

theorem ItemStep.entriesFired {item : WorkItem} (h : ItemStep s item t es)
    (hs : s.status = .playing) (hfire : item.entryFire q = none) : entriesFired q es = [] := by
  have hfired : ∀ c p ev ability, item = .fireTrigger c p ev ability →
      GameEvent.entryFired q (.triggerFired c p ev ability) = none := by
    rintro c p ev ability rfl
    cases p <;> cases ev <;> first | rfl | exact hfire
  cases h with
  | opened _ => rw [entriesFired_cons_of_none (hfired _ _ _ _ rfl)]; rfl
  | fired _ hl =>
      rw [entriesFired_cons_of_none (hfired _ _ _ _ rfl)]
      exact entriesFired_of_byLeaf (applyLeaves_byLeaf hl hs)
  | _ => rfl

/-- What the state of a run keeps for arrivals to run their course. -/
structure Orderly (s : GameState) : Prop where
  coherent : Coherent s
  distinct : Distinct s
  cards : s.cards.Authored
  still : StillStack s
  entries : EntriesFirst s.work
  follows : ∃ current, Follows current s.work

/-- The entry step records the arrival and queues its triggers. -/
theorem Course.entered {work : List WorkItem} (hd : Draining s)
    (hwork : s.work = .movementTrigger .enteringMain q .main :: work)
    (hpops : Pops current (.movementTrigger .enteringMain q .main) next)
    (h : Course q i fired s current)
    (hi : ItemStep (poppedWork s work) (.movementTrigger .enteringMain q .main) t es)
    (hcards : s.cards.TriggersAdmitted)
    (hgone : (∀ p y, (s.player q).summonAt p = some y → y.base ≠ i) →
      Course q i (fired ++ entriesFired q es) t next) :
    Course q i (fired ++ entriesFired q es) t next := by
  cases h with
  | gone hnone => exact hgone hnone
  | @due y hy hbase hnone howes hcurrent =>
      have hstands : Stands s t := fun r => hi.stands hd.playing hcards rfl r
      have hmatch := hstands.matchingAbilities (hi.frame hd.playing).cards q .main .entersMain
      have hkept : next = current := by
        cases hpops with
        | urgent _ => rfl
        | loose _ => rfl
      rw [hwork] at howes
      cases hi with
      | movement =>
          obtain ⟨-, -, -, hw, -⟩ := markMainEntry_frame (poppedWork s work) .enteringMain q .main
          have hfires : Owes q (movementFires (poppedWork s work) .enteringMain q .main) 0 _ :=
            owes_movementFires.1
          rw [if_pos ⟨rfl, rfl, rfl⟩] at hfires
          have howed := hfires.append howes.pop_entry
          rw [List.append_nil] at howed
          have hmain : Triggers.markMainEntry (poppedWork s work) .enteringMain q .main =
              (poppedWork s work).setPlayer q { (poppedWork s work).player q with
                main := some { y with turn := { y.turn with mainEntry := some .mk } } } := by
            unfold Triggers.markMainEntry
            simp only [poppedWork_player, hy]
          have hrecorded : ((Triggers.markMainEntry (poppedWork s work) .enteringMain q .main).player
              q).main = some { y with turn := { y.turn with mainEntry := some .mk } } := by
            rw [hmain, GameState.player_setPlayer_self]
          have howes : Owes q (((Triggers.markMainEntry (poppedWork s work) .enteringMain q
              .main).pushFront (movementFires (poppedWork s work) .enteringMain q .main)).work) 0
              (Triggers.matchingAbilities s q .main .entersMain) := by
            rw [GameState.pushFront_work, hw]
            exact howed
          refine .running hrecorded hbase rfl howes ?_ ?_
          · rw [hnone, hmatch]
            rfl
          · intro heq
            rw [hkept] at heq
            exact absurd heq hcurrent
  | landed _ _ _ _ hend =>
      rw [hwork] at hend
      cases hend
  | running _ _ _ howes _ _ =>
      have hdue := howes.due
      rw [hwork, List.count_cons_self] at hdue
      cases hdue

/-- The end of the destruction of `q` queues the entry step of whoever it has promoted. -/
theorem Course.ended {work : List WorkItem} (hO : Orderly s) (hd : Draining s)
    (hwork : s.work = .resolveMovementConsequences q :: work)
    (hpops : Pops current (.resolveMovementConsequences q) next)
    (h : Course q i fired s current)
    (hi : ItemStep (poppedWork s work) (.resolveMovementConsequences q) t es)
    (hgone : (∀ p y, (s.player q).summonAt p = some y → y.base ≠ i) →
      Course q i (fired ++ entriesFired q es) t next) :
    Course q i (fired ++ entriesFired q es) t next := by
  cases h with
  | gone hnone => exact hgone hnone
  | due _ _ _ howes _ =>
      have hentries := hO.entries
      rw [hwork] at howes hentries
      cases hentries.light howes Nat.one_ne_zero
  | landed hy hbase hnone howes _ =>
      rw [hwork] at howes
      have howes := howes.tail (by simp) rfl
      have hnext : next ≠ some (q, .consequences) := by
        rintro rfl
        rcases hpops.reaches_consequences with heq | ⟨hu, -⟩
        · cases heq
        · cases hu
      cases hi with
      | noConsequences hm =>
          rw [poppedWork_player, hy] at hm
          cases hm
      | consequences _ =>
          refine .due hy hbase (by rw [hnone]; rfl) ?_ hnext
          have hsteps : Owes q [.movementTrigger .leavingBench q .main,
              .movementTrigger .enteringMain q .main] 1 [] :=
            ⟨by simp, rfl⟩
          have howed := hsteps.append howes
          rwa [List.append_nil] at howed
  | running _ _ _ _ _ hasked =>
      have hcurrent : current = some (q, .consequences) := by
        cases hpops with
        | consequences => rfl
        | urgent hu => cases hu
        | loose hl => cases hl
      have hp := hasked hcurrent
      rw [hd.pending] at hp
      cases hp

/-- A trigger of the arrival that is executed fires. -/
theorem Course.fires {work : List WorkItem} {ability : EntityId} (hd : Draining s)
    (hwork : s.work = .fireTrigger q .main .entersMain ability :: work)
    (hpops : Pops current (.fireTrigger q .main .entersMain ability) next)
    (h : Course q i fired s current)
    (hi : ItemStep (poppedWork s work) (.fireTrigger q .main .entersMain ability) t es)
    (hcards : s.cards.TriggersAdmitted) (hmain : MainStays q s t)
    (hgone : (∀ p y, (s.player q).summonAt p = some y → y.base ≠ i) →
      Course q i (fired ++ entriesFired q es) t next) :
    Course q i (fired ++ entriesFired q es) t next := by
  have hfire : WorkItem.entryFire q (.fireTrigger q .main .entersMain ability) = some ability :=
    if_pos rfl
  have hnot : ∀ {n : ℕ}, ¬Owes q s.work n [] := fun howes => by
    have hnil := howes.fires
    rw [hwork, List.filterMap_cons, hfire] at hnil
    cases hnil
  cases h with
  | gone hnone => exact hgone hnone
  | due _ _ _ howes _ => exact absurd howes hnot
  | landed _ _ _ howes _ => exact absurd howes hnot
  | @running y fires hy hbase hentry howes hall hasked =>
      have hkept : next = current := by
        cases hpops with
        | urgent _ => rfl
        | loose _ => rfl
      have hfires : ability :: work.filterMap (WorkItem.entryFire q) = fires := by
        rw [← howes.fires, hwork, List.filterMap_cons, hfire]
      have hcount : work.count (.movementTrigger .enteringMain q .main) = 0 := by
        rw [← howes.due, hwork, List.count_cons_of_ne (by simp)]
      have howed : t.work = work → Owes q t.work 0 (work.filterMap (WorkItem.entryFire q)) := by
        intro ht
        rw [ht]
        exact ⟨hcount, rfl⟩
      have hprinted : ability ∈ Triggers.matchingAbilities (poppedWork s work) q .main .entersMain := by
        have hmem : ability ∈ fired ++ fires := by
          rw [← hfires]
          exact List.mem_append_right _ List.mem_cons_self
        rwa [hall] at hmem
      obtain ⟨trigger, htrigger⟩ := abilityAt_of_matching hprinted
      obtain ⟨z, hz, same, hstays⟩ := hmain.summon hy
      have hmatch := matchingAbilities_main hy hz same (hi.frame hd.playing).cards .entersMain
      have hreported : ∀ es', es = .triggerFired q .main .entersMain ability :: es' →
          (∀ e ∈ es', e.byLeaf = true) → t.work = work →
            Course q i (fired ++ entriesFired q es) t next := by
        rintro es' rfl hleaf ht
        have hthis : entriesFired q (.triggerFired q .main .entersMain ability :: es') = [ability] := by
          rw [show entriesFired q (.triggerFired q .main .entersMain ability :: es') =
            ability :: entriesFired q es' from List.filterMap_cons_some (if_pos rfl),
            entriesFired_of_byLeaf hleaf]
        rw [hthis]
        refine .running hz (same.base.trans hbase) (hstays hentry) (howed ht) ?_ (fun heq => ?_)
        · rw [hmatch, ← hall, ← hfires, List.append_assoc]
          rfl
        · rw [hkept] at heq
          have hp := hasked heq
          rw [hd.pending] at hp
          cases hp
      cases hi with
      | unfired ha =>
          rw [htrigger] at ha
          cases ha
      | opened _ => exact hreported [] rfl (by simp) rfl
      | fired ha hl =>
          exact hreported _ rfl (applyLeaves_byLeaf hl hd.playing)
            (applyLeaves_work_of_trigger hl hd.playing
              (abilityAt_admitted (s := poppedWork s work) hcards ha))

/-- **An item of work** takes the arrival on its course. -/
theorem Course.item {item : WorkItem} {work : List WorkItem} (hO : Orderly s) (hd : Draining s)
    (hwork : s.work = item :: work) (hpops : Pops current item next)
    (h : Course q i fired s current) (hi : ItemStep (poppedWork s work) item t es)
    (hdescends : Descends s t) (hc : Carries (anywhere Persists) s t)
    (hclear : item = .promoteBenchSummon q → (s.player q).main.isSome = true →
      occupiedBenchSlots (s.player q) ≠ []) :
    Course q i (fired ++ entriesFired q es) t next := by
  have hcards : t.cards = s.cards := (hi.frame hd.playing).cards
  have hgone : (∀ p y, (s.player q).summonAt p = some y → y.base ≠ i) →
      Course q i (fired ++ entriesFired q es) t next := by
    intro hnone
    refine .gone (fun p z hz => ?_)
    obtain ⟨r, w, hw, same⟩ := hdescends q p z hz
    rw [same.base]
    exact hnone r w hw
  -- an arrival whose entry step is queued finds light items in front
  have hlight : Owes q s.work 1 [] → item.isLight = true := fun howes => by
    have hentries := hO.entries
    rw [hwork] at howes hentries
    exact hentries.light howes Nat.one_ne_zero
  have hunasked : current = some (q, .consequences) → s.pending ≠ some (.promotion q) := by
    intro _ hp
    rw [hd.pending] at hp
    cases hp
  by_cases hpromote : item = .promoteBenchSummon q
  · subst hpromote
    cases h with
    | gone hnone => exact hgone hnone
    | due _ _ _ howes _ => cases hlight howes
    | landed _ _ _ _ hend =>
        rw [hwork] at hend
        cases hend
    | @running y fires hy hbase hentry howes hall _ =>
        have hsome : (s.player q).main.isSome = true := by rw [hy]; rfl
        rw [hwork] at howes
        have howes := howes.tail (by simp) rfl
        cases hi with
        | promoteNone hb => exact absurd hb (hclear rfl hsome)
        | @promoted _ slot w hb hw =>
            refine gone_of_benched hO.distinct hy hbase (fun p z hz => ?_)
            rw [GameState.player_setPlayer_self] at hz
            exact benched_of_promoted hw p z hz
        | promotionDue hb =>
            rw [show entriesFired q [] = [] from rfl, List.append_nil]
            exact .running hy hbase hentry howes hall (fun _ => rfl)
  · rcases hi.mainStays hO.distinct hd.playing hO.cards.triggersAdmitted hc hpromote with
      hmain | ⟨rfl, hnone, hbench⟩
    · by_cases hentry : item = .movementTrigger .enteringMain q .main
      · subst hentry
        exact h.entered hd hwork hpops hi hO.cards.triggersAdmitted hgone
      · by_cases hend : item = .resolveMovementConsequences q
        · subst hend
          exact h.ended hO hd hwork hpops hi hgone
        · cases hfire : item.entryFire q with
          | some ability =>
              obtain rfl : item = .fireTrigger q .main .entersMain ability :=
                eq_fireTrigger_of_entryFire hfire
              exact h.fires hd hwork hpops hi hO.cards.triggersAdmitted hmain hgone
          | none =>
              rw [hi.entriesFired hd.playing hfire, List.append_nil]
              refine h.keep hmain hcards hdescends (fun n fires howes => ?_) (fun hhead => ?_)
                (fun hnext => ?_)
              · rw [hwork] at howes
                exact hi.owes hd.playing hO.cards.triggersAdmitted hentry hend
                  (howes.tail hentry hfire)
              · rw [hwork] at hhead
                exact absurd (Option.some.inj hhead) hend
              · rw [hnext] at hpops
                rcases hpops.reaches_consequences with heq | ⟨-, hcurrent⟩
                · exact absurd heq hpromote
                · exact ⟨hcurrent, fun hp => absurd hp (hunasked hcurrent)⟩
    · -- whoever was in Main has been discarded
      have hleft : ∀ p z, (t.player q).summonAt p = some z →
          ∃ slot, (s.player q).bench.get slot = some z := by
        intro p z hz
        cases p with
        | main =>
            rw [PlayerState.summonAt_main, hnone] at hz
            cases hz
        | bench slot =>
            rw [PlayerState.summonAt_bench, hbench] at hz
            exact ⟨slot, hz⟩
      cases h with
      | gone hnone => exact hgone hnone
      | due hy hbase _ _ _ => exact gone_of_benched hO.distinct hy hbase hleft
      | landed hy hbase _ _ _ => exact gone_of_benched hO.distinct hy hbase hleft
      | running hy hbase _ _ _ _ => exact gone_of_benched hO.distinct hy hbase hleft

theorem nextWork_of_work {item : WorkItem} (h : nextWork s = some item) :
    Resolution.stackHasUnresolvedItems s = false ∧ s.work.head? = some item := by
  unfold nextWork at h
  split at h
  · cases h
  · rename_i hn
    exact ⟨by simpa using hn, h⟩

/-- **An iteration of the drain** takes the arrival on its course. -/
theorem Course.drainStep (hO : Orderly s) (hf : Follows current s.work)
    (h : Course q i fired s current) (hclear : misrecords q ⟨s, none, es⟩ = false)
    (hn : Resolution.drainStep s = some (t, es)) :
    ∃ next, Follows next t.work ∧ Course q i (fired ++ entriesFired q es) t next := by
  have hcards : t.cards = s.cards := drainStep_cards hn
  have hdescends : Descends s t := drainStep_descends hn
  have hc : Carries (anywhere Persists) s t := drainStep_carries persistent_persists hn
  obtain ⟨hd, ⟨hnone, hft, item, u, es', hst, rfl⟩ |
    ⟨item, work, next, hnext, hwork, hpops, hft, hi, -⟩⟩ := drainStep_agenda hf hn
  · refine ⟨current, hft, ?_⟩
    have hstill : item.Still := hO.still item (List.mem_of_getLast? hst.top)
    have hstands : Stands s t := drainStep_stands hn hO.cards hO.still (fun i hi => by
      rw [hnone] at hi
      cases hi)
    obtain ⟨added, ha, hadded⟩ := applyLeaves_checks hst.leaves hd.playing
      (itemLeaves_still (s := poppedStack s) hO.cards hstill)
    have hw : t.work = s.work ++ added := by
      rw [hst.result, closeSegment_work, placeItem_work, ha, poppedStack_work]
    rw [entriesFired_cons_of_none rfl,
      entriesFired_of_byLeaf (applyLeaves_byLeaf hst.leaves hd.playing), List.append_nil]
    refine h.keep (mainStays_of_stands hO.distinct hstands hc) hcards hdescends
      (fun n fires howes => ?_) (fun hhead => ?_) (fun hcurrent => ⟨hcurrent, fun hp => ?_⟩)
    · rw [hw]
      exact howes.push_back (owes_nothing (isEntry_of_check hadded))
    · rw [hw, List.head?_append, hhead]
      rfl
    · rw [hd.pending] at hp
      cases hp
  · refine ⟨next, hft, h.item hO hd hwork hpops hi hdescends hc (fun hitem hsome hnil => ?_)⟩
    subst hitem
    simp only [misrecords, hnext, decide_true, hsome, hnil, List.isEmpty_nil, Bool.and_self,
      Bool.true_eq_false] at hclear

/-! ## Actions -/

/-- An action that asks for a free Main Phase is taken in free play. -/
theorem Coherent.freePlay (h : Coherent s) (hs : s.status = .playing)
    (hrest : Resolution.drainStep s = none) (free : FreeMain s) : FreePlay s :=
  ⟨hs, free.pending, free.window, (h.idle hs hrest free.pending free.window).1⟩

/-- **An action** short of free play and within the turn leaves the arrival on its course. -/
theorem Course.action {a : GameAction} (hO : Orderly s) (hs : s.status = .playing)
    (hrest : Resolution.drainStep s = none) (h : Course q i fired s current)
    (hst : ActionStep s a t es) (hfree : ¬FreePlay s) (hturn : ∀ p, .turnBegan p ∉ es) :
    Course q i (fired ++ entriesFired q es) t current := by
  have hnot : ∀ {P : Prop}, FreeMain s → P :=
    fun free => absurd (hO.coherent.freePlay hs hrest free) hfree
  have hpaid : ∀ (payment : Payment) (c : PlayerId) (es : List GameEvent),
      entriesFired q (payment.events c ++ es) = entriesFired q es := by
    intro payment c es
    rw [entriesFired_append]
    have hnone : entriesFired q (payment.events c) = [] := by
      unfold entriesFired
      rw [List.filterMap_eq_nil_iff]
      intro e he
      obtain ⟨_, -, rfl⟩ := List.mem_map.mp he
      rfl
    rw [hnone]
    rfl
  have hkept : a.reseats = false → t.work = s.work → entriesFired q es = [] →
      (s.pending = some (.promotion q) → t.pending = some (.promotion q)) →
        Course q i (fired ++ entriesFired q es) t current := by
    intro ha hwork hquiet hpending
    have hplay : ∀ c card slot, a ≠ .playSummon c card slot := fun _ _ _ heq => by
      rw [heq] at ha
      cases ha
    have hupgrade : ∀ c card p, a ≠ .upgradeSummon c card p := fun _ _ _ heq => by
      rw [heq] at ha
      cases ha
    have hc : Carries (anywhere Persists) s t :=
      hst.carries persistent_persists.moves hplay hupgrade
        (fun c p ability targets hint heq => by
          rw [heq] at ha
          cases ha)
        (fun p hp => absurd hp (hturn p))
    rw [hquiet, List.append_nil]
    refine h.keep (mainStays_of_stands hO.distinct (hst.stands ha) hc) (hst.cards hs)
      (hst.descends hs hplay hupgrade) (fun n fires howes => ?_) (fun hhead => ?_)
      (fun hcurrent => ⟨hcurrent, hpending⟩)
    · rwa [hwork]
    · rwa [hwork]
  have hother : ∀ {d : PendingInput}, s.pending = some d → d ≠ .promotion q →
      s.pending = some (.promotion q) → t.pending = some (.promotion q) := by
    intro d hd hne hp
    rw [hp] at hd
    exact absurd (Option.some.inj hd).symm hne
  cases hst with
  | played free _ _ _ _ _ => exact hnot free
  | upgraded free _ _ _ _ _ _ _ _ _ => exact hnot free
  | skill free _ _ _ _ _ _ _ => exact hnot free
  | retreated free _ _ _ => exact hnot free
  | attacked free _ _ _ _ => exact hnot free
  | handedOver _ _ _ => exact absurd (List.mem_cons_of_mem _ List.mem_cons_self) (hturn _)
  | cast _ _ _ _ _ _ => exact hkept rfl rfl (by rw [hpaid]; rfl) id
  | manaChosen hp _ => exact hkept rfl rfl rfl (hother hp (by simp))
  | prizeChosen hp _ => exact hkept rfl rfl rfl (hother hp (by simp))
  | @promotionChosen c slot x hp hx =>
      by_cases hc : c = q
      · subst hc
        have hleft : ∀ p z, ((({ s with pending := none } : GameState).setPlayer c
            { s.player c with bench := (s.player c).bench.set slot none, main := some x }).player
              c).summonAt p = some z → ∃ r, (s.player c).bench.get r = some z := by
          intro p z hz
          rw [GameState.player_setPlayer_self] at hz
          exact benched_of_promoted hx p z hz
        cases h with
        | gone hnone =>
            refine .gone (fun p z hz => ?_)
            obtain ⟨r, hr⟩ := hleft p z hz
            exact hnone (.bench r) z hr
        | due hy hbase _ _ _ => exact gone_of_benched hO.distinct hy hbase hleft
        | landed hy hbase _ _ _ => exact gone_of_benched hO.distinct hy hbase hleft
        | running hy hbase _ _ _ _ => exact gone_of_benched hO.distinct hy hbase hleft
      · have hplayer : ((({ s with pending := none } : GameState).setPlayer c
            { s.player c with bench := (s.player c).bench.set slot none, main := some x }).player
              q) = s.player q := GameState.player_setPlayer_of_ne _ _ _ (Ne.symm hc)
        rw [show entriesFired q [.summonPromoted c slot] = [] from rfl, List.append_nil]
        refine h.keep (.of_eq (by rw [hplayer])) rfl (fun r => ?_) (fun _ _ howes => howes) id
          (fun hcurrent => ⟨hcurrent, hother hp (by simpa using hc)⟩)
        by_cases hr : r = c
        · subst hr
          rw [GameState.player_setPlayer_self]
          exact carries_promote (fun _ x => .refl x) hx (.refl x)
        · rw [GameState.player_setPlayer_of_ne _ _ _ hr]
          exact descends_of_board rfl rfl
  | _ => exact hkept rfl rfl rfl id

/-! ## The order of the queue along a run -/

theorem ActionStep.entriesFirst {a : GameAction} (h : ActionStep s a t es) (hO : Orderly s)
    (hs : s.status = .playing) (hrest : Resolution.drainStep s = none) : EntriesFirst t.work := by
  have hidle : FreeMain s → s.work = [] :=
    fun free => (hO.coherent.idle hs hrest free.pending free.window).1
  cases h with
  | skill free _ _ _ _ _ _ hl =>
      obtain ⟨added, ha, hadded⟩ := (applyLeaves_frame hl hs).work
      have hw : t.work = added := by
        rw [ha, GameState.setPlayer_work, hidle free, List.nil_append]
      rw [hw]
      exact .of_light (fun i hi => isLight_of_consequence (hadded i hi))
  | retreated free _ _ _ =>
      rw [GameState.pushBack_work, GameState.setPlayer_work, hidle free, List.nil_append]
      exact .of_light (by simp [exchangeSteps, WorkItem.isLight])
  | handedOver _ _ _ =>
      obtain ⟨v, hwork⟩ := handover_work (windowClosed s)
      rw [hwork]
      refine hO.entries.push_back (fun i hi => ?_)
      simp only [List.mem_append, List.mem_cons, List.not_mem_nil, or_false] at hi
      rcases hi with (rfl | hi) | rfl | rfl | rfl
      · rfl
      · obtain ⟨c, r, ability, rfl⟩ := isUpkeep_candidates i hi
        cases r <;> rfl
      all_goals rfl
  | _ => exact hO.entries

theorem Orderly.action {a : GameAction} (hO : Orderly s) (hs : s.status = .playing)
    (hrest : Resolution.drainStep s = none) (hst : ActionStep s a t es) : Orderly t where
  coherent := hO.coherent.action hs hrest hst
  distinct := hO.distinct.action hs hst
  cards := by rw [hst.cards hs]; exact hO.cards
  still := hO.still.action hs hst
  entries := hst.entriesFirst hO hs hrest
  follows := hO.follows.imp (fun _ hf => hst.follows hs hf)

theorem Orderly.drainStep (hO : Orderly s) (hn : Resolution.drainStep s = some (t, es)) :
    Orderly t where
  coherent := hO.coherent.drainStep hn
  distinct := hO.distinct.drainStep hn
  cards := by rw [drainStep_cards hn]; exact hO.cards
  still := hO.still.drainStep hO.cards.triggersAdmitted hn
  entries := by
    obtain ⟨hd, ⟨item, u, es', hst, -⟩ | ⟨-, item, work, hwork, hi⟩⟩ := drainStep_cases hn
    · have hstill : item.Still := hO.still item (List.mem_of_getLast? hst.top)
      obtain ⟨added, ha, hadded⟩ := applyLeaves_checks hst.leaves hd.playing
        (itemLeaves_still (s := poppedStack s) hO.cards hstill)
      rw [hst.result, closeSegment_work, placeItem_work, ha, poppedStack_work]
      exact hO.entries.push_back (isEntry_of_check hadded)
    · have hentries := hO.entries
      rw [hwork] at hentries
      exact hi.entriesFirst hd.playing hO.cards.triggersAdmitted hentries.pop.1
  follows := by
    obtain ⟨current, hf⟩ := hO.follows
    obtain ⟨-, ⟨-, hft, -⟩ | ⟨_, _, next, -, -, -, hft, -⟩⟩ := drainStep_agenda hf hn
    · exact ⟨current, hft⟩
    · exact ⟨next, hft⟩

theorem Opening.orderly {cards : CardSet} {scenario : Scenario}
    (hstart : fromScenario cards scenario = .ok s) (hcards : cards.Authored) : Orderly s := by
  have h := opening_of_fromScenario hstart
  have hw : EntriesFirst s.work := by
    rw [h.work]
    exact .of_light (by simp)
  refine ⟨h.coherent, start_nodup hstart, by rw [h.cards]; exact hcards, h.stillStack, hw, none, ?_⟩
  rw [h.work]
  exact .nil

/-! ## How an arrival begins -/

/-- A moment that leaves the Main of `q` to whom it finds there brings nobody to it. -/
theorem not_arrives (hd : Distinct m.before)
    (h : (m.after.player q).mainBase = (m.before.player q).mainBase) : ¬m.Arrives q i := by
  rintro ⟨⟨slot, y, hy, hbase⟩, z, hz, hbase'⟩
  have hmain : (m.before.player q).mainBase = some i := by
    rw [← h]
    unfold PlayerState.mainBase
    rw [hz, Option.map_some, hbase']
  obtain ⟨w, hw, hbasew⟩ := Option.map_eq_some_iff.mp hmain
  have hbench : (m.before.player q).summonAt (.bench slot) = some y := hy
  have hthere : (m.before.player q).summonAt .main = some w := hw
  obtain ⟨-, hp⟩ := hd.position_eq hbench hthere (hbase.trans hbasew.symm)
  cases hp

theorem mem_leaves_of_leafMoments {source : EffectSource} {targets : List Position}
    {leaves : List EffectLeaf} (hm : m ∈ leafMoments s source targets leaves) :
    ∃ leaf ∈ leaves, m.cause = some (source, leaf) ∧
      LeafStep m.before source targets leaf m.after m.emitted := by
  induction leaves generalizing s with
  | nil => cases hm
  | cons leaf leaves ih =>
      unfold leafMoments at hm
      rcases List.mem_cons.mp hm with rfl | hm
      · exact ⟨leaf, List.mem_cons_self, rfl, applyLeaf_step s source targets leaf⟩
      · split at hm
        · obtain ⟨l, hl, hrest⟩ := ih hm
          exact ⟨l, List.mem_cons_of_mem _ hl, hrest⟩
        · cases hm

theorem applyLeaves_unexchanged {source : EffectSource} {targets : List Position}
    {leaves : List EffectLeaf} (h : applyLeaves s source targets leaves = (t, es))
    (hs : s.status = .playing) (hnone : leaves.countP (EffectLeaf.exchanges source.controller q) = 0) :
    (t.player q).mainBase = (s.player q).mainBase ∧
      ∀ n fires, Owes q s.work n fires → Owes q t.work n fires := by
  refine applyLeaves_rel (R := fun s _ t => (t.player q).mainBase = (s.player q).mainBase ∧
      ∀ n fires, Owes q s.work n fires → Owes q t.work n fires) h hs (fun _ => ⟨rfl, fun _ _ => id⟩)
    (fun _ h h' => ⟨h'.1.trans h.1, fun n fires howes => h'.2 n fires (h.2 n fires howes)⟩)
    (fun {leaf _ _ _} hmem _ hstep => ?_)
  rcases hstep.entry q with hkept | ⟨hexchanges, -⟩
  · exact hkept
  · exact absurd hexchanges (List.countP_eq_zero.mp hnone leaf hmem)

/-- Leaves that exchange the Main of `q` at most once, with an arrival among them: whoever has arrived is
there when they are done, and one entry step is queued. -/
theorem applyLeaves_arrival {source : EffectSource} {targets : List Position}
    {leaves : List EffectLeaf} {fires : List EntityId}
    (h : applyLeaves s source targets leaves = (t, es)) (hs : s.status = .playing) (hd : Distinct s)
    (hm : m ∈ leafMoments s source targets leaves) (harr : m.Arrives q i)
    (hone : leaves.countP (EffectLeaf.exchanges source.controller q) ≤ 1)
    (howes : Owes q s.work 0 fires) :
    Owes q t.work 1 fires ∧ (t.player q).mainBase = some i := by
  induction leaves generalizing s t es with
  | nil => cases hm
  | cons leaf leaves ih =>
      have hstep := applyLeaf_step s source targets leaf
      have hdistinct : Distinct (applyLeaf s source targets leaf).1 :=
        nodup_of_tally_le hd (fun card => (hstep.keeps card).le)
      unfold applyLeaves at h
      unfold leafMoments at hm
      simp only at h hm
      rcases List.mem_cons.mp hm with rfl | hm
      · -- the arrival is this leaf's, and no leaf behind it exchanges again
        rcases hstep.entry q with hkept | ⟨hexchanges, howed⟩
        · exact absurd harr (not_arrives hd hkept.1)
        · have hrest : leaves.countP (EffectLeaf.exchanges source.controller q) = 0 := by
            rw [List.countP_cons_of_pos hexchanges] at hone
            exact Nat.le_zero.mp (Nat.le_of_succ_le_succ hone)
          have hmain : ((applyLeaf s source targets leaf).1.player q).mainBase = some i := by
            obtain ⟨-, z, hz, hbase⟩ := harr
            have hz : ((applyLeaf s source targets leaf).1.player q).main = some z := hz
            unfold PlayerState.mainBase
            rw [hz, Option.map_some, hbase]
          split at h
          · rename_i hplaying
            cases h
            obtain ⟨hbase, hsame⟩ :=
              applyLeaves_unexchanged rfl ((GameStatus.isPlaying_iff _).mp hplaying) hrest
            exact ⟨hsame _ _ (howed _ _ howes), hbase.trans hmain⟩
          · rw [h] at howed hmain
            exact ⟨howed _ _ howes, hmain⟩
      · split at hm
        · rename_i hplaying
          have hplaying' := (GameStatus.isPlaying_iff _).mp hplaying
          rw [if_pos hplaying] at h
          cases h
          rcases hstep.entry q with hkept | ⟨hexchanges, -⟩
          · refine ih rfl hplaying' hdistinct hm (le_trans ?_ hone) (hkept.2 _ _ howes)
            exact (List.sublist_cons_self leaf leaves).countP_le
          · -- a leaf behind this one would be a second exchange
            have hrest : leaves.countP (EffectLeaf.exchanges source.controller q) = 0 := by
              rw [List.countP_cons_of_pos hexchanges] at hone
              exact Nat.le_zero.mp (Nat.le_of_succ_le_succ hone)
            obtain ⟨l, hl, hcause, hlstep⟩ := mem_leaves_of_leafMoments hm
            obtain ⟨-, -, hkeeps, -⟩ := mem_leafMoments hplaying' hm
            rcases hlstep.entry q with hkept | ⟨hagain, -⟩
            · have hthere : Distinct m.before :=
                nodup_of_tally_le hdistinct (fun card => (hkeeps card).le)
              exact absurd harr (not_arrives hthere hkept.1)
            · exact absurd hagain (List.countP_eq_zero.mp hrest l hl)
        · cases hm

/-- Leaves that move nobody bring nobody to Main. -/
theorem leafMoments_mainBase {source : EffectSource} {targets : List Position}
    {leaves : List EffectLeaf} (hm : m ∈ leafMoments s source targets leaves)
    (hleaves : ∀ leaf ∈ leaves, leaf.moves = false) :
    (m.after.player q).mainBase = (m.before.player q).mainBase := by
  obtain ⟨leaf, hleaf, -, hstep⟩ := mem_leaves_of_leafMoments hm
  exact (hstep.stands (hleaves leaf hleaf) q).mainBase

theorem stackMoments_mainBase {item : StackItem} (hst : StackStep s item u t es)
    (hcards : s.cards.Authored) (hstill : item.Still) (hm : m ∈ stackMoments s) :
    (m.after.player q).mainBase = (m.before.player q).mainBase := by
  have hleaves := hst.leaves
  unfold stackMoments at hm
  simp only [hst.top, hleaves] at hm
  rcases List.mem_cons.mp hm with rfl | hm
  · rfl
  · rcases List.mem_append.mp hm with hm | hm
    · exact leafMoments_mainBase hm (itemLeaves_still (s := poppedStack s) hcards hstill)
    · rw [List.mem_singleton.mp hm]
      show ((Resolution.closeSegment (placeItem u item)).player q).mainBase = (u.player q).mainBase
      rw [closeSegment_player]
      exact (placeItem_stands u item q).mainBase

/-- Executing an item brings a benched Summon to Main in one moment, its whole step, or in none. -/
theorem workMoments_mainBase (hcards : s.cards.TriggersAdmitted) (hm : m ∈ workMoments s [⟨s, none, es, t⟩]) :
    m = ⟨s, none, es, t⟩ ∨ (m.after.player q).mainBase = (m.before.player q).mainBase := by
  unfold workMoments at hm
  split at hm
  · rename_i c p ev ability rest heq
    split at hm
    · rename_i effects ha
      right
      rcases List.mem_cons.mp hm with rfl | hm
      · rfl
      · exact leafMoments_mainBase hm (fun leaf hleaf => moves_of_trigger
          (abilityAt_admitted (s := poppedWork s rest) hcards ha leaf hleaf))
    · exact .inl (List.mem_singleton.mp hm)
  · exact .inl (List.mem_singleton.mp hm)

/-- An arrival in the drain is a promotion; the end of the destruction stands behind it. -/
theorem Course.begins_drain (hO : Orderly s) (hn : Resolution.drainStep s = some (t, es))
    (hm : m ∈ moments ⟨s, none, es⟩) (harr : m.Arrives q i) :
    ∃ current, Follows current t.work ∧ Course q i [] t current := by
  obtain ⟨current, hf⟩ := hO.follows
  obtain ⟨hd, ⟨hnone, hft, item, u, es', hst, rfl⟩ |
    ⟨item, work, next, hnext, hwork, hpops, hft, hi, -⟩⟩ := drainStep_agenda hf hn
  · have hmoments : moments ⟨s, none, .stackItemResolved item :: es'⟩ = stackMoments s := by
      unfold moments Resolution.stackHasUnresolvedItems
      simp [hst.above]
    rw [hmoments] at hm
    have hwithin := (stackMoments_spec (x := ⟨s, none, .stackItemResolved item :: es'⟩) hst hd.playing
      rfl).2.2 m hm
    have hdistinct : Distinct m.before := nodup_of_tally_le hO.distinct hwithin.cards
    have hstill : item.Still := hO.still item (List.mem_of_getLast? hst.top)
    exact absurd harr (not_arrives hdistinct (stackMoments_mainBase hst hO.cards hstill hm))
  · have hengine : engine.next s = some (t, es) := hn
    have hmoments : moments ⟨s, none, es⟩ = workMoments s [⟨s, none, es, t⟩] := by
      unfold moments
      simp only [(nextWork_of_work hnext).1, hengine]
      rfl
    rw [hmoments] at hm
    have hwithin := (workMoments_spec (x := ⟨s, none, es⟩) hwork hi hd.playing rfl hnext).2.2 m hm
    have hdistinct : Distinct m.before := nodup_of_tally_le hO.distinct hwithin.cards
    rcases workMoments_mainBase (q := q) hO.cards.triggersAdmitted hm with rfl | hkept
    · have hc : Carries (anywhere Persists) s t := drainStep_carries persistent_persists hn
      by_cases hpromote : item = .promoteBenchSummon q
      · subst hpromote
        refine ⟨next, hft, ?_⟩
        have hentries := hO.entries
        rw [hwork] at hentries hf
        have hnone : ∀ i ∈ work, i.isEntry = false := by
          rcases hentries.pop.2 with hlight | hnone
          · cases hlight
          · exact fun i hi => hnone i (List.mem_cons_of_mem _ hi)
        obtain ⟨z, hz, hbase⟩ := harr.2
        have hhead := hf.promotes
        have hsame : (t.player q).mainBase = (s.player q).mainBase →
            Course q i [] t next := fun h => absurd harr (not_arrives hdistinct h)
        cases hi with
        | promoteNone _ => exact hsame rfl
        | promotionDue _ => exact hsame rfl
        | promoted _ _ => exact .landed hz hbase rfl (owes_nothing hnone) hhead
      · rcases hi.mainStays hO.distinct hd.playing hO.cards.triggersAdmitted hc hpromote with
          hmain | ⟨-, hnone, -⟩
        · exact absurd harr (not_arrives hdistinct hmain.mainBase)
        · obtain ⟨z, hz, -⟩ := harr.2
          have hz : (t.player q).main = some z := hz
          rw [hnone] at hz
          cases hz
    · exact absurd harr (not_arrives hdistinct hkept)

/-- An action that seats nobody in the Main of `q` leaves it to whom it finds there. -/
theorem ActionStep.mainBase {a : GameAction} (h : ActionStep s a t es)
    (hskill : ∀ c p ability targets hint, a ≠ .activateSkill c p ability targets hint)
    (hretreat : ∀ slot hint, a ≠ .retreat q slot hint) (hpromote : ∀ slot, a ≠ .choosePromotion q slot) :
    (t.player q).mainBase = (s.player q).mainBase := by
  have hwritten : ∀ {ps : PlayerState} {c : PlayerId}, (q = c → ps.mainBase = (s.player c).mainBase) →
      ((s.setPlayer c ps).player q).mainBase = (s.player q).mainBase := by
    intro ps c hps
    rw [GameState.player_setPlayer]
    split
    · rename_i hq
      subst hq
      exact hps rfl
    · rfl
  by_cases hreseats : a.reseats = true
  · cases h with
    | played _ _ _ _ _ _ => exact hwritten (fun _ => rfl)
    | @upgraded c card p x cardRef hand _ _ _ _ _ hx _ _ _ _ _ _ _ _ =>
        refine hwritten (fun _ => ?_)
        cases p with
        | main =>
            rw [PlayerState.summonAt_main] at hx
            unfold PlayerState.mainBase
            rw [hx]
            rfl
        | bench slot => rfl
    | skill _ _ _ _ _ _ _ _ => exact absurd rfl (hskill _ _ _ _ _)
    | @retreated c slot hint _ _ _ _ _ _ _ _ =>
        have hq : q ≠ c := fun hq => hretreat slot hint (by rw [hq])
        rw [GameState.pushBack_player, GameState.player_setPlayer_of_ne _ _ _ hq]
        rfl
    | @promotionChosen c slot _ _ _ =>
        have hq : q ≠ c := fun hq => hpromote slot (by rw [hq])
        rw [GameState.player_setPlayer_of_ne _ _ _ hq]
        rfl
    | _ => cases hreseats
  · exact (h.stands (by simpa using hreseats) q).mainBase

/-- The Main of `q` after a Skill that has brought somebody to it. -/
theorem Course.begins_skill {p : Position} {ability : EntityId} {targets : List Position}
    {hint : Option ManaType} (hO : Orderly s) (hs : s.status = .playing)
    (hrest : Resolution.drainStep s = none)
    (hst : ActionStep s (.activateSkill c p ability targets hint) t es)
    (hm : m ∈ skillMoments s c p ability targets hint) (harr : m.Arrives q i)
    (hclear : (skillLeaves s c p ability).countP (EffectLeaf.exchanges c q) ≤ 1) :
    Follows none t.work ∧ Course q i [] t none := by
  have hft : Follows none s.work → Follows none t.work := hst.follows hs
  cases hst with
  | @skill _ _ _ _ _ y top skill payment free hy _ htop hskill _ hpay u es hl =>
      have hwork : s.work = [] := (hO.coherent.idle hs hrest free.pending free.window).1
      have hmoments : skillMoments s c p ability targets hint =
          ⟨s, none, payment.events c ++ [.skillActivated c p ability],
            skillBegun s c p payment.bank y⟩ ::
            leafMoments (skillBegun s c p payment.bank y) (.skill c p ability) targets
              (skill.all .effectLeaf) := by
        simp only [skillMoments, hy, htop, hskill, hpay]
      have hbegun : Distinct (skillBegun s c p payment.bank y) :=
        nodup_of_tally_le hO.distinct (fun card => (skillBegun_keeps payment.bank hy card).le)
      rw [skillLeaves_eq hy htop hskill] at hclear
      rw [hmoments] at hm
      refine ⟨hft (by rw [hwork]; exact .nil), ?_⟩
      rcases List.mem_cons.mp hm with rfl | hm
      · have hstands := skillBegun_stands (s := s) payment.bank hy
        exact absurd harr (not_arrives (m := ⟨s, none, _, skillBegun s c p payment.bank y⟩) hO.distinct
          (hstands q).mainBase)
      · have hnothing : Owes q (skillBegun s c p payment.bank y).work 0 [] := by
          have hkept : (skillBegun s c p payment.bank y).work = s.work := rfl
          rw [hkept, hwork]
          exact owes_nil
        obtain ⟨howed, hbase⟩ := applyLeaves_arrival (s := skillBegun s c p payment.bank y) hl hs
          hbegun hm harr hclear hnothing
        obtain ⟨z, hz, hz'⟩ := Option.map_eq_some_iff.mp hbase
        exact .due hz hz' rfl howed (by simp)

/-- **An arrival begins its course** where its entry step is queued, or a destruction is about to. -/
theorem Course.begins_action {a : GameAction} (hO : Orderly s)
    (hrest : Resolution.drainStep s = none) (ha : engine.accept s a = some (t, es))
    (hm : m ∈ moments ⟨s, some a, es⟩) (harr : m.Arrives q i)
    (hclear : misrecords q ⟨s, some a, es⟩ = false) :
    ∃ current, Follows current t.work ∧ Course q i [] t current := by
  obtain ⟨hs, hst, -⟩ := accept_step ha
  by_cases hskill : ∃ c p ability targets hint, a = .activateSkill c p ability targets hint
  · obtain ⟨c, p, ability, targets, hint, rfl⟩ := hskill
    have hfew : (skillLeaves s c p ability).countP (EffectLeaf.exchanges c q) ≤ 1 := by
      have hnot : ¬2 ≤ (skillLeaves s c p ability).countP (EffectLeaf.exchanges c q) :=
        of_decide_eq_false hclear
      omega
    exact ⟨none, Course.begins_skill hO hs hrest hst hm harr hfew⟩
  · have hskill : ∀ c p ability targets hint, a ≠ .activateSkill c p ability targets hint :=
      fun c p ability targets hint heq => hskill ⟨c, p, ability, targets, hint, heq⟩
    have hmoments : moments ⟨s, some a, es⟩ = [⟨s, none, es, t⟩] := by
      unfold moments
      cases a with
      | activateSkill c p ability targets hint => exact absurd rfl (hskill _ _ _ _ _)
      | _ =>
          simp only [ha]
          rfl
    rw [hmoments] at hm
    obtain rfl := List.mem_singleton.mp hm
    obtain ⟨current, hf⟩ := hO.follows
    have hft := hst.follows hs hf
    obtain ⟨z, hz, hbase⟩ := harr.2
    by_cases hretreat : ∃ slot hint, a = .retreat q slot hint
    · obtain ⟨slot, hint, rfl⟩ := hretreat
      refine ⟨current, hft, ?_⟩
      cases hst with
      | retreated free _ _ _ =>
          have hwork : s.work = [] := (hO.coherent.idle hs hrest free.pending free.window).1
          rw [hwork] at hf
          have hsteps := owes_exchange (q := q) (c := q) slot
          rw [if_pos rfl] at hsteps
          refine .due hz hbase rfl ?_ (by rw [hf.eq_none]; simp)
          rw [GameState.pushBack_work, GameState.setPlayer_work, hwork, List.nil_append]
          exact hsteps
    · by_cases hpromote : ∃ slot, a = .choosePromotion q slot
      · obtain ⟨slot, rfl⟩ := hpromote
        refine ⟨current, hft, ?_⟩
        have hhead : s.work.head? = some (.resolveMovementConsequences q) := by
          have hnot := of_decide_eq_false hclear
          simpa using hnot
        have hkept : t.work = s.work := by
          cases hst with
          | promotionChosen _ _ => rfl
        obtain ⟨work, hwork⟩ : ∃ work, s.work = .resolveMovementConsequences q :: work := by
          cases hw : s.work with
          | nil =>
              rw [hw] at hhead
              cases hhead
          | cons first work =>
              rw [hw] at hhead
              cases hhead
              exact ⟨work, rfl⟩
        have hentries := hO.entries
        rw [hwork] at hentries
        refine .landed hz hbase rfl ?_ (by rw [hkept]; exact hhead)
        rw [hkept, hwork]
        rcases hentries.pop.2 with hlight | hnone
        · cases hlight
        · exact owes_nothing hnone
      · have hretreat : ∀ slot hint, a ≠ .retreat q slot hint :=
          fun slot hint heq => hretreat ⟨slot, hint, heq⟩
        have hpromote : ∀ slot, a ≠ .choosePromotion q slot :=
          fun slot heq => hpromote ⟨slot, heq⟩
        exact absurd harr (not_arrives (m := ⟨s, none, es, t⟩) hO.distinct
          (hst.mainBase hskill hretreat hpromote))

/-! ## Runs -/

/-- What a run keeps: every arrival since which the turn has not ended, free play has not been acted in
and no step has misrecorded is somewhere on its course. -/
structure Arrivals (tr : List (Entry GameState GameAction GameEvent)) (s : GameState) : Prop where
  orderly : Orderly s
  course : ∀ pre x mid m q i, tr = pre ++ x :: mid → m ∈ moments x → m.Arrives q i →
    (∀ z ∈ x :: mid, misrecords q z = false) → SameTurn mid →
      (∀ z ∈ mid, z.input.isSome = true → ¬FreePlay z.before) →
        ∃ current, Follows current s.work ∧ Course q i (entriesFired q (facts mid)) s current

/-- One more step of the run: the arrivals there were go on, and those it brings begin. -/
theorem Arrivals.step (h : Arrivals tr x.before) (horderly : Orderly t)
    (begins : ∀ m q i, m ∈ moments x → m.Arrives q i → misrecords q x = false →
      ∃ current, Follows current t.work ∧ Course q i [] t current)
    (goes : ∀ q i fired current, Follows current x.before.work → Course q i fired x.before current →
      misrecords q x = false → (∀ p, .turnBegan p ∉ x.emitted) →
        (x.input.isSome = true → ¬FreePlay x.before) →
          ∃ next, Follows next t.work ∧ Course q i (fired ++ entriesFired q x.emitted) t next) :
    Arrivals (tr ++ [x]) t := by
  refine ⟨horderly, fun pre y mid m q i heq hm harr hclear hsame hbusy => ?_⟩
  rcases List.eq_nil_or_concat mid with rfl | ⟨front, last, rfl⟩
  · obtain ⟨-, hy⟩ := List.append_inj' heq rfl
    cases hy
    exact begins m q i hm harr (hclear x List.mem_cons_self)
  · rw [List.concat_eq_append] at hclear hsame hbusy ⊢
    rw [List.concat_eq_append, ← List.cons_append, ← List.append_assoc] at heq
    obtain ⟨htr, hlast⟩ := List.append_inj' heq rfl
    cases hlast
    obtain ⟨hsame, hturn⟩ := SameTurn.concat.mp hsame
    have hfront : ∀ z ∈ front, z ∈ front ++ [x] := fun z hz => List.mem_append_left _ hz
    have hx : x ∈ front ++ [x] := List.mem_append_right _ List.mem_cons_self
    obtain ⟨current, hf, hcourse⟩ := h.course pre y front m q i htr hm harr (fun z hz => by
        rcases List.mem_cons.mp hz with rfl | hz
        · exact hclear z List.mem_cons_self
        · exact hclear z (List.mem_cons_of_mem _ (hfront z hz))) hsame
      (fun z hz => hbusy z (hfront z hz))
    have hgoes := goes q i _ current hf hcourse (hclear x (List.mem_cons_of_mem _ hx)) hturn
      (hbusy x hx)
    rw [facts_append, entriesFired_append]
    simpa using hgoes

theorem run_arrivals {cards : CardSet} {scenario : Scenario} {start : GameState}
    {pre : List (Entry GameState GameAction GameEvent)}
    (hstart : fromScenario cards scenario = .ok start) (hcards : cards.Authored)
    (hr : engine.Run start tr s) (hu : Machine.Passes tr s pre u) : Arrivals pre u := by
  have hopen := opening_of_fromScenario hstart
  have hfirst : Arrivals [] start :=
    ⟨Opening.orderly hstart hcards, fun pre x mid m q i heq => by simp at heq⟩
  refine hr.passes hopen.rest hfirst ?_ ?_ hu
  · intro tr s t a es hI hrest ha
    obtain ⟨hs, hst, -⟩ := accept_step ha
    refine Arrivals.step (x := ⟨s, some a, es⟩) hI (hI.orderly.action hs hrest hst)
      (fun m q i hm harr hclear => Course.begins_action hI.orderly hrest ha hm harr hclear)
      (fun q i fired current hf hcourse _ hturn hbusy => ?_)
    exact ⟨current, hst.follows hs hf,
      hcourse.action hI.orderly hs hrest hst (hbusy rfl) hturn⟩
  · intro tr s t es hI hn
    exact Arrivals.step (x := ⟨s, none, es⟩) hI (hI.orderly.drainStep hn)
      (fun m q i hm harr _ => Course.begins_drain hI.orderly hn hm harr)
      (fun q i fired current hf hcourse hclear _ _ => hcourse.drainStep hI.orderly hf hclear hn)

end

/-- Where `tr` leads to is free play, next reached in the turn in which a moment of `x` has brought `y`
to the Main of `q`, where it still is; `mid` are the steps since. -/
def Arrived (tr : List (Entry GameState GameAction GameEvent)) (s : GameState) (q : PlayerId)
    (y : SummonInstance) (x : Entry GameState GameAction GameEvent)
    (mid : List (Entry GameState GameAction GameEvent)) : Prop :=
  (∃ pre m, tr = pre ++ x :: mid ∧ m ∈ moments x ∧ m.Arrives q y.base) ∧ SameTurn mid ∧
    (∀ z ∈ mid, z.input.isSome = true → ¬FreePlay z.before) ∧ FreePlay s ∧
      (s.player q).main = some y

/-- **Arrivals in Main are recorded and trigger.** Over a loaded set, let no step from an arrival on
misrecord one of that player. Where free play is next reached in that turn with the Summon in Main, its
arrival is recorded, and the triggers fired for it are those printed on it, each once. -/
theorem arrivals_trigger {newV5 : Vector UInt8 16 → String → String} {decoded : Dto.Set}
    {loaded : LoadedSet} {scenario : Scenario} {start s u : GameState}
    {tr pre mid : List (Entry GameState GameAction GameEvent)}
    {x : Entry GameState GameAction GameEvent} {q : PlayerId} {y : SummonInstance}
    (hload : load newV5 decoded = .ok loaded)
    (hstart : fromScenario loaded.cards scenario = .ok start) (hr : engine.Run start tr s)
    (hu : Machine.Passes tr s pre u) (harrived : Arrived pre u q y x mid)
    (hclear : ∀ z ∈ x :: mid, misrecords q z = false) :
    y.turn.mainEntry.isSome = true ∧
      entriesFired q (facts mid) = Triggers.matchingAbilities u q .main .entersMain := by
  obtain ⟨⟨front, m, heq, hm, harr⟩, hsame, hnext, hfree, hy⟩ := harrived
  obtain ⟨current, hf, hcourse⟩ := (run_arrivals hstart (authored_of_load hload) hr hu).course front x
    mid m q y.base heq hm harr hclear hsame hnext
  obtain ⟨-, -, -, hwork⟩ := hfree
  have hnothing : Owes q u.work 0 [] := by
    rw [hwork]
    exact owes_nil
  cases hcourse with
  | due _ _ _ howes _ => cases (howes.unique hnothing).1
  | landed _ _ _ _ hend =>
      rw [hwork] at hend
      cases hend
  | running hz _ hentry howes hall _ =>
      obtain rfl := Option.some.inj (hz.symm.trans hy)
      rw [(howes.unique hnothing).2, List.append_nil] at hall
      exact ⟨hentry, hall⟩
  | gone hgone => exact absurd rfl (hgone .main y hy)

instance (m : Moment) (q : PlayerId) (i : CardInstanceId) : Decidable (m.Arrives q i) :=
  decidable_of_iff
    ((∃ slot ∈ BenchSlot.all, ((m.before.player q).bench.get slot).map SummonInstance.base = some i) ∧
      (m.after.player q).mainBase = some i)
    (by simp [Moment.Arrives, PlayerState.mainBase, BenchSlot.mem_all])

/-- A trace with the arrival at its step `k`, checked by evaluation. -/
def arrived (tr : List (Entry GameState GameAction GameEvent)) (s : GameState) (q : PlayerId)
    (i : CardInstanceId) (k : ℕ) : Bool :=
  (tr[k]?).any (fun x => (moments x).any (fun m => decide (m.Arrives q i))) &&
    (facts (tr.drop (k + 1))).all (fun e => !e.isTurnBegan) &&
      (tr.drop (k + 1)).all (fun z => !(z.input.isSome && decide (FreePlay z.before))) &&
        decide (FreePlay s)

theorem arrived_of_check {tr : List (Entry GameState GameAction GameEvent)} {s : GameState}
    {q : PlayerId} {y : SummonInstance} {k : ℕ} (h : arrived tr s q y.base k = true)
    (hy : (s.player q).main = some y) : ∃ x, Arrived tr s q y x (tr.drop (k + 1)) := by
  simp only [arrived, Bool.and_eq_true, decide_eq_true_eq] at h
  obtain ⟨⟨⟨harrives, hturn⟩, hbusy⟩, hfree⟩ := h
  obtain ⟨x, hx, hmoment⟩ := (Option.any_eq_true _ _).mp harrives
  obtain ⟨m, hm, hdecide⟩ := List.any_eq_true.mp hmoment
  refine ⟨x, ⟨tr.take k, m, ?_, hm, of_decide_eq_true hdecide⟩, fun p hp => ?_,
    fun z hz hinput hf => ?_, hfree, hy⟩
  · obtain ⟨hlt, rfl⟩ := List.getElem?_eq_some_iff.mp hx
    rw [← List.drop_eq_getElem_cons hlt, List.take_append_drop]
  · have hnot := List.all_eq_true.mp hturn _ hp
    cases hnot
  · have hnot := List.all_eq_true.mp hbusy z hz
    rw [hinput, decide_eq_true hf] at hnot
    cases hnot

open Specimen in
/-- The promotion a scenario begins with is never recorded. The second destruction of one Main triggers
the Summon promoted by the first once more. A Skill that exchanges twice triggers the Summon it brings
back twice. -/
theorem arrivals_misrecorded :
    (∃ l start tr s y x mid, load newV5 (document [drifter]) = .ok l ∧
      fromScenario l.cards (Fixtures.facing (Fixtures.leaderless (inPlay 1 "drifter"))
        (Fixtures.lone (inPlay 2 "drifter"))) = .ok start ∧ engine.Run start tr s ∧
      Arrived tr s .one y x mid ∧ y.turn.mainEntry = none ∧ entriesFired .one (facts mid) = [] ∧
        (Triggers.matchingAbilities s .one .main .entersMain).length = 1) ∧
    (∃ l start tr s y x mid, load newV5 (document [mauler, drifter]) = .ok l ∧
      fromScenario l.cards (Fixtures.facing (Fixtures.lone (inPlay 1 "mauler"))
        (Fixtures.benching (Fixtures.lone (inPlay 2 "mauler")) .first (inPlay 3 "drifter"))) =
          .ok start ∧ engine.Run start tr s ∧ Arrived tr s .two y x mid ∧
      (entriesFired .two (facts mid)).length = 2 ∧
        (Triggers.matchingAbilities s .two .main .entersMain).length = 1) ∧
    ∃ l start tr s y x mid, load newV5 (document [turncoat]) = .ok l ∧
      fromScenario l.cards (Fixtures.facing
        (Fixtures.benching (Fixtures.lone (inPlay 1 "turncoat")) .first (inPlay 2 "turncoat"))
        (Fixtures.lone (inPlay 3 "turncoat"))) = .ok start ∧ engine.Run start tr s ∧
      Arrived tr s .one y x mid ∧ (entriesFired .one (facts mid)).length = 2 ∧
        (Triggers.matchingAbilities s .one .main .entersMain).length = 1 := by
  refine ⟨?_, ?_, ?_⟩
  · have hdemo : (trace [drifter] (Fixtures.facing (Fixtures.leaderless (inPlay 1 "drifter"))
        (Fixtures.lone (inPlay 2 "drifter"))) [.choosePromotion .one .first]).map
        (fun r => arrived r.2.2.1 r.2.2.2 .one ⟨1⟩ 0 &&
          decide ((r.2.2.2.player .one).main.map (fun y => (y.base, y.turn.mainEntry)) =
              some (⟨1⟩, none) ∧ entriesFired .one (facts (r.2.2.1.drop 1)) = [] ∧
            (Triggers.matchingAbilities r.2.2.2 .one .main .entersMain).length = 1)) = some true := by
      decide +kernel
    obtain ⟨⟨l, start, tr, s⟩, hr, hv⟩ := Option.map_eq_some_iff.mp hdemo
    obtain ⟨harrived, hfacts⟩ := Bool.and_eq_true_iff.mp hv
    obtain ⟨hmain, hfired, hprinted⟩ := of_decide_eq_true hfacts
    obtain ⟨hload, hstart, hrun⟩ := run_of_trace hr
    obtain ⟨y, hy, hmarks⟩ := Option.map_eq_some_iff.mp hmain
    obtain ⟨hbase, hentry⟩ := Prod.mk.inj hmarks
    obtain ⟨x, hx⟩ := arrived_of_check (y := y) (by rw [hbase]; exact harrived) hy
    exact ⟨l, start, tr, s, y, x, _, hload, hstart, hrun, hx, hentry, hfired, hprinted⟩
  · have hdemo : (trace [mauler, drifter] (Fixtures.facing (Fixtures.lone (inPlay 1 "mauler"))
        (Fixtures.benching (Fixtures.lone (inPlay 2 "mauler")) .first (inPlay 3 "drifter")))
        Fixtures.attackPassPass).map
        (fun r => arrived r.2.2.1 r.2.2.2 .two ⟨3⟩ 9 &&
          decide ((r.2.2.2.player .two).main.map SummonInstance.base = some ⟨3⟩ ∧
            (entriesFired .two (facts (r.2.2.1.drop 10))).length = 2 ∧
              (Triggers.matchingAbilities r.2.2.2 .two .main .entersMain).length = 1)) =
          some true := by
      decide +kernel
    obtain ⟨⟨l, start, tr, s⟩, hr, hv⟩ := Option.map_eq_some_iff.mp hdemo
    obtain ⟨harrived, hfacts⟩ := Bool.and_eq_true_iff.mp hv
    obtain ⟨hmain, hfired, hprinted⟩ := of_decide_eq_true hfacts
    obtain ⟨hload, hstart, hrun⟩ := run_of_trace hr
    obtain ⟨y, hy, hbase⟩ := Option.map_eq_some_iff.mp hmain
    obtain ⟨x, hx⟩ := arrived_of_check (y := y) (by rw [hbase]; exact harrived) hy
    exact ⟨l, start, tr, s, y, x, _, hload, hstart, hrun, hx, hfired, hprinted⟩
  · have hdemo : (trace [turncoat] (Fixtures.facing
        (Fixtures.benching (Fixtures.lone (inPlay 1 "turncoat")) .first (inPlay 2 "turncoat"))
        (Fixtures.lone (inPlay 3 "turncoat")))
        [.activateSkill .one .main (skillId "turncoat" "whirl") [.bench .first] none]).map
        (fun r => arrived r.2.2.1 r.2.2.2 .one ⟨1⟩ 0 &&
          decide ((r.2.2.2.player .one).main.map SummonInstance.base = some ⟨1⟩ ∧
            (entriesFired .one (facts (r.2.2.1.drop 1))).length = 2 ∧
              (Triggers.matchingAbilities r.2.2.2 .one .main .entersMain).length = 1)) =
          some true := by
      decide +kernel
    obtain ⟨⟨l, start, tr, s⟩, hr, hv⟩ := Option.map_eq_some_iff.mp hdemo
    obtain ⟨harrived, hfacts⟩ := Bool.and_eq_true_iff.mp hv
    obtain ⟨hmain, hfired, hprinted⟩ := of_decide_eq_true hfacts
    obtain ⟨hload, hstart, hrun⟩ := run_of_trace hr
    obtain ⟨y, hy, hbase⟩ := Option.map_eq_some_iff.mp hmain
    obtain ⟨x, hx⟩ := arrived_of_check (y := y) (by rw [hbase]; exact harrived) hy
    exact ⟨l, start, tr, s, y, x, _, hload, hstart, hrun, hx, hfired, hprinted⟩

open Specimen in
/-- A Retreat to a Summon with a trigger for its arrival. -/
theorem arrivals_trigger_retreat :
    ∃ l start tr s y x mid, load newV5 (document [drifter]) = .ok l ∧
      fromScenario l.cards (Fixtures.facing
        (Fixtures.benching (Fixtures.lone (inPlay 1 "drifter")) .first (inPlay 2 "drifter"))
        (Fixtures.lone (inPlay 3 "drifter"))) = .ok start ∧ engine.Run start tr s ∧
      Arrived tr s .one y x mid ∧ y.turn.mainEntry.isSome = true ∧
        entriesFired .one (facts mid) = Triggers.matchingAbilities s .one .main .entersMain ∧
          (entriesFired .one (facts mid)).length = 1 := by
  have hdemo : (trace [drifter] (Fixtures.facing
      (Fixtures.benching (Fixtures.lone (inPlay 1 "drifter")) .first (inPlay 2 "drifter"))
      (Fixtures.lone (inPlay 3 "drifter"))) [.retreat .one .first none]).map
      (fun r => arrived r.2.2.1 r.2.2.2 .one ⟨2⟩ 0 &&
        decide ((r.2.2.2.player .one).main.map SummonInstance.base = some ⟨2⟩ ∧
          (entriesFired .one (facts (r.2.2.1.drop 1))).length = 1 ∧
            ∀ z ∈ r.2.2.1, misrecords .one z = false)) = some true := by
    decide +kernel
  obtain ⟨⟨l, start, tr, s⟩, hr, hv⟩ := Option.map_eq_some_iff.mp hdemo
  obtain ⟨harrived, hfacts⟩ := Bool.and_eq_true_iff.mp hv
  obtain ⟨hmain, hfired, hclear⟩ := of_decide_eq_true hfacts
  obtain ⟨hload, hstart, hrun⟩ := run_of_trace hr
  obtain ⟨y, hy, hbase⟩ := Option.map_eq_some_iff.mp hmain
  obtain ⟨x, hx⟩ := arrived_of_check (y := y) (by rw [hbase]; exact harrived) hy
  obtain ⟨⟨pre, m, heq, hm, harr⟩, hrest⟩ := id hx
  have hmisrecords : ∀ z ∈ x :: tr.drop (0 + 1), misrecords .one z = false := fun z hz =>
    hclear z (by rw [heq]; exact List.mem_append_right _ hz)
  obtain ⟨hentry, hall⟩ := arrivals_trigger hload hstart hrun (.inl ⟨rfl, rfl⟩) hx hmisrecords
  exact ⟨l, start, tr, s, y, x, _, hload, hstart, hrun, hx, hentry, hall, hfired⟩

end Summoners
