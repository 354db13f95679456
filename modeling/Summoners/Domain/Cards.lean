import Summoners.Domain.Ids

/-! # The card vocabulary and the card container

`domain/cards/mod.rs`, `entity.rs` and `set.rs`. An `Entity` is an identity and an ordered list of
components; abilities are entities nested in a component. Reads are typed by a `ComponentField`,
which is the source's marker type: `get` answers with the first match, `all` with every match in
authored order, `demand` with the first match or a `Breakage`.

`CardSet` keeps the authored list only. The source's `by_id` index is first-wins, so a lookup by
id is the first entity of the list that carries it; `by_accounting` is read by no engine function.
-/

namespace Summoners
set_option autoImplicit false

/-- `EntityId([u8; 16])`. -/
structure EntityId where
  bytes : Vector UInt8 16
  deriving DecidableEq, Repr

/-! ## Vocabulary -/

inductive CardKind
  | summon
  | spell
  | enchantment
  deriving DecidableEq, Repr

inductive Form
  | base
  | enhanced
  | elite
  deriving DecidableEq, Repr

/-- The derived order of the source's `Form`. -/
def Form.rank : Form → ℕ
  | .base => 0
  | .enhanced => 1
  | .elite => 2

inductive SpellTiming
  | support
  | attack
  deriving DecidableEq, Repr

inductive TriggerEvent
  | yourUpkeep
  | entersMain
  | entersBench
  | leavesMain
  | leavesBench
  | anySummonDestroyed
  deriving DecidableEq, Repr

inductive EffectCondition
  | defenderEnteredMainThisTurn
  | spellPlayedThisTurn
  deriving DecidableEq, Repr

/-- The object whose printed ability is resolving an effect. -/
inductive EffectSource
  | attack (controller : PlayerId) (position : Position) (ability : EntityId)
  | spell (controller : PlayerId) (card : CardInstanceId) (definition : EntityId)
  | skill (controller : PlayerId) (position : Position) (ability : EntityId)
  | trigger (controller : PlayerId) (position : Position) (ability : EntityId)
  deriving DecidableEq, Repr

def EffectSource.controller : EffectSource → PlayerId
  | .attack c _ _ | .spell c _ _ | .skill c _ _ | .trigger c _ _ => c

def EffectSource.position : EffectSource → Option Position
  | .attack _ p _ | .skill _ p _ | .trigger _ p _ => some p
  | .spell _ _ _ => none

inductive EffectTarget
  | selected
  | source
  deriving DecidableEq, Repr

inductive DamageConstraint
  | unincreasable
  | unpreventable
  deriving DecidableEq, Repr

/-- `DamageConstraints(u8)`: a bit set. The field is private, and only the two masks are ever set. -/
structure DamageConstraints where
  bits : UInt8
  masked : bits < 4
  deriving DecidableEq, Repr

namespace DamageConstraints

def new : DamageConstraints := ⟨0, by decide⟩

def mask : DamageConstraint → UInt8
  | .unincreasable => 1
  | .unpreventable => 2

theorem masked_or {a b : UInt8} (ha : a < 4) (hb : b < 4) : a ||| b < 4 := by
  rw [UInt8.lt_iff_toNat_lt] at ha hb ⊢
  rw [UInt8.toNat_or]
  exact Nat.or_lt_two_pow (n := 2) ha hb

def insert (c : DamageConstraints) (constraint : DamageConstraint) : DamageConstraints :=
  ⟨c.bits ||| mask constraint, masked_or c.masked (by cases constraint <;> decide)⟩

def contains (c : DamageConstraints) (constraint : DamageConstraint) : Bool :=
  c.bits &&& mask constraint != 0

theorem bits_cases (c : DamageConstraints) :
    c.bits = 0 ∨ c.bits = 1 ∨ c.bits = 2 ∨ c.bits = 3 := by
  have h := c.masked
  rw [UInt8.lt_iff_toNat_lt, show (4 : UInt8).toNat = 4 from rfl] at h
  simp only [← UInt8.toNat_inj]
  show c.bits.toNat = 0 ∨ c.bits.toNat = 1 ∨ c.bits.toNat = 2 ∨ c.bits.toNat = 3
  omega

theorem contains_insert (c : DamageConstraints) (j k : DamageConstraint) :
    (c.insert j).contains k = (c.contains k || decide (j = k)) := by
  unfold contains insert
  obtain h | h | h | h := c.bits_cases <;> simp only [h] <;> cases j <;> cases k <;> rfl

/-- Constraints are determined by what they contain. -/
theorem ext_contains {c c' : DamageConstraints} (h : ∀ k, c.contains k = c'.contains k) :
    c = c' := by
  obtain ⟨bits, hb⟩ := c
  obtain ⟨bits', hb'⟩ := c'
  have hi := h .unincreasable
  have hp := h .unpreventable
  simp only [contains] at hi hp
  congr 1
  obtain h | h | h | h := bits_cases ⟨bits, hb⟩ <;>
    obtain h' | h' | h' | h' := bits_cases ⟨bits', hb'⟩ <;>
      simp only at h h' <;> subst h h' <;>
        first | rfl | exact absurd hi (by decide) | exact absurd hp (by decide)

end DamageConstraints

structure DamageAddition where
  amount : UInt32
  condition : EffectCondition
  deriving DecidableEq, Repr

structure DamageEffect where
  base : UInt32
  constraints : DamageConstraints
  additions : List DamageAddition
  deriving DecidableEq, Repr

inductive ResponseBlock
  | attackSpells
  deriving DecidableEq, Repr

structure Cost where
  matter : UInt32
  mind : UInt32
  spirit : UInt32
  generic : UInt32
  deriving DecidableEq, Repr

/-- `Cost::default()`. -/
def Cost.default : Cost := ⟨0, 0, 0, 0⟩

inductive EffectLeaf
  | dealDamage (effect : DamageEffect)
  | heal (amount : UInt32) (target : EffectTarget)
  | moveSummon
  | swapPositions
  | blockResponses (condition : EffectCondition) (block : ResponseBlock)
  | returnSpellFromDiscard
  | lookAtPrizes
  | drawCards (amount : UInt32)
  | returnSpellToDeckTop
  | produceMana (target : EffectTarget)
  | cannotBeMovedByOpponent (target : EffectTarget)
  | readySummon
  | swapOpposingPositions
  deriving DecidableEq, Repr

inductive Modifier
  | opposingRetreatCostDelta (delta : Int32)
  | incomingAttackDamageReduction (amount : UInt32)
  deriving DecidableEq, Repr

/-! ## Entities -/

mutual

inductive Component
  | name (name : String)
  | accountingId (code : String) (number : UInt32)
  | life (life : UInt32)
  | retreatCost (cost : UInt32)
  | form (form : Form)
  | produces (types : List ManaType)
  | tags (tags : List String)
  | cost (cost : Cost)
  | skill (ability : Entity)
  | attack (ability : Entity)
  | trigger (ability : Entity)
  | effect (leaf : EffectLeaf)
  | passive (modifier : Modifier)
  | timing (timing : SpellTiming)
  | event (event : TriggerEvent)
  | respondable
  | persistent

inductive Entity
  | mk (id : EntityId) (components : List Component)

end

instance : Inhabited Entity := ⟨.mk ⟨Vector.replicate 16 0⟩ []⟩

def Entity.id : Entity → EntityId
  | .mk id _ => id

def Entity.components : Entity → List Component
  | .mk _ components => components

inductive ComponentKind
  | name
  | accountingId
  | life
  | retreatCost
  | form
  | produces
  | tags
  | cost
  | skill
  | attack
  | trigger
  | effect
  | passive
  | timing
  | event
  | respondable
  | persistent
  deriving DecidableEq, Repr

/-- What a demanded component's absence means for the game. -/
structure Breakage where
  rule : String
  entity : EntityId
  expected : ComponentKind
  deriving DecidableEq, Repr

/-- The source's `ComponentField` trait: one value for each marker type. -/
structure ComponentField (α : Type) where
  componentKind : ComponentKind
  extract : Component → Option α

namespace ComponentField

def name : ComponentField String where
  componentKind := .name
  extract | .name name => some name | _ => none

def accountingId : ComponentField (String × UInt32) where
  componentKind := .accountingId
  extract | .accountingId code number => some (code, number) | _ => none

def life : ComponentField UInt32 where
  componentKind := .life
  extract | .life n => some n | _ => none

def retreatCost : ComponentField UInt32 where
  componentKind := .retreatCost
  extract | .retreatCost n => some n | _ => none

def form : ComponentField Form where
  componentKind := .form
  extract | .form f => some f | _ => none

def manaTypes : ComponentField (List ManaType) where
  componentKind := .produces
  extract | .produces types => some types | _ => none

def tags : ComponentField (List String) where
  componentKind := .tags
  extract | .tags tags => some tags | _ => none

def cost : ComponentField Cost where
  componentKind := .cost
  extract | .cost c => some c | _ => none

def skill : ComponentField Entity where
  componentKind := .skill
  extract | .skill e => some e | _ => none

def attack : ComponentField Entity where
  componentKind := .attack
  extract | .attack e => some e | _ => none

def trigger : ComponentField Entity where
  componentKind := .trigger
  extract | .trigger e => some e | _ => none

def effectLeaf : ComponentField EffectLeaf where
  componentKind := .effect
  extract | .effect leaf => some leaf | _ => none

def modifier : ComponentField Modifier where
  componentKind := .passive
  extract | .passive m => some m | _ => none

def spellTiming : ComponentField SpellTiming where
  componentKind := .timing
  extract | .timing t => some t | _ => none

def triggerEvent : ComponentField TriggerEvent where
  componentKind := .event
  extract | .event e => some e | _ => none

def respondable : ComponentField Unit where
  componentKind := .respondable
  extract | .respondable => some () | _ => none

def persistent : ComponentField Unit where
  componentKind := .persistent
  extract | .persistent => some () | _ => none

end ComponentField

namespace Entity
variable {α : Type}

def get (e : Entity) (field : ComponentField α) : Option α :=
  e.components.findSome? field.extract

def all (e : Entity) (field : ComponentField α) : List α :=
  e.components.filterMap field.extract

def demand (e : Entity) (field : ComponentField α) (rule : String) : Except Breakage α :=
  match e.get field with
  | some value => .ok value
  | none => .error ⟨rule, e.id, field.componentKind⟩

end Entity

/-- The card family an entity prints, read off its first `Tags` component. -/
def family (e : Entity) : CardKind :=
  match e.get .tags with
  | some tags =>
      if "spell" ∈ tags then .spell
      else if "enchantment" ∈ tags then .enchantment
      else .summon
  | none => .summon

/-! ## Card sets -/

structure CardSet where
  entities : List Entity

/-- The first top-level entity that carries this id. -/
def CardSet.get (cards : CardSet) (id : EntityId) : Option Entity :=
  cards.entities.find? (fun e => e.id = id)

theorem CardSet.get_mem {cards : CardSet} {id : EntityId} {e : Entity}
    (h : cards.get id = some e) : e ∈ cards.entities :=
  List.mem_of_find?_eq_some h

end Summoners
