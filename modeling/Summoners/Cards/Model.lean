import Summoners.Cards.Document

/-! # The parsed model of a Set

`v1/model.rs`: the checks on single fields and the model they parse into. Paths of errors are those
of the document. A `HashMap` from seen keys to paths is a list of pairs, latest first.
-/

namespace Summoners
set_option autoImplicit false

namespace Model

/-! ## Errors -/

def semanticError (path : String) (cause : SetLoadCause) : SetLoadError :=
  .new .semantics (some 1) path cause

def ruleError (path : String) (rule : SemanticRule) : SetLoadError :=
  semanticError path (.invalidSemantics rule)

def requirePositive (value : UInt32) (path : String) (rule : SemanticRule) :
    Except SetLoadError Unit :=
  if value = 0 then .error (ruleError path rule) else .ok ()

/-- `char::is_whitespace`: the code points of Unicode's `White_Space`. -/
def isWhitespace (c : Char) : Bool :=
  let n := c.toNat
  (9 ≤ n && n ≤ 13) || n = 32 || n = 133 || n = 160 || n = 5760 || (8192 ≤ n && n ≤ 8202) ||
    n = 8232 || n = 8233 || n = 8239 || n = 8287 || n = 12288

/-- `value.trim()` is empty. -/
def isBlank (value : String) : Bool := value.toList.all isWhitespace

def requireName (value path : String) : Except SetLoadError Unit :=
  if isBlank value then .error (ruleError path .nameMustNotBeEmpty) else .ok ()

section
variable {α : Type}

def required (value : Option α) (path field : String) : Except SetLoadError α :=
  match value with
  | some value => .ok value
  | none => .error (semanticError s!"{path}.{field}" (.missingRequiredField field))

def forbidOption (value : Option α) (path field : String) : Except SetLoadError Unit :=
  if value.isSome then .error (semanticError s!"{path}.{field}" (.forbiddenField field)) else .ok ()

def forbidList (value : List α) (path field : String) : Except SetLoadError Unit :=
  if value.isEmpty then .ok () else .error (semanticError s!"{path}.{field}" (.forbiddenField field))

end

/-- The path a key has been seen at. -/
def seenAt (seen : List (String × String)) (key : String) : Option String :=
  (seen.find? (fun r => r.1 = key)).map Prod.snd

def rejectDuplicate (seen : List (String × String)) (value path : String) (kind : StableKeyKind) :
    Except SetLoadError (List (String × String)) :=
  match seenAt seen value with
  | some firstPath => .error (semanticError path (.duplicateStableKey kind value firstPath))
  | none => .ok ((value, path) :: seen)

def forbidSummonFields (card : Dto.Card) (path : String) : Except SetLoadError Unit := do
  forbidOption card.form path "form"
  forbidOption card.life path "life"
  forbidOption card.types path "types"
  forbidOption card.retreat path "retreat"

/-! ## Stable codes -/

def isAsciiLowercase (byte : UInt8) : Bool := 97 ≤ byte && byte ≤ 122

def isAsciiDigit (byte : UInt8) : Bool := 48 ≤ byte && byte ≤ 57

/-- `bytes.windows(2).any(|pair| pair == b"--")`. -/
def hasDoubleHyphen : List UInt8 → Bool
  | first :: second :: rest =>
      (first = 45 && second = 45) || hasDoubleHyphen (second :: rest)
  | _ => false

def stableKeySyntax (value : String) : Bool :=
  let bytes := value.toUTF8.data.toList
  1 ≤ bytes.length && bytes.length ≤ 64 && bytes.head?.any isAsciiLowercase &&
    bytes.all (fun byte => isAsciiLowercase byte || isAsciiDigit byte || byte = 45) &&
    bytes.getLast? ≠ some 45 && !hasDoubleHyphen bytes

/-- A code of stable syntax; no other can be built. -/
structure StableCode where
  asStr : String
  syntax_ok : stableKeySyntax asStr = true

def StableCode.parse (value : String) (kind : StableKeyKind) (path : String) :
    Except SetLoadError StableCode :=
  if h : stableKeySyntax value = true then .ok ⟨value, h⟩
  else .error (semanticError path (.invalidStableKey kind value))

/-! ## The parsed model -/

inductive DamageTarget
  | defendingMain
  | selectedOpposingPosition
  deriving DecidableEq

inductive OwnTarget
  | source
  | selected
  deriving DecidableEq

inductive SwapSide
  | own
  | opposing
  deriving DecidableEq

structure DamageAddition where
  amount : UInt32
  condition : Dto.Condition

inductive Effect
  | damage (target : DamageTarget) (base : UInt32) (constraints : List Dto.DamageConstraint)
      (additions : List DamageAddition)
  | heal (target : OwnTarget) (amount : UInt32)
  | moveOwnBenchedToEmptyBench
  | swapPositions (side : SwapSide)
  | blockAttackSpells (condition : Dto.Condition)
  | returnSpellFromDiscard
  | lookAtPrizes
  | drawCards (amount : UInt32)
  | returnSpellToDeckTop
  | produceMana (target : OwnTarget)
  | protectFromOpposingMovement (target : OwnTarget)
  | readyOwnSummon

inductive AbilityRole
  | attack
  | skill
  | passive
  | trigger
  deriving DecidableEq

def AbilityRole.identityName : AbilityRole → String
  | .attack => "attack"
  | .skill => "skill"
  | .passive => "passive"
  | .trigger => "trigger"

inductive AbilityKind
  | attack (cost : List Dto.ManaSymbol) (effects : List Effect)
  | skill (cost : List Dto.ManaSymbol) (effects : List Effect)
  | passive (modifier : Dto.Modifier)
  | trigger (event : Dto.TriggerEvent) (response : Dto.ResponseMode) (effects : List Effect)

structure Ability where
  code : StableCode
  name : String
  text : String
  kind : AbilityKind

def Ability.role (ability : Ability) : AbilityRole :=
  match ability.kind with
  | .attack _ _ => .attack
  | .skill _ _ => .skill
  | .passive _ => .passive
  | .trigger _ _ _ => .trigger

inductive CardKind
  | summon (form : Dto.Form) (life : UInt32) (types : List Dto.ManaType) (retreat : UInt32)
      (abilities : List Ability)
  | spell (timing : Dto.SpellTiming) (cost : List Dto.ManaSymbol) (effects : List Effect)
  | enchantment (cost : List Dto.ManaSymbol) (effects : List Effect)
      (modifiers : List Dto.Modifier)

structure Card where
  code : StableCode
  name : String
  text : String
  kind : CardKind

structure Set where
  code : StableCode
  revision : UInt32
  name : String
  cards : List Card

/-- Where an effect stands. -/
inductive EffectContext
  | attack
  | skill
  | trigger
  | attackSpell
  | supportSpell
  | enchantment
  deriving DecidableEq

end Model

end Summoners
