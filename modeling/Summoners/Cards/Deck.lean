import Summoners.Cards.Library
import Summoners.Domain.Words

/-! # Deck documents

`deck.rs`, from a decoded document on: `resolve` checks a recipe against a library and expands it.
The maps `requirements`, `paths` and `copies` are lists of entries, latest first.
-/

namespace Summoners
set_option autoImplicit false

open Checked

/-! ## Errors -/

inductive DeckStableKeyKind
  | deck
  | set
  | card
  | qualifiedCard
  deriving DecidableEq

inductive DeckLoadCause
  | unsupportedSchemaVersion (found : ℤ)
  | invalidStableKey (kind : DeckStableKeyKind) (value : String)
  | nameMustNotBeEmpty
  | duplicateSetRequirement (set firstPath : String)
  | requiredSetUnavailable (set : String)
  | setRevisionMismatch (set : String) (required available : UInt32)
  | missingSetRequirement (set : String)
  | unresolvedCard (key : String)
  | starterMustBeBase (key : String)
  | starterInBody (key : String)
  | quantityMustBePositive
  | copyLimitExceeded (key : String) (copies limit : UInt32)
  | bodyCardCount (expected found : UInt32)
  deriving DecidableEq

structure DeckLoadError where
  document : DocumentKind
  phase : LoadPhase
  schemaVersion : Option ℤ
  path : String
  cause : DeckLoadCause
  deriving DecidableEq

def DeckLoadError.new (phase : LoadPhase) (schemaVersion : Option ℤ) (path : String)
    (cause : DeckLoadCause) : DeckLoadError :=
  ⟨.deck, phase, schemaVersion, path, cause⟩

/-! ## Documents -/

namespace Dto

structure SetRequirement where
  set : String
  revision : UInt32

structure CardQuantity where
  card : String
  quantity : UInt32

structure Deck where
  schemaVersion : UInt32
  id : String
  name : String
  starter : String
  requires : List SetRequirement
  cards : List CardQuantity

end Dto

/-- A resolved recipe, the Starter outside the expanded body. -/
structure Deck where
  id : String
  name : String
  starter : EntityId
  body : List EntityId
  deriving DecidableEq

structure QualifiedCard where
  key : String
  set : String

namespace Deck

def schemaVersion : ℤ := 1

def bodySize : UInt32 := 20

def copyLimit : UInt32 := 2

def semanticError (path : String) (cause : DeckLoadCause) : DeckLoadError :=
  .new .semantics (some schemaVersion) path cause

/-! ## Keys -/

/-- The same text as `stable_key_syntax` of `v1/model.rs`. -/
def stableKeySyntax (value : String) : Bool := Model.stableKeySyntax value

def requireStableKey (value : String) (kind : DeckStableKeyKind) (path : String) :
    Except DeckLoadError Unit :=
  if stableKeySyntax value then .ok ()
  else .error (semanticError path (.invalidStableKey kind value))

def invalidQualified (value path : String) : DeckLoadError :=
  semanticError path (.invalidStableKey .qualifiedCard value)

def parseQualified (value path : String) : Except DeckLoadError QualifiedCard :=
  match (value.toList.splitOn '/').map String.ofList with
  | [set, card] =>
      if !stableKeySyntax set || !stableKeySyntax card then .error (invalidQualified value path)
      else .ok ⟨value, set⟩
  | _ => .error (invalidQualified value path)

def requireBound (card : QualifiedCard) (requirements : List (String × UInt32)) (path : String) :
    Except DeckLoadError Unit :=
  if requirements.any (fun r => r.1 = card.set) then .ok ()
  else .error (semanticError path (.missingSetRequirement card.set))

def resolveCard (library : CardLibrary) (card : QualifiedCard) (path : String) :
    Except DeckLoadError EntityId :=
  match library.cardId card.key with
  | some id => .ok id
  | none => .error (semanticError path (.unresolvedCard card.key))

def requireBaseStarter (library : CardLibrary) (id : EntityId) (key : String) :
    Except DeckLoadError Unit :=
  if (library.coreCards.get id).bind (fun entity => entity.get .form) = some .base then .ok ()
  else .error (semanticError "starter" (.starterMustBeBase key))

/-! ## Requirements -/

/-- One pass of the loop of `resolve_requirements`; the state is `requirements` and `paths`. -/
def resolveRequirement (library : CardLibrary) (index : ℕ)
    (state : List (String × UInt32) × List (String × String)) (requirement : Dto.SetRequirement) :
    Except DeckLoadError (List (String × UInt32) × List (String × String)) := do
  let path := s!"requires[{index}]"
  requireStableKey requirement.set .set s!"{path}.set"
  match Model.seenAt state.2 requirement.set with
  | some firstPath =>
      .error (semanticError s!"{path}.set" (.duplicateSetRequirement requirement.set firstPath))
  | none =>
      match library.setRevision requirement.set with
      | none => .error (semanticError s!"{path}.set" (.requiredSetUnavailable requirement.set))
      | some available =>
          if available ≠ requirement.revision then
            .error (semanticError s!"{path}.revision"
              (.setRevisionMismatch requirement.set requirement.revision available))
          else
            .ok ((requirement.set, requirement.revision) :: state.1,
              (requirement.set, path) :: state.2)

def resolveRequirements (raw : List Dto.SetRequirement) (library : CardLibrary) :
    Except DeckLoadError (List (String × UInt32)) := do
  let (requirements, _) ← enumerated (resolveRequirement library) 0 ([], []) raw
  pure requirements

/-! ## The body -/

/-- `copies.entry(key).or_default()`. -/
def copiesOf (copies : List (String × UInt32)) (key : String) : UInt32 :=
  ((copies.find? (fun r => r.1 = key)).map Prod.snd).getD 0

/-- One pass of the loop of `resolve_body`; the state is `body` and `copies`. -/
def resolveItem (library : CardLibrary) (requirements : List (String × UInt32)) (starter : String)
    (index : ℕ) (state : List EntityId × List (String × UInt32)) (item : Dto.CardQuantity) :
    Except DeckLoadError (List EntityId × List (String × UInt32)) := do
  let path := s!"cards[{index}]"
  let card ← parseQualified item.card s!"{path}.card"
  requireBound card requirements s!"{path}.card"
  if item.quantity = 0 then .error (semanticError s!"{path}.quantity" .quantityMustBePositive)
  else if card.key = starter then
    .error (semanticError s!"{path}.card" (.starterInBody card.key))
  else do
    let id ← resolveCard library card s!"{path}.card"
    let count := saturatingAdd (copiesOf state.2 card.key) item.quantity
    if count > copyLimit then
      .error (semanticError s!"{path}.quantity" (.copyLimitExceeded card.key count copyLimit))
    else
      pure (state.1 ++ List.replicate item.quantity.toNat id, (card.key, count) :: state.2)

def resolveBody (raw : List Dto.CardQuantity) (library : CardLibrary)
    (requirements : List (String × UInt32)) (starter : String) :
    Except DeckLoadError (List EntityId) := do
  let (body, _) ← enumerated (resolveItem library requirements starter) 0 ([], []) raw
  if body.length ≠ bodySize.toNat then
    -- `u32::try_from(body.len()).unwrap_or(u32::MAX)`
    .error (semanticError "cards" (.bodyCardCount bodySize (UInt32.ofNat (min u32Max body.length))))
  else pure body

/-! ## Resolution -/

def resolve (raw : Dto.Deck) (library : CardLibrary) : Except DeckLoadError Deck := do
  if (raw.schemaVersion.toNat : ℤ) ≠ schemaVersion then
    .error (.new .version (some raw.schemaVersion.toNat) "schema_version"
      (.unsupportedSchemaVersion raw.schemaVersion.toNat))
  else do
    requireStableKey raw.id .deck "id"
    if Model.isBlank raw.name then .error (semanticError "name" .nameMustNotBeEmpty)
    else do
      let requirements ← resolveRequirements raw.requires library
      let starterRef ← parseQualified raw.starter "starter"
      requireBound starterRef requirements "starter"
      let starterId ← resolveCard library starterRef "starter"
      requireBaseStarter library starterId starterRef.key
      let body ← resolveBody raw.cards library requirements starterRef.key
      pure ⟨raw.id, raw.name, starterId, body⟩

end Deck

end Summoners
