import Mathlib.Data.List.Sort
import Summoners.Cards.Convert

/-! # The card library

`library.rs`: loaded Sets become one card pool and one index of qualified keys. A map keeps its
entries latest first, so that a lookup finds what was inserted last; where the source walks a
`BTreeMap`, the entries are put in the order of their keys first.
-/

namespace Summoners
set_option autoImplicit false

inductive LibraryError
  | duplicateQualifiedKey (key firstSet duplicateSet : String)
  | duplicateId (id : EntityId) (firstKey duplicateKey : String)
  deriving DecidableEq

structure CardLibrary where
  sets : List (String × UInt32)
  cards : List (String × EntityId)
  coreCards : CardSet

namespace CardLibrary

section
variable {α : Type}

/-- The entries of a `BTreeMap` under text keys, in the order a walk meets them. -/
def inKeyOrder (entries : List (String × α)) : List (String × α) :=
  entries.insertionSort (fun a b => a.1 ≤ b.1)

/-- The same under pairs of text. -/
def inPairOrder (entries : List ((String × String) × α)) : List ((String × String) × α) :=
  entries.insertionSort (fun a b => a.1.1 < b.1.1 ∨ a.1.1 = b.1.1 ∧ a.1.2 ≤ b.1.2)

theorem inKeyOrder_perm (entries : List (String × α)) : (inKeyOrder entries).Perm entries := by
  unfold inKeyOrder
  exact List.perm_insertionSort _ entries

theorem inPairOrder_perm (entries : List ((String × String) × α)) :
    (inPairOrder entries).Perm entries := by
  unfold inPairOrder
  exact List.perm_insertionSort _ entries

end

/-! ## Qualified keys -/

/-- One pass of the inner loop of `qualified_cards`; the state is `owners` and `cards`. -/
def qualifyCard (set : LoadedSet) (state : List (String × String) × List (String × EntityId))
    (entry : String × EntityId) :
    Except LibraryError (List (String × String) × List (String × EntityId)) :=
  let key := s!"{set.code}/{entry.1}"
  match state.1.find? (fun r => r.1 = key) with
  | some first => .error (.duplicateQualifiedKey key first.2 set.code)
  | none => .ok ((key, set.code) :: state.1, (key, entry.2) :: state.2)

def qualifiedCards (sets : List LoadedSet) : Except LibraryError (List (String × EntityId)) := do
  let (_, cards) ← sets.foldlM
    (fun state set => (inKeyOrder set.cardIds).foldlM (qualifyCard set) state) ([], [])
  pure cards

/-! ## Distinct ids -/

def insertUniqueId (ids : List (EntityId × String)) (id : EntityId) (key : String) :
    Except LibraryError (List (EntityId × String)) :=
  match ids.find? (fun r => r.1 = id) with
  | some first => .error (.duplicateId id first.2 key)
  | none => .ok ((id, key) :: ids)

/-- One pass of the outer loop of `reject_duplicate_ids`. -/
def insertSetIds (ids : List (EntityId × String)) (set : LoadedSet) :
    Except LibraryError (List (EntityId × String)) := do
  let ids ← insertUniqueId ids set.id s!"set:{set.code}"
  let ids ← (inKeyOrder set.cardIds).foldlM
    (fun ids entry => insertUniqueId ids entry.2 s!"{set.code}/{entry.1}") ids
  (inPairOrder set.abilityIds).foldlM
    (fun ids entry => insertUniqueId ids entry.2 s!"{set.code}/{entry.1.1}#{entry.1.2}") ids

def rejectDuplicateIds (sets : List LoadedSet) : Except LibraryError Unit := do
  let _ ← sets.foldlM insertSetIds []
  pure ()

/-! ## The library -/

def fromSets (sets : List LoadedSet) : Except LibraryError CardLibrary := do
  let cards ← qualifiedCards sets
  rejectDuplicateIds sets
  pure
    { sets := (sets.map (fun set => (set.code, set.revision))).reverse
      cards := cards
      coreCards := ⟨sets.flatMap (fun set => set.cards.entities)⟩ }

def setRevision (library : CardLibrary) (set : String) : Option UInt32 :=
  (library.sets.find? (fun r => r.1 = set)).map Prod.snd

def cardId (library : CardLibrary) (qualifiedKey : String) : Option EntityId :=
  (library.cards.find? (fun r => r.1 = qualifiedKey)).map Prod.snd

end CardLibrary

end Summoners
