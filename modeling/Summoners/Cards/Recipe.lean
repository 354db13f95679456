import Mathlib.Algebra.Ring.Nat
import Mathlib.Data.List.Count
import Summoners.Cards.Deck
import Summoners.Cards.Loaded
import Summoners.Cards.Minted
import Summoners.Cards.Specimen

/-! # Legal recipes

What a Deck document has to be, stated without an order of checks, and that `resolve` accepts
exactly that: what it expands on success, and that every error it reports is one the document has.
-/

namespace Summoners
set_option autoImplicit false

open Checked

namespace Deck

/-! ## What is legal -/

/-- The text of a key of a card in a Set the document requires. -/
def BoundKey (raw : Dto.Deck) (key : String) : Prop :=
  ∃ set card, stableKeySyntax set = true ∧ stableKeySyntax card = true ∧ key = s!"{set}/{card}" ∧
    set ∈ raw.requires.map Dto.SetRequirement.set

/-- The copies of a key the entries ask for together. -/
def quantityOf (items : List Dto.CardQuantity) (key : String) : ℕ :=
  ((items.filter (fun item => item.card = key)).map (fun item => item.quantity.toNat)).sum

def totalQuantity (items : List Dto.CardQuantity) : ℕ :=
  (items.map (fun item => item.quantity.toNat)).sum

structure LegalRecipe (library : CardLibrary) (raw : Dto.Deck) : Prop where
  version : raw.schemaVersion = 1
  id : stableKeySyntax raw.id = true
  name : Model.isBlank raw.name = false
  setsStable : ∀ r ∈ raw.requires, stableKeySyntax r.set = true
  setsDistinct : (raw.requires.map Dto.SetRequirement.set).Nodup
  setsLoaded : ∀ r ∈ raw.requires, library.setRevision r.set = some r.revision
  starter : BoundKey raw raw.starter
  starterBase : ∃ id e, library.cardId raw.starter = some id ∧ library.coreCards.get id = some e ∧
    e.get .form = some .base
  bound : ∀ item ∈ raw.cards, BoundKey raw item.card
  known : ∀ item ∈ raw.cards, library.cardId item.card ≠ none
  apart : ∀ item ∈ raw.cards, item.card ≠ raw.starter
  positive : ∀ item ∈ raw.cards, 0 < item.quantity.toNat
  copies : ∀ key, quantityOf raw.cards key ≤ 2
  size : totalQuantity raw.cards = 20

/-! ## What an error says -/

/-- What is wrong with a key that resolves to no card of a required Set. -/
inductive KeyFault (library : CardLibrary) (raw : Dto.Deck) (key : String) : DeckLoadCause → Prop
  | malformed (h : ∀ set card, stableKeySyntax set = true → stableKeySyntax card = true →
      key ≠ s!"{set}/{card}") : KeyFault library raw key (.invalidStableKey .qualifiedCard key)
  | unbound {set card : String} (hkey : key = s!"{set}/{card}")
      (h : set ∉ raw.requires.map Dto.SetRequirement.set) :
      KeyFault library raw key (.missingSetRequirement set)
  | unresolved (h : library.cardId key = none) : KeyFault library raw key (.unresolvedCard key)

/-- What is wrong with an entry of `requires` at a path, after those before it. -/
inductive RequirementFault (library : CardLibrary) (path : String)
    (before : List Dto.SetRequirement) (r : Dto.SetRequirement) : DeckLoadError → Prop
  | stable (h : stableKeySyntax r.set = false) :
      RequirementFault library path before r
        (semanticError s!"{path}.set" (.invalidStableKey .set r.set))
  | repeated {front back : List Dto.SetRequirement} {first : Dto.SetRequirement}
      (hbefore : before = front ++ first :: back) (h : first.set = r.set) :
      RequirementFault library path before r
        (semanticError s!"{path}.set"
          (.duplicateSetRequirement r.set s!"requires[{front.length}]"))
  | unavailable (h : library.setRevision r.set = none) :
      RequirementFault library path before r
        (semanticError s!"{path}.set" (.requiredSetUnavailable r.set))
  | revision {available : UInt32} (h : library.setRevision r.set = some available)
      (hne : available ≠ r.revision) :
      RequirementFault library path before r
        (semanticError s!"{path}.revision"
          (.setRevisionMismatch r.set r.revision available))

/-- What is wrong with an entry of `cards` at a path, after those before it. -/
inductive ItemFault (library : CardLibrary) (raw : Dto.Deck) (path : String)
    (before : List Dto.CardQuantity) (item : Dto.CardQuantity) : DeckLoadError → Prop
  | key {cause : DeckLoadCause} (h : KeyFault library raw item.card cause) :
      ItemFault library raw path before item (semanticError s!"{path}.card" cause)
  | quantity (h : item.quantity = 0) :
      ItemFault library raw path before item
        (semanticError s!"{path}.quantity" .quantityMustBePositive)
  | starter (h : item.card = raw.starter) :
      ItemFault library raw path before item
        (semanticError s!"{path}.card" (.starterInBody item.card))
  | copies {copies : UInt32}
      (hcopies : copies.toNat = min u32Max (quantityOf (before ++ [item]) item.card))
      (h : 2 < quantityOf (before ++ [item]) item.card) :
      ItemFault library raw path before item
        (semanticError s!"{path}.quantity" (.copyLimitExceeded item.card copies 2))

/-- That the document has the fault an error names, at the path it names. -/
inductive Faulty (library : CardLibrary) (raw : Dto.Deck) : DeckLoadError → Prop
  | version (h : raw.schemaVersion ≠ 1) :
      Faulty library raw (.new .version (some raw.schemaVersion.toNat) "schema_version"
        (.unsupportedSchemaVersion raw.schemaVersion.toNat))
  | id (h : stableKeySyntax raw.id = false) :
      Faulty library raw (semanticError "id" (.invalidStableKey .deck raw.id))
  | name (h : Model.isBlank raw.name = true) :
      Faulty library raw (semanticError "name" .nameMustNotBeEmpty)
  | requirement {before after : List Dto.SetRequirement} {r : Dto.SetRequirement}
      {e : DeckLoadError} (hr : raw.requires = before ++ r :: after)
      (h : RequirementFault library s!"requires[{before.length}]" before r e) : Faulty library raw e
  | starter {cause : DeckLoadCause} (h : KeyFault library raw raw.starter cause) :
      Faulty library raw (semanticError "starter" cause)
  | form (h : ∀ id e, library.cardId raw.starter = some id → library.coreCards.get id = some e →
      e.get .form ≠ some .base) :
      Faulty library raw (semanticError "starter" (.starterMustBeBase raw.starter))
  | item {before after : List Dto.CardQuantity} {item : Dto.CardQuantity} {e : DeckLoadError}
      (hitem : raw.cards = before ++ item :: after) (h : ItemFault library raw s!"cards[{before.length}]" before item e) :
      Faulty library raw e
  | size {found : UInt32} (hfound : found.toNat = min u32Max (totalQuantity raw.cards))
      (h : totalQuantity raw.cards ≠ 20) :
      Faulty library raw (semanticError "cards" (.bodyCardCount 20 found))

/-! ## Keys -/

theorem splitOn_key {set card : String} (hset : stableKeySyntax set = true)
    (hcard : stableKeySyntax card = true) :
    (s!"{set}/{card}".toList.splitOn '/').map String.ofList = [set, card] := by
  have htext : s!"{set}/{card}".toList = set.toList ++ '/' :: card.toList := by
    simp [ToString.toString]
  rw [htext, List.splitOn_append_cons_of_beq _ _ (by simp),
    List.splitOn_eq_singleton (Model.slash_notMem hset), List.splitOn_eq_singleton (Model.slash_notMem hcard)]
  simp

/-- What splits into two parts is these with a slash between. -/
theorem key_of_splitOn {value set card : String}
    (h : (value.toList.splitOn '/').map String.ofList = [set, card]) :
    value = s!"{set}/{card}" := by
  have hsplit : value.toList.splitOn '/' = [set.toList, card.toList] := by
    have hmap := congrArg (List.map String.toList) h
    simpa [Function.comp_def] using hmap
  have hjoin : ['/'].intercalate (value.toList.splitOn '/') = value.toList :=
    List.intercalate_splitOn _
  rw [hsplit] at hjoin
  apply String.toList_inj.mp
  rw [← hjoin]
  simp [ToString.toString, List.intercalate]

section
variable {raw : Dto.Deck} {requirements : List (String × UInt32)}

theorem parseQualified_spec (value path : String) :
    match parseQualified value path with
    | .ok q => q.key = value ∧ ∃ card, stableKeySyntax q.set = true ∧
        stableKeySyntax card = true ∧ value = s!"{q.set}/{card}"
    | .error e => e = semanticError path (.invalidStableKey .qualifiedCard value) ∧
        ∀ set card, stableKeySyntax set = true → stableKeySyntax card = true →
          value ≠ s!"{set}/{card}" := by
  unfold parseQualified
  split
  · rename_i r q hq
    split at hq
    · rename_i set card hsplit
      split_ifs at hq with hstable
      cases hq
      simp only [Bool.or_eq_true, Bool.not_eq_true', not_or, Bool.not_eq_false] at hstable
      exact ⟨rfl, card, hstable.1, hstable.2, key_of_splitOn hsplit⟩
    · cases hq
  · rename_i r e he
    split at he
    · rename_i set card hsplit
      split_ifs at he with hstable
      cases he
      refine ⟨rfl, fun set' card' hset hcard heq => ?_⟩
      rw [heq, splitOn_key hset hcard] at hsplit
      cases hsplit
      simp [hset, hcard] at hstable
    · rename_i hparts
      cases he
      refine ⟨rfl, fun set card hset hcard heq => ?_⟩
      exact hparts set card (heq ▸ splitOn_key hset hcard)

/-- The map of requirements holds the Sets the document requires. -/
def Records (requirements : List (String × UInt32)) (raw : Dto.Deck) : Prop :=
  ∀ set, set ∈ requirements.map Prod.fst ↔ set ∈ raw.requires.map Dto.SetRequirement.set

theorem requireBound_spec (hrecords : Records requirements raw) (q : QualifiedCard)
    (path : String) :
    match requireBound q requirements path with
    | .ok () => q.set ∈ raw.requires.map Dto.SetRequirement.set
    | .error e => e = semanticError path (.missingSetRequirement q.set) ∧
        q.set ∉ raw.requires.map Dto.SetRequirement.set := by
  have hany : requirements.any (fun r => r.1 = q.set) = true ↔
      q.set ∈ raw.requires.map Dto.SetRequirement.set := by
    rw [← hrecords q.set, List.mem_map]
    simp
  unfold requireBound
  split_ifs with hin
  · exact hany.mp hin
  · exact ⟨rfl, fun hmem => hin (hany.mpr hmem)⟩

/-- A key is bound exactly if the Set in front of its slash is required. -/
theorem boundKey_iff {set card : String} (hset : stableKeySyntax set = true)
    (hcard : stableKeySyntax card = true) :
    BoundKey raw s!"{set}/{card}" ↔ set ∈ raw.requires.map Dto.SetRequirement.set := by
  constructor
  · rintro ⟨set', card', hset', hcard', heq, hmem⟩
    have hparts := splitOn_key hset hcard
    rw [heq, splitOn_key hset' hcard'] at hparts
    cases hparts
    exact hmem
  · intro hmem
    exact ⟨set, card, hset, hcard, rfl, hmem⟩

/-- The first two checks on a key, together. -/
theorem boundRef_spec (library : CardLibrary) (hrecords : Records requirements raw)
    (value path : String) :
    match (do
      let q ← parseQualified value path
      requireBound q requirements path
      pure q : Except DeckLoadError QualifiedCard) with
    | .ok q => q.key = value ∧ BoundKey raw value
    | .error e => ¬BoundKey raw value ∧
        ∃ cause, e = semanticError path cause ∧ KeyFault library raw value cause := by
  have hparse := parseQualified_spec value path
  cases hq : parseQualified value path with
  | error e =>
      rw [hq] at hparse
      obtain ⟨rfl, hnot⟩ := hparse
      refine ⟨?_, _, rfl, .malformed hnot⟩
      rintro ⟨set, card, hset, hcard, heq, -⟩
      exact hnot set card hset hcard heq
  | ok q =>
      rw [hq] at hparse
      obtain ⟨hkey, card, hset, hcard, hvalue⟩ := hparse
      have hbound := requireBound_spec hrecords q path
      rw [ok_bind]
      cases hb : requireBound q requirements path with
      | error e =>
          rw [hb] at hbound
          obtain ⟨rfl, hnot⟩ := hbound
          refine ⟨?_, _, rfl, .unbound hvalue hnot⟩
          rw [hvalue, boundKey_iff hset hcard]
          exact hnot
      | ok u =>
          rw [hb] at hbound
          refine ⟨hkey, ?_⟩
          rw [hvalue, boundKey_iff hset hcard]
          exact hbound

end

/-! ## The requirements -/

/-- The maps after some requirements: each Set once, under the path it was read at. -/
structure Required (state : List (String × UInt32) × List (String × String))
    (before : List Dto.SetRequirement) : Prop where
  sets : ∀ set, set ∈ state.1.map Prod.fst ↔ set ∈ before.map Dto.SetRequirement.set
  unseen : ∀ set, Model.seenAt state.2 set = none →
    set ∉ before.map Dto.SetRequirement.set
  seen : ∀ set path, Model.seenAt state.2 set = some path → ∃ front r back,
    before = front ++ r :: back ∧ r.set = set ∧ path = s!"requires[{front.length}]"

/-- An entry of `requires` that can stand after those before it. -/
structure FitRequirement (library : CardLibrary) (before : List Dto.SetRequirement)
    (r : Dto.SetRequirement) : Prop where
  stable : stableKeySyntax r.set = true
  fresh : r.set ∉ before.map Dto.SetRequirement.set
  loaded : library.setRevision r.set = some r.revision

theorem Required.nil : Required ([], []) [] where
  sets := by simp
  unseen := by simp
  seen := by simp [Model.seenAt]

/-- One more requirement entered. -/
theorem Required.entered {state : List (String × UInt32) × List (String × String)}
    {before : List Dto.SetRequirement} (h : Required state before) (r : Dto.SetRequirement) :
    Required ((r.set, r.revision) :: state.1, (r.set, s!"requires[{before.length}]") :: state.2)
      (before ++ [r]) where
  sets set := by
    have hsets := h.sets set
    simp only [List.map_cons, List.map_append, List.map_nil, List.mem_cons, List.mem_append] at *
    rw [hsets]
    tauto
  unseen set hnone := by
    by_cases hset : r.set = set
    · simp [Model.seenAt, hset] at hnone
    · have hbefore : Model.seenAt state.2 set = none := by
        simpa [Model.seenAt, hset] using hnone
      have hnot := h.unseen set hbefore
      rw [List.map_append, List.mem_append]
      rintro (hmem | hmem)
      · exact hnot hmem
      · exact hset (List.mem_singleton.mp hmem).symm
  seen set path hpath := by
    by_cases hset : r.set = set
    · have hlast : s!"requires[{before.length}]" = path := by
        simpa [Model.seenAt, hset] using hpath
      exact ⟨before, r, [], rfl, hset, hlast.symm⟩
    · have hbefore : Model.seenAt state.2 set = some path := by
        simpa [Model.seenAt, hset] using hpath
      obtain ⟨front, r', back, rfl, hr', hfront⟩ := h.seen set path hbefore
      exact ⟨front, r', back ++ [r], by simp, hr', hfront⟩

theorem resolveRequirement_spec (library : CardLibrary)
    {state : List (String × UInt32) × List (String × String)}
    {before : List Dto.SetRequirement} {r : Dto.SetRequirement} (h : Required state before) :
    PassSpec Required (FitRequirement library)
      (fun before r => RequirementFault library s!"requires[{before.length}]" before r) before r
      (resolveRequirement library before.length state r) := by
  unfold resolveRequirement requireStableKey
  by_cases hstable : stableKeySyntax r.set = true
  · simp only [hstable, if_true, ok_bind]
    cases hseen : Model.seenAt state.2 r.set with
    | some path =>
        obtain ⟨front, first, back, hbefore, hset, rfl⟩ := h.seen _ _ hseen
        refine ⟨fun hfit => hfit.fresh ?_, .repeated hbefore hset⟩
        rw [hbefore, ← hset]
        simp
    | none =>
        cases hrevision : library.setRevision r.set with
        | none =>
            refine ⟨fun hfit => ?_, .unavailable hrevision⟩
            rw [hfit.loaded] at hrevision
            cases hrevision
        | some available =>
            by_cases hne : available = r.revision
            · simp only [hne, ne_eq, not_true_eq_false, if_false]
              exact ⟨⟨hstable, h.unseen _ hseen, hne ▸ hrevision⟩, h.entered r⟩
            · simp only [ne_eq, hne, not_false_eq_true, if_true]
              refine ⟨fun hfit => hne ?_, .revision hrevision hne⟩
              rw [hfit.loaded] at hrevision
              exact (Option.some.inj hrevision).symm
  · simp only [hstable]
    exact ⟨fun hfit => hstable hfit.stable, .stable (by simpa using hstable)⟩

/-- Entries each of which is new after those before it are distinct. -/
theorem nodup_map_of_splits {α κ : Type} {key : α → κ} {xs : List α}
    (h : ∀ before x after, xs = before ++ x :: after → key x ∉ before.map key) :
    (xs.map key).Nodup := by
  induction xs using List.reverseRecOn with
  | nil => simp
  | append_singleton xs x ih =>
      have hxs : (xs.map key).Nodup := by
        refine ih fun before y after hsplit => h before y (after ++ [x]) ?_
        simp [hsplit]
      rw [List.map_append, List.map_singleton, List.nodup_append]
      refine ⟨hxs, by simp, ?_⟩
      rintro _ hmem _ hlast rfl
      rw [List.mem_singleton] at hlast
      exact h xs x [] rfl (hlast ▸ hmem)

theorem resolveRequirements_spec (library : CardLibrary) (raw : Dto.Deck) :
    match resolveRequirements raw.requires library with
    | .ok requirements => Records requirements raw ∧
        (∀ r ∈ raw.requires, stableKeySyntax r.set = true) ∧
        (raw.requires.map Dto.SetRequirement.set).Nodup ∧
        ∀ r ∈ raw.requires, library.setRevision r.set = some r.revision
    | .error e => Faulty library raw e ∧ ¬LegalRecipe library raw := by
  have hloop := enumerated_spec .nil raw.requires
    (fun {state before r} h => resolveRequirement_spec library h)
  unfold resolveRequirements
  cases hl : enumerated (resolveRequirement library) 0 ([], []) raw.requires with
  | error e =>
      rw [hl] at hloop
      obtain ⟨before, r, after, hsplit, hunfit, hfault⟩ := hloop
      refine ⟨.requirement hsplit hfault, fun hlegal => hunfit ?_⟩
      have hr : r ∈ raw.requires := by simp [hsplit]
      refine ⟨hlegal.setsStable r hr, fun hmem => ?_, hlegal.setsLoaded r hr⟩
      have hdistinct := hlegal.setsDistinct
      rw [hsplit, List.map_append, List.map_cons, List.nodup_append] at hdistinct
      exact hdistinct.2.2 _ hmem _ List.mem_cons_self rfl
  | ok state =>
      rw [hl] at hloop
      obtain ⟨hrequired, hfit⟩ := hloop
      have hevery : ∀ r ∈ raw.requires, ∃ before, FitRequirement library before r := by
        intro r hr
        obtain ⟨before, after, hsplit⟩ := List.append_of_mem hr
        exact ⟨before, hfit before r after hsplit⟩
      refine ⟨hrequired.sets, fun r hr => ?_, ?_, fun r hr => ?_⟩
      · obtain ⟨before, h⟩ := hevery r hr
        exact h.stable
      · exact nodup_map_of_splits fun before r after hsplit => (hfit before r after hsplit).fresh
      · obtain ⟨before, h⟩ := hevery r hr
        exact h.loaded

/-! ## The body -/

theorem quantityOf_append (front back : List Dto.CardQuantity) (key : String) :
    quantityOf (front ++ back) key = quantityOf front key + quantityOf back key := by
  simp [quantityOf]

theorem quantityOf_singleton (item : Dto.CardQuantity) (key : String) :
    quantityOf [item] key = if item.card = key then item.quantity.toNat else 0 := by
  by_cases h : item.card = key <;> simp [quantityOf, h]

/-- No key is asked for too often, if none is by any entry and those before it. -/
theorem quantityOf_le_of_splits {limit : ℕ} {items : List Dto.CardQuantity}
    (h : ∀ before item after, items = before ++ item :: after →
      quantityOf (before ++ [item]) item.card ≤ limit) (key : String) :
    quantityOf items key ≤ limit := by
  induction items using List.reverseRecOn with
  | nil => simp [quantityOf]
  | append_singleton items item ih =>
      by_cases hkey : item.card = key
      · rw [← hkey]
        exact h items item [] rfl
      · rw [quantityOf_append, quantityOf_singleton, if_neg hkey, Nat.add_zero]
        apply ih
        intro before other after hsplit
        refine h before other (after ++ [item]) ?_
        simp [hsplit]

section
variable {library : CardLibrary} {raw : Dto.Deck} {requirements : List (String × UInt32)}

/-- What the entries expand to: as many copies of its card as each asks for, in their order. -/
def expansion (library : CardLibrary) (items : List Dto.CardQuantity) : List (Option EntityId) :=
  items.flatMap fun item => List.replicate item.quantity.toNat (library.cardId item.card)

/-- The body and the copies counted after some entries. -/
structure Expanded (library : CardLibrary) (state : List EntityId × List (String × UInt32))
    (before : List Dto.CardQuantity) : Prop where
  body : state.1.map some = expansion library before
  copies : ∀ key, (copiesOf state.2 key).toNat = min u32Max (quantityOf before key)

/-- An entry of `cards` that can stand after those before it. -/
structure FitItem (library : CardLibrary) (raw : Dto.Deck) (before : List Dto.CardQuantity)
    (item : Dto.CardQuantity) : Prop where
  bound : BoundKey raw item.card
  positive : 0 < item.quantity.toNat
  apart : item.card ≠ raw.starter
  known : library.cardId item.card ≠ none
  copies : quantityOf (before ++ [item]) item.card ≤ 2

/-- One more entry counted and expanded. -/
theorem Expanded.entered {state : List EntityId × List (String × UInt32)}
    {before : List Dto.CardQuantity} {item : Dto.CardQuantity} {id : EntityId}
    (h : Expanded library state before) (hid : library.cardId item.card = some id) :
    Expanded library (state.1 ++ List.replicate item.quantity.toNat id,
      (item.card, saturatingAdd (copiesOf state.2 item.card) item.quantity) :: state.2)
      (before ++ [item]) where
  body := by
    rw [List.map_append, h.body, List.map_replicate]
    simp [expansion, hid]
  copies key := by
    rw [quantityOf_append, quantityOf_singleton]
    by_cases hkey : item.card = key
    · have hcopies := h.copies key
      simp only [copiesOf, hkey, List.find?_cons, decide_true, Option.map_some,
        Option.getD_some, saturatingAdd_toNat, if_true] at hcopies ⊢
      rw [hcopies]
      omega
    · have hcopies := h.copies key
      simp only [copiesOf, List.find?_cons, hkey, decide_false, if_false, Nat.add_zero] at hcopies ⊢
      exact hcopies

/-- The checks behind the two on the key. -/
theorem countItem_spec {state : List EntityId × List (String × UInt32)}
    {before : List Dto.CardQuantity} {item : Dto.CardQuantity} {q : QualifiedCard} {path : String}
    (h : Expanded library state before) (hbound : BoundKey raw item.card)
    (hkey : q.key = item.card) :
    PassSpec (Expanded library) (FitItem library raw)
      (fun before item => ItemFault library raw path before item) before item
      (if item.quantity = 0 then .error (semanticError s!"{path}.quantity" .quantityMustBePositive)
        else if item.card = raw.starter then
          .error (semanticError s!"{path}.card" (.starterInBody item.card))
        else do
          let id ← resolveCard library q s!"{path}.card"
          let count := saturatingAdd (copiesOf state.2 item.card) item.quantity
          if count > copyLimit then
            .error (semanticError s!"{path}.quantity"
              (.copyLimitExceeded item.card count copyLimit))
          else
            pure (state.1 ++ List.replicate item.quantity.toNat id,
              (item.card, count) :: state.2)) := by
  by_cases hquantity : item.quantity = 0
  · rw [if_pos hquantity]
    refine ⟨fun hfit => ?_, .quantity hquantity⟩
    have hpositive := hfit.positive
    rw [hquantity] at hpositive
    exact absurd hpositive (by decide)
  · rw [if_neg hquantity]
    have hpositive : 0 < item.quantity.toNat := by
      have hne : item.quantity.toNat ≠ 0 := fun hzero => hquantity (UInt32.toNat_inj.mp hzero)
      omega
    by_cases hstarter : item.card = raw.starter
    · rw [if_pos hstarter]
      exact ⟨fun hfit => hfit.apart hstarter, .starter hstarter⟩
    · rw [if_neg hstarter]
      unfold resolveCard
      rw [hkey]
      cases hid : library.cardId item.card with
      | none => exact ⟨fun hfit => hfit.known hid, .key (.unresolved hid)⟩
      | some id =>
          have hcount : (saturatingAdd (copiesOf state.2 item.card) item.quantity).toNat =
              min u32Max (quantityOf (before ++ [item]) item.card) :=
            (by simpa [copiesOf] using (h.entered hid).copies item.card)
          have hlimit : saturatingAdd (copiesOf state.2 item.card) item.quantity > copyLimit ↔
              2 < quantityOf (before ++ [item]) item.card := by
            rw [gt_iff_lt, UInt32.lt_iff_toNat_lt, hcount]
            have htwo : copyLimit.toNat = 2 := rfl
            have hmax : u32Max = 4294967295 := rfl
            omega
          simp only [ok_bind]
          by_cases hover : 2 < quantityOf (before ++ [item]) item.card
          · rw [if_pos (hlimit.mpr hover)]
            exact ⟨fun hfit => absurd hfit.copies (by omega), .copies hcount hover⟩
          · rw [if_neg (fun hgt => hover (hlimit.mp hgt))]
            exact ⟨⟨hbound, hpositive, hstarter, by simp [hid], by omega⟩, h.entered hid⟩

theorem resolveItem_spec {state : List EntityId × List (String × UInt32)}
    {before : List Dto.CardQuantity} {item : Dto.CardQuantity}
    (hrecords : Records requirements raw) (h : Expanded library state before) :
    PassSpec (Expanded library) (FitItem library raw)
      (fun before item => ItemFault library raw s!"cards[{before.length}]" before item) before item
      (resolveItem library requirements raw.starter before.length state item) := by
  obtain ⟨path, hpath⟩ : ∃ path : ℕ → String, ∀ n, s!"cards[{n}]" = path n := ⟨_, fun _ => rfl⟩
  have href := boundRef_spec library hrecords item.card s!"{path before.length}.card"
  unfold resolveItem
  simp only [hpath]
  cases hq : parseQualified item.card s!"{path before.length}.card" with
  | error e =>
      rw [hq] at href
      obtain ⟨hnot, cause, rfl, hfault⟩ := href
      exact ⟨fun hfit => hnot hfit.bound, .key hfault⟩
  | ok q =>
      rw [hq, ok_bind] at href
      rw [ok_bind]
      cases hb : requireBound q requirements s!"{path before.length}.card" with
      | error e =>
          rw [hb] at href
          obtain ⟨hnot, cause, rfl, hfault⟩ := href
          exact ⟨fun hfit => hnot hfit.bound, .key hfault⟩
      | ok u =>
          rw [hb] at href
          obtain ⟨hkey, hbound⟩ := href
          rw [ok_bind, hkey]
          exact countItem_spec h hbound hkey

theorem expansion_length (library : CardLibrary) (items : List Dto.CardQuantity) :
    (expansion library items).length = totalQuantity items := by
  simp [expansion, totalQuantity, List.length_flatMap]

theorem resolveBody_spec (library : CardLibrary) (hrecords : Records requirements raw) :
    match resolveBody raw.cards library requirements raw.starter with
    | .ok body => body.map some = expansion library raw.cards ∧
        (∀ item ∈ raw.cards, ∃ before, FitItem library raw before item) ∧
        (∀ key, quantityOf raw.cards key ≤ 2) ∧ totalQuantity raw.cards = 20
    | .error e => Faulty library raw e ∧ ¬LegalRecipe library raw := by
  have hempty : Expanded library ([], []) [] := ⟨rfl, by simp [copiesOf, quantityOf]⟩
  have hloop := enumerated_spec hempty raw.cards
    (fun {state before item} h => resolveItem_spec hrecords h)
  unfold resolveBody
  cases hl : enumerated (resolveItem library requirements raw.starter) 0 ([], []) raw.cards with
  | error e =>
      rw [hl] at hloop
      obtain ⟨before, item, after, hsplit, hunfit, hfault⟩ := hloop
      refine ⟨.item hsplit hfault, fun hlegal => hunfit ?_⟩
      have hitem : item ∈ raw.cards := by simp [hsplit]
      refine ⟨hlegal.bound item hitem, hlegal.positive item hitem, hlegal.apart item hitem,
        hlegal.known item hitem, ?_⟩
      have hcopies := hlegal.copies item.card
      rw [hsplit, ← List.singleton_append, ← List.append_assoc, quantityOf_append] at hcopies
      omega
  | ok state =>
      rw [hl] at hloop
      obtain ⟨body, copies⟩ := state
      obtain ⟨hexpanded, hfit⟩ := hloop
      have hlength : body.length = totalQuantity raw.cards := by
        rw [← expansion_length library, ← hexpanded.body, List.length_map]
      simp only [ok_bind]
      by_cases hsize : totalQuantity raw.cards = 20
      · rw [if_neg (by rw [hlength, hsize]; decide)]
        refine ⟨hexpanded.body, fun item hitem => ?_, ?_, hsize⟩
        · obtain ⟨before, after, hsplit⟩ := List.append_of_mem hitem
          exact ⟨before, hfit before item after hsplit⟩
        · exact quantityOf_le_of_splits fun before item after hsplit =>
            (hfit before item after hsplit).copies
      · rw [if_pos (by rw [hlength]; exact hsize)]
        refine ⟨.size ?_ hsize, fun hlegal => hsize hlegal.size⟩
        rw [hlength, UInt32.toNat_ofNat_of_lt']
        show _ < 4294967296
        have hmax : u32Max = 4294967295 := rfl
        omega

/-- How often a card is in the expansion. -/
theorem count_expansion (library : CardLibrary) (items : List Dto.CardQuantity) (id : EntityId) :
    (expansion library items).count (some id) =
      ((items.filter (fun item => library.cardId item.card = some id)).map
        (fun item => item.quantity.toNat)).sum := by
  induction items with
  | nil => rfl
  | cons item items ih =>
      have hcons : expansion library (item :: items) =
          List.replicate item.quantity.toNat (library.cardId item.card) ++
            expansion library items := rfl
      rw [hcons, List.count_append, ih, List.count_replicate]
      by_cases hid : library.cardId item.card = some id <;> simp [hid]

end

/-! ## Resolution -/

/-- What a resolved Deck is made of. -/
structure Expands (library : CardLibrary) (raw : Dto.Deck) (deck : Deck) : Prop where
  id : deck.id = raw.id
  name : deck.name = raw.name
  starter : library.cardId raw.starter = some deck.starter
  body : deck.body.map some = expansion library raw.cards

theorem baseStarter_iff {library : CardLibrary} {id : EntityId} :
    (library.coreCards.get id).bind (fun entity => entity.get .form) = some .base ↔
      ∃ e, library.coreCards.get id = some e ∧ e.get .form = some .base := by
  rw [Option.bind_eq_some_iff]

/-- The checks from the requirements on. -/
theorem resolveCards_spec (library : CardLibrary) {raw : Dto.Deck} (hversion : raw.schemaVersion = 1)
    (hid : stableKeySyntax raw.id = true) (hname : Model.isBlank raw.name = false) :
    match (do
      let requirements ← resolveRequirements raw.requires library
      let starterRef ← parseQualified raw.starter "starter"
      requireBound starterRef requirements "starter"
      let starterId ← resolveCard library starterRef "starter"
      requireBaseStarter library starterId starterRef.key
      let body ← resolveBody raw.cards library requirements starterRef.key
      pure ⟨raw.id, raw.name, starterId, body⟩ : Except DeckLoadError Deck) with
    | .ok deck => LegalRecipe library raw ∧ Expands library raw deck
    | .error e => Faulty library raw e ∧ ¬LegalRecipe library raw := by
  have hrequires := resolveRequirements_spec library raw
  cases hr : resolveRequirements raw.requires library with
  | error e =>
      rw [hr] at hrequires
      exact hrequires
  | ok requirements =>
      rw [hr] at hrequires
      obtain ⟨hrecords, hstable, hdistinct, hloaded⟩ := hrequires
      have href := boundRef_spec library hrecords raw.starter "starter"
      rw [ok_bind]
      cases hq : parseQualified raw.starter "starter" with
      | error e =>
          rw [hq] at href
          obtain ⟨hnot, cause, rfl, hfault⟩ := href
          exact ⟨.starter hfault, fun hlegal => hnot hlegal.starter⟩
      | ok q =>
          rw [hq, ok_bind] at href
          rw [ok_bind]
          cases hb : requireBound q requirements "starter" with
          | error e =>
              rw [hb] at href
              obtain ⟨hnot, cause, rfl, hfault⟩ := href
              exact ⟨.starter hfault, fun hlegal => hnot hlegal.starter⟩
          | ok u =>
              rw [hb] at href
              obtain ⟨hkey, hbound⟩ := href
              rw [ok_bind, hkey]
              unfold resolveCard
              rw [hkey]
              cases hstarter : library.cardId raw.starter with
              | none =>
                  refine ⟨.starter (.unresolved hstarter), fun hlegal => ?_⟩
                  obtain ⟨id, e, hknown, -⟩ := hlegal.starterBase
                  rw [hstarter] at hknown
                  cases hknown
              | some id =>
                  simp only [ok_bind]
                  unfold requireBaseStarter
                  by_cases hbase : (library.coreCards.get id).bind
                      (fun entity => entity.get .form) = some .base
                  · rw [if_pos hbase, ok_bind]
                    obtain ⟨e, he, hform⟩ := baseStarter_iff.mp hbase
                    have hbody := resolveBody_spec library hrecords
                    cases hresolved : resolveBody raw.cards library requirements raw.starter with
                    | error e =>
                        rw [hresolved] at hbody
                        exact hbody
                    | ok body =>
                        rw [hresolved] at hbody
                        obtain ⟨hexpansion, hfit, hcopies, hsize⟩ := hbody
                        refine ⟨?_, rfl, rfl, hstarter, hexpansion⟩
                        have hitem : ∀ item ∈ raw.cards, BoundKey raw item.card ∧
                            0 < item.quantity.toNat ∧ item.card ≠ raw.starter ∧
                            library.cardId item.card ≠ none := by
                          intro item hmem
                          obtain ⟨before, h⟩ := hfit item hmem
                          exact ⟨h.bound, h.positive, h.apart, h.known⟩
                        exact
                          { version := hversion
                            id := hid
                            name := hname
                            setsStable := hstable
                            setsDistinct := hdistinct
                            setsLoaded := hloaded
                            starter := hbound
                            starterBase := ⟨id, e, hstarter, he, hform⟩
                            bound := fun item hmem => (hitem item hmem).1
                            known := fun item hmem => (hitem item hmem).2.2.2
                            apart := fun item hmem => (hitem item hmem).2.2.1
                            positive := fun item hmem => (hitem item hmem).2.1
                            copies := hcopies
                            size := hsize }
                  · rw [if_neg hbase]
                    have hnot : ∀ id' e, library.cardId raw.starter = some id' →
                        library.coreCards.get id' = some e → e.get .form ≠ some .base := by
                      intro id' e hid' he hform
                      rw [hstarter] at hid'
                      cases hid'
                      exact hbase (baseStarter_iff.mpr ⟨e, he, hform⟩)
                    refine ⟨.form hnot, fun hlegal => ?_⟩
                    obtain ⟨id', e, hid', he, hform⟩ := hlegal.starterBase
                    exact hnot id' e hid' he hform

theorem resolve_spec (raw : Dto.Deck) (library : CardLibrary) :
    match resolve raw library with
    | .ok deck => LegalRecipe library raw ∧ Expands library raw deck
    | .error e => Faulty library raw e ∧ ¬LegalRecipe library raw := by
  unfold resolve
  by_cases hversion : raw.schemaVersion = 1
  · rw [if_neg (by rw [hversion]; decide)]
    unfold requireStableKey
    by_cases hid : stableKeySyntax raw.id = true
    · rw [if_pos hid, ok_bind]
      by_cases hname : Model.isBlank raw.name = true
      · rw [if_pos hname]
        refine ⟨.name hname, fun hlegal => ?_⟩
        rw [hlegal.name] at hname
        cases hname
      · rw [if_neg hname]
        exact resolveCards_spec library hversion hid (by simpa using hname)
    · rw [if_neg hid]
      exact ⟨.id (by simpa using hid), fun hlegal => hid hlegal.id⟩
  · rw [if_pos]
    · exact ⟨.version hversion, fun hlegal => hversion hlegal.version⟩
    · intro hone
      apply hversion
      apply UInt32.toNat_inj.mp
      show raw.schemaVersion.toNat = 1
      unfold schemaVersion at hone
      omega

/-- A card of a body is one that an entry names. -/
theorem mem_body {library : CardLibrary} {raw : Dto.Deck} {deck : Deck}
    (h : Expands library raw deck) {id : EntityId} (hid : id ∈ deck.body) :
    ∃ item ∈ raw.cards, library.cardId item.card = some id := by
  have hmem : some id ∈ expansion library raw.cards := by
    rw [← h.body]
    exact List.mem_map_of_mem hid
  obtain ⟨item, hitem, hcopy⟩ := List.mem_flatMap.mp hmem
  exact ⟨item, hitem, (List.mem_replicate.mp hcopy).2.symm⟩

theorem body_length {library : CardLibrary} {raw : Dto.Deck} {deck : Deck}
    (hlegal : LegalRecipe library raw) (h : Expands library raw deck) : deck.body.length = 20 := by
  have hlength := congrArg List.length h.body
  rw [List.length_map, expansion_length, hlegal.size] at hlength
  exact hlength

/-- Distinct keys name distinct cards, so no card is in the body more often than its key is asked
for. -/
theorem count_body_le {sets : List LoadedSet} {library : CardLibrary} {raw : Dto.Deck} {deck : Deck}
    (hlibrary : CardLibrary.fromSets sets = .ok library) (hlegal : LegalRecipe library raw)
    (h : Expands library raw deck) (id : EntityId) : deck.body.count id ≤ 2 := by
  by_cases hin : id ∈ deck.body
  · obtain ⟨item, -, hitem⟩ := mem_body h hin
    have hcount : deck.body.count id = (expansion library raw.cards).count (some id) := by
      rw [← h.body, List.count_map_of_injective _ _ (Option.some_injective _)]
    have hsame : ∀ other : Dto.CardQuantity,
        library.cardId other.card = some id ↔ other.card = item.card := by
      intro other
      constructor
      · intro hother
        exact cardId_injective hlibrary hother hitem
      · intro hcard
        rw [hcard]
        exact hitem
    rw [hcount, count_expansion]
    simp only [hsame]
    exact hlegal.copies item.card
  · rw [List.count_eq_zero.mpr hin]
    omega

end Deck

open Deck

theorem resolve_accepts_iff_legal (sets : List LoadedSet) (library : CardLibrary) (raw : Dto.Deck)
    (hlibrary : CardLibrary.fromSets sets = .ok library) :
    ((∃ deck, resolve raw library = .ok deck) ↔ LegalRecipe library raw) ∧
      (∀ deck, resolve raw library = .ok deck → deck.id = raw.id ∧ deck.name = raw.name ∧
        library.cardId raw.starter = some deck.starter ∧
        deck.body.map some = raw.cards.flatMap
          (fun item => List.replicate item.quantity.toNat (library.cardId item.card)) ∧
        (∀ id, deck.body.count id ≤ 2) ∧ deck.starter ∉ deck.body) ∧
      ∀ e, resolve raw library = .error e → Faulty library raw e := by
  have hspec := resolve_spec raw library
  cases hresolve : resolve raw library with
  | error e =>
      rw [hresolve] at hspec
      simpa [hspec.2] using hspec.1
  | ok deck =>
      rw [hresolve] at hspec
      obtain ⟨hlegal, hexpands⟩ := hspec
      refine ⟨by simp [hlegal], ?_, by simp⟩
      rintro _ ⟨⟩
      refine ⟨hexpands.id, hexpands.name, hexpands.starter, hexpands.body,
        count_body_le hlibrary hlegal hexpands, fun hin => ?_⟩
      obtain ⟨item, hitem, hid⟩ := mem_body hexpands hin
      exact hlegal.apart item hitem (cardId_injective hlibrary hid hexpands.starter)

section
open Specimen

/-- Two of each of ten Spells behind a Herald. -/
def heraldDeck : Dto.Deck :=
  { schemaVersion := 1
    id := "heralds"
    name := "Heralds"
    starter := "study/herald"
    requires := [⟨"study", 1⟩]
    cards := volley.map fun spell => ⟨s!"study/{spell.code}", 2⟩ }

/-- The Deck it resolves to. -/
def heraldBuilt : Option ((LoadedSet × CardLibrary) × Deck) :=
  (shelf (herald :: volley)).bind fun r =>
    (resolve heraldDeck r.2).toOption.map fun deck => (r, deck)

theorem heraldBuilt_isSome : heraldBuilt.isSome = true := by decide +kernel

theorem heraldBuilt_parts {l : LoadedSet} {library : CardLibrary} {deck : Deck}
    (h : heraldBuilt = some ((l, library), deck)) :
    load newV5 (document (herald :: volley)) = .ok l ∧ CardLibrary.fromSets [l] = .ok library ∧
      resolve heraldDeck library = .ok deck := by
  obtain ⟨r, hshelf, h⟩ := Option.bind_eq_some_iff.mp h
  obtain ⟨deck', hdeck, heq⟩ := Option.map_eq_some_iff.mp h
  cases heq
  refine ⟨(library_of_shelf hshelf).1, (library_of_shelf hshelf).2, ?_⟩
  cases hresolve : resolve heraldDeck library with
  | error e =>
      rw [hresolve] at hdeck
      cases hdeck
  | ok built =>
      rw [hresolve] at hdeck
      cases hdeck
      rfl

/-- A recipe that is accepted, and is legal for that. -/
theorem resolve_accepts_iff_legal_heralds : ∃ l library deck,
    CardLibrary.fromSets [l] = .ok library ∧ resolve heraldDeck library = .ok deck ∧
      LegalRecipe library heraldDeck ∧ ∀ id, deck.body.count id ≤ 2 := by
  obtain ⟨⟨⟨l, library⟩, deck⟩, h⟩ := Option.isSome_iff_exists.mp heraldBuilt_isSome
  obtain ⟨-, hlibrary, hdeck⟩ := heraldBuilt_parts h
  obtain ⟨haccepts, hexpands, -⟩ := resolve_accepts_iff_legal [l] library heraldDeck hlibrary
  obtain ⟨-, -, -, -, hcopies, -⟩ := hexpands deck hdeck
  exact ⟨l, library, deck, hlibrary, hdeck, haccepts.mp ⟨deck, hdeck⟩, hcopies⟩

end

end Summoners
