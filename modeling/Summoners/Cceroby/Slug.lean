import Mathlib.Data.Bool.AllAny
import Mathlib.Data.List.Chain
import Mathlib.Data.List.Infix
import Summoners.Cceroby.Text

/-! # File-name stems

`Slug` and `normalized_slug` of `cceroby/src/download.rs`.

A slug is the text that joins the alphanumeric runs by hyphens, cut off at sixty characters and
freed of a hyphen the cut may have left at its end (`slugLoop_slug`); what holds of the joined text
holds of everything it starts with.
-/

namespace Summoners.Cceroby
set_option autoImplicit false

namespace Download

/-- `MAX_SLUG_CHARACTERS`. -/
def maxSlugCharacters : ℕ := 60

structure SlugState where
  slug : List Char
  separatorPending : Bool
  characterCount : ℕ

section
variable (tables : CharTables)

/-- `slug.push` with the count. -/
def SlugState.push (state : SlugState) (character : Char) : SlugState :=
  { state with slug := state.slug ++ [character], characterCount := state.characterCount + 1 }

/-- The loop over the lowercased characters; where it does not go on, it breaks. -/
def slugLoop : List Char → SlugState → SlugState
  | [], state => state
  | character :: rest, state =>
      if tables.isAlphanumeric character then
        if state.separatorPending && !state.slug.isEmpty then
          if state.characterCount = maxSlugCharacters then state
          else
            let state := state.push '-'
            if state.characterCount = maxSlugCharacters then state
            else slugLoop rest { state.push character with separatorPending := false }
        else if state.characterCount = maxSlugCharacters then state
        else slugLoop rest { state.push character with separatorPending := false }
      else slugLoop rest { state with separatorPending := true }

def normalizedSlug (raw : String) : Option String :=
  let characters := (trim raw.toList).flatMap tables.toLowercase
  let slug := (slugLoop tables characters ⟨[], false, 0⟩).slug.rdropWhile (fun c => c = '-')
  if slug.isEmpty then none else some (String.ofList slug)

/-- What a slug is made of: at most sixty alphanumeric characters and single hyphens between them. -/
structure SlugText (slug : List Char) : Prop where
  nonempty : slug ≠ []
  short : slug.length ≤ maxSlugCharacters
  characters : ∀ c ∈ slug, tables.isAlphanumeric c = true ∨ c = '-'
  single : slug.IsChain (fun a b => a = '-' → b ≠ '-')
  first : slug.head? ≠ some '-'
  last : slug.getLast? ≠ some '-'

/-- One file-name stem that cannot escape the output directory. -/
structure Slug where
  asStr : String
  safe : SlugText tables asStr.toList

inductive SlugError
  | empty
  | unsafePath
  deriving DecidableEq

/-! ## The joined text -/

/-- The alphanumeric characters with one hyphen between two runs of them. -/
def joined : List Char → (started separatorPending : Bool) → List Char
  | [], _, _ => []
  | character :: rest, started, separatorPending =>
      if tables.isAlphanumeric character then
        (if separatorPending && started then ['-', character] else [character]) ++
          joined rest true false
      else joined rest started true

/-- What is left of the joined text: its first characters, without a hyphen at their end. -/
def cutOff (characters : List Char) : List Char :=
  ((joined tables characters false false).take maxSlugCharacters).rdropWhile (fun c => c = '-')

end

section
variable {tables : CharTables}

theorem isAlphanumeric_of_ascii {c : Char} (h : c.toNat < 128) :
    tables.isAlphanumeric c = isAsciiAlphanumeric c :=
  tables.ascii_alphanumeric c h

@[simp] theorem isAlphanumeric_hyphen : tables.isAlphanumeric '-' = false :=
  isAlphanumeric_of_ascii (by decide)

theorem ne_hyphen_of_alphanumeric {c : Char} (h : tables.isAlphanumeric c = true) : c ≠ '-' := by
  intro hc
  rw [hc, isAlphanumeric_hyphen] at h
  cases h

theorem not_whitespace_of_alphanumeric {c : Char} (h : tables.isAlphanumeric c = true) :
    isWhitespace c = false := by
  by_contra hw
  rw [tables.whitespace_alphanumeric c (by simpa using hw)] at h
  cases h

theorem isEmpty_concat {slug : List Char} {c : Char} {rest : List Char} :
    (slug ++ c :: rest).isEmpty = false := by
  cases slug <;> rfl

/-- **The loop computes the joined text**, up to the limit. -/
theorem slugLoop_slug (characters : List Char) (state : SlugState)
    (hcount : state.characterCount = state.slug.length)
    (hlimit : state.slug.length ≤ maxSlugCharacters) :
    (slugLoop tables characters state).slug =
      (state.slug ++ joined tables characters (!state.slug.isEmpty) state.separatorPending).take
        maxSlugCharacters := by
  induction characters generalizing state with
  | nil =>
    rw [joined, List.append_nil, List.take_of_length_le hlimit]
    rfl
  | cons character rest ih =>
    -- once the limit is reached, nothing behind the slug is looked at
    have hfull : ∀ tail, state.slug.length = maxSlugCharacters →
        state.slug = (state.slug ++ tail).take maxSlugCharacters := by
      intro tail hlength
      rw [List.take_append_of_le_length (by omega), List.take_of_length_le (by omega)]
    unfold slugLoop joined
    by_cases hc : tables.isAlphanumeric character = true
    · simp only [hc, if_true]
      by_cases hsep : (state.separatorPending && !state.slug.isEmpty) = true
      · simp only [hsep, if_true]
        by_cases hone : state.characterCount = maxSlugCharacters
        · rw [if_pos hone]
          exact hfull _ (by omega)
        · rw [if_neg hone]
          by_cases htwo : (state.push '-').characterCount = maxSlugCharacters
          · rw [if_pos htwo]
            have hlength : (state.slug ++ ['-']).length = maxSlugCharacters := by
              simp only [SlugState.push] at htwo
              simp only [List.length_append, List.length_cons, List.length_nil]
              omega
            have hcut : state.slug ++ (['-', character] ++ joined tables rest true false) =
                (state.slug ++ ['-']) ++ (character :: joined tables rest true false) := by simp
            rw [hcut, List.take_append_of_le_length (by omega), List.take_of_length_le (by omega)]
            rfl
          · rw [if_neg htwo]
            simp only [SlugState.push] at htwo ⊢
            rw [ih _ (by simp; omega) (by simp; omega)]
            simp [isEmpty_concat]
      · simp only [hsep, if_false, Bool.false_eq_true]
        by_cases hone : state.characterCount = maxSlugCharacters
        · rw [if_pos hone]
          exact hfull _ (by omega)
        · rw [if_neg hone]
          simp only [SlugState.push]
          rw [ih _ (by simp; omega) (by simp; omega)]
          simp [isEmpty_concat]
    · simp only [hc, Bool.false_eq_true, if_false]
      exact ih _ hcount hlimit

theorem joined_characters (characters : List Char) (started separatorPending : Bool) :
    ∀ c ∈ joined tables characters started separatorPending,
      (c ∈ characters ∧ tables.isAlphanumeric c = true) ∨ c = '-' := by
  induction characters generalizing started separatorPending with
  | nil => simp [joined]
  | cons character rest ih =>
    intro c hmem
    unfold joined at hmem
    by_cases hc : tables.isAlphanumeric character = true
    · rw [if_pos hc] at hmem
      rcases List.mem_append.mp hmem with hmem | hmem
      · split at hmem
        · simp only [List.mem_cons, List.not_mem_nil, or_false] at hmem
          obtain rfl | rfl := hmem
          · exact .inr rfl
          · exact .inl ⟨List.mem_cons_self, hc⟩
        · obtain rfl := List.mem_singleton.mp hmem
          exact .inl ⟨List.mem_cons_self, hc⟩
      · exact (ih _ _ c hmem).imp (fun h => ⟨List.mem_cons_of_mem _ h.1, h.2⟩) id
    · rw [if_neg hc] at hmem
      exact (ih _ _ c hmem).imp (fun h => ⟨List.mem_cons_of_mem _ h.1, h.2⟩) id

/-- No two hyphens stand side by side, also behind an alphanumeric character. -/
theorem joined_single (characters : List Char) (started separatorPending : Bool) :
    (joined tables characters started separatorPending).IsChain (fun a b => a = '-' → b ≠ '-') := by
  induction characters generalizing started separatorPending with
  | nil => exact .nil
  | cons character rest ih =>
    unfold joined
    by_cases hc : tables.isAlphanumeric character = true
    · have hne := ne_hyphen_of_alphanumeric hc
      have hrun : (character :: joined tables rest true false).IsChain
          (fun a b => a = '-' → b ≠ '-') :=
        List.isChain_cons.mpr ⟨fun _ _ h => absurd h hne, ih _ _⟩
      rw [if_pos hc]
      split
      · exact List.isChain_cons.mpr ⟨fun d hd _ => by
          obtain rfl : character = d := by simpa using hd
          exact hne, hrun⟩
      · exact hrun
    · rw [if_neg hc]
      exact ih _ _

theorem joined_first (characters : List Char) (separatorPending : Bool) :
    (joined tables characters false separatorPending).head? ≠ some '-' := by
  induction characters generalizing separatorPending with
  | nil => simp [joined]
  | cons character rest ih =>
    unfold joined
    by_cases hc : tables.isAlphanumeric character = true
    · simpa [hc] using ne_hyphen_of_alphanumeric hc
    · simpa [hc] using ih true

/-- The joined text is empty only without an alphanumeric character. -/
theorem joined_eq_nil {characters : List Char} {started separatorPending : Bool} :
    joined tables characters started separatorPending = [] ↔
      ∀ c ∈ characters, tables.isAlphanumeric c = false := by
  induction characters generalizing started separatorPending with
  | nil => simp [joined]
  | cons character rest ih =>
    unfold joined
    by_cases hc : tables.isAlphanumeric character = true
    · constructor
      · intro h
        rw [if_pos hc] at h
        split at h <;> cases h
      · intro h
        rw [h character List.mem_cons_self] at hc
        cases hc
    · rw [if_neg hc, ih]
      have hfalse : tables.isAlphanumeric character = false := by simpa using hc
      simp [hfalse]

/-- A text that is joined already is its own joined text; behind a skipped character a hyphen comes
first. -/
theorem joined_self {slug : List Char}
    (hchars : ∀ c ∈ slug, tables.isAlphanumeric c = true ∨ c = '-')
    (hsingle : slug.IsChain (fun a b => a = '-' → b ≠ '-')) (hlast : slug.getLast? ≠ some '-') :
    (∀ started, (started = false → slug.head? ≠ some '-') →
        joined tables slug started false = slug) ∧
      (slug ≠ [] → slug.head? ≠ some '-' → joined tables slug true true = '-' :: slug) := by
  induction slug with
  | nil => exact ⟨fun _ _ => rfl, fun h => absurd rfl h⟩
  | cons c rest ih =>
    obtain ⟨hnext, hsingle'⟩ := List.isChain_cons.mp hsingle
    have hlast' : rest.getLast? ≠ some '-' := by
      intro h
      refine hlast ?_
      rw [List.getLast?_cons, h]
      rfl
    obtain ⟨hrun, hbehind⟩ := ih (fun d hd => hchars d (List.mem_cons_of_mem _ hd)) hsingle' hlast'
    rcases hchars c List.mem_cons_self with hc | rfl
    · have hrest : joined tables rest true false = rest := hrun true (by simp)
      refine ⟨fun started _ => ?_, fun _ _ => ?_⟩
      · rw [joined, if_pos hc, hrest]
        simp
      · rw [joined, if_pos hc, hrest]
        simp
    · refine ⟨fun started hfirst => ?_, fun _ hfirst => absurd rfl hfirst⟩
      have hstarted : started = true := by
        by_contra hs
        exact hfirst (by simpa using hs) rfl
      have hne : rest ≠ [] := by
        rintro rfl
        exact hlast rfl
      have hhead : rest.head? ≠ some '-' := fun h => hnext '-' h rfl rfl
      rw [joined, if_neg (by simp), hstarted]
      exact hbehind hne hhead

/-! ## Slugs -/

theorem normalizedSlug_eq (raw : String) :
    normalizedSlug tables raw =
      let slug := cutOff tables ((trim raw.toList).flatMap tables.toLowercase)
      if slug.isEmpty then none else some (String.ofList slug) := by
  unfold normalizedSlug
  simp only
  rw [slugLoop_slug _ _ rfl (Nat.zero_le _)]
  rfl

theorem cutOff_starts (characters : List Char) :
    cutOff tables characters <+: joined tables characters false false :=
  (List.rdropWhile_prefix _ _).trans (List.take_prefix _ _)

theorem cutOff_eq_nil {characters : List Char} :
    cutOff tables characters = [] ↔
      ∀ c ∈ characters, tables.isAlphanumeric c = false := by
  have hnil : joined tables characters false false = [] ↔
      ∀ c ∈ characters, tables.isAlphanumeric c = false := joined_eq_nil
  have hfirst : (joined tables characters false false).head? ≠ some '-' := joined_first _ _
  rw [← hnil]
  constructor
  · intro h
    cases htext : joined tables characters false false with
    | nil => rfl
    | cons c rest =>
      rw [htext] at hfirst
      have hall := List.rdropWhile_eq_nil_iff.mp h c (by rw [htext]; exact List.mem_cons_self)
      exact absurd (by simpa using hall) (fun hc : c = '-' => hfirst (by rw [hc]; rfl))
  · intro h
    have hprefix : cutOff tables characters <+: _ := cutOff_starts characters
    rw [h] at hprefix
    exact List.prefix_nil.mp hprefix

theorem cutOff_slugText {characters : List Char}
    (h : cutOff tables characters ≠ []) :
    SlugText tables (cutOff tables characters) where
  nonempty := h
  short := by
    have hle := (List.rdropWhile_prefix (fun c => decide (c = '-'))
      ((joined tables characters false false).take maxSlugCharacters)).length_le
    exact hle.trans (List.length_take_le _ _)
  characters := fun c hc =>
    (joined_characters characters false false c ((cutOff_starts characters).subset hc)).imp
      And.right id
  single := List.IsChain.prefix (joined_single characters false false) (cutOff_starts characters)
  first := by
    intro hhead
    have hfirst : (joined tables characters false false).head? ≠ some '-' := joined_first _ _
    obtain ⟨rest, hrest⟩ : cutOff tables characters <+: _ := cutOff_starts characters
    rw [← hrest, List.head?_append, hhead] at hfirst
    exact hfirst rfl
  last := by
    intro hlast
    rw [List.getLast?_eq_some_getLast h, Option.some.injEq] at hlast
    exact List.rdropWhile_last_not _ _ h (decide_eq_true hlast)

/-- A slug normalizes to itself. -/
theorem SlugText.normalized {slug : String} (h : SlugText tables slug.toList)
    (hlower : ∀ c ∈ slug.toList, tables.toLowercase c = [c]) :
    normalizedSlug tables slug = some slug := by
  have hends : ∀ c ∈ slug.toList, c ≠ '-' → isWhitespace c = false := fun c hc hne =>
    not_whitespace_of_alphanumeric ((h.characters c hc).resolve_right hne)
  have htrim : trim slug.toList = slug.toList := by
    refine trim_self (fun c hc => ?_) (fun c hc => ?_)
    · exact hends c (List.mem_of_head? hc) (fun heq => h.first (by rw [← heq]; exact hc))
    · exact hends c (List.mem_of_getLast? hc) (fun heq => h.last (by rw [← heq]; exact hc))
  have hmap : slug.toList.flatMap tables.toLowercase = slug.toList := by
    rw [List.flatMap_congr hlower, List.flatMap_singleton']
  have hjoined : joined tables slug.toList false false = slug.toList :=
    (joined_self h.characters h.single h.last).1 false (fun _ => h.first)
  have hcut : cutOff tables slug.toList = slug.toList := by
    unfold cutOff
    rw [hjoined, List.take_of_length_le h.short, List.rdropWhile_eq_self_iff]
    intro hne
    have hlast := h.last
    rw [List.getLast?_eq_some_getLast hne] at hlast
    simpa using hlast
  rw [normalizedSlug_eq, htrim, hmap, hcut]
  simp [h.nonempty]

/-- **What a normalized slug is.** -/
theorem normalizedSlug_spec {raw slug : String} (h : normalizedSlug tables raw = some slug) :
    SlugText tables slug.toList ∧ ∀ c ∈ slug.toList, tables.toLowercase c = [c] := by
  rw [normalizedSlug_eq] at h
  simp only at h
  split at h
  · cases h
  · rename_i hne
    rw [Option.some.injEq] at h
    rw [← h, String.toList_ofList]
    refine ⟨cutOff_slugText (by simpa using hne), fun c hc => ?_⟩
    rcases joined_characters _ _ _ c ((cutOff_starts _).subset hc) with ⟨hmem, -⟩ | rfl
    · obtain ⟨d, -, hd⟩ := List.mem_flatMap.mp hmem
      exact tables.lowercase_lowercase d c hd
    · exact tables.ascii_lowercase '-' (by decide)

theorem normalizedSlug_eq_none {raw : String} :
    normalizedSlug tables raw = none ↔
      ∀ c ∈ raw.toList.flatMap tables.toLowercase, tables.isAlphanumeric c = false := by
  have hcut : normalizedSlug tables raw = none ↔
      cutOff tables ((trim raw.toList).flatMap tables.toLowercase) = [] := by
    rw [normalizedSlug_eq]
    simp
  rw [hcut, cutOff_eq_nil]
  simp only [List.mem_flatMap]
  constructor
  · rintro h d ⟨c, hc, hd⟩
    by_cases hw : isWhitespace c = true
    · -- trimmed off: whitespace is its own lowercase and not alphanumeric
      rw [tables.whitespace_lowercase c hw, List.mem_singleton] at hd
      rw [hd]
      exact tables.whitespace_alphanumeric c hw
    · exact h d ⟨c, mem_trim hc (by simpa using hw), hd⟩
  · rintro h d ⟨c, hc, hd⟩
    exact h d ⟨c, trim_subset hc, hd⟩

/-- No path separator and no dot stands in a slug. -/
theorem SlugText.notMem {slug : List Char} (h : SlugText tables slug) {c : Char}
    (hascii : c.toNat < 128) (hc : isAsciiAlphanumeric c = false) (hne : c ≠ '-') : c ∉ slug := by
  intro hmem
  rcases h.characters c hmem with halpha | rfl
  · rw [isAlphanumeric_of_ascii hascii, hc] at halpha
    cases halpha
  · exact hne rfl

end

section
variable (tables : CharTables)

def Slug.parse (raw : String) : Except SlugError (Slug tables) :=
  if '/' ∈ raw.toList ∨ '\\' ∈ raw.toList ∨ ['.', '.'] <:+: raw.toList then .error .unsafePath
  else
    match h : normalizedSlug tables raw with
    | none => .error .empty
    | some slug => .ok ⟨slug, (normalizedSlug_spec h).1⟩

/-- The stem for a title that has no alphanumeric character. -/
def Slug.artwork : Slug tables where
  asStr := "artwork"
  safe := by
    have hchars : ∀ c ∈ "artwork".toList, c.toNat < 128 ∧ isAsciiAlphanumeric c = true :=
      List.all_iff_forall_prop.mp (by decide)
    refine ⟨by decide, by decide, fun c hc => ?_, by decide, by decide, by decide⟩
    rw [isAlphanumeric_of_ascii (hchars c hc).1]
    exact .inl (hchars c hc).2

def Slug.fromTitle (title : String) : Slug tables :=
  match h : normalizedSlug tables title with
  | none => .artwork tables
  | some slug => ⟨slug, (normalizedSlug_spec h).1⟩

end

end Download

open Download in
/-- **Slugs are safe file stems.** -/
theorem slug_is_safe_stem (tables : CharTables) (raw : String) :
    (normalizedSlug tables raw = none ↔
        ∀ c ∈ raw.toList.flatMap tables.toLowercase, tables.isAlphanumeric c = false) ∧
      ∀ slug, normalizedSlug tables raw = some slug →
        SlugText tables slug.toList ∧
          ('/' ∉ slug.toList ∧ '\\' ∉ slug.toList ∧ '.' ∉ slug.toList) ∧
          normalizedSlug tables slug = some slug := by
  refine ⟨normalizedSlug_eq_none, fun slug h => ?_⟩
  obtain ⟨hsafe, hlower⟩ := normalizedSlug_spec h
  exact ⟨hsafe, ⟨hsafe.notMem (by decide) (by decide) (by decide),
    hsafe.notMem (by decide) (by decide) (by decide),
    hsafe.notMem (by decide) (by decide) (by decide)⟩, hsafe.normalized hlower⟩

/-- A title in ASCII. -/
theorem slug_is_safe_stem_title :
    Download.SlugText .ascii "mask-of-blue".toList ∧
      Download.normalizedSlug .ascii "mask-of-blue" = some "mask-of-blue" := by
  have htitle : Download.normalizedSlug .ascii "  Mask -- of Blue " = some "mask-of-blue" := by
    decide +kernel
  obtain ⟨hsafe, -, hself⟩ := (slug_is_safe_stem .ascii "  Mask -- of Blue ").2 _ htitle
  exact ⟨hsafe, hself⟩

end Summoners.Cceroby
