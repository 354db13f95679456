import Mathlib.Data.List.Perm.Basic
import Summoners.Cceroby.ArtworkKey
import Summoners.Cceroby.FormText
import Summoners.Checked.Collect

/-! # Routes

`parse_artwork_query` of `server.rs`, `DownloadForm::parse_urlencoded` of `download.rs` and
`artwork_route_url` of `render.rs`. Both parsers fill one slot a name from the fields of a body, so
they read the same bodies up to the names they know.
-/

namespace Summoners.Cceroby
set_option autoImplicit false

open Checked

/-! ## The query of an artwork -/

inductive ArtworkRouteError
  | invalidQuery
  | duplicateField
  | unknownField
  | invalidKey (error : ArtworkKeyError)
  deriving DecidableEq

structure QuerySlots where
  source : Option String
  id : Option String

/-- The arms of the loop over the fields. -/
def QuerySlots.put (slots : QuerySlots) (field : String × String) :
    Except ArtworkRouteError QuerySlots :=
  if field.1 = "source" && slots.source.isNone then .ok { slots with source := some field.2 }
  else if field.1 = "id" && slots.id.isNone then .ok { slots with id := some field.2 }
  else if field.1 = "source" || field.1 = "id" then .error .duplicateField
  else .error .unknownField

def decodeFormComponent (raw : String) : Except ArtworkRouteError String :=
  decodeWith .invalidQuery raw

def parseArtworkQuery (rawQuery : Option String) : Except ArtworkRouteError ArtworkKey := do
  let rawQuery ← match rawQuery.filter (fun query => !query.isEmpty) with
    | some query => .ok query
    | none => .error .invalidQuery
  let slots ← fillAll .invalidQuery QuerySlots.put ⟨none, none⟩ (fieldsOf rawQuery)
  match slots.source, slots.id with
  | some source, some id =>
      match ArtworkKey.tryFromParts source id with
      | .ok key => .ok key
      | .error e => .error (.invalidKey e)
  | _, _ => .error .invalidQuery

/-! ## The download form -/

namespace Download

inductive DownloadFormError
  | malformed
  | duplicateField
  | unknownField
  | missingField
  deriving DecidableEq

structure DownloadForm where
  source : String
  id : String
  slug : String
  tags : String
  deriving DecidableEq

structure FormSlots where
  source : Option String
  id : Option String
  slug : Option String
  tags : Option String

/-- The slot of a name, and the error where it is taken already. -/
def FormSlots.put (slots : FormSlots) (field : String × String) :
    Except DownloadFormError FormSlots :=
  if field.1 = "source" then
    if slots.source.isSome then .error .duplicateField
    else .ok { slots with source := some field.2 }
  else if field.1 = "id" then
    if slots.id.isSome then .error .duplicateField
    else .ok { slots with id := some field.2 }
  else if field.1 = "slug" then
    if slots.slug.isSome then .error .duplicateField
    else .ok { slots with slug := some field.2 }
  else if field.1 = "tags" then
    if slots.tags.isSome then .error .duplicateField
    else .ok { slots with tags := some field.2 }
  else .error .unknownField

def decodeComponent (raw : String) : Except DownloadFormError String := decodeWith .malformed raw

def required (slot : Option String) : Except DownloadFormError String :=
  match slot with
  | some value => .ok value
  | none => .error .missingField

def DownloadForm.parseUrlencoded (bytes : List UInt8) : Except DownloadFormError DownloadForm := do
  let raw ← match fromUtf8 bytes with
    | some raw => .ok raw
    | none => .error .malformed
  if raw.isEmpty then .error .malformed
  else do
    let slots ← fillAll .malformed FormSlots.put ⟨none, none, none, none⟩ (fieldsOf raw)
    let source ← required slots.source
    let id ← required slots.id
    let slug ← required slots.slug
    let tags ← required slots.tags
    .ok ⟨source, id, slug, tags⟩

/-! ### What the form accepts -/

def FormSlots.get (slots : FormSlots) (name : String) : Option String :=
  if name = "source" then slots.source
  else if name = "id" then slots.id
  else if name = "slug" then slots.slug
  else if name = "tags" then slots.tags
  else none

/-- The names of the form. -/
def formNames : List String := ["source", "id", "slug", "tags"]

theorem FormSlots.fills : Fills FormSlots.get FormSlots.put formNames where
  ok := by
    rintro slots ⟨name, value⟩ slots' h
    unfold FormSlots.put at h
    split_ifs at h with hsource htaken hid htaken hslug htaken htags htaken
    all_goals
      rw [Option.not_isSome_iff_eq_none] at htaken
      cases h
      subst_vars
      refine ⟨by simp [formNames], by simp [FormSlots.get, htaken], fun other => ?_⟩
      unfold FormSlots.get
      split_ifs <;> simp_all
  accepts := by
    rintro slots ⟨name, value⟩ hname hnone
    simp only [formNames, List.mem_cons, List.not_mem_nil, or_false] at hname
    rcases hname with rfl | rfl | rfl | rfl
    all_goals
      unfold FormSlots.put
      simp [FormSlots.get] at hnone
      simp [hnone]

theorem required_ok {slot : Option String} {value : String} :
    required slot = .ok value ↔ slot = some value := by
  cases slot with
  | none => simp [required]
  | some found => simp [required]

/-- The four fields as the browser names them. -/
def DownloadForm.pairs (form : DownloadForm) : List (String × String) :=
  [("source", form.source), ("id", form.id), ("slug", form.slug), ("tags", form.tags)]

theorem DownloadForm.nodup_pairs (form : DownloadForm) :
    (form.pairs.map Prod.fst).Nodup := by
  simp [DownloadForm.pairs]

/-- Slots that are filled are the form of their values. -/
theorem FormSlots.eq_iff {slots : FormSlots} {form : DownloadForm} :
    slots = ⟨some form.source, some form.id, some form.slug, some form.tags⟩ ↔
      ∀ p ∈ form.pairs, slots.get p.1 = some p.2 := by
  constructor
  · rintro rfl
    simp [DownloadForm.pairs, FormSlots.get]
  · intro h
    obtain ⟨source, id, slug, tags⟩ := slots
    simpa [DownloadForm.pairs, FormSlots.get] using h

/-- The form is what the slots hold. -/
def FormSlots.form (slots : FormSlots) : Except DownloadFormError DownloadForm := do
  let source ← required slots.source
  let id ← required slots.id
  let slug ← required slots.slug
  let tags ← required slots.tags
  .ok ⟨source, id, slug, tags⟩

theorem FormSlots.form_ok {slots : FormSlots} {form : DownloadForm} :
    slots.form = .ok form ↔
      slots = ⟨some form.source, some form.id, some form.slug, some form.tags⟩ := by
  obtain ⟨source, id, slug, tags⟩ := slots
  obtain ⟨source', id', slug', tags'⟩ := form
  unfold FormSlots.form
  cases source <;> cases id <;> cases slug <;> cases tags <;>
    simp [required, bind, Except.bind]

theorem DownloadForm.parseUrlencoded_text {raw : String} :
    parseUrlencoded (bytesOf raw) =
      fillAll .malformed FormSlots.put ⟨none, none, none, none⟩ (fieldsOf raw) >>=
        FormSlots.form := by
  unfold parseUrlencoded
  rw [fromUtf8_bytesOf]
  by_cases hempty : raw = ""
  · subst hempty
    rfl
  · show (if raw.isEmpty = true then _ else _) = _
    rw [if_neg (by simpa using hempty)]
    rfl

theorem DownloadForm.parseUrlencoded_body {raw : String} {form : DownloadForm} :
    parseUrlencoded (bytesOf raw) = .ok form ↔
      ∃ fields, IsBody raw fields ∧ (fields.map Field.pair).Perm form.pairs := by
  have hempty : ∀ name, FormSlots.get ⟨none, none, none, none⟩ name = none := by
    intro name
    unfold FormSlots.get
    split_ifs <;> rfl
  have hiff := FormSlots.fills.body_iff DownloadFormError.malformed (by decide) (by decide)
    hempty raw form.pairs rfl (List.cons_ne_nil _ _)
  rw [parseUrlencoded_text, bind_ok_iff, ← hiff]
  simp only [FormSlots.form_ok, FormSlots.eq_iff]

/-- **The bodies of a form.** -/
theorem DownloadForm.parseUrlencoded_ok {bytes : List UInt8} {form : DownloadForm} :
    parseUrlencoded bytes = .ok form ↔ ∃ raw fields, bytesOf raw = bytes ∧ IsBody raw fields ∧
      (fields.map Field.pair).Perm form.pairs := by
  constructor
  · intro h
    cases hraw : fromUtf8 bytes with
    | none =>
      unfold parseUrlencoded at h
      rw [hraw] at h
      cases h
    | some raw =>
      obtain rfl := fromUtf8_eq_some.mp hraw
      obtain ⟨fields, hfields⟩ := parseUrlencoded_body.mp h
      exact ⟨raw, fields, rfl, hfields⟩
  · rintro ⟨raw, fields, rfl, hfields⟩
    exact parseUrlencoded_body.mpr ⟨fields, hfields⟩

/-- **What a form accepts**, by the names of its fields. -/
theorem DownloadForm.parseUrlencoded_isOk {bytes : List UInt8} :
    (∃ form, parseUrlencoded bytes = .ok form) ↔ ∃ raw fields, bytesOf raw = bytes ∧
      IsBody raw fields ∧ (fields.map Field.name).Perm formNames := by
  constructor
  · rintro ⟨form, h⟩
    obtain ⟨raw, fields, hraw, hbody, hperm⟩ := parseUrlencoded_ok.mp h
    refine ⟨raw, fields, hraw, hbody, ?_⟩
    have hnames := hperm.map Prod.fst
    rwa [List.map_map] at hnames
  · rintro ⟨raw, fields, hraw, hbody, hperm⟩
    obtain ⟨pairs, hpairs, hfields⟩ := exists_ordered hperm
    obtain ⟨source, id, slug, tags, rfl⟩ : ∃ source id slug tags,
        pairs = (⟨source, id, slug, tags⟩ : DownloadForm).pairs := by
      match pairs, hpairs with
      | [(_, source), (_, id), (_, slug), (_, tags)], hpairs =>
        simp only [formNames, List.map_cons, List.map_nil, List.cons.injEq] at hpairs
        obtain ⟨rfl, rfl, rfl, rfl, -⟩ := hpairs
        exact ⟨source, id, slug, tags, rfl⟩
    exact ⟨_, parseUrlencoded_ok.mpr ⟨raw, fields, hraw, hbody, hfields⟩⟩

end Download

/-! ### What the query accepts -/

def QuerySlots.get (slots : QuerySlots) (name : String) : Option String :=
  if name = "source" then slots.source
  else if name = "id" then slots.id
  else none

/-- The names of the query. -/
def queryNames : List String := ["source", "id"]

theorem QuerySlots.fills : Fills QuerySlots.get QuerySlots.put queryNames where
  ok := by
    rintro slots ⟨name, value⟩ slots' h
    unfold QuerySlots.put at h
    split_ifs at h with hsource hid hknown
    · simp only [Bool.and_eq_true, decide_eq_true_eq, Option.isNone_iff_eq_none] at hsource
      obtain ⟨rfl, hnone⟩ := hsource
      cases h
      refine ⟨by simp [queryNames], by simp [QuerySlots.get, hnone], fun other => ?_⟩
      unfold QuerySlots.get
      split_ifs <;> simp_all
    · simp only [Bool.and_eq_true, decide_eq_true_eq, Option.isNone_iff_eq_none] at hid
      obtain ⟨rfl, hnone⟩ := hid
      cases h
      refine ⟨by simp [queryNames], by simp [QuerySlots.get, hnone], fun other => ?_⟩
      unfold QuerySlots.get
      split_ifs <;> simp_all
  accepts := by
    rintro slots ⟨name, value⟩ hname hnone
    simp only [queryNames, List.mem_cons, List.not_mem_nil, or_false] at hname
    rcases hname with rfl | rfl
    all_goals
      unfold QuerySlots.put
      simp [QuerySlots.get] at hnone
      simp [hnone]

/-- The key is what the slots hold. -/
def QuerySlots.key (slots : QuerySlots) : Except ArtworkRouteError ArtworkKey :=
  match slots.source, slots.id with
  | some source, some id =>
      match ArtworkKey.tryFromParts source id with
      | .ok key => .ok key
      | .error e => .error (.invalidKey e)
  | _, _ => .error .invalidQuery

def ArtworkKey.pairs (key : ArtworkKey) : List (String × String) :=
  [("source", key.source.key), ("id", key.id.asStr)]

theorem QuerySlots.key_ok {slots : QuerySlots} {key : ArtworkKey} :
    slots.key = .ok key ↔ ∀ p ∈ key.pairs, slots.get p.1 = some p.2 := by
  obtain ⟨source, id⟩ := slots
  have hget : (∀ p ∈ key.pairs, QuerySlots.get ⟨source, id⟩ p.1 = some p.2) ↔
      source = some key.source.key ∧ id = some key.id.asStr := by
    simp [ArtworkKey.pairs, QuerySlots.get]
  rw [hget]
  cases source with
  | none => simp [QuerySlots.key]
  | some source =>
    cases id with
    | none => simp [QuerySlots.key]
    | some id =>
      rw [Option.some.injEq, Option.some.injEq, ← ArtworkKey.tryFromParts_ok]
      unfold QuerySlots.key
      cases htry : ArtworkKey.tryFromParts source id with
      | error e => simp [htry]
      | ok found => simp [htry]

theorem parseArtworkQuery_text {raw : String} :
    parseArtworkQuery (some raw) =
      fillAll .invalidQuery QuerySlots.put ⟨none, none⟩ (fieldsOf raw) >>= QuerySlots.key := by
  by_cases hempty : raw = ""
  · subst hempty
    rfl
  · unfold parseArtworkQuery
    have hfilter : (some raw).filter (fun query => !query.isEmpty) = some raw := by
      simpa using hempty
    rw [hfilter]
    rfl

/-- **The queries of a key.** -/
theorem parseArtworkQuery_ok {rawQuery : Option String} {key : ArtworkKey} :
    parseArtworkQuery rawQuery = .ok key ↔ ∃ raw fields, rawQuery = some raw ∧
      IsBody raw fields ∧ (fields.map Field.pair).Perm key.pairs := by
  have hempty : ∀ name, QuerySlots.get ⟨none, none⟩ name = none := by
    intro name
    unfold QuerySlots.get
    split_ifs <;> rfl
  cases rawQuery with
  | none => simp [parseArtworkQuery, bind, Except.bind]
  | some raw =>
    have hiff := QuerySlots.fills.body_iff ArtworkRouteError.invalidQuery (by decide) (by decide)
      hempty raw key.pairs rfl (List.cons_ne_nil _ _)
    rw [parseArtworkQuery_text, bind_ok_iff]
    simp only [QuerySlots.key_ok, hiff, Option.some.injEq]
    constructor
    · rintro ⟨fields, hfields⟩
      exact ⟨raw, fields, rfl, hfields⟩
    · rintro ⟨_, fields, rfl, hfields⟩
      exact ⟨fields, hfields⟩

theorem parseArtworkQuery_isOk {rawQuery : Option String} :
    (∃ key, parseArtworkQuery rawQuery = .ok key) ↔ ∃ raw fields source id, rawQuery = some raw ∧
      IsBody raw fields ∧ (fields.map Field.pair).Perm [("source", source), ("id", id)] ∧
        ∃ key, ArtworkKey.tryFromParts source id = .ok key := by
  constructor
  · rintro ⟨key, h⟩
    obtain ⟨raw, fields, hraw, hbody, hperm⟩ := parseArtworkQuery_ok.mp h
    exact ⟨raw, fields, _, _, hraw, hbody, hperm, key, ArtworkKey.tryFromParts_ok.mpr ⟨rfl, rfl⟩⟩
  · rintro ⟨raw, fields, source, id, hraw, hbody, hperm, key, hkey⟩
    obtain ⟨rfl, rfl⟩ := ArtworkKey.tryFromParts_ok.mp hkey
    exact ⟨key, parseArtworkQuery_ok.mpr ⟨raw, fields, hraw, hbody, hperm⟩⟩

/-! ## Routes that carry a key -/

def artworkRouteUrl (encoding : FormEncoding) (path : String) (key : ArtworkKey) : String :=
  let query := encoding.serialize [("source", key.source.key), ("id", key.id.asStr)]
  s!"{path}?{query}"

/-- The two decoders differ in their error only. -/
theorem decoders_agree (raw : String) :
    (decodeFormComponent raw).toOption = (Download.decodeComponent raw).toOption := by
  cases hquery : decodeFormComponent raw with
  | ok text =>
    have hform : Download.decodeComponent raw = .ok text :=
      decodeWith_ok.mpr (decodeWith_ok.mp hquery)
    rw [hform]
    rfl
  | error e =>
    cases hform : Download.decodeComponent raw with
    | error e' => rfl
    | ok text =>
      have hok : decodeFormComponent raw = .ok text := decodeWith_ok.mpr (decodeWith_ok.mp hform)
      rw [hquery] at hok
      cases hok

/-- **Artwork identity survives every route.** -/
theorem artwork_identity_survives_routes (encoding : FormEncoding) :
    (∀ path key, ∃ query, artworkRouteUrl encoding path key = s!"{path}?{query}" ∧
      parseArtworkQuery (some query) = .ok key) ∧
    (∀ (key : ArtworkKey) slug tags pairs,
      pairs.Perm [("source", key.source.key), ("id", key.id.asStr), ("slug", slug),
        ("tags", tags)] →
      Download.DownloadForm.parseUrlencoded (bytesOf (encoding.serialize pairs)) =
        .ok ⟨key.source.key, key.id.asStr, slug, tags⟩) ∧
    (∀ bytes, (∃ form, Download.DownloadForm.parseUrlencoded bytes = .ok form) ↔
      ∃ raw fields, bytesOf raw = bytes ∧ IsBody raw fields ∧
        (fields.map Field.name).Perm ["source", "id", "slug", "tags"]) ∧
    (∀ rawQuery, (∃ key, parseArtworkQuery rawQuery = .ok key) ↔
      ∃ raw fields source id, rawQuery = some raw ∧ IsBody raw fields ∧
        (fields.map Field.pair).Perm [("source", source), ("id", id)] ∧
          ∃ key, ArtworkKey.tryFromParts source id = .ok key) ∧
    ∀ raw, (decodeFormComponent raw).toOption = (Download.decodeComponent raw).toOption ∧
      ((∃ text, Download.decodeComponent raw = .ok text) ↔ PercentsEscaped (bytesOf raw) ∧
        ∀ decoded, Escapes (bytesOf raw) decoded → ∃ text, bytesOf text = decoded) := by
  refine ⟨fun path key => ?_, fun key slug tags pairs hperm => ?_,
    fun _ => Download.DownloadForm.parseUrlencoded_isOk, fun _ => parseArtworkQuery_isOk,
    fun raw => ⟨decoders_agree raw, decodeWith_isOk⟩⟩
  · refine ⟨_, rfl, parseArtworkQuery_ok.mpr
      ⟨_, _, rfl, encoding.isBody_serialize _, ?_⟩⟩
    rw [encoding.pair_field]
    exact List.Perm.refl _
  · refine Download.DownloadForm.parseUrlencoded_ok.mpr
      ⟨_, _, rfl, encoding.isBody_serialize _, ?_⟩
    rw [encoding.pair_field]
    exact hperm

/-- A title with a plus sign, a space and a letter of two bytes. -/
def titledKey : ArtworkKey :=
  ⟨.wikimediaCommons, .wikimedia "File:A + É.jpg", by decide +kernel⟩

theorem artwork_identity_survives_routes_titled :
    parseArtworkQuery (some "source=wikimedia&id=File%3AA+%2B+%C3%89.jpg") = .ok titledKey ∧
      Download.DownloadForm.parseUrlencoded (bytesOf (FormEncoding.standard.serialize
        [("tags", "a, b"), ("id", "File:A + É.jpg"), ("slug", "a-é"), ("source", "wikimedia")])) =
        .ok ⟨"wikimedia", "File:A + É.jpg", "a-é", "a, b"⟩ := by
  have h := artwork_identity_survives_routes FormEncoding.standard
  constructor
  · obtain ⟨query, hurl, hparse⟩ := h.1 "" titledKey
    have hroute : artworkRouteUrl FormEncoding.standard "" titledKey =
        "?source=wikimedia&id=File%3AA+%2B+%C3%89.jpg" := by decide +kernel
    rw [hurl] at hroute
    have hquery : query = "source=wikimedia&id=File%3AA+%2B+%C3%89.jpg" := by
      apply String.toList_inj.mp
      simpa [ToString.toString] using congrArg String.toList hroute
    rw [← hquery]
    exact hparse
  · exact h.2.1 titledKey "a-é" "a, b" _ (by decide +kernel)

end Summoners.Cceroby
