import Mathlib.Data.Bool.AllAny
import Mathlib.Data.List.Forall2
import Mathlib.Tactic.TFAE
import Summoners.Checked.Occurrences
import Summoners.Cceroby.Normalize
import Summoners.Cceroby.Routes
import Summoners.Cceroby.Search

/-! # Cards

`render_cards_fragment` of `render.rs` and the results of `render_search_page`. An artwork whose
identity is no key is left out of the cards and counted all the same.
-/

namespace Summoners.Cceroby
set_option autoImplicit false

open Checked

/-! ## Markup -/

def escapeCharacter (c : Char) : List Char :=
  if c = '&' then "&amp;".toList
  else if c = '<' then "&lt;".toList
  else if c = '>' then "&gt;".toList
  else if c.toNat = 34 then "&quot;".toList
  else if c.toNat = 39 then "&#39;".toList
  else [c]

def escapeHtml (raw : String) : String := String.ofList (raw.toList.flatMap escapeCharacter)

variable (encoding : FormEncoding)

/-- The article of one artwork. -/
def card (artwork : Artwork) (key : ArtworkKey) : String :=
  let detailUrl := escapeHtml (artworkRouteUrl encoding "/detail" key)
  let thumbnailUrl := escapeHtml (artworkRouteUrl encoding "/thumb" key)
  let title := escapeHtml artwork.title
  let institution := escapeHtml artwork.institution
  let label := artwork.license.label
  s!"<article class=\"artwork-card\"><a href=\"{detailUrl}\"><img src=\"{thumbnailUrl}\" " ++
    s!"alt=\"\" loading=\"lazy\"></a><h3><a href=\"{detailUrl}\">{title}</a></h3>" ++
    s!"<p>{institution}</p><span class=\"license-badge\">{label}</span></article>"

/-- The arms of the filter over the artworks. -/
def renderCard (artwork : Artwork) : Option String :=
  match ArtworkKey.tryFromParts artwork.source.key artwork.sourceId with
  | .error _ => none
  | .ok key => some (card encoding artwork key)

def renderCardsFragment (artworks : List Artwork) : String :=
  "\n".intercalate (artworks.filterMap (renderCard encoding))

/-- The number that the page shows as loaded. -/
def loadedCount (view : SearchView) : ℕ := view.artworks.length

/-- The results of `render_search_page`. -/
def resultsSection (view : SearchView) : String :=
  let cards := renderCardsFragment encoding view.artworks
  let count := toString (loadedCount view)
  let loadMore := if view.hasMore then "<button id=\"load-more\" type=\"button\">Load more</button>"
    else ""
  s!"<section aria-live=\"polite\">\n      <h2>Results</h2>\n      " ++
    s!"<p aria-label=\"Loaded {count} results.\">" ++
    s!"Loaded <span id=\"loaded-count\">{count}</span> results.</p>\n      " ++
    s!"<div id=\"artwork-grid\" class=\"artwork-grid\">{cards}</div>\n      " ++
    s!"{loadMore}\n    </section>"

/-- The number of articles in a markup. -/
def cardCount (html : String) : ℕ :=
  occurrences "<article class=\"artwork-card\">".toList html.toList

/-! ## Counting cards -/

theorem notMem_escapeHtml (raw : String) : '<' ∉ (escapeHtml raw).toList := by
  unfold escapeHtml
  rw [String.toList_ofList, List.mem_flatMap]
  rintro ⟨c, -, hc⟩
  unfold escapeCharacter at hc
  split_ifs at hc with _ hless
  all_goals first
    | exact absurd hc (by decide)
    | exact hless (List.mem_singleton.mp hc).symm

/-- A text with `n` articles, whatever stands around it. -/
abbrev HoldsCards (html : String) (n : ℕ) : Prop :=
  Occurs "<article class=\"artwork-card\">".toList html.toList n

theorem HoldsCards.append {front back : String} {m n : ℕ} (hfront : HoldsCards front m)
    (hback : HoldsCards back n) : HoldsCards (front ++ back) (m + n) := by
  unfold HoldsCards
  rw [String.toList_append]
  exact Occurs.append hfront hback

theorem HoldsCards.plain {text : String} (h : '<' ∉ text.toList) : HoldsCards text 0 :=
  Occurs.absent h

theorem HoldsCards.escaped (raw : String) : HoldsCards (escapeHtml raw) 0 :=
  .plain (notMem_escapeHtml raw)

theorem HoldsCards.decimal (n : ℕ) : HoldsCards (toString n) 0 := by
  refine .plain (fun hmem => ?_)
  exact absurd (mem_toString_digit hmem) (by decide)

theorem HoldsCards.literal {text : String} {n : ℕ}
    (hsettled : settled "<article class=\"artwork-card\">".toList text.toList = true)
    (hcount : cardCount text = n) : HoldsCards text n := ⟨hsettled, hcount⟩

theorem HoldsCards.label (license : CommercialLicense) : HoldsCards license.label 0 := by
  cases license <;> exact .plain (by decide)

theorem holdsCards_card (artwork : Artwork) (key : ArtworkKey) :
    HoldsCards (card encoding artwork key) 1 := by
  have hopening : HoldsCards "<article class=\"artwork-card\"><a href=\"" 1 :=
    .literal (by decide +kernel) (by decide +kernel)
  have himage : HoldsCards "\"><img src=\"" 0 := .literal (by decide +kernel) (by decide +kernel)
  have hquote : HoldsCards "\" " 0 := .plain (by decide)
  have hheading : HoldsCards "alt=\"\" loading=\"lazy\"></a><h3><a href=\"" 0 :=
    .literal (by decide +kernel) (by decide +kernel)
  have htitle : HoldsCards "\">" 0 := .plain (by decide)
  have hafter : HoldsCards "</a></h3>" 0 := .literal (by decide +kernel) (by decide +kernel)
  have hparagraph : HoldsCards "<p>" 0 := .literal (by decide +kernel) (by decide +kernel)
  have hbadge : HoldsCards "</p><span class=\"license-badge\">" 0 :=
    .literal (by decide +kernel) (by decide +kernel)
  have hclosing : HoldsCards "</span></article>" 0 :=
    .literal (by decide +kernel) (by decide +kernel)
  have hfirst := (((hopening.append (.escaped (artworkRouteUrl encoding "/detail" key))).append
    himage).append (.escaped (artworkRouteUrl encoding "/thumb" key))).append hquote
  have hsecond := (((hheading.append (.escaped (artworkRouteUrl encoding "/detail" key))).append
    htitle).append (.escaped artwork.title)).append hafter
  have hthird := (((hparagraph.append (.escaped artwork.institution)).append hbadge).append
    (.label artwork.license)).append hclosing
  exact (hfirst.append hsecond).append hthird

/-- Cards joined by line breaks, each with one article. -/
theorem HoldsCards.join {cards : List String} (h : ∀ text ∈ cards, HoldsCards text 1) :
    HoldsCards ("\n".intercalate cards) cards.length := by
  induction cards with
  | nil => exact .plain (by decide)
  | cons text rest ih =>
    have htext := h text List.mem_cons_self
    have hrest := ih (fun text hmem => h text (List.mem_cons_of_mem _ hmem))
    cases rest with
    | nil => rwa [String.intercalate_singleton]
    | cons next rest =>
      have hbreak : HoldsCards "\n" 0 := .plain (by decide)
      have hjoined := (htext.append hbreak).append hrest
      rw [String.intercalate_cons_cons, List.length_cons, Nat.add_comm]
      exact hjoined

theorem renderCard_eq_some {artwork : Artwork} {text : String} :
    renderCard encoding artwork = some text ↔
      ∃ key, ArtworkKey.tryFromParts artwork.source.key artwork.sourceId = .ok key ∧
        card encoding artwork key = text := by
  unfold renderCard
  split
  next e herror => simp [herror]
  next key hkey => simp [hkey]

theorem holdsCards_fragment (artworks : List Artwork) :
    HoldsCards (renderCardsFragment encoding artworks)
      (artworks.filterMap (renderCard encoding)).length := by
  refine HoldsCards.join (fun text htext => ?_)
  obtain ⟨artwork, -, hcard⟩ := List.mem_filterMap.mp htext
  obtain ⟨key, -, rfl⟩ := (renderCard_eq_some encoding).mp hcard
  exact holdsCards_card encoding artwork key

/-- The section around the cards holds no other. -/
theorem cardCount_resultsSection (view : SearchView) :
    cardCount (resultsSection encoding view) =
      cardCount (renderCardsFragment encoding view.artworks) := by
  have hheader : HoldsCards "<section aria-live=\"polite\">\n      <h2>Results</h2>\n      " 0 :=
    .literal (by decide +kernel) (by decide +kernel)
  have hlabel : HoldsCards "<p aria-label=\"Loaded " 0 :=
    .literal (by decide +kernel) (by decide +kernel)
  have hresults : HoldsCards " results.\">" 0 := .plain (by decide)
  have hspan : HoldsCards "Loaded <span id=\"loaded-count\">" 0 :=
    .literal (by decide +kernel) (by decide +kernel)
  have hend : HoldsCards "</span> results.</p>\n      " 0 :=
    .literal (by decide +kernel) (by decide +kernel)
  have hgrid : HoldsCards "<div id=\"artwork-grid\" class=\"artwork-grid\">" 0 :=
    .literal (by decide +kernel) (by decide +kernel)
  have hdiv : HoldsCards "</div>\n      " 0 := .literal (by decide +kernel) (by decide +kernel)
  have hmore : HoldsCards (if view.hasMore then
      "<button id=\"load-more\" type=\"button\">Load more</button>" else "") 0 := by
    split
    · exact .literal (by decide +kernel) (by decide +kernel)
    · exact .plain (by decide)
  have hclosing : HoldsCards "\n    </section>" 0 :=
    .literal (by decide +kernel) (by decide +kernel)
  have hcount : HoldsCards (toString (loadedCount view)) 0 := .decimal _
  have hcards := holdsCards_fragment encoding view.artworks
  have hloaded := hheader.append ((hlabel.append hcount).append hresults)
  have hshown := hloaded.append ((hspan.append hcount).append hend)
  have hall := (hshown.append ((hgrid.append hcards).append hdiv)).append (hmore.append hclosing)
  have hsection : HoldsCards (resultsSection encoding view) _ := hall
  unfold cardCount
  rw [hsection.count, hcards.count]
  omega

/-! ## Identities of accepted records -/

/-- The identity of the artwork is a key with the same identifier. -/
def Artwork.Addressed (artwork : Artwork) : Prop :=
  ∃ key, ArtworkKey.tryFromParts artwork.source.key artwork.sourceId = .ok key ∧
    key.id.asStr = artwork.sourceId

theorem SourceKind.key_injective {a b : SourceKind} (h : a.key = b.key) : a = b := by
  cases a <;> cases b <;> first | rfl | exact absurd h (by decide)

theorem addressed_iff {artwork : Artwork} :
    artwork.Addressed ↔
      SafeText artwork.sourceId ∧ (artworkIdValue artwork.source artwork.sourceId).isSome := by
  constructor
  · rintro ⟨key, hkey, -⟩
    obtain ⟨hsource, hid⟩ := ArtworkKey.tryFromParts_ok.mp hkey
    have hvalid := parseArtworkId_ok.mp key.valid
    rw [SourceKind.key_injective hsource, hid]
    exact ⟨hvalid.1, by rw [hvalid.2]; rfl⟩
  · rintro ⟨hsafe, hvalue⟩
    obtain ⟨id, hid⟩ := Option.isSome_iff_exists.mp hvalue
    have hparsed := parseArtworkId_ok.mpr ⟨hsafe, hid⟩
    have hsame := artworkIdValue_asStr hid
    let key : ArtworkKey := ⟨artwork.source, id, by rw [hsame, hparsed]⟩
    have hkey : ArtworkKey.tryFromParts artwork.source.key artwork.sourceId = .ok key :=
      ArtworkKey.tryFromParts_ok.mpr ⟨rfl, hsame.symm⟩
    exact ⟨key, hkey, hsame⟩

theorem renderCard_isSome {artwork : Artwork} :
    (renderCard encoding artwork).isSome ↔ artwork.Addressed := by
  rw [Option.isSome_iff_exists]
  constructor
  · rintro ⟨text, htext⟩
    obtain ⟨key, hkey, -⟩ := (renderCard_eq_some encoding).mp htext
    exact ⟨key, hkey, (ArtworkKey.tryFromParts_ok.mp hkey).2.symm⟩
  · rintro ⟨key, hkey, -⟩
    exact ⟨_, (renderCard_eq_some encoding).mpr ⟨key, hkey, rfl⟩⟩

/-- The sources whose identifiers are numbers. -/
theorem addressed_numeric {artwork : Artwork} {z : ℤ} (hz : z ≤ u64Max)
    (hid : artwork.sourceId = toString z)
    (hvalue : ∀ raw, artworkIdValue artwork.source raw =
      ((parseUnsigned u64Max raw).filter (fun id => 0 < id)).map (fun _ => .numeric raw)) :
    artwork.Addressed ↔ 0 < z := by
  rw [addressed_iff, hvalue, hid]
  by_cases hnegative : z < 0
  · rw [parseUnsigned_negative hnegative]
    simp only [Option.filter_none, Option.map_none, Option.isSome_none, Bool.false_eq_true,
      and_false, false_iff]
    omega
  · obtain ⟨n, rfl⟩ := Int.eq_ofNat_of_zero_le (not_lt.mp hnegative)
    have hn : n ≤ u64Max := Int.ofNat_le.mp hz
    have htext : toString (n : ℤ) = toString n := rfl
    rw [htext, parseUnsigned_toString, if_pos hn]
    constructor
    · rintro ⟨-, hsome⟩
      by_contra hzero
      have hn : n = 0 := by omega
      subst hn
      cases hsome
    · intro hpositive
      have hpositive : 0 < n := Int.ofNat_lt.mp hpositive
      refine ⟨safeText_toString hn, ?_⟩
      simp [hpositive]

/-- The records whose artwork has a key: positive numbers, and file titles that a route can carry.
The other two normalizers see to it themselves. -/
def ProviderRecord.Addressable : ProviderRecord → Prop
  | .aic _ raw => ∀ id ∈ raw.id, 0 < id.toInt
  | .cleveland raw => ∀ id ∈ raw.id, 0 < id.toNat
  | .met _ => True
  | .smithsonian _ => True
  | .commons page => ∀ title ∈ page.title, SafeText title

section
variable {crate : UrlCrate} {artwork : Artwork}

theorem Aic.parseArtwork_ok {context : Option String} {raw : AicArtwork}
    (h : parseArtwork context raw = .ok artwork) :
    artwork.source = .artInstituteChicago ∧
      ∃ id, raw.id = some id ∧ artwork.sourceId = toString id := by
  simp only [parseArtwork, bind_ok_iff, refuse_ok_iff, okOr_ok_iff] at h
  obtain ⟨_, -, -, sourceId, hid, title, -, imageId, -, h⟩ := h
  obtain ⟨id, hsome, rfl⟩ := Option.map_eq_some_iff.mp hid
  split at h
  · cases h
  · rw [pure_ok_iff] at h
    subst h
    exact ⟨rfl, id, hsome, rfl⟩

theorem Cleveland.normalizeArtwork_ok {raw : ClevelandArtwork}
    (h : normalizeArtwork crate raw = .ok artwork) :
    artwork.source = .clevelandMuseum ∧
      ∃ id, raw.id = some id ∧ artwork.sourceId = toString id := by
  simp only [normalizeArtwork, bind_ok_iff, okOr_ok_iff, pure_ok_iff] at h
  obtain ⟨license, -, sourceId, hid, title, -, images, -, objectUrl, -, rfl⟩ := h
  obtain ⟨id, hsome, rfl⟩ := Option.map_eq_some_iff.mp hid
  exact ⟨rfl, id, hsome, rfl⟩

theorem Met.parseObject_ok {raw : MetObject} (h : parseObject crate raw = .ok artwork) :
    artwork.source = .metropolitanMuseum ∧
      ∃ id : UInt64, 0 < id.toNat ∧ artwork.sourceId = toString id := by
  simp only [parseObject, bind_ok_iff, refuse_ok_iff, okOr_ok_iff, pure_ok_iff] at h
  obtain ⟨-, sourceId, hid, title, -, original, -, display, -, objectUrl, -, rfl⟩ := h
  obtain ⟨id, hsome, rfl⟩ := Option.map_eq_some_iff.mp hid
  obtain ⟨-, hpositive⟩ := Option.filter_eq_some_iff.mp hsome
  exact ⟨rfl, id, of_decide_eq_true hpositive, rfl⟩

theorem Smithsonian.normalizeRecord_ok {raw : SmithsonianRecord}
    (h : normalizeRecord crate raw = .ok artwork) :
    artwork.source = .smithsonian ∧ artwork.Addressed := by
  simp only [normalizeRecord, bind_ok_iff, okOr_ok_iff, pure_ok_iff] at h
  obtain ⟨sourceId, hid, title, -, image, -, objectUrl, -, rfl⟩ := h
  obtain ⟨value, -, hkey⟩ := Option.bind_eq_some_iff.mp hid
  split at hkey
  next key hparts =>
    cases hkey
    have hvalue := (ArtworkKey.tryFromParts_ok.mp hparts).2
    exact ⟨rfl, key, hvalue ▸ hparts, rfl⟩
  · cases hkey

theorem Commons.normalizePage_ok {page : CommonsPage} (h : normalizePage crate page = .ok artwork) :
    artwork.source = .wikimediaCommons ∧ page.title = some artwork.sourceId := by
  simp only [normalizePage, bind_ok_iff, refuse_ok_iff, okOr_ok_iff, pure_ok_iff] at h
  obtain ⟨sourceId, hid, info, -, license, -, original, -, display, -, -, objectUrl, -, rfl⟩ := h
  obtain ⟨htitle, -⟩ := Option.filter_eq_some_iff.mp hid
  exact ⟨rfl, (Option.filter_eq_some_iff.mp htitle).1⟩

theorem toNat_le_u64Max (id : UInt64) : (id.toNat : ℤ) ≤ u64Max :=
  Int.ofNat_le.mpr (Nat.le_of_lt_succ id.toNat_lt)

theorem ProviderRecord.addressed_iff {record : ProviderRecord}
    (h : record.parseArtwork crate = .ok artwork) : artwork.Addressed ↔ record.Addressable := by
  cases record with
  | aic context raw =>
    obtain ⟨hsource, id, hid, htext⟩ := Aic.parseArtwork_ok h
    simp only [Addressable, hid, Option.mem_def, Option.some.injEq, forall_eq']
    have hbound : id.toInt ≤ u64Max := by
      have := id.toInt_lt
      unfold u64Max
      omega
    exact addressed_numeric hbound htext (by rw [hsource]; exact fun _ => rfl)
  | cleveland raw =>
    obtain ⟨hsource, id, hid, htext⟩ := Cleveland.normalizeArtwork_ok h
    simp only [Addressable, hid, Option.mem_def, Option.some.injEq, forall_eq']
    rw [addressed_numeric (toNat_le_u64Max id) htext (by rw [hsource]; exact fun _ => rfl)]
    omega
  | met raw =>
    obtain ⟨hsource, id, hpositive, htext⟩ := Met.parseObject_ok h
    have hiff := addressed_numeric (toNat_le_u64Max id) htext (by rw [hsource]; exact fun _ => rfl)
    exact iff_of_true (hiff.mpr (Int.ofNat_lt.mpr hpositive)) trivial
  | smithsonian raw => exact iff_of_true (Smithsonian.normalizeRecord_ok h).2 trivial
  | commons page =>
    obtain ⟨hsource, htitle⟩ := Commons.normalizePage_ok h
    simp only [Addressable, htitle, Option.mem_def, Option.some.injEq, forall_eq']
    rw [Cceroby.addressed_iff, hsource]
    exact and_iff_left rfl

end

theorem filterMap_length_iff {α β : Type} {f : α → Option β} {l : List α} :
    (l.filterMap f).length = l.length ↔ ∀ a ∈ l, (f a).isSome := by
  induction l with
  | nil => simp
  | cons a l ih =>
    have hle : (l.filterMap f).length ≤ l.length := List.length_filterMap_le f l
    rw [List.forall_mem_cons]
    cases hf : f a with
    | none =>
      rw [List.filterMap_cons_none hf, List.length_cons]
      simp
      omega
    | some b =>
      rw [List.filterMap_cons_some hf, List.length_cons, List.length_cons, ← ih]
      simp

/-- The key that an artwork is shown under. -/
def ArtworkKey.Of (artwork : Artwork) (key : ArtworkKey) : Prop :=
  artwork.source = key.source ∧ artwork.sourceId = key.id.asStr

theorem exists_keys {artworks : List Artwork} (h : ∀ artwork ∈ artworks, artwork.Addressed) :
    ∃ keys, List.Forall₂ ArtworkKey.Of artworks keys ∧
      artworks.filterMap (renderCard encoding) = List.zipWith (card encoding) artworks keys := by
  induction artworks with
  | nil => exact ⟨[], .nil, rfl⟩
  | cons artwork artworks ih =>
    rw [List.forall_mem_cons] at h
    obtain ⟨key, hkey, -⟩ := h.1
    obtain ⟨keys, hkeys, hcards⟩ := ih h.2
    obtain ⟨hsource, hid⟩ := ArtworkKey.tryFromParts_ok.mp hkey
    have hcard := (renderCard_eq_some encoding).mpr ⟨key, hkey, rfl⟩
    refine ⟨key :: keys, .cons ⟨SourceKind.key_injective hsource, hid⟩ hkeys, ?_⟩
    rw [List.filterMap_cons_some hcard, hcards, List.zipWith_cons_cons]

theorem cardCount_zipWith {artworks : List Artwork} {keys : List ArtworkKey}
    (h : List.Forall₂ ArtworkKey.Of artworks keys) :
    cardCount ("\n".intercalate (List.zipWith (card encoding) artworks keys)) =
      artworks.length := by
  have hcards : ∀ text ∈ List.zipWith (card encoding) artworks keys, HoldsCards text 1 := by
    intro text htext
    rw [← List.map_uncurry_zip_eq_zipWith] at htext
    obtain ⟨pair, -, rfl⟩ := List.mem_map.mp htext
    exact holdsCards_card encoding pair.1 pair.2
  have hjoin := HoldsCards.join hcards
  refine hjoin.count.trans ?_
  rw [List.length_zipWith, ← h.length_eq, Nat.min_self]

/-- Whatever the normalizers accept has a key, has one card each and is counted truly on the page
exactly if every record is addressable. -/
theorem accepted_artworks_shown_iff (crate : UrlCrate) (encoding : FormEncoding)
    {records : List ProviderRecord} (view : SearchView)
    (haccepted : List.Forall₂ (fun record artwork => record.parseArtwork crate = .ok artwork)
      records view.artworks) :
    [∀ record ∈ records, record.Addressable,
      ∀ artwork ∈ view.artworks, artwork.Addressed,
      ∃ keys, List.Forall₂ ArtworkKey.Of view.artworks keys ∧
        renderCardsFragment encoding view.artworks =
          "\n".intercalate (List.zipWith (card encoding) view.artworks keys),
      cardCount (renderCardsFragment encoding view.artworks) = view.artworks.length,
      cardCount (resultsSection encoding view) = loadedCount view].TFAE := by
  tfae_have 1 ↔ 2 := by
    generalize view.artworks = artworks at haccepted
    induction haccepted with
    | nil => simp
    | cons hrecord hrest ih =>
      rw [List.forall_mem_cons, List.forall_mem_cons, ih, ProviderRecord.addressed_iff hrecord]
  tfae_have 2 → 3 := by
    intro haddressed
    obtain ⟨keys, hkeys, hcards⟩ := exists_keys encoding haddressed
    refine ⟨keys, hkeys, ?_⟩
    unfold renderCardsFragment
    rw [hcards]
  tfae_have 3 → 4 := by
    rintro ⟨keys, hkeys, hfragment⟩
    rw [hfragment]
    exact cardCount_zipWith encoding hkeys
  tfae_have 4 → 2 := by
    intro hcount artwork hartwork
    have hlength := (holdsCards_fragment encoding view.artworks).count.symm.trans hcount
    exact (renderCard_isSome encoding).mp (filterMap_length_iff.mp hlength artwork hartwork)
  tfae_have 4 ↔ 5 := by
    rw [cardCount_resultsSection]
    exact Iff.rfl
  tfae_finish

/-! ## Two files of the same museum -/

/-- URLs of the form `https://host/path`, as the parser splits them. -/
structure PlainUrl where
  host : String
  path : String

def plainUrls : UrlCrate where
  Url := PlainUrl
  parse raw :=
    if startsWith "https://" raw then
      (splitOnce '/' (String.ofList (raw.toList.drop 8))).map (fun (host, path) => ⟨host, s!"/{path}"⟩)
    else none
  text url := s!"https://{url.host}{url.path}"
  scheme _ := "https"
  host url := some (.domain url.host)
  hostStr url := some url.host
  username _ := ""
  password _ := none
  port _ := none
  path := PlainUrl.path
  query _ := none
  fragment _ := none
  queryPairs _ := []
  setScheme url _ := some url
  setPort url _ := some url
  setQuery url _ := url
  appendPairs url _ := url

/-- A photograph in the public domain under a file name, with the spelling of the name in URLs. -/
def photograph (name spelled : String) : ProviderRecord :=
  .commons
    { title := some s!"File:{name}"
      imageinfo :=
        [{ url := some s!"https://wikimedia.org/{spelled}"
           thumburl := some s!"https://wikimedia.org/thumb/{spelled}"
           descriptionurl := some s!"https://wikimedia.org/wiki/{spelled}"
           mime := some "image/jpeg"
           thumbmime := some "image/jpeg"
           extmetadata :=
            { licenseShortName := some ⟨some "CC0"⟩
              licenseUrl := none
              artist := none
              date := none
              credit := none } }] }

def photographed (name spelled : String) : Artwork where
  source := .wikimediaCommons
  sourceId := s!"File:{name}.jpg"
  title := name
  creator := none
  date := none
  culture := none
  license := .cc0
  imageUrls :=
    { thumbnail := s!"https://wikimedia.org/thumb/{spelled}.jpg"
      display := s!"https://wikimedia.org/thumb/{spelled}.jpg"
      original := some s!"https://wikimedia.org/{spelled}.jpg" }
  institution := "Wikimedia Commons"
  providerCredit := none
  objectUrl := s!"https://wikimedia.org/wiki/{spelled}.jpg"

def searchedFor (artworks : List Artwork) : SearchView where
  query := ⟨⟨"cats", by decide⟩, ⟨[.wikimediaCommons], by decide, by decide⟩, none⟩
  notices := []
  artworks := artworks
  hasMore := false

theorem accepted_artworks_shown_iff_cats :
    cardCount (resultsSection FormEncoding.standard
      (searchedFor [photographed "Cats" "Cats"])) = 1 := by
  have hall := accepted_artworks_shown_iff plainUrls FormEncoding.standard
    (searchedFor [photographed "Cats" "Cats"])
    (.cons (by decide +kernel) .nil : List.Forall₂ _ [photograph "Cats.jpg" "Cats.jpg"] _)
  refine (hall.out 0 4).mp ?_
  intro record hrecord
  obtain rfl := List.mem_singleton.mp hrecord
  intro title htitle
  obtain rfl := Option.some.inj htitle
  exact ⟨by decide +kernel, by decide +kernel, List.all_iff_forall_prop.mp (by decide +kernel)⟩

/-- A file title with an ampersand is accepted and counted, and has neither key nor card. -/
theorem ampersand_title_not_shown :
    ∃ (record : ProviderRecord) (artwork : Artwork),
      record.parseArtwork plainUrls = .ok artwork ∧ ¬artwork.Addressed ∧
        cardCount (resultsSection FormEncoding.standard (searchedFor [artwork])) = 0 ∧
        loadedCount (searchedFor [artwork]) = 1 := by
  let dogs := photographed "Cats & Dogs" "Cats_%26_Dogs"
  have hunaddressed : ¬dogs.Addressed := by
    intro haddressed
    have hsafe := (addressed_iff.mp haddressed).1.safe '&' (by decide +kernel)
    exact absurd hsafe.2 (by decide)
  have hnone : renderCard FormEncoding.standard dogs = none := by
    rw [← Option.not_isSome_iff_eq_none, renderCard_isSome]
    exact hunaddressed
  refine ⟨photograph "Cats & Dogs.jpg" "Cats_%26_Dogs.jpg", dogs, by decide +kernel, hunaddressed,
    ?_, rfl⟩
  rw [cardCount_resultsSection]
  refine (holdsCards_fragment FormEncoding.standard [dogs]).count.trans ?_
  rw [List.filterMap_cons_none hnone]
  rfl

end Summoners.Cceroby
