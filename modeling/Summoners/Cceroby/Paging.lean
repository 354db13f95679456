import Summoners.Cceroby.Decimal
import Summoners.Cceroby.Remote
import Summoners.Cceroby.Search
import Summoners.Checked.Collect
import Summoners.Checked.Paging
import Summoners.MatchLog.Json

/-! # Paging through the providers

`search_request`, `parse_search` and `validate_search_cursor` of `aic.rs`, `cleveland.rs`, `met.rs`
and `smithsonian.rs`, and what `search_one` of `search.rs` makes of them. How `serde` reads the bytes
of a response is a parameter. A `usize` is 64 bits wide.
-/

namespace Summoners.Cceroby
set_option autoImplicit false

open Checked

/-! ## Machine operations -/

/-- `usize::MAX`. -/
def usizeMax : ℕ := u64Max

/-- `u32::MAX`. -/
def u32Max : ℕ := 4294967295

/-- Where the code would stop. -/
inductive Panic
  | overflow
  | outOfRange
  deriving DecidableEq

/-- `a + b` in `u32`. -/
def addU32 (a b : UInt32) : Except Panic UInt32 :=
  if a.toNat + b.toNat ≤ u32Max then .ok (a + b) else .error .overflow

/-- `items[start..stop]`. -/
def sliceOf {α : Type} (items : List α) (start stop : ℕ) : Except Panic (List α) :=
  if start ≤ stop ∧ stop ≤ items.length then .ok ((items.drop start).take (stop - start))
  else .error .outOfRange

/-- `usize::saturating_add`. -/
def saturatingAdd (a b : ℕ) : ℕ := min (a + b) usizeMax

/-- `Vec`, whose length is a `usize`. -/
structure Vec (α : Type) where
  toList : List α
  short : toList.length ≤ usizeMax

/-! ## Requests and pages -/

/-- The query pairs of a request: those of the endpoint and those appended to it. -/
structure HttpRequest where
  own : List (String × Option String)
  appended : List (String × Option String)

def HttpRequest.pairs (request : HttpRequest) : List (String × Option String) :=
  request.own ++ request.appended

inductive ProviderError
  | malformedResponse
  | missingImageService
  | artworkUnavailable
  | invalidImageRequest
  deriving DecidableEq

structure ProviderCandidate where
  raw : JsonValue
  context : Option String

structure ProviderSearchPage where
  candidates : List ProviderCandidate
  nextCursor : Option String

/-- What a search calls of a provider. -/
structure Provider where
  validateSearchCursor : Option String → Except ProviderError Unit
  searchRequest : SearchQuery → Option String → HttpRequest
  parseSearch : List UInt8 → Option String → Except Panic (Except ProviderError ProviderSearchPage)

/-- `PAGE_SIZE`. -/
def pageSize : ℕ := 20

def candidates (rows : List JsonValue) (context : Option String) : List ProviderCandidate :=
  rows.map (fun raw => ⟨raw, context⟩)

/-- The offset of a cursor that is decimal digits. -/
def parseOffset (cursor : Option String) : Except ProviderError ℕ :=
  match cursor with
  | none => .ok 0
  | some raw =>
      if !raw.isEmpty && (bytesOf raw).all (fun byte => 48 ≤ byte && byte ≤ 57) then
        okOr .malformedResponse (parseUnsigned usizeMax raw)
      else .error .malformedResponse

/-! ## Art Institute of Chicago -/

namespace Aic

def searchFields : String :=
  "id,title,artist_display,date_display,place_of_origin,image_id,is_public_domain,credit_line"

structure Response where
  currentPage : UInt32
  totalPages : UInt32
  data : Vec JsonValue
  iiifUrl : Option String

def searchRequest (endpoint : List (String × Option String)) (query : SearchQuery)
    (cursor : Option String) : HttpRequest where
  own := endpoint
  appended :=
    let page := (cursor.bind (parseUnsigned u32Max)).getD 1
    [("q", some query.query.asStr), ("query[term][is_public_domain]", some "true")] ++
      (query.culture.map (fun culture =>
        ("query[term][place_of_origin]", some culture.asStr))).toList ++
      [("page", some (toString page)), ("limit", some "20"), ("fields", some searchFields)]

def nextCursor (currentPage totalPages : UInt32) : Except Panic (Option String) := do
  if currentPage < totalPages then
    let next ← addU32 currentPage 1
    pure (some (toString next))
  else pure none

def parseSearch (decode : List UInt8 → Option Response) (bytes : List UInt8) :
    Except Panic (Except ProviderError ProviderSearchPage) :=
  match decode bytes with
  | none => .ok (.error .malformedResponse)
  | some response =>
      match nonempty response.iiifUrl with
      | none => .ok (.error .missingImageService)
      | some imageBase => do
          let next ← nextCursor response.currentPage response.totalPages
          pure (.ok ⟨candidates response.data.toList (some imageBase), next⟩)

def provider (endpoint : List (String × Option String)) (decode : List UInt8 → Option Response) :
    Provider where
  validateSearchCursor _ := .ok ()
  searchRequest := searchRequest endpoint
  parseSearch bytes _ := parseSearch decode bytes

end Aic

/-! ## Cleveland Museum of Art -/

namespace Cleveland

def searchFields : String :=
  "id,accession_number,share_license_status,title,creation_date,creators,culture,url,images," ++
    "creditline,has_conservation_images"

structure Response where
  total : UInt64
  parameters : List (String × JsonValue)
  data : Vec JsonValue

def searchRequest (endpoint : List (String × Option String)) (query : SearchQuery)
    (cursor : Option String) : HttpRequest where
  own := endpoint
  appended :=
    let skip := (cursor.bind (parseUnsigned u64Max)).getD 0
    [("q", some query.query.asStr), ("cc0", none)] ++
      (query.culture.map (fun culture => ("culture", some culture.asStr))).toList ++
      [("has_image", some "1"), ("skip", some (toString skip)),
        ("limit", some (toString pageSize)), ("fields", some searchFields)]

def jsonU64 (value : JsonValue) : Option ℕ :=
  value.asU64.or (value.asStr.bind (parseUnsigned u64Max))

def nextCursor (skip returned total : ℕ) : Option String :=
  if skip + returned ≤ u64Max ∧ 0 < returned ∧ skip + returned < total then
    some (toString (skip + returned))
  else none

def parseSearch (decode : List UInt8 → Option Response) (bytes : List UInt8) :
    Except Panic (Except ProviderError ProviderSearchPage) :=
  match decode bytes with
  | none => .ok (.error .malformedResponse)
  | some response =>
      let returned := response.data.toList.length
      let skip := (((JsonValue.object response.parameters).get "skip").bind jsonU64).getD 0
      .ok (.ok ⟨candidates response.data.toList none, nextCursor skip returned response.total.toNat⟩)

def provider (endpoint : List (String × Option String)) (decode : List UInt8 → Option Response) :
    Provider where
  validateSearchCursor _ := .ok ()
  searchRequest := searchRequest endpoint
  parseSearch bytes _ := parseSearch decode bytes

end Cleveland

/-! ## Metropolitan Museum -/

namespace Met

structure Response where
  objectIds : Option (Vec UInt64)

def searchRequest (endpoint : List (String × Option String)) (query : SearchQuery)
    (_cursor : Option String) : HttpRequest where
  own := endpoint
  appended :=
    [("q", some query.query.asStr), ("hasImages", some "true")] ++
      (query.culture.map (fun culture => ("geoLocation", some culture.asStr))).toList

def objectIds (response : Response) : List UInt64 :=
  match response.objectIds with
  | some ids => ids.toList
  | none => []

def parseSearch (decode : List UInt8 → Option Response) (bytes : List UInt8)
    (cursor : Option String) : Except Panic (Except ProviderError ProviderSearchPage) :=
  match decode bytes with
  | none => .ok (.error .malformedResponse)
  | some response =>
      match parseOffset cursor with
      | .error e => .ok (.error e)
      | .ok offset =>
          let ids := objectIds response
          if ids.length ≤ offset then .ok (.ok ⟨[], none⟩)
          else do
            let stop := min (saturatingAdd offset pageSize) ids.length
            let page ← sliceOf ids offset stop
            pure (.ok
              ⟨candidates (page.map (fun id => .nat id.toNat)) none,
                if stop < ids.length then some (toString stop) else none⟩)

def provider (endpoint : List (String × Option String)) (decode : List UInt8 → Option Response) :
    Provider where
  validateSearchCursor cursor := (parseOffset cursor).map (fun _ => ())
  searchRequest := searchRequest endpoint
  parseSearch := parseSearch decode

end Met

/-! ## Smithsonian -/

namespace Smithsonian

structure Response where
  rowCount : UInt64
  rows : Vec JsonValue

def regionalUnitCodes (culture : Option String) : List String :=
  match culture with
  | none => []
  | some culture =>
      let region := lowered (String.ofList (trim culture.toList))
      if ["africa", "african"].contains region then ["NMAfA"]
      else if ["asia", "asian"].contains region then ["FSG", "FSA"]
      else if ["pre-columbian", "precolumbian"].contains region then ["NMAI"]
      else []

def escapeQuery (raw : String) : String :=
  String.ofList (raw.toList.flatMap (fun c => if c = '\\' || c.toNat = 34 then ['\\', c] else [c]))

/-- The filters, which `serde_json` writes as one array of texts. -/
def filterQueries (query : SearchQuery) : List String :=
  let units := regionalUnitCodes (query.culture.map Culture.asStr)
  let culture :=
    if !units.isEmpty then [" OR ".intercalate (units.map (fun unit => s!"unit_code:{unit}"))]
    else (query.culture.map (fun culture =>
      let escaped := escapeQuery culture.asStr
      s!"culture:\"{escaped}\"")).toList
  "online_media_type:Images" :: culture

def searchRequest (arrayText : List String → String) (endpoint : List (String × Option String))
    (query : SearchQuery) (cursor : Option String) : HttpRequest where
  own := endpoint.filter (fun pair => pair.1 ≠ "sort")
  appended :=
    let start := match parseOffset cursor with
      | .ok start => start
      | .error _ => 0
    [("q", some query.query.asStr), ("start", some (toString start)),
      ("rows", some (toString pageSize)), ("sort", some "id"), ("type", some "edanmdm"),
      ("row_group", some "objects"), ("fqs", some (arrayText (filterQueries query)))]

def parseSearch (decode : List UInt8 → Option Response) (bytes : List UInt8)
    (cursor : Option String) : Except Panic (Except ProviderError ProviderSearchPage) :=
  match decode bytes with
  | none => .ok (.error .malformedResponse)
  | some response =>
      match parseOffset cursor with
      | .error e => .ok (.error e)
      | .ok start =>
          let rows := response.rows.toList
          let nextStart := saturatingAdd start rows.length
          .ok (.ok
            ⟨candidates rows none,
              if !rows.isEmpty && nextStart < response.rowCount.toNat then some (toString nextStart)
              else none⟩)

def provider (arrayText : List String → String) (endpoint : List (String × Option String))
    (decode : List UInt8 → Option Response) : Provider where
  validateSearchCursor cursor := (parseOffset cursor).map (fun _ => ())
  searchRequest := searchRequest arrayText endpoint
  parseSearch := parseSearch decode

end Smithsonian

end Summoners.Cceroby
