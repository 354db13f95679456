import Mathlib.Data.List.Infix
import Summoners.Checked.Collect
import Summoners.Cceroby.Decimal
import Summoners.Cceroby.Remote
import Summoners.Cceroby.Thumbnail

/-! # The five normalizers

`aic.rs`, `cleveland.rs`, `met.rs`, `smithsonian.rs` and `commons.rs`: from a record of the provider
to an `Artwork`, or the reason to drop it. A record is what `serde` has read.
-/

namespace Summoners.Cceroby
set_option autoImplicit false

open Checked

/-! ## Art Institute of Chicago -/

structure AicArtwork where
  id : Option Int64
  title : Option String
  artistDisplay : Option String
  dateDisplay : Option String
  placeOfOrigin : Option String
  imageId : Option String
  isPublicDomain : Bool
  creditLine : Option String

namespace Aic

def buildIiifUrl (imageBase imageId width : String) : String :=
  let base := trimEndMatches '/' imageBase
  s!"{base}/{imageId}/full/{width}/0/default.jpg"

/-- `parse_artwork`; the context of a candidate is the base of its image service. -/
def parseArtwork (context : Option String) (raw : AicArtwork) :
    Except ArtworkDropReason Artwork := do
  let imageBase ← okOr .missingImage context
  if !raw.isPublicDomain then .error .notPublicDomain else
  let sourceId ← okOr .missingSourceId (raw.id.map toString)
  let title ← okOr .missingTitle (nonempty raw.title)
  let imageId ← okOr .missingImage (nonempty raw.imageId)
  match CommercialLicense.tryFrom "Public Domain" with
  | .error _ => .error .notPublicDomain
  | .ok license =>
      pure
        { source := .artInstituteChicago
          sourceId := sourceId
          title := title
          creator := nonempty raw.artistDisplay
          date := nonempty raw.dateDisplay
          culture := nonempty raw.placeOfOrigin
          license := license
          imageUrls :=
            { thumbnail := buildIiifUrl imageBase imageId "200,"
              display := buildIiifUrl imageBase imageId "843,"
              original := some (buildIiifUrl imageBase imageId "full") }
          institution := SourceKind.artInstituteChicago.label
          providerCredit := nonempty raw.creditLine
          objectUrl := s!"https://www.artic.edu/artworks/{sourceId}" }

end Aic

variable (crate : UrlCrate)

/-! ## Cleveland Museum of Art -/

structure ClevelandImage where
  url : String
  width : Option String
  height : Option String
  filename : Option String

structure ClevelandImages where
  web : Option ClevelandImage
  print : Option ClevelandImage
  full : Option ClevelandImage

structure ClevelandCreator where
  description : Option String

structure ClevelandArtwork where
  id : Option UInt64
  shareLicenseStatus : Option String
  title : Option String
  creationDate : Option String
  creators : Option (List ClevelandCreator)
  culture : Option (List String)
  url : Option String
  images : Option ClevelandImages
  creditline : Option String

namespace Cleveland

inductive RemoteMediaType
  | jpeg
  | tiff
  deriving DecidableEq

structure SelectedImages where
  thumbnail : crate.Url
  display : crate.Url
  original : crate.Url

def parseRemoteUrl (raw : String) : Option crate.Url :=
  (crate.parse (String.ofList (trim raw.toList))).filter (fun url =>
    (crate.scheme url = "http" || crate.scheme url = "https") && (crate.hostStr url).isSome)

def mediaType (image : ClevelandImage) : Option RemoteMediaType :=
  let filename := lowered ((nonempty image.filename).getD image.url)
  if endsWith ".jpg" filename || endsWith ".jpeg" filename then some .jpeg
  else if endsWith ".tif" filename || endsWith ".tiff" filename then some .tiff
  else none

/-- Width and height that are no numbers, or too large together, count as nothing. -/
def pixelArea (image : ClevelandImage) : ℕ :=
  match image.width.bind (parseUnsigned u64Max), image.height.bind (parseUnsigned u64Max) with
  | some width, some height => if width * height ≤ u64Max then width * height else 0
  | _, _ => 0

/-- `Iterator::max_by_key`: the last of the greatest. -/
def maxByKey {α : Type} (key : α → ℕ) (items : List α) : Option α :=
  items.foldl
    (fun best item => match best with
      | none => some item
      | some best => if key best ≤ key item then some item else some best)
    none

def selectImages (images : ClevelandImages) : Option (SelectedImages crate) := do
  let assets := [images.web, images.print, images.full]
  let validAssets := (assets.filterMap id).filterMap (fun asset =>
    (parseRemoteUrl crate asset.url).map (fun url => (asset, url)))
  let largest (type : RemoteMediaType) :=
    maxByKey (fun asset => pixelArea asset.1)
      (validAssets.filter (fun asset => mediaType asset.1 = some type))
  let bestJpeg ← largest .jpeg
  let thumbnail := ((images.web.filter (fun asset => mediaType asset = some .jpeg)).bind
    (fun asset => parseRemoteUrl crate asset.url)).getD bestJpeg.2
  let original := (largest .tiff).getD bestJpeg
  some { thumbnail := thumbnail, display := bestJpeg.2, original := original.2 }

def parseLicense (raw : Option String) : Except ArtworkDropReason CommercialLicense :=
  if raw = some "CC0" then .ok .cc0 else .error .notPublicDomain

def joinNonempty (values : List String) : Option String :=
  let joined := "; ".intercalate (values.filter (fun value => !isBlank value))
  if joined.isEmpty then none else some joined

def joinCreators (creators : List ClevelandCreator) : Option String :=
  joinNonempty (creators.filterMap ClevelandCreator.description)

def normalizeArtwork (raw : ClevelandArtwork) : Except ArtworkDropReason Artwork := do
  let license ← parseLicense raw.shareLicenseStatus
  let sourceId ← okOr .missingSourceId (raw.id.map toString)
  let title ← okOr .missingTitle (nonempty raw.title)
  let images ← okOr .missingImage (raw.images.bind (selectImages crate))
  let objectUrl ← okOr .missingSourceId (raw.url.bind (parseRemoteUrl crate))
  pure
    { source := .clevelandMuseum
      sourceId := sourceId
      title := title
      creator := raw.creators.bind joinCreators
      date := nonempty raw.creationDate
      culture := raw.culture.bind joinNonempty
      license := license
      imageUrls :=
        { thumbnail := crate.text images.thumbnail
          display := crate.text images.display
          original := some (crate.text images.original) }
      institution := SourceKind.clevelandMuseum.label
      providerCredit := nonempty raw.creditline
      objectUrl := crate.text objectUrl }

end Cleveland

/-! ## Metropolitan Museum -/

structure MetObject where
  objectId : Option UInt64
  isPublicDomain : Bool
  title : Option String
  artistDisplayName : Option String
  objectDate : Option String
  culture : Option String
  country : Option String
  region : Option String
  subregion : Option String
  locale : Option String
  primaryImage : Option String
  primaryImageSmall : Option String
  creditLine : Option String
  objectUrl : Option String

namespace Met

def canonicalTrustedUrl (raw : String) : Option String :=
  ((crate.parse raw).filter crate.browserSafe).map crate.text

def parseObject (raw : MetObject) : Except ArtworkDropReason Artwork := do
  if !raw.isPublicDomain then .error .notPublicDomain else
  let sourceId ← okOr .missingSourceId
    ((raw.objectId.filter (fun objectId => 0 < objectId)).map toString)
  let title ← okOr .missingTitle (nonempty raw.title)
  let original ← okOr .missingImage ((nonempty raw.primaryImage).bind (canonicalTrustedUrl crate))
  let display ← okOr .missingImage
    ((nonempty raw.primaryImageSmall).bind (canonicalTrustedUrl crate))
  let objectUrl ← okOr .missingSourceId
    ((nonempty raw.objectUrl).bind (canonicalTrustedUrl crate))
  pure
    { source := .metropolitanMuseum
      sourceId := sourceId
      title := title
      creator := nonempty raw.artistDisplayName
      date := nonempty raw.objectDate
      culture := joinMetadata
        ([raw.culture, raw.country, raw.region, raw.subregion, raw.locale].filterMap id)
      license := .publicDomain
      imageUrls := { thumbnail := display, display := display, original := some original }
      institution := SourceKind.metropolitanMuseum.label
      providerCredit := nonempty raw.creditLine
      objectUrl := objectUrl }

end Met

/-! ## Smithsonian -/

structure LabeledText where
  content : Option String

structure MediaUsage where
  access : Option String

structure Media where
  mediaType : Option String
  content : Option String
  thumbnail : Option String
  usage : Option MediaUsage

structure OnlineMedia where
  media : List Media

structure Descriptive where
  recordId : Option String
  title : Option LabeledText
  dataSource : Option String
  recordLink : Option String
  guid : Option String
  onlineMedia : Option OnlineMedia

structure Freetext where
  name : List LabeledText
  date : List LabeledText
  culture : List LabeledText
  place : List LabeledText
  creditLine : List LabeledText

structure Indexed where
  culture : List String
  place : List String

structure SmithsonianContent where
  descriptive : Descriptive
  freetext : Freetext
  indexed : Indexed

structure SmithsonianRecord where
  url : Option String
  title : Option String
  content : SmithsonianContent

namespace Smithsonian

structure SelectedImage where
  thumbnail : String
  display : String
  original : String

def httpsUrl (raw : String) : Option String :=
  ((crate.parse raw).filter crate.browserSafe).map crate.text

def resizedImageUrl (raw : String) (maximum : ℕ) : String :=
  match crate.parse raw with
  | none => raw
  | some url =>
      if crate.hostStr url = some "ids.si.edu" then
        let retained := (crate.queryPairs url).filter (fun pair => pair.1 ≠ "max")
        let kept := crate.appendPairs (crate.setQuery url none) retained
        crate.text (crate.appendPairs kept [("max", toString maximum)])
      else crate.text url

def smithsonianArkUrl (raw : String) : Option String := do
  let url ← crate.parse raw
  let defaultPort ←
    if crate.scheme url = "http" then some 80
    else if crate.scheme url = "https" then some 443
    else none
  if crate.hostStr url ≠ some "n2t.net" || !(crate.username url).isEmpty ||
      (crate.password url).isSome || (crate.port url).any (fun port => port ≠ defaultPort) ||
      (crate.query url).isSome || (crate.fragment url).isSome ||
      !startsWith "/ark:/" (crate.path url) then
    none
  else
    let secured ← crate.setScheme url "https"
    let plain ← crate.setPort secured none
    some (crate.text plain)

def smithsonianObjectUrl (recordLink guid : Option String) : Option String :=
  match nonempty recordLink with
  | some value => httpsUrl crate value
  | none => guid.bind (smithsonianArkUrl crate)

/-- The first image in the public domain; one without its urls is passed over. -/
def selectImage (media : List Media) : Option SelectedImage :=
  media.findSome? (fun item => do
    let isImage := item.mediaType = some "Images"
    let isCc0 := item.usage.bind MediaUsage.access = some "CC0"
    if !isImage || !isCc0 then none else
    let original ← item.content.bind (httpsUrl crate)
    let thumbnail ← (item.thumbnail.bind (httpsUrl crate)).map (resizedImageUrl crate · 300)
    let display := resizedImageUrl crate original 1200
    some { thumbnail := thumbnail, display := display, original := original })

def firstText (values : List LabeledText) : Option String :=
  values.findSome? (fun value => nonempty value.content)

def recordCulture (freetext : Freetext) (indexed : Indexed) : Option String :=
  joinMetadata (indexed.culture ++ indexed.place ++
    (freetext.culture ++ freetext.place).filterMap LabeledText.content)

def normalizeRecord (raw : SmithsonianRecord) : Except ArtworkDropReason Artwork := do
  let descriptive := raw.content.descriptive
  let sourceId ← okOr .missingSourceId
    (((nonempty raw.url).or
        ((nonempty descriptive.recordId).map (fun recordId => s!"edanmdm:{recordId}"))).bind
      (fun value => match ArtworkKey.tryFromParts SourceKind.smithsonian.key value with
        | .ok key => some key.id.asStr
        | .error _ => none))
  let title ← okOr .missingTitle
    ((nonempty raw.title).or (descriptive.title.bind (fun title => nonempty title.content)))
  let image ← okOr .missingImage
    (descriptive.onlineMedia.bind (fun online => selectImage crate online.media))
  let objectUrl ← okOr .missingSourceId
    (smithsonianObjectUrl crate descriptive.recordLink descriptive.guid)
  pure
    { source := .smithsonian
      sourceId := sourceId
      title := title
      creator := firstText raw.content.freetext.name
      date := firstText raw.content.freetext.date
      culture := recordCulture raw.content.freetext raw.content.indexed
      license := .cc0
      imageUrls :=
        { thumbnail := image.thumbnail
          display := image.display
          original := some image.original }
      institution := (nonempty descriptive.dataSource).getD SourceKind.smithsonian.label
      providerCredit := firstText raw.content.freetext.creditLine
      objectUrl := objectUrl }

end Smithsonian

/-! ## Wikimedia Commons -/

structure MetadataValue where
  value : Option String

structure CommonsMetadata where
  licenseShortName : Option MetadataValue
  licenseUrl : Option MetadataValue
  artist : Option MetadataValue
  date : Option MetadataValue
  credit : Option MetadataValue

structure CommonsImageInfo where
  url : Option String
  thumburl : Option String
  descriptionurl : Option String
  mime : Option String
  thumbmime : Option String
  extmetadata : CommonsMetadata

structure CommonsPage where
  title : Option String
  imageinfo : List CommonsImageInfo

namespace Commons

/-- The text outside the tags, with three entities read. -/
def stripHtml (raw : String) : String :=
  let text := (raw.toList.foldl
    (fun (text, inTag) c =>
      if c = '<' then (text, true)
      else if c = '>' then (text, false)
      else if inTag then (text, inTag)
      else (text ++ [c], inTag))
    (([] : List Char), false)).1
  let text := replaceText "&amp;".toList "&".toList 0 text
  let text := replaceText "&quot;".toList "\"".toList 0 text
  String.ofList (trim (replaceText "&#39;".toList "'".toList 0 text))

def metadataText (value : Option MetadataValue) : Option String :=
  nonempty ((value.bind MetadataValue.value).map stripHtml)

/-- The spellings of a license path: with a slash behind it or the English deed. -/
def spellings (path : String) : List String :=
  [path, s!"{path}/", s!"{path}/deed.en", s!"{path}/deed.en/"]

def commonsLicenseUrl (raw : String) : Option CommercialLicense := do
  let (_, remainder) ← splitOnceText "://".toList raw.toList
  let authority := remainder.takeWhile (· != '/')
  if authority.contains '@' || authority.contains ':' then none else
  let url ← crate.parse raw
  let host ← crate.hostStr url
  if (crate.scheme url ≠ "https" && crate.scheme url ≠ "http") || host ≠ "creativecommons.org" ||
      crate.username url ≠ "" || (crate.password url).isSome || (crate.port url).isSome ||
      (crate.query url).isSome || (crate.fragment url).isSome then
    none
  else
    let path := crate.path url
    if (spellings "/publicdomain/zero/1.0").contains path then some .cc0
    else if (spellings "/publicdomain/mark/1.0").contains path then some .publicDomain
    else if (["/licenses/by/1.0", "/licenses/by/2.0", "/licenses/by/2.5", "/licenses/by/3.0",
        "/licenses/by/4.0"].flatMap spellings).contains path then
      some .ccBy
    else none

/-- The license that the name and the url agree on; one that is there has to be known. -/
def licenseFromMetadata (metadata : CommonsMetadata) : Option CommercialLicense := do
  let urlLicense ← match (metadata.licenseUrl.bind MetadataValue.value).map stripHtml with
    | some value => (commonsLicenseUrl crate value).map some
    | none => some none
  let nameLicense ← match (metadata.licenseShortName.bind MetadataValue.value).map stripHtml with
    | some value => match CommercialLicense.tryFrom value with
      | .ok license => some (some license)
      | .error _ => none
    | none => some none
  match urlLicense, nameLicense with
  | some url, some name => if url = name then some url else none
  | some url, none => some url
  | none, some name => some name
  | none, none => none

def trustedRemoteUrl (raw : String) : Option crate.Url :=
  (crate.parse raw).filter (fun url => match crate.host url with
    | none => false
    | some (.domain name) =>
        (crate.scheme url = "https" && name ≠ "localhost") ||
          (crate.scheme url = "http" && name = "localhost")
    | some host => crate.scheme url = "http" && host.isLocal)

def canonicalTrustedUrl (raw : String) : Option String :=
  (trustedRemoteUrl crate raw).map crate.text

def displayMime (value : Option String) : Bool :=
  value = some "image/jpeg" || value = some "image/png" || value = some "image/webp"

def downloadableOriginalMime (value : Option String) : Bool :=
  value = some "image/jpeg" || value = some "image/tiff"

def mediaTypeFromExtension (raw : String) : Option DisplayMediaType := do
  let url ← crate.parse raw
  let (_, extension) ← rsplitOnce '.' (crate.path url).toList
  let extension := lowered (String.ofList extension)
  if extension = "jpg" || extension = "jpeg" then some .jpeg
  else if extension = "png" then some .png
  else if extension = "webp" then some .webp
  else none

def thumbnailMimeMatchesUrl (mime : Option String) (url : String) : Bool :=
  if mime = some "image/jpeg" then mediaTypeFromExtension crate url = some .jpeg
  else if mime = some "image/png" then mediaTypeFromExtension crate url = some .png
  else if mime = some "image/webp" then mediaTypeFromExtension crate url = some .webp
  else false

/-- The title of a file without its namespace and its extension. -/
def fileTitle (sourceId : String) : String :=
  match rsplitOnce '.' (trimStartMatches "File:".toList sourceId.length sourceId.toList) with
  | some (title, _) => String.ofList title
  | none => sourceId

def normalizePage (page : CommonsPage) : Except ArtworkDropReason Artwork := do
  let sourceId ← okOr .missingSourceId ((nonempty page.title).filter (startsWith "File:"))
  let info ← okOr .missingImage page.imageinfo.head?
  let license ← okOr .notPublicDomain (licenseFromMetadata crate info.extmetadata)
  let original ← okOr .missingImage (info.url.bind (canonicalTrustedUrl crate))
  let display ← okOr .missingImage (info.thumburl.bind (canonicalTrustedUrl crate))
  if !downloadableOriginalMime info.mime || !displayMime info.thumbmime ||
      !thumbnailMimeMatchesUrl crate info.thumbmime display then
    .error .missingImage
  else
  let objectUrl ← okOr .missingSourceId (info.descriptionurl.bind (canonicalTrustedUrl crate))
  pure
    { source := .wikimediaCommons
      sourceId := sourceId
      title := fileTitle sourceId
      creator := metadataText info.extmetadata.artist
      date := metadataText info.extmetadata.date
      culture := none
      license := license
      imageUrls := { thumbnail := display, display := display, original := some original }
      institution := SourceKind.wikimediaCommons.label
      providerCredit := metadataText info.extmetadata.credit
      objectUrl := objectUrl }

end Commons

/-! ## Records -/

/-- A record of one of the five providers, with the context that the search page gave it. -/
inductive ProviderRecord
  | aic (context : Option String) (raw : AicArtwork)
  | cleveland (raw : ClevelandArtwork)
  | met (raw : MetObject)
  | smithsonian (raw : SmithsonianRecord)
  | commons (raw : CommonsPage)

/-- `parse_artwork` of the record's own provider. -/
def ProviderRecord.parseArtwork : ProviderRecord → Except ArtworkDropReason Artwork
  | .aic context raw => Aic.parseArtwork context raw
  | .cleveland raw => Cleveland.normalizeArtwork crate raw
  | .met raw => Met.parseObject crate raw
  | .smithsonian raw => Smithsonian.normalizeRecord crate raw
  | .commons raw => Commons.normalizePage crate raw

end Summoners.Cceroby
