import Mathlib.Data.List.Infix
import Summoners.Cceroby.Artwork
import Summoners.Cceroby.Text

/-! # Remote data

What the normalizers of `providers/` share: the text operations of the standard library, the parsed
URLs of the `url` crate, which are a parameter, and `CommercialLicense::try_from` of `core.rs`.
-/

namespace Summoners.Cceroby
set_option autoImplicit false

/-! ## Texts -/

/-- `Option::ok_or`. -/
def okOr {ε α : Type} (e : ε) : Option α → Except ε α
  | some a => .ok a
  | none => .error e

theorem okOr_ok_iff {ε α : Type} {e : ε} {o : Option α} {a : α} :
    okOr e o = .ok a ↔ o = some a := by
  cases o <;> simp [okOr]

def isBlank (text : String) : Bool := (trim text.toList).isEmpty

def nonempty (value : Option String) : Option String := value.filter (fun text => !isBlank text)

/-- `str::to_ascii_lowercase`. -/
def lowered (text : String) : String := String.ofList (text.toList.map toAsciiLowercase)

/-- `str::eq_ignore_ascii_case`. -/
def eqIgnoreAsciiCase (a b : String) : Bool := lowered a = lowered b

/-- `str::starts_with`. -/
def startsWith (front : String) (text : String) : Bool := front.toList.isPrefixOf text.toList

/-- `str::ends_with`. -/
def endsWith (back : String) (text : String) : Bool := back.toList.isSuffixOf text.toList

/-- `str::trim_end_matches` with one character. -/
def trimEndMatches (c : Char) (text : String) : String :=
  String.ofList (text.toList.rdropWhile (· == c))

/-- `str::trim_start_matches` with a text: `fuel` fronts at most, and a text has no more of them than
characters. -/
def trimStartMatches (front : List Char) : ℕ → List Char → List Char
  | 0, text => text
  | fuel + 1, text =>
      if front.isPrefixOf text then trimStartMatches front fuel (text.drop front.length) else text

/-- `str::split_once` with a text. -/
def splitOnceText (middle : List Char) : List Char → Option (List Char × List Char)
  | [] => none
  | c :: rest =>
      if middle.isPrefixOf (c :: rest) then some ([], (c :: rest).drop middle.length)
      else (splitOnceText middle rest).map (fun (front, back) => (c :: front, back))

/-- `str::rsplit_once` with one character. -/
def rsplitOnce (c : Char) (text : List Char) : Option (List Char × List Char) :=
  if text.contains c then
    some ((text.rdropWhile (· != c)).dropLast, text.rtakeWhile (· != c))
  else none

/-- `str::replace`; `skipped` characters of an occurrence that was replaced are still to pass. -/
def replaceText (old new : List Char) (skipped : ℕ) : List Char → List Char
  | [] => []
  | c :: rest =>
      if skipped ≠ 0 then replaceText old new (skipped - 1) rest
      else if old.isPrefixOf (c :: rest) then new ++ replaceText old new (old.length - 1) rest
      else c :: replaceText old new 0 rest

/-- `join_metadata`: each text once, up to case. -/
def joinMetadata (values : List String) : Option String :=
  let parts := (values.filter (fun value => !isBlank value)).foldl
    (fun parts value => if parts.any (eqIgnoreAsciiCase value) then parts else parts ++ [value]) []
  if parts.isEmpty then none else some ("; ".intercalate parts)

/-! ## Parsed URLs -/

/-- `url::Host`. -/
inductive Host
  | domain (name : String)
  | ipv4 (a b c d : UInt8)
  | ipv6 (address : BitVec 128)
  deriving DecidableEq

/-- A domain is local by its name, an address when it is a loopback address. -/
def Host.isLocal : Host → Bool
  | .domain name => name = "localhost"
  | .ipv4 a _ _ _ => a = 127
  | .ipv6 address => address = 1

/-- What the normalizers call of the `url` crate. -/
structure UrlCrate where
  Url : Type
  parse : String → Option Url
  text : Url → String
  scheme : Url → String
  host : Url → Option Host
  hostStr : Url → Option String
  username : Url → String
  password : Url → Option String
  port : Url → Option ℕ
  path : Url → String
  query : Url → Option String
  fragment : Url → Option String
  queryPairs : Url → List (String × String)
  setScheme : Url → String → Option Url
  setPort : Url → Option ℕ → Option Url
  setQuery : Url → Option String → Url
  /-- `query_pairs_mut` with one `append_pair` a pair. -/
  appendPairs : Url → List (String × String) → Url

/-- `browser_safe_image_url`, and what `trusted_remote_url` of `met.rs` allows. -/
def UrlCrate.browserSafe (crate : UrlCrate) (url : crate.Url) : Bool :=
  match crate.host url with
  | none => false
  | some host => crate.scheme url = "https" || (crate.scheme url = "http" && host.isLocal)

/-! ## Licenses -/

inductive LicensePolicyError
  | restricted
  | unknown
  deriving DecidableEq

/-- `CommercialLicense::try_from`. -/
def CommercialLicense.tryFrom (raw : String) : Except LicensePolicyError CommercialLicense :=
  let normalized := lowered (String.ofList (trim raw.toList))
  if ["cc0", "cc0 1.0", "https://creativecommons.org/publicdomain/zero/1.0",
      "https://creativecommons.org/publicdomain/zero/1.0/"].contains normalized then
    .ok .cc0
  else if ["public domain", "public domain mark", "public domain mark 1.0",
      "https://creativecommons.org/publicdomain/mark/1.0",
      "https://creativecommons.org/publicdomain/mark/1.0/"].contains normalized then
    .ok .publicDomain
  else if ["cc by", "cc by 1.0", "cc by 2.0", "cc by 2.5", "cc by 3.0", "cc by 4.0",
      "https://creativecommons.org/licenses/by/1.0", "https://creativecommons.org/licenses/by/2.0",
      "https://creativecommons.org/licenses/by/2.5", "https://creativecommons.org/licenses/by/3.0",
      "https://creativecommons.org/licenses/by/4.0", "https://creativecommons.org/licenses/by/1.0/",
      "https://creativecommons.org/licenses/by/2.0/",
      "https://creativecommons.org/licenses/by/2.5/",
      "https://creativecommons.org/licenses/by/3.0/",
      "https://creativecommons.org/licenses/by/4.0/"].contains normalized then
    .ok .ccBy
  else if ["cc by-sa", "cc by-sa 4.0", "cc by-nc", "cc by-nc 4.0", "cc by-nd", "cc by-nd 4.0",
      "cc by-nc-sa", "cc by-nc-sa 4.0", "cc by-nc-nd", "cc by-nc-nd 4.0",
      "https://creativecommons.org/licenses/by-sa/4.0",
      "https://creativecommons.org/licenses/by-nc/4.0",
      "https://creativecommons.org/licenses/by-nd/4.0",
      "https://creativecommons.org/licenses/by-nc-sa/4.0",
      "https://creativecommons.org/licenses/by-nc-nd/4.0"].contains normalized then
    .error .restricted
  else .error .unknown

def SourceKind.label : SourceKind → String
  | .artInstituteChicago => "Art Institute of Chicago"
  | .clevelandMuseum => "Cleveland Museum of Art"
  | .metropolitanMuseum => "The Met"
  | .smithsonian => "Smithsonian"
  | .wikimediaCommons => "Wikimedia Commons"

inductive ArtworkDropReason
  | notPublicDomain
  | missingSourceId
  | missingTitle
  | missingImage
  deriving DecidableEq

end Summoners.Cceroby
