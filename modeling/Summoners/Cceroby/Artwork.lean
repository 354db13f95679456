import Summoners.Cceroby.ArtworkKey

/-! # Artworks and provider outcomes

The normalized records of `core.rs`, as the providers return them.
-/

namespace Summoners.Cceroby
set_option autoImplicit false

inductive CommercialLicense
  | cc0
  | publicDomain
  | ccBy
  deriving DecidableEq

def CommercialLicense.label : CommercialLicense → String
  | .cc0 => "CC0"
  | .publicDomain => "Public domain"
  | .ccBy => "CC BY"

structure ImageUrls where
  thumbnail : String
  display : String
  original : Option String
  deriving DecidableEq

structure Artwork where
  source : SourceKind
  sourceId : String
  title : String
  creator : Option String
  date : Option String
  culture : Option String
  license : CommercialLicense
  imageUrls : ImageUrls
  institution : String
  providerCredit : Option String
  objectUrl : String
  deriving DecidableEq

/-- What `seen` holds of an artwork. -/
def Artwork.key (artwork : Artwork) : SourceKind × String := (artwork.source, artwork.sourceId)

structure ProviderPage where
  source : SourceKind
  artworks : List Artwork
  nextCursor : Option String
  deriving DecidableEq

inductive ProviderNotice
  | unavailable (source : SourceKind)
  | failed (source : SourceKind)
  deriving DecidableEq

inductive ProviderOutcome
  | success (page : ProviderPage)
  | unavailable (source : SourceKind)
  | failed (source : SourceKind)
  deriving DecidableEq

def ProviderOutcome.source : ProviderOutcome → SourceKind
  | .success page => page.source
  | .unavailable source => source
  | .failed source => source

end Summoners.Cceroby
