import SeoAudit.Coverage
import SeoAudit.Text.NamedField

/-! URLs that a sitemap source declares, and the covered pages missing from them.
URLs are compared without the slashes around them. -/
namespace SeoAudit

structure Sitemap where
  source : Option Text := none
  listed : List Text := []
  missing : List Text := []
deriving DecidableEq, Repr, Inhabited

namespace Sitemap

def location : Recogniser Text := fun s => do
  let (url, rest) ← NamedField.start "loc" s >>= NamedField.quoted
  if url.isEmpty then none else pure (url, rest)

def isImage (url : Text) : Bool := Text.anyOf ["/img/", ".png", ".jpg"] url

def withoutSlash : Text → Text
  | .char '/' :: rest => rest
  | url => url

def urls (text : Text) : List Text :=
  ((Text.findAll location text).filter (!isImage ·)).map withoutSlash

def bare (url : Text) : Text := Text.stripBy (· = .char '/') url

def missingFrom (listed : List Text) (covered : List Page) : List Text :=
  let declared := listed.map bare
  (covered.filter fun p => !declared.contains (bare p.url)).map Page.url

def ofUrls (source : Option Text) (listed : List Text) (coverage : Coverage) : Sitemap :=
  { source, listed, missing := missingFrom listed coverage.covered }

def hasSource (s : Sitemap) : Bool :=
  match s.source with
  | none | some [] => false
  | some _ => true

end Sitemap
end SeoAudit
