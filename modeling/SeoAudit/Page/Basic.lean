import SeoAudit.Markup.Headings
import SeoAudit.Markup.Images
import SeoAudit.Metadata.Basic

/-! Everything learned about one page. A page is covered when it declares its
metadata, through the generator or by hand, and puts it into the head. -/
namespace SeoAudit

structure Page where
  path : Text
  name : Text
  callsGenerator : Bool
  callsSeoMeta : Bool
  callsHead : Bool
  metadata : Metadata
  headings : Headings
  images : Images
  params : Option Parameters := none
  note : Option Text := none
deriving DecidableEq, Repr, Inhabited

namespace Page

def isCovered (p : Page) : Bool := (p.callsGenerator || p.callsSeoMeta) && p.callsHead

def before? (ending text : Text) : Option Text :=
  (Text.after? ending.reverse text.reverse).map List.reverse

/-- The public path of a page name: an index page stands for its directory. -/
def urlOf (name : Text) : Text :=
  if name = "index" then "/"
  else match before? "/index" name with
    | some directory => "/" ++ directory
    | none => "/" ++ name

def url (p : Page) : Text := urlOf p.name

end Page
end SeoAudit
