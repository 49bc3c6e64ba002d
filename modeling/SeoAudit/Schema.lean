import SeoAudit.Parameters.Basic
import SeoAudit.Text.Search

/-! Structured-data types of a page, and how call parameters or mere property
names stand for them. -/
namespace SeoAudit

structure Schema where
  name : Text
  count : Option Int := none
  unit : Option Text := none
deriving DecidableEq, Repr, Inhabited

namespace Schema

def label (s : Schema) : Text :=
  match s.count with
  | none => s.name
  | some n =>
    let unit := match s.unit with
      | none | some [] => "items"
      | some u => u
    s.name ++ " (" ++ toString n ++ " " ++ unit ++ ")"

def ofName (name : Text) : Schema where
  name := name

def base : List Schema := [ofName "WebPage", ofName "Organization"]

def ofCollections : List (Text × Text × Text) :=
  [("faqs", "FAQPage", "FAQs"), ("products", "Product", "products"),
    ("services", "Service", "services"), ("branches", "LocalBusiness", "branches"),
    ("news", "NewsArticle", "articles")]

def ofFlags : List (Text × Text) :=
  [("grant", "Grant"), ("contactPage", "ContactPage"), ("awards", "Awards"),
    ("breadcrumb", "BreadcrumbList")]

def ofParameters (p : Parameters) : List Schema :=
  base ++
  (ofCollections.filterMap fun (field, name, unit) =>
    if 0 < p.count field then some { name, count := some (p.count field), unit := some unit }
    else none) ++
  (ofFlags.filterMap fun (field, name) => if p.hasFlag field then some (ofName name) else none)

def hints : List (List Text × Text) :=
  [(["contactPage:"], "ContactPage"), (["grant:"], "Grant"), (["products:"], "Product"),
    (["services:"], "Service"), (["faqs:"], "FAQPage"),
    (["breadcrumb:", "breadcrumbs:"], "BreadcrumbList")]

def ofHints (text : Text) : List Schema :=
  hints.filterMap fun (markers, name) =>
    if Text.anyOf markers text then some (ofName name) else none

end Schema
end SeoAudit
