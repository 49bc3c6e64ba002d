import SeoAudit.Json.Basic

/-! The parameters that a page passes to its metadata generator: three texts,
collections of which only the size is known, and flags. -/
namespace SeoAudit

structure Parameters where
  title : Option Text := none
  description : Option Text := none
  image : Option Text := none
  collections : Table Int := []
  flags : List Text := []
deriving DecidableEq, Repr, Inhabited

namespace Parameters

def collectionNames : List Text := ["faqs", "products", "services", "branches", "news"]

def flagNames : List Text := ["grant", "contactPage", "awards", "breadcrumb"]

def count (p : Parameters) (name : Text) : Int := (Table.get? name p.collections).getD 0

def hasFlag (p : Parameters) (name : Text) : Bool := p.flags.contains name

/-- A stand-in for the item of a collection at a position counted from 1. -/
def placeholder (name : Text) (position : Nat) : Json :=
  let label := Json.string (name ++ "-" ++ toString position)
  .object [("name", label), ("question", label), ("answer", .string "")]

def placeholders (name : Text) (count : Int) : Json :=
  .array ((List.range count.toNat).map fun i => placeholder name (i + 1))

def texts (p : Parameters) : List (Text × Option Text) :=
  [("title", p.title), ("description", p.description), ("image", p.image)]

/-- The argument object handed to the generator: the texts that are there, an
array of stand-ins for each collection, and an empty object for each flag. -/
def arguments (p : Parameters) : Members :=
  Table.ofList <|
    (p.texts.filterMap fun (name, text) => text.map fun t => (name, Json.string t)) ++
    (p.collections.map fun (name, count) => (name, placeholders name count)) ++
    (p.flags.map fun name => (name, Json.object []))

end Parameters
end SeoAudit
