import SeoAudit.ImageUsage
import SeoAudit.Page.Basic

/-! All pages of a project taken together: covered and uncovered pages, each in
order, the images of the covered ones, and the covered pages without an image. -/
namespace SeoAudit

structure Coverage where
  covered : List Page := []
  uncovered : List Page := []
  imageUsage : ImageUsage := {}
  withoutImage : List Text := []
deriving DecidableEq, Repr, Inhabited

namespace Coverage

def pages (c : Coverage) : List Page := c.covered ++ c.uncovered

def size (c : Coverage) : Nat := c.covered.length + c.uncovered.length

def imageOf (p : Page) : Option Text :=
  match p.metadata.image with
  | none | some [] => none
  | some image => some image

def addImage (u : ImageUsage) (p : Page) : ImageUsage :=
  match imageOf p with
  | none => u
  | some image => u.add image p.name

def ofPages (pages : List Page) : Coverage :=
  let covered := pages.filter Page.isCovered
  { covered
    uncovered := pages.filter (!Page.isCovered ·)
    imageUsage := covered.foldl addImage {}
    withoutImage := (covered.filter fun p => (imageOf p).isNone).map (·.name) }

def add (c : Coverage) (p : Page) : Coverage :=
  if p.isCovered then
    let c := { c with covered := c.covered ++ [p] }
    match imageOf p with
    | some image => { c with imageUsage := c.imageUsage.add image p.name }
    | none => { c with withoutImage := c.withoutImage ++ [p.name] }
  else { c with uncovered := c.uncovered ++ [p] }

theorem ofPages_concat (pages : List Page) (p : Page) :
    ofPages (pages ++ [p]) = (ofPages pages).add p := by
  cases covered : p.isCovered with
  | false => simp [ofPages, add, covered]
  | true => cases image : imageOf p <;> simp [ofPages, add, addImage, covered, image]

end Coverage
end SeoAudit
