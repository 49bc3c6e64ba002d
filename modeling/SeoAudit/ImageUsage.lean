import SeoAudit.Table
import SeoAudit.Total

/-! Which pages use an image. Images stand in the order in which they were first
added, and so do the pages of each; a page is listed once for an image. `respond` takes
additions and questions one by one. -/
namespace SeoAudit

structure ImageUsage where
  entries : Table (List Text) := []
deriving DecidableEq, Repr, Inhabited

namespace ImageUsage

def withPage (page : Text) : Option (List Text) → List Text
  | none => [page]
  | some pages => if page ∈ pages then pages else pages ++ [page]

def add (image page : Text) (u : ImageUsage) : ImageUsage :=
  ⟨Table.update image (withPage page) u.entries⟩

def pagesFor (image : Text) (u : ImageUsage) : List Text :=
  (Table.get? image u.entries).getD []

def contains (image : Text) (u : ImageUsage) : Bool := Table.contains image u.entries

/-- Whether more than one page uses the image; no image and an empty one are never shared. -/
def isShared (image : Option Text) (u : ImageUsage) : Bool :=
  match image with
  | none | some [] => false
  | some i => decide (1 < (u.pagesFor i).length)

def shared (u : ImageUsage) : Table (List Text) :=
  (u.entries.filter fun (_, pages) => 1 < pages.length).mergeSort
    fun a b => decide (b.2.length ≤ a.2.length)

def size (u : ImageUsage) : Nat := u.entries.length

def pageTotal (u : ImageUsage) : Nat := totalOf (fun (_, pages) => pages.length) u.entries

/-- One more page for an image, or a question. No image stands for one that is not named. -/
inductive Request where
  | add (image page : Text)
  | pagesFor (image : Text)
  | isShared (image : Option Text)
  | contains (image : Option Text)
  | shared
  | entries
  | pageTotal
  | size
deriving DecidableEq, Repr

inductive Reply where
  | done
  | truth (holds : Bool)
  | count (n : Nat)
  | pages (pages : List Text)
  | table (entries : Table (List Text))
deriving DecidableEq, Repr

def respond : Request → StateM ImageUsage Reply
  | .add image page => do
    modify (add image page)
    return .done
  | .pagesFor image => return .pages ((← get).pagesFor image)
  | .isShared image => return .truth ((← get).isShared image)
  | .contains image => return .truth (image.any (← get).contains)
  | .shared => return .table (← get).shared
  | .entries => return .table (← get).entries
  | .pageTotal => return .count (← get).pageTotal
  | .size => return .count (← get).size

theorem pagesFor_add_self (image page : Text) (u : ImageUsage) :
    (u.add image page).pagesFor image = withPage page (Table.get? image u.entries) := by
  simp [pagesFor, add, Table.get?_update_self]

end ImageUsage
end SeoAudit
