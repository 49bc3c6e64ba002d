import SeoAudit.Page.Analysis

/-! The pages of a project: all page files below a directory, sorted by the
components of their paths, without those whose path holds an ignored text. Some
directories are never entered. -/
namespace SeoAudit
namespace Discovery

def pageSuffix : Text := ".vue"

def closedDirectories : List Text := [".git", "node_modules", ".nuxt", ".output"]

def isPage (name : Text) : Bool :=
  (Page.before? pageSuffix name).isSome

mutual

/-- The paths of the page files at or below an entry of a directory. -/
def pagesAt (name : Text) : Tree → List (List Text)
  | .file _ => if isPage name then [[name]] else []
  | .directory entries =>
    if closedDirectories.contains name then [] else (pagesIn entries).map (name :: ·)

def pagesIn : List (Text × Tree) → List (List Text)
  | [] => []
  | (name, node) :: entries => pagesAt name node ++ pagesIn entries

end

def componentsLe : List Text → List Text → Bool
  | [], _ => true
  | _ :: _, [] => false
  | a :: as, b :: bs => decide (a < b) || (a == b && componentsLe as bs)

def pathText (components : List Text) : Text := Text.joined "/" components

def isIgnored (ignored : List Text) (path : Text) : Bool := ignored.any (Text.mentions path)

def nameOf (path : Text) : Text :=
  (Page.before? pageSuffix path).getD path

def listingError (directory : Path) (reason : Text) : Text :=
  "Error reading directory " ++ directory.text ++ ": " ++ reason

def all (tree : Tree) (directory : Path) : Except PathError (Except Text (List (List Text))) :=
  match tree.lookup directory with
  | .error (.badPath e) => .error e
  | .error .missing => .ok (.error (listingError directory "No such file or directory"))
  | .error .notDirectory | .ok (.file _) => .ok (.error (listingError directory "Not a directory"))
  | .error .tooLong => .ok (.error (listingError directory "File name too long"))
  | .ok (.directory entries) => .ok (.ok ((pagesIn entries).mergeSort componentsLe))

structure Found where
  pages : List (List Text) := []
  skipped : List Text := []
  error : Option Text := none
deriving DecidableEq, Repr

/-- The pages of a directory sorted out by the ignored texts, or the listing error. -/
def Found.ofListing (ignored : List Text) : Except Text (List (List Text)) → Found
  | .error message => { error := some message }
  | .ok pages =>
    let isOut (components : List Text) : Bool := isIgnored ignored (pathText components)
    { pages := pages.filter (!isOut ·), skipped := (pages.filter isOut).map pathText }

def find (tree : Tree) (directory : Path) (ignored : List Text) : Except PathError Found :=
  (all tree directory).map (Found.ofListing ignored)

def fullPath (directory : Path) (components : List Text) : Path := directory.below components

def load (tree : Tree) (directory : Path) (components : List Text) :
    Except Tree.ReadError Document :=
  (tree.readText (fullPath directory components)).map fun text =>
    { path := pathText components, name := nameOf (pathText components), text }

end Discovery
end SeoAudit
