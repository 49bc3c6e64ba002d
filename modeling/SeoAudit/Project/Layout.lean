import SeoAudit.Config

/-! Where the files of a project are. A configured path counts when something is
there; otherwise the first usual place that exists is taken. -/
namespace SeoAudit

structure Layout where
  root : Path
  pagesDir : Path
  sitemapFile : Option Path := none
  frameworkConfig : Option Path := none
  generatorFile : Option Path := none
  ignorePaths : List Text := []
deriving DecidableEq, Repr, Inhabited

namespace Layout

def pagesDirCandidates : List Text := ["app/pages", "pages", "src/pages"]

def sitemapCandidates : List Text :=
  ["server/api/sitemap/static.ts", "server/api/sitemap.ts", "server/sitemap.ts"]

def frameworkCandidates : List Text := ["nuxt.config.ts", "nuxt.config.js"]

def places (root : Path) (configured : Option Path) (candidates : List Text) : List Path :=
  configured.toList ++ candidates.map root.join

def find (tree : Tree) (root : Path) (configured : Option Path) (candidates : List Text) :
    Except PathError (Option Path) :=
  Tree.firstWhere tree.existsAt (places root configured candidates)

inductive Fault where
  | noPagesDirectory
  | badPath (error : PathError)
deriving DecidableEq, Repr

def Fault.message : Fault → Text
  | noPagesDirectory =>
    "Could not find a pages directory (searched: " ++ Text.joined ", " pagesDirCandidates ++ ")"
  | badPath error => error.message

def pagesPlaces (config : Config) : List Path :=
  places config.root config.pagesDir pagesDirCandidates

def filePlaces (config : Config) : List Path :=
  places config.root config.sitemapFile sitemapCandidates ++
  places config.root config.frameworkConfig frameworkCandidates ++
  places config.root config.generatorFile Generator.defaultCandidates

/-- The directory of the pages, if what is found for it is one. -/
def pagesDirectory (tree : Tree) (config : Config) : Except PathError (Option Path) := do
  match ← find tree config.root config.pagesDir pagesDirCandidates with
  | none => pure none
  | some found => if ← tree.isDirectoryAt found then pure (some found) else pure none

def withPages (tree : Tree) (config : Config) (pagesDir : Path) : Except PathError Layout := do
  let sitemapFile ← find tree config.root config.sitemapFile sitemapCandidates
  let frameworkConfig ← find tree config.root config.frameworkConfig frameworkCandidates
  let generatorFile ← find tree config.root config.generatorFile Generator.defaultCandidates
  pure {
    root := config.root
    pagesDir, sitemapFile, frameworkConfig, generatorFile
    ignorePaths := config.ignorePaths }

def detect (tree : Tree) (config : Config) : Except Fault Layout := do
  match ← (pagesDirectory tree config).mapError .badPath with
  | none => throw .noPagesDirectory
  | some pagesDir => (withPages tree config pagesDir).mapError .badPath

def projectName (l : Layout) : Text := if l.root.name.isEmpty then "project" else l.root.name

end Layout
end SeoAudit
