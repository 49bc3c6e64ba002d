import SeoAudit.Score.Advice

/-! The result of an audit: scored categories, both lists of pages, image usage,
sitemap and robots findings, advice, warnings and errors. -/
namespace SeoAudit

structure Report where
  project : Text
  pagesDir : Text
  categories : List Category
  covered : List Page
  uncovered : List Page
  imageUsage : ImageUsage
  withoutImage : List Text
  sitemap : Sitemap
  robots : Robots
  recommendations : List Text := []
  quickFixes : List Text := []
  warnings : List Text := []
  errors : List Text := []
  totalImages : Int := 0
  imagesWithoutAlt : Int := 0
deriving Repr

namespace Report

def ofCard (project pagesDir : Text) (coverage : Coverage) (card : ScoreCard) (robots : Robots)
    (warnings errors : List Text) : Report where
  project := project
  pagesDir := pagesDir
  categories := card.categories
  covered := coverage.covered
  uncovered := coverage.uncovered
  imageUsage := coverage.imageUsage
  withoutImage := coverage.withoutImage
  sitemap := card.sitemap
  robots := robots
  recommendations := card.recommendations
  quickFixes := card.quickFixes
  warnings := warnings
  errors := errors
  totalImages := card.totalImages
  imagesWithoutAlt := card.imagesWithoutAlt

def totalScore (r : Report) : Number := Number.sum (r.categories.map (·.score))

def maxScore (r : Report) : Number := Number.sum (r.categories.map (·.maxScore))

def percentage (r : Report) : Int := Number.percentOf r.totalScore r.maxScore

def pageCount (r : Report) : Nat := r.covered.length + r.uncovered.length

def isCritical (c : Category) : Bool :=
  !c.issues.isEmpty &&
    c.score.lt (.fraction (Binary64.mul c.maxScore.toBinary64 (Binary64.ofRat (3 / 5))))

/-- Up to three issues of each critical category, five in all. -/
def criticalIssues (r : Report) : List Text :=
  ((r.categories.filter isCritical).flatMap (·.issues.take 3)).take 5

def checkPercentages (r : Report) : Except RoundingError Unit := do
  let total ← Number.sum? (r.categories.map (·.score))
  let most ← Number.sum? (r.categories.map (·.maxScore))
  discard (Number.percent total most)
  r.categories.forM fun c => discard (Number.percent c.score c.maxScore)

def checkPoints (r : Report) : Except RoundingError Unit := do
  (r.categories.filter (!·.issues.isEmpty)).forM fun c => discard c.maxScore.toBinary?
  discard r.totalScore.toBinary?
  r.categories.forM fun c => discard c.score.toBinary?

/-- The report, if its numbers can be shown. A report whose scores lie between 0 and 20
always can. -/
def checked (r : Report) : Except RoundingError Report := do
  r.checkPercentages
  r.checkPoints
  pure r

def schemaPages (r : Report) : Table (List Text) :=
  (r.covered.flatMap fun p => p.metadata.schemas.map fun s => (s.name, p.path)).foldl
    (fun t (name, path) => Table.update name (fun paths => paths.getD [] ++ [path]) t) []

/-- The types of schema with their pages, the most common first. -/
def schemaSummary (r : Report) : Table (List Text) :=
  r.schemaPages.mergeSort fun a b => decide (b.2.length ≤ a.2.length)

end Report

inductive Assessment where
  | excellent | good | needsImprovement | poor
deriving DecidableEq, Repr

namespace Assessment

def ofPercentage (percentage : Int) : Assessment :=
  if 90 ≤ percentage then excellent
  else if 70 ≤ percentage then good
  else if 50 ≤ percentage then needsImprovement
  else poor

def text : Assessment → Text
  | excellent => "Excellent!"
  | good => "Good"
  | needsImprovement => "Needs Improvement"
  | poor => "Poor"

end Assessment
end SeoAudit
