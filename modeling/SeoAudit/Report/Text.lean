import SeoAudit.Report.Basic

/-! The report as plain text, built as a list of lines. -/
namespace SeoAudit
namespace Report

def padRight (width : Nat) (s : Text) : Text := s ++ List.replicate (width - s.length) (.char ' ')

def padLeft (width : Nat) (s : Text) : Text := List.replicate (width - s.length) (.char ' ') ++ s

def rule : Text := "========================================="

def commaList (texts : List Text) : Text := Text.joined ", " texts

def shownText? : Option Text → Option Text
  | none | some [] => none
  | some s => some s

def unlessEmpty {α : Type} (items : List α) (lines : List Text) : List Text :=
  if items.isEmpty then [] else lines

def marker (percentage : Int) : Text :=
  if 80 ≤ percentage then "[ok]  " else if 60 ≤ percentage then "[warn]" else "[fail]"

def categoryLine (c : Category) : Text :=
  marker c.percentage ++ " " ++ padRight 20 c.name ++ " " ++ padLeft 4 c.score.points ++
    s!"/{c.maxScore.text} ({c.percentage}%)"

def criticalLines (issues : List Text) : List Text :=
  unlessEmpty issues <|
    "" :: s!"Critical Issues ({issues.length}):" :: issues.map fun issue => "  x " ++ issue

def abridged (description : Text) : Text :=
  if 60 < description.length then description.take 60 ++ "..." else description

def collectionLabels : List (Text × Text) :=
  [("faqs", "FAQ(s)"), ("products", "Product(s)"), ("services", "Service(s)"),
    ("branches", "Branch(es)"), ("news", "News Article(s)")]

def collectionSizes (params : Option Parameters) : List Text :=
  collectionLabels.filterMap fun (name, label) =>
    let size := params.elim 0 fun p => Parameters.count p name
    if size = 0 then none else some (toString size ++ " " ++ label)

def measured (label text : Text) (length : Int) (band : Option Text) : Text :=
  let mark := if band = some Band.optimal.text then "" else " !"
  "    " ++ label ++ ": \"" ++ text ++ s!"\" ({length} chars)" ++ mark

def pageLines (usage : ImageUsage) (p : Page) : List Text :=
  let m := p.metadata
  let schemas := commaList (m.schemas.map Schema.label)
  let sizes := Text.joined " | " (collectionSizes p.params)
  List.flatten [
    ["  + " ++ p.path],
    [if schemas.isEmpty then "    No schemas detected" else "    Schemas: " ++ schemas],
    match shownText? m.title with
    | none => []
    | some title => [measured "Title" title m.titleLength m.titleBand],
    match shownText? m.description with
    | none => []
    | some text => [measured "Description" (abridged text) m.descriptionLength m.descriptionBand],
    match shownText? m.image with
    | none => ["    Image: Missing"]
    | some image => ["    Image: " ++ image ++ (if usage.isShared m.image then " (dup)" else "")],
    if sizes.isEmpty then [] else ["    Other: " ++ sizes],
    match shownText? p.note with
    | none => []
    | some note => ["    Note: " ++ note]]

def uncoveredLines (pages : List Page) : List Text :=
  unlessEmpty pages <|
    "" :: s!"Pages missing SEO ({pages.length})" :: pages.map fun p => "  - " ++ p.path

def pagesLines (r : Report) : List Text :=
  if r.pageCount = 0 then ["No pages found to check"]
  else
    s!"Pages with SEO ({r.covered.length}/{r.pageCount})" ::
      (r.covered.flatMap (pageLines r.imageUsage) ++ uncoveredLines r.uncovered)

/-- A share in whole percent, a half going to the even neighbour. -/
def evenPercent (count total : Nat) : Int :=
  ((ratio (count * 100) total).toRat?.map nearestEven).getD 0

def summaryLines (covered : Nat) (name : Text) (paths : List Text) : List Text :=
  ("  * " ++ name ++ s!": {paths.length} pages ({evenPercent paths.length covered}%)") ::
    (if paths.length ≤ 3 then ["    -> " ++ commaList paths] else [])

def schemaLines (r : Report) : List Text :=
  let instances := totalOf (·.metadata.schemas.length) r.covered
  unlessEmpty r.covered <|
    "" :: "Schema Summary" ::
    s!"  Total schema instances: {instances} across {r.schemaSummary.length} schema types" ::
    r.schemaSummary.flatMap fun (name, paths) => summaryLines r.covered.length name paths

def sharedLine (image : Text) (pages : List Text) : Text :=
  "    - \"" ++ image ++ "\" used by: " ++ commaList pages ++ s!" ({pages.length} pages)"

def imageLines (r : Report) : List Text :=
  unlessEmpty r.imageUsage.entries <| List.flatten [
    ["", "Image Usage Analysis"],
    [if r.withoutImage.isEmpty then "  All pages have images defined"
      else "  Pages without images: " ++ commaList r.withoutImage],
    unlessEmpty r.imageUsage.shared <|
      "  Duplicate images detected:" ::
      r.imageUsage.shared.map fun (image, pages) => sharedLine image pages,
    [s!"  Unique images: {r.imageUsage.size}/{r.imageUsage.pageTotal} pages"]]

def sitemapLines (s : Sitemap) : List Text :=
  if s.hasSource then
    "" :: s!"Sitemap Coverage ({s.listed.length} pages)" ::
      (unlessEmpty s.listed ["  Listed: " ++ commaList s.listed] ++
        unlessEmpty s.missing ["  Missing from sitemap: " ++ commaList s.missing])
  else []

def robotsLines (r : Robots) : List Text :=
  "" :: "Robots Configuration" :: ((if r.configured then "  + " else "  x ") ++ r.message) ::
    if r.hasEnvironmentRules then ["    - Environment-based rules detected"] else []

def remarkLines (title : Text) (remarks : List Text) : List Text :=
  unlessEmpty remarks ("" :: title :: remarks.map fun remark => "  - " ++ remark)

def numbered (items : List Text) : List Text :=
  items.zipIdx.map fun (item, i) => s!"  {i + 1}. " ++ item

def assessmentLine (r : Report) : Text :=
  s!"Final Assessment: {r.percentage}% - " ++ (Assessment.ofPercentage r.percentage).text

def adviceLines (r : Report) : List Text :=
  if r.pageCount = 0 then []
  else List.flatten [
    ["", "Recommendations:"], numbered r.recommendations,
    ["", "Quick Fixes (High Impact):"], numbered (r.quickFixes.take 3),
    ["", r.assessmentLine]]

def headLines (r : Report) : List Text :=
  [rule, "SEO Check Report - " ++ r.project, rule, "",
    s!"Overall Score: {r.totalScore.points}/{r.maxScore.text} ({r.percentage}%)", "",
    "Category Breakdown:"]

def lines (r : Report) : List Text := List.flatten [
  r.headLines, r.categories.map categoryLine, criticalLines r.criticalIssues, [""],
  r.pagesLines, r.schemaLines, r.imageLines, sitemapLines r.sitemap, robotsLines r.robots,
  remarkLines "Warnings" r.warnings, remarkLines "Errors" r.errors, r.adviceLines, [rule]]

def text (r : Report) : Text := Text.ofLines r.lines

end Report
end SeoAudit
