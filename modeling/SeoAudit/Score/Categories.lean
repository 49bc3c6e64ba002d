import SeoAudit.Score.Basic

/-! The five categories. Two of them start from 20 points and lose points for each
shortfall; all penalties are multiples of one half, so their sum is exact. The
other three are ratios of counts, and each step of a ratio is rounded to binary. -/
namespace SeoAudit

def categoryMax : Nat := 20

def clampPoints (points : Rat) : Number :=
  let bounded : Rat :=
    if points < 0 then 0 else if categoryMax < points then categoryMax else points
  if bounded.den = 1 then .whole bounded.num else .fraction (.number bounded)

def shareOfMax (share : Binary64) : Int := (Binary64.mul share (.number categoryMax)).rounded

def attributed (p : Page) (messages : List Text) : List Text :=
  messages.map fun m => p.name ++ ": " ++ m

namespace Coverage

def metaPenalty (c : Coverage) : Rat :=
  (totalOf (·.metadata.issues.length) c.covered : Nat) / 2 + 2 * (c.uncovered.length : Nat)

def metaIssues (c : Coverage) : List Text :=
  (c.covered.flatMap fun p => attributed p p.metadata.issues) ++
    c.uncovered.map fun p => (p.name ++ ": No SEO implementation" : Text)

def metaCategory (c : Coverage) : Category :=
  Area.metaTags.category (clampPoints (categoryMax - c.metaPenalty)) c.metaIssues

end Coverage

namespace Findings

def sitemapPenalty (f : Findings) : Rat :=
  if 6 < f.sitemap.missing.length then 3 else (f.sitemap.missing.length : Nat) / 2

def technicalPenalty (f : Findings) : Rat :=
  (f.coverage.covered.countP (!·.metadata.canonical) : Nat) +
  (totalOf (·.headings.issues.length) f.coverage.covered : Nat) / 2 +
  (if f.hasRobots then 0 else 3) + f.sitemapPenalty

def technicalIssues (f : Findings) : List Text :=
  (f.coverage.covered.flatMap fun p => attributed p p.headings.issues) ++
  (if f.hasRobots then [] else ["No robots configuration"] : List Text) ++
  (match f.sitemap.missing.length with
    | 0 => []
    | n => [s!"{n} pages missing from sitemap"] : List Text)

def technicalCategory (f : Findings) : Category :=
  Area.technical.category (clampPoints (categoryMax - f.technicalPenalty)) f.technicalIssues

end Findings

namespace Coverage

def richMarkers : List Text := ["Product", "FAQ", "LocalBusiness"]

/-- Whether a page has a type that search engines show as a rich result. -/
def hasRichSchema (p : Page) : Bool :=
  p.metadata.schemas.any fun s => Text.anyOf richMarkers s.name

def structuredPoints (c : Coverage) (divide : Int → Int → Binary64 := ratio) : Int :=
  let withSchemas := c.pages.countP (!·.metadata.schemas.isEmpty)
  let points := shareOfMax (divide withSchemas c.pages.length)
  if c.pages.any hasRichSchema then min categoryMax (points + 2) else points

def structuredIssues (c : Coverage) : List Text :=
  (c.covered.filter (·.metadata.schemas.isEmpty)).map fun p =>
    p.name ++ ": No structured data detected"

def structuredCategory (c : Coverage) (divide : Int → Int → Binary64 := ratio) : Category :=
  Area.structuredData.category (clampPoints (c.structuredPoints divide)) c.structuredIssues

def totalImages (c : Coverage) : Int := sumOf (·.images.total) c.covered

def imagesWithoutAlt (c : Coverage) : Int := sumOf (·.images.withoutAlt) c.covered

def imagePoints (total withoutAlt : Int) (divide : Int → Int → Binary64 := ratio) : Int :=
  if 0 < total then shareOfMax (divide (total - withoutAlt) total) else categoryMax

def imagesCategory (c : Coverage) (divide : Int → Int → Binary64 := ratio) : Category :=
  Area.imagesMedia.category (clampPoints (imagePoints c.totalImages c.imagesWithoutAlt divide))
    (c.covered.flatMap fun p => attributed p p.images.issues)

def tagThreshold : Nat := 4

def hasEnoughTags (tags : Table Bool) : Bool :=
  decide (tagThreshold ≤ (Table.values tags).countP id)

def socialPoints (c : Coverage) (divide : Int → Int → Binary64 := ratio) : Int :=
  let share (tags : Page → Table Bool) : Binary64 :=
    divide (c.covered.countP fun p => hasEnoughTags (tags p)) c.size
  let both := Binary64.add (share (·.metadata.ogTags)) (share (·.metadata.twitterTags))
  shareOfMax (Binary64.mul both Binary64.half)

def isSocial (issue : Text) : Bool := Text.anyOf ["Open Graph", "Twitter"] issue

def socialIssue? (p : Page) : Option Text :=
  match p.metadata.issues.filter isSocial with
  | [] => none
  | issues => some (p.name ++ ": " ++ Text.joined ", " issues)

def socialCategory (c : Coverage) (divide : Int → Int → Binary64 := ratio) : Category :=
  Area.social.category (clampPoints (c.socialPoints divide)) (c.covered.filterMap socialIssue?)

end Coverage

namespace Findings

def category (f : Findings) (a : Area) (divide : Int → Int → Binary64 := ratio) : Category :=
  if f.coverage.size = 0 then a.category 0 []
  else match a with
    | .metaTags => f.coverage.metaCategory
    | .technical => f.technicalCategory
    | .structuredData => f.coverage.structuredCategory divide
    | .imagesMedia => f.coverage.imagesCategory divide
    | .social => f.coverage.socialCategory divide

end Findings
end SeoAudit
