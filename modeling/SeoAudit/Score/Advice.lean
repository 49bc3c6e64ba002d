import SeoAudit.Score.Categories

/-! Recommendations and quick fixes drawn from the findings, and the score card. -/
namespace SeoAudit

inductive Recommendation where
  | implementSeo
  | completeSitemap
  | productSchema
  | breadcrumbSchema
  | faqSchema
  | businessSchema
  | moreSchemas (perPage : Rat)
  | addSitemap
  | addRobots
  | none
deriving DecidableEq

def Recommendation.message : Recommendation → Text
  | implementSeo => "Add generateSEO() or useSeoMeta() to pages missing SEO implementation"
  | completeSitemap => "Add missing pages to sitemap configuration"
  | productSchema => "Consider adding Product schema for product-related pages"
  | breadcrumbSchema =>
    "Consider adding BreadcrumbList schema for better navigation context in search results"
  | faqSchema => "Consider adding FAQ schema to relevant pages for rich snippets"
  | businessSchema =>
    "Consider adding LocalBusiness schema to contact pages with branch information"
  | moreSchemas perPage =>
    s!"Average {oneDecimal perPage} schemas per page - consider adding more structured data"
  | addSitemap => "Consider adding a sitemap for better SEO"
  | addRobots => "Add robots configuration (@nuxtjs/robots or robots.txt)"
  | none => "SEO implementation looks good! Consider adding more structured data types."

inductive QuickFix where
  | addTags (points : Number)
  | addAlt (images points : Int)
  | adjustLengths
  | coverPages (pages : Nat)
  | none
deriving DecidableEq

def QuickFix.message : QuickFix → Text
  | addTags points => s!"Add Open Graph tags to all pages (impact: +{points.points} points)"
  | addAlt images points => s!"Add alt text to {images} images (impact: +{points} points)"
  | adjustLengths => "Optimize title and description lengths (impact: +2-5 points)"
  | coverPages pages => s!"Add SEO to {pages} pages (impact: +{pages * 2} points)"
  | none => "SEO implementation is well optimized! Consider adding more structured data types."

namespace Coverage

def hasSchema (c : Coverage) (name : Text) : Bool :=
  c.covered.any fun p => p.metadata.schemas.any (·.name == name)

def hasPathWith (c : Coverage) (part : Text) : Bool :=
  c.covered.any fun p => Text.mentions p.path part

def schemasPerPage (c : Coverage) (divide : Int → Int → Binary64 := ratio) : Binary64 :=
  divide (totalOf (·.metadata.schemas.length) c.covered) c.covered.length

def fewSchemas (c : Coverage) (divide : Int → Int → Binary64 := ratio) : List Recommendation :=
  match c.covered, (c.schemasPerPage divide).toRat? with
  | _ :: _, some mean => if mean < 3 then [.moreSchemas mean] else []
  | _, _ => []

end Coverage

namespace Findings

def listed {α : Type} (condition : Bool) (a : α) : List α := if condition then [a] else []

def advice (f : Findings) (divide : Int → Int → Binary64 := ratio) : List Recommendation :=
  let c := f.coverage
  listed (!c.uncovered.isEmpty) .implementSeo ++
  listed (f.sitemap.hasSource && !f.sitemap.missing.isEmpty) .completeSitemap ++
  listed (c.hasPathWith "product" && !c.hasSchema "Product") .productSchema ++
  listed (!c.hasSchema "BreadcrumbList" && 3 < c.covered.length) .breadcrumbSchema ++
  listed (!c.hasSchema "FAQPage") .faqSchema ++
  listed (c.hasPathWith "contact" && !c.hasSchema "LocalBusiness") .businessSchema ++
  c.fewSchemas divide ++
  listed (!f.sitemap.hasSource) .addSitemap ++
  listed (!f.hasRobots) .addRobots

def recommendations (f : Findings) (divide : Int → Int → Binary64 := ratio) :
    List Recommendation :=
  match f.advice divide with
  | [] => [.none]
  | advice => advice

def altGain (c : Coverage) (divide : Int → Int → Binary64 := ratio) : Int :=
  shareOfMax (divide c.imagesWithoutAlt c.totalImages)

def mentionsLength (issue : Text) : Bool := Text.anyOf ["too short", "too long"] issue

def fixes (f : Findings) (divide : Int → Int → Binary64 := ratio) : List QuickFix :=
  let c := f.coverage
  let social := clampPoints (c.socialPoints divide)
  listed (social.lt 10) (.addTags (Number.add (.whole categoryMax) (negated social))) ++
  listed (0 < c.totalImages && 0 < c.imagesWithoutAlt)
    (.addAlt c.imagesWithoutAlt (altGain c divide)) ++
  listed (c.metaIssues.any mentionsLength) .adjustLengths ++
  listed (!c.uncovered.isEmpty) (.coverPages c.uncovered.length)
where
  /-- The negative of a number. -/
  negated : Number → Number
    | .whole n => .whole (-n)
    | .fraction x => .fraction x.neg

def quickFixes (f : Findings) (divide : Int → Int → Binary64 := ratio) : List QuickFix :=
  match f.fixes divide with
  | [] => [.none]
  | fixes => fixes

def checkShare (count total : Int) : Except RoundingError Unit := do
  let share ← Number.wholeQuotient count total
  discard (Binary64.mul share (.number categoryMax)).roundHalf

/-- Refuses image counts that no points can be given for. Counts of which the images
without alternative text are a part always pass. -/
def checkImages (f : Findings) : Except RoundingError Unit := do
  let total := f.coverage.totalImages
  let withoutAlt := f.coverage.imagesWithoutAlt
  if f.coverage.size ≠ 0 && 0 < total then
    checkShare (total - withoutAlt) total
    if 0 < withoutAlt then checkShare withoutAlt total

def score (f : Findings) (divide : Int → Int → Binary64 := ratio) : ScoreCard :=
  let categories := Area.all.map (f.category · divide)
  if f.coverage.size = 0 then { categories, sitemap := f.sitemap }
  else
    { categories, sitemap := f.sitemap
      totalImages := f.coverage.totalImages
      imagesWithoutAlt := f.coverage.imagesWithoutAlt
      recommendations := (f.recommendations divide).map Recommendation.message
      quickFixes := (f.quickFixes divide).map QuickFix.message }

def card (f : Findings) : Except RoundingError ScoreCard := do
  f.checkImages
  pure f.score

end Findings
end SeoAudit
