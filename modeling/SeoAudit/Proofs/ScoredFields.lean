import SeoAudit.Proofs.Lists
import SeoAudit.Score.Advice

/-! What of a page is scored. A function on pages that keeps path, name, metadata, headings
and images leaves the score card as it is; the images and their category depend on less. -/
namespace SeoAudit

namespace Page

structure Keeps (g : Page → Page) : Prop where
  path (p : Page) : (g p).path = p.path
  name (p : Page) : (g p).name = p.name
  metadata (p : Page) : (g p).metadata = p.metadata
  headings (p : Page) : (g p).headings = p.headings
  images (p : Page) : (g p).images = p.images

end Page

namespace Coverage

def map (g : Page → Page) (c : Coverage) : Coverage :=
  { c with covered := c.covered.map g, uncovered := c.uncovered.map g }

section
variable (g : Page → Page) (c : Coverage)

@[simp] theorem map_covered : (c.map g).covered = c.covered.map g := rfl

@[simp] theorem map_uncovered : (c.map g).uncovered = c.uncovered.map g := rfl

@[simp] theorem map_pages : (c.map g).pages = c.pages.map g := List.map_append.symm

@[simp] theorem map_size : (c.map g).size = c.size := by
  simp [size]

end

section
variable {g : Page → Page} (c : Coverage)

theorem ofPages_map (isCovered : ∀ p, (g p).isCovered = p.isCovered)
    (name : ∀ p, (g p).name = p.name) (image : ∀ p, (g p).metadata.image = p.metadata.image)
    (pages : List Page) : ofPages (pages.map g) = (ofPages pages).map g := by
  have images (p : Page) : imageOf (g p) = imageOf p := by
    simp only [imageOf, image]
  have add (u : ImageUsage) (p : Page) : addImage u (g p) = addImage u p := by
    simp only [addImage, images, name]
  simp only [ofPages, map, List.filter_map, List.foldl_map, List.map_map, Function.comp_def,
    isCovered, name, add, images]

theorem imagesWithoutAlt_map (images : ∀ p, (g p).images = p.images) :
    (c.map g).imagesWithoutAlt = c.imagesWithoutAlt := by
  simp only [imagesWithoutAlt, map_covered, sumOf_map, images]

theorem totalImages_map (images : ∀ p, (g p).images = p.images) :
    (c.map g).totalImages = c.totalImages := by
  simp only [totalImages, map_covered, sumOf_map, images]

theorem imagesCategory_map (name : ∀ p, (g p).name = p.name)
    (images : ∀ p, (g p).images = p.images) : (c.map g).imagesCategory = c.imagesCategory := by
  simp only [imagesCategory, totalImages_map c images, imagesWithoutAlt_map c images, map_covered,
    List.flatMap_map, attributed, name, images]

end

section
variable {g : Page → Page} (keeps : Page.Keeps g) (c : Coverage)
include keeps

theorem metaIssues_map : (c.map g).metaIssues = c.metaIssues := by
  simp only [metaIssues, map_covered, map_uncovered, List.flatMap_map, List.map_map,
    Function.comp_def, attributed, keeps.name, keeps.metadata]

theorem metaCategory_map : (c.map g).metaCategory = c.metaCategory := by
  simp only [metaCategory, metaIssues_map keeps, metaPenalty, map_covered, map_uncovered,
    totalOf_map, List.length_map, keeps.metadata]

theorem structuredCategory_map : (c.map g).structuredCategory = c.structuredCategory := by
  have rich (p : Page) : hasRichSchema (g p) = hasRichSchema p := by
    simp only [hasRichSchema, keeps.metadata]
  simp only [structuredCategory, structuredPoints, structuredIssues, map_covered, map_pages,
    List.countP_map, List.any_map, List.length_map, List.filter_map, List.map_map,
    Function.comp_def, rich, keeps.metadata, keeps.name]

theorem socialPoints_map : (c.map g).socialPoints = c.socialPoints := by
  simp only [socialPoints, map_covered, map_size, List.countP_map, Function.comp_def,
    keeps.metadata]

theorem socialCategory_map : (c.map g).socialCategory = c.socialCategory := by
  have issue : socialIssue? ∘ g = socialIssue? := by
    funext p
    simp only [Function.comp_apply, socialIssue?, keeps.metadata, keeps.name]
  simp only [socialCategory, socialPoints_map keeps, map_covered, List.filterMap_map, issue]

theorem fewSchemas_map : (c.map g).fewSchemas = c.fewSchemas := by
  have mean : (c.map g).schemasPerPage = c.schemasPerPage := by
    simp only [schemasPerPage, map_covered, totalOf_map, List.length_map, keeps.metadata]
  simp only [fewSchemas, mean, map_covered]
  cases c.covered with
  | nil => rfl
  | cons p rest =>
    rw [List.map_cons]
    cases c.schemasPerPage.toRat? <;> rfl

end
end Coverage

theorem Sitemap.ofUrls_map {g : Page → Page} (name : ∀ p, (g p).name = p.name)
    (source : Option Text) (listed : List Text) (c : Coverage) :
    ofUrls source listed (c.map g) = ofUrls source listed c := by
  have url (p : Page) : (g p).url = p.url := by
    rw [Page.url, Page.url, name]
  simp only [ofUrls, missingFrom, Coverage.map_covered, List.filter_map, List.map_map,
    Function.comp_def, url]

namespace Findings
variable {g : Page → Page} (f : Findings)

def map (g : Page → Page) (f : Findings) : Findings := { f with coverage := f.coverage.map g }

@[simp] theorem map_coverage : (f.map g).coverage = f.coverage.map g := rfl

theorem map_mk (g : Page → Page) (coverage : Coverage) (sitemap : Sitemap)
    (robots : Option Robots) :
    map g { coverage, sitemap, robots } = { coverage := coverage.map g, sitemap, robots } := rfl

section
variable (images : ∀ p, (g p).images = p.images)
include images

theorem score_totalImages_map : (f.map g).score.totalImages = f.score.totalImages := by
  simp only [score, map_coverage, Coverage.map_size, Coverage.totalImages_map _ images]
  split <;> rfl

theorem score_imagesWithoutAlt_map :
    (f.map g).score.imagesWithoutAlt = f.score.imagesWithoutAlt := by
  simp only [score, map_coverage, Coverage.map_size, Coverage.imagesWithoutAlt_map _ images]
  split <;> rfl

theorem category_imagesMedia_map (name : ∀ p, (g p).name = p.name) :
    (f.map g).category .imagesMedia = f.category .imagesMedia := by
  simp only [category, map_coverage, Coverage.map_size, Coverage.imagesCategory_map _ name images]

end

variable (keeps : Page.Keeps g)
include keeps

theorem technicalCategory_map : (f.map g).technicalCategory = f.technicalCategory := by
  have penalty : (f.map g).technicalPenalty = f.technicalPenalty := by
    simp only [technicalPenalty, map_coverage, Coverage.map_covered, List.countP_map, totalOf_map,
      Function.comp_def, keeps.metadata, keeps.headings]
    rfl
  have issues : (f.map g).technicalIssues = f.technicalIssues := by
    simp only [technicalIssues, map_coverage, Coverage.map_covered, List.flatMap_map, attributed,
      keeps.name, keeps.headings]
    rfl
  rw [technicalCategory, technicalCategory, penalty, issues]

theorem category_map (a : Area) : (f.map g).category a = f.category a := by
  have technical := technicalCategory_map f keeps
  cases a with
  | metaTags =>
    simp only [category, map_coverage, Coverage.map_size, Coverage.metaCategory_map keeps]
  | technical => simp only [category, map_coverage, Coverage.map_size, technical]
  | structuredData =>
    simp only [category, map_coverage, Coverage.map_size, Coverage.structuredCategory_map keeps]
  | imagesMedia => exact category_imagesMedia_map f keeps.images keeps.name
  | social =>
    simp only [category, map_coverage, Coverage.map_size, Coverage.socialCategory_map keeps]

theorem recommendations_map : (f.map g).recommendations = f.recommendations := by
  have schema (name : Text) : (f.coverage.map g).hasSchema name = f.coverage.hasSchema name := by
    simp only [Coverage.hasSchema, Coverage.map_covered, List.any_map, Function.comp_def,
      keeps.metadata]
  have path (part : Text) : (f.coverage.map g).hasPathWith part = f.coverage.hasPathWith part := by
    simp only [Coverage.hasPathWith, Coverage.map_covered, List.any_map, Function.comp_def,
      keeps.path]
  have advice : (f.map g).advice = f.advice := by
    simp only [Findings.advice, map_coverage, schema, path, Coverage.fewSchemas_map keeps,
      Coverage.map_covered, Coverage.map_uncovered, List.length_map, List.isEmpty_map]
    rfl
  rw [recommendations, recommendations, advice]

theorem quickFixes_map : (f.map g).quickFixes = f.quickFixes := by
  have fixes : (f.map g).fixes = f.fixes := by
    simp only [Findings.fixes, map_coverage, Coverage.socialPoints_map keeps,
      Coverage.metaIssues_map keeps, Coverage.totalImages_map _ keeps.images,
      Coverage.imagesWithoutAlt_map _ keeps.images, altGain, Coverage.map_uncovered,
      List.length_map, List.isEmpty_map]
  unfold quickFixes
  rw [fixes]

theorem score_map : (f.map g).score = f.score := by
  have categories : (f.map g).category = f.category := funext (category_map f keeps)
  simp only [score, categories, recommendations_map f keeps, quickFixes_map f keeps, map_coverage,
    Coverage.map_size, Coverage.totalImages_map _ keeps.images,
    Coverage.imagesWithoutAlt_map _ keeps.images]
  rfl

end Findings
end SeoAudit
