import SeoAudit.Proofs.PageAnalysis
import SeoAudit.Proofs.Scores

/-! Full marks for a project without advisories. On an analysed page no issue means that
nothing is missing: the required tags and the canonical link are there, and every image
has its alternative text. So each formula of a category comes to 20 points. -/
namespace SeoAudit

structure Page.Faultless (p : Page) : Prop where
  covered : p.isCovered = true
  metadata : p.metadata.issues = []
  headings : p.headings.issues = []
  images : p.images.issues = []
  schemas : p.metadata.schemas ≠ []

instance (p : Page) : Decidable p.Faultless :=
  decidable_of_iff
    (p.isCovered = true ∧ p.metadata.issues = [] ∧ p.headings.issues = [] ∧
      p.images.issues = [] ∧ p.metadata.schemas ≠ [])
    ⟨fun ⟨covered, metadata, headings, images, schemas⟩ =>
      ⟨covered, metadata, headings, images, schemas⟩,
    fun h => ⟨h.covered, h.metadata, h.headings, h.images, h.schemas⟩⟩

/-- A faultless page that has what the categories count. -/
structure Page.EarnsAll (p : Page) : Prop extends Faultless p where
  canonical : p.metadata.canonical = true
  ogTags : Coverage.hasEnoughTags p.metadata.ogTags = true
  twitterTags : Coverage.hasEnoughTags p.metadata.twitterTags = true
  total : 0 ≤ p.images.total
  withoutAlt : p.images.withoutAlt = 0

namespace Metadata
variable {m : Metadata} {start : String} {required : List Text} {tags : Table Bool}

theorem subset_of_tagIssues (silent : tagIssues start required tags = []) :
    required ⊆ Table.keys tags := by
  intro tag member
  by_contra absent
  unfold tagIssues at silent
  split at silent
  · rename_i found
    have kept := List.filter_eq_nil_iff.mp found tag member
    rw [← Table.contains_iff, Bool.not_eq_true] at absent
    rw [absent] at kept
    exact kept rfl
  · cases silent

theorem Consistent.nothing_missing (consistent : m.Consistent) (silent : m.issues = []) :
    m.canonical = true ∧ requiredOgTags ⊆ Table.keys m.ogTags ∧
      requiredTwitterTags ⊆ Table.keys m.twitterTags := by
  have parts := consistent.issues
  rw [silent, eq_comm, List.append_eq_nil_iff, List.append_eq_nil_iff,
    List.append_eq_nil_iff] at parts
  obtain ⟨⟨⟨-, og⟩, twitter⟩, link⟩ := parts
  refine ⟨?_, subset_of_tagIssues og, subset_of_tagIssues twitter⟩
  by_contra absent
  rw [if_neg absent] at link
  cases link

theorem hasEnoughTags_of_required (all : tags.AllPresent) (nodup : required.Nodup)
    (four : required.length = 4) (subset : required ⊆ Table.keys tags) :
    Coverage.hasEnoughTags tags = true := by
  have marked : (Table.values tags).countP id = (Table.values tags).length :=
    List.countP_eq_length.mpr all
  have listed : required.length ≤ (Table.keys tags).length :=
    (List.subperm_of_subset nodup subset).length_le
  simp only [Table.keys, Table.values, List.length_map] at marked listed
  simp only [Coverage.hasEnoughTags, Coverage.tagThreshold, Table.values, marked,
    decide_eq_true_eq]
  omega

end Metadata

namespace Images

theorem ofTags_withoutAlt {tags : List Text} (silent : (ofTags tags).issues = []) :
    (ofTags tags).withoutAlt = 0 := by
  have judged := List.map_eq_nil_iff.mp silent
  have missing := (List.append_eq_nil_iff.mp judged).1
  by_contra some
  have positive : 0 < tags.countP (!hasAlt ·) := by
    have count : ((tags.countP (!hasAlt ·) : Nat) : Int) ≠ 0 := some
    omega
  rw [if_pos positive] at missing
  cases missing

theorem ofText_withoutAlt {text : Text} (silent : (ofText text).issues = []) :
    (ofText text).withoutAlt = 0 := by
  unfold ofText at silent ⊢
  cases found : Markup.region? text with
  | none => rfl
  | some region =>
    rw [found] at silent
    exact ofTags_withoutAlt silent

end Images

theorem Page.Faultless.earnsAll {d : Document} {p : Page} (faultless : p.Faultless)
    (describes : d.Describes p) : p.EarnsAll := by
  obtain ⟨consistent, og, twitter⟩ := describes.record
  obtain ⟨canonical, ogListed, twitterListed⟩ := consistent.nothing_missing faultless.metadata
  have images := describes.images
  exact {
    faultless with
    canonical
    ogTags := Metadata.hasEnoughTags_of_required og (by decide) rfl ogListed
    twitterTags := Metadata.hasEnoughTags_of_required twitter (by decide) rfl twitterListed
    total := by
      obtain ⟨nonneg, within⟩ := Images.ofText_counts d.text
      rw [images]
      exact nonneg.trans within
    withoutAlt := by
      have silent := faultless.images
      rw [images] at silent ⊢
      exact Images.ofText_withoutAlt silent }

theorem clampPoints_max : clampPoints (categoryMax : Nat) = 20 := rfl

namespace Coverage

structure EarnsAll (c : Coverage) : Prop where
  nonempty : c.covered ≠ []
  uncovered : c.uncovered = []
  pages : ∀ p ∈ c.covered, p.EarnsAll

theorem ofPages_earnsAll {pages : List Page} (nonempty : pages ≠ [])
    (all : ∀ p ∈ pages, p.EarnsAll) : (ofPages pages).EarnsAll := by
  have covered : (ofPages pages).covered = pages :=
    List.filter_eq_self.mpr fun p member => (all p member).covered
  have uncovered : (ofPages pages).uncovered = [] :=
    List.filter_eq_nil_iff.mpr fun p member => by simp [(all p member).covered]
  exact ⟨by rwa [covered], uncovered, by rwa [covered]⟩

theorem attributed_flatMap {pages : List Page} {messages : Page → List Text}
    (silent : ∀ p ∈ pages, messages p = []) :
    (pages.flatMap fun p => attributed p (messages p)) = [] := by
  apply List.flatMap_eq_nil_iff.mpr
  intro p member
  rw [silent p member]
  rfl

namespace EarnsAll
variable {c : Coverage} (h : c.EarnsAll)
include h

theorem size_pos : 0 < c.covered.length := List.length_pos_iff.mpr h.nonempty

theorem size_eq : c.size = c.covered.length := by
  rw [size, h.uncovered]
  rfl

theorem size_ne_zero : c.size ≠ 0 := by
  have positive := h.size_pos
  rw [h.size_eq]
  omega

theorem pages_eq : c.pages = c.covered := by
  rw [Coverage.pages, h.uncovered, List.append_nil]

theorem metaIssues_eq : c.metaIssues = [] := by
  rw [metaIssues, h.uncovered, attributed_flatMap fun p member => (h.pages p member).metadata]
  rfl

theorem metaCategory_eq : c.metaCategory = Area.metaTags.category 20 [] := by
  have count : totalOf (·.metadata.issues.length) c.covered = 0 :=
    totalOf_eq_zero fun p member => by simp [(h.pages p member).metadata]
  have penalty : c.metaPenalty = 0 := by
    rw [metaPenalty, count, h.uncovered]
    norm_num
  rw [metaCategory, h.metaIssues_eq, penalty, sub_zero, clampPoints_max]

theorem ratio_all {p : Page → Bool} (all : ∀ page ∈ c.covered, p page) :
    ratio (c.covered.countP p : Nat) (c.covered.length : Nat) = .number 1 := by
  have positive : (0 : Int) < c.covered.length := Int.natCast_pos.mpr h.size_pos
  rw [List.countP_eq_length.mpr all, ratio_eq_number positive.le le_rfl, binaryShare_self positive]

theorem structuredCategory_eq : c.structuredCategory = Area.structuredData.category 20 [] := by
  have ratio_one := h.ratio_all (p := (!·.metadata.schemas.isEmpty))
    fun p member => by simpa using (h.pages p member).schemas
  have points : c.structuredPoints = categoryMax := by
    unfold structuredPoints
    rw [h.pages_eq]
    simp only [ratio_one, shareOfMax_one]
    split_ifs <;> rfl
  have issues : c.structuredIssues = [] := by
    have none_empty : c.covered.filter (·.metadata.schemas.isEmpty) = [] :=
      List.filter_eq_nil_iff.mpr fun p member => by simpa using (h.pages p member).schemas
    rw [structuredIssues, none_empty, List.map_nil]
  rw [structuredCategory, points, issues]
  rfl

theorem imagesWithoutAlt_eq : c.imagesWithoutAlt = 0 :=
  sumOf_eq_zero fun p member => (h.pages p member).withoutAlt

theorem totalImages_nonneg : 0 ≤ c.totalImages :=
  sumOf_nonneg fun p member => (h.pages p member).total

theorem imagesCategory_eq : c.imagesCategory = Area.imagesMedia.category 20 [] := by
  have points : imagePoints c.totalImages c.imagesWithoutAlt = categoryMax := by
    unfold imagePoints
    rw [h.imagesWithoutAlt_eq, sub_zero]
    split_ifs with positive
    · rw [ratio_eq_number positive.le le_rfl, binaryShare_self positive, shareOfMax_one]
    · rfl
  have issues := attributed_flatMap fun p member => (h.pages p member).images
  rw [imagesCategory, points, issues]
  rfl

theorem socialPoints_max : c.socialPoints = categoryMax := by
  have og := h.ratio_all (p := fun p => hasEnoughTags p.metadata.ogTags)
    fun p member => (h.pages p member).ogTags
  have twitter := h.ratio_all (p := fun p => hasEnoughTags p.metadata.twitterTags)
    fun p member => (h.pages p member).twitterTags
  have mean : Binary64.mul (Binary64.add (.number 1) (.number 1)) .half = .number 1 := by
    decide +kernel
  simp only [socialPoints, h.size_eq, og, twitter, mean, shareOfMax_one]

theorem socialCategory_eq : c.socialCategory = Area.social.category 20 [] := by
  have issues : c.covered.filterMap socialIssue? = [] := by
    apply List.filterMap_eq_nil_iff.mpr
    intro p member
    rw [socialIssue?, (h.pages p member).metadata]
    rfl
  rw [socialCategory, h.socialPoints_max, issues]
  rfl

end EarnsAll
end Coverage

namespace Findings

section EarnsAll
variable {f : Findings} (h : f.coverage.EarnsAll)
include h

theorem technicalCategory_max (missing : f.sitemap.missing = []) (rules : f.hasRobots = true) :
    f.technicalCategory = Area.technical.category 20 [] := by
  have canonical : f.coverage.covered.countP (!·.metadata.canonical) = 0 :=
    List.countP_eq_zero.mpr fun p member => by simp [(h.pages p member).canonical]
  have headings : totalOf (·.headings.issues.length) f.coverage.covered = 0 :=
    totalOf_eq_zero fun p member => by simp [(h.pages p member).headings]
  have penalty : f.technicalPenalty = 0 := by
    rw [technicalPenalty, canonical, headings, sitemapPenalty, missing, if_pos rules]
    norm_num
  have issues : f.technicalIssues = [] := by
    rw [technicalIssues, Coverage.attributed_flatMap fun p member => (h.pages p member).headings,
      missing, if_pos rules]
    rfl
  rw [technicalCategory, issues, penalty, sub_zero, clampPoints_max]

theorem category_max (missing : f.sitemap.missing = []) (rules : f.hasRobots = true) (a : Area) :
    f.category a = a.category 20 [] := by
  rw [category_of_pages h.size_ne_zero]
  cases a with
  | metaTags => exact h.metaCategory_eq
  | technical => exact technicalCategory_max h missing rules
  | structuredData => exact h.structuredCategory_eq
  | imagesMedia => exact h.imagesCategory_eq
  | social => exact h.socialCategory_eq

theorem fixes_eq_nil : f.fixes = [] := by
  have enough : (20 : Number).lt 10 = false := by decide
  unfold fixes
  simp only [h.socialPoints_max, Int.cast_natCast, clampPoints_max, enough, h.imagesWithoutAlt_eq,
    h.metaIssues_eq, h.uncovered]
  simp [listed]

theorem quickFixes_max : f.score.quickFixes = [QuickFix.none.message] := by
  have fixes : f.quickFixes = [.none] := by
    unfold quickFixes
    rw [fixes_eq_nil h]
  unfold score
  dsimp only
  rw [if_neg h.size_ne_zero, fixes]
  simp only [List.map]

theorem countsImages_of_earnsAll : f.CountsImages := by
  rw [CountsImages, h.imagesWithoutAlt_eq]
  exact ⟨le_rfl, h.totalImages_nonneg⟩

end EarnsAll

/-- Pages without any advisory, analysed with whichever evaluator, a complete sitemap and
crawler rules bring every category to 20 points, and there is nothing left to fix. -/
theorem faultless_pages_earn_all {docs : List Document} {pages : List Page}
    {evaluator : Option Document.Evaluator} (sitemap : Sitemap) (robots : Robots)
    (nonempty : docs ≠ []) (analyzed : docs.mapM (·.analyze evaluator) = .ok pages)
    (faultless : ∀ p ∈ pages, p.Faultless) (missing : sitemap.missing = [])
    (rules : robots.configured = true) :
    let f : Findings := { coverage := Coverage.ofPages pages, sitemap, robots := some robots }
    f.card = .ok f.score ∧
    f.score.categories = Area.all.map (·.category 20 []) ∧
    f.score.quickFixes = [Text.ofString
      "SEO implementation is well optimized! Consider adding more structured data types."] ∧
    ∀ r : Report, r.Shows f → r.totalScore = 100 ∧ r.percentage = 100 := by
  intro f
  have some_page : pages ≠ [] := by
    rintro rfl
    exact nonempty (List.forall₂_nil_right_iff.mp (forall₂_of_mapM analyzed))
  -- A silent page lacks nothing only because its record comes from the analysis.
  have pages_earn : ∀ p ∈ pages, p.EarnsAll := by
    intro p member
    obtain ⟨d, -, analysis⟩ := exists_of_mem_mapM analyzed member
    exact (faultless p member).earnsAll (Document.analyze_describes analysis)
  have earns : f.coverage.EarnsAll := Coverage.ofPages_earnsAll some_page pages_earn
  have categories : f.score.categories = Area.all.map (·.category 20 []) := by
    rw [f.score_categories]
    exact List.map_congr_left fun a _ => category_max earns missing rules a
  refine ⟨card_eq_score (countsImages_of_earnsAll earns), categories, quickFixes_max earns, ?_⟩
  intro r shows_
  have total : r.totalScore = 100 := by
    rw [Report.totalScore, shows_, categories]
    rfl
  refine ⟨total, ?_⟩
  rw [Report.percentage, total, shows_.maxScore_eq]
  decide +kernel

def launchDocument : Document where
  path := "app/pages/index.vue"
  name := "index"
  text := Text.ofLines
    ["useHead(generateSEO(\x7b", "  title: 'Hand-made oak tables from the valley',",
      "  description: 'Every table is sawn, planed and oiled",
      "by two carpenters in the valley, and each order",
      "is ready within six to eight weeks.'", "\x7d))", "<template>", "  <h1>Oak tables</h1>",
      "  <img src='oak.jpg' alt='An oak table'>", "</template>"]

theorem launchDocument_earns_all :
    ∃ page, [launchDocument].mapM (·.analyze none) = .ok [page] ∧ page.Faultless ∧
      (Findings.score
        { coverage := Coverage.ofPages [page]
          sitemap := { source := some "server/sitemap.ts", listed := ["/"] }
          robots := some { configured := true } }).categories =
        Area.all.map (·.category 20 []) := by
  have checked : (launchDocument.analyze none).map (fun page => decide page.Faultless) =
      .ok true := by
    decide +kernel
  obtain ⟨page, analyzed, decided⟩ := Document.exists_page_of_check checked
  have faultless : page.Faultless := of_decide_eq_true decided
  have earned := faultless_pages_earn_all
    { source := some "server/sitemap.ts", listed := ["/"] } { configured := true }
    (List.cons_ne_nil _ _) analyzed (fun p member => List.mem_singleton.mp member ▸ faultless)
    rfl rfl
  exact ⟨page, analyzed, faultless, earned.2.1⟩

end Findings
end SeoAudit
