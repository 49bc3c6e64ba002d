import SeoAudit.Proofs.PageAnalysis
import SeoAudit.Proofs.Scores

/-! Projects without a covered page. The shares of covered pages vanish, but structured
data is counted on all pages, and a page that calls the generator without putting the
result into the head still has the schemas of its call. So that score is 0 exactly when
no such page has a rich schema and too few have any to round up to a point. -/
namespace SeoAudit

theorem shareOfMax_fortieth : shareOfMax (ratio 1 40) = 1 := by
  decide +kernel

theorem shareOfMax_below_fortieth : shareOfMax (ratio (2 ^ 50 - 1) (40 * 2 ^ 50)) = 0 := by
  decide +kernel

theorem shareOfMax_ratio_eq_zero_iff {part total : Int} (nonneg : 0 ≤ part) (le : part ≤ total)
    (pos : 0 < total) (fits : total ≤ 2 ^ 50) :
    shareOfMax (ratio part total) = 0 ↔ 40 * part < total := by
  have totalPos : (0 : Rat) < total := by exact_mod_cast pos
  -- One fortieth rounds up to a point and the next smaller share does not; the rest is monotone.
  constructor
  · intro zero
    by_contra many
    have share : ((1 : Int) : Rat) / (40 : Int) ≤ part / total := by
      rw [div_le_div_iff₀ (by norm_num) totalPos]
      have cast : (total : Rat) ≤ 40 * part := by exact_mod_cast not_lt.mp many
      push_cast
      linarith
    have points := shareOfMax_ratio_mono (by norm_num) (by norm_num) nonneg le share
    rw [shareOfMax_fortieth, zero] at points
    omega
  · intro few
    have share : (part : Rat) / total ≤ ((2 ^ 50 - 1 : Int) : Rat) / (40 * 2 ^ 50 : Int) := by
      rw [div_le_div_iff₀ totalPos (by norm_num)]
      have cast : (part : Rat) * 40 + 1 ≤ total := by exact_mod_cast (by omega)
      have castFits : (total : Rat) ≤ 2 ^ 50 := by exact_mod_cast fits
      push_cast
      linarith
    have points := shareOfMax_ratio_mono nonneg le (by norm_num) (by norm_num) share
    rw [shareOfMax_below_fortieth] at points
    exact le_antisymm points (shareOfMax_ratio_nonneg nonneg le)

namespace Document

def isRich (d : Document) : Bool :=
  d.staticSchemas.any fun s => Text.anyOf Coverage.richMarkers s.name

def schemaCount (docs : List Document) : Nat := docs.countP (!·.staticSchemas.isEmpty)

end Document

namespace Coverage

structure Uncovered (c : Coverage) : Prop where
  covered : c.covered = []
  nonempty : c.uncovered ≠ []

theorem ofPages_uncovered {pages : List Page} (nonempty : pages ≠ [])
    (all : ∀ p ∈ pages, p.isCovered = false) :
    (ofPages pages).Uncovered ∧ (ofPages pages).uncovered = pages := by
  have covered : (ofPages pages).covered = [] :=
    List.filter_eq_nil_iff.mpr fun p member => by simp [all p member]
  have uncovered : (ofPages pages).uncovered = pages :=
    List.filter_eq_self.mpr fun p member => by simp [all p member]
  exact ⟨⟨covered, by rwa [uncovered]⟩, uncovered⟩

namespace Uncovered
variable {c : Coverage} (h : c.Uncovered)
include h

theorem size_eq : c.size = c.uncovered.length := by
  rw [size, h.covered, List.length_nil, Nat.zero_add]

theorem size_ne_zero : c.size ≠ 0 := by
  rw [h.size_eq]
  exact List.length_pos_iff.mpr h.nonempty |>.ne'

theorem pages_eq : c.pages = c.uncovered := by
  rw [pages, h.covered, List.nil_append]

theorem metaCategory_score :
    c.metaCategory.score = .whole (max 0 (20 - 2 * c.uncovered.length)) := by
  have points : (categoryMax : Nat) - c.metaPenalty =
      ((20 - 2 * c.uncovered.length : Int) : Rat) := by
    rw [metaPenalty, h.covered, categoryMax, totalOf]
    push_cast
    ring
  have clamped : max 0 (min 20 ((20 : Int) - 2 * c.uncovered.length)) =
      max 0 ((20 : Int) - 2 * c.uncovered.length) := by omega
  show clampPoints _ = _
  rw [points, Number.clampPoints_intCast, clamped]

theorem socialCategory_score : c.socialCategory.score = 0 := by
  have count (tags : Page → Table Bool) : c.tagShare tags = 0 := by
    rw [tagShare, taggedCount, h.covered]
    exact binaryShare_zero
  have mean : meanShare 0 0 = 0 := by
    rw [meanShare, add_zero, Binary64.nearest_zero, zero_mul, Binary64.nearest_zero]
  have points : c.socialPoints = 0 := by
    rw [socialPoints_eq, count, count, mean, shareOfMax_zero]
  show clampPoints _ = _
  rw [points, Number.clampPoints_intCast]
  rfl

end Uncovered

theorem structuredCategory_score_eq_zero_iff (c : Coverage) :
    c.structuredCategory.score = 0 ↔
      c.pages.any hasRichSchema = false ∧
      shareOfMax (ratio (c.pages.countP (!·.metadata.schemas.isEmpty)) c.pages.length) = 0 := by
  have within : c.pages.countP (!·.metadata.schemas.isEmpty) ≤ c.pages.length :=
    List.countP_le_length
  have nonneg := shareOfMax_ratio_nonneg (Int.natCast_nonneg _) (Int.ofNat_le.mpr within)
  have most := shareOfMax_ratio_le (Int.natCast_nonneg _) (Int.ofNat_le.mpr within)
  have clamped : c.structuredCategory.score = .whole (max 0 (min 20 c.structuredPoints)) :=
    Number.clampPoints_intCast _
  have zero : (0 : Number) = .whole 0 := rfl
  rw [clamped, zero, Number.whole.injEq, structuredPoints]
  simp only [categoryMax]
  cases c.pages.any hasRichSchema with
  | false =>
    simp only [Bool.false_eq_true, if_false, true_and]
    omega
  | true =>
    simp only [if_true, Bool.true_eq_false, false_and, iff_false]
    omega

end Coverage

namespace Findings

section Documents
variable {docs : List Document} {pages : List Page} {evaluator : Option Document.Evaluator}
  (analyzed : docs.mapM (·.analyze evaluator) = .ok pages)
  (uncovered : ∀ p ∈ pages, p.isCovered = false)
include analyzed uncovered

theorem uncovered_schemas : pages.map (·.metadata.schemas) = docs.map Document.staticSchemas :=
  map_eq_of_mapM analyzed fun _ p member analysis =>
    Document.analyze_uncovered_schemas analysis (uncovered p member)

theorem uncovered_any_rich : pages.any Coverage.hasRichSchema = docs.any Document.isRich := by
  have rich := congrArg (List.any · fun schemas =>
    schemas.any fun s => Text.anyOf Coverage.richMarkers s.name)
      (uncovered_schemas analyzed uncovered)
  rwa [List.any_map, List.any_map] at rich

theorem uncovered_schemaCount :
    pages.countP (!·.metadata.schemas.isEmpty) = Document.schemaCount docs := by
  have counts := congrArg (List.countP (!·.isEmpty)) (uncovered_schemas analyzed uncovered)
  rwa [List.countP_map, List.countP_map] at counts

end Documents

/-- A project of uncovered documents always gets a card. Its first score loses two points
for each document and its last one is 0. Structured data scores 0 exactly when no document
has a rich schema of its own and the share of those with any schema rounds to no point:
fewer than one in forty, while that share is told apart from a fortieth. -/
theorem uncovered_documents_score {docs : List Document} {pages : List Page}
    {evaluator : Option Document.Evaluator} (sitemap : Sitemap) (robots : Option Robots)
    (nonempty : docs ≠ []) (analyzed : docs.mapM (·.analyze evaluator) = .ok pages)
    (uncovered : ∀ p ∈ pages, p.isCovered = false) :
    let f : Findings := { coverage := Coverage.ofPages pages, sitemap, robots }
    f.card = .ok f.score ∧
    f.coverage.covered = [] ∧
    (f.category .metaTags).score = .whole (max 0 (20 - 2 * docs.length)) ∧
    (f.category .social).score = 0 ∧
    ((f.category .structuredData).score = 0 ↔
      docs.any Document.isRich = false ∧
      shareOfMax (ratio (Document.schemaCount docs) docs.length) = 0) ∧
    (docs.length ≤ 2 ^ 50 →
      ((f.category .structuredData).score = 0 ↔
        docs.any Document.isRich = false ∧ 40 * Document.schemaCount docs < docs.length)) := by
  intro f
  have lengths : docs.length = pages.length := (forall₂_of_mapM analyzed).length_eq
  have some_page : pages ≠ [] := by
    rintro rfl
    exact nonempty (List.length_eq_zero_iff.mp lengths)
  obtain ⟨all, pages_eq⟩ := Coverage.ofPages_uncovered some_page uncovered
  have counts : f.CountsImages := by
    rw [CountsImages, Coverage.imagesWithoutAlt, Coverage.totalImages, all.covered]
    exact ⟨le_rfl, le_rfl⟩
  have category := category_of_pages (f := f) all.size_ne_zero
  have structured : (f.category .structuredData).score = 0 ↔
      docs.any Document.isRich = false ∧
      shareOfMax (ratio (Document.schemaCount docs) docs.length) = 0 := by
    rw [category, ← uncovered_any_rich analyzed uncovered,
      ← uncovered_schemaCount analyzed uncovered, lengths, ← pages_eq, ← all.pages_eq]
    exact f.coverage.structuredCategory_score_eq_zero_iff
  refine ⟨card_eq_score counts, all.covered, ?_, ?_, structured, fun fits => ?_⟩
  · rw [category, lengths, ← pages_eq]
    exact all.metaCategory_score
  · rw [category]
    exact all.socialCategory_score
  · have within : Document.schemaCount docs ≤ docs.length := List.countP_le_length
    have positive : 0 < docs.length := List.length_pos_iff.mpr nonempty
    rw [structured, shareOfMax_ratio_eq_zero_iff (by omega) (by omega) (by omega)
      (by exact_mod_cast fits)]
    norm_cast

def blankDocument : Document where
  path := "app/pages/blank.vue"
  name := "blank"
  text := "<template></template>"

theorem blankDocument_scores_zero :
    ∃ page, [blankDocument].mapM (·.analyze none) = .ok [page] ∧ page.isCovered = false ∧
      (category { coverage := Coverage.ofPages [page], sitemap := {}, robots := none }
        .structuredData).score = 0 := by
  have checked : (blankDocument.analyze none).map Page.isCovered = .ok false := by
    decide +kernel
  have silent : [blankDocument].any Document.isRich = false ∧
      40 * Document.schemaCount [blankDocument] < [blankDocument].length := by
    decide +kernel
  obtain ⟨page, analyzed, uncovered⟩ := Document.exists_page_of_check checked
  have scores := uncovered_documents_score {} none (List.cons_ne_nil _ _) analyzed
    fun p member => List.mem_singleton.mp member ▸ uncovered
  obtain ⟨-, -, -, -, -, structured⟩ := scores
  exact ⟨page, analyzed, uncovered, (structured (by norm_num)).mpr silent⟩

def droppingDocument : Document where
  path := "app/pages/dropping.vue"
  name := "dropping"
  text := "generateSEO(\x7b\x7d)"

/-- Projects without a covered page may score on structured data. -/
theorem structured_score_without_coverage :
    ¬ ∀ (docs : List Document) (pages : List Page) (evaluator : Option Document.Evaluator)
      (sitemap : Sitemap) (robots : Option Robots), docs ≠ [] →
      docs.mapM (·.analyze evaluator) = .ok pages → (∀ p ∈ pages, p.isCovered = false) →
      (category { coverage := Coverage.ofPages pages, sitemap, robots } .structuredData).score =
        0 := by
  intro law
  have checked : (droppingDocument.analyze none).map (fun page => (page.isCovered,
      (category { coverage := Coverage.ofPages [page], sitemap := {}, robots := none }
        .structuredData).score)) = .ok (false, 20) := by
    decide +kernel
  obtain ⟨page, analyzed, both⟩ := Document.exists_page_of_check checked
  obtain ⟨uncovered, twenty⟩ := Prod.mk.inj both
  have zero := law [droppingDocument] [page] none {} none (List.cons_ne_nil _ _) analyzed
    fun p member => List.mem_singleton.mp member ▸ uncovered
  rw [twenty] at zero
  cases zero

end Findings
end SeoAudit
