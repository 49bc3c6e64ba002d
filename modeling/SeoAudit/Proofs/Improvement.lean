import Mathlib.Algebra.Order.BigOperators.Group.List
import SeoAudit.Proofs.Lists
import SeoAudit.Proofs.Scores

/-! Improving a project never lowers a score. Two lists of pages are compared page by
page; `NoWorse` says what may differ. Each category is monotone in the counts it is
made of, so categories, total and percentage of the second list are at least those of
the first. -/
namespace SeoAudit

namespace Page

def tagCount (tags : Table Bool) : Nat := (Table.values tags).countP id

/-- A covered page `q` has the images of `p` and nothing in it is worse. -/
structure NoWorseInside (p q : Page) : Prop where
  metadataIssues : q.metadata.issues.length ≤ p.metadata.issues.length
  headingIssues : q.headings.issues.length ≤ p.headings.issues.length
  canonical : p.metadata.canonical → q.metadata.canonical
  ogTags : tagCount p.metadata.ogTags ≤ tagCount q.metadata.ogTags
  twitterTags : tagCount p.metadata.twitterTags ≤ tagCount q.metadata.twitterTags
  totalImages : q.images.total = p.images.total
  withoutAlt : q.images.withoutAlt ≤ p.images.withoutAlt

/-- A page `q` is the page `p`, and nothing about it is worse. -/
structure NoWorse (p q : Page) : Prop where
  name : q.name = p.name
  isCovered : q.isCovered = p.isCovered
  inside : p.isCovered → NoWorseInside p q
  schemas : p.metadata.schemas ≠ [] → q.metadata.schemas ≠ []
  rich : Coverage.hasRichSchema p → Coverage.hasRichSchema q

def CountsImages (p : Page) : Prop :=
  0 ≤ p.images.withoutAlt ∧ p.images.withoutAlt ≤ p.images.total

end Page

/-- What a project is scored on: its pages, the URLs listed and the crawler rules. -/
def Findings.ofPages (pages : List Page) (source : Option Text) (listed : List Text)
    (robots : Option Robots) : Findings :=
  let coverage := Coverage.ofPages pages
  { coverage, sitemap := Sitemap.ofUrls source listed coverage, robots }

structure Coverage.NoWorse (c d : Coverage) : Prop where
  covered : List.Forall₂ Page.NoWorse c.covered d.covered
  uncovered : List.Forall₂ Page.NoWorse c.uncovered d.uncovered
  areCovered : ∀ p ∈ c.covered, p.isCovered

theorem Coverage.noWorse_ofPages {ps qs : List Page} (all : List.Forall₂ Page.NoWorse ps qs) :
    (Coverage.ofPages ps).NoWorse (Coverage.ofPages qs) where
  covered := List.rel_filter (fun p q h => by simp [h.isCovered]) all
  uncovered := List.rel_filter (fun p q h => by simp [h.isCovered]) all
  areCovered := fun p member => (List.mem_filter.mp member).2

theorem Coverage.hasEnoughTags_mono {s t : Table Bool} (le : Page.tagCount s ≤ Page.tagCount t)
    (enough : hasEnoughTags s) : hasEnoughTags t := by
  simp only [hasEnoughTags, decide_eq_true_eq] at enough ⊢
  exact enough.trans le

namespace Coverage.NoWorse
variable {c d : Coverage} (h : c.NoWorse d)
include h

theorem inside : List.Forall₂ Page.NoWorseInside c.covered d.covered :=
  ((List.forall₂_and_left _ _).mpr ⟨h.areCovered, h.covered⟩).imp fun _ _ both =>
    both.2.inside both.1

theorem pages : List.Forall₂ Page.NoWorse c.pages d.pages :=
  List.rel_append h.covered h.uncovered

theorem size_eq : d.size = c.size := by
  rw [size, size, h.covered.length_eq, h.uncovered.length_eq]

theorem metaLoss_le : d.metaLoss ≤ c.metaLoss := by
  have issues := totalOf_mono (h.inside.flip.imp fun _ _ page => page.metadataIssues)
  have uncovered := h.uncovered.length_eq
  unfold metaLoss
  omega

theorem structuredPoints_le : c.structuredPoints ≤ d.structuredPoints := by
  have counts : c.pages.countP (!·.metadata.schemas.isEmpty) ≤
      d.pages.countP (!·.metadata.schemas.isEmpty) :=
    countP_mono (h.pages.imp fun p q page => by simpa using page.schemas)
  have within : d.pages.countP (!·.metadata.schemas.isEmpty) ≤ d.pages.length :=
    List.countP_le_length
  have shares := shareOfMax_part_mono (Int.natCast_nonneg _) (Int.ofNat_le.mpr counts)
    (Int.ofNat_le.mpr within)
  have most := shareOfMax_ratio_le (Int.natCast_nonneg _)
    (Int.ofNat_le.mpr (counts.trans within))
  have rich : c.pages.any hasRichSchema → d.pages.any hasRichSchema :=
    any_mono (h.pages.imp fun p q page => page.rich)
  -- Where only the second list has the bonus, its capped sum is still above the bare points.
  unfold structuredPoints
  dsimp only
  rw [h.pages.length_eq]
  split_ifs with before after after
  · omega
  · exact absurd (rich before) after
  · exact le_min most (by omega)
  · exact shares

theorem imagePoints_le (counted : ∀ p ∈ c.covered ++ d.covered, p.CountsImages) :
    imagePoints c.totalImages c.imagesWithoutAlt ≤
      imagePoints d.totalImages d.imagesWithoutAlt := by
  have totals : c.totalImages = d.totalImages :=
    sumOf_congr (h.inside.imp fun p q page => page.totalImages.symm)
  have withoutAlt : d.imagesWithoutAlt ≤ c.imagesWithoutAlt :=
    sumOf_mono (h.inside.flip.imp fun q p page => page.withoutAlt)
  have before : 0 ≤ c.imagesWithoutAlt ∧ c.imagesWithoutAlt ≤ c.totalImages :=
    sumOf_bounds fun p member => counted p (List.mem_append_left _ member)
  have after : 0 ≤ d.imagesWithoutAlt ∧ d.imagesWithoutAlt ≤ d.totalImages :=
    sumOf_bounds fun p member => counted p (List.mem_append_right _ member)
  unfold imagePoints
  rw [totals] at before ⊢
  split_ifs
  · exact shareOfMax_part_mono (by omega) (by omega) (by omega)
  · exact le_rfl

theorem taggedCount_le (tags : Page → Table Bool)
    (more : ∀ p q, Page.NoWorseInside p q → Page.tagCount (tags p) ≤ Page.tagCount (tags q)) :
    c.taggedCount tags ≤ d.taggedCount tags := by
  have counts : (c.covered.countP fun p => hasEnoughTags (tags p)) ≤
      d.covered.countP fun p => hasEnoughTags (tags p) :=
    countP_mono (h.inside.imp fun p q page => hasEnoughTags_mono (more p q page))
  exact Int.ofNat_le.mpr counts

theorem tagShare_le (tags : Page → Table Bool)
    (more : ∀ p q, Page.NoWorseInside p q → Page.tagCount (tags p) ≤ Page.tagCount (tags q)) :
    c.tagShare tags ≤ d.tagShare tags := by
  have bound := (d.taggedCount_bounds tags).2
  rw [h.size_eq] at bound
  rw [tagShare, tagShare, h.size_eq]
  exact binaryShare_mono (c.taggedCount_bounds tags).1 (h.taggedCount_le tags more) bound

theorem socialPoints_le : c.socialPoints ≤ d.socialPoints := by
  have og := h.tagShare_le (·.metadata.ogTags) fun _ _ page => page.ogTags
  have twitter := h.tagShare_le (·.metadata.twitterTags) fun _ _ page => page.twitterTags
  rw [c.socialPoints_eq, d.socialPoints_eq]
  exact shareOfMax_mono (meanShare_nonneg (c.tagShare_nonneg _) (c.tagShare_nonneg _))
    (meanShare_mono (c.tagShare_nonneg _) (c.tagShare_nonneg _) og twitter)
    (meanShare_le_one (d.tagShare_nonneg _) (d.tagShare_nonneg _) (d.tagShare_le_one _)
      (d.tagShare_le_one _))

theorem canonical_le :
    d.covered.countP (!·.metadata.canonical) ≤ c.covered.countP (!·.metadata.canonical) :=
  countP_mono (h.inside.flip.imp fun q p page => by simpa using mt page.canonical)

theorem headings_le :
    totalOf (·.headings.issues.length) d.covered ≤
      totalOf (·.headings.issues.length) c.covered :=
  totalOf_mono (h.inside.flip.imp fun _ _ page => page.headingIssues)

theorem missing_le {fewer more : List Text} (listed : fewer ⊆ more) :
    (Sitemap.missingFrom more d.covered).length ≤
      (Sitemap.missingFrom fewer c.covered).length := by
  simp only [Sitemap.missingFrom, List.length_map, ← List.countP_eq_length_filter]
  apply countP_mono
  refine h.covered.flip.imp fun q p page => ?_
  have url : q.url = p.url := congrArg Page.urlOf page.name
  rw [url]
  simp only [Bool.not_eq_true', List.contains_eq_mem, decide_eq_false_iff_not]
  exact mt fun declared => List.map_subset Sitemap.bare listed declared

end Coverage.NoWorse

namespace Findings

/-- The hypotheses on two projects under which the second is an improvement. -/
structure Improves (ps qs : List Page) (fewer more : List Text) (before after : Option Robots) :
    Prop where
  pages : List.Forall₂ Page.NoWorse ps qs
  counted : ∀ p ∈ ps ++ qs, p.CountsImages
  listed : fewer ⊆ more
  rules : before.any (·.configured) → after.any (·.configured)

section Improves
variable {ps qs : List Page} {fewer more : List Text} {before after : Option Robots}
variable (improves : Improves ps qs fewer more before after) (sourceP sourceQ : Option Text)
include improves

theorem Improves.technicalLoss_le :
    (ofPages qs sourceQ more after).technicalLoss ≤
      (ofPages ps sourceP fewer before).technicalLoss := by
  have coverage := Coverage.noWorse_ofPages improves.pages
  have canonical := coverage.canonical_le
  have headings := coverage.headings_le
  have missing := coverage.missing_le improves.listed
  have rules : (if (ofPages qs sourceQ more after).hasRobots then 0 else 6) ≤
      (if (ofPages ps sourceP fewer before).hasRobots then 0 else 6) := by
    split_ifs with last first first
    · omega
    · omega
    · exact absurd (improves.rules first) last
    · omega
  unfold technicalLoss
  simp only [ofPages, Sitemap.ofUrls] at rules ⊢
  omega

theorem Improves.counted_covered :
    ∀ p ∈ (Coverage.ofPages ps).covered ++ (Coverage.ofPages qs).covered, p.CountsImages := by
  intro p member
  apply improves.counted p
  rcases List.mem_append.mp member with first | second
  · exact List.mem_append_left _ (List.mem_filter.mp first).1
  · exact List.mem_append_right _ (List.mem_filter.mp second).1

theorem Improves.earned_le (a : Area) :
    (ofPages ps sourceP fewer before).earned a ≤ (ofPages qs sourceQ more after).earned a := by
  have coverage := Coverage.noWorse_ofPages improves.pages
  cases a with
  | metaTags =>
    have loss := coverage.metaLoss_le
    simp only [earned, ofPages]
    omega
  | technical =>
    have loss := improves.technicalLoss_le sourceP sourceQ
    simp only [earned]
    omega
  | structuredData =>
    have points := coverage.structuredPoints_le
    simp only [earned, ofPages]
    omega
  | imagesMedia =>
    have points := coverage.imagePoints_le improves.counted_covered
    simp only [earned, ofPages]
    omega
  | social =>
    have points := coverage.socialPoints_le
    simp only [earned, ofPages]
    omega

theorem Improves.halves_le (a : Area) :
    (ofPages ps sourceP fewer before).halves a ≤ (ofPages qs sourceQ more after).halves a := by
  have earned := improves.earned_le sourceP sourceQ a
  have size : (ofPages qs sourceQ more after).coverage.size =
      (ofPages ps sourceP fewer before).coverage.size :=
    (Coverage.noWorse_ofPages improves.pages).size_eq
  unfold halves
  rw [size]
  split_ifs
  · exact le_rfl
  · exact earned

theorem Improves.totalHalves_le :
    (ofPages ps sourceP fewer before).totalHalves ≤
      (ofPages qs sourceQ more after).totalHalves :=
  List.sum_le_sum fun a _ => improves.halves_le sourceP sourceQ a

end Improves

theorem CountsImages.of_pages {pages : List Page} (counted : ∀ p ∈ pages, p.CountsImages)
    (sitemap : Sitemap) (robots : Option Robots) :
    CountsImages ⟨.ofPages pages, sitemap, robots⟩ :=
  sumOf_bounds fun p member => counted p (List.mem_filter.mp member).1

theorem CountsImages.ofPages {pages : List Page} (counted : ∀ p ∈ pages, p.CountsImages)
    (source : Option Text) (listed : List Text) (robots : Option Robots) :
    (ofPages pages source listed robots).CountsImages :=
  .of_pages counted _ _

/-- An improved project gets a card again, and neither a category nor the total nor the
percentage of it goes down. -/
theorem improvement_keeps_scores {ps qs : List Page} {fewer more : List Text}
    {before after : Option Robots} (improves : Improves ps qs fewer more before after)
    (sourceP sourceQ : Option Text) :
    let first := ofPages ps sourceP fewer before
    let second := ofPages qs sourceQ more after
    first.card = .ok first.score ∧ second.card = .ok second.score ∧
    (∀ a, Number.AtMost (first.category a).score (second.category a).score) ∧
    ∀ r s : Report, r.Shows first → s.Shows second →
      Number.AtMost r.totalScore s.totalScore ∧ r.percentage ≤ s.percentage := by
  intro first second
  have countedFirst : first.CountsImages :=
    .ofPages (fun p member => improves.counted p (List.mem_append_left _ member)) _ _ _
  have countedSecond : second.CountsImages :=
    .ofPages (fun p member => improves.counted p (List.mem_append_right _ member)) _ _ _
  have halves := improves.halves_le sourceP sourceQ
  have totals := improves.totalHalves_le sourceP sourceQ
  refine ⟨card_eq_score countedFirst, card_eq_score countedSecond, fun a => ?_,
    fun r s showsFirst showsSecond => ⟨?_, ?_⟩⟩
  · exact (first.category_halves a).atMost (second.category_halves a) (halves a)
  · exact showsFirst.totalScore_halves.atMost showsSecond.totalScore_halves totals
  · rw [showsFirst.percentage_eq, showsSecond.percentage_eq]
    exact Number.percentOfHalves_mono totals second.totalHalves_le

def draftShop : Page where
  path := "shop.vue"
  name := "shop"
  callsGenerator := true
  callsSeoMeta := false
  callsHead := true
  metadata := { ogTags := [("title", true)], issues := ["Missing canonical URL"] }
  headings := { issues := ["No H1 tag found"] }
  images := { total := 3, withAlt := 1, withoutAlt := 2 }

def finishedShop : Page :=
  { draftShop with
    metadata :=
      { ogTags := [("title", true), ("image", true)], canonical := true
        schemas := [.ofName "Product"] }
    headings := { topCount := 1, levels := [1] }
    images := { total := 3, withAlt := 2, withoutAlt := 1 } }

theorem draftShop_noWorse_finishedShop : draftShop.NoWorse finishedShop where
  name := rfl
  isCovered := rfl
  inside := fun _ => by constructor <;> decide
  schemas := by decide
  rich := by decide

theorem finishedShop_scores_no_less :
    Improves [draftShop] [finishedShop] [] ["/shop"] none (some { configured := true }) ∧
    ∀ a, Number.AtMost ((ofPages [draftShop] none [] none).category a).score
      ((ofPages [finishedShop] (some "sitemap.ts") ["/shop"]
        (some { configured := true })).category a).score := by
  have improves :
      Improves [draftShop] [finishedShop] [] ["/shop"] none (some { configured := true }) := {
    pages := .cons draftShop_noWorse_finishedShop .nil
    counted := by
      intro p member
      simp only [List.cons_append, List.nil_append, List.mem_cons, List.not_mem_nil,
        or_false] at member
      rcases member with rfl | rfl <;> constructor <;> decide
    listed := by simp
    rules := by simp }
  exact ⟨improves, (improvement_keeps_scores improves none (some "sitemap.ts")).2.2.1⟩

end Findings
end SeoAudit
