import SeoAudit.Proofs.ImagePages
import SeoAudit.Proofs.Improvement

/-! The order of the pages does not matter for a score. Everything that is counted over
pages is counted the same in any order, so scores and advice stay, and what is listed page
by page comes in another order. -/
namespace SeoAudit

structure Category.Reordered (a b : Category) : Prop where
  rest : { b with issues := a.issues } = a
  issues : a.issues.Perm b.issues

theorem Area.category_reordered (a : Area) {s t : Number} {is js : List Text} (score : s = t)
    (issues : is.Perm js) : (a.category s is).Reordered (a.category t js) := by
  subst score
  exact ⟨rfl, issues⟩

structure ScoreCard.Reordered (a b : ScoreCard) : Prop where
  categories : List.Forall₂ Category.Reordered a.categories b.categories
  missing : a.sitemap.missing.Perm b.sitemap.missing
  rest : { b with
    categories := a.categories
    sitemap := { b.sitemap with missing := a.sitemap.missing } } = a

/-- The same pages in other orders, with all that is listed of them. -/
structure Coverage.Reordered (c d : Coverage) : Prop where
  covered : c.covered.Perm d.covered
  uncovered : c.uncovered.Perm d.uncovered
  withoutImage : c.withoutImage.Perm d.withoutImage
  pagesFor (image : Text) : (c.imageUsage.pagesFor image).Perm (d.imageUsage.pagesFor image)
  shared (image : Text) :
    image ∈ Table.keys c.imageUsage.shared ↔ image ∈ Table.keys d.imageUsage.shared

theorem Coverage.ofPages_reordered {ps qs : List Page} (perm : ps.Perm qs) :
    (ofPages ps).Reordered (ofPages qs) where
  covered := perm.filter _
  uncovered := perm.filter _
  withoutImage := ((perm.filter _).filter _).map _
  pagesFor := pagesFor_perm perm
  shared := mem_keys_shared_perm perm

namespace Coverage.Reordered
variable {c d : Coverage} (h : c.Reordered d)
include h

theorem pages : c.pages.Perm d.pages := h.covered.append h.uncovered

theorem size_eq : c.size = d.size := by
  rw [size, size, h.covered.length_eq, h.uncovered.length_eq]

theorem metaIssues : c.metaIssues.Perm d.metaIssues :=
  (h.covered.flatMap_right _).append (h.uncovered.map _)

theorem metaCategory : c.metaCategory.Reordered d.metaCategory := by
  have penalty : c.metaPenalty = d.metaPenalty := by
    rw [metaPenalty, metaPenalty, totalOf_perm h.covered, h.uncovered.length_eq]
  exact Area.category_reordered _ (by rw [penalty]) h.metaIssues

theorem structuredCategory : c.structuredCategory.Reordered d.structuredCategory := by
  have points : c.structuredPoints = d.structuredPoints := by
    simp only [structuredPoints, h.pages.countP_eq, h.pages.length_eq, h.pages.any_eq]
  exact Area.category_reordered _ (by rw [points]) ((h.covered.filter _).map _)

theorem totalImages_eq : c.totalImages = d.totalImages := sumOf_perm h.covered

theorem imagesWithoutAlt_eq : c.imagesWithoutAlt = d.imagesWithoutAlt := sumOf_perm h.covered

theorem imagesCategory : c.imagesCategory.Reordered d.imagesCategory :=
  Area.category_reordered _ (by rw [h.totalImages_eq, h.imagesWithoutAlt_eq])
    (h.covered.flatMap_right _)

theorem socialPoints_eq : c.socialPoints = d.socialPoints := by
  simp only [socialPoints, h.covered.countP_eq, h.size_eq]

theorem socialCategory : c.socialCategory.Reordered d.socialCategory :=
  Area.category_reordered _ (by rw [h.socialPoints_eq]) (h.covered.filterMap _)

theorem hasSchema_eq (name : Text) : c.hasSchema name = d.hasSchema name := h.covered.any_eq

theorem hasPathWith_eq (part : Text) : c.hasPathWith part = d.hasPathWith part := h.covered.any_eq

theorem fewSchemas_eq : c.fewSchemas = d.fewSchemas := by
  have mean : c.schemasPerPage = d.schemasPerPage := by
    rw [schemasPerPage, schemasPerPage, totalOf_perm h.covered, h.covered.length_eq]
  have covered := h.covered
  -- Of the pages themselves it only matters whether there is one.
  unfold fewSchemas
  rw [mean]
  cases first : c.covered with
  | nil =>
    rw [first, List.nil_perm] at covered
    rw [covered]
  | cons p ps =>
    cases second : d.covered with
    | nil =>
      rw [first, second] at covered
      cases covered.eq_nil
    | cons q qs => cases d.schemasPerPage.toRat? <;> rfl

end Coverage.Reordered

structure Findings.Reordered (f g : Findings) : Prop where
  coverage : f.coverage.Reordered g.coverage
  missing : f.sitemap.missing.Perm g.sitemap.missing
  sitemap : { g.sitemap with missing := f.sitemap.missing } = f.sitemap
  robots : f.robots = g.robots

theorem Findings.ofPages_reordered {ps qs : List Page} (perm : ps.Perm qs) (source : Option Text)
    (listed : List Text) (robots : Option Robots) :
    (ofPages ps source listed robots).Reordered (ofPages qs source listed robots) where
  coverage := Coverage.ofPages_reordered perm
  missing := ((perm.filter _).filter _).map _
  sitemap := rfl
  robots := rfl

namespace Findings.Reordered
variable {f g : Findings} (h : f.Reordered g)
include h

theorem hasRobots_eq : f.hasRobots = g.hasRobots := congrArg (·.any (·.configured)) h.robots

theorem hasSource_eq : f.sitemap.hasSource = g.sitemap.hasSource := by
  rw [← h.sitemap]
  rfl

theorem technicalPenalty_eq : f.technicalPenalty = g.technicalPenalty := by
  rw [technicalPenalty, technicalPenalty, sitemapPenalty, sitemapPenalty, h.hasRobots_eq,
    h.missing.length_eq, totalOf_perm h.coverage.covered, h.coverage.covered.countP_eq]

theorem technicalIssues : f.technicalIssues.Perm g.technicalIssues := by
  rw [Findings.technicalIssues, Findings.technicalIssues, h.hasRobots_eq, h.missing.length_eq]
  exact ((h.coverage.covered.flatMap_right _).append_right _).append_right _

theorem technicalCategory : f.technicalCategory.Reordered g.technicalCategory :=
  Area.category_reordered _ (by rw [h.technicalPenalty_eq]) h.technicalIssues

theorem category (a : Area) : (f.category a).Reordered (g.category a) := by
  unfold Findings.category
  rw [h.coverage.size_eq]
  split_ifs
  · exact Area.category_reordered a rfl (.refl _)
  · cases a with
    | metaTags => exact h.coverage.metaCategory
    | technical => exact h.technicalCategory
    | structuredData => exact h.coverage.structuredCategory
    | imagesMedia => exact h.coverage.imagesCategory
    | social => exact h.coverage.socialCategory

theorem advice_eq : f.advice = g.advice := by
  simp only [Findings.advice, h.coverage.uncovered.isEmpty_eq, h.hasSource_eq,
    h.missing.isEmpty_eq, h.coverage.hasPathWith_eq, h.coverage.hasSchema_eq,
    h.coverage.covered.length_eq, h.coverage.fewSchemas_eq, h.hasRobots_eq]

theorem recommendations_eq : f.recommendations = g.recommendations := by
  unfold Findings.recommendations
  rw [h.advice_eq]

theorem fixes_eq : f.fixes = g.fixes := by
  simp only [Findings.fixes, altGain, h.coverage.socialPoints_eq, h.coverage.totalImages_eq,
    h.coverage.imagesWithoutAlt_eq, h.coverage.metaIssues.any_eq,
    h.coverage.uncovered.isEmpty_eq, h.coverage.uncovered.length_eq]

theorem quickFixes_eq : f.quickFixes = g.quickFixes := by
  unfold Findings.quickFixes
  rw [h.fixes_eq]

theorem checkImages_eq : f.checkImages = g.checkImages := by
  simp only [checkImages, h.coverage.totalImages_eq, h.coverage.imagesWithoutAlt_eq,
    h.coverage.size_eq]

theorem score : f.score.Reordered g.score := by
  have categories (as : List Area) :
      List.Forall₂ Category.Reordered (as.map f.category) (as.map g.category) := by
    induction as with
    | nil => exact .nil
    | cons a as ih => exact .cons (h.category a) ih
  unfold Findings.score
  rw [h.coverage.size_eq]
  split_ifs with empty
  · exact ⟨categories _, h.missing, by simp [h.sitemap]⟩
  · refine ⟨categories _, h.missing, ?_⟩
    simp [h.sitemap, h.coverage.totalImages_eq, h.coverage.imagesWithoutAlt_eq,
      h.recommendations_eq, h.quickFixes_eq]

end Findings.Reordered

namespace Findings

/-- In whatever order the pages come, either no card can be made, for the same reason, or
the cards differ only in the order of issues and of missing URLs. -/
theorem page_order_leaves_score {ps qs : List Page} (perm : ps.Perm qs) (source : Option Text)
    (listed : List Text) (robots : Option Robots) :
    let f := ofPages ps source listed robots
    let g := ofPages qs source listed robots
    f.coverage.Reordered g.coverage ∧
    ((∃ e, f.card = .error e ∧ g.card = .error e) ∨
      ∃ a b, f.card = .ok a ∧ g.card = .ok b ∧ a.Reordered b) := by
  intro f g
  have reordered : f.Reordered g := ofPages_reordered perm source listed robots
  refine ⟨reordered.coverage, ?_⟩
  unfold card
  rw [reordered.checkImages_eq]
  cases g.checkImages with
  | error e => exact .inl ⟨e, rfl, rfl⟩
  | ok _ => exact .inr ⟨f.score, g.score, rfl, rfl, reordered.score⟩

def lampPage : Page :=
  { draftShop with
    name := "lamp", metadata := { draftShop.metadata with image := some "/lamp.png" } }

def bulbPage : Page := { lampPage with name := "bulb" }

/-- With the pages turned round there is another card, which lists the same issues in
another order; and so it is with the pages of the image. -/
theorem lampPages_turned_round :
    [lampPage, bulbPage].Perm [bulbPage, lampPage] ∧
    (∃ a b, (ofPages [lampPage, bulbPage] none [] none).card = .ok a ∧
      (ofPages [bulbPage, lampPage] none [] none).card = .ok b ∧ a.Reordered b) ∧
    (Coverage.ofPages [lampPage, bulbPage]).metaIssues =
      ["lamp: Missing canonical URL", "bulb: Missing canonical URL"] ∧
    (Coverage.ofPages [bulbPage, lampPage]).metaIssues =
      ["bulb: Missing canonical URL", "lamp: Missing canonical URL"] ∧
    (Coverage.ofPages [lampPage, bulbPage]).imageUsage.pagesFor "/lamp.png" = ["lamp", "bulb"] ∧
    (Coverage.ofPages [bulbPage, lampPage]).imageUsage.pagesFor "/lamp.png" = ["bulb", "lamp"] := by
  have perm : [lampPage, bulbPage].Perm [bulbPage, lampPage] := .swap _ _ _
  have counted : ∀ p ∈ [lampPage, bulbPage], p.CountsImages := by
    intro p member
    simp only [List.mem_cons, List.not_mem_nil, or_false] at member
    rcases member with rfl | rfl <;> constructor <;> decide
  have card := card_eq_score (.ofPages counted none [] none)
  refine ⟨perm, ?_, by decide, by decide, by decide, by decide⟩
  rcases (page_order_leaves_score perm none [] none).2 with ⟨e, failed, -⟩ | made
  · rw [card] at failed
    cases failed
  · exact made

end Findings
end SeoAudit
