import SeoAudit.Proofs.FiniteValues
import SeoAudit.Proofs.Improvement

/-! The shape of a score card, for any pages whatever. The five categories come in their
order, every score is a whole number of halves within its bounds, and so no percentage
leaves 0 to 100. A report on such a card always has numbers that can be shown. -/
namespace SeoAudit

open Number (Halves)

/-- A category of an area with a score on the grid of halves from 0 to 20. Three areas
have whole points only. -/
structure Category.WellShaped (c : Category) (a : Area) : Prop where
  key : c.key = a.key
  name : c.name = a.title
  maxScore : c.maxScore = 20
  score : ∃ k : Nat, k ≤ 40 ∧ c.score.toRat? = some ((k : Rat) / 2)
  whole : a ∈ [.structuredData, .imagesMedia, .social] → ∃ n : Int, c.score = .whole n
  percentage : Number.percent c.score c.maxScore = .ok c.percentage
  bounds : 0 ≤ c.percentage ∧ c.percentage ≤ 100

namespace Findings
variable (f : Findings) (a : Area)

theorem category_percent :
    Number.percent (f.category a).score (f.category a).maxScore =
      .ok (Number.percentIn 20 (f.halves a)) := by
  rw [category_maxScore]
  exact (f.category_halves a).percent (by norm_num) (by norm_num) (f.halves_le a)

theorem category_percentage : (f.category a).percentage = Number.percentIn 20 (f.halves a) := by
  rw [Category.percentage, Number.percentOf, category_percent]
  rfl

theorem category_whole (ofShare : a ∈ [Area.structuredData, .imagesMedia, .social]) :
    ∃ n : Int, (f.category a).score = .whole n := by
  unfold category
  split_ifs
  · exact ⟨0, rfl⟩
  · cases a with
    | metaTags => simp at ofShare
    | technical => simp at ofShare
    | structuredData => exact ⟨_, Number.clampPoints_intCast _⟩
    | imagesMedia => exact ⟨_, Number.clampPoints_intCast _⟩
    | social => exact ⟨_, Number.clampPoints_intCast _⟩

theorem category_wellShaped : (f.category a).WellShaped a where
  key := f.category_key a
  name := f.category_name a
  maxScore := f.category_maxScore a
  score := ⟨f.halves a, f.halves_le a, (f.category_halves a).toRat?⟩
  whole := f.category_whole a
  percentage := by rw [category_percent, category_percentage]
  bounds := by
    rw [category_percentage]
    exact ⟨Number.percentIn_nonneg (by norm_num) (f.halves_le a),
      Number.percentIn_le (by norm_num) (f.halves_le a)⟩

end Findings

/-- A total on the grid of halves from 0 to 100, and its percentage. -/
structure Report.TotalsWithinBounds (r : Report) : Prop where
  total : ∃ k : Nat, k ≤ 200 ∧ r.totalScore.toRat? = some ((k : Rat) / 2)
  maxScore : r.maxScore = 100
  percentage : Number.percent r.totalScore r.maxScore = .ok r.percentage
  bounds : 0 ≤ r.percentage ∧ r.percentage ≤ 100

namespace Report
variable {r : Report} {f : Findings}

theorem Shows.withinBounds (shows_ : r.Shows f) : r.TotalsWithinBounds where
  total := ⟨f.totalHalves, f.totalHalves_le, shows_.totalScore_halves.toRat?⟩
  maxScore := shows_.maxScore_eq
  percentage := by rw [shows_.percent_eq, shows_.percentage_eq]
  bounds := by
    rw [shows_.percentage_eq, ← Number.percentIn_hundred]
    exact ⟨Number.percentIn_nonneg (by norm_num) f.totalHalves_le,
      Number.percentIn_le (by norm_num) f.totalHalves_le⟩

theorem Shows.exists_area (shows_ : r.Shows f) {c : Category} (member : c ∈ r.categories) :
    ∃ a, c = f.category a := by
  rw [shows_, f.score_categories, List.mem_map] at member
  obtain ⟨a, -, rfl⟩ := member
  exact ⟨a, rfl⟩

theorem Shows.checkPercentages (shows_ : r.Shows f) : r.checkPercentages = .ok () := by
  have scores : Number.sum? (r.categories.map (·.score)) = .ok r.totalScore := by
    rw [totalScore, shows_, f.score_categories, List.map_map]
    exact Number.Halves.sum?_eq (f.categoryScores_halves Area.all)
      (show f.totalHalves < 2 ^ 53 from f.totalHalves_le.trans_lt (by norm_num))
  have most : Number.sum? (r.categories.map (·.maxScore)) = .ok 100 := by
    rw [shows_, f.score_categories]
    simp only [Area.all, List.map, f.category_maxScore]
    rfl
  have percent := shows_.percent_eq
  rw [shows_.maxScore_eq] at percent
  have each : r.categories.forM (fun c => discard (Number.percent c.score c.maxScore)) = .ok () :=
    forM_eq_ok fun c member => by
      obtain ⟨a, rfl⟩ := shows_.exists_area member
      rw [f.category_percent]
      rfl
  simp only [Report.checkPercentages, scores, most, bind, Except.bind, percent]
  exact each

theorem Shows.checkPoints (shows_ : r.Shows f) : r.checkPoints = .ok () := by
  have total := shows_.totalScore_halves.toBinary?_eq (f.totalHalves_le.trans_lt (by norm_num))
  have most : (r.categories.filter (!·.issues.isEmpty)).forM
      (fun c => discard c.maxScore.toBinary?) = .ok () :=
    forM_eq_ok fun c member => by
      obtain ⟨a, rfl⟩ := shows_.exists_area (List.mem_of_mem_filter member)
      have twenty : Number.toBinary? 20 = .ok (.number 20) :=
        Number.toBinary?_natCast (n := 20) (by norm_num)
      rw [f.category_maxScore, twenty]
      rfl
  have each : r.categories.forM (fun c => discard c.score.toBinary?) = .ok () :=
    forM_eq_ok fun c member => by
      obtain ⟨a, rfl⟩ := shows_.exists_area member
      rw [(f.category_halves a).toBinary?_eq ((f.halves_le a).trans_lt (by norm_num))]
      rfl
  simp only [Report.checkPoints, most, total, bind, Except.bind]
  exact each

theorem Shows.checked (shows_ : r.Shows f) : r.checked = .ok r := by
  rw [Report.checked, shows_.checkPercentages, shows_.checkPoints]
  rfl

end Report
theorem Coverage.ofPages_size (pages : List Page) : (ofPages pages).size = pages.length :=
  (List.length_eq_length_filter_add Page.isCovered).symm

theorem Coverage.ofPages_size_ne_zero {pages : List Page} (some : pages ≠ []) :
    (ofPages pages).size ≠ 0 := by
  rw [ofPages_size]
  exact (List.length_pos_iff.mpr some).ne'

namespace Findings

theorem categories_wellShaped (f : Findings) (as : List Area) :
    List.Forall₂ Category.WellShaped (as.map f.category) as := by
  induction as with
  | nil => exact .nil
  | cons a as ih => exact .cons (f.category_wellShaped a) ih

theorem recommendations_ne_nil (f : Findings) : f.recommendations ≠ [] := by
  unfold recommendations
  split
  · exact List.cons_ne_nil _ _
  · assumption

theorem quickFixes_ne_nil (f : Findings) : f.quickFixes ≠ [] := by
  unfold quickFixes
  split
  · exact List.cons_ne_nil _ _
  · assumption

theorem score_without_pages {f : Findings} (empty : f.coverage.size = 0) :
    (∀ c ∈ f.score.categories, c.score = 0) ∧
      f.score.recommendations = [] ∧ f.score.quickFixes = [] := by
  refine ⟨fun c member => ?_, ?_⟩
  · rw [score_categories, List.mem_map] at member
    obtain ⟨a, -, rfl⟩ := member
    unfold category
    rw [if_pos empty]
    rfl
  · unfold score
    dsimp only
    rw [if_pos empty]
    exact ⟨rfl, rfl⟩

theorem advice_with_pages {f : Findings} (pages : f.coverage.size ≠ 0) :
    f.score.recommendations ≠ [] ∧ f.score.quickFixes ≠ [] := by
  unfold score
  dsimp only
  rw [if_neg pages]
  exact ⟨List.map_eq_nil_iff.not.mpr f.recommendations_ne_nil,
    List.map_eq_nil_iff.not.mpr f.quickFixes_ne_nil⟩

/-- The card of any pages, whatever their issues, tags, schemas and image counts are, with
any sitemap and any crawler rules. -/
theorem card_wellShaped (pages : List Page) (sitemap : Sitemap) (robots : Option Robots)
    (fit : CountsFit ⟨.ofPages pages, sitemap, robots⟩) :
    ∃ card, Findings.card ⟨.ofPages pages, sitemap, robots⟩ = .ok card ∧
      List.Forall₂ Category.WellShaped card.categories
        [.metaTags, .technical, .structuredData, .imagesMedia, .social] ∧
      (∀ r : Report, r.categories = card.categories → r.TotalsWithinBounds) ∧
      (pages = [] → (∀ c ∈ card.categories, c.score = 0) ∧
        card.recommendations = [] ∧ card.quickFixes = []) ∧
      (pages ≠ [] → card.recommendations ≠ [] ∧ card.quickFixes ≠ []) := by
  -- Of the list itself it only matters whether it has a page.
  generalize found : (⟨.ofPages pages, sitemap, robots⟩ : Findings) = f at fit ⊢
  have size : f.coverage.size = pages.length := by
    rw [← found]
    exact Coverage.ofPages_size pages
  have shaped := f.categories_wellShaped Area.all
  rw [← f.score_categories] at shaped
  refine ⟨f.score, fit.card_eq_score, shaped, fun r => Report.Shows.withinBounds, ?_, ?_⟩
  · rintro rfl
    exact score_without_pages size
  · intro some
    have nonzero : f.coverage.size ≠ 0 := by
      rw [size]
      exact List.length_eq_zero_iff.not.mpr some
    exact advice_with_pages nonzero

def contradictoryPage : Page :=
  { draftShop with images := { total := 1, withAlt := 0, withoutAlt := 4 } }

theorem contradictoryPage_card :
    CountsFit ⟨.ofPages [contradictoryPage], {}, none⟩ ∧
    ∃ card, Findings.card ⟨.ofPages [contradictoryPage], {}, none⟩ = .ok card ∧
      List.Forall₂ Category.WellShaped card.categories
        [.metaTags, .technical, .structuredData, .imagesMedia, .social] ∧
      card.recommendations ≠ [] ∧ card.quickFixes ≠ [] := by
  have fit : CountsFit ⟨.ofPages [contradictoryPage], {}, none⟩ := by
    constructor <;> decide
  obtain ⟨card, made, shaped, -, -, advice⟩ := card_wellShaped _ _ _ fit
  obtain ⟨recommended, fixes⟩ := advice (List.cons_ne_nil _ _)
  exact ⟨fit, card, made, shaped, recommended, fixes⟩

end Findings
end SeoAudit
