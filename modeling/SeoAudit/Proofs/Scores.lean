import SeoAudit.Proofs.Points

/-! Scores in halves of a point. Every category score is a whole number of halves
between 0 and 40, so the total of a card is exact, and its percentage is a function of
the sum of these numbers. -/
namespace SeoAudit

open Number (Halves)

namespace Coverage

def metaLoss (c : Coverage) : Nat :=
  totalOf (·.metadata.issues.length) c.covered + 4 * c.uncovered.length

theorem metaCategory_halves (c : Coverage) : Halves c.metaCategory.score (40 - c.metaLoss) := by
  generalize loss : c.metaLoss = l
  have exact_ := Number.clampPoints_halves (40 - l)
  have value : ((40 - l : Int) : Rat) / 2 = (categoryMax : Nat) - c.metaPenalty := by
    rw [metaPenalty, ← loss, metaLoss, categoryMax]
    push_cast
    ring
  have count : min 40 ((40 : Int) - l).toNat = 40 - l := by omega
  rwa [value, count] at exact_

def taggedCount (c : Coverage) (tags : Page → Table Bool) : Int :=
  (c.covered.countP fun p => hasEnoughTags (tags p) : Nat)

theorem taggedCount_bounds (c : Coverage) (tags : Page → Table Bool) :
    0 ≤ c.taggedCount tags ∧ c.taggedCount tags ≤ c.size := by
  have covered : (c.covered.countP fun p => hasEnoughTags (tags p)) ≤ c.covered.length :=
    List.countP_le_length
  simp only [taggedCount, size]
  omega

def tagShare (c : Coverage) (tags : Page → Table Bool) : Rat :=
  binaryShare (c.taggedCount tags) c.size

theorem tagShare_nonneg (c : Coverage) (tags : Page → Table Bool) : 0 ≤ c.tagShare tags :=
  binaryShare_nonneg (c.taggedCount_bounds tags).1 (c.taggedCount_bounds tags).2

theorem tagShare_le_one (c : Coverage) (tags : Page → Table Bool) : c.tagShare tags ≤ 1 :=
  binaryShare_le_one (c.taggedCount_bounds tags).1 (c.taggedCount_bounds tags).2

theorem ratio_taggedCount (c : Coverage) (tags : Page → Table Bool) :
    ratio (c.taggedCount tags) c.size = .number (c.tagShare tags) :=
  ratio_eq_number (c.taggedCount_bounds tags).1 (c.taggedCount_bounds tags).2

theorem socialPoints_eq (c : Coverage) :
    c.socialPoints = shareOfMax (.number
      (meanShare (c.tagShare (·.metadata.ogTags)) (c.tagShare (·.metadata.twitterTags)))) := by
  have counts : c.socialPoints = shareOfMax (.mul (.add
      (ratio (c.taggedCount (·.metadata.ogTags)) c.size)
      (ratio (c.taggedCount (·.metadata.twitterTags)) c.size)) .half) := rfl
  rw [counts, ratio_taggedCount, ratio_taggedCount, mean_eq_number (c.tagShare_nonneg _)
    (c.tagShare_nonneg _) (c.tagShare_le_one _) (c.tagShare_le_one _)]

end Coverage

namespace Findings

def technicalLoss (f : Findings) : Nat :=
  2 * f.coverage.covered.countP (!·.metadata.canonical) +
    totalOf (·.headings.issues.length) f.coverage.covered +
    (if f.hasRobots then 0 else 6) + min 6 f.sitemap.missing.length

theorem sitemapPenalty_eq (f : Findings) :
    f.sitemapPenalty = ((min 6 f.sitemap.missing.length : Nat) : Rat) / 2 := by
  unfold sitemapPenalty
  split_ifs with many
  · rw [min_eq_left many.le]
    norm_num
  · rw [min_eq_right (not_lt.mp many)]

theorem technicalPenalty_eq (f : Findings) : f.technicalPenalty = (f.technicalLoss : Rat) / 2 := by
  have rules :
      (if f.hasRobots then 0 else 3 : Rat) = ((if f.hasRobots then 0 else 6 : Nat) : Rat) / 2 := by
    split_ifs <;> norm_num
  rw [technicalPenalty, technicalLoss, rules, sitemapPenalty_eq]
  push_cast
  ring

theorem technicalCategory_halves (f : Findings) :
    Halves f.technicalCategory.score (40 - f.technicalLoss) := by
  generalize loss : f.technicalLoss = l
  have exact_ := Number.clampPoints_halves (40 - l)
  have value : ((40 - l : Int) : Rat) / 2 = (categoryMax : Nat) - f.technicalPenalty := by
    rw [technicalPenalty_eq, loss, categoryMax]
    push_cast
    ring
  have count : min 40 ((40 : Int) - l).toNat = 40 - l := by omega
  rwa [value, count] at exact_

/-- The score of a category in halves of a point, when there are pages. -/
def earned (f : Findings) : Area → Nat
  | .metaTags => 40 - f.coverage.metaLoss
  | .technical => 40 - f.technicalLoss
  | .structuredData => min 40 (2 * f.coverage.structuredPoints).toNat
  | .imagesMedia =>
    min 40 (2 * Coverage.imagePoints f.coverage.totalImages f.coverage.imagesWithoutAlt).toNat
  | .social => min 40 (2 * f.coverage.socialPoints).toNat

def halves (f : Findings) (a : Area) : Nat := if f.coverage.size = 0 then 0 else f.earned a

theorem earned_le (f : Findings) (a : Area) : f.earned a ≤ 40 := by
  cases a <;> simp only [earned] <;> omega

theorem halves_le (f : Findings) (a : Area) : f.halves a ≤ 40 := by
  have bound := f.earned_le a
  unfold halves
  split_ifs <;> omega

theorem category_of_pages {f : Findings} (pages : f.coverage.size ≠ 0) (a : Area) :
    f.category a = match a with
      | .metaTags => f.coverage.metaCategory
      | .technical => f.technicalCategory
      | .structuredData => f.coverage.structuredCategory
      | .imagesMedia => f.coverage.imagesCategory
      | .social => f.coverage.socialCategory := by
  unfold category
  cases a <;> exact if_neg pages

theorem category_halves (f : Findings) (a : Area) : Halves (f.category a).score (f.halves a) := by
  by_cases empty : f.coverage.size = 0
  · unfold category halves
    rw [if_pos empty, if_pos empty]
    exact .whole 0
  · rw [category_of_pages empty, halves, if_neg empty]
    cases a with
    | metaTags => exact f.coverage.metaCategory_halves
    | technical => exact f.technicalCategory_halves
    | structuredData => exact Number.clampPoints_intCast_halves _
    | imagesMedia => exact Number.clampPoints_intCast_halves _
    | social => exact Number.clampPoints_intCast_halves _

theorem category_form (f : Findings) (a : Area) :
    ∃ score issues, f.category a = a.category score issues := by
  unfold category
  split_ifs
  · exact ⟨_, _, rfl⟩
  · cases a <;> exact ⟨_, _, rfl⟩

theorem category_key (f : Findings) (a : Area) : (f.category a).key = a.key := by
  obtain ⟨score, issues, form⟩ := f.category_form a
  rw [form]
  rfl

theorem category_name (f : Findings) (a : Area) : (f.category a).name = a.title := by
  obtain ⟨score, issues, form⟩ := f.category_form a
  rw [form]
  rfl

theorem category_maxScore (f : Findings) (a : Area) : (f.category a).maxScore = 20 := by
  obtain ⟨score, issues, form⟩ := f.category_form a
  rw [form]
  rfl

def totalHalves (f : Findings) : Nat := (Area.all.map f.halves).sum

theorem totalHalves_le (f : Findings) : f.totalHalves ≤ 200 := by
  have h₁ := f.halves_le .metaTags
  have h₂ := f.halves_le .technical
  have h₃ := f.halves_le .structuredData
  have h₄ := f.halves_le .imagesMedia
  have h₅ := f.halves_le .social
  simp only [totalHalves, Area.all, List.map, List.sum_cons, List.sum_nil]
  omega

theorem score_categories (f : Findings) : f.score.categories = Area.all.map f.category := by
  unfold score
  dsimp only
  split_ifs <;> rfl

theorem categoryScores_halves (f : Findings) (as : List Area) :
    List.Forall₂ Halves (as.map fun a => (f.category a).score) (as.map f.halves) := by
  induction as with
  | nil => exact .nil
  | cons a as ih => exact .cons (f.category_halves a) ih

def CountsImages (f : Findings) : Prop :=
  0 ≤ f.coverage.imagesWithoutAlt ∧ f.coverage.imagesWithoutAlt ≤ f.coverage.totalImages

theorem checkShare_ok {part total : Int} (nonneg : 0 ≤ part) (le : part ≤ total) :
    checkShare part total = .ok () := by
  have quotient : Number.wholeQuotient part total = .ok (.number (binaryShare part total)) := by
    have rounded := ratio_eq_number nonneg le
    rw [ratio] at rounded
    rw [Number.wholeQuotient, rounded]
  have points := roundHalf_share (binaryShare_nonneg nonneg le) (binaryShare_le_one nonneg le)
  simp only [checkShare, quotient, bind, Except.bind, points]
  rfl

/-- A card is refused for nothing but the shares of images. -/
theorem card_of_shares {f : Findings}
    (withAlt : 0 < f.coverage.totalImages →
      checkShare (f.coverage.totalImages - f.coverage.imagesWithoutAlt)
        f.coverage.totalImages = .ok ())
    (withoutAlt : 0 < f.coverage.totalImages →
      checkShare f.coverage.imagesWithoutAlt f.coverage.totalImages = .ok ()) :
    f.card = .ok f.score := by
  have checked : f.checkImages = .ok () := by
    by_cases some : 0 < f.coverage.totalImages
    · simp only [checkImages, withAlt some, withoutAlt some]
      split_ifs <;> rfl
    · simp only [checkImages, some, decide_false, Bool.and_false, Bool.false_eq_true, if_false]
      rfl
  rw [card, checked]
  rfl

theorem card_eq_score {f : Findings} (counts : f.CountsImages) : f.card = .ok f.score := by
  obtain ⟨nonneg, le⟩ := counts
  exact card_of_shares (fun _ => checkShare_ok (by omega) (by omega))
    fun _ => checkShare_ok nonneg le

end Findings

namespace Report

def Shows (r : Report) (f : Findings) : Prop := r.categories = f.score.categories

theorem Shows.totalScore_halves {r : Report} {f : Findings} (shows_ : r.Shows f) :
    Halves r.totalScore f.totalHalves := by
  have scores := f.categoryScores_halves Area.all
  have fits := f.totalHalves_le
  rw [totalScore, shows_, f.score_categories, List.map_map]
  exact Number.Halves.sum scores (show f.totalHalves < 2 ^ 53 by omega)

theorem Shows.maxScore_eq {r : Report} {f : Findings} (shows_ : r.Shows f) :
    r.maxScore = 100 := by
  rw [maxScore, shows_, f.score_categories]
  simp only [Area.all, List.map, f.category_maxScore]
  rfl

theorem Shows.percent_eq {r : Report} {f : Findings} (shows_ : r.Shows f) :
    Number.percent r.totalScore r.maxScore = .ok (Number.percentOfHalves f.totalHalves) := by
  rw [shows_.maxScore_eq, ← Number.percentIn_hundred]
  exact shows_.totalScore_halves.percent (by norm_num) (by norm_num) f.totalHalves_le

theorem Shows.percentage_eq {r : Report} {f : Findings} (shows_ : r.Shows f) :
    r.percentage = Number.percentOfHalves f.totalHalves := by
  rw [percentage, Number.percentOf, shows_.percent_eq]
  rfl

end Report
end SeoAudit
