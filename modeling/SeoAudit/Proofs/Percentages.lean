import SeoAudit.Proofs.CardShape
import SeoAudit.Proofs.HalfUp
import SeoAudit.Proofs.PageAnalysis

/-! Percentages that are shown: of a total, of a category, and of the images of a page with
alternative text. All three are one function of the exact share, half up but for four
shares. Points come in halves, so a total or a category may well earn such a share. -/
namespace SeoAudit
open Binary64

namespace Number
variable {most k : Nat}

def ShowsShare (points most : Number) (percentage : Int) : Prop :=
  ∃ p m : Rat, points.toRat? = some p ∧ most.toRat? = some m ∧
    percent points most = .ok percentage ∧ percentage = shownPercent (p / m)

theorem percentIn_eq (pos : 0 < most) (le : k ≤ 2 * most) (fits : most ≤ 2 ^ 41) :
    percentIn most k = shownPercent ((k : Rat) / 2 / most) := by
  have share : (k : Rat) / 2 / most = ((k : Int) : Rat) / (2 * most : Int) := by
    push_cast
    rw [div_div]
  have shown : binaryScaled 100 (binaryShare k (2 * most : Int)) = _ :=
    binaryScaled_hundred (by omega) (by omega) (by omega) (by omega)
  rwa [binaryShare, ← share] at shown

theorem Halves.showsShare {n : Number} (h : Halves n k) (pos : 0 < most) (le : k ≤ 2 * most)
    (fits : most ≤ 2 ^ 41) :
    ShowsShare n (.whole most) (percentOf n (.whole most)) := by
  have computed := h.percent pos (by omega) le
  rw [percentIn_eq pos le fits] at computed
  have value : percentOf n (.whole most) = shownPercent ((k : Rat) / 2 / most) := by
    rw [percentOf, computed]
    rfl
  exact ⟨k / 2, most, h.toRat?, rfl, value ▸ computed, value⟩

end Number

namespace Images

theorem altCoverage_eq {withAlt total : Nat} (le : withAlt ≤ total) (pos : 0 < total)
    (fits : total ≤ 2 ^ 42) :
    altCoverage withAlt total = shownPercent ((withAlt : Int) / (total : Int)) := by
  have nonneg : (0 : Int) ≤ withAlt := by omega
  have leInt : (withAlt : Int) ≤ total := by omega
  have share := binaryShare_le_one nonneg leInt
  obtain ⟨productNonneg, productLe⟩ :=
    nearest_scaled_bounds (by norm_num) le_rfl (binaryShare_nonneg nonneg leInt) share
  rw [altCoverage, rounded, ratio_eq_number nonneg leInt,
    mul_number (binaryShare_nonneg nonneg leInt) (by norm_num) (by linarith),
    roundHalf_number productNonneg (by linarith)]
  exact binaryScaled_hundred nonneg leInt (by omega) (by omega)

theorem mem_judge_withoutAlt {total withAlt withoutAlt lazyCount count : Nat} {coverage : Int} :
    .withoutAlt count coverage ∈ judge total withAlt withoutAlt lazyCount ↔
      0 < withoutAlt ∧ count = withoutAlt ∧ coverage = altCoverage withAlt total := by
  unfold judge
  split_ifs <;> simp_all

def TellsCoverage (i : Images) : Prop :=
  ∃ judged : List ImageIssue, i.issues = judged.map ImageIssue.message ∧
    ∀ (count : Nat) (coverage : Int), .withoutAlt count coverage ∈ judged ↔
      0 < count ∧ count = i.withoutAlt ∧ coverage = shownPercent (i.withAlt / i.total)

theorem ofTags_tellsCoverage {tags : List Text} (fits : tags.length ≤ 2 ^ 42) :
    (ofTags tags).TellsCoverage := by
  have within : tags.countP hasAlt ≤ tags.length := List.countP_le_length
  have without : tags.countP (!hasAlt ·) ≤ tags.length := List.countP_le_length
  refine ⟨_, rfl, fun count coverage => ?_⟩
  rw [mem_judge_withoutAlt]
  constructor
  · rintro ⟨some, rfl, rfl⟩
    exact ⟨some, rfl, altCoverage_eq within (some.trans_le without) fits⟩
  · rintro ⟨some, same, rfl⟩
    have count_eq : count = tags.countP (!hasAlt ·) := Int.ofNat_inj.mp same
    rw [count_eq] at some
    exact ⟨some, count_eq, (altCoverage_eq within (some.trans_le without) fits).symm⟩

theorem ofText_tellsCoverage {text : Text} (fits : (ofText text).total ≤ 2 ^ 42) :
    (ofText text).TellsCoverage := by
  unfold ofText at fits ⊢
  generalize Markup.region? text = found at fits ⊢
  cases found with
  | none =>
    refine ⟨[], rfl, fun count coverage => ?_⟩
    simp only [Option.map_none, Option.getD_none, List.not_mem_nil, false_iff]
    omega
  | some region =>
    have length : ((tags region).length : Int) ≤ 2 ^ 42 := fits
    exact ofTags_tellsCoverage (by exact_mod_cast length)

end Images

namespace Findings

theorem eq_score_of_card {f : Findings} {card : ScoreCard} (made : f.card = .ok card) :
    card = f.score := by
  obtain ⟨-, -, same⟩ := bind_eq_ok_iff.mp made
  exact (Except.ok.inj same).symm

/-- The percentages of a report on any pages, and those of the alternative texts of a page
with up to 2 ^ 42 images, are half up but for the four short shares. -/
theorem percentages_are_shown {pages : List Page} {sitemap : Sitemap} {robots : Option Robots}
    {card : ScoreCard} (made : Findings.card ⟨.ofPages pages, sitemap, robots⟩ = .ok card)
    {r : Report} (categories : r.categories = card.categories) {text : Text}
    (fits : (Images.ofText text).total ≤ 2 ^ 42) :
    r.maxScore = 100 ∧ Number.ShowsShare r.totalScore r.maxScore r.percentage ∧
      (∀ c ∈ r.categories,
        c.maxScore = 20 ∧ Number.ShowsShare c.score c.maxScore c.percentage) ∧
      (Images.ofText text).TellsCoverage := by
  have shows_ : r.Shows ⟨.ofPages pages, sitemap, robots⟩ := by
    rw [Report.Shows, categories, eq_score_of_card made]
  generalize (⟨.ofPages pages, sitemap, robots⟩ : Findings) = f at shows_
  refine ⟨shows_.maxScore_eq, ?_, fun c member => ?_, Images.ofText_tellsCoverage fits⟩
  · rw [Report.percentage, shows_.maxScore_eq]
    exact shows_.totalScore_halves.showsShare (by norm_num) f.totalHalves_le (by norm_num)
  · obtain ⟨a, rfl⟩ := shows_.exists_area member
    refine ⟨f.category_maxScore a, ?_⟩
    rw [Category.percentage, f.category_maxScore a]
    exact (f.category_halves a).showsShare (by norm_num) (f.halves_le a) (by norm_num)

def bareDocument : Document where
  path := "app/pages/index.vue"
  name := "index"
  text := "<template><h1>Oak</h1></template> useSeoMeta() useHead()"

def listedFindings (page : Page) : Findings :=
  ⟨.ofPages [page], { source := some "server/sitemap.ts", listed := ["/"] },
    some { configured := true }⟩

def listedReport (page : Page) : Report :=
  .ofCard "shop" "app/pages" (listedFindings page).coverage (listedFindings page).score {} [] []

theorem bareDocument_analyzed : ∃ page, bareDocument.analyze none = .ok page ∧
    (listedFindings page).card = .ok (listedFindings page).score ∧
    (listedReport page).totalScore.toRat? = some (113 / 2) ∧
      (listedReport page).percentage = 56 := by
  have checked : (bareDocument.analyze none).map (fun page =>
      ((listedReport page).totalScore.toRat?, (listedReport page).percentage)) =
        .ok (some (113 / 2), 56) := by
    decide +kernel
  obtain ⟨page, analyzed, both⟩ := map_eq_ok_iff.mp checked
  obtain ⟨total, percentage⟩ := Prod.mk.inj both
  have counts : (listedFindings page).CountsImages :=
    .of_pages (List.forall_mem_singleton.mpr (Document.analyze_describes analyzed).countsImages) _ _
  exact ⟨page, analyzed, card_eq_score counts, total, percentage⟩

def galleryText : Text :=
  Text.ofString "<template>" ++ (List.replicate 23 (Text.ofString "<img alt='oak'>")).flatten ++
    (List.replicate 17 (Text.ofString "<img>")).flatten ++ Text.ofString "</template>"

theorem bareDocument_and_gallery_are_shown :
    (∃ page, bareDocument.analyze none = .ok page ∧
      Number.ShowsShare (listedReport page).totalScore (listedReport page).maxScore
        (listedReport page).percentage ∧ (listedReport page).percentage = 56) ∧
    (Images.ofText galleryText).total = 40 ∧ (Images.ofText galleryText).TellsCoverage ∧
    shownPercent (23 / 40) = 57 := by
  obtain ⟨page, analyzed, made, -, percentage⟩ := bareDocument_analyzed
  have gallery : (Images.ofText galleryText).total = 40 := by decide +kernel
  obtain ⟨-, total, -, told⟩ :=
    percentages_are_shown made (r := listedReport page) rfl (show _ ≤ _ by rw [gallery]; norm_num)
  exact ⟨⟨page, analyzed, total, percentage⟩, gallery, told, by decide +kernel⟩

/-- The percentage of a total is not always the exact one rounded half up. -/
theorem percentages_lose_halves :
    ¬ ∀ (pages : List Page) (sitemap : Sitemap) (robots : Option Robots) (card : ScoreCard),
      Findings.card ⟨.ofPages pages, sitemap, robots⟩ = .ok card →
      ∀ r : Report, r.categories = card.categories →
        ∀ total : Rat, r.totalScore.toRat? = some total →
          r.percentage = halfUp (100 * total / 100) := by
  intro law
  obtain ⟨page, -, made, total, percentage⟩ := bareDocument_analyzed
  have exact_ := law _ _ _ _ made (listedReport page) rfl _ total
  have half : halfUp (100 * (113 / 2) / 100) = 57 := by decide +kernel
  rw [percentage, half] at exact_
  cases exact_

end Findings
end SeoAudit
