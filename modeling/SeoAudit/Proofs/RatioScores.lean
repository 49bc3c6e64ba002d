import SeoAudit.Proofs.CardShape
import SeoAudit.Proofs.HalfUp

/-! The three categories that are shares of counts. With up to 2 ^ 40 pages and images,
structured data and images earn exactly their share of 20 points, rounded half up. Social
sharing adds two rounded shares first: its score is exact too, or a point less where the
exact score is a half and the two shares add up to less than the rounded exact sum. -/
namespace SeoAudit
open Binary64

theorem shareOfMax_ratio {part total : Int} (nonneg : 0 ≤ part) (le : part ≤ total)
    (pos : 0 < total) (fits : total ≤ 2 ^ 42) :
    shareOfMax (ratio part total) = halfUp (20 * (part / total)) := by
  rw [ratio_eq_number nonneg le,
    shareOfMax_number (binaryShare_nonneg nonneg le) (binaryShare_le_one nonneg le)]
  exact binaryScaled_twenty nonneg le pos fits

/-- Ten times the sum of two shares is a half, and their binary sum falls below the binary
value of the exact sum. -/
def LosesHalf (first second total : Int) : Prop :=
  (∃ m : Int, (10 * ((first + second) / total) + 1 / 2 : Rat) = m) ∧
    Binary64.lt (.add (ratio first total) (ratio second total)) (ratio (first + second) total)

theorem binaryScaled_sum_at_half : ∀ j ∈ List.range 20,
    binaryScaled 20 (nearest (nearest (2 * ((2 * j + 1) / (2 * (20 : Int)))) * (1 / 2))) =
      j + 1 := by
  decide +kernel

section Mean
variable {first second total : Int} (hf : 0 ≤ first) (hs : 0 ≤ second) (fLe : first ≤ total)
  (sLe : second ≤ total) (pos : 0 < total)
include hf hs fLe sLe pos

theorem meanShare_standsFor :
    StandsFor (meanShare (binaryShare first total) (binaryShare second total))
      ((first + second : Int) / (2 * total : Int)) := by
  have shareError {part : Int} (nonneg : 0 ≤ part) (le : part ≤ total) :
      |binaryShare part total - part / total| ≤ 2 ^ (1 - 54 : Int) :=
    abs_nearest_sub_le (exactShare_nonneg nonneg le)
      ((exactShare_le_one nonneg le).trans_lt (by norm_num)) (by norm_num)
  have fNonneg := binaryShare_nonneg hf fLe
  have sNonneg := binaryShare_nonneg hs sLe
  have fLeOne := binaryShare_le_one hf fLe
  have sLeOne := binaryShare_le_one hs sLe
  have fError := shareError hf fLe
  have sError := shareError hs sLe
  have sumLe := nearest_sum_le_two fNonneg sNonneg fLeOne sLeOne
  have sumNonneg := nearest_nonneg (add_nonneg fNonneg sNonneg)
  have sumError := abs_nearest_sub_le (e := 2) (add_nonneg fNonneg sNonneg)
    (by norm_num; linarith) (by norm_num)
  have halfError := abs_nearest_sub_le (e := 1)
    (q := nearest (binaryShare first total + binaryShare second total) * (1 / 2))
    (by linarith) (by norm_num; linarith) (by norm_num)
  have totalPos : (0 : Rat) < total := by exact_mod_cast pos
  have exact_ : ((first + second : Int) : Rat) / (2 * total : Int) =
      (first / total + second / total) * (1 / 2) := by
    push_cast
    field_simp
  refine ⟨meanShare_nonneg fNonneg sNonneg, meanShare_le_one fNonneg sNonneg fLeOne sLeOne, ?_⟩
  rw [exact_, meanShare]
  norm_num at fError sError sumError halfError ⊢
  rw [abs_le] at fError sError sumError halfError ⊢
  constructor <;> linarith

theorem lt_ratio_add_iff :
    Binary64.lt (.add (ratio first total) (ratio second total)) (ratio (first + second) total) ↔
      nearest (binaryShare first total + binaryShare second total) <
        nearest ((first + second) / total) := by
  have totalPos : (0 : Rat) < total := by exact_mod_cast pos
  have sumNonneg : (0 : Rat) ≤ (first + second) / total := by positivity
  have sumLe : (first + second : Rat) / total ≤ 2 := by
    rw [div_le_iff₀ totalPos]
    have fCast : (first : Rat) ≤ total := by exact_mod_cast fLe
    have sCast : (second : Rat) ≤ total := by exact_mod_cast sLe
    linarith
  have both : ratio (first + second) total = number (nearest ((first + second) / total)) := by
    rw [ratio]
    push_cast
    exact ofRat_eq_number sumNonneg (by linarith)
  have fShare := binaryShare_le_one hf fLe
  have sShare := binaryShare_le_one hs sLe
  rw [ratio_eq_number hf fLe, ratio_eq_number hs sLe, both,
    add_number (add_nonneg (binaryShare_nonneg hf fLe) (binaryShare_nonneg hs sLe)) (by linarith)]
  simp only [Binary64.lt, toRat?, decide_eq_true_eq]

omit pos in
theorem le_binaryScaled_mean {j : Nat} (below : j < 20)
    (sum : (first + second : Rat) / total = 2 * ((2 * j + 1) / (2 * (20 : Int))))
    (kept : nearest ((first + second) / total) ≤
      nearest (binaryShare first total + binaryShare second total)) :
    j + 1 ≤ binaryScaled 20 (meanShare (binaryShare first total) (binaryShare second total)) := by
  have fNonneg := binaryShare_nonneg hf fLe
  have sNonneg := binaryShare_nonneg hs sLe
  have exactNonneg : (0 : Rat) ≤ nearest ((first + second) / total) * (1 / 2) :=
    mul_nonneg (nearest_nonneg (by rw [sum]; positivity)) (by norm_num)
  have halves : nearest ((first + second) / total) * (1 / 2) ≤
      nearest (binaryShare first total + binaryShare second total) * (1 / 2) := by linarith
  have points :
      binaryScaled 20 (nearest (nearest ((first + second) / total) * (1 / 2))) ≤
        binaryScaled 20 (meanShare (binaryShare first total) (binaryShare second total)) :=
    binaryScaled_mono (by norm_num) (by norm_num) (nearest_nonneg exactNonneg)
      (nearest_mono exactNonneg halves)
      (meanShare_le_one fNonneg sNonneg (binaryShare_le_one hf fLe) (binaryShare_le_one hs sLe))
  rw [sum, binaryScaled_sum_at_half j (List.mem_range.mpr below)] at points
  exact points

theorem binaryScaled_mean (fits : total ≤ 2 ^ 41) :
    let exact_ := halfUp (10 * ((first + second) / total))
    let computed :=
      binaryScaled 20 (meanShare (binaryShare first total) (binaryShare second total))
    computed = exact_ ∨ computed = exact_ - 1 ∧ LosesHalf first second total := by
  intro exact_ computed
  have near := meanShare_standsFor hf hs fLe sLe pos
  have totalPos : (0 : Rat) < total := by exact_mod_cast pos
  have twice : (first + second : Rat) / total =
      2 * (((first + second : Int) : Rat) / (2 * total : Int)) := by
    push_cast
    field_simp
  have scaled : (10 : Rat) * ((first + second) / total) =
      20 * (((first + second : Int) : Rat) / (2 * total : Int)) := by
    rw [twice]
    ring
  by_cases at_half : ∃ m : Int,
      (20 : Int) * (((first + second : Int) : Rat) / (2 * total : Int)) + 1 / 2 = m
  · obtain ⟨m, half⟩ := at_half
    obtain ⟨j, below, rfl, share⟩ := part_of_half (by omega) (by omega) (by norm_num) half
    have exactHalf : (10 : Rat) * ((first + second) / total) + 1 / 2 = (j + 1 : Int) := by
      rw [scaled]
      exact_mod_cast half
    have value : exact_ = j + 1 := halfUp_at_half exactHalf
    rw [value]
    by_cases short : nearest (binaryShare first total + binaryShare second total) <
        nearest ((first + second) / total)
    · have loses : LosesHalf first second total :=
        ⟨⟨_, exactHalf⟩, (lt_ratio_add_iff hf hs fLe sLe pos).mpr short⟩
      have points : computed = j + 1 ∨ computed = j + 1 - 1 :=
        near.binaryScaled_at_half (by norm_num) (by norm_num) (by exact_mod_cast half)
      exact points.imp_right fun less => ⟨less, loses⟩
    · rw [share] at twice
      have atLeast : j + 1 ≤ computed :=
        le_binaryScaled_mean hf hs fLe sLe (by omega) twice (not_lt.mp short)
      have points : computed = j + 1 ∨ computed = j + 1 - 1 :=
        near.binaryScaled_at_half (by norm_num) (by norm_num) (by exact_mod_cast half)
      left
      omega
  · have apart := scaled_apart (by omega) (by omega) (not_exists.mp at_half)
    left
    show computed = halfUp _
    rw [scaled]
    exact near.binaryScaled_of_apart (by norm_num) (by norm_num) (by exact_mod_cast apart)

end Mean

namespace Coverage
variable (c : Coverage)

def exactStructured (pages : List Page) : Int :=
  let withSchemas : Int := pages.countP (!·.metadata.schemas.isEmpty)
  min 20 (halfUp (20 * (withSchemas / (pages.length : Int))) +
    if pages.any hasRichSchema then 2 else 0)

def exactImages : Int :=
  if c.totalImages = 0 then 20
  else halfUp (20 * ((c.totalImages - c.imagesWithoutAlt : Int) / c.totalImages))

def exactSocial : Int :=
  halfUp (10 * ((c.taggedCount (·.metadata.ogTags) + c.taggedCount (·.metadata.twitterTags)) /
    (c.size : Int)))

theorem structuredPoints_ofPages {pages : List Page} (some : pages ≠ [])
    (fits : pages.length ≤ 2 ^ 42) :
    (ofPages pages).structuredPoints = exactStructured pages ∧ 0 ≤ exactStructured pages := by
  have perm : (ofPages pages).pages.Perm pages := List.filter_append_perm _ _
  have within : pages.countP (!·.metadata.schemas.isEmpty) ≤ pages.length :=
    List.countP_le_length
  have pos : 0 < pages.length := List.length_pos_iff.mpr some
  rw [structuredPoints, perm.countP_eq, perm.length_eq, perm.any_eq, exactStructured]
  generalize pages.countP (!·.metadata.schemas.isEmpty) = typed at within ⊢
  have nonneg : (0 : Int) ≤ typed := by omega
  have le : (typed : Int) ≤ pages.length := by omega
  have share := shareOfMax_ratio nonneg le (by omega) (by omega)
  have least := shareOfMax_ratio_nonneg nonneg le
  have most := shareOfMax_ratio_le nonneg le
  simp only [categoryMax] at most
  rw [share] at least most ⊢
  split_ifs
  · exact ⟨rfl, by omega⟩
  · exact ⟨by omega, by omega⟩

variable {c}

theorem imagePoints_eq_exact (nonneg : 0 ≤ c.imagesWithoutAlt)
    (le : c.imagesWithoutAlt ≤ c.totalImages) (fits : c.totalImages ≤ 2 ^ 42) :
    imagePoints c.totalImages c.imagesWithoutAlt = c.exactImages ∧
      0 ≤ c.exactImages ∧ c.exactImages ≤ 20 := by
  unfold imagePoints exactImages
  by_cases none_ : c.totalImages = 0
  · rw [if_neg (by omega), if_pos none_]
    decide
  · have withAltNonneg : 0 ≤ c.totalImages - c.imagesWithoutAlt := by omega
    have withAltLe : c.totalImages - c.imagesWithoutAlt ≤ c.totalImages := by omega
    rw [if_pos (by omega), if_neg none_,
      ← shareOfMax_ratio withAltNonneg withAltLe (by omega) fits]
    exact ⟨rfl, shareOfMax_ratio_nonneg withAltNonneg withAltLe,
      shareOfMax_ratio_le withAltNonneg withAltLe⟩

theorem socialPoints_eq_exact (some : 0 < c.size) (fits : c.size ≤ 2 ^ 41) :
    c.socialPoints = c.exactSocial ∨ c.socialPoints = c.exactSocial - 1 ∧
      LosesHalf (c.taggedCount (·.metadata.ogTags)) (c.taggedCount (·.metadata.twitterTags))
        c.size := by
  obtain ⟨ogNonneg, ogLe⟩ := c.taggedCount_bounds (·.metadata.ogTags)
  obtain ⟨twitterNonneg, twitterLe⟩ := c.taggedCount_bounds (·.metadata.twitterTags)
  have points := binaryScaled_mean ogNonneg twitterNonneg ogLe twitterLe (by omega) (by omega)
  rw [c.socialPoints_eq, shareOfMax_number
    (meanShare_nonneg (c.tagShare_nonneg _) (c.tagShare_nonneg _))
    (meanShare_le_one (c.tagShare_nonneg _) (c.tagShare_nonneg _) (c.tagShare_le_one _)
      (c.tagShare_le_one _))]
  exact points

theorem socialPoints_bounds : 0 ≤ c.socialPoints ∧ c.socialPoints ≤ 20 := by
  have nonneg := meanShare_nonneg (c.tagShare_nonneg (·.metadata.ogTags))
    (c.tagShare_nonneg (·.metadata.twitterTags))
  have leOne := meanShare_le_one (c.tagShare_nonneg (·.metadata.ogTags))
    (c.tagShare_nonneg (·.metadata.twitterTags)) (c.tagShare_le_one _) (c.tagShare_le_one _)
  have least := shareOfMax_mono le_rfl nonneg leOne
  have most := shareOfMax_mono nonneg leOne le_rfl
  rw [shareOfMax_zero, ← c.socialPoints_eq] at least
  rw [shareOfMax_one, ← c.socialPoints_eq] at most
  exact ⟨least, most⟩

end Coverage

namespace Findings

/-- On a card of up to 2 ^ 40 pages and images, structured data and images have their exact
points. Social sharing has its exact points too, but for a half that its two shares lose. -/
theorem shares_earn_exact_points {pages : List Page} (some : pages ≠ [])
    (counted : ∀ p ∈ pages, p.CountsImages) (fits : pages.length ≤ 2 ^ 40)
    (images : (Coverage.ofPages pages).totalImages ≤ 2 ^ 40)
    (sitemap : Sitemap) (robots : Option Robots) :
    let c := Coverage.ofPages pages
    let f : Findings := ⟨c, sitemap, robots⟩
    f.card = .ok f.score ∧
    (f.category .structuredData).score = .whole (Coverage.exactStructured pages) ∧
    (f.category .imagesMedia).score = .whole c.exactImages ∧
    ((f.category .social).score = .whole c.exactSocial ∨
      (f.category .social).score = .whole (c.exactSocial - 1) ∧
      LosesHalf (c.taggedCount (·.metadata.ogTags)) (c.taggedCount (·.metadata.twitterTags))
        pages.length) := by
  intro c f
  have size : c.size = pages.length := Coverage.ofPages_size pages
  have pos : 0 < pages.length := List.length_pos_iff.mpr some
  have counts : f.CountsImages :=
    sumOf_bounds fun p member => counted p (List.mem_filter.mp member).1
  have shown := f.category_of_pages (show c.size ≠ 0 by omega)
  obtain ⟨structured, structuredNonneg⟩ := Coverage.structuredPoints_ofPages some (by omega)
  obtain ⟨withAlt, imagesNonneg, imagesLe⟩ :=
    Coverage.imagePoints_eq_exact (c := c) counts.1 counts.2 (images.trans (by norm_num))
  have structuredLe : Coverage.exactStructured pages ≤ 20 := min_le_left _ _
  refine ⟨card_eq_score counts, ?_, ?_, ?_⟩
  · rw [shown]
    show clampPoints c.structuredPoints = _
    rw [Number.clampPoints_intCast, structured]
    congr 1
    omega
  · rw [shown]
    show clampPoints (Coverage.imagePoints c.totalImages c.imagesWithoutAlt) = _
    rw [Number.clampPoints_intCast, withAlt]
    congr 1
    omega
  · have bounds := c.socialPoints_bounds
    have kept : (f.category .social).score = .whole c.socialPoints := by
      rw [shown]
      show clampPoints c.socialPoints = _
      rw [Number.clampPoints_intCast]
      congr 1
      omega
    rw [kept, ← size]
    exact (Coverage.socialPoints_eq_exact (by omega) (by omega)).imp
      (congrArg Number.whole) (And.imp_left (congrArg Number.whole))

def tagsWhen (present : Bool) : Table Bool :=
  if present then [("title", true), ("description", true), ("image", true), ("url", true)] else []

def sharedPage (openGraph twitter : Bool) : Page :=
  { finishedShop with
    metadata :=
      { finishedShop.metadata with ogTags := tagsWhen openGraph, twitterTags := tagsWhen twitter } }

def threePages : List Page := [sharedPage true true, draftShop, draftShop]

theorem threePages_earn_exact_points :
    (∀ p ∈ threePages, p.CountsImages) ∧ (Coverage.ofPages threePages).totalImages = 9 ∧
    let f : Findings := ⟨.ofPages threePages, {}, none⟩
    f.card = .ok f.score ∧ (f.category .structuredData).score = .whole 9 ∧
    (f.category .imagesMedia).score = .whole 9 ∧ (f.category .social).score = .whole 7 := by
  have counted : ∀ p ∈ threePages, p.CountsImages := by
    unfold Page.CountsImages
    decide
  have images : (Coverage.ofPages threePages).totalImages = 9 := by decide
  have structured : Coverage.exactStructured threePages = 9 := by decide +kernel
  have withAlt : (Coverage.ofPages threePages).exactImages = 9 := by decide +kernel
  have social : (Coverage.ofPages threePages).exactSocial = 7 := by decide +kernel
  obtain ⟨made, typed, covered, shared | ⟨-, -, below⟩⟩ :=
    shares_earn_exact_points (show threePages ≠ [] by decide) counted (by decide)
      (by rw [images]; norm_num) {} none
  · rw [structured] at typed
    rw [withAlt] at covered
    rw [social] at shared
    exact ⟨counted, images, made, typed, covered, shared⟩
  · exact absurd below (by decide +kernel)

def twentyPages : List Page :=
  List.replicate 6 (sharedPage true true) ++ sharedPage true false ::
    List.replicate 13 (sharedPage false false)

/-- Social sharing does not always earn its exact points: 7 / 20 and 6 / 20 add up to less
than 13 / 20. -/
theorem social_loses_half :
    ¬ ∀ pages : List Page, pages ≠ [] → (∀ p ∈ pages, p.CountsImages) →
      pages.length ≤ 2 ^ 40 →
      (Coverage.ofPages pages).totalImages ≤ 2 ^ 40 →
      ∀ (sitemap : Sitemap) (robots : Option Robots),
        (Findings.category ⟨.ofPages pages, sitemap, robots⟩ .social).score =
          .whole (Coverage.ofPages pages).exactSocial := by
  intro law
  have counted : ∀ p ∈ twentyPages, p.CountsImages := by
    unfold Page.CountsImages
    decide
  have exact_ := law twentyPages (by decide) counted (by decide) (by decide) {} none
  have earned :
      (Findings.category ⟨.ofPages twentyPages, {}, none⟩ .social).score = .whole 6 := by
    decide +kernel
  have points : (Coverage.ofPages twentyPages).exactSocial = 7 := by decide +kernel
  rw [earned, points] at exact_
  cases exact_

end Findings
end SeoAudit
