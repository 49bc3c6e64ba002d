import SeoAudit.Proofs.RatioScores
import SeoAudit.Proofs.ScoredFields
import SeoAudit.Proofs.WrittenNumbers

/-! What the advice on alternative texts promises. The images without and those with alternative
text are complementary parts of all images, and the points of both are rounded half up. So the
gain that is promised and the points already earned add up to 20, or to 21 where both parts end
in a half; beyond 2 ^ 42 images they may come to 21 next to a half too. The promise is then a
point more than what describing all images adds to the score. -/
namespace SeoAudit
open Binary64

section Complement
variable {q : Rat} (n : Int)

theorem halfUp_complement_at_half {m : Int} (half : q + 1 / 2 = m) :
    halfUp q + halfUp (n - q) = n + 1 := by
  have other : (n - q : Rat) + 1 / 2 = (n + 1 - m : Int) := by
    push_cast
    linarith
  rw [halfUp_at_half half, halfUp_at_half other]
  omega

theorem halfUp_complement (free : ∀ m : Int, q + 1 / 2 ≠ m) :
    halfUp q + halfUp (n - q) = n := by
  have low : (halfUp q : Rat) < q + 1 / 2 := (Rat.floor_le _).lt_of_ne (free _).symm
  have high : q + 1 / 2 < halfUp q + 1 := by exact_mod_cast Rat.lt_floor_add_one (q + 1 / 2)
  have otherLow : (halfUp (n - q) : Rat) ≤ n - q + 1 / 2 := Rat.floor_le _
  have otherHigh : (n - q : Rat) + 1 / 2 < halfUp (n - q) + 1 := by
    exact_mod_cast Rat.lt_floor_add_one (n - q + 1 / 2)
  have below : ((halfUp q + halfUp (n - q) : Int) : Rat) < (n + 1 : Int) := by
    push_cast
    linarith
  have above : ((n - 1 : Int) : Rat) < (halfUp q + halfUp (n - q) : Int) := by
    push_cast
    linarith
  have belowInt := Int.cast_lt.mp below
  have aboveInt := Int.cast_lt.mp above
  omega

end Complement

/-- The exact points of a part of a total end in a half. -/
def AtHalf (part total : Int) : Prop := ∃ m : Int, (20 * (part / total) + 1 / 2 : Rat) = m

/-- Binary rounding lifts the points of a part above the exact ones. -/
def Lifted (part total : Int) : Prop := halfUp (20 * (part / total)) < shareOfMax (ratio part total)

instance (part total : Int) : Decidable (Lifted part total) := inferInstanceAs (Decidable (_ < _))

section Part
variable {part total : Int} (nonneg : 0 ≤ part) (le : part ≤ total)
include nonneg le

theorem shareOfMax_ratio_eq :
    shareOfMax (ratio part total) = binaryScaled 20 (binaryShare part total) := by
  rw [ratio_eq_number nonneg le]
  exact shareOfMax_number (binaryShare_nonneg nonneg le) (binaryShare_le_one nonneg le)

theorem shareOfMax_at_half (half : AtHalf part total) :
    shareOfMax (ratio part total) = halfUp (20 * (part / total)) := by
  obtain ⟨m, half⟩ := half
  have scaled : ((20 : Int) : Rat) * (part / total) + 1 / 2 = m := by exact_mod_cast half
  obtain ⟨j, below, rfl, share⟩ := part_of_half nonneg le (by norm_num) scaled
  have computed := binaryScaled_twenty_at_half j (List.mem_range.mpr (by omega))
  rw [← share, sub_zero, Int.cast_ofNat] at computed
  rw [shareOfMax_ratio_eq nonneg le, halfUp_at_half half]
  exact computed

theorem halfUp_le_shareOfMax :
    halfUp (20 * (part / total)) ≤ shareOfMax (ratio part total) := by
  have floor : (halfUp (20 * (part / total)) : Rat) ≤ 20 * (part / total) + 1 / 2 :=
    Rat.floor_le _
  have share := exactShare_le_one nonneg le
  generalize halfUp (20 * (part / total)) = m at floor ⊢
  rcases le_or_gt m 0 with none_ | some
  · exact none_.trans (shareOfMax_ratio_nonneg nonneg le)
  · obtain ⟨j, rfl⟩ : ∃ j : Nat, m = j + 1 := ⟨(m - 1).toNat, by omega⟩
    have most : ((j + 1 : Int) : Rat) < (21 : Int) := by
      push_cast at floor ⊢
      linarith
    have below : j < 20 := by
      have mostInt := Int.cast_lt.mp most
      omega
    have halfShare : (2 * j + 1 : Rat) / (2 * (20 : Int)) ≤ part / total := by
      push_cast at floor ⊢
      linarith
    have least : (0 : Rat) ≤ (2 * j + 1) / (2 * (20 : Int)) := by positivity
    have points : binaryScaled 20 (nearest ((2 * j + 1) / (2 * (20 : Int)))) ≤
        binaryScaled 20 (binaryShare part total) :=
      binaryScaled_mono (by norm_num) (by norm_num) (nearest_nonneg least)
        (nearest_mono least halfShare) (binaryShare_le_one nonneg le)
    have computed := binaryScaled_twenty_at_half j (List.mem_range.mpr below)
    rw [Int.cast_ofNat] at computed points
    rw [computed] at points
    rw [shareOfMax_ratio_eq nonneg le]
    omega

theorem shareOfMax_sub_lt :
    (shareOfMax (ratio part total) : Rat) < 20 * (part / total) + 1 / 2 + 1 / 2 ^ 43 := by
  have close := (binaryShare_standsFor nonneg le).abs_sub_lt (show (0 : Rat) ≤ 20 by norm_num)
    (by norm_num)
  have floor : (binaryScaled 20 (binaryShare part total) : Rat) ≤ _ := Rat.floor_le _
  rw [shareOfMax_ratio_eq nonneg le]
  have above := (abs_lt.mp close).2
  linarith

theorem shareOfMax_le_halfUp_add_one :
    shareOfMax (ratio part total) ≤ halfUp (20 * (part / total)) + 1 := by
  have close := shareOfMax_sub_lt nonneg le
  have floor : (20 * (part / total) + 1 / 2 : Rat) < halfUp (20 * (part / total)) + 1 := by
    exact_mod_cast Rat.lt_floor_add_one (20 * (part / total) + 1 / 2 : Rat)
  have below :
      (shareOfMax (ratio part total) : Rat) < (halfUp (20 * (part / total)) + 2 : Int) := by
    push_cast
    linarith
  have belowInt := Int.cast_lt.mp below
  omega

theorem shareOfMax_cases :
    ¬ Lifted part total ∧ shareOfMax (ratio part total) = halfUp (20 * (part / total)) ∨
      Lifted part total ∧ shareOfMax (ratio part total) = halfUp (20 * (part / total)) + 1 := by
  have least := halfUp_le_shareOfMax nonneg le
  have most := shareOfMax_le_halfUp_add_one nonneg le
  unfold Lifted
  omega

theorem not_lifted_at_half (half : AtHalf part total) : ¬ Lifted part total := by
  rw [Lifted, shareOfMax_at_half nonneg le half]
  exact lt_irrefl _

/-- Up to 2 ^ 42 images no points are lifted. -/
theorem not_lifted (pos : 0 < total) (fits : total ≤ 2 ^ 42) : ¬ Lifted part total := by
  rw [Lifted, shareOfMax_ratio nonneg le pos fits]
  exact lt_irrefl _

/-- Of more images they may be: the exact points here are just less than a half. -/
example : Lifted (2 ^ 60 - 1) (40 * 2 ^ 60) := by
  decide +kernel

end Part

section Parts
variable {part total : Int} (pos : 0 < total)
include pos

theorem atHalf_iff : AtHalf part total ↔ 2 * total ∣ 40 * part + total := by
  have totalPos : (0 : Rat) < total := by exact_mod_cast pos
  refine exists_congr fun m => ?_
  rw [← Int.cast_inj (α := Rat)]
  push_cast
  constructor
  · intro half
    rw [← half]
    field_simp
    ring
  · intro multiple
    field_simp
    linarith

theorem scaled_complement (part : Int) :
    (20 * ((total - part : Int) / total) : Rat) = (20 : Int) - 20 * (part / total) := by
  have totalPos : (0 : Rat) < total := by exact_mod_cast pos
  push_cast
  field_simp

theorem AtHalf.complement (half : AtHalf part total) : AtHalf (total - part) total := by
  obtain ⟨m, half⟩ := half
  refine ⟨21 - m, ?_⟩
  rw [scaled_complement pos part]
  push_cast
  linarith

/-- The two parts of a total come to a point more than 20 where they end in a half or where one
of them is lifted, and to 20 everywhere else. -/
theorem shareOfMax_complement (nonneg : 0 ≤ part) (le : part ≤ total) :
    let sum := shareOfMax (ratio part total) + shareOfMax (ratio (total - part) total)
    let excess := AtHalf part total ∨ Lifted part total ∨ Lifted (total - part) total
    ¬ excess ∧ sum = 20 ∨ excess ∧ sum = 21 := by
  intro sum excess
  have restNonneg : 0 ≤ total - part := by omega
  have restLe : total - part ≤ total := by omega
  have rest := scaled_complement pos part
  have first := shareOfMax_cases nonneg le
  have second := shareOfMax_cases restNonneg restLe
  rw [rest] at second
  by_cases half : AtHalf part total
  · have kept := not_lifted_at_half nonneg le half
    have restKept := not_lifted_at_half restNonneg restLe (half.complement pos)
    have both := halfUp_complement_at_half 20 half.choose_spec
    have points := (first.resolve_right fun lifted => kept lifted.1).2
    have restPoints := (second.resolve_right fun lifted => restKept lifted.1).2
    exact .inr ⟨.inl half, by omega⟩
  · have both := halfUp_complement 20 (not_exists.mp half)
    rcases first with ⟨kept, points⟩ | ⟨lifted, points⟩ <;>
      rcases second with ⟨restKept, restPoints⟩ | ⟨restLifted, restPoints⟩
    · exact .inl ⟨by simp [excess, half, kept, restKept], by omega⟩
    · exact .inr ⟨.inr (.inr restLifted), by omega⟩
    · exact .inr ⟨.inr (.inl lifted), by omega⟩
    · -- Both would lie just below the next half, and so would not fill the total.
      have close := shareOfMax_sub_lt nonneg le
      have restClose := shareOfMax_sub_lt restNonneg restLe
      rw [rest] at restClose
      have whole : (sum : Rat) = 22 := by
        have value : sum = 22 := by omega
        exact_mod_cast value
      simp only [sum] at whole
      push_cast at whole restClose
      norm_num at close restClose
      linarith

theorem points_of_part (nonneg : 0 ≤ part) (le : part ≤ total) :
    let gain := shareOfMax (ratio part total)
    let increase := categoryMax - shareOfMax (ratio (total - part) total)
    (gain = increase ∨ gain = increase + 1) ∧
      (gain = increase + 1 ↔
        AtHalf part total ∨ Lifted part total ∨ Lifted (total - part) total) ∧
      (total ≤ 2 ^ 42 → (gain = increase + 1 ↔ AtHalf part total)) := by
  intro gain increase
  have most : ((categoryMax : Nat) : Int) = 20 := rfl
  have whole : gain = increase + 1 ↔
      AtHalf part total ∨ Lifted part total ∨ Lifted (total - part) total := by
    rcases shareOfMax_complement pos nonneg le with ⟨exact_, sum⟩ | ⟨excess, sum⟩
    · exact iff_of_false (by omega) exact_
    · exact iff_of_true (by omega) excess
  refine ⟨?_, whole, fun fits => whole.trans (or_iff_left ?_)⟩
  · rcases shareOfMax_complement pos nonneg le with ⟨-, sum⟩ | ⟨-, sum⟩ <;> omega
  · exact not_or.mpr ⟨not_lifted nonneg le pos fits, not_lifted (by omega) (by omega) pos fits⟩

end Parts

namespace QuickFix
variable {n gain : Int}
open Text

theorem addAlt_message : (addAlt n gain).message =
    ofString "Add alt text to " ++ (ofString (toString n) ++ .char ' ' ::
      (ofString "images (impact: +" ++
        (ofString (toString gain) ++ .char ' ' :: ofString "points)"))) := by
  have images : ofString " images (impact: +" = .char ' ' :: ofString "images (impact: +" := by
    decide +kernel
  have points : ofString " points)" = .char ' ' :: ofString "points)" := by decide +kernel
  show ofString ("Add alt text to " ++ toString n ++ " images (impact: +" ++ toString gain ++
    " points)") = _
  simp only [ofString_append, List.append_assoc, images, points, List.cons_append]

theorem addAlt_message_fifth : (addAlt n gain).message[4]? = some (.char 'a') := by
  rw [addAlt_message]
  rfl

theorem eq_addAlt_of_message {fix : QuickFix} (same : fix.message = (addAlt n gain).message) :
    fix = addAlt n gain := by
  have fifth : fix.message[4]? = some (.char 'a') := by rw [same, addAlt_message_fifth]
  cases fix with
  | addTags points =>
    have other : (addTags points).message[4]? = some (.char 'O') := by
      show (ofString ("Add Open Graph tags to all pages (impact: +" ++ toString points.points ++
        " points)"))[4]? = _
      rw [ofString_append, ofString_append]
      rfl
    exact absurd (other.symm.trans fifth) (by decide)
  | addAlt images points =>
    rw [addAlt_message, addAlt_message] at same
    obtain ⟨rfl, impact⟩ := toString_space_inj (List.append_cancel_left same)
    obtain ⟨rfl, -⟩ := toString_space_inj (List.append_cancel_left impact)
    rfl
  | adjustLengths => exact absurd fifth (by decide +kernel)
  | coverPages pages =>
    have other : (coverPages pages).message[4]? = some (.char 'S') := by
      show (ofString ("Add SEO to " ++ toString pages ++ " pages (impact: +" ++
        toString (pages * 2) ++ " points)"))[4]? = _
      rw [ofString_append, ofString_append, ofString_append, ofString_append]
      rfl
    exact absurd (other.symm.trans fifth) (by decide)
  | none => exact absurd fifth (by decide +kernel)

end QuickFix

namespace Findings
variable {f : Findings}

theorem mem_listed {α : Type} {condition : Bool} {a b : α} :
    a ∈ listed condition b ↔ condition = true ∧ a = b := by
  unfold listed
  split_ifs with met
  · simp [met]
  · simp [met]

theorem addAlt_mem_quickFixes {n gain : Int} (advised : QuickFix.addAlt n gain ∈ f.quickFixes) :
    0 < f.coverage.totalImages ∧ n = f.coverage.imagesWithoutAlt ∧
      gain = shareOfMax (ratio f.coverage.imagesWithoutAlt f.coverage.totalImages) := by
  have member : QuickFix.addAlt n gain ∈ f.fixes := by
    unfold quickFixes at advised
    split at advised
    · cases List.mem_singleton.mp advised
    · exact advised
  simp only [fixes, List.mem_append, mem_listed, Bool.and_eq_true, decide_eq_true_eq,
    reduceCtorEq, and_false, false_or, or_false] at member
  obtain ⟨⟨some, -⟩, same⟩ := member
  obtain ⟨rfl, rfl⟩ := QuickFix.addAlt.inj same
  exact ⟨some, rfl, rfl⟩

theorem addAlt_of_message_mem {n gain : Int}
    (shown : (QuickFix.addAlt n gain).message ∈ f.score.quickFixes) :
    QuickFix.addAlt n gain ∈ f.quickFixes := by
  unfold score at shown
  dsimp only at shown
  split_ifs at shown
  · cases shown
  · obtain ⟨fix, member, same⟩ := List.mem_map.mp shown
    exact QuickFix.eq_addAlt_of_message same ▸ member

end Findings

def Page.describeImages (p : Page) : Page :=
  if p.isCovered then { p with images := { p.images with withoutAlt := 0 } } else p

namespace Page
variable (p : Page)

@[simp] theorem describeImages_isCovered : p.describeImages.isCovered = p.isCovered := by
  unfold describeImages
  split_ifs <;> rfl

@[simp] theorem describeImages_name : p.describeImages.name = p.name := by
  unfold describeImages
  split_ifs <;> rfl

@[simp] theorem describeImages_metadata : p.describeImages.metadata = p.metadata := by
  unfold describeImages
  split_ifs <;> rfl

@[simp] theorem describeImages_total : p.describeImages.images.total = p.images.total := by
  unfold describeImages
  split_ifs <;> rfl

variable {p} in
theorem describeImages_withoutAlt (covered : p.isCovered) :
    p.describeImages.images.withoutAlt = 0 := by
  rw [describeImages, if_pos covered]

end Page

namespace Coverage
variable {pages : List Page}

theorem ofPages_describeImages :
    ofPages (pages.map Page.describeImages) = (ofPages pages).map Page.describeImages :=
  ofPages_map Page.describeImages_isCovered Page.describeImages_name
    (fun p => by rw [Page.describeImages_metadata]) pages

theorem described_totalImages :
    (ofPages (pages.map Page.describeImages)).totalImages = (ofPages pages).totalImages := by
  rw [ofPages_describeImages, totalImages, map_covered, sumOf_map]
  simp only [Page.describeImages_total]
  rfl

theorem described_imagesWithoutAlt :
    (ofPages (pages.map Page.describeImages)).imagesWithoutAlt = 0 := by
  rw [ofPages_describeImages, imagesWithoutAlt, map_covered, sumOf_map]
  exact sumOf_eq_zero fun p member =>
    Page.describeImages_withoutAlt (List.mem_filter.mp member).2

end Coverage

namespace Findings
variable {f : Findings}

theorem imagesMedia_score (some_page : f.coverage.size ≠ 0) (counts : f.CountsImages)
    (some_image : 0 < f.coverage.totalImages) : (f.category .imagesMedia).score =
      .whole (shareOfMax (ratio (f.coverage.totalImages - f.coverage.imagesWithoutAlt)
        f.coverage.totalImages)) := by
  obtain ⟨nonneg, le⟩ := counts
  have least := shareOfMax_ratio_nonneg (sub_nonneg.mpr le) (sub_le_self _ nonneg)
  have most := shareOfMax_ratio_le (sub_nonneg.mpr le) (sub_le_self _ nonneg)
  simp only [categoryMax] at most
  rw [category_of_pages some_page]
  show clampPoints (Coverage.imagePoints _ _ : Int) = _
  rw [Coverage.imagePoints, if_pos some_image, Number.clampPoints_intCast]
  congr 1
  omega

/-- The advice on alternative texts names the images without one. Its gain is what the score of
the images grows by when they all have one, or a point more: where the points of these images
end in a half, or where those of one of the two parts are lifted, which takes more than 2 ^ 42
images. -/
theorem alt_advice_gains {pages : List Page} (some_page : pages ≠ [])
    (counted : ∀ p ∈ pages, p.CountsImages) (sitemap : Sitemap) (robots : Option Robots) :
    let f : Findings := ⟨.ofPages pages, sitemap, robots⟩
    let described : Findings := ⟨.ofPages (pages.map Page.describeImages), sitemap, robots⟩
    let total := sumOf (·.images.total) (pages.filter (·.isCovered))
    let without := sumOf (·.images.withoutAlt) (pages.filter (·.isCovered))
    f.card = .ok f.score ∧ described.card = .ok described.score ∧
    ∀ n gain : Int, (QuickFix.addAlt n gain).message ∈ f.score.quickFixes →
      n = without ∧ ∃ before after : Int,
        (f.category .imagesMedia).score = .whole before ∧
        (described.category .imagesMedia).score = .whole after ∧
        (gain = after - before ∨ gain = after - before + 1) ∧
        (gain = after - before + 1 ↔
          AtHalf without total ∨ Lifted without total ∨ Lifted (total - without) total) ∧
        (total ≤ 2 ^ 42 → (gain = after - before + 1 ↔ AtHalf without total)) := by
  intro f described total without
  have counts : f.CountsImages := .of_pages counted sitemap robots
  have describedTotal : described.coverage.totalImages = total := Coverage.described_totalImages
  have describedWithout : described.coverage.imagesWithoutAlt = 0 :=
    Coverage.described_imagesWithoutAlt
  have nonneg : 0 ≤ without := counts.1
  have le : without ≤ total := counts.2
  have describedCounts : described.CountsImages := by
    rw [CountsImages, describedTotal, describedWithout]
    exact ⟨le_rfl, nonneg.trans le⟩
  refine ⟨card_eq_score counts, card_eq_score describedCounts, fun n gain shown => ?_⟩
  obtain ⟨some_image, rfl, rfl⟩ := addAlt_mem_quickFixes (addAlt_of_message_mem shown)
  have pos : 0 < total := some_image
  have before := imagesMedia_score (Coverage.ofPages_size_ne_zero some_page) counts some_image
  have after := imagesMedia_score (f := described)
    (Coverage.ofPages_size_ne_zero (by simpa using some_page)) describedCounts
    (describedTotal ▸ some_image)
  rw [describedTotal, describedWithout, sub_zero, ratio_eq_number pos.le le_rfl,
    binaryShare_self pos, shareOfMax_one] at after
  exact ⟨rfl, _, _, before, after, points_of_part pos nonneg le⟩

def galleryPage (total withoutAlt : Nat) : Page :=
  { draftShop with images := { total, withAlt := total - withoutAlt, withoutAlt } }

theorem galleryPage_gains :
    let pages := [galleryPage 3 2]
    let f : Findings := ⟨.ofPages pages, {}, none⟩
    let described : Findings := ⟨.ofPages (pages.map Page.describeImages), {}, none⟩
    pages ≠ [] ∧ (∀ p ∈ pages, p.CountsImages) ∧
    (QuickFix.addAlt 2 13).message ∈ f.score.quickFixes ∧
    ∃ before after : Int, (f.category .imagesMedia).score = .whole before ∧
      (described.category .imagesMedia).score = .whole after ∧ 13 = after - before := by
  intro pages f described
  have some_page : pages ≠ [] := List.cons_ne_nil _ _
  have counted : ∀ p ∈ pages, p.CountsImages := by
    unfold Page.CountsImages
    decide
  have shown : (QuickFix.addAlt 2 13).message ∈ f.score.quickFixes := by decide +kernel
  obtain ⟨-, -, advice⟩ := alt_advice_gains some_page counted {} none
  obtain ⟨-, before, after, first, second, near, -, few⟩ := advice 2 13 shown
  have half : ¬ AtHalf 2 3 := by
    rw [atHalf_iff (by decide)]
    decide
  have exact_ : ¬ (13 = after - before + 1) := fun more => half ((few (by decide)).mp more)
  exact ⟨some_page, counted, shown, before, after, first, second, near.resolve_right exact_⟩

/-- The advice does not always promise the real gain: with one of forty images the points are 20
before and after, and one more point is promised. -/
theorem alt_advice_promises_more :
    ¬ ∀ pages : List Page, pages ≠ [] → (∀ p ∈ pages, p.CountsImages) →
      ∀ (sitemap : Sitemap) (robots : Option Robots) (n gain : Int),
        let f : Findings := ⟨.ofPages pages, sitemap, robots⟩
        let described : Findings := ⟨.ofPages (pages.map Page.describeImages), sitemap, robots⟩
        (QuickFix.addAlt n gain).message ∈ f.score.quickFixes →
        n = sumOf (·.images.withoutAlt) (pages.filter (·.isCovered)) ∧
        ∃ before after : Int, (f.category .imagesMedia).score = .whole before ∧
          (described.category .imagesMedia).score = .whole after ∧ gain = after - before := by
  intro law
  have counted : ∀ p ∈ [galleryPage 40 1], p.CountsImages := by
    unfold Page.CountsImages
    decide
  obtain ⟨-, before, after, first, second, gain⟩ :=
    law [galleryPage 40 1] (by decide) counted {} none 1 1 (by decide +kernel)
  have earned : (Findings.category ⟨.ofPages [galleryPage 40 1], {}, none⟩ .imagesMedia).score =
      .whole 20 := by
    decide +kernel
  have described : (Findings.category
      ⟨.ofPages ([galleryPage 40 1].map Page.describeImages), {}, none⟩ .imagesMedia).score =
        .whole 20 := by
    decide +kernel
  have same := Number.whole.inj (first.symm.trans earned)
  have sameLater := Number.whole.inj (second.symm.trans described)
  omega

end Findings
end SeoAudit
