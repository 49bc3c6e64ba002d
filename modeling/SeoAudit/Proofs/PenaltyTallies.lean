import SeoAudit.Proofs.CardShape
import SeoAudit.Proofs.Percentages

/-! Penalties taken off one by one. The first two categories start from 20 points and lose
points page by page, each difference rounded to binary. All penalties are halves of a point, so
every difference down to 0 is exact, and what has once fallen below 0 stays there; rounding
therefore changes nothing, however many pages and issues there are. The points that are left
are the closed form of `Coverage.metaCategory` and `Findings.technicalCategory`. -/
namespace SeoAudit

namespace Binary64
variable {x y : Binary64} {p q : Rat} {k loss : Nat}

theorem ofRat_of_halves_le (pos : 0 < k) (fits : k < 2 ^ 53) (le : (k : Rat) / 2 ≤ q) :
    ofRat q = infinity false ∨ ∃ r, (k : Rat) / 2 ≤ r ∧ ofRat q = number r := by
  have least : (0 : Rat) < k / 2 := by positivity
  have qPos : 0 < q := least.trans_le le
  have rounded : (k : Rat) / 2 ≤ roundPositive q := by
    have mono := nearest_mono least.le le
    rwa [nearest_halves fits, nearest_of_pos qPos] at mono
  rw [ofRat, if_neg qPos.ne', if_pos qPos]
  dsimp only
  split_ifs
  · exact .inl rfl
  · exact .inr ⟨_, rounded, rfl⟩

theorem ofRat_of_le_neg_halves (pos : 0 < k) (fits : k < 2 ^ 53) (le : q ≤ -((k : Rat) / 2)) :
    ofRat q = infinity true ∨ ∃ r, r ≤ -((k : Rat) / 2) ∧ ofRat q = number r := by
  have least : (0 : Rat) < k / 2 := by positivity
  have qPos : 0 < -q := by linarith
  have rounded : (k : Rat) / 2 ≤ roundPositive (-q) := by
    have mono := nearest_mono least.le (le_neg.mpr le)
    rwa [nearest_halves fits, nearest_of_pos qPos] at mono
  rw [ofRat, if_neg (by linarith), if_neg (by linarith)]
  dsimp only
  split_ifs with beyond zero
  · exact .inl rfl
  · rw [zero] at rounded
    linarith
  · exact .inr ⟨_, neg_le_neg rounded, rfl⟩

/-- A penalty of `k` halves of a point: exactly these, or like these above 20 points. -/
def Costs (y : Binary64) (k : Nat) : Prop :=
  y = number (k / 2) ∨ 40 < k ∧
    (y = infinity false ∨ ∃ q : Rat, 41 / 2 ≤ q ∧ y = number q)

def IsLost (x : Binary64) : Prop :=
  x = infinity true ∨ ∃ q : Rat, q ≤ -(1 / 2) ∧ x = number q

def Remains (x : Binary64) (loss : Nat) : Prop :=
  loss ≤ 40 ∧ x = number ((40 - loss : Nat) / 2) ∨ 40 < loss ∧ x.IsLost

theorem sub_number_lost (le : q - p ≤ -(1 / 2)) :
    (sub (number q) (number p)).IsLost := by
  rw [sub, neg]
  split_ifs with zero
  · exact .inr ⟨q, by linarith, rfl⟩
  · have rounded := ofRat_of_le_neg_halves (q := q + -p) (k := 1) (by norm_num) (by norm_num)
      (by push_cast; linarith)
    rw [Nat.cast_one] at rounded
    exact rounded

theorem sub_number_halves (le : loss + k ≤ 40) :
    sub (number ((40 - loss : Nat) / 2)) (number (k / 2)) =
      number ((40 - (loss + k) : Nat) / 2) := by
  have value : ((40 - loss : Nat) : Rat) / 2 + -(k / 2) = ((40 - (loss + k) : Nat) : Rat) / 2 := by
    rw [Nat.cast_sub (by omega), Nat.cast_sub le]
    push_cast
    ring
  rw [sub, neg]
  split_ifs with zero
  · rw [← value, zero, neg_zero, add_zero]
    rfl
  · have few : ((40 - (loss + k) : Nat) : Rat) ≤ 40 := by exact_mod_cast Nat.sub_le 40 _
    rw [add_number (by rw [value]; positivity) (by rw [value]; linarith), value,
      nearest_halves (by omega)]

theorem Remains.sub (remains : Remains x loss) (costs : Costs y k) :
    Remains (x.sub y) (loss + k) := by
  rcases remains with ⟨le, rfl⟩ | ⟨beyond, lost⟩
  · have most : ((40 - loss : Nat) : Rat) = 40 - loss := by
      rw [Nat.cast_sub le]
      norm_num
    rcases costs with rfl | ⟨large, rfl | ⟨q, above, rfl⟩⟩
    · by_cases fits : loss + k ≤ 40
      · exact .inl ⟨fits, sub_number_halves fits⟩
      · have exceeds : (41 : Rat) ≤ loss + k := by exact_mod_cast (by omega : 41 ≤ loss + k)
        exact .inr ⟨by omega, sub_number_lost (by rw [most]; linarith)⟩
    · exact .inr ⟨by omega, .inl rfl⟩
    · have few : (0 : Rat) ≤ loss := Nat.cast_nonneg loss
      exact .inr ⟨by omega, sub_number_lost (by rw [most]; linarith)⟩
  · refine .inr ⟨by omega, ?_⟩
    rcases lost with rfl | ⟨r, below, rfl⟩
    · have stays (q : Rat) : Binary64.sub (infinity true) (number q) = infinity true := by
        rw [Binary64.sub, neg]
        split_ifs <;> rfl
      rcases costs with rfl | ⟨-, rfl | ⟨q, -, rfl⟩⟩
      · exact .inl (stays _)
      · exact .inl rfl
      · exact .inl (stays q)
    · rcases costs with rfl | ⟨-, rfl | ⟨q, above, rfl⟩⟩
      · have nonneg : (0 : Rat) ≤ k / 2 := by positivity
        exact sub_number_lost (by linarith)
      · exact .inl rfl
      · exact sub_number_lost (by linarith)

theorem ofInt_costs (n : Nat) : Costs (ofInt n) (2 * n) := by
  by_cases fits : n < 2 ^ 53
  · left
    rw [ofInt_natCast fits]
    push_cast
    rw [mul_div_cancel_left₀ _ two_ne_zero]
  · have many : ((41 : Nat) : Rat) / 2 ≤ ((n : Int) : Rat) := by
      have above : (2 ^ 53 : Rat) ≤ n := by exact_mod_cast not_lt.mp fits
      push_cast
      linarith
    have rounded := ofRat_of_halves_le (by norm_num) (by norm_num) many
    exact .inr ⟨by omega, rounded⟩

def halfPoints (n : Nat) : Binary64 := mul (ofInt n) half

theorem halfPoints_costs (n : Nat) : Costs (halfPoints n) n := by
  by_cases fits : n < 2 ^ 53
  · left
    have few : (n : Rat) ≤ 2 ^ 53 := by exact_mod_cast fits.le
    have value : (n : Rat) * (1 / 2) = n / 2 := by ring
    rw [halfPoints, ofInt_natCast fits, half, mul_number (Nat.cast_nonneg n) (by norm_num)
      (by linarith [Nat.cast_nonneg (α := Rat) n]), value, nearest_halves fits]
  · right
    refine ⟨by omega, ?_⟩
    have many : ((82 : Nat) : Rat) / 2 ≤ ((n : Int) : Rat) := by
      have above : (2 ^ 53 : Rat) ≤ n := by exact_mod_cast not_lt.mp fits
      push_cast
      linarith
    rcases ofRat_of_halves_le (by norm_num) (by norm_num) many with infinite |
      ⟨r, least, finite⟩
    · left
      rw [halfPoints, ofInt, infinite]
      decide +kernel
    · have product : halfPoints n = ofRat (r * (1 / 2)) := by
        have nonzero : r * (1 / 2) ≠ 0 := by
          push_cast at least
          linarith
        rw [halfPoints, ofInt, finite, half]
        simp only [mul, toRat?, if_neg nonzero]
      rw [product]
      exact ofRat_of_halves_le (k := 41) (by norm_num) (by norm_num)
        (by push_cast at least ⊢; linarith)

def atMostThree (x : Binary64) : Binary64 := if x.lt (number 3) then x else number 3

theorem Costs.atMostThree (costs : Costs y k) : Costs y.atMostThree (min 6 k) := by
  have three : Costs (number 3) 6 := .inl (by norm_num)
  rw [Binary64.atMostThree]
  rcases costs with rfl | ⟨large, above⟩
  · by_cases few : k < 6
    · have below : (number ((k : Rat) / 2)).lt (number 3) = true := by
        have cast : (k : Rat) < 6 := by exact_mod_cast few
        simp only [lt, toRat?, decide_eq_true_eq]
        linarith
      rw [if_pos below, min_eq_right few.le]
      exact .inl rfl
    · have enough : (number ((k : Rat) / 2)).lt (number 3) = false := by
        have cast : (6 : Rat) ≤ k := by exact_mod_cast not_lt.mp few
        simp only [lt, toRat?, decide_eq_false_iff_not]
        linarith
      rw [if_neg (by simp [enough]), min_eq_left (not_lt.mp few)]
      exact three
  · have enough : y.lt (number 3) = false := by
      rcases above with rfl | ⟨q, least, rfl⟩
      · rfl
      · simp only [lt, toRat?, decide_eq_false_iff_not]
        linarith
    rw [if_neg (by simp [enough]), min_eq_left (by omega)]
    exact three

def keptPoints (x : Binary64) : Number :=
  let atMost := if x.lt (number categoryMax) then x else number categoryMax
  let bounded := if (number 0).lt atMost then atMost else number 0
  match bounded.isWhole, bounded.truncate? with
  | true, some n => .whole n
  | _, _ => .fraction bounded

theorem lt_number : (number p).lt (number q) = decide (p < q) := rfl

theorem keptPoints_number (nonneg : 0 ≤ q) (le : q ≤ 20) :
    keptPoints (number q) = clampPoints q := by
  have most : ((categoryMax : Nat) : Rat) = 20 := by norm_num [categoryMax]
  have fits : (if (number q).lt (number 20) then number q else number 20) = number q := by
    rw [lt_number]
    split_ifs with below
    · rfl
    · rw [le.antisymm (not_lt.mp (by simpa using below))]
  have counts : (if (number 0).lt (number q) then number q else number 0) = number q := by
    rw [lt_number]
    split_ifs with above
    · rfl
    · rw [nonneg.antisymm (not_lt.mp (by simpa using above))]
  have part : truncate? (number q) = some q.floor := by
    rw [truncate?, toRat?, Option.map_some, if_neg (not_lt.mpr nonneg)]
  simp only [keptPoints, clampPoints, most, fits, counts, part, if_neg (not_lt.mpr nonneg),
    if_neg (not_lt.mpr le), isWhole, toRat?]
  by_cases whole : q.den = 1
  · rw [if_pos whole, beq_iff_eq.mpr whole, Rat.floor_def, whole, Nat.cast_one, Int.ediv_one]
  · rw [if_neg whole, beq_eq_false_iff_ne.mpr whole]

theorem keptPoints_lost (lost : x.IsLost) : keptPoints x = 0 := by
  rcases lost with rfl | ⟨q, below, rfl⟩
  · decide +kernel
  · have under : (number q).lt (number (categoryMax : Nat)) = true := by
      rw [lt_number, decide_eq_true_eq]
      exact lt_of_lt_of_le (by linarith) (Nat.cast_nonneg categoryMax)
    have nothing : (number 0).lt (number q) = false := by
      rw [lt_number, decide_eq_false_iff_not]
      linarith
    simp only [keptPoints, under, nothing, if_true, Bool.false_eq_true, if_false]
    decide +kernel

theorem Remains.keptPoints_eq (remains : Remains x loss) :
    keptPoints x = clampPoints (categoryMax - (loss : Rat) / 2) := by
  have most : ((categoryMax : Nat) : Rat) = 20 := by norm_num [categoryMax]
  rw [most]
  rcases remains with ⟨le, rfl⟩ | ⟨beyond, lost⟩
  · have few : ((40 - loss : Nat) : Rat) ≤ 40 := by exact_mod_cast Nat.sub_le 40 _
    have value : ((40 - loss : Nat) : Rat) / 2 = 20 - loss / 2 := by
      rw [Nat.cast_sub le]
      push_cast
      ring
    rw [keptPoints_number (by positivity) (by linarith), value]
  · have exceeds : (41 : Rat) ≤ loss := by exact_mod_cast beyond
    have negative : (20 - (loss : Rat) / 2) < 0 := by linarith
    rw [keptPoints_lost lost]
    simp only [clampPoints, if_pos negative]
    rfl

end Binary64

/-- The points that are left and the issues that took the others. -/
structure Tally where
  points : Binary64 := .number 20
  issues : List Text := []

namespace Tally
variable {t : Tally} {loss k : Nat} {penalty : Binary64} {told issues : List Text}

def lose (t : Tally) (penalty : Binary64) (issues : List Text) : Tally :=
  { points := t.points.sub penalty, issues := t.issues ++ issues }

def category (t : Tally) (a : Area) : Category := a.category t.points.keptPoints t.issues

/-- So many halves of a point are lost, for these issues. -/
structure Stands (t : Tally) (loss : Nat) (issues : List Text) : Prop where
  points : t.points.Remains loss
  issues : t.issues = issues

theorem stands_at_first : Stands {} 0 [] := ⟨.inl ⟨by norm_num, by norm_num⟩, rfl⟩

theorem Stands.lose (stands : t.Stands loss told) (costs : penalty.Costs k) (issues : List Text) :
    (t.lose penalty issues).Stands (loss + k) (told ++ issues) :=
  ⟨stands.points.sub costs, congrArg (· ++ issues) stands.issues⟩

theorem Stands.foldl_lose {α : Type} (stands : t.Stands loss told) (penalty : α → Binary64)
    (halves : α → Nat) (issues : α → List Text) (costs : ∀ a, (penalty a).Costs (halves a))
    (as : List α) :
    (as.foldl (fun t a => t.lose (penalty a) (issues a)) t).Stands (loss + totalOf halves as)
      (told ++ as.flatMap issues) := by
  induction as generalizing t loss told with
  | nil => simpa [totalOf] using stands
  | cons a as ih =>
    rw [List.foldl_cons, totalOf, List.flatMap_cons, ← Nat.add_assoc, ← List.append_assoc]
    exact ih (stands.lose (costs a) (issues a))

theorem Stands.category_eq (stands : t.Stands loss told) (a : Area) :
    t.category a = a.category (clampPoints (categoryMax - (loss : Rat) / 2)) told := by
  rw [category, stands.points.keptPoints_eq, stands.issues]

end Tally

theorem totalOf_const {α : Type} (k : Nat) (as : List α) :
    totalOf (fun _ => k) as = k * as.length := by
  induction as with
  | nil => rfl
  | cons a as ih => rw [totalOf, ih, List.length_cons, Nat.mul_succ, Nat.add_comm]

theorem half_left (loss : Nat) : ((40 - loss : Nat) : Rat) / 2 = max 0 (20 - (loss : Rat) / 2) := by
  rcases le_total loss 40 with le | above
  · have cast : (loss : Rat) ≤ 40 := by exact_mod_cast le
    rw [max_eq_right (by linarith), Nat.cast_sub le]
    push_cast
    ring
  · have cast : (40 : Rat) ≤ loss := by exact_mod_cast above
    rw [max_eq_left (by linarith), Nat.sub_eq_zero_of_le above, Nat.cast_zero, zero_div]

namespace Coverage
variable (c : Coverage)

def metaTally : Tally :=
  let covered : Tally := c.covered.foldl (fun t p =>
    t.lose (.halfPoints p.metadata.issues.length) (attributed p p.metadata.issues)) {}
  c.uncovered.foldl (fun t p => t.lose (.number 2) [p.name ++ ": No SEO implementation"]) covered

theorem metaTally_stands : c.metaTally.Stands c.metaLoss c.metaIssues := by
  have covered := Tally.stands_at_first.foldl_lose _ (·.metadata.issues.length)
    (fun p => attributed p p.metadata.issues)
    (fun p => Binary64.halfPoints_costs p.metadata.issues.length) c.covered
  have two : Binary64.Costs (.number 2) 4 := .inl (by norm_num)
  have all := covered.foldl_lose _ (fun _ => 4)
    (fun p : Page => [p.name ++ ": No SEO implementation"]) (fun _ => two) c.uncovered
  rw [totalOf_const, Nat.zero_add, List.nil_append, ← List.map_eq_flatMap] at all
  exact all

theorem metaTally_category : c.metaTally.category .metaTags = c.metaCategory := by
  have penalty : (c.metaLoss : Rat) / 2 = c.metaPenalty := by
    rw [metaLoss, metaPenalty]
    push_cast
    ring
  rw [c.metaTally_stands.category_eq, penalty]
  rfl

end Coverage

namespace Findings
variable (f : Findings)

def technicalTally : Tally :=
  let c := f.coverage
  let links := Tally.lose {} (.ofInt (c.covered.countP (!·.metadata.canonical) : Nat)) []
  let pages : Tally := c.covered.foldl (fun t p =>
    t.lose (.halfPoints p.headings.issues.length) (attributed p p.headings.issues)) links
  let rules := if f.hasRobots then pages else pages.lose (.number 3) ["No robots configuration"]
  match f.sitemap.missing.length with
  | 0 => rules
  | n => rules.lose (Binary64.halfPoints n).atMostThree [s!"{n} pages missing from sitemap"]

theorem technicalTally_stands : f.technicalTally.Stands f.technicalLoss f.technicalIssues := by
  have links := Tally.stands_at_first.lose
    (Binary64.ofInt_costs (f.coverage.covered.countP (!·.metadata.canonical))) []
  have pages := links.foldl_lose _ (·.headings.issues.length)
    (fun p => attributed p p.headings.issues)
    (fun p => Binary64.halfPoints_costs p.headings.issues.length) f.coverage.covered
  rw [Nat.zero_add, List.append_nil, List.nil_append] at pages
  have three : Binary64.Costs (.number 3) 6 := .inl (by norm_num)
  unfold technicalTally technicalLoss technicalIssues
  dsimp only
  generalize List.foldl _ _ _ = t at pages ⊢
  have rules : (if f.hasRobots then t else t.lose (.number 3) ["No robots configuration"]).Stands
      (2 * f.coverage.covered.countP (!·.metadata.canonical) +
        totalOf (·.headings.issues.length) f.coverage.covered + if f.hasRobots then 0 else 6)
      ((f.coverage.covered.flatMap fun p => attributed p p.headings.issues) ++
        (if f.hasRobots then [] else ["No robots configuration"] : List Text)) := by
    split_ifs
    · simpa using pages
    · exact pages.lose three _
  cases f.sitemap.missing.length with
  | zero => simpa using rules
  | succ n => exact rules.lose (Binary64.halfPoints_costs (n + 1)).atMostThree _

theorem technicalTally_category : f.technicalTally.category .technical = f.technicalCategory := by
  rw [f.technicalTally_stands.category_eq, ← technicalPenalty_eq]
  rfl

theorem metaScore_eq : f.coverage.metaCategory.score.toRat? =
    some (max 0 (20 - (totalOf (·.metadata.issues.length) f.coverage.covered : Nat) / 2 -
      2 * f.coverage.uncovered.length : Rat)) := by
  rw [f.coverage.metaCategory_halves.toRat?, half_left, Coverage.metaLoss]
  congr 2
  push_cast
  ring

theorem technicalScore_eq : f.technicalCategory.score.toRat? =
    some (max 0 (20 - f.coverage.covered.countP (!·.metadata.canonical) -
      (totalOf (·.headings.issues.length) f.coverage.covered : Nat) / 2 -
      (if f.hasRobots then 0 else 3) - min 3 ((f.sitemap.missing.length : Rat) / 2))) := by
  have capped : ((min 6 f.sitemap.missing.length : Nat) : Rat) / 2 =
      min 3 ((f.sitemap.missing.length : Rat) / 2) := by
    rw [Nat.cast_min, ← min_div_div_right (by norm_num)]
    norm_num
  rw [f.technicalCategory_halves.toRat?, half_left, ← technicalPenalty_eq, technicalPenalty,
    sitemapPenalty_eq, capped]
  congr 2
  ring

theorem technicalIssues_eq : f.technicalIssues =
    (f.coverage.covered.flatMap fun p => attributed p p.headings.issues) ++
      (if f.hasRobots then [] else ["No robots configuration"] : List Text) ++
      (if 0 < f.sitemap.missing.length then
        [s!"{f.sitemap.missing.length} pages missing from sitemap"] else [] : List Text) := by
  rw [technicalIssues]
  cases f.sitemap.missing.length with
  | zero => rfl
  | succ n => rfl

/-- On any pages, with any sitemap and crawler rules, the first two categories come to their
closed forms, and what is taken off page by page in binary is exactly that. The issues name
every loss but the missing canonical links. -/
theorem penalties_add_up {pages : List Page} (some_page : pages ≠ []) (sitemap : Sitemap)
    (robots : Option Robots) :
    let f : Findings := ⟨.ofPages pages, sitemap, robots⟩
    let covered := pages.filter (·.isCovered)
    let uncovered := pages.filter (!·.isCovered)
    let missing := sitemap.missing.length
    let unruled : Nat := if robots.any (·.configured) then 0 else 1
    (f.CountsImages → ∃ card, f.card = .ok card) ∧
    (∀ card, f.card = .ok card → card.categories = Area.all.map f.category) ∧
    (f.category .metaTags = f.coverage.metaTally.category .metaTags ∧
      (f.category .metaTags).score.toRat? = some (max 0
        (20 - (totalOf (·.metadata.issues.length) covered : Nat) / 2 - 2 *
          uncovered.length : Rat)) ∧
      (f.category .metaTags).issues =
        (covered.flatMap fun p => p.metadata.issues.map (p.name ++ ": " ++ ·)) ++
          uncovered.map fun p => (p.name ++ ": No SEO implementation" : Text)) ∧
    (f.category .technical = f.technicalTally.category .technical ∧
      (f.category .technical).score.toRat? = some (max 0
        (20 - covered.countP (!·.metadata.canonical) -
          (totalOf (·.headings.issues.length) covered : Nat) / 2 - 3 * unruled -
          min 3 ((missing : Rat) / 2))) ∧
      (f.category .technical).issues =
        (covered.flatMap fun p => p.headings.issues.map (p.name ++ ": " ++ ·)) ++
          (if unruled = 1 then ["No robots configuration"] else [] : List Text) ++
          (if 0 < missing then [s!"{missing} pages missing from sitemap"]
            else [] : List Text)) := by
  intro f covered uncovered missing unruled
  have shown := category_of_pages (f := f) (Coverage.ofPages_size_ne_zero some_page)
  have rules : f.hasRobots = robots.any (·.configured) := rfl
  refine ⟨fun counts => ⟨f.score, card_eq_score counts⟩, fun card made => ?_,
    ⟨?_, ?_, ?_⟩, ?_, ?_, ?_⟩
  · rw [eq_score_of_card made, score_categories]
  · rw [shown, f.coverage.metaTally_category]
  · rw [shown]
    exact f.metaScore_eq
  · rw [shown]
    rfl
  · rw [shown, f.technicalTally_category]
  · rw [shown]
    have penalty : (if f.hasRobots then 0 else 3 : Rat) = 3 * unruled := by
      rw [rules]
      simp only [unruled]
      split_ifs <;> norm_num
    rw [f.technicalScore_eq, penalty]
    rfl
  · rw [shown]
    have unlisted : (if f.hasRobots then [] else ["No robots configuration"] : List Text) =
        (if unruled = 1 then ["No robots configuration"] else [] : List Text) := by
      by_cases configured : robots.any (·.configured)
      · simp [rules, unruled, configured]
      · simp [rules, unruled, configured]
    show f.technicalIssues = _
    rw [technicalIssues_eq, unlisted]
    rfl

def loosePage : Page := { draftShop with name := "loose", callsHead := false }

theorem shopPages_add_up :
    let pages := [draftShop, loosePage, finishedShop]
    let f : Findings := ⟨.ofPages pages, { missing := List.replicate 7 "/shop" }, none⟩
    pages ≠ [] ∧
    (f.category .metaTags).score.toRat? = some (max 0 (20 - 1 / 2 - 2)) ∧
    (f.category .metaTags).issues =
      (["shop: Missing canonical URL", "loose: No SEO implementation"] : List Text) ∧
    (f.category .technical).score.toRat? = some (max 0 (20 - 1 - 1 / 2 - 3 - min 3 (7 / 2))) := by
  intro pages f
  have some_page : pages ≠ [] := List.cons_ne_nil _ _
  obtain ⟨-, -, ⟨-, points, issues⟩, -, technical, -⟩ :=
    penalties_add_up some_page { missing := List.replicate 7 "/shop" } none
  refine ⟨some_page, points.trans ?_, issues.trans (by decide), technical.trans ?_⟩
  · decide +kernel
  · decide +kernel

end Findings
end SeoAudit
