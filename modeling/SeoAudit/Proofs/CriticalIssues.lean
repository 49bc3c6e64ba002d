import SeoAudit.Proofs.Percentages
import SeoAudit.Report.Text

/-! Critical issues and the marks of the categories. Whether a category is critical is decided on
its points and its mark on its rounded percentage, at thresholds of their own. Points come in
halves, and on these the two decisions agree: 11.5 points are 57 %, and 12 points are 60 %. -/
namespace SeoAudit

namespace Report

def failMark : Text := "[fail]"

def MarksFailing (c : Category) : Prop := failMark <+: categoryLine c

instance (c : Category) : Decidable (MarksFailing c) :=
  inferInstanceAs (Decidable (failMark <+: categoryLine c))

theorem length_marker (percentage : Int) : (marker percentage).length = 6 := by
  unfold marker
  split_ifs <;> rfl

theorem marker_eq_failMark_iff (percentage : Int) :
    marker percentage = failMark ↔ percentage < 60 := by
  have ok : ("[ok]  " : Text) ≠ failMark := by decide
  have warn : ("[warn]" : Text) ≠ failMark := by decide
  unfold marker
  split_ifs with good fair
  · simp only [ok, false_iff]
    omega
  · simp only [warn, false_iff]
    omega
  · exact ⟨fun _ => not_le.mp fair, fun _ => rfl⟩

theorem marksFailing_iff (c : Category) : MarksFailing c ↔ c.percentage < 60 := by
  rw [← marker_eq_failMark_iff, MarksFailing, categoryLine]
  simp only [List.append_assoc]
  constructor
  · intro starts
    have mark := List.prefix_of_prefix_length_le starts (List.prefix_append _ _)
      (length_marker c.percentage).ge
    exact (mark.eq_of_length (length_marker c.percentage).symm).symm
  · intro same
    rw [same]
    exact List.prefix_append _ _

/-- The issues that a category contributes to the critical ones, before these are cut. -/
def contribution (c : Category) : List Text := if isCritical c then c.issues.take 3 else []

theorem criticalIssues_eq (r : Report) :
    r.criticalIssues = (r.categories.flatMap contribution).take 5 := by
  rw [criticalIssues, flatMap_filter]
  rfl

end Report

namespace Number

theorem Halves.lt_twelve {n : Number} {k : Nat} (h : Halves n k) :
    n.lt (.fraction (.number 12)) = decide (k < 24) := by
  have scaled : ((k : Rat) / 2 < 12) ↔ k < 24 := by
    rw [div_lt_iff₀ (by norm_num)]
    norm_num
  cases h with
  | whole n =>
    show decide (((n : Int) : Rat) < 12) = _
    rw [decide_eq_decide, ← scaled]
    push_cast
    rw [mul_div_cancel_left₀ _ (by norm_num)]
  | fraction k =>
    show decide ((k : Rat) / 2 < 12) = _
    rw [decide_eq_decide, scaled]

theorem percentIn_lt_sixty_iff {k : Nat} (le : k ≤ 40) : percentIn 20 k < 60 ↔ k < 24 := by
  have below : percentIn 20 23 = 57 := by decide +kernel
  have reached : percentIn 20 24 = 60 := by decide +kernel
  constructor
  · intro low
    by_contra many
    have mono : percentIn 20 24 ≤ percentIn 20 k :=
      percentIn_mono (by norm_num) (not_lt.mp many) le
    omega
  · intro few
    have mono : percentIn 20 k ≤ percentIn 20 23 :=
      percentIn_mono (by norm_num) (Nat.le_of_lt_succ few) (by norm_num)
    omega

end Number

namespace Findings
open Report
variable (f : Findings) (a : Area)

theorem isCritical_category_iff :
    isCritical (f.category a) ↔ (f.category a).issues ≠ [] ∧ MarksFailing (f.category a) := by
  have limit : Binary64.mul (Number.toBinary64 20) (Binary64.ofRat (3 / 5)) = .number 12 := by
    decide +kernel
  rw [marksFailing_iff, f.category_percentage a, Number.percentIn_lt_sixty_iff (f.halves_le a),
    isCritical, f.category_maxScore a, limit, (f.category_halves a).lt_twelve]
  simp

theorem contribution_category_iff :
    contribution (f.category a) ≠ [] ↔
      (f.category a).issues ≠ [] ∧ MarksFailing (f.category a) := by
  rw [← f.isCritical_category_iff a, contribution]
  split_ifs with critical
  · have some := (f.isCritical_category_iff a).mp critical
    simp [some.1, critical]
  · simp [critical]

end Findings

namespace Report
variable {r : Report} {f : Findings}

theorem Shows.categoryLines (shows_ : r.Shows f) :
    (r.lines.drop 7).take 5 = r.categories.map categoryLine := by
  have count : (r.categories.map categoryLine).length = 5 := by
    rw [List.length_map, shows_, f.score_categories]
    rfl
  rw [lines, List.flatten_cons, List.drop_left' (by rfl), List.flatten_cons, List.take_left' count]

theorem Shows.criticalIssues_eq (shows_ : r.Shows f) :
    r.criticalIssues = ((r.categories.filter fun c =>
      !c.issues.isEmpty && decide (MarksFailing c)).flatMap (·.issues.take 3)).take 5 := by
  have same : r.categories.filter isCritical =
      r.categories.filter fun c => !c.issues.isEmpty && decide (MarksFailing c) := by
    refine List.filter_congr fun c member => ?_
    obtain ⟨a, rfl⟩ := shows_.exists_area member
    rw [Bool.eq_iff_iff, f.isCritical_category_iff a]
    simp
  rw [criticalIssues, same]

end Report

namespace Findings
open Report

/-- In a report on any pages that get a card, exactly the categories with issues that the text
marks as failing contribute to the critical issues. These are the first five of all that is
contributed, which is up to three issues of each. -/
theorem critical_issues_are_marked {pages : List Page} {sitemap : Sitemap}
    {robots : Option Robots} {card : ScoreCard}
    (made : Findings.card ⟨.ofPages pages, sitemap, robots⟩ = .ok card)
    {r : Report} (categories : r.categories = card.categories) :
    (r.lines.drop 7).take 5 = r.categories.map categoryLine ∧
    (∀ c ∈ r.categories, (MarksFailing c ↔ c.percentage < 60) ∧
      (contribution c ≠ [] ↔ c.issues ≠ [] ∧ MarksFailing c)) ∧
    r.criticalIssues = (r.categories.flatMap contribution).take 5 ∧
    r.criticalIssues = ((r.categories.filter fun c =>
      !c.issues.isEmpty && decide (MarksFailing c)).flatMap (·.issues.take 3)).take 5 := by
  have shows_ : r.Shows ⟨.ofPages pages, sitemap, robots⟩ := by
    rw [Report.Shows, categories, eq_score_of_card made]
  refine ⟨shows_.categoryLines, fun c member => ?_, r.criticalIssues_eq,
    shows_.criticalIssues_eq⟩
  obtain ⟨a, rfl⟩ := shows_.exists_area member
  exact ⟨marksFailing_iff _, contribution_category_iff _ a⟩

def neglectedPage : Page :=
  { draftShop with
    metadata :=
      { issues := "Missing Twitter Card tags: card" :: List.replicate 16 "Missing page title" }
    headings := { issues := List.replicate 8 "No H1 tag found" }
    images := { total := 2, withAlt := 0, withoutAlt := 2 } }

def homePage : Page :=
  { draftShop with
    name := "home", metadata := { canonical := true }, headings := {}, images := {} }

def neglectedFindings : Findings := ⟨.ofPages [neglectedPage, homePage], {}, none⟩

/-- The first category has 11.5 points and the second has 12, so it is not marked as failing. The
images fail without an issue, and the sixth issue that is contributed is cut. -/
theorem neglectedFindings_critical :
    ∃ card, neglectedFindings.card = .ok card ∧
      ∀ r : Report, r.categories = card.categories →
        r.categories.map (fun c => decide (MarksFailing c)) = [true, false, true, true, true] ∧
        r.criticalIssues =
          ["shop: Missing Twitter Card tags: card", "shop: Missing page title",
            "shop: Missing page title", "shop: No structured data detected",
            "home: No structured data detected"] := by
  have counted : ∀ p ∈ [neglectedPage, homePage], p.CountsImages := by
    intro p member
    simp only [List.mem_cons, List.not_mem_nil, or_false] at member
    rcases member with rfl | rfl <;> constructor <;> decide
  have made : neglectedFindings.card = .ok neglectedFindings.score :=
    card_eq_score (.of_pages counted {} none)
  have marks : neglectedFindings.score.categories.map (fun c => decide (MarksFailing c)) =
      [true, false, true, true, true] := by
    decide +kernel
  refine ⟨_, made, fun r categories => ⟨by rw [categories, marks], ?_⟩⟩
  obtain ⟨-, -, -, issues⟩ := critical_issues_are_marked made categories
  rw [issues, categories]
  decide +kernel

end Findings
end SeoAudit
