import SeoAudit.Proofs.Improvement

/-! What uncovered pages tell of themselves. Where the covered pages stay and the uncovered ones
are replaced by others of the same names, a project is scored and advised as before. Only the
points for structured data may change: they count the schemas of all pages. -/
namespace SeoAudit

namespace Coverage

/-- The coverage with other uncovered pages. -/
def withUncovered (c : Coverage) (drafts : List Page) : Coverage := { c with uncovered := drafts }

theorem ofPages_eq_withUncovered {ps qs : List Page}
    (covered : ps.filter Page.isCovered = qs.filter Page.isCovered) :
    ofPages qs = (ofPages ps).withUncovered (qs.filter (!Page.isCovered ·)) := by
  simp only [ofPages, withUncovered, covered]

variable {c : Coverage} {drafts : List Page}

section
variable (names : drafts.map (·.name) = c.uncovered.map (·.name))
include names

theorem length_of_names : drafts.length = c.uncovered.length := by
  simpa using congrArg List.length names

theorem isEmpty_of_names : drafts.isEmpty = c.uncovered.isEmpty := by
  simpa only [List.isEmpty_map] using congrArg List.isEmpty names

theorem size_withUncovered : (c.withUncovered drafts).size = c.size :=
  congrArg (c.covered.length + ·) (length_of_names names)

theorem metaIssues_withUncovered : (c.withUncovered drafts).metaIssues = c.metaIssues := by
  have told : drafts.map (fun p => (p.name ++ ": No SEO implementation" : Text)) =
      c.uncovered.map fun p => (p.name ++ ": No SEO implementation" : Text) := by
    simpa only [List.map_map, Function.comp_def] using
      congrArg (List.map (· ++ (": No SEO implementation" : Text))) names
  exact congrArg ((c.covered.flatMap fun p => attributed p p.metadata.issues) ++ ·) told

theorem metaCategory_withUncovered : (c.withUncovered drafts).metaCategory = c.metaCategory := by
  have penalty : (c.withUncovered drafts).metaPenalty = c.metaPenalty := by
    simp only [metaPenalty, withUncovered, length_of_names names]
  rw [metaCategory, metaCategory, penalty, metaIssues_withUncovered names]

theorem socialPoints_withUncovered : (c.withUncovered drafts).socialPoints = c.socialPoints := by
  simp only [socialPoints, size_withUncovered names]
  rfl

theorem socialCategory_withUncovered :
    (c.withUncovered drafts).socialCategory = c.socialCategory := by
  rw [socialCategory, socialCategory, socialPoints_withUncovered names]
  rfl

end
end Coverage

structure Category.AgreesBut (area : Area) (c d : Category) : Prop where
  rest : { d with score := c.score } = c
  score : c.key ≠ area.key → c.score = d.score

structure ScoreCard.AgreesBut (area : Area) (a b : ScoreCard) : Prop where
  categories : List.Forall₂ (Category.AgreesBut area) a.categories b.categories
  rest : { b with categories := a.categories } = a

namespace Findings

def withUncovered (f : Findings) (drafts : List Page) : Findings :=
  { f with coverage := f.coverage.withUncovered drafts }

section
variable {f : Findings} {drafts : List Page}
  (names : drafts.map (·.name) = f.coverage.uncovered.map (·.name))
include names

theorem coverage_size_withUncovered :
    (f.withUncovered drafts).coverage.size = f.coverage.size :=
  Coverage.size_withUncovered names

theorem category_withUncovered {a : Area} (other : a ≠ .structuredData) :
    (f.withUncovered drafts).category a = f.category a := by
  unfold category
  rw [coverage_size_withUncovered names]
  split_ifs
  · rfl
  · cases a with
    | metaTags => exact Coverage.metaCategory_withUncovered names
    | technical => rfl
    | structuredData => exact absurd rfl other
    | imagesMedia => rfl
    | social => exact Coverage.socialCategory_withUncovered names

theorem category_structuredData_withUncovered :
    ∃ points, (f.withUncovered drafts).category .structuredData =
      { f.category .structuredData with score := points } := by
  unfold category
  rw [coverage_size_withUncovered names]
  split_ifs
  · exact ⟨_, rfl⟩
  · exact ⟨_, rfl⟩

theorem category_agreesBut (a : Area) :
    (f.category a).AgreesBut .structuredData ((f.withUncovered drafts).category a) := by
  by_cases area : a = .structuredData
  · subst area
    obtain ⟨points, same⟩ := category_structuredData_withUncovered names
    rw [same]
    exact ⟨rfl, fun other => absurd (f.category_key .structuredData) other⟩
  · rw [category_withUncovered names area]
    exact ⟨rfl, fun _ => rfl⟩

theorem recommendations_withUncovered :
    (f.withUncovered drafts).recommendations = f.recommendations := by
  have advice : (f.withUncovered drafts).advice = f.advice := by
    simp only [Findings.advice, withUncovered, Coverage.withUncovered,
      Coverage.isEmpty_of_names names]
    rfl
  rw [recommendations, recommendations, advice]

theorem quickFixes_withUncovered : (f.withUncovered drafts).quickFixes = f.quickFixes := by
  have points : (f.withUncovered drafts).coverage.socialPoints = f.coverage.socialPoints :=
    Coverage.socialPoints_withUncovered names
  have issues : (f.withUncovered drafts).coverage.metaIssues = f.coverage.metaIssues :=
    Coverage.metaIssues_withUncovered names
  have pages : (f.withUncovered drafts).coverage.uncovered.length = f.coverage.uncovered.length :=
    Coverage.length_of_names names
  have none : (f.withUncovered drafts).coverage.uncovered.isEmpty = f.coverage.uncovered.isEmpty :=
    Coverage.isEmpty_of_names names
  have fixes : (f.withUncovered drafts).fixes = f.fixes := by
    simp only [Findings.fixes, points, issues, pages, none]
    rfl
  unfold quickFixes
  rw [fixes]

theorem score_agreesBut : f.score.AgreesBut .structuredData (f.withUncovered drafts).score := by
  have categories (as : List Area) :
      List.Forall₂ (Category.AgreesBut .structuredData) (as.map f.category)
        (as.map (f.withUncovered drafts).category) := by
    induction as with
    | nil => exact .nil
    | cons a as ih => exact .cons (category_agreesBut names a) ih
  constructor
  · rw [score_categories, score_categories]
    exact categories Area.all
  · unfold score
    simp only [coverage_size_withUncovered names, recommendations_withUncovered names,
      quickFixes_withUncovered names]
    split_ifs <;> rfl

theorem checkImages_withUncovered : (f.withUncovered drafts).checkImages = f.checkImages := by
  simp only [checkImages, coverage_size_withUncovered names]
  rfl

end

/-- Two lists with the same covered pages, whose uncovered pages have the same names: they have the
same image index, the same pages without an image and the same missing URLs, and either neither
gets a card, for the same reason, or the cards agree but for the points for structured data. -/
theorem uncovered_pages_tell_names {ps qs : List Page}
    (covered : ps.filter Page.isCovered = qs.filter Page.isCovered)
    (names : (ps.filter (!Page.isCovered ·)).map (·.name) =
      (qs.filter (!Page.isCovered ·)).map (·.name))
    (sitemap : Sitemap) (robots : Option Robots) (source : Option Text) (listed : List Text) :
    let c := Coverage.ofPages ps
    let d := Coverage.ofPages qs
    c.imageUsage = d.imageUsage ∧ c.withoutImage = d.withoutImage ∧
    Sitemap.ofUrls source listed c = Sitemap.ofUrls source listed d ∧
    ((∃ e, card ⟨c, sitemap, robots⟩ = .error e ∧
      card ⟨d, sitemap, robots⟩ = .error e) ∨
      ∃ a b, card ⟨c, sitemap, robots⟩ = .ok a ∧ card ⟨d, sitemap, robots⟩ = .ok b ∧
        a.AgreesBut .structuredData b) := by
  intro c d
  have replaced : d = c.withUncovered (qs.filter (!Page.isCovered ·)) :=
    Coverage.ofPages_eq_withUncovered covered
  generalize found : (⟨c, sitemap, robots⟩ : Findings) = f
  have other : (⟨d, sitemap, robots⟩ : Findings) =
      f.withUncovered (qs.filter (!Page.isCovered ·)) := by
    rw [replaced, ← found]
    rfl
  have sameNames : (qs.filter (!Page.isCovered ·)).map (·.name) =
      f.coverage.uncovered.map (·.name) := by
    rw [← found]
    exact names.symm
  refine ⟨by rw [replaced]; rfl, by rw [replaced]; rfl, by rw [replaced]; rfl, ?_⟩
  rw [other]
  unfold card
  rw [checkImages_withUncovered sameNames]
  cases f.checkImages with
  | error e => exact .inl ⟨e, rfl, rfl⟩
  | ok _ => exact .inr ⟨_, _, rfl, rfl, score_agreesBut sameNames⟩

def looseDraft : Page :=
  { finishedShop with
    name := "loose", callsHead := false
    metadata := { finishedShop.metadata with image := some "/loose.png" } }

def blankDraft : Page :=
  { path := "old/loose.vue", name := "loose", callsGenerator := false, callsSeoMeta := false
    callsHead := false, metadata := { issues := ["Missing page title"] }
    headings := { issues := ["No H1 tag found"] }
    images := { total := 2, withAlt := 0, withoutAlt := 2 } }

theorem drafts_tell_names :
    [looseDraft, draftShop].filter Page.isCovered =
      [draftShop, blankDraft].filter Page.isCovered ∧
    (∃ a b, card ⟨.ofPages [looseDraft, draftShop], {}, none⟩ = .ok a ∧
      card ⟨.ofPages [draftShop, blankDraft], {}, none⟩ = .ok b ∧
      a.AgreesBut .structuredData b) ∧
    (category ⟨.ofPages [looseDraft, draftShop], {}, none⟩ .structuredData).score = 12 ∧
    (category ⟨.ofPages [draftShop, blankDraft], {}, none⟩ .structuredData).score = 0 := by
  have covered : [looseDraft, draftShop].filter Page.isCovered =
      [draftShop, blankDraft].filter Page.isCovered := rfl
  have counted : ∀ p ∈ [looseDraft, draftShop], p.CountsImages := by
    intro p member
    simp only [List.mem_cons, List.not_mem_nil, or_false] at member
    rcases member with rfl | rfl <;> constructor <;> decide
  have card := card_eq_score (.of_pages counted {} none)
  refine ⟨covered, ?_, by decide +kernel, by decide +kernel⟩
  obtain ⟨-, -, -, ⟨e, failed, -⟩ | made⟩ :=
    uncovered_pages_tell_names covered rfl {} none none []
  · rw [card] at failed
    cases failed
  · exact made

end Findings
end SeoAudit
