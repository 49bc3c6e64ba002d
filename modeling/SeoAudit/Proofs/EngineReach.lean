import SeoAudit.Proofs.Runs
import SeoAudit.Proofs.ScoredFields
import SeoAudit.Proofs.Scores

/-! How far an engine reaches. Two runs whose engines answer in any two ways agree in all
of their reports but the metadata and notes of covered pages, the scores drawn from them,
and the advice. The page image is one of the call, so the image index is out of reach too. -/
namespace SeoAudit

namespace Page

/-- The page without what an engine may decide. -/
def unreached (p : Page) : Page :=
  { p with metadata := { image := p.metadata.image }, note := none }

def unreachedIfCovered (p : Page) : Page := if p.isCovered then p.unreached else p

theorem unreachedIfCovered_cases (p : Page) :
    p.unreachedIfCovered = p.unreached ∨ p.unreachedIfCovered = p := by
  unfold unreachedIfCovered
  split
  · exact .inl rfl
  · exact .inr rfl

theorem unreachedIfCovered_keeps {β : Type} (field : Page → β)
    (unreached : ∀ p : Page, field p.unreached = field p) (p : Page) :
    field p.unreachedIfCovered = field p := by
  rcases p.unreachedIfCovered_cases with same | same
  · rw [same, unreached]
  · rw [same]

end Page

def Report.unreached (r : Report) : Report :=
  { r with
    categories := r.categories.filter (·.key = Area.imagesMedia.key)
    covered := r.covered.map Page.unreached
    recommendations := []
    quickFixes := [] }

namespace Document
variable {d : Document} {p : Page} {evaluation : Option Generator.Evaluation}

theorem page_unreached (made : d.page evaluation = .ok p) :
    p.unreached = d.plainPage.unreached := by
  obtain ⟨metadata, normal, rfl⟩ := map_eq_ok_iff.mp made
  obtain ⟨record, -, rfl⟩ := map_eq_ok_iff.mp normal
  rfl

end Document

namespace Coverage

theorem ofPages_unreached (pages : List Page) :
    ofPages (pages.map Page.unreachedIfCovered) = (ofPages pages).map Page.unreachedIfCovered :=
  ofPages_map (Page.unreachedIfCovered_keeps (·.isCovered) fun _ => rfl)
    (Page.unreachedIfCovered_keeps (·.name) fun _ => rfl)
    (Page.unreachedIfCovered_keeps (·.metadata.image) fun _ => rfl) pages

theorem covered_unreached (pages : List Page) :
    (ofPages pages).covered.map Page.unreachedIfCovered =
      (ofPages pages).covered.map Page.unreached := by
  apply List.map_congr_left
  intro p member
  exact if_pos (List.mem_filter.mp member).2

theorem uncovered_unreached (pages : List Page) :
    (ofPages pages).uncovered.map Page.unreachedIfCovered = (ofPages pages).uncovered := by
  conv_rhs => rw [← List.map_id (ofPages pages).uncovered]
  apply List.map_congr_left
  intro p member
  have uncovered : p.isCovered = false := by
    simpa using (List.mem_filter.mp member).2
  exact if_neg (by rw [uncovered]; exact Bool.false_ne_true)

end Coverage

namespace Findings

theorem score_imagesMedia (f : Findings) :
    f.score.categories.filter (·.key = Area.imagesMedia.key) = [f.category .imagesMedia] := by
  have only :
      Area.all.filter (fun a => decide (a.key = Area.imagesMedia.key)) = [.imagesMedia] := by
    decide
  simp only [score_categories, List.filter_map, Function.comp_def, category_key, only,
    List.map_cons, List.map_nil]

theorem score_sitemap (f : Findings) : f.score.sitemap = f.sitemap := by
  unfold score
  split <;> rfl

end Findings

namespace Audit

theorem reportOf_unreached (layout : Layout) (enabled : Bool) (found : Discovery.Found)
    (outcomes : List PageOutcome) (listed : Reading (List Text)) (robots : Reading Robots) :
    (reportOf layout enabled found (outcomes.map (.map Page.unreachedIfCovered)) listed
      robots).unreached = (reportOf layout enabled found outcomes listed robots).unreached := by
  have name := Page.unreachedIfCovered_keeps (·.name) fun _ => rfl
  have images := Page.unreachedIfCovered_keeps (·.images) fun _ => rfl
  simp only [Report.unreached, reportOf, Report.ofCard, PageOutcome.filterMap_page?_map,
    PageOutcome.filterMap_error?_map, Coverage.ofPages_unreached, Sitemap.ofUrls_map name,
    Findings.score_imagesMedia, Findings.score_sitemap, ← Findings.map_mk,
    Findings.score_totalImages_map _ images, Findings.score_imagesWithoutAlt_map _ images,
    Findings.category_imagesMedia_map _ images name, Coverage.map_covered, Coverage.map_uncovered,
    Coverage.covered_unreached, Coverage.uncovered_unreached, List.map_map]
  rfl

namespace Input
variable {i : Input} {layout : Layout} {found : Discovery.Found}

/-- The same run with other engines, by any number of workers. -/
def withEngines (i : Input) (engines : List Text → Engine) (workers : Option Int) : Input :=
  { i with engines, workers }

theorem analysis_unreached (detected : i.layout = .ok layout) {page : List Text}
    {outcome : PageOutcome} (analysed : i.analysis layout page = .ok outcome) :
    outcome.map Page.unreachedIfCovered = (i.plain layout page).map Page.unreachedIfCovered := by
  unfold plain
  cases loaded : Discovery.load i.tree layout.pagesDir page with
  | error e =>
    rw [analysis_unreadable loaded] at analysed
    cases analysed
    rfl
  | ok d =>
    obtain ⟨evaluation, asked⟩ := exists_evaluation detected page d
    rw [analysis_loaded loaded asked] at analysed
    obtain ⟨p, made, rfl⟩ := map_eq_ok_iff.mp analysed
    have covered : p.isCovered = d.isCovered := (Document.page_describes made).isCovered
    have same : p.unreachedIfCovered = d.plainPage.unreachedIfCovered := by
      unfold Page.unreachedIfCovered
      rw [covered, Document.plainPage_isCovered, Document.page_unreached made]
      cases uncovered : d.isCovered with
      | true => rfl
      | false =>
        -- The generator is not asked for an uncovered page, so the records are the same.
        rw [Document.evaluation?_uncovered uncovered] at asked
        cases asked
        cases made
        rfl
    simp only [PageOutcome.map, same]

theorem report_unreached (detected : i.layout = .ok layout) {outcomes : List PageOutcome}
    (gathered : found.pages.mapM (i.analysis layout) = .ok outcomes) :
    (i.report layout found outcomes).unreached =
      (i.report layout found (found.pages.map (i.plain layout))).unreached := by
  have same : outcomes.map (PageOutcome.map Page.unreachedIfCovered) =
      (found.pages.map (i.plain layout)).map (PageOutcome.map Page.unreachedIfCovered) := by
    rw [List.map_map]
    exact map_eq_of_mapM gathered fun page outcome _ analysed =>
      analysis_unreached detected analysed
  rw [report, report, ← reportOf_unreached, same, reportOf_unreached]

theorem Yields.unreached {report : Report} (yields : i.Yields (.ok report)) :
    ∃ layout found, i.layout = .ok layout ∧ i.search layout = .ok found ∧ report.unreached =
      (i.report layout found (found.pages.map (i.plain layout))).unreached := by
  obtain ⟨layout, found, outcomes, detected, search, gathered, rfl⟩ :=
    Yields.report_iff.mp yields
  exact ⟨layout, found, detected, search, report_unreached detected gathered⟩

/-- Two runs with different engines report the same but for metadata and notes of covered
pages, what these are scored, and the advice. Neither is kept from a report by anything
but a graph that is nested too deep, unless both are. -/
theorem engines_reach_metadata_and_notes (i : Input) (engines : List Text → Engine)
    (workers : Option Int) :
    (∀ report other, i.Yields (.ok report) →
      (i.withEngines engines workers).Yields (.ok other) →
      report.unreached = other.unreached) ∧
    ∀ fault, i.Yields (.error fault) →
      (i.withEngines engines workers).Yields (.error fault) ∨ ∃ e, fault = .badGraph e := by
  constructor
  · intro report other yields others
    obtain ⟨layout, found, detected, search, same⟩ := yields.unreached
    obtain ⟨layout', found', detected', search', same'⟩ := others.unreached
    cases detected.symm.trans detected'
    cases search.symm.trans search'
    exact same.trans same'.symm
  · intro fault yields
    cases yields with
    | noLayout layout => exact .inl (.noLayout layout)
    | noSearch detected search => exact .inl (.noSearch detected search)
    | noOutcomes detected search gathered => exact .inr ⟨_, rfl⟩

def picturedShop : Input where
  tree := .directory [
    ("pages", .directory [("index.vue", .file
      "useHead(generateSEO(\x7b image: '/shop.png' \x7d))".toUTF8.toList)]),
    ("utils", .directory [("seo.js", .file
      "function generateSEO(p) \x7b return p \x7d".toUTF8.toList)])]
  engines _ _ _ := .returned (.string
    "\x7b\"meta\": [\x7b\"property\": \"og:image\", \"content\": \"/sale.png\"\x7d]\x7d")
  root := { segments := [] }
  config := { root := { segments := [] } }

def failingShop : Input := picturedShop.withEngines (fun _ _ _ => .failed "Error" "boom") none

theorem picturedShop_image_index :
    ∃ report other, picturedShop.Yields (.ok report) ∧ failingShop.Yields (.ok other) ∧
      report.covered.map (·.metadata.ogImage) = [some ("/sale.png" : Text)] ∧
      other.covered.map (·.metadata.ogImage) = [none] ∧
      report.imageUsage.pagesFor "/shop.png" = ["index"] ∧
        report.unreached = other.unreached := by
  obtain ⟨report, yields, shown⟩ := exists_report_of_outcome picturedShop
    (fun r => (r.covered.map (·.metadata.ogImage), r.imageUsage.pagesFor "/shop.png"))
    ([some ("/sale.png" : Text)], [("index" : Text)]) (by decide +kernel)
  obtain ⟨other, others, absent⟩ := exists_report_of_outcome failingShop
    (·.covered.map (·.metadata.ogImage)) [none] (by decide +kernel)
  obtain ⟨image, index⟩ := Prod.mk.inj shown
  have same := (engines_reach_metadata_and_notes picturedShop _ none).1 report other yields others
  exact ⟨report, other, yields, others, image, absent, index, same⟩

end Input
end Audit
end SeoAudit
