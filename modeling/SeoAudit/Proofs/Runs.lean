import SeoAudit.Workers
import SeoAudit.Proofs.Layouts
import SeoAudit.Proofs.PageAnalysis
import SeoAudit.Proofs.PagePaths

/-! A run with workers comes to exactly one thing, `Input.outcome`, and page by page an
analysis comes down to reading the file: once the layout is detected, asking the generator
never keeps a page from being analysed. -/
namespace SeoAudit

namespace Document
variable {d : Document}

def plainMetadata (d : Document) : Metadata :=
  let emitted := (d.params?.map Schema.ofParameters).getD []
  let facts := Metadata.factsOfText d.text d.callsGenerator
  Metadata.completed d.text d.params? d.callsGenerator
    { Metadata.ofFacts .static facts with schemas := emitted }

def plainPage (d : Document) : Page :=
  { path := d.path
    name := d.name
    callsGenerator := d.callsGenerator
    callsSeoMeta := d.callsSeoMeta
    callsHead := d.callsHead
    metadata := d.plainMetadata
    headings := Headings.ofText d.text
    images := Images.ofText d.text
    params := d.params? }

theorem plainPage_isCovered (d : Document) : d.plainPage.isCovered = d.isCovered := rfl

end Document

namespace Audit

namespace PageOutcome

def map (g : Page → Page) : PageOutcome → PageOutcome
  | analysed page _ => analysed (g page) none
  | unreadable path e => unreadable path e

theorem filterMap_page?_map (g : Page → Page) (outcomes : List PageOutcome) :
    (outcomes.map (map g)).filterMap page? = (outcomes.filterMap page?).map g := by
  have page (outcome : PageOutcome) : (outcome.map g).page? = outcome.page?.map g := by
    cases outcome <;> rfl
  simp only [List.filterMap_map, List.map_filterMap, Function.comp_def, page]

theorem filterMap_error?_map (g : Page → Page) (outcomes : List PageOutcome) :
    (outcomes.map (map g)).filterMap error? = outcomes.filterMap error? := by
  have error (outcome : PageOutcome) : (outcome.map g).error? = outcome.error? := by
    cases outcome <;> rfl
  simp only [List.filterMap_map, Function.comp_def, error]

end PageOutcome

namespace Input
variable {i : Input} {layout : Layout} {found : Discovery.Found} {fault : Fault}

section Outcome

def outcome (i : Input) : Except Fault Report := do
  let layout ← i.layout
  let found ← i.search layout
  let outcomes ← (found.pages.mapM (i.analysis layout)).mapError .badGraph
  pure (i.report layout found outcomes)

theorem outcome_noLayout (layout : i.layout = .error fault) : i.outcome = .error fault := by
  rw [outcome, layout]
  rfl

theorem outcome_noSearch (detected : i.layout = .ok layout)
    (search : i.search layout = .error fault) :
    i.outcome = .error fault := by
  rw [outcome, detected]
  show i.search layout >>= _ = _
  rw [search]
  rfl

theorem outcome_of_search (detected : i.layout = .ok layout)
    (search : i.search layout = .ok found) :
    i.outcome =
      ((found.pages.mapM (i.analysis layout)).mapError .badGraph).map (i.report layout found) := by
  rw [outcome, detected]
  show i.search layout >>= _ = _
  rw [search]
  show Except.mapError _ _ >>= _ = _
  cases found.pages.mapM (i.analysis layout) with
  | error fault => rfl
  | ok outcomes => rfl

theorem Yields.iff_outcome {o : Except Fault Report} : i.Yields o ↔ o = i.outcome := by
  constructor
  · intro yields
    cases yields with
    | noLayout layout => rw [outcome_noLayout layout]
    | noSearch detected search => rw [outcome_noSearch detected search]
    | noOutcomes detected search gathered =>
      rw [outcome_of_search detected search, ← Pool.gathers_iff.mp gathered]
      rfl
    | report detected search gathered =>
      rw [outcome_of_search detected search, ← Pool.gathers_iff.mp gathered]
      rfl
  · rintro rfl
    cases detected : i.layout with
    | error fault =>
      rw [outcome_noLayout detected]
      exact .noLayout detected
    | ok layout =>
      cases search : i.search layout with
      | error fault =>
        rw [outcome_noSearch detected search]
        exact .noSearch detected search
      | ok found =>
        rw [outcome_of_search detected search]
        cases gathered : found.pages.mapM (i.analysis layout) with
        | error fault => exact .noOutcomes detected search (Pool.gathers_iff.mpr gathered.symm)
        | ok outcomes => exact .report detected search (Pool.gathers_iff.mpr gathered.symm)

/-- An engine that answers every page alike makes the audit without a pool. -/
theorem Yields.iff_run {engine : Engine} (alike : ∀ page, i.engines page = engine)
    {o : Except Fault Report} :
    i.Yields o ↔ o = (run (.still i.tree) engine i.root i.config i.enabled).map (·.report) := by
  have analysis (layout : Layout) : i.analysis layout = analysePage i.tree layout.pagesDir
      (evaluatorOf i.tree engine layout i.settings i.isEnabled) := by
    funext page
    rw [Input.analysis, evaluator, alike]
  rw [iff_outcome, outcome, run]
  simp only [ofLayout, Files.still, analysePages_still, map_bind_eq, analysis]
  rfl

theorem Yields.report_iff {report : Report} : i.Yields (.ok report) ↔
    ∃ layout found outcomes, i.layout = .ok layout ∧ i.search layout = .ok found ∧
      found.pages.mapM (i.analysis layout) = .ok outcomes ∧
      report = i.report layout found outcomes := by
  constructor
  · intro yields
    cases yields with
    | report detected search gathered =>
      exact ⟨_, _, _, detected, search, (Pool.gathers_iff.mp gathered).symm, rfl⟩
  · rintro ⟨layout, found, outcomes, detected, search, gathered, rfl⟩
    exact .report detected search (Pool.gathers_iff.mpr gathered.symm)

theorem exists_report_of_outcome {α : Type} (i : Input) (property : Report → α) (value : α)
    (computed : i.outcome.toOption.map property = some value) :
    ∃ report, i.Yields (.ok report) ∧ property report = value := by
  obtain ⟨report, reported, same⟩ := Option.map_eq_some_iff.mp computed
  exact ⟨report, Yields.iff_outcome.mpr (toOption_eq_some_iff.mp reported).symm, same⟩

theorem search_of_sorted {entries : List (Text × Tree)}
    (looked : i.tree.lookup layout.pagesDir = .ok (.directory entries))
    (sorted : (Discovery.pagesIn entries).Pairwise (Discovery.componentsLe · ·)) :
    i.search layout =
      .ok (.ofListing layout.ignorePaths (.ok (Discovery.pagesIn entries))) :=
  congrArg (Except.mapError Fault.badPath)
    (Discovery.find_of_sorted layout.ignorePaths looked sorted)

theorem exists_report_of_search {α : Type} (property : Report → α) (value : α)
    (detected : i.layout = .ok layout) (search : i.search layout = .ok found)
    (computed : (found.pages.mapM (i.analysis layout)).toOption.map
      (fun outcomes => property (i.report layout found outcomes)) = some value) :
    ∃ report, i.Yields (.ok report) ∧ property report = value := by
  obtain ⟨outcomes, gathered, same⟩ := Option.map_eq_some_iff.mp computed
  exact ⟨i.report layout found outcomes, Yields.report_iff.mpr
    ⟨layout, found, outcomes, detected, search, toOption_eq_some_iff.mp gathered, rfl⟩, same⟩

theorem layout_eq_ok_iff : i.layout = .ok layout ↔ layout.Detected i.tree i.settings :=
  mapError_eq_ok_iff.trans Layout.detect_eq_ok_iff

end Outcome

section Analysis
variable {page : List Text} {d : Document}

theorem analysis_unreadable {e : Tree.ReadError}
    (unreadable : Discovery.load i.tree layout.pagesDir page = .error e) :
    i.analysis layout page =
      .ok (.unreadable (Discovery.fullPath layout.pagesDir page) e) := by
  rw [analysis, analysePage, unreadable]

theorem exists_generator_evaluation (detected : i.layout = .ok layout) (engine : Engine)
    (params : Parameters) :
    ∃ evaluation,
      (generatorOf layout i.settings).evaluate i.tree engine params = .ok evaluation := by
  obtain ⟨source, located⟩ := (layout_eq_ok_iff.mp detected).locates
  rw [Generator.evaluate, Generator.definition, located]
  cases source with
  | none => exact ⟨_, rfl⟩
  | some path => exact ⟨_, rfl⟩

theorem exists_evaluation (detected : i.layout = .ok layout) (page : List Text) (d : Document) :
    ∃ evaluation, d.evaluation? (i.evaluator layout page) = .ok evaluation := by
  unfold Document.evaluation? evaluator evaluatorOf
  cases i.isEnabled with
  | false => exact ⟨none, rfl⟩
  | true =>
    cases d.requested? with
    | none => exact ⟨none, rfl⟩
    | some params =>
      obtain ⟨evaluation, evaluated⟩ :=
        exists_generator_evaluation detected (i.engines page) params
      refine ⟨some evaluation, ?_⟩
      simp only [↓reduceIte, evaluated]
      rfl

theorem analysis_loaded {evaluation : Option Generator.Evaluation}
    (loaded : Discovery.load i.tree layout.pagesDir page = .ok d)
    (asked : d.evaluation? (i.evaluator layout page) = .ok evaluation) :
    i.analysis layout page = (d.page evaluation).map fun p => .analysed p evaluation := by
  rw [analysis, analysePage, loaded]
  simp only [asked]

def plain (i : Input) (layout : Layout) (page : List Text) : PageOutcome :=
  match Discovery.load i.tree layout.pagesDir page with
  | .error e => .unreadable (Discovery.fullPath layout.pagesDir page) e
  | .ok document => .analysed document.plainPage none

def readError? (i : Input) (layout : Layout) (page : List Text) : Option Text :=
  match Discovery.load i.tree layout.pagesDir page with
  | .error e =>
    some ("Error reading file " ++ (Discovery.fullPath layout.pagesDir page).text ++
      ": " ++ e.message)
  | .ok _ => none

theorem analysis_error? (detected : i.layout = .ok layout) {outcome : PageOutcome}
    (analysed : i.analysis layout page = .ok outcome) :
    outcome.error? = i.readError? layout page := by
  unfold readError?
  cases loaded : Discovery.load i.tree layout.pagesDir page with
  | error e =>
    rw [analysis_unreadable loaded] at analysed
    cases analysed
    rfl
  | ok d =>
    obtain ⟨evaluation, asked⟩ := exists_evaluation detected page d
    rw [analysis_loaded loaded asked] at analysed
    obtain ⟨p, -, rfl⟩ := map_eq_ok_iff.mp analysed
    rfl

end Analysis
end Input
end Audit
end SeoAudit
