import SeoAudit.Proofs.Runs
import SeoAudit.Proofs.ScoredFields

/-! A generator without meta entries. Whatever keeps it from yielding a list of them, the
page is the one of its text with a note, and the report of a run is the one of a run that
does not ask the generator at all, up to the notes and the warning about its file. -/
namespace SeoAudit

namespace Generator
variable {g : Generator} {tree : Tree} {engine : Engine} {params : Parameters}

def Verdict.entries? (v : Verdict) : Option (List Json) := v.output?.bind Metadata.entries?

theorem evaluate_output {evaluation : Evaluation} {members : Members}
    (evaluated : g.evaluate tree engine params = .ok evaluation)
    (output : evaluation.verdict.output? = some members) :
    ∃ script timeout, (verdictOf (engine script timeout)).output? = some members := by
  obtain ⟨definition, looked, rfl⟩ := map_eq_ok_iff.mp evaluated
  cases definition with
  | ok source => exact ⟨_, _, output⟩
  | error verdict =>
    obtain ⟨path, -, found⟩ := bind_eq_ok_iff.mp looked
    cases path with
    | none =>
      cases found
      cases output
    | some path =>
      have verdict_eq : definitionIn tree path = .error verdict := Except.ok.inj found
      unfold definitionIn at verdict_eq
      split at verdict_eq
      · cases verdict_eq
        cases output
      · split at verdict_eq
        · cases verdict_eq
          cases output
        · cases verdict_eq

theorem evaluate_withoutEntries {evaluation : Evaluation}
    (returned : ∀ script timeout, (verdictOf (engine script timeout)).entries? = none)
    (evaluated : g.evaluate tree engine params = .ok evaluation) :
    evaluation.verdict.entries? = none := by
  unfold Verdict.entries?
  cases output : evaluation.verdict.output? with
  | none => rfl
  | some members =>
    obtain ⟨script, timeout, same⟩ := evaluate_output evaluated output
    have absent := returned script timeout
    rwa [Verdict.entries?, same] at absent

end Generator

theorem Metadata.normalize_withoutEntries {output : Option Members}
    (withoutEntries : output.bind entries? = none) (text : Text) (params : Option Parameters)
    (declared : Bool) :
    normalize text params output declared = normalize text params none declared := by
  cases output with
  | none => rfl
  | some members =>
    have absent : entries? members = none := withoutEntries
    simp only [normalize, judged, Option.bind_some, absent, Option.map_none]
    rfl

namespace Document
variable {d : Document}

theorem page_withoutEntries {evaluation : Generator.Evaluation}
    (withoutEntries : evaluation.verdict.entries? = none) :
    d.page (some evaluation) = .ok { d.plainPage with note := evaluation.verdict.note? } := by
  show d.pageWith evaluation.verdict.output? evaluation.verdict.note? = _
  rw [pageWith, Metadata.normalize_withoutEntries withoutEntries]
  rfl

theorem evaluation?_eq_some {evaluator : Option Evaluator} {evaluation : Generator.Evaluation}
    (asked : d.evaluation? evaluator = .ok (some evaluation)) :
    ∃ evaluate params, evaluator = some evaluate ∧ d.requested? = some params ∧
      evaluate params = .ok evaluation := by
  unfold evaluation? at asked
  split at asked
  · obtain ⟨made, evaluated, same⟩ := map_eq_ok_iff.mp asked
    cases same
    exact ⟨_, _, rfl, ‹_›, evaluated⟩
  · cases asked

theorem analyze_none (d : Document) : d.analyze none = .ok d.plainPage := by
  unfold analyze evaluation?
  rfl

theorem analyze_withoutEntries {evaluate : Evaluator}
    (withoutEntries : ∀ params, d.requested? = some params →
      ∃ evaluation, evaluate params = .ok evaluation ∧ evaluation.verdict.entries? = none) :
    ∃ note, d.analyze (some evaluate) = .ok { d.plainPage with note } := by
  cases requested : d.requested? with
  | none =>
    refine ⟨none, ?_⟩
    unfold analyze evaluation?
    rw [requested]
    rfl
  | some params =>
    obtain ⟨evaluation, evaluated, absent⟩ := withoutEntries params requested
    have asked : d.evaluation? (some evaluate) = .ok (some evaluation) := by
      unfold evaluation?
      simp only [requested, evaluated]
      rfl
    refine ⟨evaluation.verdict.note?, ?_⟩
    rw [analyze, asked]
    exact congrArg (·.mapError Fault.badGraph) (page_withoutEntries absent)

end Document

def Page.withoutNote (p : Page) : Page := { p with note := none }

theorem Page.keeps_withoutNote : Page.Keeps withoutNote where
  path _ := rfl
  name _ := rfl
  metadata _ := rfl
  headings _ := rfl
  images _ := rfl

namespace Report

def generatorWarning : Text := "SEO utility file not found - pages analyzed statically"

/-- The report without what only a run with a generator says. -/
def withoutNotes (r : Report) : Report :=
  { r with
    covered := r.covered.map Page.withoutNote
    uncovered := r.uncovered.map Page.withoutNote
    warnings := r.warnings.filter (· ≠ generatorWarning) }

end Report

namespace Audit

theorem reportOf_map_scored {g : Page → Page} (keeps : Page.Keeps g)
    (isCovered : ∀ p, (g p).isCovered = p.isCovered) (layout : Layout) (enabled : Bool)
    (found : Discovery.Found) (outcomes : List PageOutcome) (listed : Reading (List Text))
    (robots : Reading Robots) :
    reportOf layout enabled found (outcomes.map (.map g)) listed robots =
      let report := reportOf layout enabled found outcomes listed robots
      { report with covered := report.covered.map g, uncovered := report.uncovered.map g } := by
  have image (p : Page) : (g p).metadata.image = p.metadata.image := by
    rw [keeps.metadata]
  have coverage := Coverage.ofPages_map isCovered keeps.name image
  simp only [reportOf, PageOutcome.filterMap_page?_map, PageOutcome.filterMap_error?_map, coverage,
    Sitemap.ofUrls_map keeps.name, ← Findings.map_mk, Findings.score_map _ keeps]
  rfl

theorem readSitemap_warnings (tree : Tree) (layout : Layout) :
    (readSitemap tree layout).warnings.filter (· ≠ Report.generatorWarning) =
      (readSitemap tree layout).warnings := by
  unfold readSitemap
  split
  · decide
  · split <;> rfl

namespace Input
variable {i : Input} {layout : Layout} {found : Discovery.Found}

def unevaluated (i : Input) (workers : Option Int) : Input :=
  { i with enabled := some false, workers }

/-- Where the generator is asked for a page of the project, it yields no meta entries. -/
def WithoutEntries (i : Input) : Prop :=
  ∀ layout found, i.layout = .ok layout → i.search layout = .ok found →
    ∀ page ∈ found.pages, ∀ document, Discovery.load i.tree layout.pagesDir page =
    .ok document →
      ∀ evaluation, document.evaluation? (i.evaluator layout page) = .ok (some evaluation) →
        evaluation.verdict.entries? = none

theorem unevaluated_analysis (i : Input) (workers : Option Int) (layout : Layout) :
    (i.unevaluated workers).analysis layout = fun page => .ok (i.plain layout page) := by
  funext page
  unfold plain
  cases loaded : Discovery.load i.tree layout.pagesDir page with
  | error e => exact analysis_unreadable loaded
  | ok d =>
    have asked : d.evaluation? ((i.unevaluated workers).evaluator layout page) = .ok none := by
      unfold Document.evaluation?
      rfl
    rw [analysis_loaded (i := i.unevaluated workers) loaded asked]
    rfl

theorem analysis_withoutEntries (withoutEntries : i.WithoutEntries)
    (detected : i.layout = .ok layout) (search : i.search layout = .ok found) {page : List Text}
    (member : page ∈ found.pages) :
    ∃ outcome, i.analysis layout page = .ok outcome ∧
      outcome.map Page.withoutNote = i.plain layout page := by
  unfold plain
  cases loaded : Discovery.load i.tree layout.pagesDir page with
  | error e => exact ⟨_, analysis_unreadable loaded, rfl⟩
  | ok d =>
    obtain ⟨evaluation, asked⟩ := exists_evaluation detected page d
    rw [analysis_loaded loaded asked]
    cases evaluation with
    | none => exact ⟨_, rfl, rfl⟩
    | some evaluation =>
      have absent :=
        withoutEntries layout found detected search page member d loaded evaluation asked
      rw [Document.page_withoutEntries absent]
      exact ⟨_, rfl, rfl⟩

theorem report_withoutNotes (i : Input) (workers : Option Int) (layout : Layout)
    (found : Discovery.Found) (outcomes : List PageOutcome) :
    (i.report layout found outcomes).withoutNotes =
      (i.unevaluated workers).report layout found (outcomes.map (.map Page.withoutNote)) := by
  have warnings : ((if i.isEnabled && layout.generatorFile.isNone then [Report.generatorWarning]
      else []) ++ (readSitemap i.tree layout).warnings).filter (· ≠ Report.generatorWarning) =
      (readSitemap i.tree layout).warnings := by
    rw [List.filter_append, readSitemap_warnings]
    split <;> simp
  show _ = reportOf layout false found (outcomes.map _) (readSitemap i.tree layout)
    (readRobots i.tree layout)
  rw [reportOf_map_scored Page.keeps_withoutNote fun _ => rfl]
  let r := i.report layout found outcomes
  exact congrArg (fun warnings => ({ r with
    covered := r.covered.map Page.withoutNote
    uncovered := r.uncovered.map Page.withoutNote
    warnings } : Report)) warnings

theorem outcome_unevaluated (workers : Option Int) (withoutEntries : i.WithoutEntries) :
    (i.unevaluated workers).outcome = i.outcome.map Report.withoutNotes := by
  cases detected : i.layout with
  | error fault =>
    rw [outcome_noLayout detected, outcome_noLayout (i := i.unevaluated workers) detected]
    rfl
  | ok layout =>
    cases search : i.search layout with
    | error fault =>
      rw [outcome_noSearch detected search,
        outcome_noSearch (i := i.unevaluated workers) detected search]
      rfl
    | ok found =>
      have static : found.pages.mapM ((i.unevaluated workers).analysis layout) =
          .ok (found.pages.map (i.plain layout)) := by
        rw [unevaluated_analysis]
        exact List.mapM_pure
      obtain ⟨outcomes, gathered, plain⟩ := exists_mapM fun _ member =>
        analysis_withoutEntries withoutEntries detected search member
      rw [outcome_of_search detected search,
        outcome_of_search (i := i.unevaluated workers) detected search, static, gathered, ← plain]
      exact congrArg Except.ok (report_withoutNotes i workers layout found outcomes).symm

theorem withoutEntries_of_returned
    (returned : ∀ page script timeout,
      (Generator.verdictOf (i.engines page script timeout)).entries? = none) :
    i.WithoutEntries := by
  intro layout found _ _ page _ document _ evaluation asked
  obtain ⟨evaluate, params, run, -, evaluated⟩ := Document.evaluation?_eq_some asked
  cases (Option.ite_none_right_eq_some.mp run).2
  exact Generator.evaluate_withoutEntries (returned page) evaluated

/-- Without meta entries the generator leaves a note on the page and nothing else, in a
report the notes and the warning about its file and nothing else. -/
theorem withoutEntries_is_static :
    (∀ (document : Document) (evaluate : Document.Evaluator),
      (∀ params, document.requested? = some params →
        ∃ evaluation, evaluate params = .ok evaluation ∧ evaluation.verdict.entries? = none) →
      ∃ page note, document.analyze none = .ok page ∧
        document.analyze (some evaluate) = .ok { page with note }) ∧
    ∀ (i : Input) (workers : Option Int), i.WithoutEntries →
      ∀ outcome other, i.Yields outcome → (i.unevaluated workers).Yields other →
        other = outcome.map Report.withoutNotes := by
  constructor
  · intro document evaluate withoutEntries
    obtain ⟨note, analyzed⟩ := Document.analyze_withoutEntries withoutEntries
    exact ⟨document.plainPage, note, document.analyze_none, analyzed⟩
  · intro i workers withoutEntries outcome other yields static
    rw [Yields.iff_outcome.mp static, Yields.iff_outcome.mp yields]
    exact outcome_unevaluated workers withoutEntries

def brokenVerdict : Generator.Verdict := .failed (.engineFailed "Error" "boom")

def brokenShop : Input where
  tree := .directory [("app", .directory [
    ("pages", .directory [
      ("index.vue", .file "useHead(generateSEO(\x7b title: 'Shop' \x7d))".toUTF8.toList)]),
    ("utils", .directory [
      ("seo.js", .file "function generateSEO(p) \x7b return p \x7d".toUTF8.toList)])])]
  engines _ _ _ := .failed "Error" "boom"
  root := { segments := [] }
  config := { root := { segments := [] } }

theorem brokenShop_is_static :
    (∃ page note, (Document.mk "index.vue" "index" "generateSEO()").analyze none = .ok page ∧
      (Document.mk "index.vue" "index" "generateSEO()").analyze
        (some fun _ => .ok { verdict := brokenVerdict }) = .ok { page with note }) ∧
    ∃ report, brokenShop.Yields (.ok report) ∧
      (brokenShop.unevaluated (some 1)).Yields (.ok report.withoutNotes) ∧
      report.covered.map (·.note) = [brokenVerdict.note?] := by
  refine ⟨withoutEntries_is_static.1 _ _ fun _ _ => ⟨_, rfl, rfl⟩, ?_⟩
  obtain ⟨report, yields, notes⟩ := exists_report_of_outcome brokenShop
    (·.covered.map (·.note)) [brokenVerdict.note?] (by decide +kernel)
  have static : (brokenShop.unevaluated (some 1)).Yields _ := Yields.iff_outcome.mpr rfl
  have same := withoutEntries_is_static.2 brokenShop (some 1)
    (withoutEntries_of_returned fun _ _ _ => rfl) _ _ yields static
  rw [same] at static
  exact ⟨report, yields, static, notes⟩

end Input
end Audit
end SeoAudit
