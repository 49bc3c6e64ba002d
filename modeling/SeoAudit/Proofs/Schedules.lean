import SeoAudit.Executor
import SeoAudit.Proofs.PageConservation

/-! Runs whose pages go through the queue of an executor. Pages may be done in any order and
their results come in that order, but they are asked for by ticket: the records and the errors
of reading are those of pages analysed one after the other, and so is the report. -/
namespace SeoAudit
namespace Audit

/-- What is collected of the pages: the records, and the errors of reading. -/
def collected (outcomes : List PageOutcome) : List Page × List Text :=
  (outcomes.filterMap PageOutcome.page?, outcomes.filterMap PageOutcome.error?)

namespace Input
variable {i : Input} {layout : Layout} {found : Discovery.Found}

/-- What an executor with the workers of a run can collect of the pages that are found. -/
def Collects (i : Input) (layout : Layout) (found : Discovery.Found)
    (collection : Except Json.ReadError (List Page × List Text)) : Prop :=
  ∃ outcomes, Executor.Gathers i.workerCount (i.analysis layout) found.pages outcomes ∧
    collection = outcomes.map collected

inductive Completes (i : Input) : Except Fault Report → Prop
  | intro (gathered : Layout → Discovery.Found → Except Json.ReadError (List PageOutcome))
      (each : ∀ layout found,
        Executor.Gathers i.workerCount (i.analysis layout) found.pages (gathered layout found)) :
      Completes i (do
        let layout ← i.layout
        let found ← i.search layout
        let outcomes ← (gathered layout found).mapError .badGraph
        pure (i.report layout found outcomes))

theorem report_of_collected {outcomes others : List PageOutcome}
    (same : collected outcomes = collected others) (workers : Option Int) :
    i.report layout found outcomes = { i with workers }.report layout found others := by
  obtain ⟨records, errors⟩ := Prod.mk.inj same
  simp only [report, reportOf, records, errors]
  rfl

theorem collects_iff {collection : Except Json.ReadError (List Page × List Text)} :
    i.Collects layout found collection ↔
      collection = (found.pages.mapM (i.analysis layout)).map collected := by
  simp only [Collects, Executor.gathers_iff, exists_eq_left]

theorem completes_iff {o : Except Fault Report} : i.Completes o ↔ o = i.outcome := by
  constructor
  · intro completes
    cases completes with
    | intro gathered each =>
      have inTurn : gathered = fun layout found => found.pages.mapM (i.analysis layout) := by
        funext layout found
        exact Executor.gathers_iff.mp (each layout found)
      rw [inTurn]
      rfl
  · rintro rfl
    exact .intro _ fun layout found => Executor.gathers_iff.mpr rfl

theorem completes_iff_yields {o : Except Fault Report} : i.Completes o ↔ i.Yields o := by
  rw [completes_iff, Yields.iff_outcome]

/-- With several workers no schedule gets stuck or has too many tasks under way, and whatever
the schedule, records, errors and the whole report are those of any other number of workers. A
single one takes the pages one after the other. -/
theorem schedules_report_alike (i : Input) (many : 2 ≤ i.workerCount) (workers : Option Int) :
    (∀ layout found,
      (∀ e, Executor.Reaches i.workerCount.toNat (i.analysis layout) (.ofTasks found.pages) e →
        e.running.length ≤ i.workerCount.toNat ∧
        ∃ last, Executor.Reaches i.workerCount.toNat (i.analysis layout) e last ∧
          last.isOver) ∧
      (∀ collection, i.Collects layout found collection ↔
        collection = (found.pages.mapM ({ i with workers }.analysis layout)).map collected) ∧
      ∀ outcomes others, collected outcomes = collected others →
        i.report layout found outcomes = { i with workers }.report layout found others) ∧
    (∀ o, i.Completes o ↔ { i with workers }.Completes o) ∧ ∃! o, i.Completes o := by
  refine ⟨fun layout found =>
    ⟨fun e reached => ⟨reached.running_le, ?_⟩, fun _ => collects_iff,
      fun _ _ same => report_of_collected same workers⟩,
    fun o => ?_, i.outcome, completes_iff.mpr rfl, fun o => completes_iff.mp⟩
  · exact Executor.exists_reaches_over (by omega) _ e
  · rw [completes_iff, completes_iff]
    rfl

theorem mixedShop_reports_alike :
    2 ≤ mixedShop.workerCount ∧ ∃ report, mixedShop.Completes (.ok report) ∧
      { mixedShop with workers := some 1 }.Completes (.ok report) ∧
      report.covered.map (·.name) = [("index" : Text)] ∧ report.errors.length = 1 := by
  have many : 2 ≤ mixedShop.workerCount := by decide
  have looked : mixedShop.tree.lookup mixedLayout.pagesDir = .ok (.directory mixedPages) := rfl
  have search := search_of_sorted looked (by decide)
  obtain ⟨report, yields, shown⟩ := exists_report_of_search
    (fun r => (r.covered.map (·.name), r.errors.length)) ([("index" : Text)], 1)
    (rfl : mixedShop.layout = .ok mixedLayout) search (by decide +kernel)
  obtain ⟨covered, errors⟩ := Prod.mk.inj shown
  have completes := completes_iff_yields.mpr yields
  have alike := (schedules_report_alike mixedShop many (some 1)).2.1 (.ok report)
  exact ⟨many, report, completes, alike.mp completes, covered, errors⟩

end Input
end Audit
end SeoAudit
