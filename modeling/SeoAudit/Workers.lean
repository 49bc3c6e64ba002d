import SeoAudit.Audit
import SeoAudit.Pool

/-! An audit whose pages are analysed by several workers. The engine may answer each page
in a way of its own, since a page asks it at most once. `Yields` is what such a run can
come to, on files that the log does not touch; `Yields.iff_run` is the audit without a pool. -/
namespace SeoAudit
namespace Audit

structure Input where
  tree : Tree
  engines : List Text → Engine
  root : Path
  config : Config
  enabled : Option Bool := none
  workers : Option Int := none

namespace Input

def settings (i : Input) : Config := { i.config with root := i.root }

def isEnabled (i : Input) : Bool := i.enabled.getD i.config.evaluate

def workerCount (i : Input) : Int :=
  match i.workers with
  | none | some 0 => i.config.workers
  | some n => n

def layout (i : Input) : Except Fault Layout := (Layout.detect i.tree i.settings).mapError .layout

def search (i : Input) (layout : Layout) : Except Fault Discovery.Found :=
  (Discovery.find i.tree layout.pagesDir layout.ignorePaths).mapError .badPath

def evaluator (i : Input) (layout : Layout) (page : List Text) : Option Document.Evaluator :=
  evaluatorOf i.tree (i.engines page) layout i.settings i.isEnabled

def analysis (i : Input) (layout : Layout) (page : List Text) : Except Json.ReadError PageOutcome :=
  analysePage i.tree layout.pagesDir (i.evaluator layout page) page

def report (i : Input) (layout : Layout) (found : Discovery.Found) (outcomes : List PageOutcome) :
    Report :=
  reportOf layout i.isEnabled found outcomes (readSitemap i.tree layout) (readRobots i.tree layout)

/-- What a run can come to, under some schedule of its workers. -/
inductive Yields (i : Input) : Except Fault Report → Prop
  | noLayout {fault : Fault} (layout : i.layout = .error fault) : Yields i (.error fault)
  | noSearch {layout : Layout} {fault : Fault} (detected : i.layout = .ok layout)
      (search : i.search layout = .error fault) : Yields i (.error fault)
  | noOutcomes {layout : Layout} {found : Discovery.Found} {fault : Json.ReadError}
      (detected : i.layout = .ok layout) (search : i.search layout = .ok found)
      (gathered : Pool.Gathers i.workerCount (i.analysis layout) found.pages (.error fault)) :
      Yields i (.error (.badGraph fault))
  | report {layout : Layout} {found : Discovery.Found} {outcomes : List PageOutcome}
      (detected : i.layout = .ok layout) (search : i.search layout = .ok found)
      (gathered : Pool.Gathers i.workerCount (i.analysis layout) found.pages (.ok outcomes)) :
      Yields i (.ok (i.report layout found outcomes))

end Input
end Audit
end SeoAudit
