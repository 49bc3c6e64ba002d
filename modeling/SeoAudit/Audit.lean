import SeoAudit.Log
import SeoAudit.Project.Discovery
import SeoAudit.Project.Layout
import SeoAudit.Report.Text

/-! An audit of a project: pages are found, read and analysed, the findings scored
and reported. Most of what goes wrong is a warning or an error in the report; only a
project without a pages directory, a path that cannot be used and a graph that is nested
too deep make it fail. The log may be written to a file that the audit comes to read, so
files are looked at as they are after the records so far. -/
namespace SeoAudit

/-- The files there are after some log records have been written. -/
abbrev Files := List LogRecord → Tree

def Files.still (tree : Tree) : Files := fun _ => tree

structure Audit where
  report : Report
  log : List LogRecord
  calls : List (Text × Int)

namespace Audit

inductive PageOutcome where
  | analysed (page : Page) (evaluation : Option Generator.Evaluation)
  | unreadable (path : Path) (error : Tree.ReadError)

namespace PageOutcome

def page? : PageOutcome → Option Page
  | analysed page _ => some page
  | unreadable _ _ => none

def error? : PageOutcome → Option Text
  | analysed _ _ => none
  | unreadable path e => some ("Error reading file " ++ path.text ++ ": " ++ e.message)

def calls : PageOutcome → List (Text × Int)
  | analysed _ evaluation => evaluation.elim [] (·.calls)
  | unreadable _ _ => []

def evaluationLog : PageOutcome → List LogRecord
  | analysed _ (some evaluation) =>
    match evaluation.verdict.isFailure, evaluation.verdict.note? with
    | true, some note => [⟨.debug, .evaluation, note⟩]
    | _, _ => []
  | _ => []

def gatherLog (outcome : PageOutcome) : List LogRecord :=
  match outcome with
  | analysed page _ =>
    match page.note with
    | none | some [] => []
    | some note => [⟨.debug, .run, page.path ++ ": " ++ note⟩]
  | unreadable _ _ => (outcome.error?.map fun message => ⟨.warning, .run, message⟩).toList

end PageOutcome

def analysePage (tree : Tree) (directory : Path) (evaluator : Option Document.Evaluator)
    (components : List Text) : Except Json.ReadError PageOutcome :=
  let path := Discovery.fullPath directory components
  match Discovery.load tree directory components with
  | .error e => .ok (.unreadable path e)
  | .ok document =>
    match document.evaluation? evaluator with
    | .error e => .ok (.unreadable path (.badPath e))
    | .ok evaluation => (document.page evaluation).map fun page => .analysed page evaluation

def analysePages (files : Files)
    (analyse : Tree → List Text → Except Json.ReadError PageOutcome) :
    (log : List LogRecord) → List (List Text) → Except Json.ReadError (List PageOutcome)
  | _, [] => .ok []
  | log, page :: pages => do
    let outcome ← analyse (files log) page
    let outcomes ← analysePages files analyse (log ++ outcome.evaluationLog) pages
    pure (outcome :: outcomes)

theorem analysePages_still (tree : Tree)
    (analyse : Tree → List Text → Except Json.ReadError PageOutcome) (log : List LogRecord)
    (pages : List (List Text)) :
    analysePages (.still tree) analyse log pages = pages.mapM (analyse tree) := by
  induction pages generalizing log with
  | nil => rfl
  | cons page pages ih =>
    simp only [analysePages, List.mapM_cons, ih]
    rfl

def generatorOf (layout : Layout) (config : Config) : Generator :=
  { root := layout.root, source := layout.generatorFile, timeout := config.timeout
    origin := config.origin }

def evaluatorOf (tree : Tree) (engine : Engine) (layout : Layout) (config : Config)
    (enabled : Bool) : Option Document.Evaluator :=
  if enabled then some ((generatorOf layout config).evaluate tree engine) else none

/-- A part of the project that was read, with what there is to report about reading it. -/
structure Reading (α : Type) where
  value : α
  warnings : List Text := []
  errors : List Text := []

def readSitemap (tree : Tree) (layout : Layout) : Reading (List Text) :=
  match layout.sitemapFile with
  | none => { value := [], warnings := ["Sitemap file not found - checked common locations"] }
  | some path =>
    match tree.readText path with
    | .ok text => { value := Sitemap.urls text }
    | .error e => { value := [], errors := ["Error reading sitemap: " ++ e.message] }

def robotsFile : Text := "public/robots.txt"

/-- The robots verdict of a root with its framework configuration. The static file is
looked for only when the configuration does not decide. -/
def robotsVerdict (tree : Tree) (root : Path) (framework : Option Path) :
    Except Tree.ReadError Robots := do
  let text ← match framework with
    | none => pure ""
    | some path => tree.readText path
  if Robots.isDecidedBy text then pure (Robots.ofConfig text false)
  else
    let hasFile ← (tree.isFileAt (root.join robotsFile)).mapError .badPath
    pure (Robots.ofConfig text hasFile)

def readRobots (tree : Tree) (layout : Layout) : Reading Robots :=
  match robotsVerdict tree layout.root layout.frameworkConfig with
  | .ok robots => { value := robots }
  | .error e =>
    let name : Text := layout.frameworkConfig.elim "robots source" Path.name
    { value := Robots.unreadable, errors := ["Error reading " ++ name ++ ": " ++ e.message] }

def errorLog (errors : List Text) : List LogRecord := errors.map fun e => ⟨.warning, .run, e⟩

def openingLog (layout : Layout) : List LogRecord :=
  [⟨.info, .run, "Starting SEO check for " ++ layout.projectName⟩,
    ⟨.debug, .run, "Pages directory: " ++ layout.pagesDir.relativeTo layout.root⟩]

def searchLog (found : Discovery.Found) : List LogRecord :=
  found.error.toList.map (⟨.warning, .discovery, ·⟩) ++
  found.skipped.map (fun path => ⟨.debug, .discovery, "Skipping ignored page " ++ path⟩) ++
  [⟨.info, .run, s!"Found {found.pages.length} page files"⟩]

def closingLog (report : Report) : List LogRecord :=
  let points := s!"{report.totalScore.text}/{report.maxScore.text}"
  [⟨.info, .run, s!"SEO check finished: {points} ({report.percentage}%)"⟩]

def reportOf (layout : Layout) (enabled : Bool) (found : Discovery.Found)
    (outcomes : List PageOutcome) (listed : Reading (List Text)) (robots : Reading Robots) :
    Report :=
  let coverage := Coverage.ofPages (outcomes.filterMap PageOutcome.page?)
  let source := layout.sitemapFile.map (·.relativeTo layout.root)
  let sitemap := Sitemap.ofUrls source listed.value coverage
  let card := Findings.score { coverage, sitemap, robots := some robots.value }
  let warnings :=
    (if enabled && layout.generatorFile.isNone then
      ["SEO utility file not found - pages analyzed statically"] else [] : List Text) ++
        listed.warnings
  let errors := found.error.toList ++ outcomes.filterMap PageOutcome.error? ++ listed.errors ++
    robots.errors
  Report.ofCard layout.projectName (layout.pagesDir.relativeTo layout.root) coverage card
    robots.value warnings errors

inductive Fault where
  | layout (fault : Layout.Fault)
  | badPath (error : PathError)
  | badGraph (error : Json.ReadError)

def Fault.message : Fault → Text
  | layout fault => fault.message
  | badPath error => error.message
  | badGraph error => error.message

def ofLayout (files : Files) (engine : Engine) (config : Config) (layout : Layout)
    (enabled : Bool) : Except Fault Audit := do
  let log := openingLog layout
  let found ← (Discovery.find (files log) layout.pagesDir layout.ignorePaths).mapError .badPath
  let log := log ++ searchLog found
  let analyse (tree : Tree) :=
    analysePage tree layout.pagesDir (evaluatorOf tree engine layout config enabled)
  let outcomes ← (analysePages files analyse log found.pages).mapError .badGraph
  let log :=
    log ++ outcomes.flatMap PageOutcome.evaluationLog ++ outcomes.flatMap PageOutcome.gatherLog
  let listed := readSitemap (files log) layout
  let log := log ++ errorLog listed.errors
  let robots := readRobots (files log) layout
  let report := reportOf layout enabled found outcomes listed robots
  pure {
    report
    calls := outcomes.flatMap PageOutcome.calls
    log := log ++ errorLog robots.errors ++ closingLog report }

/-- The audit of the project at a root. `enabled` overrides whether the generator is run. -/
def run (files : Files) (engine : Engine) (root : Path) (config : Config)
    (enabled : Option Bool) : Except Fault Audit := do
  let config := { config with root }
  let layout ← (Layout.detect (files []) config).mapError .layout
  ofLayout files engine config layout (enabled.getD config.evaluate)

end Audit
end SeoAudit
