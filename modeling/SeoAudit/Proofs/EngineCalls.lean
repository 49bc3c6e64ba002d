import SeoAudit.Proofs.PageConservation
import SeoAudit.Proofs.PoolLogs
import SeoAudit.Proofs.RunFailures

/-! What a run gives to the engine. A page asks for the generator when it is covered, calls
it, and has a call that can be read; the engine gets a script for it when the definition is
found too. In any schedule each page that asks gets its script run once, and no other page
does, so only records of pages that ask can come from the engine. -/
namespace SeoAudit

namespace Generator

def definition? (g : Generator) (tree : Tree) : Option Text := do
  let path ← (g.locate tree).toOption.join
  let source ← (tree.readText path).toOption
  Definition.find? source

def request (g : Generator) (definition : Text) (params : Parameters) : Text × Int :=
  (Script.assemble (trimOrigin g.origin) definition params.arguments, g.timeout)

theorem evaluate_calls (g : Generator) (tree : Tree) (engine : Engine) (params : Parameters) :
    (g.evaluate tree engine params).toOption.elim [] (·.calls) =
      ((g.definition? tree).map (g.request · params)).toList := by
  unfold evaluate definition definition?
  cases g.locate tree with
  | error e => rfl
  | ok path? =>
    cases path? with
    | none => rfl
    | some path =>
      show (g.runDefinition engine params (definitionIn tree path)).calls =
        (((tree.readText path).toOption.bind fun source => Definition.find? source).map _).toList
      unfold definitionIn
      cases tree.readText path with
      | error e => rfl
      | ok source =>
        dsimp only [Except.toOption, Option.bind_some]
        cases Definition.find? source <;> rfl

end Generator

namespace Document
variable {d : Document} {p : Page} {evaluator : Option Evaluator}
  {evaluation : Option Generator.Evaluation}

theorem requested?_eq (d : Document) :
    d.requested? = if d.isCovered && d.callsGenerator then Parameters.ofText? d.text else none := by
  unfold requested? params? isCovered
  cases d.callsHead <;> cases d.callsGenerator <;> simp

/-- What the generator makes of the document for the engine: nothing, unless the document
is covered and calls it, the call can be read, and there is a definition. -/
def request? (d : Document) (g : Generator) (tree : Tree) : Option (Text × Int) := do
  guard (d.isCovered ∧ d.callsGenerator)
  let params ← Parameters.ofText? d.text
  let definition ← g.definition? tree
  pure (g.request definition params)

theorem evaluation?_calls (d : Document) (g : Generator) (tree : Tree) (engine : Engine) :
    (d.evaluation? (some (g.evaluate tree engine))).toOption.join.elim [] (·.calls) =
      (d.request? g tree).toList := by
  unfold evaluation? request?
  rw [d.requested?_eq]
  by_cases asks : d.isCovered ∧ d.callsGenerator
  · rw [if_pos (by simpa using asks)]
    cases Parameters.ofText? d.text with
    | none => simp [Except.toOption]
    | some params =>
      have calls := g.evaluate_calls tree engine params
      rw [Option.map_eq_bind] at calls
      simp only [guard, asks, and_self, if_true]
      exact Eq.trans (by cases g.evaluate tree engine params <;> rfl) calls
  · rw [if_neg (by simpa using asks)]
    simp [guard, asks]
    rfl

end Document

namespace Audit
namespace Input
variable {i : Input} {layout : Layout} {found : Discovery.Found} {page : List Text}

def request? (i : Input) (layout : Layout) (page : List Text) : Option (Text × Int) := do
  let d ← (Discovery.load i.tree layout.pagesDir page).toOption
  d.request? (generatorOf layout i.settings) i.tree

def requests (i : Input) (layout : Layout) (found : Discovery.Found) :
    List (List Text × Text × Int) :=
  found.pages.filterMap fun page => (i.request? layout page).map (page, ·)

def callsOf (i : Input) (layout : Layout) (page : List Text) : List (List Text × Text × Int) :=
  match Discovery.load i.tree layout.pagesDir page with
  | .error _ => []
  | .ok d =>
    ((d.evaluation? (i.evaluator layout page)).toOption.join.elim [] (·.calls)).map (page, ·)

/-- What a run can come to, as `Yields` has it, with the calls of its engines in the order
in which the pages are begun. -/
inductive Makes (i : Input) : List (List Text × Text × Int) → Except Fault Report → Prop
  | noLayout {fault : Fault} (layout : i.layout = .error fault) : Makes i [] (.error fault)
  | noSearch {layout : Layout} {fault : Fault} (detected : i.layout = .ok layout)
      (search : i.search layout = .error fault) : Makes i [] (.error fault)
  | noOutcomes {layout : Layout} {found : Discovery.Found} {begun : List (List Text)}
      {fault : Json.ReadError} (detected : i.layout = .ok layout)
      (search : i.search layout = .ok found)
      (executed : Pool.Executes i.workerCount (i.analysis layout) found.pages begun
        (.error fault)) :
      Makes i (begun.flatMap (i.callsOf layout)) (.error (.badGraph fault))
  | report {layout : Layout} {found : Discovery.Found} {begun : List (List Text)}
      {outcomes : List PageOutcome} (detected : i.layout = .ok layout)
      (search : i.search layout = .ok found)
      (executed : Pool.Executes i.workerCount (i.analysis layout) found.pages begun
        (.ok outcomes)) :
      Makes i (begun.flatMap (i.callsOf layout)) (.ok (i.report layout found outcomes))

theorem analysis_cases {outcome : PageOutcome} (analysed : i.analysis layout page = .ok outcome) :
    (∃ path e, outcome = .unreadable path e ∧ i.callsOf layout page = []) ∨
    ∃ (d : Document) (evaluation : Option Generator.Evaluation) (p : Page),
      d.evaluation? (i.evaluator layout page) = .ok evaluation ∧
      d.page evaluation = .ok p ∧ outcome = .analysed p evaluation ∧
      i.callsOf layout page = (evaluation.elim [] (·.calls)).map (page, ·) := by
  unfold analysis analysePage at analysed
  unfold callsOf
  cases loaded : Discovery.load i.tree layout.pagesDir page with
  | error e =>
    rw [loaded] at analysed
    cases analysed
    exact .inl ⟨_, _, rfl, rfl⟩
  | ok d =>
    simp only [loaded] at analysed ⊢
    cases asked : d.evaluation? (i.evaluator layout page) with
    | error e =>
      rw [asked] at analysed
      cases analysed
      exact .inl ⟨_, _, rfl, rfl⟩
    | ok evaluation =>
      simp only [asked] at analysed ⊢
      obtain ⟨p, made, rfl⟩ := map_eq_ok_iff.mp analysed
      exact .inr ⟨d, evaluation, p, asked, made, rfl, rfl⟩

theorem analysis_calls {outcome : PageOutcome} (analysed : i.analysis layout page = .ok outcome) :
    outcome.calls.map (page, ·) = i.callsOf layout page := by
  rcases analysis_cases analysed with ⟨path, e, rfl, calls⟩ |
    ⟨d, evaluation, p, -, -, rfl, calls⟩
  · exact calls.symm
  · exact calls.symm

theorem callsOf_eq (enabled : i.isEnabled) :
    i.callsOf layout page = ((i.request? layout page).map (page, ·)).toList := by
  have evaluator : i.evaluator layout page =
      some ((generatorOf layout i.settings).evaluate i.tree (i.engines page)) := if_pos enabled
  unfold callsOf request?
  rw [evaluator]
  cases Discovery.load i.tree layout.pagesDir page with
  | error e => rfl
  | ok d =>
    simp only [d.evaluation?_calls]
    show _ = ((d.request? _ _).map _).toList
    cases d.request? (generatorOf layout i.settings) i.tree <;> rfl

theorem flatMap_callsOf (enabled : i.isEnabled) (pages : List (List Text)) :
    pages.flatMap (i.callsOf layout) =
      pages.filterMap fun page => (i.request? layout page).map (page, ·) := by
  rw [List.filterMap_eq_flatMap_toList]
  exact congrArg (List.flatMap · pages) (funext fun page => callsOf_eq enabled)

theorem run_calls {engine : Engine} (alike : ∀ page, i.engines page = engine)
    (enabled : i.isEnabled) {audit : Audit}
    (audited : run (.still i.tree) engine i.root i.config i.enabled = .ok audit) :
    ∃ layout found, i.layout = .ok layout ∧ i.search layout = .ok found ∧
      audit.calls = (i.requests layout found).map (·.2) := by
  obtain ⟨layout, detected, laid⟩ := bind_eq_ok_iff.mp audited
  obtain ⟨found, search, rest⟩ := bind_eq_ok_iff.mp laid
  obtain ⟨outcomes, analysed, same⟩ := bind_eq_ok_iff.mp rest
  rw [analysePages_still, mapError_eq_ok_iff] at analysed
  have gathered : found.pages.mapM (i.analysis layout) = .ok outcomes := by
    refine (mapM_congr_left fun page _ => ?_).trans analysed
    rw [analysis, evaluator, alike]
    rfl
  have calls : outcomes.flatMap PageOutcome.calls =
      (found.pages.flatMap (i.callsOf layout)).map (·.2) := by
    have each : outcomes.map PageOutcome.calls =
        found.pages.map fun page => (i.callsOf layout page).map (·.2) :=
      map_eq_of_mapM gathered fun page outcome _ step => by
        simp [← analysis_calls step, Function.comp_def]
    rw [List.flatMap_def, each, List.map_flatMap, List.flatMap_def]
  refine ⟨layout, found, detected, search, ?_⟩
  rw [← Except.ok.inj same, requests, ← flatMap_callsOf enabled]
  exact calls

def equippedShop : Input :=
  { mixedShop with
    tree := .directory [
      ("pages", .directory mixedPages),
      ("utils", .directory [("seo.js", .file
        "function generateSEO(p) \x7b return p \x7d".toUTF8.toList)])]
    engines := picturedShop.engines }

def equippedLayout : Layout :=
  { mixedLayout with generatorFile := some { segments := ["utils", "seo.js"] } }

def deepAnswer : Text :=
  ("\x7b\"meta\": [], \"script\": [\x7b\"innerHTML\": \"" : Text) ++
    (List.replicate 1000 (.char '[') ++ ("\"\x7d]\x7d" : Text))

def deepShop : Input :=
  { equippedShop with
    tree := .directory [
      ("pages", .directory deepPages),
      ("utils", .directory [("seo.js", .file
        "function generateSEO(p) \x7b return p \x7d".toUTF8.toList)])]
    engines := fun page _ _ =>
      if page = ["a.vue"] then .returned (.string deepAnswer) else .failed "Error" "boom"
    workers := some 1 }
where
  deepPages : List (Text × Tree) := [
    ("a.vue", .file "useHead(generateSEO(\x7b\x7d))".toUTF8.toList),
    ("b.vue", .file "useHead(generateSEO(\x7b\x7d))".toUTF8.toList)]

/-- One worker comes to an end at the first page, and the script of the second is not run. -/
theorem deepShop_skips_a_request :
    ¬ ∀ (i : Input) (layout : Layout) (found : Discovery.Found)
      (calls : List (List Text × Text × Int)) (o : Except Fault Report), i.isEnabled →
      i.layout = .ok layout → i.search layout = .ok found → i.Makes calls o →
      calls.Perm (i.requests layout found) := by
  intro law
  have detected : deepShop.layout = .ok equippedLayout := rfl
  have looked :
      deepShop.tree.lookup equippedLayout.pagesDir = .ok (.directory deepShop.deepPages) :=
    rfl
  let found : Discovery.Found := { pages := [["a.vue"], ["b.vue"]] }
  have search : deepShop.search equippedLayout = .ok found := search_of_sorted looked (by decide)
  have fails : (deepShop.analysis equippedLayout ["a.vue"]).toOption.isNone := by decide +kernel
  cases analysed : deepShop.analysis equippedLayout ["a.vue"] with
  | ok outcome =>
    rw [analysed] at fails
    cases fails
  | error fault =>
    have begun : Pool.begunInTurn (deepShop.analysis equippedLayout) found.pages =
        [[("a.vue" : Text)]] := by
      simp only [found, Pool.begunInTurn, analysed]
    have gathered : found.pages.mapM (deepShop.analysis equippedLayout) = .error fault := by
      simp only [found, List.mapM_cons, analysed]
      rfl
    have executed : Pool.Executes deepShop.workerCount (deepShop.analysis equippedLayout)
        found.pages _ _ := .inTurn (.inl (by decide))
    rw [begun, gathered] at executed
    have perm := law _ _ _ _ _ rfl detected search (.noOutcomes detected search executed)
    have asked : (deepShop.requests equippedLayout found).length = 2 := by decide +kernel
    have called : ([[("a.vue" : Text)]].flatMap (deepShop.callsOf equippedLayout)).length = 1 := by
      decide +kernel
    rw [perm.length_eq, asked] at called
    cases called

end Input
end Audit
end SeoAudit
