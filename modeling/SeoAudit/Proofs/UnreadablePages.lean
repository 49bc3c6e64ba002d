import SeoAudit.Proofs.PrunedProjects
import SeoAudit.Proofs.Runs

/-! Pages that cannot be read leave nothing behind but their read errors: without them the
same project comes to the same report, in one pool or the other. A configuration that names
such a page as one of the other files of the project is the exception. -/
namespace SeoAudit

def Config.filePaths (c : Config) : List Path :=
  c.sitemapFile.toList ++ c.frameworkConfig.toList ++ c.generatorFile.toList

def Discovery.isPlaceOf (directory : Path) (pages : List (List Text)) (place : List Text) : Bool :=
  pages.any fun page => place == (fullPath directory page).location

namespace Discovery
variable {directory : Path} {pages : List (List Text)}

theorem isPlaceOf_page (all : ∀ page ∈ pages, IsPagePath page) (page : List Text) :
    isPlaceOf directory pages (directory.location ++ page) = pages.contains page := by
  have location (other) (member : other ∈ pages) :
      (fullPath directory other).location = directory.location ++ other :=
    Path.location_below directory (all other member).entries
  rw [Bool.eq_iff_iff, isPlaceOf, List.any_eq_true, List.contains_iff_mem]
  constructor
  · rintro ⟨other, member, same⟩
    rw [location other member, beq_iff_eq] at same
    rwa [List.append_cancel_left same]
  · intro member
    exact ⟨page, member, beq_iff_eq.mpr (location page member).symm⟩

theorem isPlaceOf_eq_false {place : List Text}
    (apart : ∀ page ∈ pages, place ≠ (fullPath directory page).location) :
    isPlaceOf directory pages place = false := by
  rw [isPlaceOf, List.any_eq_false]
  intro page member
  simpa using apart page member

theorem isPlaceOf_top (all : ∀ page ∈ pages, IsPagePath page) :
    isPlaceOf directory pages [] = false := by
  refine isPlaceOf_eq_false fun page member same => ?_
  obtain ⟨front, last, rfl, -⟩ := (all page member).page
  rw [fullPath, Path.location_below _ (all _ member).entries, ← List.append_assoc] at same
  exact List.append_ne_nil_of_right_ne_nil _ (List.cons_ne_nil last []) same.symm

end Discovery

theorem Layout.spares_of_unconfigured {config : Config} {directory : Path}
    {pages : List (List Text)} (all : ∀ page ∈ pages, Discovery.IsPagePath page)
    (unconfigured : ∀ path ∈ config.filePaths, ∀ page ∈ pages,
      path.location ≠ (Discovery.fullPath directory page).location) :
    Spares (Discovery.isPlaceOf directory pages) config := by
  have usual {file : Text} (usual : file ∈ usualFiles) :
      Discovery.isPlaceOf directory pages (config.root.join file).location = false :=
    Discovery.isPlaceOf_eq_false fun page member =>
      location_join_ne (leadsToNoPage_usualFiles file usual) (all page member)
  have named {path : Path} (named : path ∈ config.filePaths) :
      Discovery.isPlaceOf directory pages path.location = false :=
    Discovery.isPlaceOf_eq_false (unconfigured path named)
  refine ⟨Discovery.isPlaceOf_top all, fun path member => ?_, usual (by simp [usualFiles])⟩
  simp only [filePlaces, places, List.mem_append, List.mem_map] at member
  rcases member with ((configured | ⟨file, listed, rfl⟩) |
    (configured | ⟨file, listed, rfl⟩)) |
    (configured | ⟨file, listed, rfl⟩)
  · exact named (by simp only [Config.filePaths, List.mem_append, configured, true_or])
  · exact usual (by simp only [usualFiles, List.mem_append, listed, true_or])
  · exact named (by simp only [Config.filePaths, List.mem_append, configured, true_or, or_true])
  · exact usual (by simp only [usualFiles, List.mem_append, listed, true_or, or_true])
  · exact named (by simp only [Config.filePaths, List.mem_append, configured, or_true])
  · exact usual (by simp only [usualFiles, List.mem_append, listed, true_or, or_true])

namespace Audit.Input

/-- The run on the same project without some of its pages, by any number of workers. -/
def withoutPages (i : Input) (directory : Path) (pages : List (List Text)) (workers : Option Int) :
    Input :=
  { i with tree := i.tree.withoutFiles (Discovery.isPlaceOf directory pages), workers }

/-- Without the pages a run comes to the same but for their read errors. -/
def Isolates (i : Input) (layout : Layout) (found : Discovery.Found) (pages : List (List Text))
    (workers : Option Int) : Prop :=
  ∀ outcome other, i.Yields outcome →
    (i.withoutPages layout.pagesDir pages workers).Yields other →
    (∃ fault, outcome = .error fault ∧ other = .error fault) ∨
    ∃ report others, outcome = .ok report ∧
    (∀ page ∈ pages, (i.readError? layout page).isSome) ∧
      report.errors =
        found.error.toList ++ found.pages.filterMap (i.readError? layout) ++ others ∧
      other = .ok { report with errors := found.error.toList ++
        (found.pages.filter (!pages.contains ·)).filterMap (i.readError? layout) ++ others }

section Isolation
variable {i : Input} {layout : Layout} {found : Discovery.Found} {pages : List (List Text)}
  {workers : Option Int} {page : List Text}

theorem analysis_withoutPages (wellFormed : i.tree.isWellFormed) (detected : i.layout = .ok layout)
    (search : i.search layout = .ok found)
    (spares : Layout.Spares (Discovery.isPlaceOf layout.pagesDir pages) i.settings)
    (member : page ∈ found.pages)
    (stays : Discovery.isPlaceOf layout.pagesDir pages
      (Discovery.fullPath layout.pagesDir page).location = false) :
    (i.withoutPages layout.pagesDir pages workers).analysis layout page =
      i.analysis layout page := by
  have located := layout_eq_ok_iff.mp detected
  have evaluate := Layout.evaluate_withoutFiles wellFormed spares located (i.engines page)
  have text := Tree.readText_withoutFiles wellFormed spares.top stays
    (Discovery.lookup_of_found wellFormed (mapError_eq_ok_iff.mp search) member)
  have load :
      Discovery.load (i.withoutPages layout.pagesDir pages workers).tree layout.pagesDir page =
        Discovery.load i.tree layout.pagesDir page := by
    simp only [Discovery.load, withoutPages, text]
  have evaluator : (i.withoutPages layout.pagesDir pages workers).evaluator layout page =
      i.evaluator layout page := by
    show evaluatorOf (i.tree.withoutFiles _) (i.engines page) layout i.settings i.isEnabled = _
    unfold evaluator evaluatorOf
    rw [evaluate]
  rw [analysis, analysis, analysePage, analysePage, load, evaluator]

theorem report_withoutPages (wellFormed : i.tree.isWellFormed) (detected : i.layout = .ok layout)
    (spares : Layout.Spares (Discovery.isPlaceOf layout.pagesDir pages) i.settings)
    {fewer : Discovery.Found} (same : fewer.error = found.error)
    {outcomes others : List PageOutcome}
    (records : others.filterMap PageOutcome.page? = outcomes.filterMap PageOutcome.page?) :
    (i.withoutPages layout.pagesDir pages workers).report layout fewer others =
      { i.report layout found outcomes with errors :=
          found.error.toList ++ others.filterMap PageOutcome.error? ++
            ((readSitemap i.tree layout).errors ++ (readRobots i.tree layout).errors) } := by
  have located := layout_eq_ok_iff.mp detected
  have sitemap := Layout.readSitemap_withoutFiles wellFormed spares located
  have robots := Layout.readRobots_withoutFiles wellFormed spares located
  show reportOf layout i.isEnabled fewer others (readSitemap (i.tree.withoutFiles _) layout)
    (readRobots (i.tree.withoutFiles _) layout) = _
  rw [sitemap, robots]
  simp only [report, reportOf, records, same, ← List.append_assoc]
  rfl

theorem search_withoutPages (workers : Option Int) (wellFormed : i.tree.isWellFormed)
    (detected : i.layout = .ok layout) (search : i.search layout = .ok found)
    (all : ∀ page ∈ pages, Discovery.IsPagePath page) :
    ∃ fewer, (i.withoutPages layout.pagesDir pages workers).search layout = .ok fewer ∧
      fewer.error = found.error ∧ fewer.pages = found.pages.filter (!pages.contains ·) := by
  have located := layout_eq_ok_iff.mp detected
  obtain ⟨fewer, searched, same, filtered⟩ := Discovery.find_withoutFiles
    (Discovery.isPlaceOf layout.pagesDir pages) wellFormed (Discovery.isPlaceOf_top all)
    (Layout.pagesDirectory_eq_some_iff.mp located.pagesDir).2
    (mapError_eq_ok_iff.mp search)
  simp only [Discovery.isPlaceOf_page all] at filtered
  exact ⟨fewer, mapError_eq_ok_iff.mpr searched, same, filtered⟩

theorem mapM_analysis_withoutPages (workers : Option Int) (wellFormed : i.tree.isWellFormed)
    (detected : i.layout = .ok layout) (search : i.search layout = .ok found)
    (all : ∀ page ∈ pages, Discovery.IsPagePath page)
    (spares : Layout.Spares (Discovery.isPlaceOf layout.pagesDir pages) i.settings) :
    (found.pages.filter (!pages.contains ·)).mapM
        ((i.withoutPages layout.pagesDir pages workers).analysis layout) =
      (found.pages.filter (!pages.contains ·)).mapM (i.analysis layout) := by
  have isPage := Discovery.find_isPagePath wellFormed (mapError_eq_ok_iff.mp search)
  refine mapM_congr_left fun page member => ?_
  obtain ⟨member, stays⟩ := List.mem_filter.mp member
  refine analysis_withoutPages wellFormed detected search spares member ?_
  rw [Discovery.fullPath, Path.location_below _ (isPage page member).entries,
    Discovery.isPlaceOf_page all]
  simpa using stays

theorem mapM_analysis_cases {listed : List (List Text)}
    (unreadable : ∀ page ∈ pages, ∃ e, Discovery.load i.tree layout.pagesDir page =
      .error e) :
    (∃ e, listed.mapM (i.analysis layout) = .error e ∧
        (listed.filter (!pages.contains ·)).mapM (i.analysis layout) = .error e) ∨
      ∃ outcomes others, listed.mapM (i.analysis layout) = .ok outcomes ∧
        (listed.filter (!pages.contains ·)).mapM (i.analysis layout) = .ok others ∧
        others.filterMap PageOutcome.page? = outcomes.filterMap PageOutcome.page? := by
  refine mapM_filter_cases fun page _ left => ?_
  obtain ⟨e, failed⟩ := unreadable page (by simpa using left)
  exact ⟨_, analysis_unreadable failed, rfl⟩

/-- Pages that cannot be read are isolated, unless the configuration names them. -/
theorem unreadable_pages_are_isolated (workers : Option Int) (wellFormed : i.tree.isWellFormed)
    (detected : i.layout = .ok layout) (search : i.search layout = .ok found)
    (unreadable : ∀ page ∈ pages, page ∈ found.pages ∧
      ∃ e, Discovery.load i.tree layout.pagesDir page = .error e)
    (unconfigured : ∀ path ∈ i.config.filePaths, ∀ page ∈ pages,
      path.location ≠ (Discovery.fullPath layout.pagesDir page).location) :
    i.Isolates layout found pages workers := by
  intro outcome other yields fewerYields
  have isPage := Discovery.find_isPagePath wellFormed (mapError_eq_ok_iff.mp search)
  have all : ∀ page ∈ pages, Discovery.IsPagePath page :=
    fun page member => isPage page (unreadable page member).1
  have spares : Layout.Spares (Discovery.isPlaceOf layout.pagesDir pages) i.settings :=
    Layout.spares_of_unconfigured all unconfigured
  have detected' : (i.withoutPages layout.pagesDir pages workers).layout = .ok layout :=
    layout_eq_ok_iff.mpr ((layout_eq_ok_iff.mp detected).withoutFiles wellFormed spares)
  obtain ⟨fewer, search', same, filtered⟩ :=
    search_withoutPages workers wellFormed detected search all
  have kept := mapM_analysis_withoutPages workers wellFormed detected search all spares
  have failing : ∀ page ∈ pages, ∃ e, Discovery.load i.tree layout.pagesDir page = .error e :=
    fun page member => (unreadable page member).2
  rw [Yields.iff_outcome.mp yields, Yields.iff_outcome.mp fewerYields,
    outcome_of_search detected search, outcome_of_search detected' search', filtered, kept]
  rcases mapM_analysis_cases failing with ⟨e, failed, failed'⟩ |
    ⟨outcomes, others, gathered, gathered', records⟩
  · rw [failed, failed']
    exact .inl ⟨_, rfl, rfl⟩
  · have errors := filterMap_eq_of_mapM gathered fun page outcome => analysis_error? detected
    have errors' := filterMap_eq_of_mapM gathered' fun page outcome => analysis_error? detected
    rw [gathered, gathered']
    refine .inr ⟨_, (readSitemap i.tree layout).errors ++ (readRobots i.tree layout).errors, rfl,
      ?_, ?_, congrArg Except.ok ?_⟩
    · intro page member
      obtain ⟨e, failed⟩ := failing page member
      rw [readError?, failed]
      rfl
    · rw [← errors, ← List.append_assoc]
      rfl
    · rw [← errors']
      exact report_withoutPages wellFormed detected spares same records

end Isolation

def gonePages : List (List Text) := [["gone.vue"]]

def damagedPages : List (Text × Tree) := [("gone.vue", .file [0xff]), ("index.vue", .file [])]

def damagedShop : Input where
  tree := .directory [("pages", .directory damagedPages)]
  engines _ _ _ := .failed "Error" "boom"
  root := { segments := [] }
  config := { root := { segments := [] } }
  workers := some 2

def damagedLayout : Layout where
  root := damagedShop.root
  pagesDir := { segments := ["pages"] }
  ignorePaths := damagedShop.config.ignorePaths

theorem damagedShop_isolates : ∃ found report, damagedShop.search damagedLayout = .ok found ∧
    damagedShop.Isolates damagedLayout found gonePages (some 1) ∧
    damagedShop.Yields (.ok report) ∧ report.errors.length = 1 := by
  have looked :
      damagedShop.tree.lookup damagedLayout.pagesDir = .ok (.directory damagedPages) := rfl
  have search := search_of_sorted looked (by decide)
  have unreadable : ∀ page ∈ gonePages, page ∈ Discovery.pagesIn damagedPages ∧
      ∃ e, Discovery.load damagedShop.tree damagedLayout.pagesDir page = .error e :=
    List.forall_mem_singleton.mpr ⟨by decide, _, rfl⟩
  have isolates := unreadable_pages_are_isolated (some 1) (by decide +kernel)
    (rfl : damagedShop.layout = .ok damagedLayout) search unreadable nofun
  obtain ⟨report, yields, errors⟩ := exists_report_of_search (·.errors.length) 1
    (rfl : damagedShop.layout = .ok damagedLayout) search (by decide +kernel)
  exact ⟨_, report, search, isolates, yields, errors⟩

def misnamedShop : Input where
  tree := .directory [("pages", .directory [("gone.vue", .file [0xff])])]
  engines _ _ _ := .failed "Error" "boom"
  root := { segments := [] }
  config :=
    { root := { segments := [] }, sitemapFile := some { segments := ["pages", "gone.vue"] } }
  enabled := some false

def misnamedLayout : Layout where
  root := misnamedShop.root
  pagesDir := { segments := ["pages"] }
  sitemapFile := misnamedShop.config.sitemapFile
  ignorePaths := misnamedShop.config.ignorePaths

/-- Without the page the shop has no sitemap file either, and is warned of it. -/
theorem misnamedShop_is_not_isolated : ∃ found, misnamedShop.layout = .ok misnamedLayout ∧
    misnamedShop.search misnamedLayout = .ok found ∧ found.pages = gonePages ∧
    (∃ e, Discovery.load misnamedShop.tree misnamedLayout.pagesDir ["gone.vue"] =
      .error (.undecodable e)) ∧
    ¬misnamedShop.Isolates misnamedLayout found gonePages none := by
  have looked : misnamedShop.tree.lookup misnamedLayout.pagesDir =
      .ok (.directory [("gone.vue", .file [0xff])]) := rfl
  have search := search_of_sorted looked (by decide)
  refine ⟨_, rfl, search, by decide +kernel, ⟨_, rfl⟩, fun isolates => ?_⟩
  obtain ⟨report, yields, quiet⟩ := exists_report_of_outcome misnamedShop
    (·.warnings.length) 0 (by decide +kernel)
  obtain ⟨other, others, warned⟩ := exists_report_of_outcome
    (misnamedShop.withoutPages misnamedLayout.pagesDir gonePages none)
    (·.warnings.length) 1 (by decide +kernel)
  rcases isolates _ _ yields others with ⟨fault, failed, -⟩ |
    ⟨report', rest, same, -, -, same'⟩
  · cases failed
  · cases same
    cases same'
    have absurd : 0 = 1 := quiet.symm.trans warned
    cases absurd

end Audit.Input
end SeoAudit
