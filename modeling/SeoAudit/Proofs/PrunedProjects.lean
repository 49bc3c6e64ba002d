import SeoAudit.Proofs.FileRemoval

/-! A project from which pages are removed. Its other files are looked for where no page can
be, or where the configuration says; as long as this is not a page that is gone, they are
found and read as before. -/
namespace SeoAudit

namespace Path

theorem resolveFrom_append {above segments names : List Text}
    (down : ∀ name ∈ names, name ≠ "..") :
    resolveFrom above (segments ++ names) = resolveFrom above segments ++ names := by
  induction segments generalizing above with
  | nil =>
    rw [List.nil_append, resolveFrom]
    induction names generalizing above with
    | nil => exact (List.append_nil _).symm
    | cons name names ih =>
      obtain ⟨first, others⟩ := List.forall_mem_cons.mp down
      rw [resolveFrom, if_neg first, ih others]
      simp
  | cons segment segments ih =>
    rw [List.cons_append, resolveFrom, resolveFrom]
    split
    · exact ih
    · exact ih

theorem location_below (p : Path) {names : List Text}
    (entries : ∀ name ∈ names, Name.isEntry name) :
    (p.below names).location = p.location ++ names := by
  have same : names.map Name.stored = names := by
    conv_rhs => rw [← List.map_id names]
    exact List.map_congr_left fun name member => (Name.isEntry_iff.mp (entries name member)).2.2
  have down := fun name member => (Name.isEntry_iff.mp (entries name member)).2.1
  simp only [location, resolve, stored, below, resolveFrom_append down, List.map_append, same]

end Path

namespace Layout
open Discovery (IsPagePath)

def usualFiles : List Text :=
  sitemapCandidates ++ frameworkCandidates ++ Generator.defaultCandidates ++ [Audit.robotsFile]

def leadsToNoPage (file : Text) : Bool :=
  !Path.isAbsoluteText file && (Path.parts file).all Name.isEntry &&
    (Path.parts file).getLast?.any (!Discovery.isPage ·)

theorem leadsToNoPage_usualFiles : ∀ file ∈ usualFiles, leadsToNoPage file := by
  decide

theorem location_join_ne {root directory : Path} {file : Text} {page : List Text}
    (noPage : leadsToNoPage file) (isPage : IsPagePath page) :
    (root.join file).location ≠ (Discovery.fullPath directory page).location := by
  simp only [leadsToNoPage, Bool.and_eq_true, Bool.not_eq_true', List.all_eq_true] at noPage
  obtain ⟨⟨relative, entries⟩, named⟩ := noPage
  obtain ⟨front, last, rfl, suffix⟩ := isPage.page
  obtain ⟨other, found, otherwise⟩ := (Option.any_eq_true _ _).mp named
  obtain ⟨start, parts⟩ := List.getLast?_eq_some_iff.mp found
  rw [Path.join, if_neg (by simp [relative]), Path.location_below _ entries, Discovery.fullPath,
    Path.location_below _ isPage.entries, parts, ← List.append_assoc, ← List.append_assoc]
  intro same
  have names := (List.append_inj' same rfl).2
  cases names
  rw [suffix] at otherwise
  cases otherwise

variable {tree : Tree} {gone : List Text → Bool} {config : Config} {layout : Layout}

/-- Removing files leaves in place what is looked for outside the pages. -/
structure Spares (gone : List Text → Bool) (config : Config) : Prop where
  top : gone [] = false
  files : ∀ path ∈ filePlaces config, gone path.location = false
  robots : gone (config.root.join Audit.robotsFile).location = false

namespace Spares
variable (spares : Spares gone config) {path : Path}
include spares

theorem sitemapFile (place : path ∈ places config.root config.sitemapFile sitemapCandidates) :
    gone path.location = false :=
  spares.files path (List.mem_append_left _ (List.mem_append_left _ place))

theorem frameworkConfig
    (place : path ∈ places config.root config.frameworkConfig frameworkCandidates) :
    gone path.location = false :=
  spares.files path (List.mem_append_left _ (List.mem_append_right _ place))

theorem generatorFile
    (place : path ∈ places config.root config.generatorFile Generator.defaultCandidates) :
    gone path.location = false :=
  spares.files path (List.mem_append_right _ place)

end Spares

theorem find_withoutFiles {root : Path} {configured : Option Path} {candidates : List Text}
    (wellFormed : tree.isWellFormed) (top : gone [] = false)
    (spared : ∀ path ∈ places root configured candidates, gone path.location = false) :
    find (tree.withoutFiles gone) root configured candidates =
      find tree root configured candidates :=
  Tree.firstWhere_congr fun path member =>
    Tree.existsAt_withoutFiles wellFormed top (spared path member)

theorem pagesDirectory_withoutFiles {directory : Path} (wellFormed : tree.isWellFormed)
    (top : gone [] = false) (found : pagesDirectory tree config = .ok (some directory)) :
    pagesDirectory (tree.withoutFiles gone) config = .ok (some directory) := by
  obtain ⟨found, isDirectory⟩ := pagesDirectory_eq_some_iff.mp found
  have stays : (tree.withoutFiles gone).isDirectoryAt directory = .ok true := by
    rw [Tree.isDirectoryAt_withoutFiles wellFormed top, isDirectory]
  obtain ⟨entries, looked⟩ := Tree.isDirectoryAt_true_iff.mp stays
  exact pagesDirectory_eq_some_iff.mpr ⟨Tree.firstWhere_transfer found
    (fun _ missing => Tree.not_existsAt_withoutFiles wellFormed top missing)
    (Tree.existsAt_true_iff.mpr ⟨_, looked⟩), stays⟩

section Detected
variable (wellFormed : tree.isWellFormed) (spares : Spares gone config)
  (detected : layout.Detected tree config)
include wellFormed spares detected

theorem Detected.withoutFiles : layout.Detected (tree.withoutFiles gone) config where
  root := detected.root
  pagesDir := pagesDirectory_withoutFiles wellFormed spares.top detected.pagesDir
  sitemapFile := (find_withoutFiles wellFormed spares.top fun _ => spares.sitemapFile).trans
    detected.sitemapFile
  frameworkConfig := (find_withoutFiles wellFormed spares.top fun _ => spares.frameworkConfig).trans
    detected.frameworkConfig
  generatorFile := (find_withoutFiles wellFormed spares.top fun _ => spares.generatorFile).trans
    detected.generatorFile
  ignorePaths := detected.ignorePaths

omit detected in
theorem readText_withoutFiles {root path : Path} {configured : Option Path} {candidates : List Text}
    (spared : ∀ path ∈ places root configured candidates, gone path.location = false)
    (found : find tree root configured candidates = .ok (some path)) :
    (tree.withoutFiles gone).readText path = tree.readText path := by
  obtain ⟨member, tested⟩ := Tree.firstWhere_some found
  obtain ⟨node, looked⟩ := Tree.existsAt_true_iff.mp tested
  exact Tree.readText_withoutFiles wellFormed spares.top (spared path member)
    (by rw [looked]; exact nofun)

theorem readSitemap_withoutFiles :
    Audit.readSitemap (tree.withoutFiles gone) layout = Audit.readSitemap tree layout := by
  unfold Audit.readSitemap
  cases file : layout.sitemapFile with
  | none => rfl
  | some path =>
    have found := file ▸ detected.sitemapFile
    have text := readText_withoutFiles wellFormed spares (fun _ => spares.sitemapFile) found
    simp only [text]

theorem readRobots_withoutFiles :
    Audit.readRobots (tree.withoutFiles gone) layout = Audit.readRobots tree layout := by
  unfold Audit.readRobots Audit.robotsVerdict
  have robots : (tree.withoutFiles gone).isFileAt (layout.root.join Audit.robotsFile) =
      tree.isFileAt (layout.root.join Audit.robotsFile) :=
    Tree.isFileAt_withoutFiles wellFormed spares.top (detected.root ▸ spares.robots)
  cases file : layout.frameworkConfig with
  | none => simp only [robots]
  | some path =>
    have found := file ▸ detected.frameworkConfig
    have text := readText_withoutFiles wellFormed spares (fun _ => spares.frameworkConfig) found
    simp only [text, robots]

theorem locate_withoutFiles :
    (Audit.generatorOf layout config).locate (tree.withoutFiles gone) =
        (Audit.generatorOf layout config).locate tree ∧
      ∀ path, (Audit.generatorOf layout config).locate tree = .ok (some path) →
        gone path.location = false ∧ tree.isFileAt path = .ok true := by
  have looked (paths : List Path) (spared : ∀ path ∈ paths, gone path.location = false) :
      Tree.firstWhere (tree.withoutFiles gone).isFileAt paths =
          Tree.firstWhere tree.isFileAt paths ∧
        ∀ path, Tree.firstWhere tree.isFileAt paths = .ok (some path) →
          gone path.location = false ∧ tree.isFileAt path = .ok true := by
    refine ⟨Tree.firstWhere_congr fun path member =>
      Tree.isFileAt_withoutFiles wellFormed spares.top (spared path member), fun path found => ?_⟩
    obtain ⟨member, tested⟩ := Tree.firstWhere_some found
    exact ⟨spared path member, tested⟩
  unfold Generator.locate Audit.generatorOf
  cases file : layout.generatorFile with
  | some path =>
    have found := file ▸ detected.generatorFile
    refine looked [path] fun other member => ?_
    cases List.mem_singleton.mp member
    exact spares.generatorFile (Tree.firstWhere_some found).1
  | none =>
    refine looked _ fun path member => spares.generatorFile (List.mem_append_right _ ?_)
    rwa [detected.root] at member

theorem evaluate_withoutFiles (engine : Engine) :
    (Audit.generatorOf layout config).evaluate (tree.withoutFiles gone) engine =
      (Audit.generatorOf layout config).evaluate tree engine := by
  obtain ⟨same, reached⟩ := locate_withoutFiles wellFormed spares detected
  have definition : (Audit.generatorOf layout config).definition (tree.withoutFiles gone) =
      (Audit.generatorOf layout config).definition tree := by
    unfold Generator.definition
    rw [same]
    refine bind_congr_ok fun source located => ?_
    cases source with
    | none => rfl
    | some path =>
      obtain ⟨stays, isFile⟩ := reached path located
      obtain ⟨content, looked⟩ := Tree.isFileAt_true_iff.mp isFile
      have text := Tree.readText_withoutFiles wellFormed spares.top stays
        (by rw [looked]; exact nofun)
      have source : Generator.definitionIn (tree.withoutFiles gone) path =
          Generator.definitionIn tree path := by
        unfold Generator.definitionIn
        rw [text]
      exact congrArg Except.ok source
  funext params
  unfold Generator.evaluate
  rw [definition]

end Detected
end Layout
end SeoAudit
