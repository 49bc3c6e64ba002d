import SeoAudit.Audit
import SeoAudit.Proofs.Lists

/-! Where a layout says that the files of a project are. `Layout.Detected` lists the
searches behind it, and the places where the generator is looked for are among those that
have been searched, so locating it never fails again. -/
namespace SeoAudit

namespace Tree
variable {test other : Path → Except PathError Bool} {ps : List Path} {t : Tree} {p : Path}

theorem firstWhere_some (found : firstWhere test ps = .ok (some p)) :
    p ∈ ps ∧ test p = .ok true := by
  induction ps with
  | nil => cases found
  | cons q ps ih =>
    obtain ⟨here, tested, rest⟩ := bind_eq_ok_iff.mp found
    cases here with
    | true =>
      cases rest
      exact ⟨List.mem_cons_self, tested⟩
    | false => exact (ih rest).imp_left (List.mem_cons_of_mem q)

theorem firstWhere_none_iff :
    firstWhere test ps = .ok none ↔ ∀ p ∈ ps, test p = .ok false := by
  induction ps with
  | nil => simp [firstWhere]
  | cons q ps ih =>
    rw [firstWhere, bind_eq_ok_iff, List.forall_mem_cons, ← ih]
    constructor
    · rintro ⟨here, tested, rest⟩
      cases here with
      | true => cases rest
      | false => exact ⟨tested, rest⟩
    · rintro ⟨tested, rest⟩
      exact ⟨false, tested, rest⟩

theorem firstWhere_error {e : PathError} (failed : firstWhere test ps = .error e) :
    ∃ p ∈ ps, test p = .error e := by
  induction ps with
  | nil => cases failed
  | cons q ps ih =>
    rw [firstWhere] at failed
    cases tested : test q with
    | error e' =>
      rw [tested] at failed
      cases failed
      exact ⟨q, List.mem_cons_self, tested⟩
    | ok here =>
      rw [tested] at failed
      cases here with
      | true => cases failed
      | false =>
        obtain ⟨p, member, refused⟩ := ih failed
        exact ⟨p, List.mem_cons_of_mem q member, refused⟩

theorem firstWhere_congr (same : ∀ p ∈ ps, test p = other p) :
    firstWhere test ps = firstWhere other ps := by
  induction ps with
  | nil => rfl
  | cons q ps ih =>
    rw [firstWhere, firstWhere, same q List.mem_cons_self,
      ih fun p member => same p (List.mem_cons_of_mem q member)]

theorem firstWhere_transfer (found : firstWhere test ps = .ok (some p))
    (missing : ∀ q, test q = .ok false → other q = .ok false) (there : other p = .ok true) :
    firstWhere other ps = .ok (some p) := by
  induction ps with
  | nil => cases found
  | cons q ps ih =>
    obtain ⟨here, tested, rest⟩ := bind_eq_ok_iff.mp found
    cases here with
    | true =>
      cases rest
      rw [firstWhere, there]
      rfl
    | false =>
      rw [firstWhere, missing q tested]
      exact ih rest

theorem existsAt_true_iff : t.existsAt p = .ok true ↔ ∃ node, t.lookup p = .ok node := by
  rw [existsAt, holdsAs, ← lookup]
  cases t.lookup p with
  | ok node => simp
  | error e => cases e <;> simp

theorem isDirectoryAt_true_iff :
    t.isDirectoryAt p = .ok true ↔ ∃ entries, t.lookup p = .ok (.directory entries) := by
  rw [isDirectoryAt, holdsAs, ← lookup]
  cases t.lookup p with
  | ok node => cases node <;> simp [isDirectory]
  | error e => cases e <;> simp

theorem isFileAt_true_iff :
    t.isFileAt p = .ok true ↔ ∃ content, t.lookup p = .ok (.file content) := by
  rw [isFileAt, holdsAs, ← lookup]
  cases t.lookup p with
  | ok node => cases node <;> simp [isFile]
  | error e => cases e <;> simp

theorem isFileAt_of_existsAt {here : Bool} (tested : t.existsAt p = .ok here) :
    ∃ file, t.isFileAt p = .ok file ∧ (here = false → file = false) := by
  rw [existsAt, holdsAs, ← lookup] at tested
  rw [isFileAt, holdsAs, ← lookup]
  cases found : t.lookup p with
  | ok node =>
    rw [found] at tested
    cases tested
    exact ⟨_, rfl, nofun⟩
  | error e =>
    rw [found] at tested
    cases e with
    | tooLong => cases tested
    | missing => exact ⟨false, rfl, fun _ => rfl⟩
    | notDirectory => exact ⟨false, rfl, fun _ => rfl⟩
    | badPath e => exact ⟨false, rfl, fun _ => rfl⟩

end Tree

namespace Layout
variable {tree : Tree} {config : Config} {layout : Layout}

/-- The places of a layout, each as it is found. -/
structure Detected (tree : Tree) (config : Config) (layout : Layout) : Prop where
  root : layout.root = config.root
  pagesDir : pagesDirectory tree config = .ok (some layout.pagesDir)
  sitemapFile : find tree config.root config.sitemapFile sitemapCandidates = .ok layout.sitemapFile
  frameworkConfig :
    find tree config.root config.frameworkConfig frameworkCandidates = .ok layout.frameworkConfig
  generatorFile : find tree config.root config.generatorFile Generator.defaultCandidates =
    .ok layout.generatorFile
  ignorePaths : layout.ignorePaths = config.ignorePaths

theorem detect_eq_ok_iff : detect tree config = .ok layout ↔ Detected tree config layout := by
  rw [detect, bind_eq_ok_iff]
  constructor
  · rintro ⟨directory, pages, rest⟩
    cases directory with
    | none => cases rest
    | some pagesDir =>
      obtain ⟨sitemapFile, sitemap, rest⟩ := bind_eq_ok_iff.mp (mapError_eq_ok_iff.mp rest)
      obtain ⟨frameworkConfig, framework, rest⟩ := bind_eq_ok_iff.mp rest
      obtain ⟨generatorFile, generator, rest⟩ := bind_eq_ok_iff.mp rest
      cases rest
      exact ⟨rfl, mapError_eq_ok_iff.mp pages, sitemap, framework, generator, rfl⟩
  · intro detected
    refine ⟨some layout.pagesDir, mapError_eq_ok_iff.mpr detected.pagesDir,
      mapError_eq_ok_iff.mpr ?_⟩
    simp only [withPages, detected.sitemapFile, detected.frameworkConfig, detected.generatorFile]
    rw [← detected.root, ← detected.ignorePaths]
    rfl

theorem pagesDirectory_eq_some_iff {directory : Path} :
    pagesDirectory tree config = .ok (some directory) ↔
      find tree config.root config.pagesDir pagesDirCandidates = .ok (some directory) ∧
        tree.isDirectoryAt directory = .ok true := by
  rw [pagesDirectory, bind_eq_ok_iff]
  constructor
  · rintro ⟨first, found, rest⟩
    cases first with
    | none => cases rest
    | some place =>
      obtain ⟨isDirectory, tested, rest⟩ := bind_eq_ok_iff.mp rest
      cases isDirectory with
      | false => cases rest
      | true =>
        cases rest
        exact ⟨found, tested⟩
  · rintro ⟨found, tested⟩
    refine ⟨some directory, found, ?_⟩
    simp only [tested]
    rfl

theorem Detected.locates (detected : Detected tree config layout) :
    ∃ source, (Audit.generatorOf layout config).locate tree = .ok source := by
  have generator := detected.generatorFile
  rw [find] at generator
  cases file : layout.generatorFile with
  | some path =>
    rw [file] at generator
    obtain ⟨isFile, tested, -⟩ := Tree.isFileAt_of_existsAt (Tree.firstWhere_some generator).2
    simp only [Generator.locate, Audit.generatorOf, file, Tree.firstWhere, tested]
    cases isFile with
    | false => exact ⟨none, rfl⟩
    | true => exact ⟨some path, rfl⟩
  | none =>
    rw [file] at generator
    have missing := Tree.firstWhere_none_iff.mp generator
    refine ⟨none, ?_⟩
    simp only [Generator.locate, Audit.generatorOf, file]
    apply Tree.firstWhere_none_iff.mpr
    intro path member
    rw [detected.root] at member
    obtain ⟨isFile, tested, absent⟩ := Tree.isFileAt_of_existsAt
      (missing path (List.mem_append_right _ member))
    rw [tested, absent rfl]

end Layout
end SeoAudit
