import SeoAudit.Proofs.Layouts

/-! Paths that are short enough to be looked up. A file system refuses a path for its length
alone, so where every place that may be searched is short, the search for a layout fails
only for want of a pages directory. -/
namespace SeoAudit

structure Path.IsShort (p : Path) : Prop where
  text : Name.octetTotal p.text ≤ Path.textLimit
  segments : ∀ s ∈ p.segments, Name.octetTotal s ≤ Path.segmentLimit

instance (p : Path) : Decidable p.IsShort :=
  decidable_of_iff
    (Name.octetTotal p.text ≤ Path.textLimit ∧
      ∀ s ∈ p.segments, Name.octetTotal s ≤ Path.segmentLimit)
    ⟨fun ⟨text, segments⟩ => ⟨text, segments⟩, fun h => ⟨h.text, h.segments⟩⟩

namespace Tree
variable {t : Tree} {p : Path}

theorem entry_ne_tooLong {name : Text} (short : Name.octetTotal name ≤ Path.segmentLimit) :
    t.entry name ≠ .error .tooLong := by
  intro refused
  cases t with
  | file content => cases refused
  | directory entries =>
    rw [entry, if_neg (Nat.not_lt.mpr short)] at refused
    split at refused
    · cases refused
    · cases refused

theorem follow_ne_tooLong {segments : List Text}
    (short : ∀ s ∈ segments, Name.octetTotal s ≤ Path.segmentLimit) (above : List Tree)
    (here : Tree) : follow above here segments ≠ .error .tooLong := by
  induction segments generalizing above here with
  | nil => nofun
  | cons segment rest ih =>
    have onward := ih fun s member => short s (List.mem_cons_of_mem segment member)
    -- Only the look for an entry refuses a segment; the way up never does.
    unfold follow
    split
    · split
      · cases above with
        | nil => exact onward [] here
        | cons up further => exact onward further up
      · nofun
    · split
      · rename_i e failed
        intro tooLong
        rw [Except.error.inj tooLong] at failed
        exact entry_ne_tooLong (short segment List.mem_cons_self) failed
      · exact onward _ _

section Tested
variable {text : Text} (textShort : Name.octetTotal text ≤ Path.textLimit)
  (short : ∀ s ∈ p.segments, Name.octetTotal s ≤ Path.segmentLimit)
include textShort short

theorem lookupAs_ne_tooLong : lookupAs text t p ≠ .error .tooLong := by
  unfold lookupAs
  split
  · nofun
  · rw [if_neg (Nat.not_lt.mpr textShort)]
    exact follow_ne_tooLong short [] t

theorem holdsAs_eq (property : Tree → Bool) :
    t.holdsAs text property p = .ok ((lookupAs text t p).toOption.any property) := by
  have notLong := lookupAs_ne_tooLong (t := t) textShort short
  unfold holdsAs
  cases looked : lookupAs text t p with
  | ok node => rfl
  | error e =>
    cases e with
    | tooLong => exact absurd looked notLong
    | missing => rfl
    | notDirectory => rfl
    | badPath e => rfl

end Tested

def has (property : Tree → Bool) (t : Tree) (p : Path) : Bool :=
  (t.lookup p).toOption.any property

def hasNode : Tree → Path → Bool := has fun _ => true

def hasDirectory : Tree → Path → Bool := has isDirectory

theorem hasNode_of_hasDirectory (there : t.hasDirectory p) : t.hasNode p := by
  rw [hasDirectory, has, Option.any_eq_true] at there
  obtain ⟨node, found, -⟩ := there
  rw [hasNode, has, found]
  rfl

theorem existsAt_eq (short : p.IsShort) : t.existsAt p = .ok (t.hasNode p) :=
  holdsAs_eq short.text short.segments _

theorem isDirectoryAt_eq (short : p.IsShort) : t.isDirectoryAt p = .ok (t.hasDirectory p) :=
  holdsAs_eq short.text short.segments _

theorem isFileAt_error {e : PathError} (refused : t.isFileAt p = .error e) :
    e = .tooLong p.text ∧ ¬ p.IsShort := by
  constructor
  · unfold isFileAt holdsAs at refused
    split at refused
    · cases refused
    · exact (Except.error.inj refused).symm
    · cases refused
  · intro short
    rw [isFileAt, holdsAs_eq short.text short.segments] at refused
    cases refused

theorem firstWhere_eq_find? {test : Path → Except PathError Bool} {holds : Path → Bool}
    {ps : List Path} (tested : ∀ p ∈ ps, test p = .ok (holds p)) :
    firstWhere test ps = .ok (ps.find? holds) := by
  induction ps with
  | nil => rfl
  | cons p ps ih =>
    obtain ⟨first, rest⟩ := List.forall_mem_cons.mp tested
    rw [firstWhere, first]
    cases here : holds p with
    | true =>
      rw [List.find?_cons_of_pos here]
      rfl
    | false =>
      rw [List.find?_cons_of_neg (by simp [here])]
      exact ih rest

end Tree

namespace Layout
variable (tree : Tree) {config : Config}

/-- All places where something of a project may be looked for are short. -/
def ShortPlaces (config : Config) : Prop :=
  ∀ p ∈ pagesPlaces config ++ filePlaces config, p.IsShort

instance (config : Config) : Decidable (ShortPlaces config) :=
  inferInstanceAs (Decidable (∀ p ∈ pagesPlaces config ++ filePlaces config, p.IsShort))

theorem find_eq {root : Path} {configured : Option Path} {candidates : List Text}
    (short : ∀ p ∈ places root configured candidates, p.IsShort) :
    find tree root configured candidates =
      .ok ((places root configured candidates).find? tree.hasNode) :=
  Tree.firstWhere_eq_find? fun p member => Tree.existsAt_eq (short p member)

theorem pagesDirectory_eq (short : ∀ p ∈ pagesPlaces config, p.IsShort) :
    pagesDirectory tree config =
      .ok (((pagesPlaces config).find? tree.hasNode).filter tree.hasDirectory) := by
  have searched : find tree config.root config.pagesDir pagesDirCandidates =
      .ok ((pagesPlaces config).find? tree.hasNode) := find_eq tree short
  rw [pagesDirectory, searched]
  cases first : (pagesPlaces config).find? tree.hasNode with
  | none => rfl
  | some place =>
    have tested : tree.isDirectoryAt place = .ok (tree.hasDirectory place) :=
      Tree.isDirectoryAt_eq (short place (List.mem_of_find?_eq_some first))
    show (tree.isDirectoryAt place >>= _) = _
    rw [tested]
    cases here : tree.hasDirectory place <;> simp [Option.filter, here] <;> rfl

/-- Where all places are short, a layout is missing only for want of a pages directory. -/
theorem detect_cases (short : ShortPlaces config) :
    (pagesDirectory tree config = .ok none ∧ detect tree config = .error .noPagesDirectory) ∨
      ∃ layout, detect tree config = .ok layout := by
  have searched := pagesDirectory_eq tree fun p member => short p (List.mem_append_left _ member)
  cases found : ((pagesPlaces config).find? tree.hasNode).filter tree.hasDirectory with
  | none =>
    rw [found] at searched
    refine .inl ⟨searched, ?_⟩
    rw [detect, searched]
    rfl
  | some pagesDir =>
    rw [found] at searched
    have shortFiles : ∀ p ∈ filePlaces config, p.IsShort := fun p member =>
      short p (List.mem_append_right _ member)
    simp only [filePlaces, List.mem_append] at shortFiles
    have sitemap := find_eq tree fun p member => shortFiles p (.inl (.inl member))
    have framework := find_eq tree fun p member => shortFiles p (.inl (.inr member))
    have generator := find_eq tree fun p member => shortFiles p (.inr member)
    have detected : Detected tree config
        ⟨config.root, pagesDir, _, _, _, config.ignorePaths⟩ :=
      ⟨rfl, searched, sitemap, framework, generator, rfl⟩
    exact .inr ⟨_, detect_eq_ok_iff.mpr detected⟩

end Layout
end SeoAudit
