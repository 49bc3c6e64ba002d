import SeoAudit.Proofs.ShortPaths

/-! Which directory the pages of a project are looked for in. It is the first of the places where
there is a directory, unless a file stands at an earlier place: the search ends at the first place
where there is anything, and fails if that is no directory. -/
namespace SeoAudit

section First
variable {α : Type} {narrow wide : α → Bool} {as : List α}

theorem find?_narrow {a : α} (implied : ∀ a, narrow a → wide a)
    (first : as.find? wide = some a) (passes : narrow a) : as.find? narrow = some a := by
  obtain ⟨-, before, after, rfl, earlier⟩ := List.find?_eq_some_iff_append.mp first
  refine List.find?_eq_some_iff_append.mpr ⟨passes, before, after, rfl, fun b member => ?_⟩
  have fails := earlier b member
  rw [Bool.not_eq_true'] at fails ⊢
  exact Bool.eq_false_iff.mpr fun passed => Bool.eq_false_iff.mp fails (implied b passed)

theorem find?_filter_eq_none_iff (implied : ∀ a, narrow a → wide a) :
    (as.find? wide).filter narrow = none ↔
      (∀ a ∈ as, narrow a = false) ∨
        (∃ a ∈ as.find? wide, narrow a = false) ∧ ∃ a ∈ as, narrow a := by
  cases first : as.find? wide with
  | none =>
    have absent : ∀ a ∈ as, narrow a = false := fun a member =>
      Bool.eq_false_iff.mpr fun passes => List.find?_eq_none.mp first a member (implied a passes)
    exact ⟨fun _ => .inl absent, fun _ => rfl⟩
  | some a =>
    have member := List.mem_of_find?_eq_some first
    cases passes : narrow a with
    | true =>
      have kept : (some a).filter narrow = some a := by simp [passes]
      rw [kept]
      constructor
      · nofun
      · rintro (absent | ⟨⟨b, same, fails⟩, -⟩)
        · rw [absent a member] at passes
          cases passes
        · cases same
          rw [fails] at passes
          cases passes
    | false =>
      have dropped : (some a).filter narrow = none := by simp [passes]
      refine ⟨fun _ => ?_, fun _ => dropped⟩
      by_cases later : ∃ b ∈ as, narrow b
      · exact .inr ⟨⟨a, rfl, passes⟩, later⟩
      · exact .inl fun b listed => Bool.eq_false_iff.mpr fun found => later ⟨b, listed, found⟩

end First

namespace Layout
variable {tree : Tree} {config : Config}

/-- There is a page root, but the first place where there is anything holds something else. -/
def Obstructed (tree : Tree) (config : Config) : Prop :=
  (∃ place ∈ (pagesPlaces config).find? tree.hasNode, tree.hasDirectory place = false) ∧
    ∃ place ∈ pagesPlaces config, tree.hasDirectory place

instance (tree : Tree) (config : Config) : Decidable (Obstructed tree config) :=
  inferInstanceAs (Decidable (_ ∧ _))

theorem detect_eq_noPagesDirectory_iff (short : ShortPlaces config) :
    detect tree config = .error .noPagesDirectory ↔ pagesDirectory tree config = .ok none := by
  rcases detect_cases tree short with ⟨missing, failed⟩ | ⟨layout, detected⟩
  · simp only [missing, failed]
  · rw [detected, (detect_eq_ok_iff.mp detected).pagesDir]
    exact ⟨nofun, nofun⟩

/-- The search fails only for want of a page root or where one is obstructed; else it takes the
first of the places where there is a directory. -/
theorem page_root_is_detected (short : ShortPlaces config) :
    (detect tree config = .error .noPagesDirectory ↔
      (∀ place ∈ pagesPlaces config, tree.hasDirectory place = false) ∨
        Obstructed tree config) ∧
    ∀ place, (pagesPlaces config).find? tree.hasDirectory = some place →
      ¬ Obstructed tree config →
        ∃ layout, detect tree config = .ok layout ∧ layout.pagesDir = place := by
  have searched := pagesDirectory_eq tree fun p member => short p (List.mem_append_left _ member)
  have narrowed : ∀ place, tree.hasDirectory place → tree.hasNode place :=
    fun _ => Tree.hasNode_of_hasDirectory
  have fails : detect tree config = .error .noPagesDirectory ↔
      (∀ place ∈ pagesPlaces config, tree.hasDirectory place = false) ∨
        Obstructed tree config := by
    rw [detect_eq_noPagesDirectory_iff short, searched, Except.ok.injEq]
    exact find?_filter_eq_none_iff narrowed
  refine ⟨fails, fun place first unobstructed => ?_⟩
  -- What is taken is the first place with anything, and being a directory the first with one.
  rcases detect_cases tree short with ⟨-, failed⟩ | ⟨layout, detected⟩
  · rcases fails.mp failed with absent | obstructed
    · have there := List.find?_some first
      rw [absent place (List.mem_of_find?_eq_some first)] at there
      cases there
    · exact absurd obstructed unobstructed
  · refine ⟨layout, detected, ?_⟩
    have found := (detect_eq_ok_iff.mp detected).pagesDir
    rw [searched, Except.ok.injEq, Option.filter_eq_some_iff] at found
    obtain ⟨taken, isDirectory⟩ := found
    exact Option.some.inj ((find?_narrow narrowed taken isDirectory).symm.trans first)

def twoRoots : Tree :=
  .directory [("pages", .directory []), ("src", .directory [("pages", .directory [])])]

def missingRoot : Config :=
  { root := { segments := [] }, pagesDir := some { segments := ["views"] } }

theorem twoRoots_is_detected :
    detect twoRoots missingRoot ≠ .error .noPagesDirectory ∧
      ∃ layout, detect twoRoots missingRoot = .ok layout ∧
        layout.pagesDir = { segments := ["pages"] } := by
  have unobstructed : ¬ Obstructed twoRoots missingRoot := by decide +kernel
  have short : ShortPlaces missingRoot := by decide +kernel
  obtain ⟨fails, first⟩ := @page_root_is_detected twoRoots missingRoot short
  constructor
  · intro failed
    rcases fails.mp failed with absent | obstructed
    · exact absurd absent (by decide +kernel)
    · exact unobstructed obstructed
  · exact first _ (by decide +kernel) unobstructed

def obstructedSite : Tree :=
  .directory [("app", .directory [("pages", .file [])]), ("pages", .directory [])]

theorem obstructedSite_is_not_detected :
    ¬ (detect obstructedSite { root := { segments := [] } } = .error .noPagesDirectory ↔
      ∀ place ∈ pagesPlaces { root := { segments := [] } },
        obstructedSite.hasDirectory place = false) := by
  intro claimed
  have absent := claimed.mp (by decide +kernel)
  have there : obstructedSite.hasDirectory { segments := ["pages"] } = true := by decide +kernel
  rw [absent { segments := ["pages"] } (by decide +kernel)] at there
  cases there

end Layout
end SeoAudit
