import Mathlib.Data.List.Nodup
import SeoAudit.Project.Discovery
import SeoAudit.Proofs.Lists

/-! The paths of the pages of a project. In a tree as directories make it, no two page files
have the same path, and neither the text of a path nor the name of a page says less than the
path itself. -/
namespace SeoAudit

def Name.isEntry (name : Text) : Bool :=
  !name.contains (.char '/') && name != ".." && stored name == name

theorem Name.isEntry_iff {name : Text} :
    isEntry name ↔ CodePoint.char '/' ∉ name ∧ name ≠ ".." ∧ stored name = name := by
  simp [isEntry, and_assoc]

namespace Tree

mutual

def isWellFormed : Tree → Bool
  | file _ => true
  | directory entries => decide (entries.map (·.1)).Nodup && areWellFormed entries

def areWellFormed : List (Text × Tree) → Bool
  | [] => true
  | (name, node) :: entries => Name.isEntry name && node.isWellFormed && areWellFormed entries

end

theorem isWellFormed_directory {entries : List (Text × Tree)} :
    (directory entries).isWellFormed ↔ (entries.map (·.1)).Nodup ∧ areWellFormed entries := by
  simp [isWellFormed]

theorem areWellFormed_iff {entries : List (Text × Tree)} :
    areWellFormed entries ↔ ∀ e ∈ entries, Name.isEntry e.1 ∧ e.2.isWellFormed := by
  induction entries with
  | nil => simp [areWellFormed]
  | cons e entries ih => simp [areWellFormed, ih]

theorem entry_eq_ok_iff {name : Text} {entries : List (Text × Tree)} {next : Tree} :
    (directory entries).entry name = .ok next ↔
      Name.octetTotal name ≤ Path.segmentLimit ∧
        entries.lookup (Name.stored name) = some next := by
  rw [entry]
  by_cases long : Path.segmentLimit < Name.octetTotal name
  · simp [long, Nat.not_le_of_lt long]
  · cases entries.lookup (Name.stored name) with
    | none => simp [long]
    | some node => simp [long, Nat.le_of_not_lt long]

theorem entry_isWellFormed {name : Text} {t next : Tree} (wellFormed : t.isWellFormed)
    (found : t.entry name = .ok next) : next.isWellFormed := by
  cases t with
  | file content => cases found
  | directory entries =>
    obtain ⟨before, after, rfl, -⟩ := List.lookup_eq_some_iff.mp (entry_eq_ok_iff.mp found).2
    exact (areWellFormed_iff.mp (isWellFormed_directory.mp wellFormed).2 (_, next)
      (List.mem_append_right before List.mem_cons_self)).2

section Follow
variable {above : List Tree} {here found : Tree} {segment : Text} {rest segments : List Text}

theorem follow_up (isDirectory : here.isDirectory) :
    follow above here (".." :: rest) = follow above.tail (above.headD here) rest := by
  conv_lhs => unfold follow
  rw [if_pos rfl, if_pos isDirectory]
  cases above <;> rfl

theorem follow_down (down : segment ≠ "..") :
    follow above here (segment :: rest) =
      here.entry segment >>= fun next => follow (here :: above) next rest := by
  conv_lhs => unfold follow
  rw [if_neg down]
  cases here.entry segment <;> rfl

theorem follow_file (above : List Tree) (content : List UInt8) (segment : Text) (rest : List Text) :
    follow above (file content) (segment :: rest) = .error .notDirectory := by
  unfold follow
  split <;> rfl

theorem follow_isWellFormed (around : ∀ t ∈ above, t.isWellFormed)
    (wellFormed : here.isWellFormed) (followed : follow above here segments = .ok found) :
    found.isWellFormed := by
  induction segments generalizing above here with
  | nil =>
    cases followed
    exact wellFormed
  | cons segment rest ih =>
    cases here with
    | file content =>
      rw [follow_file] at followed
      cases followed
    | directory entries =>
      by_cases down : segment = ".."
      · rw [down, follow_up rfl] at followed
        cases above with
        | nil => exact ih around wellFormed followed
        | cons up above =>
          obtain ⟨first, others⟩ := List.forall_mem_cons.mp around
          exact ih others first followed
      · rw [follow_down down] at followed
        obtain ⟨next, listed, followed⟩ := bind_eq_ok_iff.mp followed
        exact ih (List.forall_mem_cons.mpr ⟨wellFormed, around⟩)
          (entry_isWellFormed wellFormed listed) followed

theorem follow_append (followed : follow above here segments = .ok found) :
    ∃ around, ∀ rest, follow above here (segments ++ rest) = follow around found rest := by
  induction segments generalizing above here with
  | nil =>
    cases followed
    exact ⟨above, fun rest => rfl⟩
  | cons segment segments ih =>
    cases here with
    | file content =>
      rw [follow_file] at followed
      cases followed
    | directory entries =>
      by_cases down : segment = ".."
      · rw [down, follow_up rfl] at followed
        obtain ⟨around, same⟩ := ih followed
        exact ⟨around, fun rest => by rw [List.cons_append, down, follow_up rfl, same]⟩
      · rw [follow_down down] at followed
        obtain ⟨next, listed, followed⟩ := bind_eq_ok_iff.mp followed
        obtain ⟨around, same⟩ := ih followed
        refine ⟨around, fun rest => ?_⟩
        rw [List.cons_append, follow_down down, listed]
        exact same rest

end Follow

theorem follow_of_lookup {t found : Tree} {p : Path} (looked : t.lookup p = .ok found) :
    follow [] t p.segments = .ok found := by
  unfold lookup lookupAs at looked
  split at looked
  · cases looked
  · split at looked
    · cases looked
    · exact looked

theorem lookup_isWellFormed {t found : Tree} {p : Path} (wellFormed : t.isWellFormed)
    (looked : t.lookup p = .ok found) : found.isWellFormed :=
  follow_isWellFormed (List.forall_mem_nil _) wellFormed (follow_of_lookup looked)

end Tree

namespace Discovery

structure IsPagePath (path : List Text) : Prop where
  entries : ∀ segment ∈ path, Name.isEntry segment
  page : ∃ front last, path = front ++ [last] ∧ isPage last

theorem exists_rest_of_mem_pagesAt {name : Text} {node : Tree} {path : List Text}
    (member : path ∈ pagesAt name node) : ∃ rest, path = name :: rest := by
  cases node with
  | file content =>
    simp only [pagesAt] at member
    split at member
    · exact ⟨[], List.mem_singleton.mp member⟩
    · cases member
  | directory entries =>
    simp only [pagesAt] at member
    split at member
    · cases member
    · obtain ⟨rest, -, rfl⟩ := List.mem_map.mp member
      exact ⟨rest, rfl⟩

theorem exists_entry_of_mem_pagesIn {entries : List (Text × Tree)} {path : List Text}
    (member : path ∈ pagesIn entries) : ∃ e ∈ entries, path ∈ pagesAt e.1 e.2 := by
  induction entries with
  | nil => cases member
  | cons e entries ih =>
    rcases List.mem_append.mp member with here | later
    · exact ⟨e, List.mem_cons_self, here⟩
    · obtain ⟨other, listed, there⟩ := ih later
      exact ⟨other, List.mem_cons_of_mem e listed, there⟩

mutual

theorem pagesAt_isPagePath {name : Text} :
    {node : Tree} → Name.isEntry name → node.isWellFormed →
    ∀ path ∈ pagesAt name node, IsPagePath path
  | .file content, entry, _, path, member => by
    simp only [pagesAt] at member
    split at member
    · cases List.mem_singleton.mp member
      exact ⟨by simpa using entry, [], name, rfl, ‹_›⟩
    · cases member
  | .directory entries, entry, wellFormed, path, member => by
    simp only [pagesAt] at member
    split at member
    · cases member
    · obtain ⟨rest, inside, rfl⟩ := List.mem_map.mp member
      obtain ⟨names, front, last, rfl, page⟩ :=
        pagesIn_isPagePath (Tree.isWellFormed_directory.mp wellFormed).2 rest inside
      exact ⟨List.forall_mem_cons.mpr ⟨entry, names⟩, name :: front, last, rfl, page⟩

theorem pagesIn_isPagePath : {entries : List (Text × Tree)} → Tree.areWellFormed entries →
    ∀ path ∈ pagesIn entries, IsPagePath path
  | [], _, path, member => nomatch member
  | (name, node) :: entries, wellFormed, path, member => by
    simp only [Tree.areWellFormed, Bool.and_eq_true] at wellFormed
    rcases List.mem_append.mp member with here | later
    · exact pagesAt_isPagePath wellFormed.1.1 wellFormed.1.2 path here
    · exact pagesIn_isPagePath wellFormed.2 path later

end

mutual

theorem nodup_pagesAt {name : Text} :
    {node : Tree} → node.isWellFormed → (pagesAt name node).Nodup
  | .file content, _ => by
    simp only [pagesAt]
    split
    · exact List.nodup_singleton _
    · exact List.nodup_nil
  | .directory entries, wellFormed => by
    simp only [pagesAt]
    split
    · exact List.nodup_nil
    · obtain ⟨distinct, all⟩ := Tree.isWellFormed_directory.mp wellFormed
      exact (nodup_pagesIn distinct all).map (List.cons_injective)

theorem nodup_pagesIn : {entries : List (Text × Tree)} → (entries.map (·.1)).Nodup →
    Tree.areWellFormed entries → (pagesIn entries).Nodup
  | [], _, _ => List.nodup_nil
  | (name, node) :: entries, distinct, wellFormed => by
    simp only [Tree.areWellFormed, Bool.and_eq_true] at wellFormed
    obtain ⟨new, others⟩ := List.nodup_cons.mp distinct
    refine List.Nodup.append (nodup_pagesAt wellFormed.1.2) (nodup_pagesIn others wellFormed.2) ?_
    intro path here later
    obtain ⟨rest, rfl⟩ := exists_rest_of_mem_pagesAt here
    obtain ⟨e, listed, there⟩ := exists_entry_of_mem_pagesIn later
    obtain ⟨rest', same⟩ := exists_rest_of_mem_pagesAt there
    exact new (List.mem_map.mpr ⟨e, listed, (List.cons.inj same).1.symm⟩)

end

theorem IsPagePath.noSlash {path : List Text} (isPage : IsPagePath path) :
    ∀ segment ∈ path, CodePoint.char '/' ∉ segment := by
  intro segment member
  exact (Name.isEntry_iff.mp (isPage.entries segment member)).1

section Lookup
variable {entries : List (Text × Tree)} {path rest : List Text}

theorem lookup_of_mem {e : Text × Tree} (distinct : (entries.map (·.1)).Nodup)
    (listed : e ∈ entries) : entries.lookup e.1 = some e.2 := by
  obtain ⟨before, after, rfl⟩ := List.append_of_mem listed
  rw [List.map_append, List.map_cons, List.nodup_append'] at distinct
  refine List.lookup_eq_some_iff.mpr ⟨before, after, rfl, fun other earlier => ?_⟩
  have different : other.1 ≠ e.1 := fun same => distinct.2.2
    (List.mem_map.mpr ⟨other, earlier, same⟩) List.mem_cons_self
  simpa using different.symm

theorem follow_pagesAt {name : Text} {node : Tree} (wellFormed : node.isWellFormed)
    (member : name :: rest ∈ pagesAt name node) (above : List Tree) :
    Tree.follow above node rest ≠ .error .notDirectory := by
  induction rest generalizing name node above with
  | nil =>
    intro failed
    cases failed
  | cons segment rest ih =>
    cases node with
    | file content =>
      -- The only path of a file is its own name.
      simp only [pagesAt] at member
      split at member <;> simp at member
    | directory entries =>
      simp only [pagesAt] at member
      split at member
      · cases member
      · obtain ⟨path, inside, same⟩ := List.mem_map.mp member
        cases same
        obtain ⟨distinct, all⟩ := Tree.isWellFormed_directory.mp wellFormed
        obtain ⟨⟨key, next⟩, listed, there⟩ := exists_entry_of_mem_pagesIn inside
        obtain ⟨others, same⟩ := exists_rest_of_mem_pagesAt there
        cases same
        obtain ⟨isEntry, nextWellFormed⟩ := Tree.areWellFormed_iff.mp all _ listed
        obtain ⟨-, down, stored⟩ := Name.isEntry_iff.mp isEntry
        rw [Tree.follow_down down, Tree.entry]
        split
        · intro failed
          cases failed
        · rw [stored, lookup_of_mem distinct listed]
          exact ih nextWellFormed there _

theorem lookup_page {tree : Tree} {directory : Path} (wellFormed : tree.isWellFormed)
    (looked : tree.lookup directory = .ok (.directory entries))
    (member : path ∈ pagesIn entries) :
    tree.lookup (fullPath directory path) ≠ .error .notDirectory := by
  -- The directory may have any name that is not closed to the search.
  have under : ([] : Text) :: path ∈ pagesAt [] (.directory entries) :=
    List.mem_map.mpr ⟨path, member, rfl⟩
  obtain ⟨around, beyond⟩ := Tree.follow_append (Tree.follow_of_lookup looked)
  unfold Tree.lookup Tree.lookupAs
  split
  · exact nofun
  · split
    · exact nofun
    · rw [fullPath, Path.below, beyond]
      exact follow_pagesAt (Tree.lookup_isWellFormed wellFormed looked) under around

end Lookup

theorem pathText_injective {path other : List Text} (isPage : IsPagePath path)
    (isOther : IsPagePath other) (same : pathText path = pathText other) : path = other := by
  have parts {p : List Text} (isPage : IsPagePath p) :
      (pathText p).splitOn (.char '/') = p := by
    obtain ⟨front, last, rfl, -⟩ := isPage.page
    exact List.splitOn_intercalate _ isPage.noSlash (List.append_ne_nil_of_right_ne_nil _ nofun)
  rw [← parts isPage, same, parts isOther]

end Discovery

namespace Page

theorem before?_eq_some {ending text start : Text} :
    before? ending text = some start ↔ text = start ++ ending := by
  rw [before?, Option.map_eq_some_iff]
  simp only [Text.after?_eq_some]
  constructor
  · rintro ⟨rest, reversed, rfl⟩
    rw [← List.reverse_reverse text, reversed, List.reverse_append, List.reverse_reverse]
  · rintro rfl
    exact ⟨start.reverse, List.reverse_append, List.reverse_reverse start⟩

end Page

namespace Discovery

theorem exists_pathText_append (front : List Text) (last : Text) :
    ∃ start, pathText (front ++ [last]) = start ++ last := by
  induction front with
  | nil => exact ⟨[], by simp [pathText, Text.joined]⟩
  | cons segment front ih =>
    obtain ⟨start, tail⟩ := ih
    have more : front ++ [last] ≠ [] :=
      List.append_ne_nil_of_right_ne_nil front (List.cons_ne_nil _ _)
    refine ⟨segment ++ "/" ++ start, ?_⟩
    rw [List.append_assoc, ← tail, pathText, Text.joined, List.cons_append,
      List.intercalate_cons_of_ne_nil more]
    rfl

theorem IsPagePath.nameOf_append {path : List Text} (isPage : IsPagePath path) :
    nameOf (pathText path) ++ pageSuffix = pathText path := by
  obtain ⟨front, last, rfl, page⟩ := isPage.page
  obtain ⟨start, text⟩ := exists_pathText_append front last
  obtain ⟨base, cut⟩ := Option.isSome_iff_exists.mp page
  have last_eq := Page.before?_eq_some.mp cut
  have named : Page.before? pageSuffix (pathText (front ++ [last])) = some (start ++ base) :=
    Page.before?_eq_some.mpr (by rw [text, last_eq, List.append_assoc])
  rw [nameOf, named, Option.getD_some, text, last_eq, List.append_assoc]

theorem nameOf_injective {path other : List Text} (isPage : IsPagePath path)
    (isOther : IsPagePath other) (same : nameOf (pathText path) = nameOf (pathText other)) :
    path = other := by
  apply pathText_injective isPage isOther
  rw [← isPage.nameOf_append, same, isOther.nameOf_append]

section Search
variable {tree : Tree} {directory : Path} {ignored : List Text} {found : Found}

theorem find_cases (search : find tree directory ignored = .ok found) :
    found.pages = [] ∨ ∃ entries, tree.lookup directory = .ok (.directory entries) ∧
      found.error = none ∧
      found.pages = ((pagesIn entries).mergeSort componentsLe).filter fun path =>
        !isIgnored ignored (pathText path) := by
  obtain ⟨listing, listed, rfl⟩ := map_eq_ok_iff.mp search
  cases listing with
  | error message => exact .inl rfl
  | ok pages =>
    unfold all at listed
    split at listed <;> cases listed
    exact .inr ⟨_, ‹_›, rfl, rfl⟩

theorem find_of_lookup (ignored : List Text) {entries : List (Text × Tree)}
    (looked : tree.lookup directory = .ok (.directory entries)) :
    find tree directory ignored =
      .ok (.ofListing ignored (.ok ((pagesIn entries).mergeSort componentsLe))) := by
  simp only [find, all, looked]
  rfl

theorem find_of_sorted (ignored : List Text) {entries : List (Text × Tree)}
    (looked : tree.lookup directory = .ok (.directory entries))
    (sorted : (pagesIn entries).Pairwise (componentsLe · ·)) :
    find tree directory ignored = .ok (.ofListing ignored (.ok (pagesIn entries))) := by
  rw [find_of_lookup ignored looked, List.mergeSort_of_pairwise sorted]

theorem exists_listing_of_found (search : find tree directory ignored = .ok found)
    {path : List Text} (member : path ∈ found.pages) :
    ∃ entries, tree.lookup directory = .ok (.directory entries) ∧ path ∈ pagesIn entries := by
  rcases find_cases search with none | ⟨entries, looked, -, pages⟩
  · rw [none] at member
    cases member
  · rw [pages] at member
    exact ⟨entries, looked, List.mem_mergeSort.mp (List.mem_of_mem_filter member)⟩

theorem lookup_of_found (wellFormed : tree.isWellFormed)
    (search : find tree directory ignored = .ok found) {path : List Text}
    (member : path ∈ found.pages) :
    tree.lookup (fullPath directory path) ≠ .error .notDirectory := by
  obtain ⟨entries, looked, listed⟩ := exists_listing_of_found search member
  exact lookup_page wellFormed looked listed

theorem find_isPagePath (wellFormed : tree.isWellFormed)
    (search : find tree directory ignored = .ok found) :
    ∀ path ∈ found.pages, IsPagePath path := by
  intro path member
  obtain ⟨entries, looked, listed⟩ := exists_listing_of_found search member
  have isDirectory := Tree.lookup_isWellFormed wellFormed looked
  exact pagesIn_isPagePath (Tree.isWellFormed_directory.mp isDirectory).2 path listed

theorem nodup_find (wellFormed : tree.isWellFormed)
    (search : find tree directory ignored = .ok found) : found.pages.Nodup := by
  rcases find_cases search with none | ⟨entries, looked, -, pages⟩
  · rw [none]
    exact List.nodup_nil
  · obtain ⟨distinct, all⟩ :=
      Tree.isWellFormed_directory.mp (Tree.lookup_isWellFormed wellFormed looked)
    rw [pages]
    exact ((List.mergeSort_perm _ _).nodup_iff.mpr (nodup_pagesIn distinct all)).filter _

end Search
end Discovery
end SeoAudit
