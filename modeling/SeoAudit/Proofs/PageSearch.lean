import SeoAudit.Proofs.PagePaths
import SeoAudit.Proofs.PathOrder

/-! What the search for pages finds. `LeadsToPage` says which files it comes to, and `Relisted`
that a tree lists the same entries in another order at each of its directories. The pages are
the files it comes to, in strictly increasing order, whatever the order of the entries. -/
namespace SeoAudit

namespace Tree

mutual

/-- The same tree, with the entries of each directory in some order. -/
inductive Relisted : Tree → Tree → Prop
  | file (content : List UInt8) : Relisted (file content) (file content)
  | directory {entries others : List (Text × Tree)} (relisted : RelistedIn entries others) :
      Relisted (directory entries) (directory others)

inductive RelistedIn : List (Text × Tree) → List (Text × Tree) → Prop
  | nil : RelistedIn [] []
  | cons (name : Text) {node other : Tree} {entries others : List (Text × Tree)}
      (here : Relisted node other) (rest : RelistedIn entries others) :
      RelistedIn ((name, node) :: entries) ((name, other) :: others)
  | swap (first second : Text × Tree) (entries : List (Text × Tree)) :
      RelistedIn (first :: second :: entries) (second :: first :: entries)
  | trans {entries middle others : List (Text × Tree)} (first : RelistedIn entries middle)
      (second : RelistedIn middle others) : RelistedIn entries others

end

mutual

theorem Relisted.refl : (t : Tree) → Relisted t t
  | file content => .file content
  | directory entries => .directory (RelistedIn.refl entries)

theorem RelistedIn.refl : (entries : List (Text × Tree)) → RelistedIn entries entries
  | [] => .nil
  | (name, node) :: entries => .cons name (Relisted.refl node) (RelistedIn.refl entries)

end

theorem RelistedIn.of_perm {entries others : List (Text × Tree)} (perm : entries.Perm others) :
    RelistedIn entries others := by
  induction perm with
  | nil => exact .nil
  | cons e _ ih => exact .cons e.1 (.refl e.2) ih
  | swap first second entries => exact .swap second first entries
  | trans _ _ first second => exact first.trans second

theorem Relisted.trans {t u v : Tree} (first : Relisted t u) (second : Relisted u v) :
    Relisted t v := by
  cases first with
  | file content => exact second
  | directory first =>
    cases second with
    | directory second => exact .directory (first.trans second)

theorem RelistedIn.names {entries others : List (Text × Tree)} :
    RelistedIn entries others → (entries.map (·.1)).Perm (others.map (·.1))
  | .nil => .nil
  | .cons name _ rest => rest.names.cons name
  | .swap _ _ _ => .swap _ _ _
  | .trans first second => first.names.trans second.names

theorem RelistedIn.exists_of_mem {name : Text} {node : Tree}
    {entries others : List (Text × Tree)} :
    RelistedIn entries others → (name, node) ∈ entries →
      ∃ other, (name, other) ∈ others ∧ Relisted node other
  | .cons _ here rest, member => by
    rcases List.mem_cons.mp member with same | later
    · cases same
      exact ⟨_, List.mem_cons_self, here⟩
    · obtain ⟨other, listed, relisted⟩ := rest.exists_of_mem later
      exact ⟨other, List.mem_cons_of_mem _ listed, relisted⟩
  | .swap first second entries, member =>
    ⟨node, (List.Perm.swap second first entries).mem_iff.mp member, .refl node⟩
  | .trans first second, member => by
    obtain ⟨middle, listed, relisted⟩ := first.exists_of_mem member
    obtain ⟨other, listed, further⟩ := second.exists_of_mem listed
    exact ⟨other, listed, relisted.trans further⟩

/-- Lookups that fail alike, or that lead to the same node, relisted. -/
inductive Alike : Except LookupError Tree → Except LookupError Tree → Prop
  | found {node other : Tree} (relisted : Relisted node other) : Alike (.ok node) (.ok other)
  | failed (e : LookupError) : Alike (.error e) (.error e)

theorem RelistedIn.entry {entries others : List (Text × Tree)}
    (relisted : RelistedIn entries others) (distinct : (entries.map (·.1)).Nodup) (name : Text) :
    Alike ((directory entries).entry name) ((directory others).entry name) := by
  rw [Tree.entry, Tree.entry]
  split
  · exact .failed _
  · cases found : entries.lookup (Name.stored name) with
    | none =>
      have missing : others.lookup (Name.stored name) = none := by
        rw [List.lookup_eq_none_iff] at found ⊢
        intro e listed
        obtain ⟨e', listed', same⟩ := List.mem_map.mp
          (relisted.names.mem_iff.mpr (List.mem_map_of_mem listed))
        rw [← same]
        exact found e' listed'
      rw [missing]
      exact .failed _
    | some node =>
      obtain ⟨before, after, rfl, -⟩ := List.lookup_eq_some_iff.mp found
      obtain ⟨other, listed, same⟩ :=
        relisted.exists_of_mem (List.mem_append_right before List.mem_cons_self)
      -- A lookup stops at the first entry of a name, so two of one name would tell the order.
      have there := Discovery.lookup_of_mem (relisted.names.nodup_iff.mp distinct) listed
      rw [there]
      exact .found same

section Follow
variable {segments : List Text} {above others : List Tree} {here other : Tree}

theorem follow_alike (relistedAbove : List.Forall₂ Relisted above others)
    (relisted : Relisted here other) (around : ∀ t ∈ above, t.isWellFormed)
    (wellFormed : here.isWellFormed) :
    Alike (follow above here segments) (follow others other segments) := by
  -- The way back leads to what is above, so that must have been relisted as well.
  induction segments generalizing above others here other with
  | nil => exact .found relisted
  | cons segment rest ih =>
    cases relisted with
    | file content =>
      rw [follow_file, follow_file]
      exact .failed _
    | directory inside =>
      by_cases down : segment = ".."
      · rw [down, follow_up rfl, follow_up rfl]
        cases relistedAbove with
        | nil => exact ih .nil (.directory inside) around wellFormed
        | cons up further =>
          obtain ⟨first, others⟩ := List.forall_mem_cons.mp around
          exact ih further up others first
      · rw [follow_down down, follow_down down]
        have next := inside.entry (isWellFormed_directory.mp wellFormed).1 segment
        generalize listed : (directory _).entry segment = step at next
        generalize (directory _).entry segment = step' at next
        cases next with
        | failed e => exact .failed e
        | found same =>
          exact ih (.cons (.directory inside) relistedAbove) same
            (List.forall_mem_cons.mpr ⟨wellFormed, around⟩)
            (entry_isWellFormed wellFormed listed)

end Follow

theorem Relisted.lookup {t other : Tree} (relisted : t.Relisted other)
    (wellFormed : t.isWellFormed) (p : Path) : Alike (t.lookup p) (other.lookup p) := by
  rw [Tree.lookup, Tree.lookup, lookupAs, lookupAs]
  split
  · exact .failed _
  · split
    · exact .failed _
    · exact follow_alike .nil relisted (List.forall_mem_nil _) wellFormed

end Tree

namespace Discovery

mutual

theorem pagesAt_perm (name : Text) {node other : Tree} :
    node.Relisted other → (pagesAt name node).Perm (pagesAt name other)
  | .file _ => .refl _
  | .directory relisted => by
    rw [pagesAt, pagesAt]
    split
    · exact .refl _
    · exact (pagesIn_perm relisted).map _

theorem pagesIn_perm {entries others : List (Text × Tree)} :
    Tree.RelistedIn entries others → (pagesIn entries).Perm (pagesIn others)
  | .nil => .refl _
  | .cons name here rest => (pagesAt_perm name here).append (pagesIn_perm rest)
  | .swap _ _ _ => List.perm_append_comm_assoc _ _ _
  | .trans first second => (pagesIn_perm first).trans (pagesIn_perm second)

end

theorem find_relisted {tree other : Tree} (wellFormed : tree.isWellFormed)
    (relisted : tree.Relisted other) (directory : Path) (ignored : List Text) :
    find other directory ignored = find tree directory ignored := by
  have alike := relisted.lookup wellFormed directory
  rw [find, find, all, all]
  generalize tree.lookup directory = looked at alike
  generalize other.lookup directory = looked' at alike
  cases alike with
  | failed e => rfl
  | found same =>
    cases same with
    | file content => rfl
    | directory inside =>
      simp only [mergeSort_eq_of_perm (pagesIn_perm inside)]

/-- A way down from some entries, only through directories that are not closed, to a file with
the name of a page. -/
inductive LeadsToPage : List (Text × Tree) → List Text → Prop
  | file {name : Text} {content : List UInt8} {entries : List (Text × Tree)}
      (listed : (name, .file content) ∈ entries) (isPage : pageSuffix <:+ name) :
      LeadsToPage entries [name]
  | directory {name : Text} {entries inside : List (Text × Tree)} {rest : List Text}
      (listed : (name, .directory inside) ∈ entries) (isOpen : name ∉ closedDirectories)
      (onward : LeadsToPage inside rest) : LeadsToPage entries (name :: rest)

theorem isPage_iff {name : Text} : isPage name ↔ pageSuffix <:+ name := by
  rw [isPage, Option.isSome_iff_exists]
  simp only [Page.before?_eq_some]
  exact exists_congr fun base => eq_comm

theorem mem_pagesAt_file {name : Text} {content : List UInt8} {path : List Text} :
    path ∈ pagesAt name (.file content) ↔ path = [name] ∧ pageSuffix <:+ name := by
  rw [pagesAt, ← isPage_iff]
  split <;> simp [*]

theorem mem_pagesAt_directory {name : Text} {entries : List (Text × Tree)} {path : List Text} :
    path ∈ pagesAt name (.directory entries) ↔
      name ∉ closedDirectories ∧ ∃ rest ∈ pagesIn entries, name :: rest = path := by
  rw [pagesAt]
  by_cases closed : name ∈ closedDirectories <;> simp [closed]

theorem mem_pagesIn_of_mem {entries : List (Text × Tree)} {e : Text × Tree} {path : List Text}
    (listed : e ∈ entries) (member : path ∈ pagesAt e.1 e.2) : path ∈ pagesIn entries := by
  induction entries with
  | nil => cases listed
  | cons first entries ih =>
    rw [pagesIn, List.mem_append]
    rcases List.mem_cons.mp listed with rfl | later
    · exact .inl member
    · exact .inr (ih later)

theorem leadsToPage_of_mem {entries : List (Text × Tree)} {path : List Text}
    (member : path ∈ pagesIn entries) : LeadsToPage entries path := by
  -- Each segment of the path is one level of the tree.
  induction path generalizing entries with
  | nil =>
    obtain ⟨e, -, there⟩ := exists_entry_of_mem_pagesIn member
    obtain ⟨rest, nonempty⟩ := exists_rest_of_mem_pagesAt there
    cases nonempty
  | cons segment rest ih =>
    obtain ⟨⟨name, node⟩, listed, there⟩ := exists_entry_of_mem_pagesIn member
    cases node with
    | file content =>
      obtain ⟨same, isPage⟩ := mem_pagesAt_file.mp there
      cases same
      exact .file listed isPage
    | directory inside =>
      obtain ⟨isOpen, rest, below, same⟩ := mem_pagesAt_directory.mp there
      cases same
      exact .directory listed isOpen (ih below)

theorem LeadsToPage.mem {entries : List (Text × Tree)} {path : List Text}
    (leads : LeadsToPage entries path) : path ∈ pagesIn entries := by
  induction leads with
  | file listed isPage =>
    exact mem_pagesIn_of_mem listed (mem_pagesAt_file.mpr ⟨rfl, isPage⟩)
  | directory listed isOpen _ ih =>
    exact mem_pagesIn_of_mem listed (mem_pagesAt_directory.mpr ⟨isOpen, _, ih, rfl⟩)

theorem not_isIgnored_iff {ignored : List Text} {text : Text} :
    isIgnored ignored text = false ↔ ∀ part ∈ ignored, ¬ part <:+: text := by
  simp only [isIgnored, Text.mentions, List.any_eq_false, Text.occursIn_iff]

section Search
variable {tree : Tree} {directory : Path} {entries : List (Text × Tree)}

/-- Every page that is reached and not ignored is found, and nothing else; each once, in the
order of the paths, however the directories of the tree are listed. -/
theorem find_lists_reached_pages (wellFormed : tree.isWellFormed)
    (looked : tree.lookup directory = .ok (.directory entries)) (ignored : List Text) :
    ∃ found, find tree directory ignored = .ok found ∧ found.error = none ∧
      found.pages.Pairwise (· < ·) ∧
      (∀ path, path ∈ found.pages ↔
        LeadsToPage entries path ∧ ∀ part ∈ ignored, ¬ part <:+: pathText path) ∧
      ∀ other, tree.Relisted other → find other directory ignored = .ok found := by
  have search := find_of_lookup ignored looked
  refine ⟨_, search, rfl, ?_, ?_, ?_⟩
  · have distinct := nodup_find wellFormed search
    have ordered := (pairwise_mergeSort (pagesIn entries)).filter
      fun path => !isIgnored ignored (pathText path)
    exact (ordered.and distinct).imp fun ⟨le, ne⟩ => (componentsLe_iff.mp le).resolve_left ne
  · intro path
    rw [Found.ofListing, List.mem_filter, List.mem_mergeSort, Bool.not_eq_true', not_isIgnored_iff]
    exact and_congr_left fun _ => ⟨leadsToPage_of_mem, LeadsToPage.mem⟩
  · intro other relisted
    rw [find_relisted wellFormed relisted, search]

def siteEntries : List (Text × Tree) :=
  [("admin", .directory [("dashboard.vue", .file [])]),
    ("blog", .directory [("index.vue", .file [])]),
    ("contact.vue", .file []), ("index.vue", .file []),
    ("node_modules", .directory [("dep.vue", .file [])]),
    ("notes.md", .file []),
    ("purchase", .directory [("order.vue", .file [])])]

def siteOf (entries : List (Text × Tree)) : Tree := .directory [("pages", .directory entries)]

theorem find_siteEntries :
    ∃ found,
      find (siteOf siteEntries) { segments := ["pages"] } ["admin", "purchase"] = .ok found ∧
      found.pages = ([["blog", "index.vue"], ["contact.vue"], ["index.vue"]] : List (List Text)) ∧
      found.pages.Pairwise (· < ·) ∧
      find (siteOf siteEntries.reverse) { segments := ["pages"] } ["admin", "purchase"] =
        .ok found := by
  have looked : (siteOf siteEntries).lookup { segments := ["pages"] } =
      .ok (.directory siteEntries) := rfl
  have search := find_of_sorted ["admin", "purchase"] looked (by decide)
  have backwards : (siteOf siteEntries).Relisted (siteOf siteEntries.reverse) :=
    .directory (.cons _ (.directory (.of_perm (List.reverse_perm siteEntries).symm)) .nil)
  obtain ⟨found, searched, -, ordered, -, relisted⟩ :=
    find_lists_reached_pages (by decide +kernel) looked ["admin", "purchase"]
  have same := Except.ok.inj (search.symm.trans searched)
  exact ⟨found, searched, same ▸ by decide +kernel, ordered, relisted _ backwards⟩

end Search
end Discovery
end SeoAudit
