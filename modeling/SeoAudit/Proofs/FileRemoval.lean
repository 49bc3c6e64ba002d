import SeoAudit.Proofs.Layouts
import SeoAudit.Proofs.PagePaths
import SeoAudit.Proofs.PathOrder

/-! A tree with some of its files removed. A lookup finds what it has found before, pruned,
unless it led to a file that is gone or beyond one; `Removal` lists these cases, and the
questions that an audit asks about a tree are answered from it. -/
namespace SeoAudit

def Path.location (p : Path) : List Text := p.resolve.stored.segments

namespace Tree

mutual

/-- The tree without its files at some places; directories stay. -/
def withoutFiles (gone : List Text → Bool) : Tree → Tree
  | file content => file content
  | directory entries => directory (withoutFilesIn gone entries)

def withoutFilesIn (gone : List Text → Bool) : List (Text × Tree) → List (Text × Tree)
  | [] => []
  | (name, node) :: entries =>
    if node.isFile && gone [name] then withoutFilesIn gone entries
    else (name, node.withoutFiles fun rest => gone (name :: rest)) :: withoutFilesIn gone entries

end

variable {gone : List Text → Bool} {t here node : Tree} {entries : List (Text × Tree)}

@[simp] theorem isFile_withoutFiles : (t.withoutFiles gone).isFile = t.isFile := by
  cases t <;> simp [withoutFiles, isFile]

@[simp] theorem isDirectory_withoutFiles : (t.withoutFiles gone).isDirectory = t.isDirectory := by
  cases t <;> simp [withoutFiles, isDirectory]

theorem isFile_eq_not_isDirectory (t : Tree) : t.isFile = !t.isDirectory := by
  cases t <;> rfl

def kept? (gone : List Text → Bool) (name : Text) (node : Tree) : Option Tree :=
  if node.isFile && gone [name] then none
  else some (node.withoutFiles fun rest => gone (name :: rest))

theorem lookup_withoutFilesIn (distinct : (entries.map (·.1)).Nodup) (name : Text) :
    (withoutFilesIn gone entries).lookup name = (entries.lookup name).bind (kept? gone name) := by
  induction entries with
  | nil => rfl
  | cons e entries ih =>
    obtain ⟨key, node⟩ := e
    obtain ⟨new, others⟩ := List.nodup_cons.mp distinct
    rw [withoutFilesIn]
    by_cases same : name = key
    · subst same
      have absent : entries.lookup name = none := by
        refine List.lookup_eq_none_iff.mpr fun e listed => ?_
        have other : name ≠ e.1 := fun same => new (List.mem_map.mpr ⟨e, listed, same.symm⟩)
        simpa using other
      cases removed : node.isFile && gone [name] with
      | true => simp [ih others, absent, kept?, removed]
      | false => simp [kept?, removed]
    · have other : (name == key) = false := beq_eq_false_iff_ne.mpr same
      cases removed : node.isFile && gone [key] with
      | true => simp [ih others, other, List.lookup_cons]
      | false => simp [ih others, other, List.lookup_cons]

/-- How a lookup that leads to a place changes when files are removed. -/
inductive Removal (gone : List Text → Bool) (place : List Text) :
    Except LookupError Tree → Except LookupError Tree → Prop
  | kept {node : Tree} (stays : node.isFile → gone place = false) :
      Removal gone place (.ok node) (.ok (node.withoutFiles fun rest => gone (place ++ rest)))
  | removed {content : List UInt8} (isGone : gone place) :
      Removal gone place (.ok (file content)) (.error .missing)
  | failed {e : LookupError} : Removal gone place (.error e) (.error e)
  /-- The path leads through a file that is gone. -/
  | beyond : Removal gone place (.error .notDirectory) (.error .missing)

theorem entry_removal (wellFormed : here.isWellFormed) (gone : List Text → Bool)
    (segment : Text) :
    Removal gone [Name.stored segment] (here.entry segment)
      ((here.withoutFiles gone).entry segment) := by
  cases here with
  | file content => exact .failed
  | directory entries =>
    have distinct := (isWellFormed_directory.mp wellFormed).1
    rw [withoutFiles, entry, entry]
    split
    · exact .failed
    · rw [lookup_withoutFilesIn distinct]
      cases entries.lookup (Name.stored segment) with
      | none => exact .failed
      | some node =>
        rw [Option.bind_some, kept?]
        cases removed : node.isFile && gone [Name.stored segment] with
        | true =>
          obtain ⟨file, isGone⟩ := Bool.and_eq_true_iff.mp removed
          cases node with
          | directory entries => cases file
          | file content => exact .removed isGone
        | false =>
          refine .kept fun file => ?_
          rw [file] at removed
          exact removed

def placeOf (names : List Text) : List Text := names.reverse.map Name.stored

theorem placeOf_cons (name : Text) (names : List Text) :
    placeOf (name :: names) = placeOf names ++ [Name.stored name] := by
  simp [placeOf]

def withoutFilesAbove (gone : List Text → Bool) : (names : List Text) → List Tree → List Tree
  | _ :: names, up :: above =>
    (up.withoutFiles fun rest => gone (placeOf names ++ rest)) :: withoutFilesAbove gone names above
  | _, _ => []

theorem follow_removal (gone : List Text → Bool) {names : List Text} {above : List Tree}
    (even : names.length = above.length)
    (around : ∀ up ∈ above, up.isDirectory ∧ up.isWellFormed) (wellFormed : here.isWellFormed)
    (stays : here.isFile → gone (placeOf names) = false) (segments : List Text) :
    Removal gone ((Path.resolveFrom names segments).map Name.stored) (follow above here segments)
      (follow (withoutFilesAbove gone names above)
        (here.withoutFiles fun rest => gone (placeOf names ++ rest)) segments) := by
  -- Both lookups walk in step, over the same names and through the same directories.
  induction segments generalizing names above here with
  | nil => exact .kept stays
  | cons segment rest ih =>
    cases here with
    | file content =>
      rw [withoutFiles, follow_file, follow_file]
      exact .failed
    | directory entries =>
      rw [Path.resolveFrom]
      by_cases down : segment = ".."
      · rw [if_pos down, down, follow_up rfl, follow_up isDirectory_withoutFiles]
        cases above with
        | nil =>
          cases List.length_eq_zero_iff.mp even
          exact ih rfl around wellFormed stays
        | cons up above =>
          cases names with
          | nil => cases even
          | cons name names =>
            obtain ⟨⟨isDirectory, first⟩, others⟩ := List.forall_mem_cons.mp around
            refine ih (Nat.succ.inj even) others first fun file => ?_
            rw [List.headD_cons, isFile_eq_not_isDirectory, isDirectory] at file
            cases file
      · rw [if_neg down, follow_down down, follow_down down]
        have listed := entry_removal wellFormed (fun rest => gone (placeOf names ++ rest)) segment
        have proper (node : Tree) (found : (directory entries).entry segment = .ok node) :
            node.isWellFormed :=
          entry_isWellFormed wellFormed found
        generalize (directory entries).entry segment = next,
          ((directory entries).withoutFiles _).entry segment = next' at listed proper ⊢
        cases listed with
        | failed => exact .failed
        | beyond => exact .beyond
        | @kept node stays =>
          simp only [← List.append_assoc, ← placeOf_cons] at stays ⊢
          have even : (segment :: names).length = (directory entries :: above).length :=
            congrArg Nat.succ even
          exact ih even (List.forall_mem_cons.mpr ⟨⟨rfl, wellFormed⟩, around⟩)
            (proper node rfl)
            stays
        | @removed content isGone =>
          rw [← placeOf_cons] at isGone
          cases rest with
          | nil => exact .removed isGone
          | cons further rest =>
            have nothing := follow_file (directory entries :: above) content further rest
            show Removal gone _
              (follow (directory entries :: above) (file content) (further :: rest))
              (.error .missing)
            rw [nothing]
            exact .beyond

section Lookup
variable (wellFormed : t.isWellFormed) (top : gone [] = false)
include wellFormed top

theorem lookup_removal (p : Path) :
    Removal gone p.location (t.lookup p) ((t.withoutFiles gone).lookup p) := by
  rw [lookup, lookup, lookupAs, lookupAs]
  split
  · exact .failed
  · split
    · exact .failed
    · have even : ([] : List Text).length = ([] : List Tree).length := rfl
      exact follow_removal gone even (List.forall_mem_nil _) wellFormed (fun _ => top) p.segments

theorem holdsAt_withoutFiles {property : Tree → Bool} {p : Path}
    (pruned : ∀ gone node, property (withoutFiles gone node) = property node)
    (stays : gone p.location = false ∨ ∀ content, property (file content) = false) :
    holdsAs p.text property (t.withoutFiles gone) p = holdsAs p.text property t p := by
  have removal := lookup_removal wellFormed top p
  unfold holdsAs
  unfold lookup at removal
  generalize lookupAs p.text t p = found,
    lookupAs p.text (t.withoutFiles gone) p = found' at removal ⊢
  cases removal with
  | kept => exact congrArg Except.ok (pruned _ _)
  | @removed content isGone =>
    rcases stays with stays | none
    · rw [isGone] at stays
      cases stays
    · exact congrArg Except.ok (none content).symm
  | failed => rfl
  | beyond => rfl

theorem existsAt_withoutFiles {p : Path} (stays : gone p.location = false) :
    (t.withoutFiles gone).existsAt p = t.existsAt p :=
  holdsAt_withoutFiles wellFormed top (fun _ _ => rfl) (.inl stays)

theorem isFileAt_withoutFiles {p : Path} (stays : gone p.location = false) :
    (t.withoutFiles gone).isFileAt p = t.isFileAt p :=
  holdsAt_withoutFiles wellFormed top (fun _ _ => isFile_withoutFiles) (.inl stays)

theorem isDirectoryAt_withoutFiles (p : Path) :
    (t.withoutFiles gone).isDirectoryAt p = t.isDirectoryAt p :=
  holdsAt_withoutFiles wellFormed top (fun _ _ => isDirectory_withoutFiles) (.inr fun _ => rfl)

theorem not_existsAt_withoutFiles {p : Path} (missing : t.existsAt p = .ok false) :
    (t.withoutFiles gone).existsAt p = .ok false := by
  have removal := lookup_removal wellFormed top p
  unfold existsAt holdsAs at missing ⊢
  unfold lookup at removal
  generalize lookupAs p.text t p = found,
    lookupAs p.text (t.withoutFiles gone) p = found' at removal missing ⊢
  cases removal with
  | kept => cases missing
  | removed => rfl
  | failed => exact missing
  | beyond => rfl

theorem readText_withoutFiles {p : Path} (stays : gone p.location = false)
    (reached : t.lookup p ≠ .error .notDirectory) :
    (t.withoutFiles gone).readText p = t.readText p := by
  have removal := lookup_removal wellFormed top p
  unfold readText
  generalize t.lookup p = found, (t.withoutFiles gone).lookup p = found' at removal reached ⊢
  cases removal with
  | @kept node => cases node <;> simp [withoutFiles]
  | removed isGone =>
    rw [isGone] at stays
    cases stays
  | failed => rfl
  | beyond => exact (reached rfl).elim

end Lookup
end Tree

namespace Discovery

mutual

theorem pagesAt_withoutFiles (gone : List Text → Bool) (name : Text) : (node : Tree) →
    (if node.isFile && gone [name] then []
      else pagesAt name (node.withoutFiles fun rest => gone (name :: rest))) =
      (pagesAt name node).filter (!gone ·)
  | .file content => by
    show (if gone [name] then [] else if isPage name then [[name]] else []) = _
    rw [pagesAt]
    cases isGone : gone [name] <;> cases page : isPage name <;> simp [isGone]
  | .directory entries => by
    show pagesAt name (Tree.withoutFiles _ (.directory entries)) = _
    rw [Tree.withoutFiles, pagesAt, pagesAt, pagesIn_withoutFilesIn _ entries]
    split
    · rfl
    · rw [List.filter_map]
      rfl

theorem pagesIn_withoutFilesIn (gone : List Text → Bool) : (entries : List (Text × Tree)) →
    pagesIn (Tree.withoutFilesIn gone entries) = (pagesIn entries).filter (!gone ·)
  | [] => rfl
  | (name, node) :: entries => by
    rw [pagesIn, List.filter_append, ← pagesAt_withoutFiles gone name node,
      ← pagesIn_withoutFilesIn gone entries, Tree.withoutFilesIn]
    split <;> rfl

end

variable {tree : Tree} {directory : Path} {ignored : List Text} {found : Found}

theorem find_withoutFiles (gone : List Text → Bool) (wellFormed : tree.isWellFormed)
    (top : gone [] = false)
    (isDirectory : tree.isDirectoryAt directory = .ok true)
    (search : find tree directory ignored = .ok found) :
    ∃ fewer, find (tree.withoutFiles gone) directory ignored = .ok fewer ∧
      fewer.error = found.error ∧
      fewer.pages = found.pages.filter fun page => !gone (directory.location ++ page) := by
  obtain ⟨entries, looked⟩ := Tree.isDirectoryAt_true_iff.mp isDirectory
  have removal := Tree.lookup_removal wellFormed top directory
  rw [looked] at removal
  generalize pruned : (tree.withoutFiles gone).lookup directory = node at removal
  cases removal with
  | kept =>
    rw [Tree.withoutFiles] at pruned
    rw [find_of_lookup ignored looked] at search
    cases search
    refine ⟨_, find_of_lookup ignored pruned, rfl, ?_⟩
    simp only [Found.ofListing, pagesIn_withoutFilesIn, mergeSort_filter]
    exact List.filter_comm _ _ _

end Discovery
end SeoAudit
