import Mathlib.Data.List.Induction
import SeoAudit.Coverage
import SeoAudit.Proofs.Tables

/-! The pages that the index lists for an image. `IsIndex` holds after every addition, and
with it the pages of an image are decided by which pages name it, not by their order. An index
made by additions alone has the images as they first come, and for each its pages likewise. -/
namespace SeoAudit

namespace ImageUsage
variable {u : ImageUsage} {image other page p : Text} {pages : List Text}

theorem withPage_eq (page : Text) (pages : Option (List Text)) :
    withPage page pages =
      if page ∈ pages.getD [] then pages.getD [] else pages.getD [] ++ [page] := by
  cases pages <;> rfl

theorem pagesFor_add_of_ne (ne : other ≠ image) :
    (u.add image page).pagesFor other = u.pagesFor other :=
  congrArg (Option.getD · []) (Table.get?_update_of_ne ne (withPage page) u.entries)

theorem mem_pagesFor_add :
    p ∈ (u.add image page).pagesFor other ↔ p ∈ u.pagesFor other ∨
      (image = other ∧ page = p) := by
  by_cases same : image = other
  · subst same
    rw [pagesFor_add_self, withPage_eq, ← pagesFor]
    split_ifs with listed
    · exact ⟨.inl, fun either => either.elim id fun new => new.2 ▸ listed⟩
    · simp [eq_comm]
  · rw [pagesFor_add_of_ne (Ne.symm same)]
    simp [same]

/-- Every image stands once in the index, and every page once for an image. -/
structure IsIndex (u : ImageUsage) : Prop where
  images : (Table.keys u.entries).Nodup
  pages : ∀ image, (u.pagesFor image).Nodup

theorem isIndex_empty : IsIndex {} := ⟨List.nodup_nil, fun _ => List.nodup_nil⟩

theorem IsIndex.add (index : u.IsIndex) (image page : Text) : (u.add image page).IsIndex := by
  refine ⟨Table.nodup_keys_update index.images _, fun other => ?_⟩
  by_cases same : other = image
  · subst same
    have pages := index.pages other
    rw [pagesFor_add_self, withPage_eq, ← pagesFor]
    split_ifs with listed
    · exact pages
    · exact pages.append (List.nodup_singleton page) (List.disjoint_singleton.mpr listed)
  · rw [pagesFor_add_of_ne same]
    exact index.pages other

theorem IsIndex.pagesFor_eq (index : u.IsIndex) (listed : (image, pages) ∈ u.entries) :
    u.pagesFor image = pages := by
  rw [pagesFor, (Table.mem_iff_get? index.images).mp listed]
  rfl

theorem IsIndex.mem_entries (index : u.IsIndex) (some_page : u.pagesFor image ≠ []) :
    (image, u.pagesFor image) ∈ u.entries := by
  cases found : Table.get? image u.entries with
  | none => exact absurd (by rw [pagesFor, found]; rfl) some_page
  | some pages =>
    have listed := (Table.mem_iff_get? index.images).mpr found
    rwa [index.pagesFor_eq listed]

theorem mem_shared {entry : Text × List Text} :
    entry ∈ u.shared ↔ entry ∈ u.entries ∧ 1 < entry.2.length := by
  rw [shared, List.mem_mergeSort, List.mem_filter, decide_eq_true_iff]

theorem IsIndex.mem_keys_shared (index : u.IsIndex) :
    image ∈ Table.keys u.shared ↔ 1 < (u.pagesFor image).length := by
  rw [Table.keys, List.mem_map]
  constructor
  · rintro ⟨⟨image, pages⟩, listed, rfl⟩
    obtain ⟨listed, several⟩ := mem_shared.mp listed
    rwa [index.pagesFor_eq listed]
  · intro several
    have some_page := List.ne_nil_of_length_pos (Nat.zero_lt_of_lt several)
    exact ⟨_, mem_shared.mpr ⟨index.mem_entries some_page, several⟩, rfl⟩

section Additions
variable {pairs : List (Text × Text)}

def addAll (pairs : List (Text × Text)) (u : ImageUsage) : ImageUsage :=
  pairs.foldl (fun u pair => u.add pair.1 pair.2) u

theorem IsIndex.addAll (index : u.IsIndex) (pairs : List (Text × Text)) :
    (u.addAll pairs).IsIndex := by
  -- Each addition keeps the index one, so the index so far is general.
  induction pairs generalizing u with
  | nil => exact index
  | cons pair pairs ih => exact ih (index.add pair.1 pair.2)

theorem mem_pagesFor_addAll :
    page ∈ (addAll pairs u).pagesFor image ↔ page ∈ u.pagesFor image ∨
      (image, page) ∈ pairs := by
  induction pairs generalizing u with
  | nil => simp [addAll]
  | cons pair pairs ih =>
    have step : addAll (pair :: pairs) u = addAll pairs (u.add pair.1 pair.2) := rfl
    rw [step, ih, mem_pagesFor_add, or_assoc, List.mem_cons, Prod.ext_iff]
    simp only [eq_comm]

theorem foldl_withPage (names : List Text) :
    (names.foldl (fun pages name => some (withPage name pages)) none).getD [] =
      names.eraseDups := by
  induction names using List.reverseRecOn with
  | nil => rfl
  | append_singleton names name ih =>
    rw [List.foldl_concat, Option.getD_some, withPage_eq, ih, eraseDups_concat]
    simp only [List.mem_eraseDups]

theorem entries_addAll (pairs : List (Text × Text)) :
    (addAll pairs {}).entries = Table.grouped Prod.fst (fun pair => withPage pair.2) pairs := by
  induction pairs using List.reverseRecOn with
  | nil => rfl
  | append_singleton pairs pair ih =>
    rw [Table.grouped_concat, ← ih, addAll, List.foldl_concat]
    rfl

theorem keys_addAll (pairs : List (Text × Text)) :
    Table.keys (addAll pairs {}).entries = (pairs.map Prod.fst).eraseDups := by
  rw [entries_addAll, Table.keys_grouped]

theorem pagesFor_addAll (pairs : List (Text × Text)) (image : Text) :
    (addAll pairs {}).pagesFor image = ((pairs.filter (·.1 = image)).map Prod.snd).eraseDups := by
  rw [pagesFor, entries_addAll, Table.get?_grouped, ← foldl_withPage, List.foldl_map]

end Additions

end ImageUsage

namespace Coverage
variable {pages ps qs : List Page}

def held (p : Page) : Option (Text × Text) := (imageOf p).map (·, p.name)

theorem foldl_addImage (pages : List Page) (u : ImageUsage) :
    pages.foldl addImage u = u.addAll (pages.filterMap held) := by
  induction pages generalizing u with
  | nil => rfl
  | cons p pages ih =>
    rw [List.foldl_cons, ih, addImage]
    cases named : imageOf p with
    | none => rw [List.filterMap_cons_none (by rw [held, named]; rfl)]
    | some own =>
      rw [List.filterMap_cons_some (by rw [held, named]; rfl)]
      rfl

theorem imageUsage_ofPages (pages : List Page) :
    (ofPages pages).imageUsage = ImageUsage.addAll ((ofPages pages).covered.filterMap held) {} :=
  foldl_addImage _ _

theorem ofPages_isIndex (pages : List Page) : (ofPages pages).imageUsage.IsIndex := by
  rw [imageUsage_ofPages]
  exact ImageUsage.isIndex_empty.addAll _

theorem mem_pagesFor_ofPages {image name : Text} :
    name ∈ (ofPages pages).imageUsage.pagesFor image ↔
      ∃ p ∈ (ofPages pages).covered, imageOf p = some image ∧ p.name = name := by
  have pair (p : Page) :
      held p = some (image, name) ↔ imageOf p = some image ∧ p.name = name := by
    simp [held]
  have empty : name ∉ ImageUsage.pagesFor image {} := List.not_mem_nil
  rw [imageUsage_ofPages, ImageUsage.mem_pagesFor_addAll, or_iff_right empty, List.mem_filterMap]
  simp only [pair]

theorem pagesFor_perm (perm : ps.Perm qs) (image : Text) :
    ((ofPages ps).imageUsage.pagesFor image).Perm ((ofPages qs).imageUsage.pagesFor image) := by
  have covered : (ofPages ps).covered.Perm (ofPages qs).covered := perm.filter _
  refine (List.perm_ext_iff_of_nodup ((ofPages_isIndex ps).pages image)
    ((ofPages_isIndex qs).pages image)).mpr fun name => ?_
  rw [mem_pagesFor_ofPages, mem_pagesFor_ofPages]
  simp only [covered.mem_iff]

theorem mem_keys_shared_perm (perm : ps.Perm qs) (image : Text) :
    image ∈ Table.keys (ofPages ps).imageUsage.shared ↔
      image ∈ Table.keys (ofPages qs).imageUsage.shared := by
  rw [(ofPages_isIndex ps).mem_keys_shared, (ofPages_isIndex qs).mem_keys_shared,
    (pagesFor_perm perm image).length_eq]

end Coverage
end SeoAudit
