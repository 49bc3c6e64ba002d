import SeoAudit.Proofs.ImagePages
import SeoAudit.Report.Text

/-! What the pages of a project come to when they are taken in one after the other. `Aggregates`
says it of the whole list at once: four lists chosen from the pages in their order, and for
an image what it takes to be marked as shared. -/
namespace SeoAudit

theorem one_lt_length_iff_of_nodup {α : Type} {l : List α} (distinct : l.Nodup) :
    1 < l.length ↔ ∃ a ∈ l, ∃ b ∈ l, a ≠ b := by
  constructor
  · intro several
    match l, several with
    | a :: b :: _, _ =>
      have differ : a ≠ b :=
        fun same => (List.nodup_cons.mp distinct).1 (same ▸ List.mem_cons_self)
      exact ⟨a, by simp, b, by simp, differ⟩
  · rintro ⟨a, ha, b, hb, differ⟩
    by_contra few
    match l, ha, hb with
    | [_], ha, hb => exact differ ((List.mem_singleton.mp ha).trans (List.mem_singleton.mp hb).symm)
    | _ :: _ :: _, _, _ => simp at few

namespace ImageUsage

theorem contains_eq_false_iff {u : ImageUsage} {image : Text} :
    u.contains image = false ↔ image ∉ Table.keys u.entries := by
  rw [contains, ← Bool.not_eq_true, Table.contains_iff]

end ImageUsage

namespace Coverage
variable {pages : List Page} {p : Page} {image : Text}

theorem imageOf_eq_filter (p : Page) : imageOf p = p.metadata.image.filter (· ≠ []) := by
  unfold imageOf
  rcases p.metadata.image with _ | _ | ⟨c, s⟩ <;> rfl

theorem imageOf_eq_some_iff :
    imageOf p = some image ↔ p.metadata.image = some image ∧ image ≠ [] := by
  rw [imageOf_eq_filter, Option.filter_eq_some_iff, decide_eq_true_iff]

theorem imageOf_isNone_iff :
    (imageOf p).isNone ↔ p.metadata.image = none ∨ p.metadata.image = some [] := by
  unfold imageOf
  rcases p.metadata.image with _ | _ | ⟨c, s⟩ <;> simp

theorem map_fst_held (pages : List Page) :
    (pages.filterMap held).map Prod.fst = pages.filterMap imageOf := by
  rw [List.map_filterMap]
  refine List.filterMap_congr fun p _ => ?_
  rw [held, Option.map_map]
  exact Option.map_id'

theorem filter_held (pages : List Page) (image : Text) :
    ((pages.filterMap held).filter (·.1 = image)).map Prod.snd =
      (pages.filter (imageOf · = some image)).map (·.name) := by
  induction pages with
  | nil => rfl
  | cons p pages ih =>
    cases found : imageOf p with
    | none => simp [held, found] at ih ⊢; exact ih
    | some own => by_cases same : own = image <;> simp [held, found, same] at ih ⊢ <;> exact ih

theorem keys_imageUsage (pages : List Page) :
    Table.keys (ofPages pages).imageUsage.entries =
      ((ofPages pages).covered.filterMap imageOf).eraseDups := by
  rw [imageUsage_ofPages, ImageUsage.keys_addAll, map_fst_held]

def Holds (p : Page) (image : Text) : Prop := p.metadata.image = some image ∧ image ≠ []

instance (p : Page) (image : Text) : Decidable (Holds p image) :=
  inferInstanceAs (Decidable (_ ∧ _))

theorem pagesFor_eq_eraseDups (pages : List Page) (image : Text) :
    (ofPages pages).imageUsage.pagesFor image =
      (((ofPages pages).covered.filter (Holds · image)).map (·.name)).eraseDups := by
  have holders : (ofPages pages).covered.filter (Holds · image) =
      (ofPages pages).covered.filter (imageOf · = some image) :=
    List.filter_congr fun p _ => decide_eq_decide.mpr imageOf_eq_some_iff.symm
  rw [imageUsage_ofPages, ImageUsage.pagesFor_addAll, holders, filter_held]

theorem mem_keys_shared_iff :
    image ∈ Table.keys (ofPages pages).imageUsage.shared ↔
      ∃ q ∈ (ofPages pages).covered, ∃ r ∈ (ofPages pages).covered,
        q.name ≠ r.name ∧ Holds q image ∧ Holds r image := by
  have index := ofPages_isIndex pages
  rw [index.mem_keys_shared, one_lt_length_iff_of_nodup (index.pages image)]
  simp only [mem_pagesFor_ofPages, imageOf_eq_some_iff]
  constructor
  · rintro ⟨_, ⟨q, hq, qHolds, rfl⟩, _, ⟨r, hr, rHolds, rfl⟩, differ⟩
    exact ⟨q, hq, r, hr, differ, qHolds, rHolds⟩
  · rintro ⟨q, hq, r, hr, differ, qHolds, rHolds⟩
    exact ⟨_, ⟨q, hq, qHolds, rfl⟩, _, ⟨r, hr, rHolds, rfl⟩, differ⟩

theorem isShared_iff_mem_keys_shared (own : Option Text) :
    (ofPages pages).imageUsage.isShared own ↔
      ∃ image, own = some image ∧ image ∈ Table.keys (ofPages pages).imageUsage.shared := by
  rcases own with _ | _ | ⟨c, s⟩
  · simp [ImageUsage.isShared]
  · -- No page holds the empty image, so the list has none of it either.
    simp [ImageUsage.isShared, mem_keys_shared_iff, Holds]
  · simp [ImageUsage.isShared, (ofPages_isIndex pages).mem_keys_shared]

end Coverage

namespace Report

theorem not_prefix_of_other {label other line : Text} (starts : other <+: line)
    (differ : ¬ label <+: other ∧ ¬ other <+: label) : ¬ label <+: line := fun both =>
  (List.prefix_or_prefix_of_prefix both starts).elim differ.1 differ.2

def imageLine (u : ImageUsage) (image : Text) : Text :=
  "    Image: " ++ image ++ if u.isShared (some image) then " (dup)" else ""

theorem mem_pageLines_iff {u : ImageUsage} {p : Page} {image line : Text}
    (holds : Coverage.Holds p image) (labelled : ("    Image: " : Text) <+: line) :
    line ∈ pageLines u p ↔ line = imageLine u image := by
  obtain ⟨names, present⟩ := holds
  have shown : shownText? (some image) = some image := by
    cases image with
    | nil => exact absurd rfl present
    | cons c s => rfl
  have other (label rest : Text)
      (differ : ¬ ("    Image: " : Text) <+: label ∧ ¬ label <+: "    Image: ") :
      line ≠ label ++ rest := fun same =>
    not_prefix_of_other (List.prefix_append label rest) differ (same ▸ labelled)
  have path : line ≠ "  + " ++ p.path := other "  + " p.path (by decide)
  have schemas (text : Text) :
      line ≠ if text.isEmpty then ("    No schemas detected" : Text)
      else "    Schemas: " ++ text := by
    split
    · exact other "    No schemas detected" [] (by decide)
    · exact other "    Schemas: " text (by decide)
  have title (text : Text) (length : Int) (band : Option Text) :
      line ≠ measured "Title" text length band := by
    rw [measured, List.append_assoc, List.append_assoc, List.append_assoc]
    exact other ("    " ++ "Title") _ (by decide)
  have description (text : Text) (length : Int) (band : Option Text) :
      line ≠ measured "Description" text length band := by
    rw [measured, List.append_assoc, List.append_assoc, List.append_assoc]
    exact other ("    " ++ "Description") _ (by decide)
  have sizes (text : Text) : line ∉ if text.isEmpty then [] else ["    Other: " ++ text] := by
    split
    · exact List.not_mem_nil
    · exact List.mem_singleton.not.mpr (other "    Other: " text (by decide))
  have note (text : Text) : line ≠ "    Note: " ++ text := other "    Note: " text (by decide)
  rw [pageLines, names, shown]
  simp only [List.flatten_cons, List.flatten_nil, List.mem_append, List.mem_singleton, path,
    schemas, sizes, false_or]
  cases shownText? p.metadata.title <;> cases shownText? p.metadata.description <;>
    cases shownText? p.note <;>
    simp [title, description, note, imageLine]

end Report

namespace Coverage
variable {pages : List Page}

/-- What a coverage says of the pages that it is made from. -/
structure Aggregates (pages : List Page) (c : Coverage) : Prop where
  covered : c.covered = pages.filter (·.isCovered)
  uncovered : c.uncovered = pages.filter (!·.isCovered)
  withoutImage : c.withoutImage =
    (c.covered.filter fun p => p.metadata.image = none ∨ p.metadata.image = some []).map (·.name)
  images : Table.keys c.imageUsage.entries =
    ((c.covered.filterMap (·.metadata.image)).filter (· ≠ [])).eraseDups
  pagesFor : ∀ image, c.imageUsage.pagesFor image =
    ((c.covered.filter (Holds · image)).map (·.name)).eraseDups
  onlyUncovered : ∀ image, (∀ p ∈ pages, Holds p image → p.isCovered = false) →
    c.imageUsage.contains image = false
  listed : ∀ p ∈ c.covered, c.imageUsage.isShared p.metadata.image ↔
    ∃ image, p.metadata.image = some image ∧ image ∈ Table.keys c.imageUsage.shared
  several : ∀ p ∈ c.covered, c.imageUsage.isShared p.metadata.image ↔
    ∃ image, p.metadata.image = some image ∧
      ∃ q ∈ c.covered, ∃ r ∈ c.covered, q.name ≠ r.name ∧ Holds q image ∧
      Holds r image
  marked : ∀ p ∈ c.covered, ∀ image, Holds p image →
    (("    Image: " ++ image ++ " (dup)" : Text) ∈ Report.pageLines c.imageUsage p ↔
      c.imageUsage.isShared p.metadata.image)

theorem foldl_add (pages : List Page) : pages.foldl add {} = ofPages pages := by
  induction pages using List.reverseRecOn with
  | nil => rfl
  | append_singleton pages p ih => rw [List.foldl_concat, ih, ofPages_concat]

/-- The loop over the pages and the coverage of their list are one, and it is what they
aggregate to. -/
theorem foldl_add_aggregates (pages : List Page) :
    pages.foldl add {} = ofPages pages ∧ Aggregates pages (ofPages pages) :=
  ⟨foldl_add pages,
    { covered := rfl
      uncovered := rfl
      withoutImage := by
        refine congrArg (List.map Page.name) (List.filter_congr fun p _ => ?_)
        rw [Bool.eq_iff_iff, decide_eq_true_iff]
        exact imageOf_isNone_iff
      images := by
        rw [keys_imageUsage, List.filter_filterMap]
        exact congrArg List.eraseDups (List.filterMap_congr fun p _ => imageOf_eq_filter p)
      pagesFor := pagesFor_eq_eraseDups pages
      onlyUncovered := fun image uncovered => by
        rw [ImageUsage.contains_eq_false_iff, keys_imageUsage, List.mem_eraseDups,
          List.mem_filterMap]
        rintro ⟨p, member, named⟩
        obtain ⟨member, covered⟩ := List.mem_filter.mp member
        exact Bool.false_ne_true
          ((uncovered p member (imageOf_eq_some_iff.mp named)).symm.trans covered)
      listed := fun p _ => isShared_iff_mem_keys_shared p.metadata.image
      several := fun p _ => by
        rw [isShared_iff_mem_keys_shared]
        simp only [mem_keys_shared_iff]
      marked := fun p _ image holds => by
        rw [Report.mem_pageLines_iff holds ⟨image ++ " (dup)", (List.append_assoc _ _ _).symm⟩,
          holds.1, Report.imageLine]
        simp only [List.append_assoc, List.append_cancel_left_eq]
        cases shared : (ofPages pages).imageUsage.isShared (some image) <;> decide }⟩

end Coverage
end SeoAudit
