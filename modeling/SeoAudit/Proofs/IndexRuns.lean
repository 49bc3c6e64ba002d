import Mathlib.Data.Finset.Card
import SeoAudit.Proofs.ImagePages
import SeoAudit.Proofs.Lists

/-! An image index that takes additions and questions in any order. A step lets it grow only:
images keep their places, and pages are put behind those that an image has. A question leaves
nothing behind, so what a run comes to is told by its additions alone, and so are the number
of pages and the shared images. -/
namespace SeoAudit
namespace ImageUsage
variable {u v w : ImageUsage} {image page : Text} {requests : List Request}

def Request.added? : Request → Option (Text × Text)
  | .add image page => some (image, page)
  | _ => none

def additions (requests : List Request) : List (Text × Text) := requests.filterMap Request.added?

/-- Where an image comes for the first time among all that is added. -/
def firstPlace (requests : List Request) (image : Text) : Nat :=
  ((additions requests).map Prod.fst).idxOf image

/-- The replies of an empty index to requests, and what it has become by them. -/
def run (requests : List Request) : List Reply × ImageUsage := (requests.mapM respond).run {}

def after (requests : List Request) : ImageUsage := (run requests).2

section Growth

/-- Every image keeps its place, and its pages are put behind those that it had. -/
def GrowsTo (u v : ImageUsage) : Prop :=
  ∀ (n : Nat) (image : Text) (pages : List Text), u.entries[n]? = some (image, pages) →
    ∃ more, v.entries[n]? = some (image, pages ++ more)

theorem GrowsTo.refl (u : ImageUsage) : u.GrowsTo u := fun _ _ pages here =>
  ⟨[], by rw [here, List.append_nil]⟩

theorem GrowsTo.trans (first : u.GrowsTo v) (second : v.GrowsTo w) : u.GrowsTo w := by
  intro n image pages here
  obtain ⟨more, here⟩ := first n image pages here
  obtain ⟨further, here⟩ := second n image _ here
  exact ⟨more ++ further, by rw [here, List.append_assoc]⟩

theorem growsTo_add (u : ImageUsage) (image page : Text) : u.GrowsTo (u.add image page) := by
  intro n other pages here
  rcases Table.getElem?_update image (withPage page) here with kept | added
  · exact ⟨[], kept.trans (by rw [List.append_nil])⟩
  · rw [withPage] at added
    split_ifs at added
    · exact ⟨[], added.trans (by rw [List.append_nil])⟩
    · exact ⟨[page], added⟩

theorem growsTo_addAll (u : ImageUsage) (pairs : List (Text × Text)) :
    u.GrowsTo (u.addAll pairs) := by
  induction pairs generalizing u with
  | nil => exact .refl u
  | cons pair pairs ih => exact (growsTo_add u pair.1 pair.2).trans (ih _)

theorem add_of_listed (listed : page ∈ u.pagesFor image) : u.add image page = u := by
  cases found : Table.get? image u.entries with
  | none =>
    rw [pagesFor, found] at listed
    cases listed
  | some pages =>
    rw [pagesFor, found] at listed
    rw [add, Table.update_of_same found (if_pos listed)]

end Growth

section Requests

theorem respond_snd (request : Request) (u : ImageUsage) :
    ((respond request).run u).2 = u.addAll request.added?.toList := by
  cases request <;> rfl

theorem mapM_respond_cons (request : Request) (requests : List Request) (u : ImageUsage) :
    ((request :: requests).mapM respond).run u =
      let next := u.addAll request.added?.toList
      (((respond request).run u).1 :: ((requests.mapM respond).run next).1,
        ((requests.mapM respond).run next).2) := by
  rw [List.mapM_cons, ← respond_snd]
  rfl

theorem mapM_respond_snd (requests : List Request) (u : ImageUsage) :
    ((requests.mapM respond).run u).2 = u.addAll (additions requests) := by
  induction requests generalizing u with
  | nil => rfl
  | cons request requests ih =>
    rw [mapM_respond_cons]
    simp only [ih]
    cases request <;> rfl

theorem mapM_respond_fst (requests : List Request) (u : ImageUsage) (n : Nat) :
    ((requests.mapM respond).run u).1[n]? =
      requests[n]?.map fun request =>
        ((respond request).run (u.addAll (additions (requests.take n)))).1 := by
  induction requests generalizing u n with
  | nil => rfl
  | cons request requests ih =>
    rw [mapM_respond_cons]
    cases n with
    | zero => rfl
    | succ n =>
      simp only [List.getElem?_cons_succ, ih]
      cases request <;> rfl

theorem after_eq (requests : List Request) : after requests = addAll (additions requests) {} :=
  mapM_respond_snd requests {}

theorem after_append (earlier later : List Request) :
    after (earlier ++ later) = (after earlier).addAll (additions later) := by
  rw [after_eq, after_eq, additions, List.filterMap_append, addAll, List.foldl_append]
  rfl

theorem additions_filter (requests : List Request) :
    additions (requests.filter (·.added?.isSome)) = additions requests := by
  rw [additions, List.filterMap_filter]
  refine List.filterMap_congr fun request _ => ?_
  cases request.added? <;> rfl

theorem after_isIndex (requests : List Request) : (after requests).IsIndex := by
  rw [after_eq]
  exact isIndex_empty.addAll _

theorem mem_pagesFor_after :
    page ∈ (after requests).pagesFor image ↔ (image, page) ∈ additions requests := by
  have empty : page ∉ ImageUsage.pagesFor image {} := List.not_mem_nil
  rw [after_eq, mem_pagesFor_addAll, or_iff_right empty]

end Requests

section Uses

def uses (u : ImageUsage) : List (Text × Text) :=
  u.entries.flatMap fun (image, pages) => pages.map (image, ·)

theorem length_uses (u : ImageUsage) : u.uses.length = u.pageTotal := by
  rw [uses, length_flatMap_eq_totalOf]
  simp only [List.length_map]
  rfl

theorem IsIndex.mem_uses (index : u.IsIndex) :
    (image, page) ∈ u.uses ↔ page ∈ u.pagesFor image := by
  simp only [uses, List.mem_flatMap, List.mem_map, Prod.exists, Prod.mk.injEq]
  constructor
  · rintro ⟨other, pages, listed, _, member, rfl, rfl⟩
    rwa [index.pagesFor_eq listed]
  · intro member
    exact ⟨image, _, index.mem_entries (List.ne_nil_of_mem member), page, member, rfl, rfl⟩

theorem IsIndex.nodup_uses (index : u.IsIndex) : u.uses.Nodup := by
  refine List.nodup_flatMap.mpr ⟨fun entry listed => ?_, ?_⟩
  · have pages := index.pages entry.1
    rw [index.pagesFor_eq listed] at pages
    exact pages.map (Prod.mk_right_injective entry.1)
  · refine (List.pairwise_map.mp index.images).imp fun {a b} differ => List.disjoint_left.mpr ?_
    intro _ inFirst inSecond
    obtain ⟨page, -, rfl⟩ := List.mem_map.mp inFirst
    obtain ⟨other, -, same⟩ := List.mem_map.mp inSecond
    exact differ (congrArg Prod.fst same).symm

theorem pageTotal_after (requests : List Request) :
    (after requests).pageTotal = (additions requests).toFinset.card := by
  have index := after_isIndex requests
  have same : (after requests).uses.toFinset = (additions requests).toFinset := by
    ext ⟨image, page⟩
    rw [List.mem_toFinset, List.mem_toFinset, index.mem_uses, mem_pagesFor_after]
  rw [← length_uses, ← List.toFinset_card_of_nodup index.nodup_uses, same]

end Uses

theorem shared_after_ordered (requests : List Request) :
    (after requests).shared.Pairwise fun a b =>
      b.2.length < a.2.length ∨
        b.2.length = a.2.length ∧ firstPlace requests a.1 < firstPlace requests b.1 := by
  have entries : (after requests).entries.Pairwise fun a b =>
      firstPlace requests a.1 < firstPlace requests b.1 := by
    rw [after_eq, entries_addAll]
    exact Table.pairwise_grouped _ _ _
  exact pairwise_mergeSort_of_key (fun entry : Text × List Text => entry.2.length)
    (entries.filter _)

structure Reflects (requests : List Request) (u : ImageUsage) : Prop where
  replies (n : Nat) : (run requests).1[n]? =
    requests[n]?.map fun request => ((respond request).run (after (requests.take n))).1
  unchanged (question : Request) : question.added? = none → ((respond question).run u).2 = u
  withoutQuestions : after (requests.filter (·.added?.isSome)) = u
  images : Table.keys u.entries = ((additions requests).map Prod.fst).eraseDups
  pages (image : Text) : u.pagesFor image =
    (((additions requests).filter (·.1 = image)).map Prod.snd).eraseDups
  filled : ∀ entry ∈ u.entries, entry.2 ≠ []
  once : ∀ entry ∈ u.entries, entry.2.Nodup
  grows (later : List Request) : u.GrowsTo (after (requests ++ later))
  repeated (image page : Text) : .add image page ∈ requests →
    ((respond (.add image page)).run u).2 = u
  total : u.pageTotal = (additions requests).toFinset.card
  sharedOnce : (Table.keys u.shared).Nodup
  shared (image : Text) (pages : List Text) : (image, pages) ∈ u.shared ↔
    (image, pages) ∈ u.entries ∧ 2 ≤ pages.length
  ordered : u.shared.Pairwise fun a b =>
    b.2.length < a.2.length ∨
      b.2.length = a.2.length ∧ firstPlace requests a.1 < firstPlace requests b.1

/-- Whatever an index is asked in between, it reflects what has been added. -/
theorem after_reflects (requests : List Request) : Reflects requests (after requests) := by
  have index := after_isIndex requests
  exact {
    replies := fun n => by
      simp only [after_eq]
      exact mapM_respond_fst requests {} n
    unchanged := fun question asks => by
      rw [respond_snd, asks]
      rfl
    withoutQuestions := by rw [after_eq, additions_filter, after_eq]
    images := by rw [after_eq, keys_addAll]
    pages := fun image => by rw [after_eq, pagesFor_addAll]
    filled := fun entry listed => by
      have named : entry.1 ∈ Table.keys (after requests).entries := List.mem_map_of_mem listed
      rw [after_eq, keys_addAll, List.mem_eraseDups, List.mem_map] at named
      obtain ⟨pair, added, same⟩ := named
      have member : pair.2 ∈ (after requests).pagesFor entry.1 :=
        mem_pagesFor_after.mpr (same ▸ added)
      rw [index.pagesFor_eq listed] at member
      exact List.ne_nil_of_mem member
    once := fun entry listed => by
      rw [← index.pagesFor_eq listed]
      exact index.pages entry.1
    grows := fun later => by
      rw [after_append]
      exact growsTo_addAll _ _
    repeated := fun image page added => by
      have listed : page ∈ (after requests).pagesFor image :=
        mem_pagesFor_after.mpr (List.mem_filterMap.mpr ⟨_, added, rfl⟩)
      exact (respond_snd _ _).trans (add_of_listed listed)
    total := pageTotal_after requests
    sharedOnce := by
      have names : (Table.keys (after requests).shared).Perm _ :=
        (List.mergeSort_perm _ _).map Prod.fst
      exact names.nodup_iff.mpr ((List.filter_sublist.map Prod.fst).nodup index.images)
    shared := fun image pages => mem_shared
    ordered := shared_after_ordered requests }

/-- Of two shared images the later one comes first, as it has more pages. -/
example : (after [.add "one.png" "a", .shared, .add "one.png" "b", .add "two.png" "c",
      .add "two.png" "d", .pageTotal, .add "two.png" "e"]).shared =
    [(("two.png" : Text), (["c", "d", "e"] : List Text)), ("one.png", ["a", "b"])] := by
  cbv

end ImageUsage
end SeoAudit
