import SeoAudit.Proofs.EngineReach
import SeoAudit.Proofs.PagePaths

/-! Every page that is found is reported once: with the covered pages, with the uncovered
ones, or with the files that could not be read, each time in the order of the search. And
every covered page is once in the image index or among the pages without an image. -/
namespace SeoAudit

namespace ImageUsage
variable {image page : Text} {u : ImageUsage}

def listed (u : ImageUsage) : List Text := u.entries.flatMap (·.2)

theorem pageTotal_eq_length (u : ImageUsage) : u.pageTotal = u.listed.length :=
  (length_flatMap_eq_totalOf _ u.entries).symm

theorem listed_add (image : Text) (new : page ∉ u.listed) :
    (u.add image page).listed.Perm (page :: u.listed) := by
  obtain ⟨entries⟩ := u
  simp only [listed, add] at new ⊢
  induction entries with
  | nil => exact .refl _
  | cons entry entries ih =>
    obtain ⟨key, pages⟩ := entry
    simp only [List.flatMap_cons, List.mem_append, not_or] at new
    rw [Table.update]
    split
    · rw [List.flatMap_cons, List.flatMap_cons, withPage, if_neg new.1, List.append_assoc,
        List.singleton_append]
      exact List.perm_middle
    · rw [List.flatMap_cons, List.flatMap_cons]
      exact ((ih new.2).append_left pages).trans List.perm_middle

end ImageUsage

namespace Coverage

theorem listed_foldl (pages : List Page) (u : ImageUsage)
    (distinct : (pages.map (·.name) ++ u.listed).Nodup) :
    (pages.foldl addImage u).listed.Perm
      ((pages.filter fun p => (imageOf p).isSome).map (·.name) ++ u.listed) := by
  -- No name is listed before its page is added, so no page is dropped as listed already.
  induction pages generalizing u with
  | nil => exact .refl _
  | cons p pages ih =>
    obtain ⟨new, rest⟩ := List.nodup_cons.mp distinct
    rw [List.foldl_cons, addImage]
    cases image : imageOf p with
    | none =>
      rw [List.filter_cons_of_neg (by simp [image])]
      exact ih u rest
    | some image' =>
      have added := ImageUsage.listed_add image' fun member => new (List.mem_append_right _ member)
      have middle : (pages.map (·.name) ++ (u.add image' p.name).listed).Perm
          (p.name :: (pages.map (·.name) ++ u.listed)) :=
        (added.append_left _).trans List.perm_middle
      rw [List.filter_cons_of_pos (by simp [image])]
      exact (ih _ (middle.nodup_iff.mpr distinct)).trans
        ((added.append_left _).trans List.perm_middle)

theorem pageTotal_add_withoutImage {pages : List Page}
    (distinct : ((ofPages pages).covered.map (·.name)).Nodup) :
    (ofPages pages).imageUsage.pageTotal + (ofPages pages).withoutImage.length =
      (ofPages pages).covered.length := by
  have listed := listed_foldl (ofPages pages).covered {}
    (by simpa [ImageUsage.listed] using distinct)
  have total : (ofPages pages).imageUsage.pageTotal =
      ((ofPages pages).covered.filter fun p => (imageOf p).isSome).length := by
    have length := listed.length_eq
    rw [List.length_append, List.length_map] at length
    rw [ImageUsage.pageTotal_eq_length]
    exact length
  have without : (ofPages pages).withoutImage.length =
      ((ofPages pages).covered.filter fun p => !(imageOf p).isSome).length := by
    simp [ofPages]
  rw [total, without, ← List.length_eq_length_filter_add]

end Coverage

namespace Audit

inductive PageKind where
  | covered | uncovered | unreadable
deriving DecidableEq

def PageKind.ofDocument (d : Document) : PageKind := if d.isCovered then covered else uncovered

namespace Input
variable {i : Input} {layout : Layout} {found : Discovery.Found} {page : List Text} {d : Document}

def kind (i : Input) (layout : Layout) (page : List Text) : PageKind :=
  match Discovery.load i.tree layout.pagesDir page with
  | .error _ => .unreadable
  | .ok document => .ofDocument document

def pagesOf (i : Input) (layout : Layout) (found : Discovery.Found) (kind : PageKind) :
    List (List Text) :=
  found.pages.filter (i.kind layout · = kind)

theorem load_eq_ok (loaded : Discovery.load i.tree layout.pagesDir page = .ok d) :
    d.path = Discovery.pathText page ∧ d.name = Discovery.nameOf (Discovery.pathText page) ∧
      i.kind layout page = .ofDocument d ∧ i.plain layout page = .analysed d.plainPage none ∧
      i.readError? layout page = none := by
  unfold kind plain readError?
  rw [loaded]
  obtain ⟨text, -, rfl⟩ := map_eq_ok_iff.mp loaded
  exact ⟨rfl, rfl, rfl, rfl, rfl⟩

theorem load_eq_error {e : Tree.ReadError}
    (unreadable : Discovery.load i.tree layout.pagesDir page = .error e) :
    i.kind layout page = .unreadable ∧ (i.plain layout page).page? = none ∧
      (i.plain layout page).error? = i.readError? layout page := by
  unfold kind plain readError?
  rw [unreadable]
  exact ⟨rfl, rfl, rfl⟩

section Plain
variable {pages : List (List Text)}

theorem plain_fields {β : Type} {read : Page → β} {field : List Text → β} {kind : PageKind}
    {accepts : Page → Bool} (readable : kind ≠ .unreadable)
    (accepted : ∀ d : Document, accepts d.plainPage = decide (PageKind.ofDocument d = kind))
    (same : ∀ page d, Discovery.load i.tree layout.pagesDir page = .ok d →
      read d.plainPage = field page) :
    (((pages.map (i.plain layout)).filterMap PageOutcome.page?).filter accepts).map read =
      (pages.filter (i.kind layout · = kind)).map field := by
  rw [List.filterMap_map]
  apply map_filter_filterMap
  intro page
  cases loaded : Discovery.load i.tree layout.pagesDir page with
  | error e =>
    obtain ⟨unreadable, none, -⟩ := load_eq_error loaded
    simp [Function.comp_apply, none, unreadable, readable.symm]
  | ok d =>
    obtain ⟨-, -, ofDocument, plain, -⟩ := load_eq_ok loaded
    have image := same page d loaded
    by_cases is : PageKind.ofDocument d = kind <;>
      simp [Function.comp_apply, plain, ofDocument, PageOutcome.page?, Option.filter, accepted, is,
        image]

theorem plain_errors (pages : List (List Text)) :
    (pages.filter (i.kind layout · = .unreadable)).map (i.readError? layout) =
      ((pages.map (i.plain layout)).filterMap PageOutcome.error?).map some := by
  induction pages with
  | nil => rfl
  | cons page pages ih =>
    rw [List.map_cons]
    cases loaded : Discovery.load i.tree layout.pagesDir page with
    | error e =>
      obtain ⟨unreadable, -, entry⟩ := load_eq_error loaded
      have reported : ∃ message, i.readError? layout page = some message := by
        rw [readError?, loaded]
        exact ⟨_, rfl⟩
      obtain ⟨message, reported⟩ := reported
      rw [List.filter_cons_of_pos (by simp [unreadable]), List.map_cons, ih, reported,
        List.filterMap_cons_some (entry.trans reported), List.map_cons]
    | ok d =>
      obtain ⟨-, -, ofDocument, plain, -⟩ := load_eq_ok loaded
      have readable : PageKind.ofDocument d ≠ .unreadable := by
        unfold PageKind.ofDocument
        split <;> decide
      rw [List.filter_cons_of_neg (by simp [ofDocument, readable]), ih,
        List.filterMap_cons_none (by rw [plain]; rfl)]

end Plain

def pageNames (page : List Text) : Text × Text :=
  (Discovery.pathText page, Discovery.nameOf (Discovery.pathText page))

theorem plainPage_pageNames (page : List Text) (d : Document)
    (loaded : Discovery.load i.tree layout.pagesDir page = .ok d) :
    (d.plainPage.path, d.plainPage.name) = pageNames page :=
  Prod.ext (load_eq_ok loaded).1 (load_eq_ok loaded).2.1

/-- The report keeps the pages that were found: each is reported in one way, in the order
of the search and under a name of its own, and each covered one is counted with its image
or listed without one. -/
structure Conserves (i : Input) (layout : Layout) (found : Discovery.Found) (report : Report) :
    Prop where
  distinct : (found.pages.map Discovery.pathText).Nodup
  split : found.pages.Perm (i.pagesOf layout found .covered ++ i.pagesOf layout found .uncovered ++
    i.pagesOf layout found .unreadable)
  covered : report.covered.map (fun p => (p.path, p.name)) =
    (i.pagesOf layout found .covered).map pageNames
  uncovered : report.uncovered.map (fun p => (p.path, p.name)) =
    (i.pagesOf layout found .uncovered).map pageNames
  errors : ∃ readErrors,
    (i.pagesOf layout found .unreadable).map (i.readError? layout) = readErrors.map some ∧
    report.errors = found.error.toList ++ readErrors ++ (readSitemap i.tree layout).errors ++
      (readRobots i.tree layout).errors
  names : ((report.covered ++ report.uncovered).map (·.name)).Nodup
  images : report.imageUsage.pageTotal + report.withoutImage.length = report.covered.length

theorem pagesOf_perm (i : Input) (layout : Layout) (found : Discovery.Found) :
    found.pages.Perm (i.pagesOf layout found .covered ++ i.pagesOf layout found .uncovered ++
      i.pagesOf layout found .unreadable) := by
  simp only [pagesOf]
  induction found.pages with
  | nil => exact .refl _
  | cons page pages ih =>
    cases kind : i.kind layout page with
    | covered => simpa [kind] using ih
    | uncovered =>
      simp only [List.append_assoc] at ih
      simpa [kind] using (ih.cons page).trans List.perm_middle.symm
    | unreadable => simpa [kind] using (ih.cons page).trans List.perm_middle.symm

section Reported
variable {report : Report}
  (same : report.unreached = (i.report layout found (found.pages.map (i.plain layout))).unreached)
include same

theorem covered_pageNames : report.covered.map (fun p => (p.path, p.name)) =
    (i.pagesOf layout found .covered).map pageNames := by
  have reported := congrArg (fun r => r.covered.map fun p => (p.path, p.name)) same
  simp only [Report.unreached, List.map_map] at reported
  refine reported.trans (plain_fields (by decide) (fun d => ?_) plainPage_pageNames)
  cases h : d.isCovered <;> simp [PageKind.ofDocument, h, Document.plainPage_isCovered]

theorem uncovered_pageNames : report.uncovered.map (fun p => (p.path, p.name)) =
    (i.pagesOf layout found .uncovered).map pageNames := by
  have reported := congrArg (fun r => r.uncovered.map fun p => (p.path, p.name)) same
  refine reported.trans (plain_fields (by decide) (fun d => ?_) plainPage_pageNames)
  cases h : d.isCovered <;> simp [PageKind.ofDocument, h, Document.plainPage_isCovered]

theorem nodup_names (wellFormed : i.tree.isWellFormed) (search : i.search layout = .ok found) :
    ((report.covered ++ report.uncovered).map (·.name)).Nodup := by
  have pages := Discovery.find_isPagePath wellFormed (mapError_eq_ok_iff.mp search)
  have nodup := Discovery.nodup_find wellFormed (mapError_eq_ok_iff.mp search)
  have split := pagesOf_perm i layout found
  have named : (report.covered ++ report.uncovered).map (·.name) =
      (i.pagesOf layout found .covered ++ i.pagesOf layout found .uncovered).map
        fun page => Discovery.nameOf (Discovery.pathText page) := by
    have both := congrArg (List.map Prod.snd)
      (congrArg₂ (· ++ ·) (covered_pageNames same) (uncovered_pageNames same))
    simpa [pageNames, Function.comp_def] using both
  have isPage (page) (member : page ∈ i.pagesOf layout found .covered ++
      i.pagesOf layout found .uncovered) : Discovery.IsPagePath page :=
    pages page (split.mem_iff.mpr (List.mem_append_left _ member))
  rw [named]
  exact (split.nodup_iff.mp nodup).of_append_left.map_on fun page member other member' =>
    Discovery.nameOf_injective (isPage page member) (isPage other member')

theorem pageTotal_add_withoutImage (distinct : (report.covered.map (·.name)).Nodup) :
    report.imageUsage.pageTotal + report.withoutImage.length = report.covered.length := by
  have images := congrArg Report.imageUsage same
  have without := congrArg Report.withoutImage same
  have named := congrArg (fun r => r.covered.map (·.name)) same
  simp only [Report.unreached, List.map_map] at images without named
  have counted := Coverage.pageTotal_add_withoutImage (named ▸ distinct)
  have length := congrArg List.length named
  rw [List.length_map, List.length_map] at length
  rw [images, without, length]
  exact counted

end Reported

/-- Whatever the engines answer and however many workers there are, a report keeps the
pages that the search has found. -/
theorem pages_are_conserved {i : Input} {report : Report} (wellFormed : i.tree.isWellFormed)
    (yields : i.Yields (.ok report)) :
    ∃ layout found, i.layout = .ok layout ∧ i.search layout = .ok found ∧
      i.Conserves layout found report := by
  obtain ⟨layout, found, detected, search, same⟩ := yields.unreached
  have pages := Discovery.find_isPagePath wellFormed (mapError_eq_ok_iff.mp search)
  have nodup := Discovery.nodup_find wellFormed (mapError_eq_ok_iff.mp search)
  have names := nodup_names same wellFormed search
  refine ⟨layout, found, detected, search, ?_⟩
  exact {
    distinct := nodup.map_on fun page member other member' =>
      Discovery.pathText_injective (pages page member) (pages other member')
    split := pagesOf_perm i layout found
    covered := covered_pageNames same
    uncovered := uncovered_pageNames same
    errors := ⟨_, plain_errors found.pages, congrArg Report.errors same⟩
    names
    images := pageTotal_add_withoutImage same (List.map_append ▸ names).of_append_left }

def mixedPages : List (Text × Tree) := [
  ("gone.vue", .file [0xff]),
  ("index.vue", .file "useHead(generateSEO(\x7b image: '/shop.png' \x7d))".toUTF8.toList),
  ("plain.vue", .file [])]

def mixedShop : Input where
  tree := .directory [("pages", .directory mixedPages)]
  engines _ _ _ := .failed "Error" "boom"
  root := { segments := [] }
  config := { root := { segments := [] } }
  workers := some 2

def mixedLayout : Layout where
  root := mixedShop.root
  pagesDir := { segments := ["pages"] }
  ignorePaths := mixedShop.config.ignorePaths

theorem mixedShop_conserves :
    ∃ report layout found, mixedShop.Yields (.ok report) ∧ mixedShop.layout = .ok layout ∧
      mixedShop.search layout = .ok found ∧ mixedShop.Conserves layout found report ∧
      report.covered.map (·.name) = [("index" : Text)] ∧
      report.uncovered.map (·.name) = [("plain" : Text)] ∧ report.errors.length = 1 := by
  have looked : mixedShop.tree.lookup mixedLayout.pagesDir = .ok (.directory mixedPages) := rfl
  have search := search_of_sorted looked (by decide)
  obtain ⟨report, yields, shown⟩ := exists_report_of_search
    (fun r => (r.covered.map (·.name), r.uncovered.map (·.name), r.errors.length))
    ([("index" : Text)], [("plain" : Text)], 1)
    (rfl : mixedShop.layout = .ok mixedLayout) search (by decide +kernel)
  obtain ⟨covered, rest⟩ := Prod.mk.inj shown
  obtain ⟨uncovered, errors⟩ := Prod.mk.inj rest
  obtain ⟨layout, found, detected, search, conserves⟩ :=
    pages_are_conserved (i := mixedShop) (by decide +kernel) yields
  exact ⟨report, layout, found, yields, detected, search, conserves, covered, uncovered, errors⟩

end Input
end Audit
end SeoAudit
