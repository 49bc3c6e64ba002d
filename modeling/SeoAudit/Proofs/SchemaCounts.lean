import SeoAudit.Proofs.PageAnalysis
import SeoAudit.Proofs.Rounding
import SeoAudit.Proofs.Tables
import SeoAudit.Report.Text

/-! The schema summary of a report. Its table groups the covered pages by the names of their
schemas, and each schema puts the path of its page once more under its name. So a name counts
pages as long as no page repeats it, and then no share of pages is above the whole. -/
namespace SeoAudit

namespace Page

def schemaNames (p : Page) : List Text := p.metadata.schemas.map (·.name)

end Page

namespace Schema

theorem ofParameters_names_sublist (params : Parameters) :
    ((ofParameters params).map (·.name)).Sublist
      (base.map (·.name) ++ ofCollections.map (·.2.1) ++ ofFlags.map Prod.snd) := by
  rw [ofParameters, List.map_append, List.map_append]
  refine ((List.Sublist.refl _).append (map_filterMap_sublist (fun entry s found => ?_) _)).append
    (map_filterMap_sublist (fun entry s found => ?_) _)
  all_goals
    obtain ⟨-, same⟩ := Option.ite_none_right_eq_some.mp found
    cases same
    rfl

theorem ofHints_names_sublist (text : Text) :
    ((ofHints text).map (·.name)).Sublist (hints.map Prod.snd) := by
  refine map_filterMap_sublist (fun hint s found => ?_) _
  obtain ⟨-, same⟩ := Option.ite_none_right_eq_some.mp found
  cases same
  rfl

end Schema

namespace Document
variable {d : Document} {p : Page}

theorem staticSchemas_names_nodup (d : Document) : (d.staticSchemas.map (·.name)).Nodup := by
  unfold staticSchemas
  split
  · split
    · exact (Schema.ofParameters_names_sublist _).nodup (by decide)
    · exact (Schema.ofHints_names_sublist _).nodup (by decide)
  · exact List.nodup_nil

theorem analyze_none_schemaNames (analyzed : d.analyze none = .ok p) : p.schemaNames.Nodup := by
  obtain ⟨evaluation, asked, made⟩ := analyze_eq_ok_iff.mp analyzed
  cases asked
  rw [page, pageWith] at made
  obtain ⟨metadata, normal, rfl⟩ := map_eq_ok_iff.mp made
  rw [Page.schemaNames, normalize_static_schemas normal]
  exact staticSchemas_names_nodup d

end Document

namespace Report
variable {r : Report} {name : Text} {paths : List Text}

def seenNames (r : Report) : List Text := r.covered.flatMap Page.schemaNames

def namedPaths (p : Page) : List (Text × Text) := p.metadata.schemas.map fun s => (s.name, p.path)

theorem schemaPages_eq_grouped (r : Report) :
    r.schemaPages =
      Table.grouped Prod.fst (fun pair paths => paths.getD [] ++ [pair.2])
        (r.covered.flatMap namedPaths) := rfl

theorem nodup_keys_schemaPages (r : Report) : (Table.keys r.schemaPages).Nodup := by
  rw [schemaPages_eq_grouped]
  exact Table.nodup_keys_grouped _ _ _

theorem map_fst_namedPaths (r : Report) :
    (r.covered.flatMap namedPaths).map Prod.fst = r.seenNames := by
  rw [List.map_flatMap]
  simp only [namedPaths, List.map_map]
  rfl

theorem keys_schemaPages (r : Report) : Table.keys r.schemaPages = r.seenNames.eraseDups := by
  rw [schemaPages_eq_grouped, Table.keys_grouped, map_fst_namedPaths]

theorem foldl_append_getD (pairs : List (Text × Text)) :
    (pairs.foldl (fun paths pair => some (paths.getD [] ++ [pair.2])) none).getD [] =
      pairs.map Prod.snd := by
  induction pairs using List.reverseRecOn with
  | nil => rfl
  | append_singleton pairs pair ih =>
    rw [List.foldl_concat, Option.getD_some, ih, List.map_append]; rfl

theorem filter_namedPaths (p : Page) (name : Text) :
    ((namedPaths p).filter (·.1 = name)).map Prod.snd =
      List.replicate (p.schemaNames.count name) p.path := by
  rw [namedPaths, Page.schemaNames]
  induction p.metadata.schemas with
  | nil => rfl
  | cons s schemas ih =>
    by_cases same : s.name = name <;> simp [same, List.replicate_succ] at ih ⊢ <;> exact ih

theorem paths_eq_flatMap (listed : (name, paths) ∈ r.schemaPages) :
    paths = r.covered.flatMap fun p => List.replicate (p.schemaNames.count name) p.path := by
  have found := congrArg (Option.getD · [])
    ((Table.mem_iff_get? (nodup_keys_schemaPages r)).mp listed)
  rw [schemaPages_eq_grouped, Table.get?_grouped, foldl_append_getD, List.filter_flatMap,
    List.map_flatMap] at found
  exact found.symm.trans (congrArg (List.flatMap · r.covered)
    (funext fun p => filter_namedPaths p name))

theorem schemaPages_ordered (r : Report) :
    r.schemaPages.Pairwise fun a b => r.seenNames.idxOf a.1 < r.seenNames.idxOf b.1 := by
  rw [schemaPages_eq_grouped, ← map_fst_namedPaths]
  exact Table.pairwise_grouped _ _ _

theorem schemaSummary_ordered (r : Report) :
    r.schemaSummary.Pairwise fun a b =>
      b.2.length < a.2.length ∨
        b.2.length = a.2.length ∧ r.seenNames.idxOf a.1 < r.seenNames.idxOf b.1 :=
  pairwise_mergeSort_of_key (fun entry : Text × List Text => entry.2.length)
    (schemaPages_ordered r)

theorem mem_schemaSummary : (name, paths) ∈ r.schemaSummary ↔ (name, paths) ∈ r.schemaPages :=
  List.mem_mergeSort

theorem perm_keys_schemaSummary (r : Report) :
    (Table.keys r.schemaSummary).Perm (Table.keys r.schemaPages) :=
  (List.mergeSort_perm r.schemaPages _).map Prod.fst

section Repeats
variable {pages : List Page}

theorem flatMap_replicate_of_once (once : ∀ p ∈ pages, p.schemaNames.count name ≤ 1) :
    (pages.flatMap fun p => List.replicate (p.schemaNames.count name) p.path) =
      (pages.filter (name ∈ ·.schemaNames)).map (·.path) := by
  induction pages with
  | nil => rfl
  | cons p pages ih =>
    obtain ⟨here, later⟩ := List.forall_mem_cons.mp once
    rw [List.flatMap_cons, ih later]
    by_cases carried : name ∈ p.schemaNames
    · have one : p.schemaNames.count name = 1 := here.antisymm (List.count_pos_iff.mpr carried)
      simp [carried, one]
    · simp [carried, List.count_eq_zero.mpr carried]

/-- There are at least as many paths as pages that carry the name, and more when one repeats it. -/
theorem countP_le_length_flatMap (pages : List Page) (name : Text) :
    pages.countP (name ∈ ·.schemaNames) ≤
      (pages.flatMap fun p => List.replicate (p.schemaNames.count name) p.path).length ∧
    ((∃ p ∈ pages, 1 < p.schemaNames.count name) →
      pages.countP (name ∈ ·.schemaNames) <
        (pages.flatMap fun p => List.replicate (p.schemaNames.count name) p.path).length) := by
  induction pages with
  | nil => simp
  | cons p pages ih =>
    have counted : (if name ∈ p.schemaNames then 1 else 0) ≤ p.schemaNames.count name := by
      split_ifs with carried
      · exact List.count_pos_iff.mpr carried
      · exact Nat.zero_le _
    rw [List.countP_cons, List.flatMap_cons, List.length_append, List.length_replicate]
    simp only [decide_eq_true_eq]
    refine ⟨by omega, fun ⟨q, member, twice⟩ => ?_⟩
    rcases List.mem_cons.mp member with rfl | later
    · split_ifs at counted ⊢ <;> omega
    · have more := ih.2 ⟨q, later, twice⟩
      omega

end Repeats

theorem evenPercent_le_hundred {count total : Nat} (le : count ≤ total) :
    evenPercent count total ≤ 100 := by
  have nonneg : (0 : Rat) ≤ ((count * 100 : Nat) : Int) / (total : Int) := by positivity
  have most : (((count * 100 : Nat) : Int) : Rat) / (total : Int) ≤ (100 : Nat) := by
    push_cast
    refine div_le_of_le_mul₀ (by positivity) (by norm_num) ?_
    have cast : (count : Rat) ≤ total := by exact_mod_cast le
    linarith
  have small : (((count * 100 : Nat) : Int) : Rat) / (total : Int) ≤ 2 ^ 53 :=
    most.trans (by norm_num)
  have rounded := nearestEven_mono (Binary64.nearest_le_natCast nonneg most (by norm_num))
  rw [← Int.cast_natCast 100, nearestEven_intCast] at rounded
  have value : evenPercent count total =
      nearestEven (Binary64.nearest (((count * 100 : Nat) : Int) / (total : Int))) := by
    rw [evenPercent]
    show ((ratio ((count * 100 : Nat) : Int) (total : Int)).toRat?.map nearestEven).getD 0 = _
    rw [ratio, Binary64.ofRat_eq_number nonneg small]
    rfl
  rw [value]
  exact rounded

/-- What the summary says for every report: a name on some covered page is listed once, in the
order of the numbers of paths, with a path for each of its schemas. These are the pages that
carry it exactly when no covered page repeats it. -/
theorem schemaSummary_counts (r : Report) :
    (Table.keys r.schemaSummary).Nodup ∧
    (∀ name, name ∈ Table.keys r.schemaSummary ↔
      ∃ p ∈ r.covered, name ∈ p.schemaNames) ∧
    (r.schemaSummary.Pairwise fun a b =>
      b.2.length < a.2.length ∨
        b.2.length = a.2.length ∧ r.seenNames.idxOf a.1 < r.seenNames.idxOf b.1) ∧
    ∀ name paths, (name, paths) ∈ r.schemaSummary →
      (paths = r.covered.flatMap fun p => List.replicate (p.schemaNames.count name) p.path) ∧
      ((∀ p ∈ r.covered, p.schemaNames.count name ≤ 1) ↔
        paths.length = r.covered.countP (name ∈ ·.schemaNames)) ∧
      ((∀ p ∈ r.covered, p.schemaNames.count name ≤ 1) →
        paths = (r.covered.filter (name ∈ ·.schemaNames)).map (·.path) ∧
        paths.length ≤ r.covered.length ∧
        evenPercent paths.length r.covered.length ≤ 100) := by
  refine ⟨(perm_keys_schemaSummary r).nodup_iff.mpr (nodup_keys_schemaPages r), fun name => ?_,
    schemaSummary_ordered r, fun name paths listed => ?_⟩
  · rw [(perm_keys_schemaSummary r).mem_iff, keys_schemaPages, List.mem_eraseDups, seenNames,
      List.mem_flatMap]
  · have instances := paths_eq_flatMap (mem_schemaSummary.mp listed)
    have counts := countP_le_length_flatMap r.covered name
    rw [← instances] at counts
    have chosen (once : ∀ p ∈ r.covered, p.schemaNames.count name ≤ 1) :
        paths = (r.covered.filter (name ∈ ·.schemaNames)).map (·.path) :=
      instances.trans (flatMap_replicate_of_once once)
    have length (once : ∀ p ∈ r.covered, p.schemaNames.count name ≤ 1) :
        paths.length = r.covered.countP (name ∈ ·.schemaNames) := by
      rw [chosen once, List.length_map, List.countP_eq_length_filter]
    refine ⟨instances, ⟨length, fun same p member => ?_⟩, fun once => ?_⟩
    · by_contra twice
      exact (counts.2 ⟨p, member, Nat.lt_of_not_le twice⟩).ne same.symm
    · have le : paths.length ≤ r.covered.length := length once ▸ List.countP_le_length
      exact ⟨chosen once, le, evenPercent_le_hundred le⟩

def ofPages (pages : List Page) : Report :=
  let coverage := Coverage.ofPages pages
  ofCard "site" "app/pages" coverage
    (Findings.score { coverage, sitemap := {}, robots := none }) {} [] []

def servedDocuments : List Document := [
  { path := "index.vue", name := "index"
    text := "useHead(generateSEO(\x7bfaqs: [\x7b\x7d]\x7d))" },
  { path := "about.vue", name := "about", text := "useHead(generateSEO(\x7b\x7d))" }]

theorem servedDocuments_are_counted :
    ∃ pages, servedDocuments.mapM (·.analyze none) = .ok pages ∧
      (("WebPage" : Text), (["index.vue", "about.vue"] : List Text)) ∈
        (ofPages pages).schemaSummary ∧
      (∀ p ∈ (ofPages pages).covered, p.schemaNames.count ("WebPage" : Text) ≤ 1) ∧
      evenPercent 2 (ofPages pages).covered.length ≤ 100 := by
  have checked : Except.map (fun pages => (Table.get? "WebPage" (ofPages pages).schemaPages,
      (ofPages pages).covered.map (·.schemaNames.count ("WebPage" : Text))))
      (servedDocuments.mapM fun d : Document => d.analyze none) =
      .ok (some ["index.vue", "about.vue"], [1, 1]) := by
    decide +kernel
  obtain ⟨pages, analyzed, both⟩ := map_eq_ok_iff.mp checked
  obtain ⟨found, counted⟩ := Prod.mk.inj both
  have listed := mem_schemaSummary.mpr
    ((Table.mem_iff_get? (nodup_keys_schemaPages (ofPages pages))).mpr found)
  have once (p : Page) (member : p ∈ (ofPages pages).covered) :
      p.schemaNames.count ("WebPage" : Text) ≤ 1 := by
    have one := counted ▸ List.mem_map_of_mem member
    simp at one
    exact one.le
  obtain ⟨-, -, -, counts⟩ := schemaSummary_counts (ofPages pages)
  obtain ⟨-, -, pagewise⟩ := counts _ _ listed
  exact ⟨pages, analyzed, listed, once, (pagewise once).2.2⟩

def twinDocument : Document where
  path := "index.vue"
  name := "index"
  text := "useHead(generateSEO(\x7b\x7d))"

def twinEvaluator : Document.Evaluator := fun _ =>
  let product := Json.object [("@type", .string "Product")]
  .ok { verdict := .output
          [("meta", .array []),
            ("script",
              .array [.object [("innerHTML", .object [("@graph", .array [product, product])])]])] }

/-- The one page with both products is counted twice. -/
theorem twinDocument_is_counted_twice :
    ¬ ∀ (docs : List Document) (pages : List Page) (evaluator : Option Document.Evaluator),
      docs.mapM (·.analyze evaluator) = .ok pages →
      ∀ name paths, (name, paths) ∈ (ofPages pages).schemaSummary →
        paths.length ≤ (ofPages pages).covered.length ∧
        evenPercent paths.length (ofPages pages).covered.length ≤ 100 := by
  intro law
  have checked : (twinDocument.analyze (some twinEvaluator)).map (fun page =>
      ((ofPages [page]).schemaPages, (ofPages [page]).covered.length)) =
      .ok ([("Product", ["index.vue", "index.vue"])], 1) := by
    decide +kernel
  obtain ⟨page, analyzed, both⟩ := Document.exists_page_of_check checked
  obtain ⟨summary, one⟩ := Prod.mk.inj both
  have listed :
      (("Product" : Text), (["index.vue", "index.vue"] : List Text)) ∈
      (ofPages [page]).schemaSummary :=
    mem_schemaSummary.mpr (summary ▸ List.mem_singleton_self _)
  have bounds := law [twinDocument] [page] (some twinEvaluator) analyzed _ _ listed
  rw [one] at bounds
  exact absurd bounds.1 (by decide)

end Report
end SeoAudit
