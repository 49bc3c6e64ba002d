import SeoAudit.Proofs.Percentages

/-! What covering a page does to the first category. An uncovered page costs two points and a
covered one half a point for each of its issues, of which there are five at most. So covering a
page pays, but for a page on which everything is missing that an issue can be about. -/
namespace SeoAudit

namespace LengthRule
variable {r : LengthRule} {text : Option Text} {length : Int} {band : Option Text}

def Fails (r : LengthRule) (text : Option Text) : Prop :=
  ∀ t ∈ text, t.length < r.least ∨ r.greatest < t.length

theorem issues_length (measures : r.Measures text length band) :
    (r.issues text length band).length ≤ 1 ∧
      ((r.issues text length band).length = 1 ↔ r.Fails text) := by
  cases text with
  | none => exact ⟨le_rfl, iff_of_true rfl (by simp [Fails])⟩
  | some t =>
    obtain ⟨rfl, rfl⟩ := measures
    have fails : r.Fails (some t) ↔ t.length < r.least ∨ r.greatest < t.length := by
      simp [Fails]
    have longWord : Text.ofString "long" ≠ Text.ofString "short" := by decide
    have optimalWords : Text.ofString "optimal" ≠ Text.ofString "short" ∧
        Text.ofString "optimal" ≠ Text.ofString "long" := by decide
    rw [fails, issues, if_neg (Option.some_ne_none t), LengthRule.band]
    rcases lt_or_ge t.length r.least with short | enough
    · rw [if_pos short, if_pos rfl]
      exact ⟨le_rfl, iff_of_true rfl (.inl short)⟩
    · rw [if_neg enough.not_gt]
      rcases lt_or_ge r.greatest t.length with long | fits
      · rw [if_pos long, if_neg (by simpa using longWord), if_pos rfl]
        exact ⟨le_rfl, iff_of_true rfl (.inr long)⟩
      · rw [if_neg fits.not_gt, if_neg (by simpa using optimalWords.1),
          if_neg (by simpa using optimalWords.2)]
        exact ⟨Nat.zero_le 1, iff_of_false (by decide) (by omega)⟩

end LengthRule

namespace Metadata
variable {m : Metadata}

theorem tagIssues_length (start : String) (required : List Text) (tags : Table Bool) :
    (tagIssues start required tags).length ≤ 1 ∧
      ((tagIssues start required tags).length = 1 ↔
        ∃ tag ∈ required, Table.contains tag tags = false) := by
  have absent : required.filter (!Table.contains · tags) = [] ↔
      ¬ ∃ tag ∈ required, Table.contains tag tags = false := by
    simp [List.filter_eq_nil_iff]
  unfold tagIssues
  cases missing : required.filter (!Table.contains · tags) with
  | nil => exact ⟨Nat.zero_le 1, iff_of_false Nat.zero_ne_one (absent.mp missing)⟩
  | cons tag rest =>
    refine ⟨le_rfl, iff_of_true rfl (not_not.mp (mt absent.mpr ?_))⟩
    rw [missing]
    exact List.cons_ne_nil tag rest

theorem linkIssues_length (canonical : Bool) :
    (if canonical then [] else [Text.ofString "Missing canonical URL"]).length ≤ 1 ∧
      ((if canonical then [] else [Text.ofString "Missing canonical URL"]).length = 1 ↔
        canonical = false) := by
  cases canonical <;> decide

/-- Everything is missing or wrong that an issue can be about. -/
structure LacksAll (m : Metadata) : Prop where
  title : LengthRule.title.Fails m.title
  description : LengthRule.description.Fails m.description
  ogTags : ∃ tag ∈ requiredOgTags, Table.contains tag m.ogTags = false
  twitterTags : ∃ tag ∈ requiredTwitterTags, Table.contains tag m.twitterTags = false
  canonical : m.canonical = false

theorem Consistent.issues_length (consistent : m.Consistent) :
    m.issues.length ≤ 5 ∧ (m.issues.length = 5 ↔ m.LacksAll) := by
  obtain ⟨titleLe, title⟩ := LengthRule.issues_length consistent.title
  obtain ⟨descriptionLe, description⟩ := LengthRule.issues_length consistent.description
  obtain ⟨ogLe, og⟩ := tagIssues_length "Missing Open Graph tags: "
    ["title", "description", "image", "url"] m.ogTags
  obtain ⟨twitterLe, twitter⟩ := tagIssues_length "Missing Twitter Card tags: "
    ["card", "title", "description", "image"] m.twitterTags
  obtain ⟨linkLe, link⟩ := linkIssues_length m.canonical
  have lacks : m.LacksAll ↔ LengthRule.title.Fails m.title ∧
      LengthRule.description.Fails m.description ∧
      (∃ tag ∈ requiredOgTags, Table.contains tag m.ogTags = false) ∧
      (∃ tag ∈ requiredTwitterTags, Table.contains tag m.twitterTags = false) ∧
      m.canonical = false :=
    ⟨fun h => ⟨h.title, h.description, h.ogTags, h.twitterTags, h.canonical⟩,
      fun ⟨h₁, h₂, h₃, h₄, h₅⟩ => ⟨h₁, h₂, h₃, h₄, h₅⟩⟩
  rw [lacks, ← title, ← description, requiredOgTags, ← og,
    requiredTwitterTags, ← twitter, ← link, consistent.issues]
  simp only [List.length_append]
  omega

end Metadata

namespace Coverage

/-- What a page costs the first category, in halves of a point. -/
def metaCost (p : Page) : Nat := if p.isCovered then p.metadata.issues.length else 4

theorem metaLoss_ofPages (pages : List Page) :
    (ofPages pages).metaLoss = totalOf metaCost pages := by
  have loss : (ofPages pages).metaLoss =
      totalOf (·.metadata.issues.length) (pages.filter (·.isCovered)) +
        4 * (pages.filter (!·.isCovered)).length := rfl
  rw [loss]
  clear loss
  induction pages with
  | nil => rfl
  | cons p pages ih =>
    rw [totalOf, ← ih, metaCost]
    cases covered : p.isCovered with
    | true =>
      rw [List.filter_cons_of_pos covered, List.filter_cons_of_neg (by simp [covered]), totalOf,
        if_pos rfl, Nat.add_assoc]
    | false =>
      rw [List.filter_cons_of_neg (by simp [covered]), List.filter_cons_of_pos (by simp [covered]),
        List.length_cons, if_neg Bool.false_ne_true]
      omega

/-- An uncovered page that is replaced by a covered one gives its four halves back for the
issues of the other. -/
theorem metaLoss_set {pages : List Page} {i : Nat} {p q : Page} (at_ : pages[i]? = some p)
    (uncovered : p.isCovered = false) (covered : q.isCovered) :
    (ofPages (pages.set i q)).metaLoss + 4 = (ofPages pages).metaLoss +
      q.metadata.issues.length := by
  have costs := totalOf_set (f := metaCost) at_ q
  rwa [metaCost, metaCost, uncovered, covered, if_neg Bool.false_ne_true, if_pos rfl,
    ← metaLoss_ofPages, ← metaLoss_ofPages] at costs

end Coverage

namespace Findings

theorem metaTags_score {pages : List Page} (some_page : pages ≠ []) (sitemap : Sitemap)
    (robots : Option Robots) :
    (Findings.category ⟨.ofPages pages, sitemap, robots⟩ .metaTags).score.toRat? =
      some (((40 - (Coverage.ofPages pages).metaLoss : Nat) : Rat) / 2) := by
  rw [category_of_pages (Coverage.ofPages_size_ne_zero some_page)]
  exact (Coverage.ofPages pages).metaCategory_halves.toRat?

/-- A document whose page is uncovered is replaced by one whose page is covered, whichever
evaluator that one is analysed with; the other pages stay. The points of the first category do
not go down, unless the new record lacks all: then half a point is lost, if there is one left. -/
theorem covering_keeps_metaTags {docs : List Document} {pages : List Page}
    {evaluator other : Option Document.Evaluator} {i : Nat} {p q : Page} {d : Document}
    (analyzed : docs.mapM (·.analyze evaluator) = .ok pages) (at_ : pages[i]? = some p)
    (uncovered : p.isCovered = false) (analysis : d.analyze other = .ok q)
    (covered : q.isCovered) (sitemap sitemap' : Sitemap) (robots robots' : Option Robots) :
    let before : Findings := ⟨.ofPages pages, sitemap, robots⟩
    let after : Findings := ⟨.ofPages (pages.set i q), sitemap', robots'⟩
    (other = evaluator → (docs.set i d).mapM (·.analyze evaluator) = .ok (pages.set i q)) ∧
    before.card = .ok before.score ∧ after.card = .ok after.score ∧
    ∃ x y : Rat, (before.category .metaTags).score.toRat? = some x ∧
      (after.category .metaTags).score.toRat? = some y ∧
      (q.metadata.LacksAll ∧ 0 < x → y = x - 1 / 2) ∧
      (¬ (q.metadata.LacksAll ∧ 0 < x) → x ≤ y) := by
  intro before after
  have some_page : pages ≠ [] := by
    rintro rfl
    cases at_
  have some_later : pages.set i q ≠ [] := by simpa using some_page
  have first : ∀ p ∈ pages, p.CountsImages := fun p member => by
    obtain ⟨d, -, analysis⟩ := exists_of_mem_mapM analyzed member
    exact (Document.analyze_describes analysis).countsImages
  have second : ∀ p ∈ pages.set i q, p.CountsImages := fun p member =>
    (List.mem_or_eq_of_mem_set member).elim (first p) fun same =>
      same ▸ (Document.analyze_describes analysis).countsImages
  refine ⟨fun same => mapM_set analyzed (same ▸ analysis) i,
    card_eq_score (.of_pages first sitemap robots),
    card_eq_score (.of_pages second sitemap' robots'),
    _, _, metaTags_score some_page sitemap robots, metaTags_score some_later sitemap' robots', ?_⟩
  have loss := Coverage.metaLoss_set at_ uncovered covered
  obtain ⟨few, lacks⟩ := (Document.analyze_describes analysis).record.1.issues_length
  rw [← lacks]
  generalize (Coverage.ofPages pages).metaLoss = l at loss ⊢
  generalize (Coverage.ofPages (pages.set i q)).metaLoss = l' at loss ⊢
  have left : (0 : Rat) < ((40 - l : Nat) : Rat) / 2 ↔ l < 40 := by
    rw [div_pos_iff_of_pos_right (by norm_num), Nat.cast_pos]
    omega
  rw [left]
  constructor
  · rintro ⟨five, below⟩
    have value : 40 - l = (40 - l') + 1 := by omega
    rw [value]
    push_cast
    ring
  · intro kept
    have fewer : 40 - l ≤ 40 - l' := by omega
    exact div_le_div_of_nonneg_right (by exact_mod_cast fewer) (by norm_num)

def silentDocument : Document := { bareDocument with text := "" }

theorem silent_and_bare_points :
    ∃ p q, [silentDocument].mapM (·.analyze none) = .ok [p] ∧ p.isCovered = false ∧
      bareDocument.analyze none = .ok q ∧ q.isCovered = true ∧ q.metadata.issues.length = 5 ∧
      (category ⟨.ofPages [p], {}, none⟩ .metaTags).score.toRat? = some 18 ∧
      (category ⟨.ofPages [q], {}, none⟩ .metaTags).score.toRat? = some (35 / 2) := by
  have blank : (silentDocument.analyze none).map (fun page =>
      (page.isCovered, (category ⟨.ofPages [page], {}, none⟩ .metaTags).score.toRat?)) =
        .ok (false, some 18) := by
    decide +kernel
  have bare : (bareDocument.analyze none).map (fun page =>
      (page.isCovered, page.metadata.issues.length,
        (category ⟨.ofPages [page], {}, none⟩ .metaTags).score.toRat?)) =
        .ok (true, 5, some (35 / 2)) := by
    decide +kernel
  obtain ⟨p, analyzed, found⟩ := Document.exists_page_of_check blank
  obtain ⟨q, analysis, later⟩ := map_eq_ok_iff.mp bare
  simp only [Prod.mk.injEq] at found later
  exact ⟨p, q, analyzed, found.1, analysis, later.1, later.2.1, found.2, later.2.2⟩

theorem bareDocument_costs_half :
    ∃ p q, [silentDocument].mapM (·.analyze none) = .ok [p] ∧ p.isCovered = false ∧
      bareDocument.analyze none = .ok q ∧ q.isCovered ∧ q.metadata.LacksAll ∧
      ∃ x y : Rat, (category ⟨.ofPages [p], {}, none⟩ .metaTags).score.toRat? = some x ∧
        (category ⟨.ofPages [q], {}, none⟩ .metaTags).score.toRat? = some y ∧
          y = x - 1 / 2 := by
  obtain ⟨p, q, analyzed, uncovered, analysis, covered, five, points, -⟩ :=
    silent_and_bare_points
  have lacks := (Document.analyze_describes analysis).record.1.issues_length.2.mp five
  obtain ⟨-, -, -, x, y, before, after, costs, -⟩ :=
    covering_keeps_metaTags analyzed (i := 0) rfl uncovered analysis covered {} {} none none
  have some_left : 0 < x := by
    rw [Option.some.inj (before.symm.trans points)]
    norm_num
  exact ⟨p, q, analyzed, uncovered, analysis, covered, lacks, x, y, before, after,
    costs ⟨lacks, some_left⟩⟩

/-- So a page that is covered does not always keep the score. -/
theorem covering_may_cost :
    ¬ ∀ (docs : List Document) (evaluator : Option Document.Evaluator) (i : Nat) (d : Document)
      (pages later : List Page) (p q : Page), docs.mapM (·.analyze evaluator) = .ok pages →
      (docs.set i d).mapM (·.analyze evaluator) = .ok later →
      docs[i]?.map (·.name) = some d.name → pages[i]? = some p → p.isCovered = false →
      later[i]? = some q → q.isCovered →
      ∀ (sitemap : Sitemap) (robots : Option Robots),
        Number.AtMost (category ⟨.ofPages pages, sitemap, robots⟩ .metaTags).score
          (category ⟨.ofPages later, sitemap, robots⟩ .metaTags).score := by
  intro law
  obtain ⟨p, q, analyzed, uncovered, analysis, covered, -, before, after⟩ :=
    silent_and_bare_points
  have later : ([silentDocument].set 0 bareDocument).mapM (·.analyze none) = .ok [q] :=
    mapM_set analyzed analysis 0
  obtain ⟨x, y, first, second, le⟩ :=
    law [silentDocument] none 0 bareDocument [p] [q] p q analyzed
    later rfl rfl uncovered rfl covered {} none
  rw [Option.some.inj (first.symm.trans before), Option.some.inj (second.symm.trans after)] at le
  exact absurd le (by norm_num)

end Findings
end SeoAudit
