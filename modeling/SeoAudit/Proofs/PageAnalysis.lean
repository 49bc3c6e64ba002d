import SeoAudit.Page.Analysis
import SeoAudit.Proofs.Improvement
import SeoAudit.Proofs.RecordConsistency

/-! What the analysis of a document fixes about its page, whatever the evaluator does.
Marks, headings and images are those of the text, and the metadata is normalised with
the parameters of the call. The evaluator is never asked for an uncovered page, so its
record is the one of the text alone. -/
namespace SeoAudit

theorem Images.ofText_counts (text : Text) :
    0 ≤ (ofText text).withoutAlt ∧ (ofText text).withoutAlt ≤ (ofText text).total := by
  unfold ofText
  cases Markup.region? text with
  | none => exact ⟨Int.le_refl 0, Int.le_refl 0⟩
  | some region =>
    have within : (tags region).countP (!hasAlt ·) ≤ (tags region).length :=
      List.countP_le_length
    exact ⟨Int.natCast_nonneg _, Int.ofNat_le.mpr within⟩

namespace Document
variable {d : Document} {p : Page} {evaluator : Option Evaluator}
  {evaluation : Option Generator.Evaluation}

def isCovered (d : Document) : Bool := (d.callsGenerator || d.callsSeoMeta) && d.callsHead

/-- The page has what the document alone decides, and metadata normalised for it. -/
structure Describes (d : Document) (p : Page) : Prop where
  path : p.path = d.path
  name : p.name = d.name
  callsGenerator : p.callsGenerator = d.callsGenerator
  callsSeoMeta : p.callsSeoMeta = d.callsSeoMeta
  callsHead : p.callsHead = d.callsHead
  headings : p.headings = Headings.ofText d.text
  images : p.images = Images.ofText d.text
  params : p.params = d.params?
  metadata : ∃ output,
    Metadata.normalize d.text d.params? output d.callsGenerator = .ok p.metadata

theorem Describes.isCovered (describes : d.Describes p) : p.isCovered = d.isCovered := by
  rw [Page.isCovered, describes.callsGenerator, describes.callsSeoMeta, describes.callsHead]
  rfl

theorem Describes.record (describes : d.Describes p) :
    p.metadata.Consistent ∧ p.metadata.ogTags.AllPresent ∧
      p.metadata.twitterTags.AllPresent := by
  obtain ⟨output, normal⟩ := describes.metadata
  rcases Metadata.normalize_cases d.text d.params? output d.callsGenerator with
    ⟨source, f, schemas, image, all, record_eq⟩ | ⟨error, -, error_eq⟩
  · rw [record_eq] at normal
    rw [← Except.ok.inj normal]
    exact ⟨Metadata.ofFacts_consistent all source schemas image, all.ogTags, all.twitterTags⟩
  · rw [error_eq] at normal
    cases normal

theorem Describes.countsImages (describes : d.Describes p) : p.CountsImages := by
  rw [Page.CountsImages, describes.images]
  exact Images.ofText_counts d.text

theorem page_describes (made : d.page evaluation = .ok p) : d.Describes p := by
  obtain ⟨metadata, normal, rfl⟩ := map_eq_ok_iff.mp made
  exact ⟨rfl, rfl, rfl, rfl, rfl, rfl, rfl, rfl, _, normal⟩

theorem analyze_eq_ok_iff : d.analyze evaluator = .ok p ↔
    ∃ evaluation, d.evaluation? evaluator = .ok evaluation ∧ d.page evaluation = .ok p := by
  simp only [analyze, bind_eq_ok_iff, mapError_eq_ok_iff]

theorem analyze_describes (analyzed : d.analyze evaluator = .ok p) : d.Describes p := by
  obtain ⟨evaluation, -, made⟩ := analyze_eq_ok_iff.mp analyzed
  exact page_describes made

theorem requested?_uncovered (uncovered : d.isCovered = false) : d.requested? = none := by
  unfold requested? params?
  cases head : d.callsHead with
  | false => rfl
  | true =>
    -- Only the missing generator call keeps such a page uncovered, so it has no parameters.
    have silent : d.callsGenerator = false := by
      simp only [isCovered, head, Bool.and_true, Bool.or_eq_false_iff] at uncovered
      exact uncovered.1
    rw [silent]
    rfl

theorem evaluation?_uncovered (uncovered : d.isCovered = false) :
    d.evaluation? evaluator = .ok none := by
  unfold evaluation?
  rw [requested?_uncovered uncovered]
  cases evaluator <;> rfl

def staticSchemas (d : Document) : List Schema :=
  if d.callsGenerator then
    match Parameters.ofText? d.text with
    | some params => Schema.ofParameters params
    | none => Schema.ofHints d.text
  else []

theorem normalize_static_schemas {m : Metadata}
    (normal : Metadata.normalize d.text d.params? none d.callsGenerator = .ok m) :
    m.schemas = d.staticSchemas := by
  cases normal
  rw [staticSchemas, params?]
  cases d.callsGenerator with
  | false => rfl
  | true =>
    cases Parameters.ofText? d.text with
    | none => rfl
    | some params => rfl

theorem analyze_uncovered_schemas (analyzed : d.analyze evaluator = .ok p)
    (uncovered : p.isCovered = false) : p.metadata.schemas = d.staticSchemas := by
  rw [(analyze_describes analyzed).isCovered] at uncovered
  obtain ⟨evaluation, asked, made⟩ := analyze_eq_ok_iff.mp analyzed
  rw [evaluation?_uncovered uncovered] at asked
  cases asked
  rw [page, pageWith] at made
  obtain ⟨metadata, normal, rfl⟩ := map_eq_ok_iff.mp made
  exact normalize_static_schemas normal

theorem exists_page_of_check {γ : Type} {check : Page → γ} {value : γ}
    (checked : (d.analyze evaluator).map check = .ok value) :
    ∃ page, [d].mapM (·.analyze evaluator) = .ok [page] ∧ check page = value := by
  obtain ⟨page, analysis, same⟩ := map_eq_ok_iff.mp checked
  refine ⟨page, ?_, same⟩
  rw [List.mapM_cons, analysis]
  rfl

end Document
end SeoAudit
