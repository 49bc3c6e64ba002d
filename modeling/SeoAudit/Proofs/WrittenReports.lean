import SeoAudit.Proofs.CardShape
import SeoAudit.Proofs.IndentedJson
import SeoAudit.Report.Json

/-! The document that a report is printed as: in ASCII, and decoded to the value of the report.
Reports nest five arrays and objects deep, and their only fractions are scores and sums of
scores. -/
namespace SeoAudit

namespace Json
variable {depth : Nat}

@[simp] theorem regular_whole (n : Int) : (whole n).Regular depth := regular_number.mpr trivial

@[simp] theorem regular_strings (texts : List Text) : (strings texts).Regular (depth + 1) := by
  simp [strings]

theorem regular_ofOption {α : Type} {f : α → Json} (each : ∀ a, (f a).Regular depth) :
    ∀ o : Option α, (ofOption f o).Regular depth
  | none => regular_null
  | some a => each a

@[simp] theorem regular_nullable (s : Option Text) : (nullable s).Regular depth :=
  regular_ofOption (fun _ => regular_string) s

theorem regular_table {α : Type} {f : α → Json} (each : ∀ a, (f a).Regular depth)
    (t : Table α) :
    (object (t.map fun (key, a) => (key, f a))).Regular (depth + 1) := by
  intro member listed
  obtain ⟨⟨key, a⟩, -, rfl⟩ := List.mem_map.mp listed
  exact each a

@[simp] theorem regular_ofLists (t : Table (List Text)) : (ofLists t).Regular (depth + 2) :=
  regular_table regular_strings t

theorem regular_tags (tags : Table Bool) : (tagsToJson tags).Regular (depth + 1) :=
  regular_table (f := bool) (fun _ => regular_bool) tags

end Json

section Records
open Json

theorem Parameters.toJson_regular (p : Parameters) : p.toJson.Regular 2 := by
  have collections := @regular_table 0 _ _ regular_whole p.collections
  simp [toJson, collections]

theorem Page.toJson_regular (p : Page) : p.toJson.Regular 3 := by
  have levels : (Json.array (p.headings.levels.map Json.whole)).Regular 1 := by simp
  simp [toJson, Metadata.toJson, regular_tags, Headings.toJson, levels, Images.toJson,
    regular_ofOption Parameters.toJson_regular]

theorem Category.toJson_regular {c : Category} (score : c.score.Genuine)
    (maxScore : c.maxScore.Genuine) :
    c.toJson.Regular 2 := by
  simp [toJson, score, maxScore]

theorem Report.toJson_regular {r : Report}
    (scores : ∀ c ∈ r.categories, c.score.Genuine ∧ c.maxScore.Genuine) :
    r.toJson.Regular 5 := by
  have total : r.totalScore.Genuine := Number.genuine_sum fun n listed => by
    obtain ⟨c, member, rfl⟩ := List.mem_map.mp listed
    exact (scores c member).1
  have most : r.maxScore.Genuine := Number.genuine_sum fun n listed => by
    obtain ⟨c, member, rfl⟩ := List.mem_map.mp listed
    exact (scores c member).2
  have categories (c : Category) (member : c ∈ r.categories) : c.toJson.Regular 3 :=
    (Category.toJson_regular (scores c member).1 (scores c member).2).mono (by decide)
  simpa [toJson, Sitemap.toJson, Robots.toJson, total, most, Page.toJson_regular] using categories

end Records

namespace Report
open Text

/-- The scores of an audit are wholes and halves. -/
theorem Shows.scores_genuine {r : Report} {f : Findings} (shows_ : r.Shows f) :
    ∀ c ∈ r.categories, c.score.Genuine ∧ c.maxScore.Genuine := by
  intro c member
  obtain ⟨a, rfl⟩ := shows_.exists_area member
  obtain ⟨k, le, value⟩ := (f.category_wellShaped a).score
  refine ⟨Number.genuine_of_toRat? (k := k) (by rw [value, Int.cast_natCast]) ?_, ?_⟩
  · rw [abs_of_nonneg (Int.natCast_nonneg k)]
    omega
  · rw [f.category_maxScore]
    trivial

/-- Decoding the printed document gives the value of the report, whatever its texts say and
whether its scores are wholes, halves or other binary values. It is printed as long as no whole
number exceeds the limit of digits; and two halves of a pair in their order would be one
character. -/
theorem jsonText_decodes {r : Report} (plain : r.toJson.Throughout Json.Plain)
    (scores : ∀ c ∈ r.categories, c.score.Genuine ∧ c.maxScore.Genuine) :
    (∃ v, Json.read r.jsonText = .ok v ∧ Json.Same r.toJson v) ∧
      ∀ c ∈ r.jsonText, c.code < 0x80 := by
  refine ⟨⟨r.toJson.sortKeys, ?_, Json.same_sortKeys plain⟩,
    Json.ascii_lines r.toJson.sortKeys 0⟩
  have regular : r.toJson.Regular Json.depthLimit := (toJson_regular scores).mono (by decide)
  exact (Json.reads_lines regular plain 0).read

def samplePage : Page where
  path := "index.vue"
  name := "index"
  callsGenerator := true
  callsSeoMeta := false
  callsHead := true
  metadata := {
    title := some "\"Oak\"\n\\ étage", titleLength := 13
    ogTags := [("title", true)], image := some "/🌳.png" }
  headings := { topCount := 1, levels := [1, 2] }
  images := { total := 1, withoutAlt := 1 }

def sampleReport : Report where
  project := "oak"
  pagesDir := "app/pages"
  categories := [{ key := "meta_tags", name := "Meta Tags", score := .fraction (.number (35 / 2)) },
    { key := "images_media", name := "Images & Media", score := 20 }]
  covered := [samplePage]
  uncovered := []
  imageUsage := { entries := [("/🌳.png", ["index"])] }
  withoutImage := []
  sitemap := {}
  robots := {}
  warnings := [[.half ⟨0xDF33, by decide⟩, .half ⟨0xD83C, by decide⟩]]

theorem sampleReport_decodes :
    (∃ v, Json.read sampleReport.jsonText = .ok v ∧ Json.Same sampleReport.toJson v) ∧
      ∀ c ∈ sampleReport.jsonText, c.code < 0x80 :=
  jsonText_decodes (by decide +kernel) (by decide +kernel)

end Report
end SeoAudit
