import SeoAudit.Json.Writer
import SeoAudit.Report.Basic

/-! The report as a JSON value, and the indented document printed of it. -/
namespace SeoAudit

def nullable (s : Option Text) : Json := Json.ofOption Json.string s

def Json.ofLists (t : Table (List Text)) : Json :=
  .object (t.map fun (key, texts) => (key, Json.strings texts))

def Category.toJson (c : Category) : Json := .object [
  ("key", .string c.key), ("name", .string c.name), ("score", .number c.score),
  ("max_score", .number c.maxScore), ("issues", Json.strings c.issues),
  ("percentage", .whole c.percentage)]

def Parameters.toJson (p : Parameters) : Json := .object [
  ("title", nullable p.title), ("description", nullable p.description), ("image", nullable p.image),
  ("collections", .object (p.collections.map fun (name, count) => (name, .whole count))),
  ("flags", Json.strings p.flags)]

def tagsToJson (tags : Table Bool) : Json :=
  .object (tags.map fun (tag, there) => (tag, .bool there))

def Metadata.toJson (m : Metadata) : Json := .object [
  ("title", nullable m.title), ("title_length", Json.whole m.titleLength),
  ("title_band", nullable m.titleBand), ("description", nullable m.description),
  ("description_length", Json.whole m.descriptionLength),
  ("description_band", nullable m.descriptionBand),
  ("og_tags", tagsToJson m.ogTags), ("twitter_tags", tagsToJson m.twitterTags),
  ("canonical", .bool m.canonical), ("schemas", Json.strings (m.schemas.map Schema.label)),
  ("image", nullable m.image), ("og_image", nullable m.ogImage), ("issues", Json.strings m.issues),
  ("source", .string m.source)]

def Headings.toJson (h : Headings) : Json := .object [
  ("h1_count", Json.whole h.topCount), ("levels", .array (h.levels.map Json.whole)),
  ("issues", Json.strings h.issues)]

def Images.toJson (i : Images) : Json := .object [
  ("total", Json.whole i.total), ("with_alt", Json.whole i.withAlt),
  ("without_alt", Json.whole i.withoutAlt), ("lazy", Json.whole i.lazyCount),
  ("issues", Json.strings i.issues)]

def Page.toJson (p : Page) : Json := .object [
  ("path", .string p.path), ("name", .string p.name),
  ("uses_generate_seo", .bool p.callsGenerator), ("uses_seo_meta", .bool p.callsSeoMeta),
  ("uses_head", .bool p.callsHead), ("metadata", p.metadata.toJson),
  ("headings", p.headings.toJson), ("images", p.images.toJson),
  ("params", Json.ofOption Parameters.toJson p.params), ("sandbox_note", nullable p.note),
  ("has_seo", .bool p.isCovered), ("url", .string p.url)]

def Sitemap.toJson (s : Sitemap) : Json := .object [
  ("source", nullable s.source), ("listed", Json.strings s.listed),
  ("missing", Json.strings s.missing)]

def Robots.toJson (r : Robots) : Json := .object [
  ("configured", .bool r.configured), ("source", nullable r.source), ("message", .string r.message),
  ("has_environment_rules", .bool r.hasEnvironmentRules)]

namespace Report

def toJson (r : Report) : Json := .object [
  ("project", .string r.project), ("pages_dir", .string r.pagesDir),
  ("score", .number r.totalScore), ("max_score", .number r.maxScore),
  ("percentage", .whole r.percentage), ("categories", .array (r.categories.map Category.toJson)),
  ("pages_with_seo", .array (r.covered.map Page.toJson)),
  ("pages_without_seo", .array (r.uncovered.map Page.toJson)),
  ("image_usage", Json.ofLists r.imageUsage.entries),
  ("duplicate_images", Json.ofLists r.imageUsage.shared),
  ("pages_without_image", Json.strings r.withoutImage), ("sitemap", r.sitemap.toJson),
  ("robots", r.robots.toJson),
  ("images", .object [("total", Json.whole r.totalImages),
    ("without_alt", Json.whole r.imagesWithoutAlt)]),
  ("recommendations", Json.strings r.recommendations), ("quick_fixes", Json.strings r.quickFixes),
  ("warnings", Json.strings r.warnings), ("errors", Json.strings r.errors)]

def jsonText (r : Report) : Text := r.toJson.document

end Report
end SeoAudit
