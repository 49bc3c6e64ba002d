import SeoAudit.Audit
import SeoAudit.Proofs.LeftmostFinds

/-! Sitemap sources that are written out: location entries, between texts in which no
location begins. A URL may hold what begins a location, since the search goes on behind its
closing quote. Reading gives the URLs that are no images; the slash that it takes off plays no
part when they are compared with the pages. -/
namespace SeoAudit
open Text NamedField

structure WrittenLocation where
  blanks : Text := []
  opening : CodePoint
  url : Text
  closing : CodePoint
  areBlank : ∀ c ∈ blanks, c.isBlank
  areQuotes : isQuote opening ∧ isQuote closing
  isFilled : url ≠ []
  isFree : ∀ c ∈ url, !isQuote c

namespace WrittenLocation

def text (l : WrittenLocation) : Text :=
  "loc:" ++ (l.blanks ++ (l.opening :: (l.url ++ [l.closing])))

end WrittenLocation

structure WrittenSitemap where
  lead : Text
  entries : List (WrittenLocation × Text)
  isApart : ∀ s ∈ lead :: entries.map (·.2), ¬ ("loc:" : Text) <:+: s

namespace WrittenSitemap

def text (w : WrittenSitemap) : Text :=
  w.lead ++ w.entries.flatMap fun (l, behind) => l.text ++ behind

def urls (w : WrittenSitemap) : List Text := w.entries.map (·.1.url)

end WrittenSitemap

namespace Sitemap

def imageMarkers : List Text := ["/img/", ".png", ".jpg"]

def IsPlain (url : Text) : Prop := ∀ marker ∈ imageMarkers, ¬ marker <:+: url

instance (url : Text) : Decidable (IsPlain url) :=
  inferInstanceAs (Decidable (∀ marker ∈ imageMarkers, ¬ marker <:+: url))

theorem isImage_eq (url : Text) : (!isImage url) = decide (IsPlain url) := by
  rw [Bool.eq_iff_iff, decide_eq_true_iff]
  simp only [isImage, anyOf, IsPlain, imageMarkers, Bool.not_eq_true', List.any_eq_false,
    occursIn_iff]

theorem bare_withoutSlash (url : Text) : bare (withoutSlash url) = bare url := by
  unfold withoutSlash
  split
  · rfl
  · rfl

theorem location_beginsWith : BeginsWith "loc:" location := by
  intro s differs
  have nowhere : (start "loc" s >>= quoted) = none := start_beginsWith "loc" quoted s differs
  rw [location, nowhere]
  rfl

theorem location_borderless : Borderless "loc:" := by
  unfold Borderless
  decide

theorem location_text (l : WrittenLocation) (u : Text) :
    location (l.text ++ u) = some (l.url, u) := by
  have visible : ¬ l.opening.isBlank := by
    have quote := l.areQuotes.1
    simp only [isQuote, Bool.or_eq_true, decide_eq_true_eq] at quote
    rcases quote with (same | same) | same <;> rw [same] <;> decide
  have begun : start "loc" (l.text ++ u) = some (l.opening :: (l.url ++ l.closing :: u)) := by
    have shape : l.text ++ u =
        "loc" ++ ":" ++ (l.blanks ++ l.opening :: (l.url ++ l.closing :: u)) := by
      simp [WrittenLocation.text, ofString, ofChars]
    rw [start, after?_eq_some.mpr shape, Option.map_some, skipBlanks,
      List.dropWhile_append_of_pos l.areBlank, List.dropWhile_cons_of_neg visible]
  rw [location, begun]
  show (quoted (l.opening :: (l.url ++ l.closing :: u)) >>= _) = _
  rw [quoted_of_free l.areQuotes.1 l.areQuotes.2 l.isFree]
  simp [l.isFilled]

theorem findAll_text (w : WrittenSitemap) : findAll location w.text = w.urls := by
  obtain ⟨lead, entries, apart⟩ := w
  unfold WrittenSitemap.text WrittenSitemap.urls
  induction entries generalizing lead with
  | nil =>
    have skips := location_beginsWith.skips_last (apart lead List.mem_cons_self)
    exact skips.findAll_append
  | cons entry rest ih =>
    obtain ⟨l, behind⟩ := entry
    obtain ⟨leadApart, restApart⟩ := List.forall_mem_cons.mp apart
    have skips (u : Text) : Skips location lead (l.text ++ u) := by
      rw [WrittenLocation.text, List.append_assoc]
      exact location_beginsWith.skips_of_borderless location_borderless leadApart _
    have filled : l.text ≠ [] := by simp [WrittenLocation.text, ofString, ofChars]
    rw [List.flatMap_cons, List.append_assoc, (skips _).findAll_append,
      findAll_of_some filled (location_text l _), ih behind restApart]
    rfl

theorem urls_text (w : WrittenSitemap) :
    urls w.text = (w.urls.filter (IsPlain ·)).map withoutSlash := by
  rw [urls, findAll_text]
  exact congrArg (List.map withoutSlash) (List.filter_congr fun url _ => isImage_eq url)

theorem missing_ofUrls (source : Option Text) (listed : List Text) (pages : List Page) :
    (ofUrls source listed (Coverage.ofPages pages)).missing =
      ((pages.filter Page.isCovered).filter fun p => ∀ entry ∈ listed,
        bare p.url ≠ bare entry).map
        Page.url := by
  show missingFrom listed (pages.filter Page.isCovered) = _
  rw [missingFrom]
  refine congrArg (List.map Page.url) (List.filter_congr fun p _ => ?_)
  rw [Bool.eq_iff_iff, decide_eq_true_iff]
  simp only [Bool.not_eq_true', List.contains_eq_mem, decide_eq_false_iff_not, List.mem_map,
    not_exists, not_and]
  exact forall₂_congr fun entry _ => ne_comm

/-- Of a sitemap that is written out the URLs that are no images are listed, in order, and
the covered pages are missing whose URL none of them equals but for slashes around it. So no
page is missing when each has its URL written. -/
theorem written_sitemap_is_compared {tree : Tree} {layout : Layout} {path : Path} {text : String}
    {w : WrittenSitemap} (placed : layout.sitemapFile = some path)
    (read : tree.readText path = .ok text) (written : (text : Text) = w.text)
    (source : Option Text) (pages : List Page) :
    let listed := (Audit.readSitemap tree layout).value
    let covered := pages.filter Page.isCovered
    let missing := (ofUrls source listed (Coverage.ofPages pages)).missing
    listed = (w.urls.filter (IsPlain ·)).map withoutSlash ∧
    missing = (covered.filter fun p => ∀ entry ∈ listed, bare p.url ≠ bare entry).map
    Page.url ∧
    ((∀ p ∈ covered, p.url ∈ w.urls ∧ IsPlain p.url) → missing = []) := by
  intro listed covered missing
  have reading : listed = (w.urls.filter (IsPlain ·)).map withoutSlash := by
    show (Audit.readSitemap tree layout).value = _
    rw [Audit.readSitemap, placed]
    simp only [read, written, urls_text]
  have compared := missing_ofUrls source listed pages
  refine ⟨reading, compared, fun all => ?_⟩
  refine compared.trans (List.map_eq_nil_iff.mpr (List.filter_eq_nil_iff.mpr fun p member => ?_))
  obtain ⟨isWritten, plain⟩ := all p member
  have entry : withoutSlash p.url ∈ listed := by
    rw [reading]
    exact List.mem_map_of_mem (List.mem_filter.mpr ⟨isWritten, decide_eq_true plain⟩)
  rw [decide_eq_true_iff]
  intro differs
  exact differs _ entry (bare_withoutSlash p.url).symm

def oakSitemap : WrittenSitemap where
  lead := "export default [\x7b "
  entries := [
    (⟨" ", '\'', "/loc:oak/", '\'', by decide, by decide, by decide, by decide⟩,
      " \x7d, \x7b "),
    (⟨"", '"', "/img/oak", '"', by decide, by decide, by decide, by decide⟩, " \x7d, \x7b "),
    (⟨"  ", '\x60', "about", '\x60', by decide, by decide, by decide, by decide⟩, " \x7d]")]
  isApart := by decide +kernel

def oakText : String :=
  "export default [\x7b loc: '/loc:oak/' \x7d, \x7b loc:\"/img/oak\" \x7d, " ++
    "\x7b loc:  \x60about\x60 \x7d]"

def oakTree : Tree := .directory [("sitemap.ts", .file oakText.toUTF8.toList)]

def oakLayout : Layout where
  root := { segments := [] }
  pagesDir := { segments := ["pages"] }
  sitemapFile := some { segments := ["sitemap.ts"] }

def oakPages : List Page :=
  (["about/index", "loc:oak", "img/oak"] : List Text).map (fun name =>
    { (default : Page) with name, callsSeoMeta := true, callsHead := true }) ++
  [{ (default : Page) with name := "gone" }]

theorem oakSitemap_is_compared :
    oakLayout.sitemapFile = some { segments := ["sitemap.ts"] } ∧
    oakTree.readText { segments := ["sitemap.ts"] } = .ok oakText ∧
    (oakText : Text) = oakSitemap.text ∧
    (Audit.readSitemap oakTree oakLayout).value = ["loc:oak/", "about"] ∧
    (ofUrls none (Audit.readSitemap oakTree oakLayout).value (Coverage.ofPages oakPages)).missing =
      ["/img/oak"] := by
  have read : oakTree.readText { segments := ["sitemap.ts"] } = .ok oakText := by decide +kernel
  have written : (oakText : Text) = oakSitemap.text := by decide +kernel
  have placed : oakLayout.sitemapFile = some { segments := ["sitemap.ts"] } := rfl
  obtain ⟨listed, missing, -⟩ := written_sitemap_is_compared placed read written none oakPages
  have two : (oakSitemap.urls.filter (IsPlain ·)).map withoutSlash = ["loc:oak/", "about"] := by
    decide +kernel
  rw [two] at listed
  rw [listed] at missing ⊢
  exact ⟨placed, read, written, rfl, missing.trans (by decide +kernel)⟩

end Sitemap
end SeoAudit
