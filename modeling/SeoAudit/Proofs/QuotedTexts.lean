import SeoAudit.Proofs.CallGrammar
import SeoAudit.Proofs.StaticFallback

/-! Quoted texts in a call and in its page. The page is searched for a title or description
as a whole, the block of the call on its own. Both finds are the same where the page does not
name the field before the block: every search that starts in front of the quoted text of the
block sees two quotes, so it ends inside the block or not at all. -/
namespace SeoAudit

namespace NamedField
open Text
variable {name s : Text}

theorem countP_skipBlanks (s : Text) : (skipBlanks s).countP isQuote = s.countP isQuote := by
  obtain ⟨w, blank, same⟩ := exists_blanks s
  have none : w.countP isQuote = 0 := by
    rw [List.countP_eq_zero]
    intro c member quote
    have visible := isBlank_eq_false_of_isQuote quote
    rw [blank c member] at visible
    cases visible
  nth_rewrite 2 [same]
  rw [List.countP_append, none, Nat.zero_add]

section Append
variable (u : Text)

theorem quoted_append (quotes : 1 < s.countP isQuote) :
    quoted (s ++ u) = (quoted s).map fun (v, rest) => (v, rest ++ u) := by
  cases s with
  | nil => cases quotes
  | cons q s =>
    by_cases opens : isQuote q
    · rw [List.countP_cons_of_pos opens] at quotes
      have free : ∀ c ∈ s.takeWhile (!isQuote ·), !isQuote c := fun c => List.mem_takeWhile_imp
      cases left : s.dropWhile (!isQuote ·) with
      | nil =>
        obtain ⟨c, member, quote⟩ := List.countP_pos_iff.mp (Nat.lt_of_succ_lt_succ quotes)
        have plain := List.dropWhile_eq_nil_iff.mp left c member
        simp [quote] at plain
      | cons d t =>
        obtain ⟨closes, same⟩ := split_at_quote left
        rw [same, quoted_of_free opens closes free, List.cons_append, List.append_assoc,
          List.cons_append, quoted_of_free opens closes free]
        rfl
    · rw [List.cons_append, quoted, quoted, if_neg opens, if_neg opens]
      rfl

theorem text_append (clean : ∀ c ∈ (name ++ ":" : Text), !isQuote c)
    (quotes : 1 < s.countP isQuote) :
    NamedField.text name (s ++ u) = (NamedField.text name s).map fun (v, rest) =>
      (v, rest ++ u) := by
  obtain ⟨c, member, quote⟩ := List.countP_pos_iff.mp (Nat.zero_lt_of_lt quotes)
  have free : c ∉ (name ++ ":" : Text) := fun inName => by simpa [quote] using clean c inName
  rw [NamedField.text, NamedField.text, start, start, after?_append member free]
  cases named : after? (name ++ ":") s with
  | none => rfl
  | some t =>
    have none : (name ++ ":" : Text).countP isQuote = 0 := by
      rw [List.countP_eq_zero]
      intro c member
      simpa using clean c member
    rw [after?_eq_some.mp named] at quotes member
    rw [List.countP_append, none, Nat.zero_add] at quotes
    have behind : c ∈ t := (List.mem_append.mp member).resolve_left free
    have skipped : skipBlanks (t ++ u) = skipBlanks t ++ u :=
      skipBlanks_append behind (by simp [isBlank_eq_false_of_isQuote quote])
    rw [← countP_skipBlanks] at quotes
    have read := quoted_append u quotes
    simpa [skipped] using read

theorem skips_text_append {w : Text} (clean : ∀ c ∈ (name ++ ":" : Text), !isQuote c)
    (quotes : 1 < s.countP isQuote) (skips : Skips (NamedField.text name) w s) :
    Skips (NamedField.text name) w (s ++ u) := by
  induction w with
  | nil => trivial
  | cons c w ih =>
    have more : 1 < (c :: (w ++ s)).countP isQuote :=
      quotes.trans_le (((List.suffix_append w s).trans (List.suffix_cons c _)).sublist.countP_le)
    have extended := text_append u clean more
    rw [skips.1, List.cons_append, List.append_assoc] at extended
    exact ⟨extended, ih skips.2⟩

end Append
end NamedField

namespace Parameters
open Text NamedField
variable {page name value : Text}

theorem text?_of_part {front part back : Text} (clean : ∀ c ∈ (name ++ ":" : Text), !isQuote c)
    (before : Skips (NamedField.text name) front (part ++ back))
    (found : text? name part = some value) :
    text? name (front ++ (part ++ back)) = some value := by
  obtain ⟨⟨_, rest⟩, first, rfl⟩ := Option.map_eq_some_iff.mp found
  obtain ⟨⟨skipped, _⟩, place, rfl⟩ := Option.map_eq_some_iff.mp first
  obtain ⟨s, rfl, skips, here⟩ := eq_append_of_upTo place
  have quotes : 1 < s.countP isQuote := by
    obtain ⟨t, q, d, opens, closes, rfl⟩ := exists_quotes_of_text here
    simp only [List.countP_append, List.countP_cons_of_pos opens, List.countP_cons_of_pos closes]
    omega
  have inside := skips_text_append back clean quotes skips
  have extended := text_append back clean quotes
  rw [here] at extended
  rw [text?, before.findFirst_append, List.append_assoc, inside.findFirst_append,
    findFirst_of_some extended]
  rfl

theorem FirstCall.text?_page (c : FirstCall page)
    (clean : ∀ c ∈ (name ++ ":" : Text), !isQuote c)
    (fresh : ∀ n < c.start, ¬ (name ++ ":" : Text) <+: page.drop n)
    (found : text? name c.block = some value) : text? name page = some value := by
  have split : page = (c.before ++ c.opening) ++ (c.block ++ (c.closing ++ c.after)) := by
    rw [List.append_assoc]
    exact c.page_eq
  have before : Skips (NamedField.text name) (c.before ++ c.opening)
      (c.block ++ (c.closing ++ c.after)) := by
    rw [skips_iff, ← split, List.length_append]
    exact fun n inside => start_beginsWith name quoted _ (fresh n inside)
  rw [split]
  exact text?_of_part clean before found

end Parameters

theorem Metadata.exists_static_record {output : Option Members}
    (static : output.bind entries? = none) (page : Text) (params : Option Parameters)
    (declared : Bool) : ∃ schemas image,
      normalize page params output declared =
        .ok { ofFacts .static (factsOfText page declared) with schemas, image } := by
  rw [normalize_withoutEntries static]
  exact ⟨_, _, rfl⟩

namespace Parameters
open Text NamedField

/-- A page with parameters has a first call. Without meta entries, its title and description
are those of the call if neither name stands in the page before the block of the call. -/
theorem static_texts_agree {page : Text} {p : Parameters} (found : ofText? page = some p) :
    Nonempty (FirstCall page) ∧
    ∀ (c : FirstCall page) (output : Option Members), output.bind Metadata.entries? = none →
      ∀ params declared, ∃ record, Metadata.normalize page params output declared =
        .ok record ∧
        (∀ title, p.title = some title →
          (∀ n < c.start, ¬ ("title:" : Text) <+: page.drop n) → record.title = some title) ∧
        ∀ description, p.description = some description →
          (∀ n < c.start, ¬ ("description:" : Text) <+: page.drop n) →
          record.description = some description := by
  obtain ⟨block, first, rfl⟩ := Option.map_eq_some_iff.mp found
  obtain ⟨located, -⟩ := exists_firstCall first
  refine ⟨⟨located⟩, fun c output static params declared => ?_⟩
  obtain ⟨schemas, image, normal⟩ := Metadata.exists_static_record static page params declared
  have one : c.block = block := Option.some.inj (c.callBlock?_eq.symm.trans first)
  subst one
  refine ⟨_, normal, fun title given fresh => ?_, fun description given fresh => ?_⟩
  · exact c.text?_page (by decide) fresh given
  · exact c.text?_page (by decide) fresh given

def shopPage : Text :=
  ("f(generateSEO(\x7b title: x, in: \x7b title: 'Oak' \x7d, " : Text) ++
    "description: \"Oak's\" \x7d)) // title: 'y'"

def shopCall : FirstCall shopPage where
  before := "f("
  opening := generatorName ++ "(\x7b"
  block := " title: x, in: \x7b title: 'Oak' \x7d, description: \"Oak's\" "
  closing := "\x7d)"
  after := ") // title: 'y'"
  isOpening := isOpening_unspaced
  isClosing := isClosing_unspaced
  page_eq := by decide +kernel
  leftmost n inside := by
    rw [← call_eq_none_iff]
    revert n
    decide +kernel
  shortest n inside := by
    rw [← callEnd_eq_none_iff]
    revert n
    decide +kernel

theorem shopPage_texts_agree :
    let oak : Text := "Oak"
    ofText? shopPage = some { title := some oak, description := some oak } ∧
      (none : Option Members).bind Metadata.entries? = none ∧
      (∀ n < shopCall.start, ¬ ("title:" : Text) <+: shopPage.drop n) ∧
      (∀ n < shopCall.start, ¬ ("description:" : Text) <+: shopPage.drop n) ∧
      ∃ record, Metadata.normalize shopPage none none true = .ok record ∧
        record.title = some oak ∧ record.description = some oak := by
  intro oak
  have found : ofText? shopPage = some { title := some oak, description := some oak } := by
    decide +kernel
  have titles : ∀ n < shopCall.start, ¬ ("title:" : Text) <+: shopPage.drop n := by
    decide +kernel
  have descriptions : ∀ n < shopCall.start, ¬ ("description:" : Text) <+: shopPage.drop n := by
    decide +kernel
  obtain ⟨record, normal, title, description⟩ :=
    (static_texts_agree found).2 shopCall none rfl none true
  exact ⟨found, rfl, titles, descriptions, record, normal, title oak rfl titles,
    description oak rfl descriptions⟩

end Parameters
end SeoAudit
