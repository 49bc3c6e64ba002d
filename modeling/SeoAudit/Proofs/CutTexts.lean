import SeoAudit.Proofs.QuotedTexts
import SeoAudit.Proofs.WrittenCalls

/-! Quoted texts with quotes inside. A text ends at the first quote of any kind, so one that
holds another quote than its own is cut there, in the parameters of its call as in the page. -/
namespace SeoAudit

/-- A call whose only field is a quoted text. The text may hold quotes, but neither a colon nor
a closing brace. -/
structure QuotedCall where
  name : Text
  quote : CodePoint
  value : Text
  isText : name ∈ CallField.textNames
  isQuote : NamedField.isQuote quote
  free : ∀ c ∈ value, c ≠ ':' ∧ c ≠ '\x7d'

namespace QuotedCall
open Text NamedField
open CallField hiding text?
open Parameters hiding textNames
variable (call : QuotedCall)

def block : Text := " " ++ (CallField.text call.name call.quote call.value).written ++ " "

def page : Text := generatorName ++ "(\x7b" ++ call.block ++ "\x7d)"

/-- The value up to its first quote of any kind. -/
def cut : Text := call.value.takeWhile (!NamedField.isQuote ·)

def holding (text : Text) : Parameters where
  title := if call.name = "title" then some text else none
  description := if call.name = "description" then some text else none
  image := if call.name = "image" then some text else none

theorem named : call.name ∈ fieldNames := by simp [fieldNames, call.isText]

def behindColon : Text := " " ++ call.quote :: (call.value ++ call.quote :: " ")

theorem block_eq :
    call.block = (" " ++ call.name : Text) ++ CodePoint.char ':' :: call.behindColon := by
  simp [block, behindColon, written, CallField.name, CallField.value, ofString, ofChars]

theorem not_mem_behindColon {c : CodePoint} (mark : c = ':' ∨ c = '\x7d') :
    c ∉ call.behindColon := by
  have plain : c ∉ (" " : Text) ∧ ¬ NamedField.isQuote c := by
    rcases mark with rfl | rfl <;> decide
  have inside : c ∉ call.value := by
    intro member
    have free := call.free c member
    rcases mark with rfl | rfl
    · exact free.1 rfl
    · exact free.2 rfl
  have other : c ≠ call.quote := by
    rintro rfl
    exact plain.2 call.isQuote
  simp [behindColon, plain.1, inside, other]

theorem not_mem_block : CodePoint.char '\x7d' ∉ call.block := by
  have name : CodePoint.char '\x7d' ∉ call.name := fun member =>
    (not_mem_name call.name call.named _ member).2 rfl
  have blank : CodePoint.char '\x7d' ∉ (" " : Text) := by decide
  simp [block_eq, name, blank, call.not_mem_behindColon (.inr rfl)]

def firstCall : FirstCall call.page where
  before := []
  opening := generatorName ++ "(\x7b"
  block := call.block
  closing := "\x7d)"
  after := []
  isOpening := isOpening_unspaced
  isClosing := isClosing_unspaced
  page_eq := by simp [page]
  leftmost _ inside := absurd inside (Nat.not_lt_zero _)
  shortest n inside := callEnd_eq_none_iff.mp <|
    skips_iff.mp (skips_callEnd_of_free call.not_mem_block _) n inside

section Finds
variable {β : Type} {n : Text} {r : Text → Option β}

theorem findFirst_other (known : n ∈ fieldNames) (other : n ≠ call.name)
    (begins : BeginsWith (n ++ ":") r) : findFirst r call.block = none := by
  have colon : CodePoint.char ':' ∈ (n ++ ":" : Text) := List.mem_append_right n (by decide)
  have inName {m : Text} (named : m ∈ fieldNames) : CodePoint.char ':' ∉ m := fun member =>
    (not_mem_name m named _ member).1 rfl
  have absent : ¬ (n ++ ":" : Text) <:+: call.block := by
    intro occurs
    rw [block_eq] at occurs
    rcases infix_concat_split (inName known) occurs with ends | inside | behind_
    · rcases List.suffix_cons_iff.mp ends with same | ends
      · have blank : CodePoint.char ' ' ∈ n := same ▸ List.mem_cons_self
        exact (not_mem_key n known _ (List.mem_append_left _ blank)).1 rfl
      · exact other (eq_of_isSuffix n known _ call.named ends)
    · rcases List.mem_append.mp (inside.subset colon) with blank | member
      · exact absurd blank (by decide)
      · exact inName call.named member
    · exact call.not_mem_behindColon (.inl rfl) (behind_.subset colon)
  exact begins.findFirst_eq_none absent

theorem text?_block : text? call.name call.block = some call.cut := by
  have blank (u : Text) : Skips (NamedField.text call.name) " " u :=
    skips_constant call.named (start_beginsWith call.name quoted) (by decide) u
  have here : ∃ u, NamedField.text call.name
      ((CallField.text call.name call.quote call.value).written ++ " ") = some (call.cut, u) := by
    obtain ⟨u, cut⟩ := quoted_up_to call.isQuote call.value " "
    have shape : (CallField.text call.name call.quote call.value).written ++ " " =
        call.name ++ ": " ++ call.quote :: (call.value ++ call.quote :: " ") := by
      simp [written, CallField.name, CallField.value]
    have visible : skipBlanks (" " ++ call.quote :: (call.value ++ call.quote :: " ")) =
        call.quote :: (call.value ++ call.quote :: " ") := by
      rw [(by decide : AllBlank " ").skipBlanks_append, skipBlanks_of_visible]
      simp [isBlank_eq_false_of_isQuote call.isQuote]
    refine ⟨u, ?_⟩
    rw [shape, NamedField.text, start_named, visible]
    exact cut
  obtain ⟨u, here⟩ := here
  rw [text?, block, List.append_assoc, (blank _).findFirst_append, findFirst_of_some here]
  rfl

theorem text?_block_eq (isText : n ∈ textNames) :
    text? n call.block = if call.name = n then some call.cut else none := by
  split
  · rename_i same
    rw [← same, text?_block]
  · rename_i other
    have known : n ∈ fieldNames := by simp [fieldNames, isText]
    have begins : BeginsWith (n ++ ":") (NamedField.text n) := start_beginsWith n quoted
    rw [text?, call.findFirst_other known (Ne.symm other) begins]
    rfl

theorem content?_block (known : n ∈ fieldNames) (other : n ≠ call.name)
    (opening closing : CodePoint) :
    content? n opening closing call.block = none := by
  rw [content?, call.findFirst_other known other (start_beginsWith n (enclosed opening closing))]
  rfl

end Finds

theorem ofBlock_block : ofBlock call.block = call.holding call.cut := by
  have apart := (WrittenCall.names_apart call.name call.named).1 call.isText
  have collections : collectionNames.filterMap (collection? call.block) = [] := by
    rw [List.filterMap_eq_nil_iff]
    intro n listed
    have other : n ≠ call.name := fun same => apart.1 (same ▸ listed)
    rw [collection?, call.content?_block (by simp [fieldNames, listed]) other]
  have flags : flagNames.filter (isSet call.block) = [] := by
    rw [List.filter_eq_nil_iff]
    intro n listed
    have other : n ≠ call.name := fun same => apart.2 (same ▸ listed)
    rw [isSet, call.content?_block (by simp [fieldNames, listed]) other]
    decide
  rw [ofBlock, collections, flags, call.text?_block_eq (by decide), call.text?_block_eq (by decide),
    call.text?_block_eq (by decide), holding]

theorem front_apart : ∀ n ∈ textNames, ¬ (n ++ ":" : Text) <:+: generatorName ++ "(\x7b" ∧
    ∀ c ∈ (generatorName ++ "(\x7b" : Text).getLast?, c ∉ (n ++ ":" : Text) := by
  decide +kernel

/-- The value of a quoted text ends at its first quote of any kind, so it is the whole value
exactly when no quote stands in it. A page with the call alone has this title or description. -/
theorem values_end_at_any_quote :
    ofText? call.page = some (call.holding call.cut) ∧
    (call.cut = call.value ↔ ∀ c ∈ call.value, !NamedField.isQuote c) ∧
    ∀ params output declared, output.bind Metadata.entries? = none →
      ∃ record, Metadata.normalize call.page params output declared = .ok record ∧
        (call.name = "title" → record.title = some call.cut ∧
          record.titleLength = call.cut.length ∧
          record.titleBand = some (Band.ofTitle call.cut.length).text) ∧
        (call.name = "description" → record.description = some call.cut ∧
          record.descriptionLength = call.cut.length ∧
          record.descriptionBand = some (Band.ofDescription call.cut.length).text) := by
  have read : ofText? call.page = some (call.holding call.cut) := by
    rw [ofText?, call.firstCall.callBlock?_eq, Option.map_some]
    exact congrArg some call.ofBlock_block
  have whole {n : Text} (same : call.name = n) : text? n call.page = some call.cut := by
    subst same
    have front := front_apart call.name call.isText
    have skips (u : Text) : Skips (NamedField.text call.name) (generatorName ++ "(\x7b") u :=
      (start_beginsWith call.name quoted).skips front.1 front.2 u
    rw [page, List.append_assoc]
    exact text?_of_part (fun c member => (not_mem_key call.name call.named c member).2) (skips _)
      call.text?_block
  refine ⟨read, List.takeWhile_eq_self_iff, fun params output declared static => ?_⟩
  obtain ⟨schemas, image, normal⟩ :=
    Metadata.exists_static_record static call.page params declared
  refine ⟨_, normal, fun same => ?_, fun same => ?_⟩
  · have title := whole same
    simp [Metadata.ofFacts, Metadata.factsOfText, title]
  · have description := whole same
    simp [Metadata.ofFacts, Metadata.factsOfText, description]

def apostrophe : QuotedCall where
  name := "title"
  quote := '"'
  value := "Oak's end"
  isText := by decide
  isQuote := by decide
  free := by decide

theorem apostrophe_is_cut :
    let oak : Text := "Oak"
    (none : Option Members).bind Metadata.entries? = none ∧
      ofText? apostrophe.page = some { title := some oak } ∧
      ∃ record, Metadata.normalize apostrophe.page none none true = .ok record ∧
        record.title = some oak ∧ record.titleLength = 3 ∧
        record.titleBand = some Band.short.text := by
  intro oak
  have law := apostrophe.values_end_at_any_quote
  have cut : apostrophe.cut = oak := by decide +kernel
  obtain ⟨record, normal, title, -⟩ := law.2.2 none none true rfl
  have title := title rfl
  rw [cut] at title
  exact ⟨rfl, law.1.trans (by decide +kernel), record, normal, title⟩

/-- A text between its own quotes need not be read whole. -/
theorem values_do_not_end_at_their_own_quote :
    ¬ ∀ call : QuotedCall, call.quote ∉ call.value →
      ∃ p, ofText? call.page = some p ∧ (call.name, some call.value) ∈ p.texts := by
  intro law
  obtain ⟨p, read, held⟩ := law apostrophe (by decide)
  have cut : ofText? apostrophe.page = some { title := some "Oak" } := by decide +kernel
  rw [cut, Option.some.injEq] at read
  subst read
  exact absurd held (by decide +kernel)

end QuotedCall
end SeoAudit
