import SeoAudit.Proofs.ExtractedDefinitions

/-! A source that goes on. Once the parameters of a header are closed and its body is opened,
nothing behind the source lets a header begin any earlier, and a declaration that is added
behind the last line ends a body where the source ended it. So the definition that is found in
a source is found in every longer one that goes on with a declaration. -/
namespace SeoAudit

theorem sublist_of_not_mem {α : Type} {a : α} {kept front rest : List α} (free : a ∉ front)
    (within : List.Sublist (a :: kept) (front ++ rest)) : List.Sublist (a :: kept) rest := by
  obtain ⟨first, second, split, inFront, inRest⟩ := List.sublist_append_iff.mp within
  cases first with
  | nil => exact split ▸ inRest
  | cons b first =>
    obtain ⟨rfl, -⟩ := List.cons.inj split
    exact absurd (inFront.subset List.mem_cons_self) free

namespace Definition
open Text NamedField
variable {source s t u f g word rest body keyword r : Text} {c : CodePoint}

theorem behindWord_append (member : c ∈ s) (visible : ¬ c.isBlank) (free : c ∉ word) :
    behindWord word (s ++ u) = (behindWord word s).map (· ++ u) := by
  rw [behindWord, behindWord, after?_append member free]
  cases found : after? word s with
  | none => rfl
  | some t =>
    rw [after?_eq_some] at found
    have behind : c ∈ t := (List.mem_append.mp (found ▸ member)).resolve_left free
    cases t with
    | nil => cases behind
    | cons d t =>
      show behindSomeBlanks (d :: (t ++ u)) = (behindSomeBlanks (d :: t)).map (· ++ u)
      rw [behindSomeBlanks, behindSomeBlanks]
      split_ifs with blank
      · have later : c ∈ t := (List.mem_cons.mp behind).resolve_left fun same =>
          visible (same ▸ blank)
        rw [skipBlanks_append later visible]
        rfl
      · rfl

theorem mem_behindWord (found : behindWord word s = some rest) (member : c ∈ s)
    (visible : ¬ c.isBlank) (free : c ∉ word) : c ∈ rest := by
  obtain ⟨⟨gap, -, blank, rfl⟩, -⟩ := behindWord_eq_some_iff.mp found
  rcases List.mem_append.mp member with inWord | member
  · exact absurd inWord free
  · exact (List.mem_append.mp member).resolve_left fun inGap => visible (blank c inGap)

def IsOpened (s : Text) : Prop := List.Sublist [.char ')', .char '\x7b'] s

theorem not_mem_optional {v m w mark : Text} (before : AllBlank v) (optional : m = [] ∨ m = mark)
    (behind : AllBlank w) (visible : ¬ c.isBlank) (free : c ∉ mark) : c ∉ v ++ m ++ w := by
  intro member
  rcases List.mem_append.mp member with member | member
  · rcases List.mem_append.mp member with member | member
    · exact visible (before c member)
    · rcases optional with rfl | rfl
      · cases member
      · exact free member
  · exact visible (behind c member)

/-- The first closing parenthesis of a header closes its parameters, and the first brace behind
it ends the header. -/
theorem Header.exists_split (h : Header) : ∃ front between : Text,
    h.text = front ++ .char ')' :: (between ++ [.char '\x7b']) ∧
      .char ')' ∉ front ∧ .char '\x7b' ∉ between := by
  obtain ⟨v, m, w, before, optional, behind, arrow⟩ := h.isArrow
  obtain ⟨v', m', w', before', optional', behind', sign⟩ := h.isSign
  have visible : ¬ CodePoint.isBlank ')' := by decide
  have keyword : .char ')' ∉ h.keyword := by
    rcases h.isKeyword with keyword | keyword <;> rw [keyword] <;> decide
  have gap : .char ')' ∉ h.gap := fun member => visible (h.isGap _ member)
  have marked := not_mem_optional before' optional' behind' visible (by decide)
  refine ⟨h.keyword ++ (h.gap ++ (Parameters.generatorName ++ (h.sign ++ h.parameters))),
    v ++ m ++ w, ?_, ?_, not_mem_optional before optional behind (by decide) (by decide)⟩
  · simp [Header.text, arrow]
  · have name : .char ')' ∉ Parameters.generatorName := by decide
    have signed : .char ')' ∉ h.sign := by
      rw [sign]
      simpa using marked
    simp [keyword, gap, name, signed, h.unclosed]

theorem Header.isOpened (h : Header) : IsOpened h.text := by
  obtain ⟨front, between, text, -, -⟩ := h.exists_split
  rw [IsOpened, text]
  exact ((List.sublist_append_right between _).cons_cons _).trans
    (List.sublist_append_right front _)

theorem Header.not_longer (h : Header) (opened : IsOpened s) : h.text ≠ s ++ c :: t := by
  intro longer
  obtain ⟨front, between, text, unclosed, plain⟩ := h.exists_split
  have within : List.Sublist [.char ')', .char '\x7b', c] h.text := by
    rw [longer]
    exact opened.append (List.singleton_sublist.mpr List.mem_cons_self)
  rw [text] at within
  have behind := List.cons_sublist_cons.mp (sublist_of_not_mem unclosed within)
  have short := (sublist_of_not_mem plain behind).length_le
  simp at short

theorem Header.text_of_append {h : Header} (opened : IsOpened s) (same : s ++ u = h.text ++ body) :
    ∃ rest, s = h.text ++ rest := by
  rcases List.append_eq_append_iff.mp same with ⟨a, longer, -⟩ | ⟨rest, split, -⟩
  · cases a with
    | nil => exact ⟨[], by rw [longer, List.append_nil, List.append_nil]⟩
    | cons c a => exact absurd longer (h.not_longer opened)
  · exact ⟨rest, split⟩

theorem IsOpened.mem (opened : IsOpened s) : .char '\x7b' ∈ s :=
  opened.subset (List.mem_cons_of_mem _ List.mem_cons_self)

theorem behindExport_append (opened : IsOpened s) (u : Text) :
    behindExport (s ++ u) = behindExport s ++ u := by
  have visible : ¬ CodePoint.isBlank '\x7b' := by decide
  rw [behindExport, behindExport, behindWord_append opened.mem visible (by decide)]
  cases found : behindWord "export" s with
  | none => rfl
  | some t =>
    have behind := mem_behindWord found opened.mem visible (by decide)
    show behindOptional "default" (t ++ u) = behindOptional "default" t ++ u
    rw [behindOptional, behindOptional, behindWord_append behind visible (by decide)]
    cases behindWord "default" t <;> rfl

theorem IsOpened.behindWord (opened : IsOpened s) (free : .char ')' ∉ word)
    (found : behindWord word s = some rest) : IsOpened rest := by
  obtain ⟨⟨gap, -, blank, rfl⟩, -⟩ := behindWord_eq_some_iff.mp found
  have visible : ¬ CodePoint.isBlank ')' := by decide
  exact sublist_of_not_mem (fun member => visible (blank _ member)) (sublist_of_not_mem free opened)

theorem IsOpened.behindExport (opened : IsOpened s) : IsOpened (behindExport s) := by
  rw [Definition.behindExport]
  split
  · rename_i t found
    have behind := opened.behindWord (by decide) found
    rw [behindOptional]
    cases again : Definition.behindWord "default" t with
    | none => exact behind
    | some rest => exact behind.behindWord (by decide) again
  · exact opened

theorem exists_starting_of_append (opened : IsOpened s) (found : starting? (s ++ u) = some g) :
    ∃ f, starting? s = some f := by
  obtain ⟨h, inside, behind, split, -⟩ := starting?_eq_some_iff.mp found
  rw [behindExport_append opened] at split
  obtain ⟨rest, same⟩ := Header.text_of_append opened.behindExport split
  obtain ⟨inside, behind, rfl, skips, ends⟩ := exists_body_end rest
  exact ⟨_, starting?_eq_some_iff.mpr ⟨h, inside, behind, same, skips, ends, rfl⟩⟩

theorem StartsDeclaration.of_append (starts : StartsDeclaration (s ++ .char '\n' :: u))
    (nonempty : s ≠ []) : StartsDeclaration s := by
  obtain ⟨_, split, keyword, listed, rest, rfl, whole⟩ := starts
  obtain ⟨d, s, rfl⟩ := List.exists_cons_of_ne_nil nonempty
  obtain ⟨rfl, same⟩ := List.cons.inj split
  have oneLine : ∀ keyword ∈ keywords, .char '\n' ∉ keyword := by decide
  rcases List.append_eq_append_iff.mp same with ⟨a, longer, broken⟩ |
    ⟨rest, shorter, broken⟩
  · cases a with
    | nil =>
      rw [List.append_nil] at longer
      exact ⟨s, rfl, keyword, listed, [], by rw [longer, List.append_nil], by simp⟩
    | cons c a =>
      obtain ⟨rfl, -⟩ := List.cons.inj broken
      exact absurd (longer ▸ List.mem_append_right s List.mem_cons_self) (oneLine keyword listed)
  · refine ⟨s, rfl, keyword, listed, rest, shorter, fun c head => whole c ?_⟩
    rw [broken]
    exact List.mem_head?_append_of_mem_head? head

theorem isOpened_of_starting (found : starting? s = some f) : IsOpened s := by
  obtain ⟨h, inside, behind, split, -⟩ := starting?_eq_some_iff.mp found
  have start : h.text <+: behindExport s := ⟨inside ++ behind, split.symm⟩
  exact (h.isOpened.trans start.sublist).trans (behindExport_suffix s).sublist

theorem starting?_append (found : starting? s = some f) (declares : StartsDeclaration u) :
    starting? (s ++ u) = some f := by
  obtain ⟨h, inside, behind, split, skips, ends, rfl⟩ := starting?_eq_some_iff.mp found
  obtain ⟨t, rfl, starts⟩ := declares
  refine starting?_eq_some_iff.mpr ⟨h, inside, behind ++ .char '\n' :: t, ?_, ?_, ?_, rfl⟩
  · rw [behindExport_append (isOpened_of_starting found), split, List.append_assoc,
      List.append_assoc]
  · rw [skips_iff] at skips ⊢
    intro n within
    have here := ending?_eq_none_iff.mp (skips n within)
    rw [← List.append_assoc, List.drop_append_of_le_length (by simp; omega)]
    exact ending?_eq_none_iff.mpr ⟨by simp, fun starts => here.2 (starts.of_append here.1)⟩
  · rw [isEnd_iff]
    right
    rcases isEnd_iff.mp ends with rfl | begun
    · exact ⟨t, rfl, starts⟩
    · exact begun.append (by simp [show ¬ CodePoint.satisfies isWordChar '\n' by decide])

theorem find?_append (found : find? source = some f) (declares : StartsDeclaration u) :
    find? (source ++ u) = some f := by
  obtain ⟨⟨before, g⟩, place, rfl⟩ := Option.map_eq_some_iff.mp found
  obtain ⟨s, rfl, skips, start⟩ := eq_append_of_upTo place
  have stillSkips : Skips starting? before (s ++ u) := by
    rw [skips_iff] at skips ⊢
    intro n within
    rw [← List.append_assoc, List.drop_append_of_le_length (by simp; omega)]
    rw [Option.eq_none_iff_forall_ne_some]
    intro g earlier
    have reaches : IsOpened ((before ++ s).drop n) := by
      rw [List.drop_append_of_le_length within.le]
      exact (isOpened_of_starting start).trans (List.sublist_append_right _ s)
    obtain ⟨f, inSource⟩ := exists_starting_of_append reaches earlier
    rw [skips n within] at inSource
    cases inSource
  rw [List.append_assoc, find?, stillSkips.findFirst_append]
  exact findFirst_of_some (starting?_append start declares)

/-- A line that begins with a declaring keyword, and whatever stands behind that keyword, leaves
the definition of the source as it is. -/
theorem later_declarations_change_nothing (found : find? source = some f)
    (listed : keyword ∈ (["export", "const", "let", "var", "function", "async"] : List Text))
    (apart : ∀ c ∈ r.head?, ¬ c.satisfies isWordChar) :
    find? (source ++ ("\n" ++ (keyword ++ r))) = some f :=
  find?_append found ⟨keyword ++ r, rfl, keyword, listed, r, rfl, apart⟩

def abruptSource : Text :=
  "function generateSEO (p)\nexport const generateSEO = (p) => \x7b\n  return \x7b\x7d\n\x7d \nlet"

theorem abruptSource_keeps_definition :
    let f : Text := "const generateSEO = (p) => \x7b\n  return \x7b\x7d\n\x7d"
    let r : Text := " default function generateSEO () \x7b return null \x7d"
    find? abruptSource = some f ∧ find? (abruptSource ++ ("\n" ++ ("export" ++ r))) = some f := by
  intro f r
  have found : find? abruptSource = some f := by decide +kernel
  exact ⟨found, later_declarations_change_nothing found (by decide) (by decide)⟩

end Definition
end SeoAudit
