import Mathlib.Data.List.DropRight
import SeoAudit.Proofs.DefinitionHeaders

/-! Definitions cut out of a source. What is cut out is a header with a body in which no line
declares anything else. Behind it stand blanks and then such a line or the end of the source,
and cutting it out once more gives it back. -/
namespace SeoAudit

def blankRanges : List (Nat × Nat) := [
  (0x85, 0x85), (0xA0, 0xA0), (0x1680, 0x1680), (0x2000, 0x200A), (0x2028, 0x2029),
  (0x202F, 0x202F), (0x205F, 0x205F), (0x3000, 0x3000)]

theorem blankRanges_apart :
    ∀ b ∈ blankRanges, ∀ w ∈ wordRanges, w.2 < b.1 ∨ b.2 < w.1 := by decide +kernel

theorem isWordChar_of_isBlank {c : Char} (blank : isBlank c) : isWordChar c = false := by
  simp only [isBlank, Bool.or_eq_true, Bool.and_eq_true, decide_eq_true_eq, beq_iff_eq] at blank
  by_cases ascii : c.toNat < 0x80
  · have controls : ∀ n < 0x21, isWordChar (Char.ofNat n) = false := by decide
    have known := controls c.toNat (by omega)
    rwa [Char.ofNat_toNat] at known
  · have inRange : ∃ b ∈ blankRanges, b.1 ≤ c.toNat ∧ c.toNat ≤ b.2 := by
      simp only [blankRanges, List.exists_mem_cons_iff, List.not_mem_nil]
      omega
    obtain ⟨b, listed, low, high⟩ := inRange
    rw [isWordChar]
    simp only [ascii, if_false, List.any_eq_false, Bool.and_eq_true, decide_eq_true_eq]
    rintro ⟨first, last⟩ member ⟨above, below⟩
    rcases blankRanges_apart b listed (first, last) member with before | behind
    · exact absurd (below.trans_lt before) (by omega)
    · exact absurd (high.trans_lt behind) (by omega)

namespace Text

theorem exists_blanks_stripEnd (w : Text) :
    ∃ v, NamedField.AllBlank v ∧ w = stripEnd w ++ v := by
  refine ⟨(w.reverse.takeWhile CodePoint.isBlank).reverse, fun c member => ?_, ?_⟩
  · exact List.mem_takeWhile_imp (List.mem_reverse.mp member)
  · rw [stripEnd, dropEnd, ← List.reverse_append, List.takeWhile_append_dropWhile,
      List.reverse_reverse]

theorem stripEnd_eq (w : Text) : stripEnd w = w.rdropWhile CodePoint.isBlank := rfl

theorem stripEnd_append {c : CodePoint} (visible : ¬ c.isBlank) (v w : Text) :
    stripEnd (v ++ c :: w) = v ++ c :: stripEnd w := by
  simp only [stripEnd_eq]
  induction w using List.reverseRecOn with
  | nil => rw [List.rdropWhile_concat_neg _ _ _ visible, List.rdropWhile_nil]
  | append_singleton w d ih =>
    rw [← List.cons_append, ← List.append_assoc]
    by_cases blank : d.isBlank
    · rw [List.rdropWhile_concat_pos _ _ _ blank, List.rdropWhile_concat_pos _ _ _ blank, ih]
    · rw [List.rdropWhile_concat_neg _ _ _ blank, List.rdropWhile_concat_neg _ _ _ blank]
      simp

end Text

namespace Definition
open Text NamedField
variable {source s f body : Text}

def StartsKeyword (s : Text) : Prop :=
  ∃ keyword ∈ keywords, ∃ rest : Text, s = keyword ++ rest ∧
    ∀ c ∈ rest.head?, ¬ c.satisfies isWordChar

/-- A line break with a declaring keyword right behind it. -/
def StartsDeclaration (s : Text) : Prop := ∃ t : Text, s = .char '\n' :: t ∧ StartsKeyword t

theorem startsWithKeyword_iff : startsWithKeyword s = true ↔ StartsKeyword s := by
  simp only [startsWithKeyword, StartsKeyword, List.any_eq_true]
  refine exists_congr fun keyword => and_congr_right fun _ => ?_
  constructor
  · intro starts
    split at starts
    · rename_i rest found
      refine ⟨rest, after?_eq_some.mp found, fun c head word => ?_⟩
      rw [Option.mem_def.mp head] at starts
      simp [word] at starts
    · cases starts
  · rintro ⟨rest, rfl, whole⟩
    rw [after?_eq_some.mpr rfl]
    cases rest with
    | nil => rfl
    | cons c rest => simpa using whole c rfl

theorem isEnd_iff : isEnd s = true ↔ s = [] ∨ StartsDeclaration s := by
  cases s with
  | nil => simp [isEnd]
  | cons c s => simp [isEnd, startsWithKeyword_iff, StartsDeclaration]

def ending? (s : Text) : Option Unit := if isEnd s then some () else none

theorem ending?_eq_none_iff : ending? s = none ↔ s ≠ [] ∧ ¬ StartsDeclaration s := by
  rw [ending?, ite_eq_right_iff]
  simp [isEnd_iff]

theorem ending?_eq_some_iff {u : Unit} : ending? s = some u ↔ isEnd s = true := by
  simp [ending?]

theorem exists_body_end (body : Text) :
    ∃ inside behind, body = inside ++ behind ∧ Skips ending? inside behind ∧
      isEnd behind = true := by
  cases ends : upTo ending? body with
  | none =>
    have goes := upTo_eq_none_iff.mp ends body.length
    rw [List.drop_length] at goes
    cases goes
  | some found =>
    obtain ⟨behind, split, skips, here⟩ := eq_append_of_upTo ends
    exact ⟨found.1, behind, split, skips, ending?_eq_some_iff.mp here⟩

theorem behindExport_suffix (s : Text) : behindExport s <:+ s := by
  have word {w s rest : Text} (found : behindWord w s = some rest) : rest <:+ s := by
    obtain ⟨⟨gap, -, -, rfl⟩, -⟩ := behindWord_eq_some_iff.mp found
    exact (List.suffix_append gap rest).trans (List.suffix_append w _)
  rw [behindExport]
  split
  · rename_i rest found
    refine List.IsSuffix.trans ?_ (word found)
    rw [behindOptional]
    cases again : behindWord "default" rest with
    | none => exact List.suffix_rfl
    | some t => exact word again
  · exact List.suffix_rfl

theorem Header.after?_export (h : Header) (u : Text) : after? "export" (h.text ++ u) = none := by
  rw [Header.text]
  rcases h.isKeyword with keyword | keyword
  · rw [keyword]
    rfl
  · rw [keyword]
    rfl

theorem Header.behindExport_text (h : Header) (u : Text) :
    behindExport (h.text ++ u) = h.text ++ u := by
  rw [behindExport, behindWord, h.after?_export]
  rfl

theorem Header.not_export_prefix (h : Header) (u : Text) :
    ¬ ("export" : Text) <+: h.text ++ u := by
  rintro ⟨v, same⟩
  have absent := h.after?_export u
  rw [after?_eq_some.mpr same.symm] at absent
  cases absent

theorem Header.body_eq {h h' : Header} {body' : Text} (same : h.text ++ body = h'.text ++ body') :
    body = body' := by
  have first : behindHeader (h.text ++ body) = some body :=
    behindHeader_eq_some_iff.mpr ⟨h, rfl⟩
  have second : behindHeader (h.text ++ body) = some body' :=
    behindHeader_eq_some_iff.mpr ⟨h', same⟩
  exact Option.some.inj (first.symm.trans second)

theorem Header.exists_concat (h : Header) : ∃ t, h.text = t ++ [.char '\x7b'] := by
  obtain ⟨v, m, w, -, -, -, arrow⟩ := h.isArrow
  refine ⟨h.keyword ++ (h.gap ++ (Parameters.generatorName ++ (h.sign ++ (h.parameters ++
    .char ')' :: (v ++ m ++ w))))), ?_⟩
  rw [Header.text, arrow]
  simp

theorem Header.stripEnd_text (h : Header) (body : Text) :
    stripEnd (h.text ++ body) = h.text ++ stripEnd body := by
  have visible : ¬ CodePoint.isBlank '\x7b' := by decide
  obtain ⟨t, same⟩ := h.exists_concat
  rw [same, List.append_assoc, List.append_assoc]
  exact stripEnd_append visible t body

theorem Header.exists_visible_last (h : Header) (body : Text) :
    ∃ c ∈ (h.text ++ stripEnd body).getLast?, ¬ c.isBlank := by
  have nonempty : stripEnd (h.text ++ body) ≠ [] := by
    obtain ⟨t, same⟩ := h.exists_concat
    rw [h.stripEnd_text, same]
    simp
  rw [← h.stripEnd_text]
  exact ⟨_, List.getLast?_eq_getLast_of_ne_nil nonempty,
    List.rdropWhile_last_not CodePoint.isBlank _ nonempty⟩

/-- A definition that starts here is a header and the body behind it, up to where it first
ends, without the blanks at its end. -/
theorem starting?_eq_some_iff : starting? s = some f ↔
    ∃ (h : Header) (inside behind : Text), behindExport s = h.text ++ (inside ++ behind) ∧
      Skips ending? inside behind ∧ isEnd behind = true ∧ f = h.text ++ stripEnd inside := by
  have taken (h : Header) (body : Text) :
      (h.text ++ body).take ((h.text ++ body).length - body.length) = h.text := by
    rw [List.length_append, Nat.add_sub_cancel, List.take_left]
  simp only [starting?, Option.bind_eq_bind, Option.bind_eq_some_iff, behindHeader_eq_some_iff]
  constructor
  · rintro ⟨body, ⟨h, start⟩, ⟨inside, _⟩, found, same⟩
    obtain ⟨behind, rfl, skips, ends⟩ := eq_append_of_upTo found
    rw [start, taken, h.stripEnd_text] at same
    exact ⟨h, inside, behind, start, skips, ending?_eq_some_iff.mp ends,
      (Option.some.inj same).symm⟩
  · rintro ⟨h, inside, behind, start, skips, ends, rfl⟩
    refine ⟨inside ++ behind, ⟨h, start⟩, (inside, ()),
      skips.upTo_eq (ending?_eq_some_iff.mpr ends), ?_⟩
    rw [start, taken, h.stripEnd_text]
    rfl

theorem StartsDeclaration.append (starts : StartsDeclaration s) {u : Text}
    (apart : ∀ c ∈ u.head?, ¬ c.satisfies isWordChar) : StartsDeclaration (s ++ u) := by
  obtain ⟨_, rfl, keyword, listed, rest, rfl, whole⟩ := starts
  refine ⟨keyword ++ rest ++ u, rfl, keyword, listed, rest ++ u, List.append_assoc _ _ _, ?_⟩
  cases rest with
  | nil => exact apart
  | cons c rest => exact whole

theorem not_word_behind {v : Text} (blank : AllBlank v) (ends : isEnd s = true) :
    ∀ c ∈ (v ++ s).head?, ¬ c.satisfies isWordChar := by
  cases v with
  | cons d v =>
    rintro c head
    obtain rfl := Option.some.inj head
    have first := blank d List.mem_cons_self
    cases d with
    | half h => simp [CodePoint.satisfies]
    | char d => simp [CodePoint.satisfies, isWordChar_of_isBlank (show isBlank d from first)]
  | nil =>
    rcases isEnd_iff.mp ends with rfl | ⟨t, rfl, -⟩
    · intro c head
      cases head
    · intro c head
      obtain rfl := Option.some.inj head
      decide

theorem not_startsDeclaration_of_skips {inside behind t : Text}
    (skips : Skips ending? inside behind) (ends : isEnd behind = true)
    (suffix : t <:+ stripEnd inside) : ¬ StartsDeclaration t := by
  intro starts
  obtain ⟨v, blank, split⟩ := exists_blanks_stripEnd inside
  obtain ⟨x, same⟩ := suffix
  rw [← same, List.append_assoc] at split
  have within : x.length < inside.length := by
    obtain ⟨u, rfl, -⟩ := starts
    rw [split]
    simp
  have goes := skips_iff.mp skips x.length within
  rw [split, List.append_assoc, List.drop_left, List.append_assoc, ending?_eq_none_iff] at goes
  exact goes.2 (starts.append (not_word_behind blank ends))

theorem find?_text (h : Header) (undeclared : ∀ t, t <:+ body → ¬ StartsDeclaration t)
    (stripped : stripEnd body = body) : find? (h.text ++ body) = some (h.text ++ body) := by
  have skips : Skips ending? body [] := by
    rw [skips_iff, List.append_nil]
    intro n inside
    refine ending?_eq_none_iff.mpr ⟨fun nothing => ?_, undeclared _ (List.drop_suffix n body)⟩
    rw [List.drop_eq_nil_iff] at nothing
    omega
  refine findFirst_of_some (starting?_eq_some_iff.mpr
    ⟨h, body, [], ?_, skips, rfl, by rw [stripped]⟩)
  rw [h.behindExport_text, List.append_nil]

theorem find?_eq_none_iff :
    find? source = none ↔ ∀ n (h : Header) (body : Text), source.drop n ≠ h.text ++ body := by
  rw [find?, findFirst, Option.map_eq_none_iff, upTo_eq_none_iff]
  constructor
  · intro nowhere n h body same
    obtain ⟨inside, behind, rfl, skips, ends⟩ := exists_body_end body
    have start :=
      starting?_eq_some_iff.mpr ⟨h, inside, behind, h.behindExport_text _, skips, ends, rfl⟩
    rw [← same, nowhere n] at start
    cases start
  · intro absent n
    rw [Option.eq_none_iff_forall_ne_some]
    intro f start
    obtain ⟨h, inside, behind, split, -⟩ := starting?_eq_some_iff.mp start
    have place : h.text ++ (inside ++ behind) <:+ source :=
      split ▸ (behindExport_suffix _).trans (List.drop_suffix n source)
    exact absent _ h _ (List.suffix_iff_eq_drop.mp place).symm

/-- A definition is found exactly where a header stands. What is cut out is one whole piece of
the source: a header and a body. It does not begin with `export` and does not end in a blank, no
line of its body declares anything else, behind it stand blanks up to the end of the source or
up to a line that does, and it is cut out of itself whole. -/
theorem found_definitions_stand_alone (source : Text) :
    (find? source = none ↔ ∀ n (h : Header) (body : Text), source.drop n ≠ h.text ++ body) ∧
    ∀ f, find? source = some f → ∃ before after, source = before ++ (f ++ after) ∧
      (∃ (h : Header) (body : Text), f = h.text ++ body) ∧
      (∀ (h : Header) (body : Text), f = h.text ++ body → ∀ t, t <:+ body →
        ¬ StartsDeclaration t) ∧
      ¬ ("export" : Text) <+: f ∧
      (∃ c ∈ f.getLast?, ¬ c.isBlank) ∧
      (∃ blanks rest, after = blanks ++ rest ∧ AllBlank blanks ∧
        (rest = [] ∨ StartsDeclaration rest)) ∧
      find? f = some f := by
  refine ⟨find?_eq_none_iff, fun f found => ?_⟩
  obtain ⟨s, place, start⟩ := suffix_of_findFirst found
  obtain ⟨h, inside, behind, split, skips, ends, rfl⟩ := starting?_eq_some_iff.mp start
  obtain ⟨blanks, blank, stripped⟩ := exists_blanks_stripEnd inside
  have undeclared (t : Text) (suffix : t <:+ stripEnd inside) : ¬ StartsDeclaration t :=
    not_startsDeclaration_of_skips skips ends suffix
  have once : stripEnd (stripEnd inside) = stripEnd inside := List.rdropWhile_idempotent _ inside
  obtain ⟨x, rfl⟩ := place
  obtain ⟨y, exported⟩ := behindExport_suffix s
  refine ⟨x ++ y, blanks ++ behind, ?_, ⟨h, _, rfl⟩, ?_, h.not_export_prefix _,
    h.exists_visible_last inside, ⟨blanks, behind, rfl, blank, isEnd_iff.mp ends⟩,
    find?_text h undeclared once⟩
  · nth_rewrite 1 [← exported, split, stripped]
    simp only [List.append_assoc]
  · intro h' body same
    rw [← Header.body_eq same]
    exact undeclared

def awaitedSource : Text :=
  ("import x\nexport default function  generateSEO (p)\t\x7b\n" : Text) ++
    "  return \x7b\x7d\n\x7d\nconstant()\n\n let \n\nasync f"

theorem awaitedSource_stands_alone :
    let f : Text := "function  generateSEO (p)\t\x7b\n  return \x7b\x7d\n\x7d\nconstant()\n\n let"
    find? awaitedSource = some f ∧ find? f = some f ∧ ¬ ("export" : Text) <+: f := by
  intro f
  have found : find? awaitedSource = some f := by decide +kernel
  obtain ⟨before, after, -, -, -, plain, -, -, again⟩ :=
    (found_definitions_stand_alone awaitedSource).2 f found
  exact ⟨found, again, plain⟩

end Definition
end SeoAudit
