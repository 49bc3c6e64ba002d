import SeoAudit.Generator.Definition
import SeoAudit.Proofs.LeftmostFinds

/-! The header of a definition, said without reading: keyword, name, parameters and opening
brace, with the blanks and marks that may stand between them. What is behind a header is found
exactly where one is written. -/
namespace SeoAudit
namespace Definition
open Text NamedField
variable {word mark s rest body : Text} {c : CodePoint}

theorem behindWord_eq_some_iff : behindWord word s = some rest ↔
    (∃ gap, gap ≠ [] ∧ AllBlank gap ∧ s = word ++ (gap ++ rest)) ∧
      ∀ d ∈ rest.head?, ¬ d.isBlank := by
  simp only [behindWord, Option.bind_eq_bind, Option.bind_eq_some_iff, after?_eq_some]
  constructor
  · rintro ⟨t, rfl, found⟩
    cases t with
    | nil => cases found
    | cons d t =>
      rw [behindSomeBlanks] at found
      split_ifs at found with blank
      obtain ⟨gap, isGap, split⟩ := exists_blanks t
      rw [Option.some.injEq] at found
      subst found
      refine ⟨⟨d :: gap, List.cons_ne_nil d gap, ?_, by rw [List.cons_append, ← split]⟩,
        ?_⟩
      · exact List.forall_mem_cons.mpr ⟨blank, isGap⟩
      · intro e head
        have stops := List.head?_dropWhile_not CodePoint.isBlank t
        rw [← skipBlanks, Option.mem_def.mp head] at stops
        simpa using stops
  · rintro ⟨⟨gap, nonempty, isGap, rfl⟩, visible⟩
    refine ⟨gap ++ rest, rfl, ?_⟩
    obtain ⟨d, gap, rfl⟩ := List.exists_cons_of_ne_nil nonempty
    obtain ⟨blank, isGap⟩ := List.forall_mem_cons.mp isGap
    rw [List.cons_append, behindSomeBlanks, if_pos blank, AllBlank.skipBlanks_append isGap,
      skipBlanks_of_visible visible]

def IsMarked (mark : Text) (c : CodePoint) (s : Text) : Prop :=
  ∃ v m w : Text, AllBlank v ∧ (m = [] ∨ m = mark) ∧ AllBlank w ∧ s = v ++ m ++ w ++ [c]

/-- The character is no blank and does not begin the mark, and the mark begins with no blank,
so that it is plain which blanks stand before the mark. -/
theorem behindMark_eq_some_iff (visible : ¬ c.isBlank)
    (head : ∃ d ds, mark = d :: ds ∧ ¬ d.isBlank ∧ d ≠ c) :
    behindBlanks c (behindMark mark (skipBlanks s)) = some rest ↔
      ∃ w, IsMarked mark c w ∧ s = w ++ rest := by
  rw [behindBlanks_eq_some_iff visible, behindMark]
  constructor
  · rintro ⟨w, blank, split⟩
    obtain ⟨v, isBlank, same⟩ := exists_blanks s
    cases marked : after? mark (skipBlanks s) with
    | none =>
      rw [marked, Option.getD_none] at split
      exact ⟨v ++ [] ++ w ++ [c], ⟨v, [], w, isBlank, .inl rfl, blank, rfl⟩, by
        simp [← split, ← same]⟩
    | some t =>
      rw [marked, Option.getD_some] at split
      rw [after?_eq_some, split] at marked
      exact ⟨v ++ mark ++ w ++ [c], ⟨v, mark, w, isBlank, .inr rfl, blank, rfl⟩, by
        simp [← marked, ← same]⟩
  · rintro ⟨_, ⟨v, m, w, isBlank, optional, blank, rfl⟩, rfl⟩
    obtain ⟨d, ds, rfl, shown, other⟩ := head
    rcases optional with rfl | rfl
    · have all : AllBlank (v ++ w) := by
        intro e member
        rcases List.mem_append.mp member with member | member
        · exact isBlank e member
        · exact blank e member
      have skipped : skipBlanks (v ++ [] ++ w ++ [c] ++ rest) = c :: rest := by
        rw [List.append_nil, List.append_assoc, all.skipBlanks_append, skipBlanks_of_visible]
        · rfl
        · simpa using visible
      rw [skipped, after?, if_neg other]
      exact ⟨[], by simp [AllBlank], rfl⟩
    · have skipped :
          skipBlanks (v ++ (d :: ds) ++ w ++ [c] ++ rest) = (d :: ds) ++ (w ++ c :: rest) := by
        simp only [List.append_assoc, isBlank.skipBlanks_append]
        rw [skipBlanks_of_visible]
        · rfl
        · simpa using shown
      rw [skipped, after?_eq_some.mpr rfl]
      exact ⟨w, blank, rfl⟩

structure Header where
  keyword : Text
  gap : Text
  sign : Text
  parameters : Text
  arrow : Text
  isKeyword : keyword = "const" ∨ keyword = "function"
  gap_ne_nil : gap ≠ []
  isGap : AllBlank gap
  isSign : IsMarked "=" '(' sign
  unclosed : .char ')' ∉ parameters
  isArrow : IsMarked "=>" '\x7b' arrow

def Header.text (h : Header) : Text :=
  h.keyword ++
    (h.gap ++ (Parameters.generatorName ++ (h.sign ++ (h.parameters ++ .char ')' :: h.arrow))))

theorem signs_plain :
    (¬ CodePoint.isBlank '(' ∧ ∃ d ds, ("=" : Text) = d :: ds ∧ ¬ d.isBlank ∧
      d ≠ '(') ∧
    ¬ CodePoint.isBlank '\x7b' ∧ ∃ d ds, ("=>" : Text) = d :: ds ∧ ¬ d.isBlank ∧
      d ≠ '\x7b' :=
  ⟨⟨by decide, '=', [], rfl, by decide, by decide⟩, by decide, '=', [.char '>'],
    rfl, by decide, by decide⟩

theorem behindParameters_eq_some_iff :
    behind ')' (s.dropWhile (· ≠ .char ')')) = some rest ↔
      ∃ parameters, .char ')' ∉ parameters ∧ s = parameters ++ .char ')' :: rest := by
  rw [behind_eq_some_iff]
  constructor
  · intro left
    refine ⟨s.takeWhile (· ≠ .char ')'), fun member => ?_, ?_⟩
    · simpa using List.mem_takeWhile_imp member
    · rw [← left, List.takeWhile_append_dropWhile]
  · rintro ⟨parameters, unclosed, rfl⟩
    have opened : ∀ d ∈ parameters, decide (d ≠ .char ')') = true := by
      intro d member
      simp only [ne_eq, decide_eq_true_eq]
      rintro rfl
      exact unclosed member
    rw [List.dropWhile_append_of_pos opened, List.dropWhile_cons_of_neg (by simp)]

theorem behindKeyword_eq_some_iff :
    (behindWord "const" s).or (behindWord "function" s) = some rest ↔
      ∃ keyword : Text, (keyword = "const" ∨ keyword = "function") ∧
        behindWord keyword s = some rest := by
  constructor
  · intro found
    rcases Option.or_eq_some_iff.mp found with found | ⟨-, found⟩
    · exact ⟨_, .inl rfl, found⟩
    · exact ⟨_, .inr rfl, found⟩
  · rintro ⟨keyword, rfl | rfl, found⟩
    · rw [found, Option.some_or]
    · obtain ⟨⟨gap, -, -, rfl⟩, -⟩ := behindWord_eq_some_iff.mp found
      have other : behindWord "const" ("function" ++ (gap ++ rest)) = none := rfl
      rw [other, Option.none_or, found]

theorem behindHeader_eq_some_iff :
    behindHeader s = some body ↔ ∃ h : Header, s = h.text ++ body := by
  simp only [behindHeader, Option.bind_eq_bind, Option.bind_eq_some_iff, after?_eq_some,
    behindKeyword_eq_some_iff, behindMark_eq_some_iff signs_plain.1.1 signs_plain.1.2,
    behindMark_eq_some_iff signs_plain.2.1 signs_plain.2.2, behindParameters_eq_some_iff]
  constructor
  · rintro ⟨_, ⟨keyword, isKeyword, worded⟩, _, rfl, _, ⟨sign, isSign, rfl⟩, _,
      ⟨parameters, unclosed, rfl⟩, arrow, isArrow, rfl⟩
    obtain ⟨⟨gap, gap_ne_nil, isGap, rfl⟩, -⟩ := behindWord_eq_some_iff.mp worded
    exact ⟨⟨keyword, gap, sign, parameters, arrow, isKeyword, gap_ne_nil, isGap, isSign,
      unclosed, isArrow⟩, by simp [Header.text]⟩
  · rintro ⟨h, rfl⟩
    have named : ∀ d ∈ (Parameters.generatorName ++
        (h.sign ++ (h.parameters ++ .char ')' :: (h.arrow ++ body)))).head?, ¬ d.isBlank := by
      intro d head
      have first : (.char 'g') = d := Option.some.inj head
      rw [← first]
      decide
    refine ⟨_, ⟨h.keyword, h.isKeyword,
      behindWord_eq_some_iff.mpr ⟨⟨h.gap, h.gap_ne_nil, h.isGap, ?_⟩, named⟩⟩,
      _, rfl, _, ⟨h.sign, h.isSign, rfl⟩, _, ⟨h.parameters, h.unclosed, rfl⟩, h.arrow,
      h.isArrow, rfl⟩
    simp [Header.text]

end Definition
end SeoAudit
