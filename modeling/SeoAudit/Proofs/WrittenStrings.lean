import Mathlib.Data.List.Chain
import SeoAudit.Json.Reader
import SeoAudit.Json.Writer

/-! Written JSON strings. They hold only the characters from the space to the tilde, and
are read back as the texts they were written from, unless a text has the high half of a surrogate
pair right before a low one: such two are read as one character. -/
namespace SeoAudit

/-- No high half of a surrogate pair stands right before a low one. -/
def Text.HalvesApart (s : Text) : Prop :=
  s.IsChain fun a b => ¬ (Utf16.isHigh a.code ∧ Utf16.isLow b.code)

instance (s : Text) : Decidable s.HalvesApart := inferInstanceAs (Decidable (List.IsChain _ s))

namespace CodePoint

theorem char_code (c : Char) : c.toNat < 0xD800 ∨ 0xE000 ≤ c.toNat ∧ c.toNat < 0x110000 := by
  rcases c.valid with low | ⟨high, bound⟩ <;> simp only [Char.toNat] <;> omega

theorem code_lt (c : CodePoint) : c.code < 0x110000 := by
  cases c with
  | char c =>
    have valid := char_code c
    simp only [code]
    omega
  | half h =>
    have valid := h.isHalf
    simp only [code]
    omega

end CodePoint

namespace Utf16

theorem isHigh_iff {u : Nat} : isHigh u ↔ 0xD800 ≤ u ∧ u < 0xDC00 := by simp [isHigh]

theorem isLow_iff {u : Nat} : isLow u ↔ 0xDC00 ≤ u ∧ u < 0xE000 := by simp [isLow]

theorem units_cases {code : Nat} (bound : code < 0x110000) :
    code < 0x10000 ∧ units code = [code] ∨
      ∃ high low, units code = [high, low] ∧ isHigh high ∧ isLow low ∧
        joined high low = code := by
  by_cases short : code < 0x10000
  · exact .inl ⟨short, if_pos short⟩
  · refine .inr ⟨_, _, if_neg short, ?_, ?_, ?_⟩
    · rw [isHigh_iff]
      omega
    · rw [isLow_iff]
      omega
    · unfold joined
      omega

theorem units_small {code u : Nat} (bound : code < 0x110000) (member : u ∈ units code) :
    u < 0x10000 := by
  rcases units_cases bound with ⟨short, same⟩ | ⟨high, low, same, isHigh, isLow, -⟩
  · rw [same, List.mem_singleton] at member
    omega
  · rw [isHigh_iff] at isHigh
    rw [isLow_iff] at isLow
    simp only [same, List.mem_cons, List.not_mem_nil, or_false] at member
    omega

end Utf16

theorem Text.halvesApart_ofChars (cs : List Char) : (Text.ofChars cs).HalvesApart := by
  unfold HalvesApart ofChars
  rw [List.isChain_map]
  refine List.Pairwise.isChain (List.pairwise_of_forall fun a b => ?_)
  have apart := CodePoint.char_code a
  rw [Utf16.isHigh_iff, CodePoint.code]
  omega

theorem Text.HalvesApart.within {s t : Text} (apart : t.HalvesApart) (inside : s <:+: t) :
    s.HalvesApart :=
  List.IsChain.infix apart inside

namespace Json
open Text

section Strings
variable {u : Nat} {us : List Nat} {c e : Char} {ps : List Piece} {s rest : Text}

theorem hexValue?_hexDigit : ∀ d < 16, hexValue? (Utf8.hexDigit d) = some d := by decide

theorem unit?_hex (small : u < 0x10000) :
    ∃ a b c d, Quoted.hex 4 u = [a, b, c, d] ∧ unit? a b c d = some u := by
  refine ⟨_, _, _, _, rfl, ?_⟩
  have digit (n : Nat) : hexValue? (Utf8.hexDigit (n % 16)) = some (n % 16) :=
    hexValue?_hexDigit _ (Nat.mod_lt n (by decide))
  simp only [unit?, digit, Option.bind_eq_bind, Option.bind_some, Option.pure_def,
    Option.some.injEq]
  omega

theorem readPieces_unit (small : u < 0x10000) (rest : Text) :
    readPieces (ofChars (unitEscape u) ++ rest) =
      (readPieces rest).map fun (ps, rest) => (.unit u :: ps, rest) := by
  obtain ⟨a, b, c, d, digits, value⟩ := unit?_hex small
  rw [unitEscape, digits]
  show readPieces (.char '\\' :: .char 'u' :: .char a :: .char b :: .char c :: .char d :: rest) = _
  rw [readPieces, value]
  cases readPieces rest <;> rfl

theorem readPieces_units (small : ∀ u ∈ us, u < 0x10000) (rest : Text) :
    readPieces (ofChars (us.flatMap unitEscape) ++ rest) =
      (readPieces rest).map fun (ps, rest) => (us.map .unit ++ ps, rest) := by
  induction us with
  | nil => simp [ofChars]
  | cons u us ih =>
    obtain ⟨first, others⟩ := List.forall_mem_cons.mp small
    rw [List.flatMap_cons, ofChars, List.map_append, List.append_assoc]
    rw [← ofChars, readPieces_unit first, ← ofChars, ih others, Option.map_map]
    rfl

theorem readPieces_short (escapes : escaped? e = some c) (other : e ≠ 'u') (rest : Text) :
    readPieces (.char '\\' :: .char e :: rest) =
      (readPieces rest).map fun (ps, rest) => (.point c :: ps, rest) := by
  rw [readPieces, escapes]
  · cases readPieces rest <;> rfl
  · exact fun _ _ _ _ _ _ => other

theorem readPieces_plain (quote : c ≠ '"') (slash : c ≠ '\\') (visible : 0x20 ≤ c.toNat)
    (rest : Text) : readPieces (.char c :: rest) =
      (readPieces rest).map fun (ps, rest) => (.point c :: ps, rest) := by
  rw [readPieces, if_neg]
  · cases readPieces rest <;> rfl
  · simp [slash, CodePoint.code, Nat.not_lt.mpr visible]
  all_goals simp [quote, slash]

theorem charEscape_cases (c : Char) :
    (∃ e, escaped? e = some c ∧ e ≠ 'u' ∧ charEscape c = ['\\', e]) ∨
      (c ≠ '"' ∧ c ≠ '\\' ∧ (0x20 ≤ c.toNat ∧ c.toNat < 0x7F) ∧
        charEscape c = [c]) ∨
      charEscape c = (Utf16.units c.toNat).flatMap unitEscape := by
  unfold charEscape
  split_ifs with quote slash feed back tab page start visible
  · exact .inl ⟨'"', by rw [quote]; rfl, by decide, rfl⟩
  · exact .inl ⟨'\\', by rw [slash]; rfl, by decide, rfl⟩
  · exact .inl ⟨'n', by rw [feed]; rfl, by decide, rfl⟩
  · exact .inl ⟨'r', by rw [back]; rfl, by decide, rfl⟩
  · exact .inl ⟨'t', by rw [tab]; rfl, by decide, rfl⟩
  · exact .inl ⟨'f', by rw [page]; rfl, by decide, rfl⟩
  · exact .inl ⟨'b', by rw [start]; rfl, by decide, rfl⟩
  · simp only [Bool.and_eq_true, decide_eq_true_eq] at visible
    exact .inr (.inl ⟨quote, slash, visible, rfl⟩)
  · exact .inr (.inr rfl)

theorem escape_half (h : Half) : escape (.half h) = (Utf16.units h.code).flatMap unitEscape := by
  have small : h.code < 0x10000 := by
    have valid := h.isHalf
    omega
  simp [escape, Utf16.units, small]

/-- How a code point is read back: as its units if they are written, else as itself. -/
def pieces (c : CodePoint) : List Piece :=
  if escape c = (Utf16.units c.code).flatMap unitEscape then (Utf16.units c.code).map .unit
  else [.point c]

theorem readPieces_escape (c : CodePoint) (rest : Text) :
    readPieces (ofChars (escape c) ++ rest) =
      (readPieces rest).map fun (ps, rest) => (pieces c ++ ps, rest) := by
  by_cases coded : escape c = (Utf16.units c.code).flatMap unitEscape
  · rw [pieces, if_pos coded, coded]
    exact readPieces_units (fun u => Utf16.units_small c.code_lt) rest
  · rw [pieces, if_neg coded]
    cases c with
    | half h => exact absurd (escape_half h) coded
    | char c =>
      rw [escape] at coded ⊢
      rcases charEscape_cases c with ⟨e, escapes, other, same⟩ |
        ⟨quote, slash, visible, same⟩ | same
      · rw [same]
        exact readPieces_short escapes other rest
      · rw [same]
        exact readPieces_plain quote slash visible.1 rest
      · exact absurd same coded

theorem readPieces_string (s rest : Text) :
    readPieces (ofChars (s.flatMap escape) ++ .char '"' :: rest) =
      some (s.flatMap pieces, rest) := by
  induction s with
  | nil => simp [ofChars, readPieces]
  | cons c s ih =>
    rw [List.flatMap_cons, ofChars, List.map_append, List.append_assoc, ← ofChars, ← ofChars,
      readPieces_escape, ih]
    rfl

theorem ofPieces_unit
    (apart : ∀ v qs, ps = .unit v :: qs → ¬ (Utf16.isHigh u ∧ Utf16.isLow v)) :
    ofPieces (.unit u :: ps) = .ofCode u :: ofPieces ps := by
  match ps with
  | [] => rfl
  | .point c :: ps => rfl
  | .unit v :: ps =>
    rw [ofPieces, if_neg]
    simpa using apart v ps rfl

theorem code_of_pieces (begins : s.flatMap pieces = .unit u :: ps) (low : Utf16.isLow u) :
    ∃ c t, s = c :: t ∧ c.code = u := by
  cases s with
  | nil => cases begins
  | cons c t =>
    refine ⟨c, t, rfl, ?_⟩
    rw [List.flatMap_cons, pieces] at begins
    split_ifs at begins with coded
    · rcases Utf16.units_cases c.code_lt with ⟨-, same⟩ | ⟨high, _, same, isHigh, -⟩
      · rw [same] at begins
        injection begins with begins
        injection begins
      · rw [same] at begins
        injection begins with begins
        injection begins with begins
        rw [Utf16.isHigh_iff] at isHigh
        rw [Utf16.isLow_iff] at low
        omega
    · injection begins with begins
      cases begins

theorem ofPieces_pieces (apart : s.HalvesApart) : ofPieces (s.flatMap pieces) = s := by
  -- Only behind a unit that stands alone does the next code point matter.
  induction s with
  | nil => rfl
  | cons c s ih =>
    have ih := ih apart.tail
    rw [List.flatMap_cons, pieces]
    split_ifs with coded
    · rcases Utf16.units_cases c.code_lt with ⟨-, same⟩ |
        ⟨high, low, same, isHigh, isLow, whole⟩
      · rw [same, List.map_singleton, List.singleton_append, ofPieces_unit, ih,
          CodePoint.ofCode_code]
        rintro v qs begins ⟨high, low⟩
        obtain ⟨d, t, rfl, rfl⟩ := code_of_pieces begins low
        exact apart.rel ⟨high, low⟩
      · rw [same]
        show ofPieces (.unit high :: .unit low :: s.flatMap pieces) = _
        rw [ofPieces, if_pos (by simp [isHigh, isLow]), whole, CodePoint.ofCode_code, ih]
    · rw [List.singleton_append, ofPieces, ih]

theorem readString_text (apart : s.HalvesApart) (rest : Text) :
    readString (ofChars (s.flatMap escape) ++ .char '"' :: rest) = some (s, rest) := by
  rw [readString, readPieces_string]
  exact congrArg (fun t => some (t, rest)) (ofPieces_pieces apart)

/-- Two halves side by side are read as one character. -/
example :
    ofPieces ([CodePoint.half ⟨0xD83C, by decide⟩,
      .half ⟨0xDF33, by decide⟩].flatMap pieces) =
      [.char '🌳'] := by
  decide

end Strings

section Visible
variable {s t : Text}

def Visible (s : Text) : Prop := ∀ c ∈ s, 0x20 ≤ c.code ∧ c.code < 0x7F

instance (s : Text) : Decidable (Visible s) := inferInstanceAs (Decidable (∀ c ∈ s, _ ∧ _))

theorem Visible.append (first : Visible s) (second : Visible t) : Visible (s ++ t) :=
  fun c member => (List.mem_append.mp member).elim (first c) (second c)

theorem visible_escaped {e c : Char} (escapes : escaped? e = some c) :
    0x20 ≤ e.toNat ∧ e.toNat < 0x7F := by
  unfold escaped? at escapes
  split at escapes
  all_goals first | decide | cases escapes

theorem visible_hexDigit :
    ∀ d < 16, 0x20 ≤ (Utf8.hexDigit d).toNat ∧ (Utf8.hexDigit d).toNat < 0x7F := by
  decide

theorem visible_unitEscape (u : Nat) :
    ∀ c ∈ unitEscape u, 0x20 ≤ c.toNat ∧ c.toNat < 0x7F := by
  have digit (n : Nat) := visible_hexDigit (n % 16) (Nat.mod_lt n (by decide))
  intro c member
  simp only [unitEscape, Quoted.hex, List.nil_append, List.cons_append, List.mem_cons,
    List.not_mem_nil, or_false] at member
  rcases member with rfl | rfl | rfl | rfl | rfl | rfl
  · decide
  · decide
  all_goals exact digit _

theorem visible_escape (c : CodePoint) :
    ∀ d ∈ escape c, 0x20 ≤ d.toNat ∧ d.toNat < 0x7F := by
  intro d member
  have coded (same : escape c = (Utf16.units c.code).flatMap unitEscape) :
      0x20 ≤ d.toNat ∧ d.toNat < 0x7F := by
    rw [same] at member
    obtain ⟨u, -, member⟩ := List.mem_flatMap.mp member
    exact visible_unitEscape u d member
  cases c with
  | half h => exact coded (escape_half h)
  | char c =>
    rcases charEscape_cases c with ⟨e, escapes, -, same⟩ | ⟨-, -, visible, same⟩ | same
    · rw [escape, same] at member
      rcases List.mem_pair.mp member with rfl | rfl
      · decide
      · exact visible_escaped escapes
    · rw [escape, same, List.mem_singleton] at member
      exact member ▸ visible
    · exact coded same

theorem visible_stringText (s : Text) : Visible (ofChars (stringText s)) := by
  have quote : Visible [.char '"'] := by decide
  have content : Visible (ofChars (s.flatMap escape)) := by
    intro c member
    obtain ⟨d, written, rfl⟩ := List.mem_map.mp member
    obtain ⟨c, -, written⟩ := List.mem_flatMap.mp written
    exact visible_escape c d written
  have split :
      ofChars (stringText s) = [.char '"'] ++ (ofChars (s.flatMap escape) ++ [.char '"']) := by
    simp [stringText, ofChars]
  rw [split]
  exact quote.append (content.append quote)

end Visible

end Json
end SeoAudit
