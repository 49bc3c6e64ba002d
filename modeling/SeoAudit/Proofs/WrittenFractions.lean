import SeoAudit.Proofs.ShortestDecimals
import SeoAudit.Proofs.WrittenJson
import SeoAudit.Proofs.WrittenNumbers

/-! Written JSON numbers are read back: whole numbers of not too many digits, and every binary
value, zeros with their sign, infinities and `NaN` included. A finite value is written by the
digits of its shortest decimal, with a point or an exponent, and what is read has the value of
that decimal. -/
namespace SeoAudit
namespace Json
open Text

section Digits
variable {n : Nat} {ds fs t rest : Text} {e : Int}

theorem foldl_digits (s : Text) (value : Nat) :
    s.foldl (fun n d => n * 10 + (d.code - 48)) value = value * 10 ^ s.length + digitsValue s := by
  induction s generalizing value with
  | nil => simp [digitsValue]
  | cons c s ih =>
    rw [digitsValue, List.foldl_cons, List.foldl_cons, ih, ih (0 * 10 + (c.code - 48)),
      List.length_cons]
    ring

theorem digitsValue_append (s t : Text) :
    digitsValue (s ++ t) = digitsValue s * 10 ^ t.length + digitsValue t := by
  rw [digitsValue, List.foldl_append]
  exact foldl_digits t _

theorem digitsValue_zeros (count : Nat) : digitsValue (List.replicate count (.char '0')) = 0 := by
  induction count with
  | zero => rfl
  | succ count ih => exact ih

def Stops (t : Text) : Prop := ∀ c ∈ t.head?, ¬ c.isDigit

theorem ends_apart {c : CodePoint} (ends : isSpace c ∨ c = ',' ∨ c = ']' ∨ c = '\x7d') :
    ¬ c.isDigit ∧ c ≠ '.' ∧ c ≠ 'e' ∧ c ≠ 'E' := by
  rw [isSpace_iff, or_assoc, or_assoc, or_assoc] at ends
  rcases ends with rfl | rfl | rfl | rfl | rfl | rfl | rfl
  all_goals decide

theorem Ends.stops (ends : Ends t) : Stops t := fun c first => (ends_apart (ends c first)).1

theorem readDigits_append (digits : IsDigits ds) (nonempty : ds ≠ []) (stops : Stops t) :
    readDigits (ds ++ t) = some (ds, t) := by
  have none : t.takeWhile CodePoint.isDigit = [] ∧ t.dropWhile CodePoint.isDigit = t := by
    cases t with
    | nil => exact ⟨rfl, rfl⟩
    | cons c t =>
      have other := stops c rfl
      exact ⟨List.takeWhile_cons_of_neg other, List.dropWhile_cons_of_neg other⟩
  rw [readDigits, List.takeWhile_append_of_pos digits, List.dropWhile_append_of_pos digits, none.1,
    none.2, List.append_nil]
  split
  · contradiction
  · rfl

structure IsWhole (ds : Text) : Prop where
  digits : IsDigits ds
  nonempty : ds ≠ []
  noZero : ds.head? = some (.char '0') → ds = "0"

theorem IsWhole.read (whole : IsWhole ds) (stops : Stops t) :
    readWholeDigits (ds ++ t) = some (ds, t) := by
  by_cases zero : ds.head? = some (.char '0')
  · rw [whole.noZero zero]
    rfl
  · obtain ⟨d, others, rfl⟩ := List.exists_cons_of_ne_nil whole.nonempty
    rw [List.cons_append, readWholeDigits, ← List.cons_append,
      readDigits_append whole.digits whole.nonempty stops]
    rintro cs ⟨⟩
    exact zero rfl

theorem isWhole_of_head (digits : IsDigits ds) (nonzero : n ≠ 0)
    (first : ds.head? = (decimal n).head?) :
    IsWhole ds where
  digits := digits
  nonempty nothing := by
    obtain ⟨d, others, written⟩ := List.exists_cons_of_ne_nil (decimal_ne_nil n)
    rw [nothing, written] at first
    cases first
  noZero zero := absurd (first ▸ zero) (head_decimal nonzero)

theorem decimal_isWhole (n : Nat) : IsWhole (decimal n) := by
  by_cases zero : n = 0
  · subst zero
    exact ⟨decimal_isDigits 0, decimal_ne_nil 0, fun _ => rfl⟩
  · exact isWhole_of_head (decimal_isDigits n) zero rfl

def exponentDigits (n : Nat) : Text :=
  if (decimal n).length < 2 then .char '0' :: decimal n else decimal n

theorem exponentDigits_spec (n : Nat) :
    IsDigits (exponentDigits n) ∧ exponentDigits n ≠ [] ∧
      digitsValue (exponentDigits n) = n := by
  have digits := decimal_isDigits n
  rw [exponentDigits]
  split_ifs
  · exact ⟨List.forall_mem_cons.mpr ⟨by decide, digits⟩, List.cons_ne_nil _ _,
      digitsValue_decimal n⟩
  · exact ⟨digits, decimal_ne_nil n, digitsValue_decimal n⟩

def powered : Option Int → Text
  | none => []
  | some e => .char 'e' :: .char (if e < 0 then '-' else '+') :: exponentDigits e.natAbs

theorem ofString_exponentText (e : Int) : ofString (exponentText e) = powered (some e) := by
  have padded (n : Nat) :
      ofString (if (toString n).length < 2 then "0" ++ toString n else toString n) =
      exponentDigits n := by
    rw [exponentDigits, length_decimal, apply_ite ofString, ofString_append, ofString_toString]
    rfl
  rw [exponentText, ofString_append, padded, powered, apply_ite ofString]
  split_ifs <;> rfl

theorem readExponent_powered (ends : Ends rest) (e : Option Int) :
    readExponent (powered e ++ rest) = e.map (·, rest) := by
  cases e with
  | none =>
    cases rest with
    | nil => rfl
    | cons c rest =>
      obtain ⟨-, -, small, large⟩ := ends_apart (ends c rfl)
      simp [powered, readExponent, small, large]
  | some e =>
    obtain ⟨digits, nonempty, value⟩ := exponentDigits_spec e.natAbs
    have read := readDigits_append digits nonempty ends.stops
    by_cases negative : e < 0
    · simp [powered, readExponent, negative, read, value, abs_of_neg]
    · simp [powered, readExponent, negative, read, value, abs_of_nonneg (not_lt.mp negative)]

theorem head_powered (ends : Ends rest) (e : Option Int) {c : CodePoint}
    (first : c ∈ (powered e ++ rest).head?) : ¬ c.isDigit ∧ c ≠ '.' := by
  cases e with
  | none =>
    have apart := ends_apart (ends c first)
    exact ⟨apart.1, apart.2.1⟩
  | some e =>
    cases first
    decide

def pointed (fs : Text) : Text := if fs = [] then [] else .char '.' :: fs

theorem stops_pointed (ends : Ends rest) (fs : Text) (e : Option Int) :
    Stops (pointed fs ++ (powered e ++ rest)) := by
  intro c first
  rw [pointed] at first
  split_ifs at first
  · exact (head_powered ends e first).1
  · cases first
    decide

theorem readFraction_pointed (digits : IsDigits fs) (ends : Ends rest) (e : Option Int) :
    readFraction (pointed fs ++ (powered e ++ rest)) =
      if fs = [] then none else some (fs, powered e ++ rest) := by
  have behind (c : CodePoint) (first : c ∈ (powered e ++ rest).head?) := head_powered ends e first
  generalize powered e ++ rest = t at behind
  rw [pointed]
  split_ifs with nothing
  · cases t with
    | nil => rfl
    | cons c t =>
      rw [List.nil_append, readFraction]
      rintro s ⟨⟩
      exact (behind _ rfl).2 rfl
  · exact readDigits_append digits nothing fun c first => (behind c first).1

end Digits

/-- How a number without its sign is written if it is not whole: digits before and behind a point,
or an exponent, or both. -/
structure Numeral where
  whole : Text
  part : Text
  exponent : Option Int
  isWhole : IsWhole whole
  digits : IsDigits part
  isFraction : part = [] → exponent.isSome

namespace Numeral
variable {rest : Text}

def text (n : Numeral) : Text := n.whole ++ (pointed n.part ++ powered n.exponent)

def mantissa (n : Numeral) : Nat := digitsValue (n.whole ++ n.part)

def scale (n : Numeral) : Int := n.exponent.getD 0 - n.part.length

theorem readUnsigned_text (n : Numeral) (negative : Bool) (ends : Ends rest) :
    readUnsigned negative (n.text ++ rest) =
      .ok (.fraction (Binary64.ofDecimal negative n.mantissa n.scale), rest) := by
  obtain ⟨whole, part, exponent, isWhole, digits, isFraction⟩ := n
  have power := readExponent_powered ends exponent
  simp only [text, mantissa, scale, List.append_assoc, readUnsigned,
    isWhole.read (stops_pointed ends part exponent), readFraction_pointed digits ends exponent,
    orMalformed, bind, Except.bind]
  split_ifs with nothing
  · obtain ⟨e, rfl⟩ := Option.isSome_iff_exists.mp (isFraction nothing)
    subst nothing
    have same : readExponent (pointed [] ++ (powered (some e) ++ rest)) = some (e, rest) := power
    simp only [Option.elim_none, same, List.append_nil, Option.getD_some, List.length_nil,
      Nat.cast_zero, sub_zero]
    rfl
  · cases exponent with
    | none =>
      simp only [Option.elim_some, power, Option.map_none, Option.getD_none, zero_sub]
      rfl
    | some e =>
      simp only [Option.elim_some, power, Option.map_some, Option.getD_some]
      rfl

theorem isDigit_of_head {n : Numeral} {c : CodePoint} (first : c ∈ n.text.head?) : c.isDigit := by
  obtain ⟨d, others, whole⟩ := List.exists_cons_of_ne_nil n.isWhole.nonempty
  rw [text, whole] at first
  cases first
  exact n.isWhole.digits _ (whole ▸ List.mem_cons_self)

section Forms
variable {n : Nat} {e : Option Int} {w : Nat}

def split (nonzero : n ≠ 0) (w : Nat) (some : 0 < w) (e : Option Int)
    (isFraction : (decimal n).length ≤ w → e.isSome) : Numeral where
  whole := (decimal n).take w
  part := (decimal n).drop w
  exponent := e
  isWhole :=
    isWhole_of_head (fun c member => decimal_isDigits n c (List.mem_of_mem_take member)) nonzero
    (by rw [List.head?_take, if_neg some.ne'])
  digits c member := decimal_isDigits n c (List.mem_of_mem_drop member)
  isFraction nothing := isFraction (List.drop_eq_nil_iff.mp nothing)

def behind (n count : Nat) : Numeral where
  whole := "0"
  part := List.replicate count (.char '0') ++ decimal n
  exponent := none
  isWhole := decimal_isWhole 0
  digits := (zeros_isDigits count).append (decimal_isDigits n)
  isFraction nothing := absurd (List.append_eq_nil_iff.mp nothing).2 (decimal_ne_nil n)

def before (nonzero : n ≠ 0) (count : Nat) : Numeral where
  whole := decimal n ++ List.replicate count (.char '0')
  part := "0"
  exponent := none
  isWhole := isWhole_of_head ((decimal_isDigits n).append (zeros_isDigits count)) nonzero
    (by
      obtain ⟨d, others, written⟩ := List.exists_cons_of_ne_nil (decimal_ne_nil n)
      rw [written]
      rfl)
  digits := decimal_isDigits 0
  isFraction nothing := absurd nothing (decimal_ne_nil 0)

def value (m : Numeral) : Rat := m.mantissa * 10 ^ m.scale

theorem split_value (nonzero : n ≠ 0) (some : 0 < w)
    (isFraction : (decimal n).length ≤ w → e.isSome) :
    (split nonzero w some e isFraction).value = n *
      10 ^ (e.getD 0 - ((decimal n).length - w : Nat)) := by
  simp [value, mantissa, scale, split, List.take_append_drop, digitsValue_decimal]

theorem behind_value (n count : Nat) :
    (behind n count).value = n * 10 ^ (-(count + (decimal n).length : Nat) : Int) := by
  have leading : digitsValue "0" = 0 := rfl
  simp [value, mantissa, scale, behind, digitsValue_append, digitsValue_zeros,
    digitsValue_decimal, leading]

theorem before_value (nonzero : n ≠ 0) (count : Nat) :
    (before nonzero count).value = n * 10 ^ (count : Int) := by
  have last : digitsValue "0" = 0 := rfl
  have length : (("0" : String) : Text).length = 1 := rfl
  simp only [value, mantissa, scale, before, digitsValue_append, digitsValue_zeros,
    digitsValue_decimal, last, length, List.length_replicate, Option.getD_none]
  push_cast
  rw [zpow_natCast]
  ring

end Forms

end Numeral

section Fractions
variable {n : Nat} {q : Rat} {digits : String}

theorem ofString_ofList (cs : List Char) : ofString (String.ofList cs) = ofChars cs := by
  rw [ofString, String.toList_ofList]

theorem ofString_zeros (count : Nat) :
    ofString (zeros count) = List.replicate count (.char '0') := by
  rw [zeros, ofString_ofList, ofChars, List.map_replicate]

theorem length_ofString (s : String) : (ofString s).length = s.length := by
  simp [ofString, ofChars, String.length_toList]

theorem contains_iff {s : String} {c : Char} :
    s.toList.contains c ↔ CodePoint.char c ∈ ofString s := by
  simp [ofString, ofChars]

theorem ofString_take (w : Nat) (s : String) :
    ofString (String.ofList (s.toList.take w)) = (ofString s).take w := by
  rw [ofString_ofList, ofChars, List.map_take]
  rfl

theorem ofString_drop (w : Nat) (s : String) :
    ofString (String.ofList (s.toList.drop w)) = (ofString s).drop w := by
  rw [ofString_ofList, ofChars, List.map_drop]
  rfl

theorem ofString_positional (digits : String) (whole : Int) :
    ofString (positional digits whole) =
      if whole ≤ 0 then
        .char '0' :: .char '.' :: (List.replicate (-whole).toNat (.char '0') ++ ofString digits)
      else if (ofString digits).length ≤ whole.toNat then
        ofString digits ++ List.replicate (whole.toNat - (ofString digits).length) (.char '0')
      else (ofString digits).take whole.toNat ++ .char '.' ::
        (ofString digits).drop whole.toNat := by
  rw [positional, length_ofString]
  split_ifs
  · rw [ofString_append, ofString_append, ofString_zeros, List.append_assoc]
    rfl
  · rw [ofString_append, ofString_zeros]
  · rw [ofString_append, ofString_append, ofString_take, ofString_drop, List.append_assoc]
    rfl

theorem ofString_scientific (digits : String) (e : Int) :
    ofString (scientific digits e) =
      (ofString digits).take 1 ++ (pointed ((ofString digits).drop 1) ++ powered (some e)) := by
  have nothing :
      (String.ofList (digits.toList.drop 1)).isEmpty ↔ (ofString digits).drop 1 = [] := by
    rw [String.isEmpty_iff, String.ofList_eq_empty_iff, ofString, ofChars, ← List.map_drop,
      List.map_eq_nil_iff]
  simp only [scientific, nothing, ofString_append, ofString_exponentText, apply_ite ofString,
    ofString_take, ofString_drop, pointed]
  split_ifs with short
  · rfl
  · simp only [List.append_assoc]
    rfl

theorem positional_numeral (nonzero : n ≠ 0) (written : ofString digits = decimal n)
    (whole : Int) :
    ∃ m : Numeral, m.value = n * 10 ^ (whole - (decimal n).length) ∧
      ofString (let plain := positional digits whole
        if plain.toList.contains '.' then plain else plain ++ ".0") = m.text := by
  simp only [contains_iff, apply_ite ofString, ofString_append, ofString_positional, written]
  by_cases small : whole ≤ 0
  · refine ⟨.behind n (-whole).toNat, ?_, ?_⟩
    · rw [Numeral.behind_value]
      congr 2
      omega
    · rw [if_pos small, if_pos (by simp)]
      simp only [Numeral.text, Numeral.behind, pointed, List.append_eq_nil_iff, decimal_ne_nil,
        and_false, if_false, powered, List.append_nil]
      rfl
  by_cases long : (decimal n).length ≤ whole.toNat
  · refine ⟨.before nonzero (whole.toNat - (decimal n).length), ?_, ?_⟩
    · rw [Numeral.before_value]
      congr 2
      omega
    · have noPoint : CodePoint.char '.' ∉
          decimal n ++ List.replicate (whole.toNat - (decimal n).length) (.char '0') := by
        intro point
        have digit := ((decimal_isDigits n).append (zeros_isDigits _)) _ point
        exact absurd digit (by decide)
      rw [if_neg small, if_pos long, if_neg noPoint]
      rfl
  · have some : 0 < whole.toNat := by omega
    refine ⟨.split nonzero whole.toNat some none fun short => absurd short long, ?_, ?_⟩
    · rw [Numeral.split_value]
      congr 2
      rw [Option.getD_none]
      omega
    · rw [if_neg small, if_neg long, if_pos (by simp)]
      simp [Numeral.text, Numeral.split, pointed, powered, not_le.mp long]

theorem scientific_numeral (nonzero : n ≠ 0) (written : ofString digits = decimal n) (e : Int) :
    ∃ m : Numeral, m.value = n * 10 ^ (e + 1 - (decimal n).length) ∧
      ofString (scientific digits e) = m.text := by
  refine ⟨.split nonzero 1 Nat.one_pos (some e) fun _ => rfl, ?_, ?_⟩
  · have pos : 0 < (decimal n).length := List.length_pos_iff.mpr (decimal_ne_nil n)
    rw [Numeral.split_value]
    congr 2
    rw [Option.getD_some]
    omega
  · rw [ofString_scientific, written]
    rfl

theorem positiveText_numeral (exact : Binary64.Exact q) :
    ∃ m : Numeral, m.value = (Binary64.shortest q).value ∧
      ofString (Binary64.positiveText q) = m.text := by
  obtain ⟨pos, -⟩ := Binary64.shortest_reads exact
  rw [Binary64.positiveText]
  generalize Binary64.shortest q = d at pos
  have written := ofString_toString d.digits
  have exponent : d.leading + 1 - (decimal d.digits).length = d.scale := by
    rw [Decimal.leading, length_decimal]
    omega
  rw [Decimal.value, ← exponent]
  dsimp only
  by_cases plain : -4 ≤ d.leading ∧ d.leading < 16
  · rw [if_pos plain]
    exact positional_numeral pos.ne' written _
  · rw [if_neg plain]
    exact scientific_numeral pos.ne' written _

theorem readUnsigned_positiveText {rest : Text} (exact : Binary64.Exact q)
    (finite : q < Binary64.overflow) (negative : Bool) (ends : Ends rest) :
    readUnsigned negative (ofString (Binary64.positiveText q) ++ rest) =
      .ok (.fraction (.number (if negative then -q else q)), rest) := by
  obtain ⟨m, value, text⟩ := positiveText_numeral exact
  obtain ⟨pos, reads⟩ := Binary64.shortest_reads exact
  have nonzero : m.mantissa ≠ 0 := by
    intro zero
    have vanishes : m.value = 0 := by rw [Numeral.value, zero, Nat.cast_zero, zero_mul]
    have some : 0 < (Binary64.shortest q).value :=
      mul_pos (by exact_mod_cast pos) (zpow_pos (by norm_num) _)
    exact some.ne' (value.symm.trans vanishes)
  rw [text, m.readUnsigned_text negative ends,
    Binary64.ofDecimal_of_rounds negative nonzero exact.pos finite
    (by rw [← reads, ← value]; rfl)]

end Fractions

section Scalars
variable {s t : Text} {value : Json} {depth : Nat}

theorem reads_scalar
    (nonempty : ∃ c s', s = c :: s' ∧ ¬ isSpace c ∧ c ≠ ']' ∧ c ≠ '\x7d' ∧
      c ≠ '"' ∧ c ≠ '[' ∧ c ≠ '\x7b')
    (scalar : ∀ rest, Ends rest → readScalar (s ++ rest) = .ok (value, rest)) (depth : Nat) :
    Reads depth s value := by
  obtain ⟨c, s, rfl, visible, bracket, brace, quote, opens⟩ := nonempty
  refine ⟨⟨c, s, rfl, visible, bracket, brace⟩, fun {fuel rest} long ends => ?_⟩
  obtain _ | fuel := fuel
  · exact absurd long (Nat.not_lt_zero _)
  rw [← scalar rest ends, List.cons_append, readValue]
  · rintro _ ⟨⟩
    exact quote rfl
  · rintro _ ⟨⟩
    exact opens.1 rfl
  · rintro _ ⟨⟩
    exact opens.2 rfl

theorem readWord_word (rest : Text) :
    ∀ w ∈ words, readWord (w.1 ++ rest) = some (w.2, rest) := by
  simp only [words, List.forall_mem_cons]
  exact ⟨rfl, rfl, rfl, rfl, rfl, rfl, List.forall_mem_nil _⟩

theorem reads_word {w : Text × Json} (listed : w ∈ words) (depth : Nat) :
    Reads depth w.1 w.2 := by
  refine reads_scalar ?_ (fun rest _ => ?_) depth
  · simp only [words, List.mem_cons, List.not_mem_nil, or_false] at listed
    rcases listed with rfl | rfl | rfl | rfl | rfl | rfl
    all_goals exact ⟨_, _, rfl, by decide⟩
  · rw [readScalar, readWord_word rest w listed]

theorem words_apart : ∀ w ∈ words, 2 ≤ w.1.length ∧ (∀ c ∈ w.1.head?, ¬ c.isDigit) ∧
    ∀ c ∈ w.1.tail.head?, ¬ c.isDigit := by
  decide

def signed (negative : Bool) (s : Text) : Text := if negative then .char '-' :: s else s

theorem readWord_signed {d : CodePoint} (digit : d.isDigit) (negative : Bool) (s : Text) :
    readWord (signed negative (d :: s)) = none := by
  rw [readWord, List.findSome?_eq_none_iff]
  intro w listed
  obtain ⟨long, first, second⟩ := words_apart w listed
  have none : after? w.1 (signed negative (d :: s)) = none := by
    by_contra found
    obtain ⟨rest, found⟩ := Option.ne_none_iff_exists'.mp found
    have split := after?_eq_some.mp found
    match word : w.1, long with
    | a :: b :: u, _ =>
      rw [word] at split first second
      cases negative
      · injection split with same
        exact first a rfl (same ▸ digit)
      · injection split with minus others
        injection others with same
        exact second b rfl (same ▸ digit)
  simp [none]

theorem reads_number {n : Number} {negative : Bool} (first : ∀ d ∈ s.head?, d.isDigit)
    (nonempty : s ≠ []) (unsigned : ∀ rest, Ends rest →
      readUnsigned negative (s ++ rest) = .ok (n, rest)) (depth : Nat) :
    Reads depth (signed negative s) (number n) := by
  obtain ⟨d, s, rfl⟩ := List.exists_cons_of_ne_nil nonempty
  have digit : d.isDigit := first d rfl
  have apart {c : CodePoint} (other : c.isDigit = false) : d ≠ c := by
    rintro rfl
    exact absurd digit (by simp [other])
  refine reads_scalar ?_ (fun rest ends => ?_) depth
  · cases negative
    · exact ⟨d, s, rfl, fun space => (ends_apart (.inl space)).1 digit, apart rfl, apart rfl,
        apart rfl, apart rfl, apart rfl⟩
    · exact ⟨'-', d :: s, rfl, by decide⟩
  · have read : readNumber (signed negative (d :: s) ++ rest) = .ok (n, rest) := by
      rw [← unsigned rest ends]
      cases negative
      · show readNumber (d :: (s ++ rest)) = _
        rw [readNumber]
        · rfl
        · rintro _ ⟨⟩
          exact apart rfl rfl
      · rfl
    have noWord : readWord (signed negative (d :: s) ++ rest) = none := by
      have whole : signed negative (d :: s) ++ rest = signed negative (d :: (s ++ rest)) := by
        cases negative <;> rfl
      rw [whole, readWord_signed digit]
    rw [readScalar, noWord, read]
    rfl

theorem readUnsigned_decimal {n : Nat} {rest : Text} (fits : (decimal n).length ≤ digitLimit)
    (negative : Bool) (ends : Ends rest) :
    readUnsigned negative (decimal n ++ rest) =
      .ok (.whole (if negative then -n else n), rest) := by
  have noPart : readFraction rest = none := readFraction_pointed (List.forall_mem_nil _) ends none
  have noExponent : readExponent rest = none := readExponent_powered ends none
  simp only [readUnsigned, (decimal_isWhole n).read ends.stops, orMalformed, bind, Except.bind,
    noPart, Option.elim_none, noExponent, wholeNumber, fits, if_true, digitsValue_decimal]
  rfl

theorem reads_whole {n : Int} (fits : (toString n.natAbs).length ≤ digitLimit) (depth : Nat) :
    Reads depth (ofString (toString n)) (number (.whole n)) := by
  rw [← length_decimal] at fits
  have first (d : CodePoint) (head : d ∈ (decimal n.natAbs).head?) : d.isDigit :=
    decimal_isDigits _ d (List.mem_of_mem_head? head)
  have reads (negative : Bool) := reads_number first (decimal_ne_nil _)
    (fun rest ends => readUnsigned_decimal fits negative ends) depth
  rw [ofString_toString_int]
  split_ifs with negative
  · have same : -(n.natAbs : Int) = n := by omega
    have read := reads true
    rw [if_pos rfl, same] at read
    exact read
  · have same : (n.natAbs : Int) = n := by omega
    have read := reads false
    rw [if_neg Bool.false_ne_true, same] at read
    exact read

theorem ofDecimal_zero (negative : Bool) (scale : Int) :
    Binary64.ofDecimal negative 0 scale = if negative then .negativeZero else .number 0 := by
  cases negative <;> simp [Binary64.ofDecimal, Binary64.neg]

theorem reads_zero (negative : Bool) (depth : Nat) : Reads depth (signed negative "0.0")
    (number (.fraction (if negative then .negativeZero else .number 0))) := by
  have mantissa : (Numeral.behind 0 0).mantissa = 0 := rfl
  refine reads_number (s := (Numeral.behind 0 0).text) (fun d => Numeral.isDigit_of_head)
    (List.cons_ne_nil _ _) (fun rest ends => ?_) depth
  rw [Numeral.readUnsigned_text _ negative ends, mantissa, ofDecimal_zero]

theorem reads_exact {q : Rat} (exact : Binary64.Exact q) (finite : q < Binary64.overflow)
    (negative : Bool) (depth : Nat) :
    Reads depth (signed negative (ofString (Binary64.positiveText q)))
      (number (.fraction (.number (if negative then -q else q)))) := by
  obtain ⟨m, -, text⟩ := positiveText_numeral exact
  have nonempty : m.text ≠ [] := List.append_ne_nil_of_left_ne_nil m.isWhole.nonempty _
  exact reads_number (text ▸ fun d => Numeral.isDigit_of_head) (text ▸ nonempty)
    (fun rest ends => readUnsigned_positiveText exact finite negative ends) depth

/-- Every binary value is read back from its text. -/
theorem reads_fraction {x : Binary64} (genuine : x.Genuine) (depth : Nat) :
    Reads depth (ofChars (numberText (.fraction x))) (number (.fraction x)) := by
  cases x with
  | number q =>
    show Reads depth (ofString (Binary64.number q).text) _
    rcases genuine.cases with rfl | ⟨exact, finite⟩ | ⟨exact, finite⟩
    · exact reads_zero false depth
    · have positive : ¬ q < 0 := not_lt.mpr exact.pos.le
      rw [Binary64.text, if_neg exact.pos.ne', if_neg positive]
      exact reads_exact exact finite false depth
    · have negative : q < 0 := neg_pos.mp exact.pos
      have reads := reads_exact exact finite true depth
      rw [if_pos rfl, neg_neg] at reads
      rw [Binary64.text, if_neg negative.ne, if_pos negative, ofString_append]
      exact reads
  | negativeZero => exact reads_zero true depth
  | infinity negative =>
    cases negative
    · exact reads_word (w := ("Infinity", number (.fraction (.infinity false))))
        (by simp [words]) depth
    · exact reads_word (w := ("-Infinity", number (.fraction (.infinity true))))
        (by simp [words]) depth
  | nan => exact reads_word (w := ("NaN", number (.fraction .nan))) (by simp [words]) depth

end Scalars
end Json
end SeoAudit
