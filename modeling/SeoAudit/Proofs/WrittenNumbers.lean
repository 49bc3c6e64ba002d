import Mathlib.Tactic.SplitIfs
import SeoAudit.Json.Reader

/-! Decimal digits. A whole number that is written with them is read back, by the reader of options
and settings and by the one of JSON texts, as long as both allow for its digits. -/
namespace SeoAudit
namespace Text
variable {n : Nat} {ds s t : Text}

def decimal (n : Nat) : Text := ofChars (Nat.toDigits 10 n)

def IsDigits (s : Text) : Prop := ∀ c ∈ s, c.isDigit

theorem IsDigits.append (first : IsDigits s) (second : IsDigits t) : IsDigits (s ++ t) :=
  fun c member => (List.mem_append.mp member).elim (first c) (second c)

theorem zeros_isDigits (count : Nat) : IsDigits (List.replicate count (.char '0')) := by
  intro c member
  rw [List.eq_of_mem_replicate member]
  decide

theorem ofString_append (a b : String) : ofString (a ++ b) = ofString a ++ ofString b := by
  simp [ofString, ofChars]

theorem ofString_toString (n : Nat) : ofString (toString n) = decimal n := by
  rw [ofString, Nat.toString_eq_repr, Nat.toList_repr, decimal]

theorem ofString_toString_int (n : Int) :
    ofString (toString n) = if n < 0 then .char '-' :: decimal n.natAbs else decimal n.natAbs := by
  cases n with
  | ofNat n =>
    have nonneg : ¬ Int.ofNat n < 0 := Int.not_lt.mpr (Int.natCast_nonneg n)
    rw [if_neg nonneg]
    exact ofString_toString n
  | negSucc n =>
    have negative : toString (Int.negSucc n) = "-" ++ toString (n + 1) := rfl
    rw [negative, if_pos (Int.negSucc_lt_zero n), ofString_append]
    exact congrArg (.char '-' :: ·) (ofString_toString (n + 1))

theorem decimal_isDigits (n : Nat) : IsDigits (decimal n) := by
  intro c member
  obtain ⟨digit, listed, rfl⟩ := List.mem_map.mp member
  exact Nat.isDigit_of_mem_toDigits (by decide) (by decide) listed

theorem decimal_ne_nil (n : Nat) : decimal n ≠ [] := by
  simp [decimal, ofChars]

theorem head_toDigits (nonzero : n ≠ 0) : (Nat.toDigits 10 n).head? ≠ some '0' := by
  induction n using Nat.strongRecOn with
  | _ n ih =>
    rw [Nat.toDigits_eq_if (by decide)]
    split
    · simpa using nonzero
    · rename_i large
      have shorter := ih (n / 10) (by omega) (by omega)
      obtain ⟨d, ds, digits⟩ :=
        List.exists_cons_of_ne_nil (Nat.toDigits_ne_nil (n := n / 10) (b := 10))
      rw [digits] at shorter ⊢
      exact shorter

theorem head_decimal (nonzero : n ≠ 0) : (decimal n).head? ≠ some (.char '0') := by
  simpa [decimal, ofChars] using head_toDigits nonzero

theorem length_decimal (n : Nat) : (decimal n).length = (toString n).length := by
  simp [decimal, ofChars, ← String.length_toList]

theorem digit_bounds {c : CodePoint} (digit : c.isDigit) : 0x30 ≤ c.code ∧ c.code ≤ 0x39 := by
  cases c with
  | char c => exact Char.isDigit_iff_toNat.mp digit
  | half h => cases digit

theorem digit_ne {c : CodePoint} (digit : c.isDigit) :
    isNumberSpace c = false ∧ c ≠ '_' ∧ c ≠ '-' ∧ c ≠ '+' := by
  cases c with
  | char c =>
    have bounds : 0x30 ≤ c.toNat ∧ c.toNat ≤ 0x39 := Char.isDigit_iff_toNat.mp digit
    refine ⟨?_, ?_, ?_, ?_⟩
    · simp [isNumberSpace, CodePoint.isBlank, CodePoint.satisfies, isBlank]
      omega
    all_goals
      rintro ⟨⟩
      revert bounds
      decide
  | half h => cases digit

theorem digitsValue_decimal (n : Nat) : Json.digitsValue (decimal n) = n := by
  have read := Nat.ofDigitChars_ten_toDigits (n := n)
  rw [Nat.ofDigitChars_eq_foldl] at read
  simpa [Json.digitsValue, decimal, ofChars, List.foldl_map, CodePoint.code,
    Nat.mul_comm] using read

theorem decimal_inj {m n : Nat} (same : decimal m = decimal n) : m = n := by
  rw [← digitsValue_decimal m, same, digitsValue_decimal]

theorem ofString_toString_inj {m n : Int} (same : ofString (toString m) = ofString (toString n)) :
    m = n := by
  have unsigned (k : Nat) (s : Text) : decimal k ≠ .char '-' :: s := fun written =>
    (digit_ne (decimal_isDigits k _ (written ▸ List.mem_cons_self))).2.2.1 rfl
  rw [ofString_toString_int, ofString_toString_int] at same
  split_ifs at same
  · have sizes := decimal_inj (List.cons.inj same).2
    omega
  · exact absurd same.symm (unsigned _ _)
  · exact absurd same (unsigned _ _)
  · have sizes := decimal_inj same
    omega

theorem takeWhile_toString (n : Int) (s : Text) :
    (ofString (toString n) ++ .char ' ' :: s).takeWhile (· ≠ .char ' ') =
      ofString (toString n) := by
  have digits : ∀ c ∈ decimal n.natAbs, (c ≠ .char ' ' : Bool) := by
    intro c member
    rw [decide_eq_true_iff]
    rintro rfl
    exact absurd (decimal_isDigits n.natAbs _ member) (by decide)
  have apart : ∀ c ∈ ofString (toString n), (c ≠ .char ' ' : Bool) := by
    rw [ofString_toString_int]
    split_ifs
    · exact List.forall_mem_cons.mpr ⟨by decide, digits⟩
    · exact digits
  rw [List.takeWhile_append_of_pos apart, List.takeWhile_cons_of_neg (by decide), List.append_nil]

theorem toString_space_inj {m n : Int}
    (same : ofString (toString m) ++ .char ' ' :: s = ofString (toString n) ++ .char ' ' :: t) :
    m = n ∧ s = t := by
  have numbers := congrArg (List.takeWhile (· ≠ .char ' ')) same
  rw [takeWhile_toString, takeWhile_toString] at numbers
  rw [numbers] at same
  exact ⟨ofString_toString_inj numbers, (List.cons.inj (List.append_cancel_left same)).2⟩

end Text
end SeoAudit
