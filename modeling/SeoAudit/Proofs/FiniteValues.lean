import SeoAudit.Proofs.Scores

/-! Magnitudes of binary values. One operation at most doubles or multiplies the bounds of
its operands, so a computation of a few steps on counts stays far below the end of the
range, whatever the signs of the counts are. -/
namespace SeoAudit
namespace Binary64

def Within (e : Nat) (x : Binary64) : Prop := ∃ q, x.toRat? = some q ∧ |q| ≤ 2 ^ e

theorem roundPositive_le_two_pow {q : Rat} {e : Nat} (pos : 0 < q) (le : q ≤ 2 ^ e) :
    roundPositive q ≤ 2 ^ e := by
  have power : (2 : Rat) ^ e = 2 ^ (e : Int) := (zpow_natCast 2 e).symm
  rw [power] at le ⊢
  exact (roundPositive_mono pos le).trans_eq (roundPositive_two_zpow (by omega))

theorem two_pow_lt_overflow {e : Nat} (below : e < 1024) : (2 : Rat) ^ e < overflow :=
  pow_lt_pow_right₀ (by norm_num) below

variable {x y : Binary64} {d e : Nat}

theorem ofRat_within {q : Rat} (below : e < 1024) (le : |q| ≤ 2 ^ e) : (ofRat q).Within e := by
  have fits := two_pow_lt_overflow below
  obtain ⟨lower, upper⟩ := abs_le.mp le
  -- A negative value is rounded through its magnitude, which may vanish.
  rcases lt_trichotomy q 0 with negative | rfl | positive
  · have pos : 0 < -q := by linarith
    have rounded := roundPositive_le_two_pow pos (by linarith)
    have nonneg := roundPositive_nonneg pos
    have finite : ¬ overflow ≤ roundPositive (-q) := by linarith
    rw [ofRat, if_neg negative.ne, if_neg (by linarith)]
    simp only [finite, if_false]
    split_ifs with zero
    · exact ⟨0, rfl, by simp⟩
    · exact ⟨-roundPositive (-q), rfl, by rwa [abs_neg, abs_of_nonneg nonneg]⟩
  · exact ⟨0, by simp [ofRat, toRat?], by simp⟩
  · have rounded := roundPositive_le_two_pow positive upper
    have finite : ¬ overflow ≤ roundPositive q := by linarith
    rw [ofRat, if_neg positive.ne', if_pos positive]
    simp only [finite, if_false]
    exact ⟨roundPositive q, rfl, by rwa [abs_of_nonneg (roundPositive_nonneg positive)]⟩

theorem Within.neg (h : x.Within e) : x.neg.Within e := by
  obtain ⟨q, value, bound⟩ := h
  cases x with
  | number p =>
    cases value
    simp only [Binary64.neg]
    split_ifs
    · exact ⟨0, rfl, by simp⟩
    · exact ⟨-q, rfl, by rwa [abs_neg]⟩
  | negativeZero => exact ⟨0, rfl, by simp⟩
  | infinity _ => cases value
  | nan => cases value

theorem Within.add (hx : x.Within e) (hy : y.Within e) (below : e + 1 < 1024) :
    (x.add y).Within (e + 1) := by
  obtain ⟨p, xValue, xBound⟩ := hx
  obtain ⟨q, yValue, yBound⟩ := hy
  have sum : |p + q| ≤ 2 ^ (e + 1) := by
    calc |p + q| ≤ |p| + |q| := abs_add_le p q
      _ ≤ 2 ^ e + 2 ^ e := add_le_add xBound yBound
      _ = 2 ^ (e + 1) := by ring
  cases x <;> cases y <;> cases xValue <;> cases yValue
  · exact ofRat_within below sum
  · exact ⟨p, rfl, by rwa [add_zero] at sum⟩
  · exact ⟨q, rfl, by rwa [zero_add] at sum⟩
  · exact ⟨0, rfl, by simp⟩

theorem signedZero_within (negative : Bool) : (signedZero negative).Within e := by
  cases negative
  · exact ⟨0, rfl, by simp⟩
  · exact ⟨0, rfl, by simp⟩

theorem mul_of_finite {p q : Rat} (hx : x.toRat? = some p) (hy : y.toRat? = some q) :
    x.mul y = if p * q = 0 then signedZero (x.isNegative != y.isNegative) else ofRat (p * q) := by
  cases x <;> cases y <;> cases hx <;> cases hy <;> rfl

theorem Within.mul (hx : x.Within d) (hy : y.Within e) (below : d + e < 1024) :
    (x.mul y).Within (d + e) := by
  obtain ⟨p, xValue, xBound⟩ := hx
  obtain ⟨q, yValue, yBound⟩ := hy
  rw [mul_of_finite xValue yValue]
  split_ifs
  · exact signedZero_within _
  · have product : |p * q| ≤ 2 ^ (d + e) := by
      rw [abs_mul, pow_add]
      exact mul_le_mul xBound yBound (abs_nonneg q) (by positivity)
    exact ofRat_within below product

theorem half_within : half.Within e := by
  refine ⟨1 / 2, rfl, ?_⟩
  have one : (1 : Rat) ≤ 2 ^ e := one_le_pow₀ (by norm_num)
  rw [abs_of_pos (by norm_num)]
  linarith

theorem Within.integerPart_ok (h : x.Within e) : ∃ n, x.integerPart = .ok n := by
  obtain ⟨q, value, -⟩ := h
  cases x with
  | number p => exact ⟨_, rfl⟩
  | negativeZero => exact ⟨_, rfl⟩
  | infinity _ => cases value
  | nan => cases value

theorem Within.roundHalf_ok (h : x.Within e) (below : e + 1 < 1024) :
    ∃ n, x.roundHalf = .ok n := by
  unfold roundHalf
  split_ifs
  · obtain ⟨n, part⟩ := (h.neg.add half_within below).integerPart_ok
    exact ⟨n * (-1), by rw [part]; rfl⟩
  · exact (h.add half_within below).integerPart_ok

end Binary64

open Binary64

theorem Number.wholeQuotient_within {part : Int} (total : Int) {e : Nat} (below : e < 1024)
    (le : |part| ≤ 2 ^ e) : ∃ q, wholeQuotient part total = .ok q ∧ q.Within e := by
  have share : |(part : Rat) / total| ≤ 2 ^ e := by
    have cast : |(part : Rat)| ≤ 2 ^ e := by exact_mod_cast le
    rw [abs_div]
    rcases eq_or_ne total 0 with rfl | nonzero
    · simp
    · have one : (1 : Rat) ≤ |(total : Rat)| := by exact_mod_cast Int.one_le_abs nonzero
      exact (div_le_self (abs_nonneg _) one).trans cast
  have rounded := ofRat_within below share
  refine ⟨ofRat (part / total), ?_, rounded⟩
  obtain ⟨q, value, -⟩ := rounded
  unfold wholeQuotient
  split
  · rename_i infinite
    rw [infinite] at value
    cases value
  · rfl

namespace Findings

theorem checkShare_of_le {part total : Int} (le : |part| ≤ 2 ^ 54) :
    checkShare part total = .ok () := by
  obtain ⟨q, quotient, within⟩ := Number.wholeQuotient_within total (by norm_num) le
  have max : (number categoryMax).Within 5 := ⟨_, rfl, by norm_num [categoryMax]⟩
  obtain ⟨n, points⟩ := (within.mul max (by norm_num)).roundHalf_ok (by norm_num)
  simp only [checkShare, quotient, bind, Except.bind, points]
  rfl

/-- Image counts no larger than the whole numbers that are exact in binary. Images without
alternative text need not be fewer than all images. -/
structure CountsFit (f : Findings) : Prop where
  total : f.coverage.totalImages ≤ 2 ^ 53
  nonneg : 0 ≤ f.coverage.imagesWithoutAlt
  withoutAlt : f.coverage.imagesWithoutAlt ≤ 2 ^ 53

theorem CountsFit.card_eq_score {f : Findings} (fit : f.CountsFit) : f.card = .ok f.score := by
  obtain ⟨total, nonneg, withoutAlt⟩ := fit
  refine card_of_shares (fun some => ?_) fun some => ?_
  · exact checkShare_of_le (abs_le.mpr ⟨by omega, by omega⟩)
  · exact checkShare_of_le (abs_le.mpr ⟨by omega, by omega⟩)

end Findings
end SeoAudit
