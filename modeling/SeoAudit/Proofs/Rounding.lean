import Mathlib.Data.Int.Log
import Mathlib.Data.Rat.Floor
import Mathlib.Tactic.Linarith
import SeoAudit.Number.Basic

/-! Order laws of rounding to binary. Rounding keeps the order of nonnegative values
and leaves alone every whole multiple of a power of two that fits the significand.
From these two laws follow all bounds on rounded shares that the scores need. -/
namespace SeoAudit

theorem nearestEven_le_floor_add_one (q : Rat) : nearestEven q ≤ q.floor + 1 := by
  unfold nearestEven
  dsimp only
  split_ifs <;> omega

theorem floor_le_nearestEven (q : Rat) : q.floor ≤ nearestEven q := by
  unfold nearestEven
  dsimp only
  split_ifs <;> omega

theorem nearestEven_mono {p q : Rat} (le : p ≤ q) : nearestEven p ≤ nearestEven q := by
  have floors : p.floor ≤ q.floor := Rat.floor_monotone le
  rcases floors.lt_or_eq with below | same
  · calc nearestEven p ≤ p.floor + 1 := nearestEven_le_floor_add_one p
      _ ≤ q.floor := below
      _ ≤ nearestEven q := floor_le_nearestEven q
  · have gaps : p - p.floor ≤ q - q.floor := by
      rw [same]
      linarith
    unfold nearestEven
    dsimp only
    rw [same] at gaps ⊢
    split_ifs <;> first | omega | (exfalso; linarith)

namespace Binary64

theorem two_zpow_pos (e : Int) : (0 : Rat) < 2 ^ e := zpow_pos (by norm_num) e

theorem two_zpow_le {d e : Int} (le : d ≤ e) : (2 : Rat) ^ d ≤ 2 ^ e :=
  zpow_le_zpow_right₀ (by norm_num) le

theorem two_zpow_add (d e : Int) : (2 : Rat) ^ (d + e) = 2 ^ d * 2 ^ e :=
  zpow_add₀ (by norm_num) d e

theorem two_zpow_sub_one (e : Int) : (2 : Rat) ^ (e - 1) = 1 / 2 * 2 ^ e := by
  rw [sub_eq_add_neg, two_zpow_add, zpow_neg_one]
  ring

theorem overflow_eq_zpow : overflow = (2 : Rat) ^ (1024 : Int) := by
  rw [overflow, ← zpow_natCast]
  rfl

theorem natCast_bounds {b n : Nat} (base : 1 < b) (pos : n ≠ 0) :
    (b : Rat) ^ (Nat.log b n : Int) ≤ n ∧ (n : Rat) < b ^ ((Nat.log b n : Int) + 1) := by
  have next : ((Nat.log b n : Int) + 1) = ((Nat.log b n + 1 : Nat) : Int) := by push_cast; rfl
  rw [next, zpow_natCast, zpow_natCast]
  exact ⟨by exact_mod_cast Nat.pow_log_le_self b pos,
    by exact_mod_cast Nat.lt_pow_succ_log_self base n⟩

theorem quotient_bounds {b n d : Nat} (base : 1 < b) (numPos : n ≠ 0) (denPos : d ≠ 0) :
    (b : Rat) ^ ((Nat.log b n : Int) - Nat.log b d - 1) ≤ (n : Rat) / d ∧
      (n : Rat) / d < b ^ ((Nat.log b n : Int) - Nat.log b d + 1) := by
  have den : (0 : Rat) < d := by exact_mod_cast Nat.pos_of_ne_zero denPos
  have basePos : (0 : Rat) < b := by exact_mod_cast Nat.zero_lt_of_lt base
  obtain ⟨leNum, numLt⟩ := natCast_bounds base numPos
  obtain ⟨leDen, denLt⟩ := natCast_bounds base denPos
  constructor
  · rw [le_div_iff₀ den]
    calc (b : Rat) ^ ((Nat.log b n : Int) - Nat.log b d - 1) * d
        ≤ b ^ ((Nat.log b n : Int) - Nat.log b d - 1) * b ^ ((Nat.log b d : Int) + 1) :=
          mul_le_mul_of_nonneg_left denLt.le (zpow_pos basePos _).le
      _ = b ^ (Nat.log b n : Int) := by
          rw [← zpow_add₀ basePos.ne']
          congr 1
          ring
      _ ≤ n := leNum
  · rw [div_lt_iff₀ den]
    calc (n : Rat) < b ^ ((Nat.log b n : Int) + 1) := numLt
      _ = b ^ ((Nat.log b n : Int) - Nat.log b d + 1) * b ^ (Nat.log b d : Int) := by
          rw [← zpow_add₀ basePos.ne']
          congr 1
          ring
      _ ≤ b ^ ((Nat.log b n : Int) - Nat.log b d + 1) * d :=
          mul_le_mul_of_nonneg_left leDen (zpow_pos basePos _).le

/-- The guess at the logarithm of a positive rational is off by at most one. -/
theorem log_eq_guess {b : Nat} (base : 1 < b) {q : Rat} (pos : 0 < q) {guess : Int}
    (guessed : guess = (Nat.log b q.num.natAbs : Int) - Nat.log b q.den) :
    Int.log b q = if (b : Rat) ^ guess ≤ q then guess else guess - 1 := by
  have numPos : 0 < q.num := Rat.num_pos.mpr pos
  have quotient : (q.num.natAbs : Rat) / q.den = q := by
    have abs : ((q.num.natAbs : Int) : Rat) = q.num := by
      rw [Int.natAbs_of_nonneg numPos.le]
    rw [← Int.cast_natCast q.num.natAbs, abs]
    exact Rat.num_div_den q
  obtain ⟨low, high⟩ :=
    quotient_bounds base (n := q.num.natAbs) (d := q.den) (by omega) q.den_nz
  rw [quotient, ← guessed] at low high
  have atLeast := (Int.zpow_le_iff_le_log base pos).mp low
  have below := (Int.lt_zpow_iff_log_lt base pos).mp high
  split_ifs with fits
  · have := (Int.zpow_le_iff_le_log base pos).mp fits
    omega
  · have := (Int.lt_zpow_iff_log_lt base pos).mp (not_le.mp fits)
    omega

theorem lastBit_eq {q : Rat} (pos : 0 < q) : lastBit q = max (Int.log 2 q - 52) (-1074) := by
  have log := log_eq_guess (b := 2) (by norm_num) pos rfl
  rw [← Nat.log2_eq_log_two, ← Nat.log2_eq_log_two] at log
  rw [log]
  rfl

theorem lastBit_mono {p q : Rat} (pos : 0 < p) (le : p ≤ q) : lastBit p ≤ lastBit q := by
  have logs : Int.log 2 p ≤ Int.log 2 q := Int.log_mono_right pos le
  rw [lastBit_eq pos, lastBit_eq (pos.trans_le le)]
  omega

theorem lt_units {q : Rat} (pos : 0 < q) : q < 2 ^ (lastBit q + 53) := by
  have high := Int.lt_zpow_succ_log_self (b := 2) (by norm_num) q
  calc q < 2 ^ (Int.log 2 q + 1) := by exact_mod_cast high
    _ ≤ 2 ^ (lastBit q + 53) := two_zpow_le (by rw [lastBit_eq pos]; omega)

theorem units_le {q : Rat} (pos : 0 < q) (normal : -1074 < lastBit q) :
    (2 : Rat) ^ (lastBit q + 52) ≤ q := by
  have low := Int.zpow_log_le_self (b := 2) (by norm_num) pos
  have exponent : lastBit q + 52 = Int.log 2 q := by
    rw [lastBit_eq pos] at normal ⊢
    omega
  rw [exponent]
  exact_mod_cast low

theorem lastBit_of_dyadic_le {q : Rat} {m : Nat} {e : Int} (pos : 0 < q) (least : -1074 ≤ e)
    (fits : m < 2 ^ 53) (value : q = m * 2 ^ e) : lastBit q ≤ e := by
  have below : q < (2 : Nat) ^ (e + 53) := by
    have mantissa : (m : Rat) < 2 ^ (53 : Int) := by exact_mod_cast fits
    calc q = m * 2 ^ e := value
      _ < 2 ^ (53 : Int) * 2 ^ e := mul_lt_mul_of_pos_right mantissa (two_zpow_pos e)
      _ = 2 ^ (e + 53) := by rw [← two_zpow_add, add_comm]
  have := (Int.lt_zpow_iff_log_lt (b := 2) (by norm_num) pos).mp below
  rw [lastBit_eq pos]
  omega

theorem roundPositive_mul_unit (q : Rat) (n : Int) (units : q = n * 2 ^ lastBit q) :
    roundPositive q = q := by
  have scaled : q / 2 ^ lastBit q = n := by
    rw [div_eq_iff (two_zpow_pos _).ne']
    exact units
  rw [roundPositive, significand, scaled, nearestEven_intCast]
  exact units.symm

/-- A multiple of a power of two that fits the significand is not changed. -/
theorem roundPositive_dyadic {m : Nat} {e : Int} (pos : m ≠ 0) (least : -1074 ≤ e)
    (fits : m < 2 ^ 53) : roundPositive (m * 2 ^ e) = m * 2 ^ e := by
  have valuePos : (0 : Rat) < m * 2 ^ e :=
    mul_pos (by exact_mod_cast Nat.pos_of_ne_zero pos) (two_zpow_pos e)
  have shift := lastBit_of_dyadic_le valuePos least fits rfl
  apply roundPositive_mul_unit _ (m * 2 ^ (e - lastBit (m * 2 ^ e)).toNat)
  generalize lastBit (m * 2 ^ e) = l at shift ⊢
  have exponent : e = ((e - l).toNat : Int) + l := by omega
  conv_lhs => rw [exponent, two_zpow_add, zpow_natCast]
  push_cast
  ring

theorem roundPositive_two_zpow {e : Int} (least : -1074 ≤ e) :
    roundPositive ((2 : Rat) ^ e) = 2 ^ e := by
  simpa using roundPositive_dyadic (m := 1) (by norm_num) least (by norm_num)

theorem roundPositive_le_of_same {p q : Rat} (le : p ≤ q) (same : lastBit p = lastBit q) :
    roundPositive p ≤ roundPositive q := by
  unfold roundPositive significand
  rw [same]
  apply mul_le_mul_of_nonneg_right _ (two_zpow_pos _).le
  have scaled : p / 2 ^ lastBit q ≤ q / 2 ^ lastBit q :=
    div_le_div_of_nonneg_right le (two_zpow_pos _).le
  exact_mod_cast nearestEven_mono scaled

theorem roundPositive_le_units {q : Rat} (pos : 0 < q) :
    roundPositive q ≤ 2 ^ (lastBit q + 53) := by
  have scaled : q / 2 ^ lastBit q ≤ ((2 ^ 53 : Int) : Rat) := by
    rw [div_le_iff₀ (two_zpow_pos _)]
    have below := (lt_units pos).le
    rw [add_comm, two_zpow_add] at below
    exact_mod_cast below
  have significandLe := nearestEven_mono scaled
  rw [nearestEven_intCast] at significandLe
  rw [add_comm, two_zpow_add]
  apply mul_le_mul_of_nonneg_right _ (two_zpow_pos _).le
  exact_mod_cast significandLe

theorem units_le_roundPositive {q : Rat} (pos : 0 < q) (normal : -1074 < lastBit q) :
    (2 : Rat) ^ (lastBit q + 52) ≤ roundPositive q := by
  have scaled : ((2 ^ 52 : Int) : Rat) ≤ q / 2 ^ lastBit q := by
    rw [le_div_iff₀ (two_zpow_pos _)]
    have above := units_le pos normal
    rw [add_comm, two_zpow_add] at above
    exact_mod_cast above
  have leSignificand := nearestEven_mono scaled
  rw [nearestEven_intCast] at leSignificand
  rw [add_comm, two_zpow_add]
  apply mul_le_mul_of_nonneg_right _ (two_zpow_pos _).le
  exact_mod_cast leSignificand

theorem roundPositive_mono {p q : Rat} (pos : 0 < p) (le : p ≤ q) :
    roundPositive p ≤ roundPositive q := by
  have least : -1074 ≤ lastBit p := by
    rw [lastBit_eq pos]
    omega
  -- On one grid the nearest points keep the order; between two grids lies a power of two.
  rcases (lastBit_mono pos le).lt_or_eq with finer | same
  · calc roundPositive p ≤ 2 ^ (lastBit p + 53) := roundPositive_le_units pos
      _ ≤ 2 ^ (lastBit q + 52) := two_zpow_le (by omega)
      _ ≤ roundPositive q := units_le_roundPositive (pos.trans_le le) (by omega)
  · exact roundPositive_le_of_same le same

def nearest (q : Rat) : Rat := if q = 0 then 0 else roundPositive q

@[simp] theorem nearest_zero : nearest 0 = 0 := if_pos rfl

theorem nearest_of_pos {q : Rat} (pos : 0 < q) : nearest q = roundPositive q := if_neg pos.ne'

theorem roundPositive_nonneg {q : Rat} (pos : 0 < q) : 0 ≤ roundPositive q := by
  have scaled : ((0 : Int) : Rat) ≤ q / 2 ^ lastBit q := by
    simpa using (div_pos pos (two_zpow_pos _)).le
  have significandNonneg := nearestEven_mono scaled
  rw [nearestEven_intCast] at significandNonneg
  exact mul_nonneg (by exact_mod_cast significandNonneg) (two_zpow_pos _).le

theorem nearest_nonneg {q : Rat} (nonneg : 0 ≤ q) : 0 ≤ nearest q := by
  rcases nonneg.eq_or_lt with rfl | pos
  · simp
  · rw [nearest_of_pos pos]
    exact roundPositive_nonneg pos

theorem nearest_mono {p q : Rat} (nonneg : 0 ≤ p) (le : p ≤ q) : nearest p ≤ nearest q := by
  rcases nonneg.eq_or_lt with rfl | pos
  · simpa using nearest_nonneg le
  · rw [nearest_of_pos pos, nearest_of_pos (pos.trans_le le)]
    exact roundPositive_mono pos le

theorem nearest_dyadic (m : Nat) (e : Int) (least : -1074 ≤ e) (fits : m < 2 ^ 53) :
    nearest (m * 2 ^ e) = m * 2 ^ e := by
  rcases Nat.eq_zero_or_pos m with rfl | pos
  · simp
  · have valuePos : (0 : Rat) < m * 2 ^ e := mul_pos (by exact_mod_cast pos) (two_zpow_pos e)
    rw [nearest_of_pos valuePos]
    exact roundPositive_dyadic pos.ne' least fits

theorem nearest_natCast {n : Nat} (fits : n < 2 ^ 53) : nearest n = n := by
  simpa using nearest_dyadic n 0 (by norm_num) fits

theorem nearest_halves {k : Nat} (fits : k < 2 ^ 53) : nearest (k / 2) = k / 2 := by
  have value : (k : Rat) / 2 = k * 2 ^ (-1 : Int) := by
    rw [zpow_neg_one]
    exact div_eq_mul_inv _ _
  rw [value]
  exact nearest_dyadic k (-1) (by norm_num) fits

theorem nearest_le_natCast {q : Rat} {n : Nat} (nonneg : 0 ≤ q) (le : q ≤ n)
    (fits : n < 2 ^ 53) : nearest q ≤ n :=
  (nearest_mono nonneg le).trans_eq (nearest_natCast fits)

theorem ofRat_eq_number {q : Rat} (nonneg : 0 ≤ q) (small : q ≤ 2 ^ 53) :
    ofRat q = number (nearest q) := by
  rcases nonneg.eq_or_lt with rfl | pos
  · simp [ofRat]
  · have below : roundPositive q < overflow := by
      calc roundPositive q ≤ roundPositive (2 ^ (53 : Int)) :=
            roundPositive_mono pos (by exact_mod_cast small)
        _ = 2 ^ (53 : Int) := roundPositive_two_zpow (by norm_num)
        _ < 2 ^ (1024 : Int) := zpow_lt_zpow_right₀ (by norm_num) (by norm_num)
        _ = overflow := overflow_eq_zpow.symm
    rw [nearest_of_pos pos, ofRat]
    simp [pos.ne', pos, not_le.mpr below]

theorem ofInt_natCast {n : Nat} (fits : n < 2 ^ 53) : ofInt n = number n := by
  have rounded := ofRat_eq_number (q := n) (Nat.cast_nonneg n) (by exact_mod_cast fits.le)
  rw [nearest_natCast fits] at rounded
  exact_mod_cast rounded

theorem add_number {p q : Rat} (nonneg : 0 ≤ p + q) (small : p + q ≤ 2 ^ 53) :
    add (number p) (number q) = number (nearest (p + q)) :=
  ofRat_eq_number nonneg small

theorem mul_number {p q : Rat} (hp : 0 ≤ p) (hq : 0 ≤ q) (small : p * q ≤ 2 ^ 53) :
    mul (number p) (number q) = number (nearest (p * q)) := by
  rw [← ofRat_eq_number (mul_nonneg hp hq) small]
  have signs : (isNegative (number p) != isNegative (number q)) = false := by
    simp [isNegative, not_lt.mpr hp, not_lt.mpr hq]
  by_cases zero : p * q = 0
  · simp [mul, toRat?, signs, zero, signedZero, ofRat]
  · simp [mul, toRat?, zero]

theorem div?_number {p q : Rat} (hp : 0 ≤ p) (hq : 0 < q) (small : p / q ≤ 2 ^ 53) :
    div? (number p) (number q) = some (number (nearest (p / q))) := by
  rw [← ofRat_eq_number (div_nonneg hp hq.le) small]
  rcases hp.eq_or_lt with rfl | pos
  · simp [div?, toRat?, isNegative, not_lt.mpr hq.le, hq.ne', signedZero, ofRat]
  · simp [div?, toRat?, pos.ne', hq.ne']

theorem roundHalf_number {p : Rat} (nonneg : 0 ≤ p) (small : p + 1 / 2 ≤ 2 ^ 53) :
    roundHalf (number p) = .ok (nearest (p + 1 / 2)).floor := by
  have sumNonneg : 0 ≤ p + 1 / 2 := by linarith
  have notBelow : (number p).lt (number 0) = false := by simp [lt, toRat?, nonneg]
  have sum : add (number p) half = number (nearest (p + 1 / 2)) := add_number sumNonneg small
  have part : truncate? (number (nearest (p + 1 / 2))) = some (nearest (p + 1 / 2)).floor := by
    rw [truncate?, toRat?, Option.map_some, if_neg (not_lt.mpr (nearest_nonneg sumNonneg))]
  simp only [roundHalf, notBelow, sum, integerPart, part, reduceCtorEq, decide_false,
    Bool.or_self, Bool.false_eq_true, if_false]

end Binary64
end SeoAudit
