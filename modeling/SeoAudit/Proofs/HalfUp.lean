import SeoAudit.Proofs.Points

/-! Rounding half up, exactly and in binary. A value rounded to binary is off by at most
half a unit of its last bit, so a share of a scale comes to the exact nearest whole number
wherever the exact product keeps away from the halves. The shares whose product is a half
are finitely many, and each of them is computed. -/
namespace SeoAudit
open Binary64

theorem abs_nearestEven_sub_le (q : Rat) : |(nearestEven q : Rat) - q| ≤ 1 / 2 := by
  have low := Rat.floor_le q
  have high := Rat.lt_floor_add_one q
  push_cast at high
  rw [abs_le]
  unfold nearestEven
  dsimp only
  split_ifs <;> push_cast <;> constructor <;> linarith

namespace Binary64

theorem abs_roundPositive_sub_le (q : Rat) : |roundPositive q - q| ≤ 2 ^ (lastBit q - 1) := by
  have unit := two_zpow_pos (lastBit q)
  have scaled : roundPositive q - q =
      (nearestEven (q / 2 ^ lastBit q) - q / 2 ^ lastBit q) * 2 ^ lastBit q := by
    rw [roundPositive, significand, sub_mul, div_mul_cancel₀ _ unit.ne']
  rw [scaled, abs_mul, abs_of_pos unit, two_zpow_sub_one]
  exact mul_le_mul_of_nonneg_right (abs_nearestEven_sub_le _) unit.le

theorem abs_nearest_sub_le {q : Rat} {e : Int} (nonneg : 0 ≤ q) (below : q < 2 ^ e)
    (normal : -1021 ≤ e) : |nearest q - q| ≤ 2 ^ (e - 54) := by
  rcases nonneg.eq_or_lt with rfl | pos
  · simpa using (two_zpow_pos (e - 54)).le
  · have log := (Int.lt_zpow_iff_log_lt (b := 2) (by norm_num) pos).mp (by exact_mod_cast below)
    rw [nearest_of_pos pos]
    calc |roundPositive q - q| ≤ 2 ^ (lastBit q - 1) := abs_roundPositive_sub_le q
      _ ≤ 2 ^ (e - 54) := two_zpow_le (by rw [lastBit_eq pos]; omega)

end Binary64

section Floor
variable {x z gap : Rat}

theorem floor_eq_of_close (close : |x - z| < gap) (apart : ∀ m : Int, gap ≤ |z - m|) :
    x.floor = z.floor := by
  have low := Rat.floor_le z
  have high := Rat.lt_floor_add_one z
  have fromLow := apart z.floor
  have fromHigh := apart (z.floor + 1)
  rw [abs_of_nonneg (by linarith)] at fromLow
  rw [abs_sub_comm, abs_of_nonneg (by linarith)] at fromHigh
  obtain ⟨below, above⟩ := abs_lt.mp close
  have atLeast : z.floor ≤ x.floor := Rat.le_floor_iff.mpr (by linarith)
  have atMost : x.floor < z.floor + 1 := Rat.floor_lt_iff.mpr (by linarith)
  omega

theorem floor_of_close_whole {m : Int} (close : |x - m| < 1) :
    x.floor = m ∨ x.floor = m - 1 := by
  obtain ⟨below, above⟩ := abs_lt.mp close
  have atLeast : m - 1 ≤ x.floor := Rat.le_floor_iff.mpr (by push_cast; linarith)
  have atMost : x.floor < m + 1 := Rat.floor_lt_iff.mpr (by push_cast; linarith)
  omega

theorem gap_le_of_not_whole {k d : Int} (pos : 0 < d) (fraction : ∀ m : Int, (k : Rat) / d ≠ m)
    (m : Int) : 1 / (d : Rat) ≤ |(k : Rat) / d - m| := by
  have posCast : (0 : Rat) < d := by exact_mod_cast pos
  have value : (k : Rat) / d - m = ((k - m * d : Int) : Rat) / d := by
    push_cast
    field_simp
  have nonzero : k - m * d ≠ 0 := by
    intro zero
    apply fraction m
    rw [div_eq_iff posCast.ne']
    exact_mod_cast sub_eq_zero.mp zero
  have one : (1 : Rat) ≤ |((k - m * d : Int) : Rat)| := by
    exact_mod_cast Int.one_le_abs nonzero
  rw [value, abs_div, abs_of_pos posCast]
  exact div_le_div_of_nonneg_right one posCast.le

end Floor

def halfUp (q : Rat) : Int := (q + 1 / 2).floor

def binaryScaled (scale x : Rat) : Int := (nearest (nearest (x * scale) + 1 / 2)).floor

/-- A binary value that stands for a share, a few roundings away from it. -/
structure StandsFor (x q : Rat) : Prop where
  nonneg : 0 ≤ x
  le_one : x ≤ 1
  close : |x - q| ≤ 1 / 2 ^ 51

theorem binaryShare_standsFor {part total : Int} (nonneg : 0 ≤ part) (le : part ≤ total) :
    StandsFor (binaryShare part total) (part / total) where
  nonneg := binaryShare_nonneg nonneg le
  le_one := binaryShare_le_one nonneg le
  close := by
    have below : (part : Rat) / total < 2 ^ (1 : Int) :=
      (exactShare_le_one nonneg le).trans_lt (by norm_num)
    have error := abs_nearest_sub_le (exactShare_nonneg nonneg le) below (by norm_num)
    rw [binaryShare]
    norm_num at error ⊢
    linarith

section Scaled
variable {scale x q : Rat} (scaleNonneg : 0 ≤ scale) (scaleLe : scale ≤ 100)
include scaleNonneg scaleLe

theorem nearest_scaled_bounds (nonneg : 0 ≤ x) (le : x ≤ 1) :
    0 ≤ nearest (x * scale) ∧ nearest (x * scale) ≤ 100 := by
  have product : x * scale ≤ (100 : Nat) := by
    push_cast
    nlinarith
  have rounded := nearest_le_natCast (mul_nonneg nonneg scaleNonneg) product (by norm_num)
  exact ⟨nearest_nonneg (mul_nonneg nonneg scaleNonneg), by exact_mod_cast rounded⟩

theorem binaryScaled_mono {y : Rat} (nonneg : 0 ≤ x) (le : x ≤ y) (leOne : y ≤ 1) :
    binaryScaled scale x ≤ binaryScaled scale y := by
  have products : nearest (x * scale) ≤ nearest (y * scale) :=
    nearest_mono (mul_nonneg nonneg scaleNonneg) (mul_le_mul_of_nonneg_right le scaleNonneg)
  have bounds := nearest_scaled_bounds scaleNonneg scaleLe nonneg (le.trans leOne)
  exact Rat.floor_monotone (nearest_mono (by linarith) (by linarith))

theorem StandsFor.abs_sub_lt (near : StandsFor x q) :
    |nearest (nearest (x * scale) + 1 / 2) - (scale * q + 1 / 2)| < 1 / 2 ^ 43 := by
  have below : x * scale < 2 ^ (7 : Int) := by
    have leScale := mul_le_of_le_one_left scaleNonneg near.le_one
    norm_num
    linarith
  have product := abs_nearest_sub_le (mul_nonneg near.nonneg scaleNonneg) below (by norm_num)
  obtain ⟨productNonneg, productLe⟩ :=
    nearest_scaled_bounds scaleNonneg scaleLe near.nonneg near.le_one
  have sum := abs_nearest_sub_le (q := nearest (x * scale) + 1 / 2) (e := 7)
    (by linarith) (by norm_num; linarith) (by norm_num)
  have share : |scale * (x - q)| ≤ 100 * (1 / 2 ^ 51) := by
    rw [abs_mul, abs_of_nonneg scaleNonneg]
    exact mul_le_mul scaleLe near.close (abs_nonneg _) (by norm_num)
  norm_num at product sum
  rw [abs_le] at product sum share
  rw [abs_lt]
  constructor <;> linarith

theorem StandsFor.binaryScaled_of_apart (near : StandsFor x q)
    (apart : ∀ m : Int, 1 / 2 ^ 43 ≤ |scale * q + 1 / 2 - m|) :
    binaryScaled scale x = halfUp (scale * q) :=
  floor_eq_of_close (near.abs_sub_lt scaleNonneg scaleLe) apart

theorem StandsFor.binaryScaled_at_half (near : StandsFor x q) {m : Int}
    (half : scale * q + 1 / 2 = m) :
    binaryScaled scale x = m ∨ binaryScaled scale x = m - 1 := by
  have close := near.abs_sub_lt scaleNonneg scaleLe
  rw [half] at close
  exact floor_of_close_whole (close.trans (by norm_num))

end Scaled

theorem halfUp_at_half {q : Rat} {m : Int} (half : q + 1 / 2 = m) : halfUp q = m := by
  rw [halfUp, half, Rat.floor_intCast]

section Counts
variable {part total : Int} (nonneg : 0 ≤ part) (le : part ≤ total) (pos : 0 < total)
  (fits : total ≤ 2 ^ 42)

include pos fits in
/-- Of at most 2 ^ 42 things a share of a scale is a half or keeps away from all halves. -/
theorem scaled_apart {scale : Int}
    (free : ∀ m : Int, (scale : Rat) * (part / total) + 1 / 2 ≠ m) (m : Int) :
    1 / 2 ^ 43 ≤ |(scale : Rat) * (part / total) + 1 / 2 - m| := by
  have totalPos : (0 : Rat) < total := by exact_mod_cast pos
  have totalLe : (total : Rat) ≤ 2 ^ 42 := by exact_mod_cast fits
  have value : (scale : Rat) * (part / total) + 1 / 2 =
      ((2 * scale * part + total : Int) : Rat) / (2 * total : Int) := by
    push_cast
    field_simp
  rw [value] at free ⊢
  refine le_trans ?_ (gap_le_of_not_whole (by omega) free m)
  apply one_div_le_one_div_of_le
  · push_cast
    linarith
  · push_cast
    linarith

include nonneg le

theorem part_of_half {scale m : Int} (scalePos : 0 < scale)
    (half : (scale : Rat) * (part / total) + 1 / 2 = m) :
    ∃ j : Nat, (j : Int) < scale ∧ m = j + 1 ∧
      (part : Rat) / total = (2 * j + 1) / (2 * scale) := by
  have shareNonneg := exactShare_nonneg nonneg le
  have shareLe := exactShare_le_one nonneg le
  have scaleCast : (0 : Rat) < scale := by exact_mod_cast scalePos
  have least : (0 : Rat) < m := by
    rw [← half]
    positivity
  have most : (m : Rat) < scale + 1 := by
    rw [← half]
    nlinarith
  have leastInt : 0 < m := by exact_mod_cast least
  have mostInt : m < scale + 1 := by exact_mod_cast most
  have index : (((m - 1).toNat : Int) : Rat) = m - 1 := by
    rw [Int.toNat_of_nonneg (by omega)]
    push_cast
    rfl
  rw [Int.cast_natCast] at index
  refine ⟨(m - 1).toNat, by omega, by omega, ?_⟩
  rw [index, eq_div_iff (by positivity)]
  linarith

include pos fits in
/-- A share of a scale comes out right but for what a table says is lost at the halves. -/
theorem binaryScaled_share (scale : Int) (lost : Rat → Int) (scalePos : 0 < scale)
    (scaleLe : scale ≤ 100)
    (table : ∀ j ∈ List.range scale.toNat,
      binaryScaled scale (nearest ((2 * j + 1) / (2 * scale))) =
      j + 1 - lost ((2 * j + 1) / (2 * scale)))
    (atHalves : ∀ q, lost q ≠ 0 → ∃ m : Int, (scale : Rat) * q + 1 / 2 = m) :
    binaryScaled scale (binaryShare part total) =
      halfUp (scale * (part / total)) - lost (part / total) := by
  have scaleNonneg : (0 : Rat) ≤ scale := by exact_mod_cast scalePos.le
  have scaleCast : (scale : Rat) ≤ 100 := by exact_mod_cast scaleLe
  by_cases at_half : ∃ m : Int, (scale : Rat) * ((part : Rat) / total) + 1 / 2 = m
  · obtain ⟨m, half⟩ := at_half
    obtain ⟨j, below, rfl, share⟩ := part_of_half nonneg le scalePos half
    have computed := table j (List.mem_range.mpr (by omega))
    rw [← share] at computed
    rw [binaryShare, computed, halfUp_at_half half]
  · have free := not_exists.mp at_half
    have nothing : lost (part / total) = 0 :=
      not_not.mp fun some => at_half (atHalves _ some)
    rw [nothing, sub_zero]
    exact (binaryShare_standsFor nonneg le).binaryScaled_of_apart scaleNonneg scaleCast
      (scaled_apart pos fits free)

end Counts

/-- The shares of which the percentage ends in a half and is rounded down all the same. -/
def shortShares : List Rat := [29 / 200, 57 / 200, 113 / 200, 115 / 200]

def shownPercent (share : Rat) : Int :=
  halfUp (100 * share) - if share ∈ shortShares then 1 else 0

theorem binaryScaled_hundred_at_half : ∀ j ∈ List.range 100,
    binaryScaled (100 : Int) (nearest ((2 * j + 1) / (2 * (100 : Int)))) =
      j + 1 - if (2 * j + 1 : Rat) / (2 * (100 : Int)) ∈ shortShares then 1 else 0 := by
  decide +kernel

theorem binaryScaled_twenty_at_half : ∀ j ∈ List.range 20,
    binaryScaled (20 : Int) (nearest ((2 * j + 1) / (2 * (20 : Int)))) = j + 1 - 0 := by
  decide +kernel

theorem short_at_half {share : Rat} (short : share ∈ shortShares) :
    ∃ m : Int, (100 : Int) * share + 1 / 2 = m := by
  simp only [shortShares, List.mem_cons, List.not_mem_nil, or_false] at short
  rcases short with rfl | rfl | rfl | rfl
  · exact ⟨15, by norm_num⟩
  · exact ⟨29, by norm_num⟩
  · exact ⟨57, by norm_num⟩
  · exact ⟨58, by norm_num⟩

section Counts
variable {part total : Int} (nonneg : 0 ≤ part) (le : part ≤ total) (pos : 0 < total)
  (fits : total ≤ 2 ^ 42)
include nonneg le pos fits

theorem binaryScaled_hundred :
    binaryScaled 100 (binaryShare part total) = shownPercent (part / total) := by
  have shown := binaryScaled_share nonneg le pos fits 100
    (fun share => if share ∈ shortShares then 1 else 0) (by norm_num) le_rfl
    binaryScaled_hundred_at_half fun share lost => short_at_half (by simpa using lost)
  rw [Int.cast_ofNat] at shown
  exact shown

theorem binaryScaled_twenty :
    binaryScaled 20 (binaryShare part total) = halfUp (20 * (part / total)) := by
  have shown := binaryScaled_share nonneg le pos fits 20 (fun _ => 0) (by norm_num) (by norm_num)
    binaryScaled_twenty_at_half fun share lost => absurd rfl lost
  rw [Int.cast_ofNat, sub_zero] at shown
  exact shown

end Counts

end SeoAudit
