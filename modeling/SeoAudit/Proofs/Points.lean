import Mathlib.Data.List.Forall2
import SeoAudit.Proofs.Rounding
import SeoAudit.Report.Basic

/-! Points of categories and their totals. A share of 20 points grows with the share,
although each step is rounded. Points that are kept between 0 and 20 are whole halves
when they start as whole halves, and then sums of them are exact. -/
namespace SeoAudit
open Binary64

/-- The binary value of a share, as it is rounded once. -/
def binaryShare (part total : Int) : Rat := nearest ((part : Rat) / total)

section Share
variable {part total : Int}

theorem exactShare_nonneg (nonneg : 0 ≤ part) (le : part ≤ total) :
    (0 : Rat) ≤ part / total :=
  div_nonneg (by exact_mod_cast nonneg) (by exact_mod_cast nonneg.trans le)

theorem exactShare_le_one (nonneg : 0 ≤ part) (le : part ≤ total) :
    (part : Rat) / total ≤ 1 :=
  div_le_one_of_le₀ (by exact_mod_cast le) (by exact_mod_cast nonneg.trans le)

theorem ratio_eq_number (nonneg : 0 ≤ part) (le : part ≤ total) :
    ratio part total = number (binaryShare part total) :=
  ofRat_eq_number (exactShare_nonneg nonneg le)
    ((exactShare_le_one nonneg le).trans (by norm_num))

theorem binaryShare_nonneg (nonneg : 0 ≤ part) (le : part ≤ total) :
    0 ≤ binaryShare part total :=
  nearest_nonneg (exactShare_nonneg nonneg le)

theorem binaryShare_le_one (nonneg : 0 ≤ part) (le : part ≤ total) :
    binaryShare part total ≤ 1 := by
  have rounded := nearest_le_natCast (n := 1) (exactShare_nonneg nonneg le)
    ((exactShare_le_one nonneg le).trans_eq Nat.cast_one.symm) (by norm_num)
  rwa [Nat.cast_one] at rounded

theorem binaryShare_mono {more : Int} (nonneg : 0 ≤ part) (le : part ≤ more)
    (leTotal : more ≤ total) : binaryShare part total ≤ binaryShare more total := by
  have totalNonneg : (0 : Rat) ≤ total := by exact_mod_cast nonneg.trans (le.trans leTotal)
  exact nearest_mono (exactShare_nonneg nonneg (le.trans leTotal))
    (div_le_div_of_nonneg_right (by exact_mod_cast le) totalNonneg)

theorem binaryShare_self (pos : 0 < total) : binaryShare total total = 1 := by
  have one := nearest_natCast (n := 1) (by norm_num)
  rw [binaryShare, div_self (by exact_mod_cast pos.ne')]
  exact_mod_cast one

@[simp] theorem binaryShare_zero : binaryShare 0 total = 0 := by simp [binaryShare]

end Share

theorem roundHalf_share {x : Rat} (nonneg : 0 ≤ x) (le : x ≤ 1) :
    (mul (number x) (number categoryMax)).roundHalf =
      .ok (nearest (nearest (x * 20) + 1 / 2)).floor := by
  have productNonneg : 0 ≤ x * 20 := by linarith
  have product := nearest_le_natCast (n := 20) productNonneg (by push_cast; linarith) (by norm_num)
  push_cast at product
  have max : ((categoryMax : Nat) : Rat) = 20 := by norm_num [categoryMax]
  rw [max, mul_number nonneg (by norm_num) (by linarith)]
  exact roundHalf_number (nearest_nonneg productNonneg) (by linarith)

theorem shareOfMax_number {x : Rat} (nonneg : 0 ≤ x) (le : x ≤ 1) :
    shareOfMax (number x) = (nearest (nearest (x * 20) + 1 / 2)).floor := by
  rw [shareOfMax, rounded, roundHalf_share nonneg le]
  rfl

theorem shareOfMax_mono {x y : Rat} (nonneg : 0 ≤ x) (xy : x ≤ y) (le : y ≤ 1) :
    shareOfMax (number x) ≤ shareOfMax (number y) := by
  rw [shareOfMax_number nonneg (xy.trans le), shareOfMax_number (nonneg.trans xy) le]
  have products : nearest (x * 20) ≤ nearest (y * 20) := nearest_mono (by linarith) (by linarith)
  have productNonneg : 0 ≤ nearest (x * 20) := nearest_nonneg (by linarith)
  exact Rat.floor_monotone (nearest_mono (by linarith) (by linarith))

theorem shareOfMax_ratio_mono {part total more all : Int} (nonneg : 0 ≤ part)
    (le : part ≤ total) (moreNonneg : 0 ≤ more) (moreLe : more ≤ all)
    (shares : (part : Rat) / total ≤ more / all) :
    shareOfMax (ratio part total) ≤ shareOfMax (ratio more all) := by
  rw [ratio_eq_number nonneg le, ratio_eq_number moreNonneg moreLe]
  exact shareOfMax_mono (binaryShare_nonneg nonneg le)
    (nearest_mono (exactShare_nonneg nonneg le) shares) (binaryShare_le_one moreNonneg moreLe)

theorem shareOfMax_part_mono {part more total : Int} (nonneg : 0 ≤ part) (le : part ≤ more)
    (leTotal : more ≤ total) :
    shareOfMax (ratio part total) ≤ shareOfMax (ratio more total) := by
  have totalNonneg : (0 : Rat) ≤ total := by exact_mod_cast nonneg.trans (le.trans leTotal)
  exact shareOfMax_ratio_mono nonneg (le.trans leTotal) (nonneg.trans le) leTotal
    (div_le_div_of_nonneg_right (by exact_mod_cast le) totalNonneg)

/-- The mean of two shares, with the sum and its half rounded. -/
def meanShare (x y : Rat) : Rat := nearest (nearest (x + y) * (1 / 2))

section Mean
variable {x y : Rat} (hx : 0 ≤ x) (hy : 0 ≤ y)
include hx hy

theorem nearest_sum_le_two (xLe : x ≤ 1) (yLe : y ≤ 1) : nearest (x + y) ≤ 2 := by
  have rounded := nearest_le_natCast (n := 2) (add_nonneg hx hy) (by push_cast; linarith)
    (by norm_num)
  exact_mod_cast rounded

theorem mean_eq_number (xLe : x ≤ 1) (yLe : y ≤ 1) :
    mul (add (number x) (number y)) half = number (meanShare x y) := by
  have sumLe := nearest_sum_le_two hx hy xLe yLe
  rw [add_number (add_nonneg hx hy) (by linarith), half,
    mul_number (nearest_nonneg (add_nonneg hx hy)) (by norm_num) (by linarith)]
  rfl

theorem meanShare_nonneg : 0 ≤ meanShare x y := by
  have sumNonneg := nearest_nonneg (add_nonneg hx hy)
  exact nearest_nonneg (by linarith)

theorem meanShare_le_one (xLe : x ≤ 1) (yLe : y ≤ 1) : meanShare x y ≤ 1 := by
  have sumNonneg := nearest_nonneg (add_nonneg hx hy)
  have sumLe := nearest_sum_le_two hx hy xLe yLe
  have rounded := nearest_le_natCast (n := 1) (q := nearest (x + y) * (1 / 2)) (by linarith)
    (by push_cast; linarith) (by norm_num)
  exact_mod_cast rounded

theorem meanShare_mono {x' y' : Rat} (xs : x ≤ x') (ys : y ≤ y') :
    meanShare x y ≤ meanShare x' y' := by
  have sums : nearest (x + y) ≤ nearest (x' + y') := nearest_mono (add_nonneg hx hy) (by linarith)
  have sumNonneg := nearest_nonneg (add_nonneg hx hy)
  exact nearest_mono (by linarith) (by linarith)

end Mean

theorem shareOfMax_whole {n : Nat} (le : n ≤ 1) : shareOfMax (number n) = 20 * n := by
  have shareLe : (n : Rat) ≤ 1 := by exact_mod_cast le
  have product : nearest ((n : Rat) * 20) = (n * 20 : Nat) := by
    have exact_ := nearest_natCast (n := n * 20) (by omega)
    exact_mod_cast exact_
  have sum : nearest (((n * 20 : Nat) : Rat) + 1 / 2) = ((n * 20 : Int) : Rat) + 1 / 2 := by
    have exact_ := nearest_halves (k := n * 40 + 1) (by omega)
    have value : ((n * 40 + 1 : Nat) : Rat) / 2 = ((n * 20 : Nat) : Rat) + 1 / 2 := by
      push_cast
      ring
    rw [value] at exact_
    exact_mod_cast exact_
  rw [shareOfMax_number (Nat.cast_nonneg n) shareLe, product, sum]
  have below : ((n * 20 : Int) : Rat) + 1 / 2 < ((n * 20 + 1 : Int) : Rat) := by
    push_cast
    linarith
  have lower : (n * 20 : Int) ≤ (((n * 20 : Int) : Rat) + 1 / 2).floor :=
    Rat.le_floor_iff.mpr (by linarith)
  have upper := Rat.floor_lt_iff.mpr below
  omega

theorem shareOfMax_zero : shareOfMax (number 0) = 0 := by
  have none_ := shareOfMax_whole (n := 0) (by norm_num)
  exact_mod_cast none_

theorem shareOfMax_one : shareOfMax (number 1) = categoryMax := by
  have all := shareOfMax_whole (n := 1) le_rfl
  exact_mod_cast all

theorem shareOfMax_ratio_nonneg {part total : Int} (nonneg : 0 ≤ part) (le : part ≤ total) :
    0 ≤ shareOfMax (ratio part total) := by
  have mono := shareOfMax_mono le_rfl (binaryShare_nonneg nonneg le) (binaryShare_le_one nonneg le)
  rwa [shareOfMax_zero, ← ratio_eq_number nonneg le] at mono

theorem shareOfMax_ratio_le {part total : Int} (nonneg : 0 ≤ part) (le : part ≤ total) :
    shareOfMax (ratio part total) ≤ categoryMax := by
  have mono := shareOfMax_mono (binaryShare_nonneg nonneg le) (binaryShare_le_one nonneg le) le_rfl
  rwa [shareOfMax_one, ← ratio_eq_number nonneg le] at mono

namespace Number

/-- A number of points that is `k` halves, in either of its two kinds. -/
inductive Halves : Number → Nat → Prop
  | whole (n : Nat) : Halves (.whole n) (2 * n)
  | fraction (k : Nat) : Halves (.fraction (.number (k / 2))) k

def AtMost (a b : Number) : Prop := ∃ x y, a.toRat? = some x ∧ b.toRat? = some y ∧ x ≤ y

theorem toBinary?_of_finite {a : Number} {q : Rat} (value : a.toBinary64 = .number q) :
    a.toBinary? = .ok (.number q) := by
  cases a with
  | whole n =>
    have finite : Binary64.ofInt n = .number q := value
    simp only [toBinary?, finite]
  | fraction x => exact congrArg Except.ok value

namespace Halves
variable {a b : Number} {j k : Nat}

theorem toRat? (h : Halves a k) : a.toRat? = some ((k : Rat) / 2) := by
  cases h with
  | whole n => simp [Number.toRat?]
  | fraction k => rfl

theorem toBinary64 (h : Halves a k) (fits : k < 2 ^ 53) : a.toBinary64 = number (k / 2) := by
  cases h with
  | whole n =>
    have value : ((2 * n : Nat) : Rat) / 2 = n := by
      push_cast
      ring
    rw [value]
    exact ofInt_natCast (by omega)
  | fraction k => rfl

theorem atMost (ha : Halves a j) (hb : Halves b k) (le : j ≤ k) : AtMost a b :=
  ⟨j / 2, k / 2, ha.toRat?, hb.toRat?,
    div_le_div_of_nonneg_right (by exact_mod_cast le) (by norm_num)⟩

theorem add_binary (ha : Halves a j) (hb : Halves b k) (fits : j + k < 2 ^ 53) :
    Halves (.fraction (Binary64.add a.toBinary64 b.toBinary64)) (j + k) := by
  have value : (j : Rat) / 2 + k / 2 = (j + k : Nat) / 2 := by
    push_cast
    ring
  have small : ((j + k : Nat) : Rat) / 2 ≤ 2 ^ 53 := by
    have cast : ((j + k : Nat) : Rat) < 2 ^ 53 := by exact_mod_cast fits
    have nonneg : (0 : Rat) ≤ (j + k : Nat) := Nat.cast_nonneg _
    linarith
  rw [ha.toBinary64 (by omega), hb.toBinary64 (by omega),
    add_number (by positivity) (value ▸ small), value, nearest_halves fits]
  exact .fraction _

theorem add (ha : Halves a j) (hb : Halves b k) (fits : j + k < 2 ^ 53) :
    Halves (Number.add a b) (j + k) := by
  have binary := add_binary ha hb fits
  cases ha with
  | whole m =>
    cases hb with
    | whole n =>
      have sum : Halves (.whole ((m + n : Nat) : Int)) (2 * (m + n)) := .whole _
      simpa [Number.add, mul_add] using sum
    | fraction k => exact binary
  | fraction j => exact binary

theorem foldl_add {ns : List Number} {ks : List Nat} (all : List.Forall₂ Halves ns ks)
    (start : Halves a j) (fits : j + ks.sum < 2 ^ 53) :
    Halves (ns.foldl Number.add a) (j + ks.sum) := by
  -- `fits` bounds every partial sum, so no addition rounds.
  induction all generalizing a j with
  | nil => simpa using start
  | @cons n k ns ks head _ ih =>
    rw [List.sum_cons, ← add_assoc] at fits ⊢
    exact ih (start.add head (by omega)) fits

theorem sum {ns : List Number} {ks : List Nat} (all : List.Forall₂ Halves ns ks)
    (fits : ks.sum < 2 ^ 53) : Halves (Number.sum ns) ks.sum := by
  have zero : Halves (0 : Number) 0 := .whole 0
  have total := foldl_add all zero (by omega)
  rwa [Nat.zero_add] at total

theorem toBinary?_eq (h : Halves a k) (fits : k < 2 ^ 53) : a.toBinary? = .ok (.number (k / 2)) :=
  toBinary?_of_finite (h.toBinary64 fits)

theorem add?_eq (ha : Halves a j) (hb : Halves b k) (fits : j + k < 2 ^ 53) :
    Number.add? a b = .ok (Number.add a b) := by
  have first := ha.toBinary?_eq (by omega)
  have second := hb.toBinary?_eq (by omega)
  have firstValue := ha.toBinary64 (by omega)
  have secondValue := hb.toBinary64 (by omega)
  cases ha <;> cases hb <;>
    simp only [Number.add?, Number.add, first, second, firstValue, secondValue, bind,
      Except.bind] <;> rfl

theorem foldlM_add? {ns : List Number} {ks : List Nat} (all : List.Forall₂ Halves ns ks)
    (start : Halves a j) (fits : j + ks.sum < 2 ^ 53) :
    ns.foldlM Number.add? a = .ok (ns.foldl Number.add a) := by
  -- As in `foldl_add`, `fits` bounds every partial sum.
  induction all generalizing a j with
  | nil => rfl
  | @cons n k ns ks head _ ih =>
    rw [List.sum_cons, ← add_assoc] at fits
    rw [List.foldlM_cons, start.add?_eq head (by omega)]
    exact ih (start.add head (by omega)) fits

theorem sum?_eq {ns : List Number} {ks : List Nat} (all : List.Forall₂ Halves ns ks)
    (fits : ks.sum < 2 ^ 53) : Number.sum? ns = .ok (Number.sum ns) := by
  have zero : Halves (0 : Number) 0 := .whole 0
  exact foldlM_add? all zero (by omega)

end Halves

def percentOfHalves (k : Nat) : Int :=
  (nearest (nearest (nearest ((k : Rat) / 2 / 100) * 100) + 1 / 2)).floor

theorem Halves.ofValue (k : Nat) :
    Halves (if ((k : Rat) / 2).den = 1 then .whole ((k : Rat) / 2).num
      else .fraction (.number (k / 2))) k := by
  split_ifs with isWhole
  · have numNonneg : 0 ≤ ((k : Rat) / 2).num := Rat.num_nonneg.mpr (by positivity)
    obtain ⟨n, num⟩ := Int.eq_ofNat_of_zero_le numNonneg
    have value : (k : Rat) / 2 = n := by
      rw [← Rat.num_div_den ((k : Rat) / 2), isWhole, num]
      simp
    have twice : k = 2 * n := by
      have cast : (k : Rat) = ((2 * n : Nat) : Rat) := by
        push_cast
        linarith
      exact_mod_cast cast
    have whole := Halves.whole n
    rw [num]
    rwa [← twice] at whole
  · exact .fraction k

theorem clamped_eq (points : Rat) :
    (if points < 0 then 0 else if ((categoryMax : Nat) : Rat) < points then
      ((categoryMax : Nat) : Rat) else points) = max 0 (min 20 points) := by
  have most : ((categoryMax : Nat) : Rat) = 20 := by norm_num [categoryMax]
  rw [most]
  split_ifs with negative above
  · rw [max_eq_left ((min_le_right _ _).trans negative.le)]
  · rw [min_eq_left above.le, max_eq_right (by norm_num)]
  · rw [min_eq_right (not_lt.mp above), max_eq_right (not_lt.mp negative)]

theorem clampPoints_halves (k : Int) : Halves (clampPoints ((k : Rat) / 2)) (min 40 k.toNat) := by
  have count : ((min 40 k.toNat : Nat) : Int) = max 0 (min 40 k) := by omega
  have value : max 0 (min 20 ((k : Rat) / 2)) = ((min 40 k.toNat : Nat) : Rat) / 2 := by
    calc max 0 (min 20 ((k : Rat) / 2))
      _ = max (0 / 2) (min (40 / 2) ((k : Rat) / 2)) := by norm_num
      _ = max 0 (min 40 (k : Rat)) / 2 := by
        rw [min_div_div_right (by norm_num), max_div_div_right (by norm_num)]
      _ = (((min 40 k.toNat : Nat) : Int) : Rat) / 2 := by
        rw [count]
        push_cast
        rfl
      _ = ((min 40 k.toNat : Nat) : Rat) / 2 := by rw [Int.cast_natCast]
  rw [clampPoints]
  simp only [clamped_eq, value]
  exact .ofValue _

theorem clampPoints_intCast (n : Int) : clampPoints n = .whole (max 0 (min 20 n)) := by
  have value : max 0 (min 20 (n : Rat)) = ((max 0 (min 20 n) : Int) : Rat) := by
    push_cast
    rfl
  rw [clampPoints]
  simp only [clamped_eq, value, Rat.den_intCast, Rat.num_intCast, if_true]

theorem clampPoints_intCast_halves (n : Int) :
    Halves (clampPoints n) (min 40 (2 * n).toNat) := by
  have whole := Halves.whole (max 0 (min 20 n)).toNat
  have value : ((max 0 (min 20 n)).toNat : Int) = max 0 (min 20 n) := by omega
  have twice : 2 * (max 0 (min 20 n)).toNat = min 40 (2 * n).toNat := by omega
  rw [clampPoints_intCast]
  rwa [value, twice] at whole

theorem toBinary?_natCast {n : Nat} (fits : n < 2 ^ 53) :
    toBinary? (.whole n) = .ok (number n) := by
  rw [toBinary?, ofInt_natCast fits]

section Percent
variable {n : Number} {most j k : Nat}

def percentIn (most k : Nat) : Int :=
  (nearest (nearest (nearest ((k : Rat) / 2 / most) * 100) + 1 / 2)).floor

theorem percentIn_hundred (k : Nat) : percentIn 100 k = percentOfHalves k := by
  rw [percentIn, percentOfHalves, Nat.cast_ofNat]

theorem part_bounds (pos : 0 < most) (le : k ≤ 2 * most) :
    (0 : Rat) ≤ (k : Rat) / 2 / most ∧ (k : Rat) / 2 / most ≤ 1 := by
  have cast : (k : Rat) ≤ 2 * most := by exact_mod_cast le
  have posCast : (0 : Rat) < most := by exact_mod_cast pos
  have atMost : (k : Rat) / 2 ≤ most := by linarith
  exact ⟨by positivity, div_le_one_of_le₀ atMost posCast.le⟩

theorem nearest_part_bounds (pos : 0 < most) (le : k ≤ 2 * most) :
    0 ≤ nearest ((k : Rat) / 2 / most) ∧ nearest ((k : Rat) / 2 / most) ≤ 1 := by
  obtain ⟨nonneg, leOne⟩ := part_bounds pos le
  have rounded := nearest_le_natCast (n := 1) nonneg (leOne.trans_eq Nat.cast_one.symm)
    (by norm_num)
  rw [Nat.cast_one] at rounded
  exact ⟨nearest_nonneg nonneg, rounded⟩

theorem nearest_percent_bounds (pos : 0 < most) (le : k ≤ 2 * most) :
    0 ≤ nearest (nearest ((k : Rat) / 2 / most) * 100) ∧
      nearest (nearest ((k : Rat) / 2 / most) * 100) ≤ 100 := by
  obtain ⟨nonneg, leOne⟩ := nearest_part_bounds pos le
  have productNonneg : 0 ≤ nearest ((k : Rat) / 2 / most) * 100 := by linarith
  have product := nearest_le_natCast (n := 100) productNonneg (by push_cast; linarith)
    (by norm_num)
  exact ⟨nearest_nonneg productNonneg, by exact_mod_cast product⟩

theorem Halves.quotient (h : Halves n k) (pos : 0 < most) (fits : most < 2 ^ 53)
    (le : k ≤ 2 * most) :
    quotient n (.whole most) = .ok (number (nearest ((k : Rat) / 2 / most))) := by
  obtain ⟨nonneg, leOne⟩ := part_bounds pos le
  have small : (k : Rat) / 2 / most ≤ 2 ^ 53 := leOne.trans (by norm_num)
  have rounded := ofRat_eq_number nonneg small
  cases h with
  | whole m =>
    have value : ((2 * m : Nat) : Rat) / 2 / most = ((m : Int) : Rat) / (most : Int) := by
      push_cast
      ring
    rw [value] at rounded ⊢
    show wholeQuotient m most = _
    rw [wholeQuotient, rounded]
  | fraction k =>
    have divisor : toBinary? (.whole most) = .ok (number most) := toBinary?_natCast fits
    have halves : (0 : Rat) ≤ (k : Rat) / 2 := by positivity
    show (toBinary? (.fraction (number (k / 2))) >>= fun x =>
      toBinary? (.whole most) >>= fun y => pure ((x.div? y).getD .nan)) = _
    rw [divisor]
    show Except.ok ((div? (number ((k : Rat) / 2)) (number most)).getD .nan) = _
    rw [div?_number halves (by exact_mod_cast pos) small]
    rfl

theorem Halves.percent (h : Halves n k) (pos : 0 < most) (fits : most < 2 ^ 53)
    (le : k ≤ 2 * most) : percent n (.whole most) = .ok (percentIn most k) := by
  obtain ⟨nonneg, leOne⟩ := nearest_part_bounds pos le
  obtain ⟨productNonneg, productLe⟩ := nearest_percent_bounds pos le
  have notZero : isZero (.whole most) = false := by simp [isZero, Number.toRat?, pos.ne']
  rw [Number.percent, if_neg (by simp [notZero]), h.quotient pos fits le]
  show Binary64.roundHalf (mul (number _) (number 100)) = _
  rw [mul_number nonneg (by norm_num) (by linarith)]
  exact roundHalf_number productNonneg (by linarith)

theorem percentIn_nonneg (pos : 0 < most) (le : k ≤ 2 * most) : 0 ≤ percentIn most k := by
  obtain ⟨nonneg, -⟩ := nearest_percent_bounds pos le
  have sumNonneg := nearest_nonneg (q := nearest (nearest ((k : Rat) / 2 / most) * 100) + 1 / 2)
    (by linarith)
  exact Rat.le_floor_iff.mpr (by exact_mod_cast sumNonneg)

theorem percentIn_le (pos : 0 < most) (le : k ≤ 2 * most) : percentIn most k ≤ 100 := by
  obtain ⟨nonneg, leHundred⟩ := nearest_percent_bounds pos le
  -- Half a point above 100 is exact, so no sum is rounded up to 101.
  have top := nearest_halves (k := 201) (by norm_num)
  have sumLe : nearest (nearest (nearest ((k : Rat) / 2 / most) * 100) + 1 / 2) ≤ 201 / 2 := by
    calc nearest (nearest (nearest ((k : Rat) / 2 / most) * 100) + 1 / 2)
        ≤ nearest ((201 : Nat) / 2) := nearest_mono (by linarith) (by push_cast; linarith)
      _ = 201 / 2 := by exact_mod_cast top
  have below := Rat.floor_lt_iff.mpr (sumLe.trans_lt (by norm_num : (201 / 2 : Rat) < (101 : Int)))
  rw [percentIn]
  omega

theorem percentIn_mono (pos : 0 < most) (le : j ≤ k) (bound : k ≤ 2 * most) :
    percentIn most j ≤ percentIn most k := by
  obtain ⟨nonneg, -⟩ := part_bounds pos (le.trans bound)
  obtain ⟨shareNonneg, -⟩ := nearest_part_bounds pos (le.trans bound)
  obtain ⟨productNonneg, -⟩ := nearest_percent_bounds pos (le.trans bound)
  have parts : (j : Rat) / 2 / most ≤ (k : Rat) / 2 / most := by gcongr
  have shares := nearest_mono nonneg parts
  have products : nearest (nearest ((j : Rat) / 2 / most) * 100) ≤
      nearest (nearest ((k : Rat) / 2 / most) * 100) := nearest_mono (by linarith) (by linarith)
  exact Rat.floor_monotone (nearest_mono (by linarith) (by linarith))

theorem percentOfHalves_mono (le : j ≤ k) (bound : k ≤ 200) :
    percentOfHalves j ≤ percentOfHalves k := by
  rw [← percentIn_hundred, ← percentIn_hundred]
  exact percentIn_mono (by norm_num) le bound

end Percent
end Number
end SeoAudit
