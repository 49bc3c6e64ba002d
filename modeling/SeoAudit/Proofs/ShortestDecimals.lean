import SeoAudit.Number.Shortest
import SeoAudit.Proofs.HalfUp

/-! The shortest decimal of a binary value reads back as that value. A decimal of seventeen
digits comes closer to the value than half a unit of its last bit, so one is found; and a
decimal that rounds to a finite value is none of those that are settled by their leading digit
alone. -/
namespace SeoAudit

theorem nearestEven_of_close {q : Rat} {n : Int} (close : |q - n| < 1 / 2) : nearestEven q = n := by
  have near : |((nearestEven q - n : Int) : Rat)| < 1 := by
    push_cast
    calc |(nearestEven q : Rat) - n| ≤ |nearestEven q - q| + |q - n| := abs_sub_le _ _ _
      _ < 1 := by linarith [abs_nearestEven_sub_le q]
  have zero : |nearestEven q - n| < 1 := by exact_mod_cast near
  have := Int.abs_lt_one_iff.mp zero
  omega

theorem digitCount_eq {n : Nat} (pos : n ≠ 0) : digitCount n = Nat.log 10 n + 1 := by
  have count {k : Nat} (some : 0 < k) : digitCount n ≤ k ↔ n < 10 ^ k :=
    Nat.length_repr_le_iff some
  have atLeast : 0 < digitCount n := Nat.length_repr_pos
  apply le_antisymm
  · rw [count (by omega)]
    exact Nat.lt_pow_succ_log_self (by norm_num) n
  · have below := (count atLeast).mp le_rfl
    rw [Nat.succ_le_iff]
    exact Nat.log_lt_of_lt_pow pos below

theorem leadingExponent_eq {q : Rat} (pos : 0 < q) : leadingExponent q = Int.log 10 q := by
  have numPos : 0 < q.num := Rat.num_pos.mpr pos
  have guessed : (digitCount q.num.natAbs : Int) - digitCount q.den =
      (Nat.log 10 q.num.natAbs : Int) - Nat.log 10 q.den := by
    rw [digitCount_eq (by omega), digitCount_eq q.den_nz]
    push_cast
    ring
  rw [Binary64.log_eq_guess (by norm_num) pos guessed]
  rfl

namespace Decimal

theorem trimZeros_value (fuel : Nat) (d : Decimal) : (trimZeros fuel d).value = d.value := by
  induction fuel generalizing d with
  | zero => rfl
  | succ fuel ih =>
    rw [trimZeros]
    split
    · rename_i ends
      have ten : (d.digits : Rat) = (d.digits / 10 : Nat) * 10 := by
        exact_mod_cast (Nat.div_mul_cancel (Nat.dvd_of_mod_eq_zero ends.2)).symm
      rw [ih, value, value, ten, zpow_add₀ (by norm_num), zpow_one]
      ring
    · rfl

theorem trimZeros_pos {d : Decimal} (pos : 0 < d.digits) (fuel : Nat) :
    0 < (trimZeros fuel d).digits := by
  induction fuel generalizing d with
  | zero => exact pos
  | succ fuel ih =>
    rw [trimZeros]
    split
    · exact ih (by dsimp only; omega)
    · exact pos

end Decimal

namespace Binary64

section Near
variable {x q : Rat}

theorem least_le_lastBit (pos : 0 < q) : -1074 ≤ lastBit q := by
  rw [lastBit_eq pos]
  omega

theorem roundPositive_of_close {n : Int} (units : q = n * 2 ^ lastBit x)
    (close : |x - q| < 2 ^ (lastBit x - 1)) : roundPositive x = q := by
  have unit := two_zpow_pos (lastBit x)
  have scaled : x / 2 ^ lastBit x - n = (x - q) / 2 ^ lastBit x := by
    rw [units, sub_div, mul_div_cancel_right₀ _ unit.ne']
  have near : |x / 2 ^ lastBit x - n| < 1 / 2 := by
    rwa [scaled, abs_div, abs_of_pos unit, div_lt_iff₀ unit, ← two_zpow_sub_one]
  rw [roundPositive, significand, nearestEven_of_close near, units]

/-- A positive value that rounding leaves alone. -/
structure Exact (q : Rat) : Prop where
  pos : 0 < q
  same : roundPositive q = q

namespace Exact

theorem units (exact : Exact q) : q = significand q * 2 ^ lastBit q := exact.same.symm

theorem significand_lt (exact : Exact q) : significand q < 2 ^ 53 := by
  have scaled : (significand q : Rat) * 2 ^ lastBit q < 2 ^ (53 : Int) * 2 ^ lastBit q := by
    rw [← exact.units, ← two_zpow_add, add_comm]
    exact lt_units exact.pos
  exact_mod_cast lt_of_mul_lt_mul_right scaled (two_zpow_pos (lastBit q)).le

theorem le_significand (exact : Exact q) (normal : -1074 < lastBit q) :
    2 ^ 52 ≤ significand q := by
  have scaled : (2 : Rat) ^ (52 : Int) * 2 ^ lastBit q ≤ significand q * 2 ^ lastBit q := by
    rw [← exact.units, ← two_zpow_add, add_comm]
    exact units_le exact.pos normal
  exact_mod_cast le_of_mul_le_mul_right scaled (two_zpow_pos (lastBit q))

/-- What comes within a part in `2 · 10^16` of an exact value is rounded to it. -/
theorem roundPositive_of_near (exact : Exact q) (near : |x - q| * (2 * 10 ^ 16) ≤ q) :
    roundPositive x = q := by
  have units := exact.units
  have unit := two_zpow_pos (lastBit q)
  have error : |x - q| ≤ q / (2 * 10 ^ 16) := (le_div_iff₀ (by norm_num)).mpr near
  obtain ⟨below, above⟩ := abs_le.mp error
  have pos : 0 < x := by linarith [exact.pos]
  have most : (significand q : Rat) + 1 ≤ 2 ^ 53 := by exact_mod_cast exact.significand_lt
  have bound := mul_le_mul_of_nonneg_right most unit.le
  rw [add_mul, ← units, one_mul] at bound
  rcases lt_trichotomy (lastBit x) (lastBit q) with finer | same | coarser
  · -- The value is the least one of its binade, and the decimal is rounded to half its units.
    have least := exact.le_significand ((least_le_lastBit pos).trans_lt finer)
    have under : x < 2 ^ (lastBit q + 52) := (lt_units pos).trans_le (two_zpow_le (by omega))
    rw [add_comm, two_zpow_add] at under
    have only : (significand q : Rat) < 2 ^ 52 + 1 := by
      refine lt_of_mul_lt_mul_right ?_ unit.le
      rw [← units, add_mul]
      norm_num at under ⊢
      linarith
    have power : significand q = 2 ^ 52 := by
      have : significand q < 2 ^ 52 + 1 := by exact_mod_cast only
      omega
    rw [power] at units
    push_cast at units
    have next : lastBit x = lastBit q - 1 := by
      by_contra apart
      have far : x < 2 ^ (lastBit q + 51) := (lt_units pos).trans_le (two_zpow_le (by omega))
      rw [add_comm, two_zpow_add] at far
      norm_num at far
      linarith
    refine roundPositive_of_close (n := 2 ^ 53) ?_ ?_
    · rw [next, two_zpow_sub_one]
      push_cast
      linarith
    · rw [next, two_zpow_sub_one, two_zpow_sub_one]
      linarith
  · refine roundPositive_of_close (same ▸ units) ?_
    rw [same, two_zpow_sub_one]
    linarith
  · -- The next binade begins more than half a unit above the value.
    have low := units_le pos ((least_le_lastBit exact.pos).trans_lt coarser)
    have beyond : (2 : Rat) ^ (lastBit q + 53) ≤ x := (two_zpow_le (by omega)).trans low
    rw [add_comm, two_zpow_add] at beyond
    norm_num at beyond bound
    linarith

end Exact

end Near

section Search
variable {q : Rat} {count : Nat} {d : Decimal}

theorem withDigits?_reads (found : withDigits? q count = some d) :
    0 < d.digits ∧ roundPositive d.value = q := by
  simp only [withDigits?] at found
  generalize listed : List.filter _ _ = candidates at found
  have member : d ∈ candidates := by
    split at found
    · cases found
    · cases found
      exact List.mem_singleton_self d
    · split_ifs at found <;> cases found <;> simp
  rw [← listed] at member
  simpa [readsBack] using (List.mem_filter.mp member).2

theorem withDigits?_isSome {n : Nat}
    (candidate : n = (q / 10 ^ (leadingExponent q - count + 1)).floor.toNat ∨
      n = (q / 10 ^ (leadingExponent q - count + 1)).floor.toNat + 1)
    (pos : 0 < n) (reads : roundPositive (n * 10 ^ (leadingExponent q - count + 1)) = q) :
    (withDigits? q count).isSome := by
  simp only [withDigits?]
  generalize listed : List.filter _ _ = candidates
  have member : Decimal.mk n (leadingExponent q - count + 1) ∈ candidates := by
    rw [← listed, List.mem_filter]
    refine ⟨?_, Bool.and_eq_true _ _ ▸ ⟨decide_eq_true pos, decide_eq_true reads⟩⟩
    rcases candidate with rfl | rfl <;> simp
  split
  · cases member
  · rfl
  · split_ifs <;> rfl

theorem exists_whole_close {x : Rat} (one : 1 ≤ x) :
    ∃ n : Nat, (n = x.floor.toNat ∨ n = x.floor.toNat + 1) ∧ 0 < n ∧
      |(n : Rat) - x| ≤ 1 / 2 := by
  have pos : 1 ≤ x.floor := Rat.le_floor_iff.mpr (by exact_mod_cast one)
  have whole : (x.floor.toNat : Rat) = x.floor := by
    rw [← Int.cast_natCast, Int.toNat_of_nonneg (by omega)]
  have low := Rat.floor_le x
  have high := Rat.lt_floor_add_one x
  push_cast at high
  by_cases below : x - x.floor ≤ 1 / 2
  · refine ⟨x.floor.toNat, .inl rfl, by omega, ?_⟩
    rw [whole, abs_le]
    constructor <;> linarith
  · refine ⟨x.floor.toNat + 1, .inr rfl, Nat.succ_pos _, ?_⟩
    rw [Nat.cast_succ, whole, abs_le]
    constructor <;> linarith

theorem unit_mul_le (pos : 0 < q) :
    (10 : Rat) ^ (leadingExponent q - (17 : Nat) + 1) * 10 ^ 16 ≤ q := by
  have power : (10 : Rat) ^ (leadingExponent q - (17 : Nat) + 1) * 10 ^ 16 = 10 ^ Int.log 10 q := by
    rw [← zpow_natCast, ← zpow_add₀ (by norm_num), ← leadingExponent_eq pos]
    congr 1
    push_cast
    ring
  rw [power]
  exact_mod_cast Int.zpow_log_le_self (b := 10) (by norm_num) pos

theorem withDigits?_seventeen (exact : Exact q) : (withDigits? q 17).isSome := by
  have small := unit_mul_le exact.pos
  have unit : (0 : Rat) < 10 ^ (leadingExponent q - (17 : Nat) + 1) := zpow_pos (by norm_num) _
  have one : 1 ≤ q / 10 ^ (leadingExponent q - (17 : Nat) + 1) := by
    rw [le_div_iff₀ unit]
    linarith
  obtain ⟨n, candidate, pos, close⟩ := exists_whole_close one
  refine withDigits?_isSome candidate pos (exact.roundPositive_of_near ?_)
  generalize (10 : Rat) ^ (leadingExponent q - (17 : Nat) + 1) = u at *
  have error : n * u - q = (n - q / u) * u := by
    rw [sub_mul, div_mul_cancel₀ _ unit.ne']
  rw [error, abs_mul, abs_of_pos unit]
  have scaled := mul_le_mul_of_nonneg_right close unit.le
  linarith

end Search

section Shortest
variable {q : Rat}

theorem shortest_reads (exact : Exact q) :
    0 < (shortest q).digits ∧ roundPositive (shortest q).value = q := by
  have some : ((List.range 17).findSome? fun k => withDigits? q (k + 1)).isSome :=
    List.findSome?_isSome_iff.mpr ⟨16, List.mem_range.mpr (by norm_num),
      withDigits?_seventeen exact⟩
  obtain ⟨d, found⟩ := Option.isSome_iff_exists.mp some
  obtain ⟨k, -, same⟩ := List.exists_of_findSome?_eq_some found
  obtain ⟨pos, reads⟩ := withDigits?_reads same
  rw [shortest, found, Option.elim_some, Decimal.trimZeros_value]
  exact ⟨Decimal.trimZeros_pos pos 17, reads⟩

end Shortest

section Decimals
variable {q : Rat} {m : Nat} {s : Int}

theorem value_bounds (nonzero : m ≠ 0) (s : Int) :
    (10 : Rat) ^ ((digitCount m : Int) + s - 1) ≤ m * 10 ^ s ∧
      (m : Rat) * 10 ^ s < 10 ^ ((digitCount m : Int) + s) := by
  have unit : (0 : Rat) < 10 ^ s := zpow_pos (by norm_num) s
  obtain ⟨low, high⟩ := natCast_bounds (b := 10) (by norm_num) nonzero
  have lowExponent : (digitCount m : Int) + s - 1 = Nat.log 10 m + s := by
    rw [digitCount_eq nonzero]
    push_cast
    ring
  have highExponent : (digitCount m : Int) + s = (Nat.log 10 m + 1 : Int) + s := by
    rw [digitCount_eq nonzero]
    push_cast
    ring
  rw [lowExponent, highExponent, zpow_add₀ (by norm_num), zpow_add₀ (by norm_num)]
  exact ⟨mul_le_mul_of_nonneg_right (by exact_mod_cast low) unit.le,
    mul_lt_mul_of_pos_right (by exact_mod_cast high) unit⟩

theorem ten_zpow_lt_two_zpow : (10 : Rat) ^ (-400 : Int) < 2 ^ (-1075 : Int) := by
  have powers : (2 : Nat) ^ 1075 < 10 ^ 400 := by decide +kernel
  rw [zpow_neg, zpow_neg]
  exact inv_strictAnti₀ (two_zpow_pos 1075) (by exact_mod_cast powers)

theorem two_zpow_lt_ten_zpow : (2 : Rat) ^ (1024 : Int) < 10 ^ (400 : Int) := by
  have powers : (2 : Nat) ^ 1024 < 10 ^ 400 := by decide +kernel
  exact_mod_cast powers

theorem leading_bounds (nonzero : m ≠ 0) (pos : 0 < roundPositive (m * 10 ^ s))
    (finite : roundPositive (m * 10 ^ s) < overflow) :
    -400 ≤ (digitCount m : Int) + s ∧ (digitCount m : Int) + s ≤ 400 := by
  obtain ⟨low, high⟩ := value_bounds nonzero s
  have valuePos : (0 : Rat) < m * 10 ^ s := (zpow_pos (by norm_num) _).trans_le low
  constructor
  · by_contra tiny
    have small : (m : Rat) * 10 ^ s < 2 ^ (lastBit (m * 10 ^ s) - 1) := by
      calc (m : Rat) * 10 ^ s < 10 ^ ((digitCount m : Int) + s) := high
        _ ≤ 10 ^ (-400 : Int) := zpow_le_zpow_right₀ (by norm_num) (by omega)
        _ ≤ 2 ^ (-1075 : Int) := ten_zpow_lt_two_zpow.le
        _ ≤ _ := two_zpow_le (by have := least_le_lastBit valuePos; omega)
    have vanishes : roundPositive ((m : Rat) * 10 ^ s) = 0 :=
      roundPositive_of_close (n := 0) (by simp) (by rwa [sub_zero, abs_of_pos valuePos])
    exact pos.ne' vanishes
  · by_contra huge
    have large : (2 : Rat) ^ (1024 : Int) ≤ m * 10 ^ s := by
      calc (2 : Rat) ^ (1024 : Int) ≤ 10 ^ (400 : Int) := two_zpow_lt_ten_zpow.le
        _ ≤ 10 ^ ((digitCount m : Int) + s - 1) := zpow_le_zpow_right₀ (by norm_num) (by omega)
        _ ≤ _ := low
    have rounded := roundPositive_mono (two_zpow_pos _) large
    rw [roundPositive_two_zpow (by norm_num)] at rounded
    rw [overflow_eq_zpow] at finite
    exact absurd rounded (not_le.mpr finite)

theorem ofDecimal_of_rounds (negative : Bool) (nonzero : m ≠ 0) (pos : 0 < q)
    (finite : q < overflow) (rounds : roundPositive (m * 10 ^ s) = q) :
    ofDecimal negative m s = number (if negative then -q else q) := by
  obtain ⟨notTiny, notHuge⟩ := leading_bounds nonzero (rounds ▸ pos) (rounds ▸ finite)
  have valuePos : (0 : Rat) < m * 10 ^ s :=
    (zpow_pos (by norm_num) _).trans_le (value_bounds nonzero s).1
  have magnitude : ofRat (m * 10 ^ s) = number q := by
    simp [ofRat, valuePos, valuePos.ne', rounds, not_le.mpr finite]
  simp only [ofDecimal, nonzero, not_lt.mpr notTiny, not_lt.mpr notHuge, magnitude, decide_false,
    Bool.or_self, Bool.false_eq_true, if_false]
  cases negative
  · rfl
  · simp [neg, pos.ne']

end Decimals

section Genuine
variable {q : Rat} {x y : Binary64}

theorem exact_roundPositive (pos : 0 < q) (nonzero : roundPositive q ≠ 0) :
    Exact (roundPositive q) where
  pos := (roundPositive_nonneg pos).lt_of_ne nonzero.symm
  same := by
    have unit := two_zpow_pos (lastBit q)
    have least := least_le_lastBit pos
    have most : significand q ≤ 2 ^ 53 := by
      have scaled : (significand q : Rat) * 2 ^ lastBit q ≤ 2 ^ (53 : Int) * 2 ^ lastBit q := by
        rw [← two_zpow_add, add_comm]
        exact roundPositive_le_units pos
      exact_mod_cast le_of_mul_le_mul_right scaled unit
    have some : 0 < significand q := by
      have rounded := (roundPositive_nonneg pos).lt_of_ne nonzero.symm
      exact_mod_cast pos_of_mul_pos_left rounded unit.le
    obtain ⟨m, same⟩ := Int.eq_ofNat_of_zero_le some.le
    have value : roundPositive q = m * 2 ^ lastBit q := by
      rw [roundPositive, same, Int.cast_natCast]
    rw [value]
    -- Rounded up to the next power of two, the significand does not fit any more.
    rcases (show m ≤ 2 ^ 53 by omega).lt_or_eq with fits | full
    · exact roundPositive_dyadic (by omega) least fits
    · have power : (m : Rat) * 2 ^ lastBit q = 2 ^ (53 + lastBit q) := by
        rw [two_zpow_add, full]
        norm_num
      rw [power]
      exact roundPositive_two_zpow (by omega)

/-- A value that an operation can give: a finite one is left alone by rounding. -/
def Genuine : Binary64 → Prop
  | number q => ofRat q = number q
  | _ => True

instance : DecidablePred Genuine
  | number q => inferInstanceAs (Decidable (ofRat q = number q))
  | negativeZero | infinity _ | nan => .isTrue trivial

theorem Exact.genuine (exact : Exact q) (finite : q < overflow) : (number q).Genuine := by
  simp [Genuine, ofRat, exact.pos, exact.pos.ne', exact.same, not_le.mpr finite]

theorem Exact.genuine_neg (exact : Exact q) (finite : q < overflow) : (number (-q)).Genuine := by
  have negative : ¬ 0 < -q := by linarith [exact.pos]
  simp [Genuine, ofRat, negative, exact.pos.ne', exact.same, not_le.mpr finite]

theorem Genuine.cases (genuine : (number q).Genuine) :
    q = 0 ∨ (Exact q ∧ q < overflow) ∨ Exact (-q) ∧ -q < overflow := by
  rw [Genuine, ofRat] at genuine
  dsimp only at genuine
  split_ifs at genuine with zero positive infinite infinite vanishes
  · exact .inl zero
  · injection genuine with same
    exact .inr (.inl ⟨⟨positive, same⟩, same ▸ not_le.mp infinite⟩)
  · injection genuine with same
    have magnitude : roundPositive (-q) = -q := by linarith
    have pos : 0 < -q := neg_pos.mpr ((not_lt.mp positive).lt_of_ne zero)
    exact .inr (.inr ⟨⟨pos, magnitude⟩, magnitude ▸ not_le.mp infinite⟩)

theorem genuine_ofRat (q : Rat) : (ofRat q).Genuine := by
  rw [ofRat]
  dsimp only
  split_ifs with zero positive infinite infinite vanishes
  · simp [Genuine, ofRat]
  · trivial
  · by_cases vanishes : roundPositive q = 0
    · simp [vanishes, Genuine, ofRat]
    · exact (exact_roundPositive positive vanishes).genuine (not_le.mp infinite)
  · trivial
  · trivial
  · have pos : 0 < -q := neg_pos.mpr ((not_lt.mp positive).lt_of_ne zero)
    exact (exact_roundPositive pos vanishes).genuine_neg (not_le.mp infinite)

theorem Genuine.add (hx : x.Genuine) (hy : y.Genuine) : (x.add y).Genuine := by
  cases x <;> cases y <;> simp only [Binary64.add]
  all_goals first
    | trivial
    | exact genuine_ofRat _
    | exact hx
    | exact hy
    | (split_ifs <;> trivial)

theorem genuine_halves {k : Int} (bound : |k| < 2 ^ 53) : (number (k / 2)).Genuine := by
  have exact {n : Nat} (nonzero : n ≠ 0) (fits : n < 2 ^ 53) :
      Exact ((n : Rat) / 2) ∧ (n : Rat) / 2 < overflow := by
    have pos : (0 : Rat) < n / 2 := by positivity
    refine ⟨⟨pos, by rw [← nearest_of_pos pos, nearest_halves fits]⟩, ?_⟩
    have small : (n : Rat) < 2 ^ 53 := by exact_mod_cast fits
    have large : (2 : Rat) ^ 53 < overflow := pow_lt_pow_right₀ (by norm_num) (by norm_num)
    linarith
  obtain ⟨n, rfl | rfl⟩ := Int.eq_nat_or_neg k
  all_goals
    rcases Nat.eq_zero_or_pos n with rfl | some
    · simp [Genuine, ofRat]
    have fits : n < 2 ^ 53 := by
      have := abs_lt.mp bound
      omega
    obtain ⟨half, finite⟩ := exact some.ne' fits
  · rw [Int.cast_natCast]
    exact half.genuine finite
  · rw [Int.cast_neg, Int.cast_natCast, neg_div]
    exact half.genuine_neg finite

end Genuine

end Binary64

namespace Number
variable {a b : Number} {ns : List Number}

def Genuine : Number → Prop
  | whole _ => True
  | fraction x => x.Genuine

instance : DecidablePred Genuine
  | whole _ => .isTrue trivial
  | fraction x => inferInstanceAs (Decidable x.Genuine)

theorem genuine_of_toRat? {k : Int} (value : a.toRat? = some ((k : Rat) / 2))
    (bound : |k| < 2 ^ 53) :
    a.Genuine := by
  match a with
  | whole _ => trivial
  | fraction (.number q) =>
    cases value
    exact Binary64.genuine_halves bound
  | fraction .negativeZero | fraction (.infinity _) | fraction .nan => trivial

theorem Genuine.toBinary64 (genuine : a.Genuine) : a.toBinary64.Genuine := by
  cases a with
  | whole n => exact Binary64.genuine_ofRat n
  | fraction x => exact genuine

theorem Genuine.add (ha : a.Genuine) (hb : b.Genuine) : (a.add b).Genuine := by
  have sum := ha.toBinary64.add hb.toBinary64
  cases a <;> cases b
  · trivial
  all_goals exact sum

theorem genuine_sum (each : ∀ n ∈ ns, n.Genuine) : (sum ns).Genuine :=
  List.foldlRecOn ns Number.add trivial fun _ genuine n member => genuine.add (each n member)

end Number
end SeoAudit
