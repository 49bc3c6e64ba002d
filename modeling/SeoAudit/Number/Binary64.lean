/-! Binary floating point with a 53 bit significand and exponents from -1074 up.
A finite value is held as the exact rational it denotes, so an operation is the
rational operation followed by one rounding, `Binary64.ofRat`. Rounding goes to
the nearest representable value and a tie goes to the even significand. -/
namespace SeoAudit

def nearestEven (q : Rat) : Int :=
  let low := q.floor
  let gap := q - low
  if gap < 1 / 2 then low
  else if 1 / 2 < gap then low + 1
  else if low % 2 = 0 then low else low + 1

inductive Binary64 where
  /-- A finite value other than negative zero, as the rational it denotes. -/
  | number (value : Rat)
  | negativeZero
  | infinity (negative : Bool)
  | nan
deriving DecidableEq, Repr, Inhabited

namespace Binary64

/-- The exponent of the last bit of a positive rational: the scaled significand
lies between 2^52 and 2^53, or the exponent is the least one there is. -/
def lastBit (q : Rat) : Int :=
  let guess := (q.num.natAbs.log2 : Int) - (q.den.log2 : Int)
  let top := if (2 : Rat) ^ guess ≤ q then guess else guess - 1
  max (top - 52) (-1074)

def significand (q : Rat) : Int :=
  nearestEven (q / (2 : Rat) ^ lastBit q)

def roundPositive (q : Rat) : Rat :=
  significand q * (2 : Rat) ^ lastBit q

def overflow : Rat := (2 : Rat) ^ (1024 : Nat)

def ofRat (q : Rat) : Binary64 :=
  if q = 0 then number 0
  else if 0 < q then
    let r := roundPositive q
    if overflow ≤ r then infinity false else number r
  else
    let r := roundPositive (-q)
    if overflow ≤ r then infinity true
    else if r = 0 then negativeZero else number (-r)

def ofInt (n : Int) : Binary64 := ofRat n

def toRat? : Binary64 → Option Rat
  | number q => some q
  | negativeZero => some 0
  | infinity _ => none
  | nan => none

def isNegative : Binary64 → Bool
  | number q => decide (q < 0)
  | negativeZero => true
  | infinity s => s
  | nan => false

def neg : Binary64 → Binary64
  | number q => if q = 0 then negativeZero else number (-q)
  | negativeZero => number 0
  | infinity s => infinity (!s)
  | nan => nan

def add : Binary64 → Binary64 → Binary64
  | nan, _ | _, nan => nan
  | infinity s, infinity t => if s = t then infinity s else nan
  | infinity s, _ | _, infinity s => infinity s
  | negativeZero, negativeZero => negativeZero
  | negativeZero, number q | number q, negativeZero => number q
  | number a, number b => ofRat (a + b)

def sub (a b : Binary64) : Binary64 := add a (neg b)

def signedZero (negative : Bool) : Binary64 :=
  if negative then negativeZero else number 0

def mul (a b : Binary64) : Binary64 :=
  let negative := a.isNegative != b.isNegative
  match a, b with
  | nan, _ | _, nan => nan
  | infinity _, y => if y.toRat? = some 0 then nan else infinity negative
  | x, infinity _ => if x.toRat? = some 0 then nan else infinity negative
  | x, y =>
    match x.toRat?, y.toRat? with
    | some p, some q => if p * q = 0 then signedZero negative else ofRat (p * q)
    | _, _ => nan

/-- A quotient; `none` when the divisor is zero. -/
def div? (a b : Binary64) : Option Binary64 :=
  let negative := a.isNegative != b.isNegative
  if b.toRat? = some 0 then none
  else match a, b with
    | nan, _ | _, nan => some nan
    | infinity _, infinity _ => some nan
    | infinity _, _ => some (infinity negative)
    | _, infinity _ => some (signedZero negative)
    | x, y =>
      match x.toRat?, y.toRat? with
      | some p, some q => some (if p = 0 then signedZero negative else ofRat (p / q))
      | _, _ => some nan

def lt : Binary64 → Binary64 → Bool
  | nan, _ | _, nan => false
  | infinity s, infinity t => s && !t
  | infinity s, _ => s
  | _, infinity t => !t
  | a, b =>
    match a.toRat?, b.toRat? with
    | some p, some q => decide (p < q)
    | _, _ => false

def isWhole (a : Binary64) : Bool :=
  match a.toRat? with
  | some q => q.den == 1
  | none => false

def truncate? (a : Binary64) : Option Int :=
  a.toRat?.map fun q => if q < 0 then -((-q).floor) else q.floor

end Binary64

theorem nearestEven_intCast (n : Int) : nearestEven (n : Rat) = n := by
  have gap : (n : Rat) - (n : Rat) = 0 := by grind
  simp only [nearestEven, Rat.floor_intCast, gap]
  grind

end SeoAudit
