import SeoAudit.Number.Fixed

/-! Numbers that are either whole or binary fractions. The two kinds stay apart
because their texts differ: `50` and `50.0` are equal points but print unlike. -/
namespace SeoAudit

inductive Number where
  | whole (value : Int)
  | fraction (value : Binary64)
deriving DecidableEq, Repr, Inhabited

inductive RoundingError where
  | integerTooLarge
  | quotientTooLarge
  | infinite
  | notANumber
deriving DecidableEq, Repr

def RoundingError.message : RoundingError → String
  | .integerTooLarge => "int too large to convert to float"
  | .quotientTooLarge => "integer division result too large for a float"
  | .infinite => "cannot convert float infinity to integer"
  | .notANumber => "cannot convert float NaN to integer"

namespace Binary64

def half : Binary64 := number (1 / 2)

def integerPart (x : Binary64) : Except RoundingError Int :=
  match x, x.truncate? with
  | _, some n => .ok n
  | nan, none => .error .notANumber
  | _, none => .error .infinite

/-- Adds one half to the magnitude and drops the fraction, so a half goes away
from zero. The sum itself is rounded, so the largest value below one half goes to 1. -/
def roundHalf (x : Binary64) : Except RoundingError Int :=
  if x.lt (number 0) || x = nan then (·  * (-1)) <$> integerPart (add (neg x) half)
  else integerPart (add x half)

def rounded (x : Binary64) : Int := (roundHalf x).toOption.getD 0

end Binary64

namespace Number

instance : OfNat Number n := ⟨whole n⟩

def toBinary64 : Number → Binary64
  | whole n => Binary64.ofInt n
  | fraction x => x

def toRat? : Number → Option Rat
  | whole n => some n
  | fraction x => x.toRat?

def toBinary? : Number → Except RoundingError Binary64
  | whole n =>
    match Binary64.ofInt n with
    | .infinity _ => .error .integerTooLarge
    | x => .ok x
  | fraction x => .ok x

def roundHalf (n : Number) : Except RoundingError Int :=
  n.toBinary? >>= Binary64.roundHalf

def points : Number → String
  | whole n => toString n
  | fraction x =>
    match x.isWhole, x.truncate? with
    | true, some n => toString n
    | _, _ => x.sixDigits

def text : Number → String
  | whole n => toString n
  | fraction x => x.text

/-- Whole numbers add exactly; a fraction makes the sum a fraction. -/
def add : Number → Number → Number
  | whole a, whole b => whole (a + b)
  | a, b => fraction (Binary64.add a.toBinary64 b.toBinary64)

def sum (ns : List Number) : Number := ns.foldl add 0

def add? : Number → Number → Except RoundingError Number
  | whole a, whole b => .ok (whole (a + b))
  | a, b => do pure (fraction (Binary64.add (← a.toBinary?) (← b.toBinary?)))

def sum? (ns : List Number) : Except RoundingError Number := ns.foldlM add? 0

def isZero (n : Number) : Bool := n.toRat? = some 0

def lt (a b : Number) : Bool :=
  match a, b with
  | whole m, whole n => decide (m < n)
  | whole m, fraction (.number q) => decide ((m : Rat) < q)
  | fraction (.number q), whole n => decide (q < n)
  | a, b => a.toBinary64.lt b.toBinary64

def wholeQuotient (a b : Int) : Except RoundingError Binary64 :=
  match Binary64.ofRat ((a : Rat) / b) with
  | .infinity _ => .error .quotientTooLarge
  | q => .ok q

/-- The quotient of numbers by one that is not zero. -/
def quotient : Number → Number → Except RoundingError Binary64
  | whole a, whole b => wholeQuotient a b
  | a, b => do pure (((← a.toBinary?).div? (← b.toBinary?)).getD .nan)

/-- `part / total · 100`, each step rounded, then the nearest integer; 0 when the
total is zero. -/
def percent (part total : Number) : Except RoundingError Int :=
  if total.isZero then .ok 0
  else do
    let q ← quotient part total
    (Binary64.mul q (.number 100)).roundHalf

def percentOf (part total : Number) : Int := (percent part total).toOption.getD 0

end Number

def ratio (count total : Int) : Binary64 := Binary64.ofRat ((count : Rat) / total)

end SeoAudit
