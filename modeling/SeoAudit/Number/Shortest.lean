import SeoAudit.Number.Binary64

/-! The shortest decimal that reads back as a given binary value, and its text.
Among the decimals with the fewest digits inside the rounding interval of the
value the nearest one is taken. `Binary64.text` writes it positionally for
decimal exponents from -4 up to 15 and with an exponent otherwise. -/
namespace SeoAudit

/-- A positive decimal `digits · 10^scale` whose digit string is `digits`. -/
structure Decimal where
  digits : Nat
  scale : Int
deriving DecidableEq, Repr, Inhabited

namespace Decimal

def value (d : Decimal) : Rat := (d.digits : Rat) * (10 : Rat) ^ d.scale

def trimZeros : Nat → Decimal → Decimal
  | 0, d => d
  | fuel + 1, d =>
    if d.digits ≠ 0 ∧ d.digits % 10 = 0
      then trimZeros fuel ⟨d.digits / 10, d.scale + 1⟩ else d

def leading (d : Decimal) : Int := d.scale + ((toString d.digits).length : Int) - 1

end Decimal

def digitCount (n : Nat) : Nat := (toString n).length

def leadingExponent (q : Rat) : Int :=
  let guess := (digitCount q.num.natAbs : Int) - (digitCount q.den : Int)
  if (10 : Rat) ^ guess ≤ q then guess else guess - 1

namespace Binary64

/-- The value nearest to `± mantissa · 10^scale`. Decimals far outside the range
are settled by their leading digit alone. -/
def ofDecimal (negative : Bool) (mantissa : Nat) (scale : Int) : Binary64 :=
  let leading := (digitCount mantissa : Int) + scale
  let magnitude :=
    if mantissa = 0 || leading < -400 then number 0
    else if 400 < leading then infinity false
    else ofRat ((mantissa : Rat) * (10 : Rat) ^ scale)
  if negative then neg magnitude else magnitude

def readsBack (q : Rat) (d : Decimal) : Bool :=
  decide (roundPositive d.value = q)

/-- The nearest decimal to `q` with `count` significant digits that reads back. -/
def withDigits? (q : Rat) (count : Nat) : Option Decimal :=
  let scale := leadingExponent q - (count : Int) + 1
  let scaled := q / (10 : Rat) ^ scale
  let low := scaled.floor.toNat
  let candidates := [Decimal.mk low scale, Decimal.mk (low + 1) scale].filter
    fun d => 0 < d.digits && readsBack q d
  let near (d : Decimal) : Rat :=
    if (d.digits : Rat) ≤ scaled then scaled - d.digits else d.digits - scaled
  match candidates with
  | [] => none
  | [d] => some d
  | d :: e :: _ =>
    if near d < near e then some d
    else if near e < near d then some e
    else if d.digits % 2 = 0 then some d else some e

/-- The shortest decimal that reads back as the positive value `q`; seventeen
digits always suffice. -/
def shortest (q : Rat) : Decimal :=
  ((List.range 17).findSome? fun k => withDigits? q (k + 1)).elim ⟨0, 0⟩ (Decimal.trimZeros 17)

end Binary64

def exponentText (e : Int) : String :=
  let digits := toString e.natAbs
  let padded := if digits.length < 2 then "0" ++ digits else digits
  (if e < 0 then "e-" else "e+") ++ padded

def zeros (count : Nat) : String := String.ofList (List.replicate count '0')

def positional (digits : String) (whole : Int) : String :=
  if whole ≤ 0 then "0." ++ zeros (-whole).toNat ++ digits
  else if digits.length ≤ whole.toNat then digits ++ zeros (whole.toNat - digits.length)
  else
    String.ofList (digits.toList.take whole.toNat) ++ "." ++
      String.ofList (digits.toList.drop whole.toNat)

def scientific (digits : String) (exponent : Int) : String :=
  let rest := String.ofList (digits.toList.drop 1)
  let lead := String.ofList (digits.toList.take 1)
  (if rest.isEmpty then lead else lead ++ "." ++ rest) ++ exponentText exponent

namespace Binary64

def positiveText (q : Rat) : String :=
  let d := shortest q
  let digits := toString d.digits
  let exponent := d.leading
  if -4 ≤ exponent ∧ exponent < 16 then
    let plain := positional digits (exponent + 1)
    if plain.toList.contains '.' then plain else plain ++ ".0"
  else scientific digits exponent

def text : Binary64 → String
  | number q =>
    if q = 0 then "0.0" else if q < 0 then "-" ++ positiveText (-q) else positiveText q
  | negativeZero => "-0.0"
  | infinity negative => if negative then "-inf" else "inf"
  | nan => "nan"

end Binary64
end SeoAudit
