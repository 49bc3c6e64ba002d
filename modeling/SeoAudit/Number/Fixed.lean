import SeoAudit.Number.Shortest

/-! Decimal text with a fixed number of digits. Both forms round the exact value
and send a half to the even digit: six significant digits with trailing zeros
dropped (`Binary64.sixDigits`), and one place after the point (`oneDecimal`). -/
namespace SeoAudit
namespace Binary64

/-- A positive rational rounded to six significant digits. -/
def roundSix (q : Rat) : Decimal :=
  let scale := leadingExponent q - 5
  let d := (nearestEven (q / (10 : Rat) ^ scale)).toNat
  if d = 1000000 then ⟨100000, scale + 1⟩ else ⟨d, scale⟩

/-- Six significant digits; an exponent is written when it is below -4 or above 5. -/
def positiveSixDigits (q : Rat) : String :=
  let rounded := roundSix q
  let digits := toString (Decimal.trimZeros 6 rounded).digits
  let exponent := rounded.leading
  if -4 ≤ exponent ∧ exponent < 6 then positional digits (exponent + 1)
  else scientific digits exponent

def sixDigits : Binary64 → String
  | number q =>
    if q = 0 then "0" else if q < 0 then "-" ++ positiveSixDigits (-q) else positiveSixDigits q
  | negativeZero => "-0"
  | infinity negative => if negative then "-inf" else "inf"
  | nan => "nan"

end Binary64

def oneDecimal (q : Rat) : String :=
  let tenths := (nearestEven (q * 10)).toNat
  toString (tenths / 10) ++ "." ++ toString (tenths % 10)

end SeoAudit
