import SeoAudit.Text.DecimalDigit
import SeoAudit.Text.Quoted

/-! Why a YAML text has no value. Most faults share one cause; a text that a tag does
not fit and a code that no character has are told apart. -/
namespace SeoAudit.Yaml

inductive Error where
  | malformed
  /-- An escape names a code beyond the last character. -/
  | codeTooLarge
  /-- An escape names a code beyond 31 bits. -/
  | codeOverflow
  /-- Collections too deep inside one another. -/
  | tooDeep
  | tooManyDigits (count : Nat)
  /-- A number of base sixty has a part whose weight is beyond the fractions. -/
  | weightTooLarge
  /-- A timestamp is wanted of a collection. -/
  | notText
  | notWhole (base : Nat) (text : Text)
  | notFraction (text : Text)
  | notTruth (text : Text)
  | noSign
  | notTimestamp
  /-- A zone of a day or more, in seconds. -/
  | wrongOffset (seconds : Int)
  | yearZero
  | wrongMonth
  | wrongDay
  | wrongHour
  | wrongMinute
  | wrongSecond
deriving DecidableEq, Repr

namespace Error

def spanText (seconds : Int) : Text :=
  let days := seconds.fdiv 86400
  let rest := seconds.fmod 86400
  if rest = 0 then s!"datetime.timedelta(days={days})"
  else s!"datetime.timedelta(days={days}, seconds={rest})"

def cutQuoted (text : Text) : Text := (Quoted.encode text).take 200

def message : Error → Text
  | malformed => "<yaml error>"
  | codeTooLarge => "chr() arg not in range(0x110000)"
  | codeOverflow => "Python int too large to convert to C int"
  | tooDeep => "maximum recursion depth exceeded"
  | tooManyDigits count => Text.tooManyDigits count
  | weightTooLarge => "int too large to convert to float"
  | notText => "expected string or bytes-like object, got 'list'"
  | notWhole base text => s!"invalid literal for int() with base {base}: " ++ cutQuoted text
  | notFraction text => "could not convert string to float: " ++ Quoted.encode text
  | notTruth text => Quoted.encode text
  | noSign => "string index out of range"
  | notTimestamp => "'NoneType' object has no attribute 'groupdict'"
  | wrongOffset seconds =>
    "offset must be a timedelta strictly between -timedelta(hours=24) and " ++
      "timedelta(hours=24), not " ++ spanText seconds ++ "."
  | yearZero => "year 0 is out of range"
  | wrongMonth => "month must be in 1..12"
  | wrongDay => "day is out of range for month"
  | wrongHour => "hour must be in 0..23"
  | wrongMinute => "minute must be in 0..59"
  | wrongSecond => "second must be in 0..59"

def orMalformed {α : Type} : Option α → Except Error α
  | some a => .ok a
  | none => .error malformed

end Error
end SeoAudit.Yaml
