import SeoAudit.Text.Blank

/-! Decimal digits of every script, and whole numbers written with them: white
space around, one sign at most, single underscores between digits, and no more than
4300 digits in all. -/
namespace SeoAudit

def digitZeros : List Nat := [
  0x30, 0x660, 0x6F0, 0x7C0, 0x966, 0x9E6, 0xA66, 0xAE6, 0xB66, 0xBE6, 0xC66, 0xCE6, 0xD66, 0xDE6,
  0xE50, 0xED0, 0xF20, 0x1040, 0x1090, 0x17E0, 0x1810, 0x1946, 0x19D0, 0x1A80, 0x1A90, 0x1B50,
  0x1BB0, 0x1C40, 0x1C50, 0xA620, 0xA8D0, 0xA900, 0xA9D0, 0xA9F0, 0xAA50, 0xABF0, 0xFF10, 0x104A0,
  0x10D30, 0x11066, 0x110F0, 0x11136, 0x111D0, 0x112F0, 0x11450, 0x114D0, 0x11650, 0x116C0,
  0x11730, 0x118E0, 0x11950, 0x11C50, 0x11D50, 0x11DA0, 0x16A60, 0x16AC0, 0x16B50, 0x1D7CE,
  0x1D7D8, 0x1D7E2, 0x1D7EC, 0x1D7F6, 0x1E140, 0x1E2F0, 0x1E950, 0x1FBF0]

def digitValue? (c : Char) : Option Nat :=
  (digitZeros.find? fun first => first ≤ c.toNat && c.toNat < first + 10).map (c.toNat - ·)

def CodePoint.digitValue? : CodePoint → Option Nat
  | char c => SeoAudit.digitValue? c
  | half _ => none

namespace Text

/-- The value of a run of digits in which single underscores may separate digits;
`afterDigit` says whether a digit stands right before. -/
def digitRun? (value : Nat) (afterDigit : Bool) : Text → Option Nat
  | [] => if afterDigit then some value else none
  | c :: cs =>
    match c.digitValue? with
    | some d => digitRun? (value * 10 + d) true cs
    | none => if c = '_' && afterDigit then digitRun? value false cs else none

/-- White space that may surround a number: blanks but for the four separators. -/
def isNumberSpace (c : CodePoint) : Bool := c.isBlank && !(0x1C ≤ c.code && c.code ≤ 0x1F)

def digitLimit : Nat := 4300

def tooManyDigits (count : Nat) : String :=
  s!"Exceeds the limit ({digitLimit} digits) for integer string conversion: " ++
    s!"value has {count} digits; use sys.set_int_max_str_digits() to increase the limit"

def tooLongToWrite : String :=
  s!"Exceeds the limit ({digitLimit} digits) for integer string conversion; " ++
    "use sys.set_int_max_str_digits() to increase the limit"

def limitedRun? (digits : Text) : Option Nat :=
  if (digits.filter (· ≠ .char '_')).length ≤ digitLimit
    then digitRun? 0 false digits else none

def readWhole? (text : Text) : Option Int :=
  match stripBy isNumberSpace text with
  | .char '-' :: digits => (limitedRun? digits).map fun n => -(n : Int)
  | .char '+' :: digits => (limitedRun? digits).map fun n => (n : Int)
  | digits => (limitedRun? digits).map fun n => (n : Int)

end Text
end SeoAudit
