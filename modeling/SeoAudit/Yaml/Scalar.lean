import SeoAudit.Json.Reader
import SeoAudit.Text.Lowercase
import SeoAudit.Yaml.Error

/-! The type that the text of a plain scalar has, and the numbers it may spell. Whole
numbers are binary, octal, decimal, hexadecimal or of base sixty; fractions have a
point. Underscores between digits count for nothing. -/
namespace SeoAudit.Yaml

namespace Scalar

def isDigitIn (digits : Text) (c : CodePoint) : Bool := digits.contains c

def dropSign : Text → Text
  | .char '-' :: s | .char '+' :: s => s
  | s => s

def madeOf (p : CodePoint → Bool) (s : Text) : Bool := !s.isEmpty && s.all p

def isNumeral (c : CodePoint) : Bool := c.isDigit || c = '_'

def isDecimal : Text → Bool
  | [] => false
  | c :: s => c.isDigit && s.all isNumeral

def isSixtieth : Text → Bool
  | [a] => a.isDigit
  | [a, b] => a.satisfies (fun a => '0' ≤ a && a ≤ '5') && b.isDigit
  | _ => false

def areSixtieths (parts : List Text) : Bool := !parts.isEmpty && parts.all isSixtieth

def isWhole (text : Text) : Bool :=
  match dropSign text with
  | [.char '0'] => true
  | .char '0' :: .char 'b' :: s => madeOf (isDigitIn "01_") s
  | .char '0' :: .char 'x' :: s => madeOf (isDigitIn "0123456789abcdefABCDEF_") s
  | .char '0' :: s => madeOf (isDigitIn "01234567_") s
  | s =>
    match s.splitOn (.char ':') with
    | [] => false
    | [digits] => isDecimal digits
    | first :: rest => isDecimal first && areSixtieths rest

def cut? (c : CodePoint) (s : Text) : Option (Text × Text) :=
  match s.dropWhile (· ≠ c) with
  | [] => none
  | _ :: rest => some (s.takeWhile (· ≠ c), rest)

def isFractionTail (s : Text) : Bool :=
  match s.dropWhile isNumeral with
  | [] => true
  | e :: sign :: digits =>
    (e = 'e' || e = 'E') && (sign = '+' || sign = '-') && madeOf CodePoint.isDigit digits
  | _ => false

def isPointNumber (text : Text) : Bool :=
  match cut? '.' (dropSign text) with
  | some (whole, tail) =>
    if whole.contains ':' then
      match whole.splitOn (.char ':') with
      | first :: rest => isDecimal first && areSixtieths rest && tail.all isNumeral
      | [] => false
    else isDecimal whole && isFractionTail tail
  | none => false

def isPointFirst : Text → Bool
  | .char '.' :: c :: s => c.isDigit && isFractionTail (c :: s)
  | _ => false

def infinities : List Text := [".inf", ".Inf", ".INF"]

def isFraction (text : Text) : Bool :=
  isPointNumber text || isPointFirst text ||
    infinities.contains (dropSign text) ||
    ([".nan", ".NaN", ".NAN"] : List Text).contains text

def truths : List Text := ["yes", "Yes", "YES", "true", "True", "TRUE", "on", "On", "ON"]

def untruths : List Text := ["no", "No", "NO", "false", "False", "FALSE", "off", "Off", "OFF"]

def nulls : List Text := ["", "~", "null", "Null", "NULL"]

/-! Values of texts under a type. -/

def withoutUnderscores (text : Text) : Text := text.filter (· ≠ .char '_')

def baseDigit? (base : Nat) : CodePoint → Option Nat
  | .char c =>
    match (digitValue? c).or (Json.hexValue? c) with
    | some d => if d < base then some d else none
    | none => none
  | .half _ => none

def baseDigits? (base : Nat) (s : Text) : Option Nat :=
  if s.isEmpty then none else s.foldlM (fun n c => (baseDigit? base c).map (n * base + ·)) 0

def behindBaseMark (base : Nat) : Text → Text
  | .char '0' :: .char c :: s =>
    if [(2, 'b'), (2, 'B'), (8, 'o'), (8, 'O'), (16, 'x'), (16, 'X')].contains (base, c) then s
    else .char '0' :: .char c :: s
  | s => s

def decimalCount (s : Text) : Nat := (s.takeWhile (·.digitValue?.isSome)).length

/-- A whole number with an optional sign and blanks around it, or why there is none.
Only the decimal digits are limited in number. -/
def readBase (base : Nat) (s : Text) : Except Error Int :=
  let trimmed := Text.stripBy Text.isNumberSpace s
  let (negative, digits) := match trimmed with
    | .char '-' :: ds => (true, ds)
    | .char '+' :: ds => (false, ds)
    | ds => (false, ds)
  if base = 10 && Text.digitLimit < decimalCount digits then
    .error (.tooManyDigits (decimalCount digits))
  else match baseDigits? base (behindBaseMark base digits) with
    | some n => .ok (if negative then -(n : Int) else n)
    | none => .error (.notWhole base s)

def signed (text : Text) : Except Error (Bool × Text) :=
  match text with
  | [] => .error .noSign
  | .char '-' :: s => .ok (true, s)
  | .char '+' :: s => .ok (false, s)
  | s => .ok (false, s)

def unsignedWhole (s : Text) : Except Error Int :=
  match s with
  | [] => .error .noSign
  | [.char '0'] => .ok 0
  | .char '0' :: .char 'b' :: ds => readBase 2 ds
  | .char '0' :: .char 'x' :: ds => readBase 16 ds
  | .char '0' :: ds => readBase 8 (.char '0' :: ds)
  | s =>
    if s.contains (.char ':') then do
      let parts ← (s.splitOn (.char ':')).mapM (readBase 10)
      pure (parts.foldl (fun n p => n * 60 + p) 0)
    else readBase 10 s

def whole (text : Text) : Except Error Int := do
  let (negative, s) ← signed (withoutUnderscores text)
  let n ← unsignedWhole s
  pure (if negative then -n else n)

def wordValue? (s : Text) : Option Binary64 :=
  if s = "inf" || s = "infinity" then some (.infinity false)
  else if s = "nan" then some .nan
  else none

def unsignedFraction? (negative : Bool) (s : Text) : Option Binary64 :=
  match wordValue? s with
  | some v => some (if negative then v.neg else v)
  | none => do
    let ds := s.takeWhile CodePoint.isDigit
    let s := s.drop ds.length
    let (fs, s) := match s with
      | .char '.' :: rest => (rest.takeWhile CodePoint.isDigit, rest.dropWhile CodePoint.isDigit)
      | s => ([], s)
    if ds.isEmpty && fs.isEmpty then none
    else
      let (e, s) ← if s.isEmpty then some ((0 : Int), []) else Json.readExponent s
      if s.isEmpty then
        some (Binary64.ofDecimal negative (Json.digitsValue (ds ++ fs)) (e - fs.length))
      else none

def usualDigit (c : CodePoint) : CodePoint := c.digitValue?.elim c fun d => Char.ofNat (48 + d)

def readFraction (s : Text) : Except Error Binary64 :=
  let value? := match Text.stripBy Text.isNumberSpace (s.map usualDigit) with
    | .char '-' :: ds => unsignedFraction? true ds
    | .char '+' :: ds => unsignedFraction? false ds
    | ds => unsignedFraction? false ds
  match value? with
  | some v => .ok v
  | none => .error (.notFraction s)

/-- The parts of a number of base sixty, the last one first, with the weight of each. -/
def sixtySum (weight : Nat) (total : Binary64) : List Binary64 → Except Error Binary64
  | [] => .ok total
  | part :: parts =>
    match Binary64.ofInt weight with
    | .infinity _ => .error .weightTooLarge
    | w => sixtySum (weight * 60) (Binary64.add total (Binary64.mul part w)) parts

def fraction (text : Text) : Except Error Binary64 := do
  let (negative, s) ← signed (Text.lower (withoutUnderscores text))
  let v ←
    if s = ".inf" then pure (Binary64.infinity false)
    else if s = ".nan" then pure Binary64.nan
    else if s.contains (.char ':') then do
      let parts ← (s.splitOn (.char ':')).mapM readFraction
      sixtySum 1 (.number 0) parts.reverse
    else readFraction s
  pure (if negative then v.neg else v)

def truth (text : Text) : Except Error Bool :=
  let lower := Text.lower text
  if (["yes", "true", "on"] : List Text).contains lower then .ok true
  else if (["no", "false", "off"] : List Text).contains lower then .ok false
  else .error (.notTruth lower)

end Scalar
end SeoAudit.Yaml
