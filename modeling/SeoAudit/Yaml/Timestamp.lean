import SeoAudit.Json.Reader
import SeoAudit.Yaml.Error

/-! Dates and times in YAML. A plain text counts as one when it is a date with all its
digits or a date with a time; under a tag a date may leave out leading zeros. -/
namespace SeoAudit.Yaml

structure Date where
  year : Nat
  month : Nat
  day : Nat
deriving DecidableEq, Repr

structure Clock where
  hour : Nat
  minute : Nat
  second : Nat
  /-- The zone as seconds east of universal time, when it is written with a sign. -/
  offset : Option Int := none
deriving DecidableEq, Repr

structure Timestamp where
  date : Date
  clock : Option Clock := none
deriving DecidableEq, Repr

namespace Timestamp

def digits? (least most : Nat) (s : Text) : Option (Nat × Text) :=
  let ds := (s.take most).takeWhile CodePoint.isDigit
  if ds.length < least then none else some (Json.digitsValue ds, s.drop ds.length)

def mark? (c : CodePoint) : Text → Option Text
  | d :: rest => if d = c then some rest else none
  | [] => none

def isGap (c : CodePoint) : Bool := c = ' ' || c = '\t'

def date? (least : Nat) (s : Text) : Option (Date × Text) := do
  let (year, s) ← digits? 4 4 s
  let s ← mark? '-' s
  let (month, s) ← digits? least 2 s
  let s ← mark? '-' s
  let (day, s) ← digits? least 2 s
  pure (⟨year, month, day⟩, s)

def offsetSize? (s : Text) : Option Nat := do
  let (hours, s) ← digits? 1 2 s
  match s with
  | [] => pure (hours * 3600)
  | .char ':' :: s =>
    let (minutes, s) ← digits? 2 2 s
    if s.isEmpty then pure (hours * 3600 + minutes * 60) else none
  | _ => none

def zone? (s : Text) : Option (Option Int) :=
  if s.isEmpty then some none
  else match s.dropWhile isGap with
    | [.char 'Z'] => some none
    | .char '+' :: s => (offsetSize? s).map fun n => some n
    | .char '-' :: s => (offsetSize? s).map fun n => some (-n)
    | _ => none

def behindDate? : Text → Option Text
  | .char 'T' :: s | .char 't' :: s => some s
  | c :: s => if isGap c then some (s.dropWhile isGap) else none
  | [] => none

def behindFraction : Text → Text
  | .char '.' :: s => s.dropWhile CodePoint.isDigit
  | s => s

def clock? (s : Text) : Option Clock := do
  let (hour, s) ← digits? 1 2 s
  let s ← mark? ':' s
  let (minute, s) ← digits? 2 2 s
  let s ← mark? ':' s
  let (second, s) ← digits? 2 2 s
  let offset ← zone? (behindFraction s)
  pure { hour, minute, second, offset }

def ofText? (text : Text) : Option Timestamp := do
  let (date, s) ← date? 1 text
  if s.isEmpty then pure { date }
  else
    let clock ← behindDate? s >>= clock?
    pure { date, clock := some clock }

def isPlain (text : Text) : Bool :=
  match ofText? text with
  | some { clock := some _, .. } => true
  | some _ => (date? 2 text).isSome
  | none => false

def monthLength (year month : Nat) : Nat :=
  if month = 2 then
    if year % 4 = 0 && (year % 100 ≠ 0 || year % 400 = 0) then 29 else 28
  else if [4, 6, 9, 11].contains month then 30 else 31

def checkOffset (t : Timestamp) : Except Error Unit :=
  match t.clock.bind (·.offset) with
  | some n => if 86400 ≤ n.natAbs then .error (.wrongOffset n) else .ok ()
  | none => .ok ()

def check (t : Timestamp) : Except Error Unit := do
  t.checkOffset
  if t.date.year = 0 then throw .yearZero
  if t.date.month = 0 || 12 < t.date.month then throw .wrongMonth
  if t.date.day = 0 || monthLength t.date.year t.date.month < t.date.day then throw .wrongDay
  match t.clock with
  | none => pure ()
  | some clock =>
    if 23 < clock.hour then throw .wrongHour
    if 59 < clock.minute then throw .wrongMinute
    if 59 < clock.second then throw .wrongSecond

end Timestamp
end SeoAudit.Yaml
