import SeoAudit.Json.Basic
import SeoAudit.Text.DecimalDigit
import SeoAudit.Text.Search

/-! Reading JSON text. Beside the standard forms the reader takes `NaN`,
`Infinity` and `-Infinity`; the last of several members with one key counts. The codes of
the two halves of a surrogate pair are one character. Whole numbers have a limited number of
digits, and arrays and objects a limited depth; of several faults the first in the text
counts. -/
namespace SeoAudit
namespace Json

inductive ReadError where
  | malformed
  | tooManyDigits (count : Nat)
  /-- Arrays and objects too deep inside one another; the kind is the innermost one's. -/
  | tooDeep (kind : Kind)
deriving DecidableEq, Repr

def containerWord : Kind → String
  | .object => "object"
  | _ => "array"

def ReadError.message : ReadError → String
  | malformed => "<json error>"
  | tooManyDigits count => Text.tooManyDigits count
  | tooDeep kind =>
    "maximum recursion depth exceeded while decoding a JSON " ++ containerWord kind ++
      " from a unicode string"

def depthLimit : Nat := 988

def orMalformed {α : Type} : Option α → Except ReadError α
  | some a => .ok a
  | none => .error .malformed

def isSpace (c : CodePoint) : Bool := c = ' ' || c = '\t' || c = '\n' || c = '\r'

def skipSpace (s : Text) : Text := s.dropWhile isSpace

def hexValue? (c : Char) : Option Nat :=
  if '0' ≤ c && c ≤ '9' then some (c.toNat - 48)
  else if 'a' ≤ c && c ≤ 'f' then some (c.toNat - 87)
  else if 'A' ≤ c && c ≤ 'F' then some (c.toNat - 55)
  else none

def unit? (a b c d : Char) : Option Nat := do
  let a ← hexValue? a
  let b ← hexValue? b
  let c ← hexValue? c
  let d ← hexValue? d
  pure (((a * 16 + b) * 16 + c) * 16 + d)

def escaped? : Char → Option Char
  | '"' => some '"'
  | '\\' => some '\\'
  | '/' => some '/'
  | 'b' => some '\x08'
  | 'f' => some '\x0c'
  | 'n' => some '\n'
  | 'r' => some '\r'
  | 't' => some '\t'
  | _ => none

/-- A part of a string: a code point, or a UTF-16 unit that is written by its code. -/
inductive Piece where
  | point (c : CodePoint)
  | unit (u : Nat)

/-- The text of some pieces; the unit of a high half is joined with the one of a low half
behind it. -/
def ofPieces : List Piece → Text
  | [] => []
  | .point c :: ps => c :: ofPieces ps
  | .unit u :: .unit v :: ps =>
    if Utf16.isHigh u && Utf16.isLow v then .ofCode (Utf16.joined u v) :: ofPieces ps
    else .ofCode u :: ofPieces (.unit v :: ps)
  | .unit u :: ps => .ofCode u :: ofPieces ps

def readPieces : Text → Option (List Piece × Text)
  | [] => none
  | .char '"' :: cs => some ([], cs)
  | .char '\\' :: .char 'u' :: .char a :: .char b :: .char c :: .char d :: cs => do
    let u ← unit? a b c d
    let (ps, rest) ← readPieces cs
    pure (.unit u :: ps, rest)
  | .char '\\' :: .char e :: cs => do
    let c ← escaped? e
    let (ps, rest) ← readPieces cs
    pure (.point c :: ps, rest)
  | c :: cs =>
    if c = '\\' || c.code < 0x20 then none
    else do
      let (ps, rest) ← readPieces cs
      pure (.point c :: ps, rest)

def readString (s : Text) : Option (Text × Text) :=
  (readPieces s).map fun (ps, rest) => (ofPieces ps, rest)

def digitsValue (ds : Text) : Nat := ds.foldl (fun n d => n * 10 + (d.code - 48)) 0

def readDigits (s : Text) : Option (Text × Text) :=
  match s.takeWhile CodePoint.isDigit with
  | [] => none
  | ds => some (ds, s.dropWhile CodePoint.isDigit)

def readWholeDigits : Text → Option (Text × Text)
  | .char '0' :: cs => some ("0", cs)
  | cs => readDigits cs

def readFraction : Text → Option (Text × Text)
  | .char '.' :: cs => readDigits cs
  | _ => none

def readExponent : Text → Option (Int × Text)
  | e :: cs =>
    if e = 'e' || e = 'E' then
      match cs with
      | .char '-' :: ds => (readDigits ds).map fun (n, rest) => (-(digitsValue n : Int), rest)
      | .char '+' :: ds => (readDigits ds).map fun (n, rest) => ((digitsValue n : Int), rest)
      | ds => (readDigits ds).map fun (n, rest) => ((digitsValue n : Int), rest)
    else none
  | [] => none

def wholeNumber (negative : Bool) (ds : Text) : Except ReadError Number :=
  if ds.length ≤ Text.digitLimit then
    let n : Int := digitsValue ds
    .ok (.whole (if negative then -n else n))
  else .error (.tooManyDigits ds.length)

def readUnsigned (negative : Bool) (s : Text) : Except ReadError (Number × Text) := do
  let (ds, s) ← orMalformed (readWholeDigits s)
  match readFraction s, readExponent ((readFraction s).elim s (·.2)) with
  | none, none => return (← wholeNumber negative ds, s)
  | some (fs, s), none =>
    pure (.fraction (Binary64.ofDecimal negative (digitsValue (ds ++ fs)) (-(fs.length : Int))), s)
  | none, some (e, s) =>
    pure (.fraction (Binary64.ofDecimal negative (digitsValue ds) e), s)
  | some (fs, _), some (e, s) =>
    pure (.fraction (Binary64.ofDecimal negative (digitsValue (ds ++ fs)) (e - fs.length)), s)

def readNumber : Text → Except ReadError (Number × Text)
  | .char '-' :: s => readUnsigned true s
  | s => readUnsigned false s

def words : List (Text × Json) :=
  [("null", null), ("true", bool true), ("false", bool false),
    ("NaN", number (.fraction .nan)), ("Infinity", number (.fraction (.infinity false))),
    ("-Infinity", number (.fraction (.infinity true)))]

def readWord (s : Text) : Option (Json × Text) :=
  words.findSome? fun (word, value) => (Text.after? word s).map (value, ·)

def readScalar (s : Text) : Except ReadError (Json × Text) :=
  match readWord s with
  | some r => .ok r
  | none => (readNumber s).map fun (n, rest) => (number n, rest)

mutual

/-- A value at the start of a text; `depth` bounds the nesting, and `fuel` the items too. -/
def readValue (depth : Nat) : (fuel : Nat) → Text → Except ReadError (Json × Text)
  | 0, _ => .error .malformed
  | _ + 1, .char '"' :: s => (orMalformed (readString s)).map fun (text, rest) =>
    (string text, rest)
  | fuel + 1, .char '[' :: s =>
    match depth, skipSpace s with
    | 0, _ => .error (.tooDeep .array)
    | _ + 1, .char ']' :: rest => .ok (array [], rest)
    | depth + 1, s => (readItems depth fuel s).map fun (items, rest) => (array items, rest)
  | fuel + 1, .char '\x7b' :: s =>
    match depth, skipSpace s with
    | 0, _ => .error (.tooDeep .object)
    | _ + 1, .char '\x7d' :: rest => .ok (object [], rest)
    | depth + 1, s =>
      (readMembers depth fuel s).map fun (members, rest) => (object (Table.ofList members), rest)
  | _ + 1, s => readScalar s

def readItems (depth : Nat) : (fuel : Nat) → Text → Except ReadError (List Json × Text)
  | 0, _ => .error .malformed
  | fuel + 1, s => do
    let (item, s) ← readValue depth fuel s
    match skipSpace s with
    | .char ']' :: rest => pure ([item], rest)
    | .char ',' :: s =>
      let (items, rest) ← readItems depth fuel (skipSpace s)
      pure (item :: items, rest)
    | _ => throw .malformed

def readMembers (depth : Nat) :
    (fuel : Nat) → Text → Except ReadError (List (Text × Json) × Text)
  | 0, _ => .error .malformed
  | fuel + 1, .char '"' :: s => do
    let (key, s) ← orMalformed (readString s)
    match skipSpace s with
    | .char ':' :: s =>
      let (value, s) ← readValue depth fuel (skipSpace s)
      match skipSpace s with
      | .char '\x7d' :: rest => pure ([(key, value)], rest)
      | .char ',' :: s =>
        let (members, rest) ← readMembers depth fuel (skipSpace s)
        pure ((key, value) :: members, rest)
      | _ => throw .malformed
    | _ => throw .malformed
  | _ + 1, _ => .error .malformed

end

def read (text : Text) : Except ReadError Json := do
  let (value, rest) ← readValue depthLimit (2 * text.length + 2) (skipSpace text)
  if (skipSpace rest).isEmpty then pure value else throw .malformed

end Json
end SeoAudit
