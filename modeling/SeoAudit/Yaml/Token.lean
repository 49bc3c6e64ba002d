import SeoAudit.Text.Utf8
import SeoAudit.Yaml.ScalarText

/-! Tokens of a YAML text. Indentation becomes start and end tokens of block
collections. A mapping key is known only by the colon behind it, so the places
where a key may have started are kept, and the colon puts a key token there. Where
the text cannot be read any further, the tokens that are certain end with a fault. -/
namespace SeoAudit.Yaml

inductive Token where
  | version (major : Nat)
  | tagHandle (handle expansion : String)
  | otherDirective
  | documentStart
  | documentEnd
  | blockSequenceStart
  | blockMappingStart
  | blockEnd
  | flowSequenceStart
  | flowSequenceEnd
  | flowMappingStart
  | flowMappingEnd
  | blockEntry
  | flowEntry
  | key
  | value
  | alias (name : String)
  | anchor (name : String)
  | tag (handle : Option String) (suffix : String)
  | scalar (text : Text) (plain : Bool)
  /-- The text goes on, but cannot be read. -/
  | fault (error : Error)
deriving DecidableEq, Repr, Inhabited

/-- A place where a key may have started: the number of its token, and whether the
text can only be read if it is a key. -/
structure KeyPlace where
  token : Nat
  required : Bool
  index : Nat
  line : Nat
  column : Nat

/-- What is known between two tokens. `indents` holds the columns of the open block
collections, the innermost first; `keys` holds a place for each flow level. -/
structure Scan where
  cursor : Cursor
  tokens : Array Token := #[]
  flowLevel : Nat := 0
  indents : List Nat := []
  mayStartKey : Bool := true
  keys : List (Nat × KeyPlace) := []

namespace Scan

def push (s : Scan) (t : Token) : Scan := { s with tokens := s.tokens.push t }

def indent (s : Scan) : Int :=
  match s.indents with
  | [] => -1
  | column :: _ => column

def inFlow (s : Scan) : Bool := decide (0 < s.flowLevel)

def unwindTo (column : Int) : (indents : List Nat) → Scan → Scan
  | [], s => { s with indents := [] }
  | i :: rest, s =>
    if column < i then unwindTo column rest (s.push .blockEnd) else { s with indents := i :: rest }

def unwind (column : Int) (s : Scan) : Scan :=
  if s.inFlow then s else unwindTo column s.indents s

/-- Opens a block collection at a column, unless one is open there already; its
start token goes to a place in the list of tokens. -/
def openBlock (column : Nat) (start : Token) (place : Nat) (s : Scan) : Scan :=
  if s.indent < column then
    { s with indents := column :: s.indents, tokens := s.tokens.insertIdxIfInBounds place start }
  else s

def dropKey (s : Scan) : Option Scan :=
  match s.keys.lookup s.flowLevel with
  | some k =>
    if k.required then none
    else some { s with keys := s.keys.filter (·.1 ≠ s.flowLevel) }
  | none => some s

def noteKey (s : Scan) : Option Scan :=
  if s.mayStartKey then do
    let s ← s.dropKey
    let c := s.cursor
    let required := !s.inFlow && s.indent = c.column
    pure { s with
      keys := (s.flowLevel, ⟨s.tokens.size, required, c.index, c.line, c.column⟩) :: s.keys }
  else some s

/-- Whether a key place lies on an earlier line or more than 1024 characters back. -/
def isStale (s : Scan) (k : KeyPlace) : Bool :=
  k.line ≠ s.cursor.line || 1024 < s.cursor.index - k.index

def dropStaleKeys (s : Scan) : Option Scan :=
  if s.keys.any fun (_, k) => s.isStale k && k.required then none
  else some { s with keys := s.keys.filter fun (_, k) => !s.isStale k }

/-- How many tokens are certain: those before the first place where a key may still
have started. -/
def certain (s : Scan) : Nat :=
  (s.keys.filter fun (_, k) => !s.isStale k).foldl (fun n (_, k) => min n k.token) s.tokens.size

def broken (s : Scan) (e : Error) : List Token := s.tokens.toList.take s.certain ++ [.fault e]

def skipToToken : (fuel : Nat) → Scan → Scan
  | 0, s => s
  | fuel + 1, s =>
    let c := s.cursor.skip (· = ' ')
    let c := if c.peek = some '#' then c.skip (!isBreak ·) else c
    match c.lineBreak? with
    | some (_, next) =>
      skipToToken fuel { s with cursor := next, mayStartKey := s.mayStartKey || !s.inFlow }
    | none => { s with cursor := c }

def take (length : Nat) (t : Token) (s : Scan) : Scan :=
  { s.push t with cursor := s.cursor.stepBy length }

/-! Directives. -/

def isNameChar (c : Char) : Bool := c.isAlphanum || c = '-' || c = '_'

def number (c : Cursor) : Except Error (Nat × Cursor) :=
  match c.span Char.isDigit with
  | ([], _) => .error .malformed
  | (digits, c) =>
    if digits.length ≤ Text.digitLimit then .ok (Json.digitsValue (Text.ofChars digits), c)
    else .error (.tooManyDigits digits.length)

def tagHandle? (c : Cursor) : Option (String × Cursor) :=
  if c.peek ≠ some '!' then none
  else
    let (name, next) := c.step.span isNameChar
    if next.peek = some '!' then some (String.ofList ('!' :: name ++ ['!']), next.step)
    else if name.isEmpty && c.peekAt 1 = some ' ' then some ("!", c.step)
    else none

def isUriChar (c : Char) : Bool :=
  c.isAlphanum || "-;/?:@&=+$,_.!~*'()[]%".toList.contains c

def escapedOctets : List Char → Option (List UInt8 × List Char)
  | '%' :: a :: b :: rest => do
    let code ← ScalarText.hexNumber? [a, b]
    let (more, rest) ← escapedOctets rest
    pure (code.toUInt8 :: more, rest)
  | '%' :: _ => none
  | rest => some ([], rest)

def unescapeUri : (fuel : Nat) → List Char → Option (List Char)
  | 0, _ => some []
  | _ + 1, [] => some []
  | fuel + 1, '%' :: rest => do
    let (octets, rest) ← escapedOctets ('%' :: rest)
    let decoded ← (Utf8.decode octets).toOption
    (unescapeUri fuel rest).map (decoded ++ ·)
  | fuel + 1, c :: rest => (unescapeUri fuel rest).map (c :: ·)

def tagUri? (c : Cursor) : Option (String × Cursor) :=
  match c.span isUriChar with
  | ([], _) => none
  | (uri, c) => (unescapeUri (uri.length + 1) uri).map fun u => (String.ofList u, c)

def version (c : Cursor) : Except Error (Token × Cursor) := do
  let (major, c) ← number (c.skip (· = ' '))
  if c.peek ≠ some '.' then throw .malformed
  let (_, c) ← number c.step
  if !isSpaceOrEnd c.peek then throw .malformed
  Error.orMalformed ((c.endOfLine?).map (Token.version major, ·))

def handle? (c : Cursor) : Option (Token × Cursor) := do
  let (handle, c) ← tagHandle? (c.skip (· = ' '))
  if c.peek ≠ some ' ' then none
  else do
    let (expansion, c) ← tagUri? (c.skip (· = ' '))
    if isSpaceOrEnd c.peek then (c.endOfLine?).map (Token.tagHandle handle expansion, ·) else none

def directive (c : Cursor) : Except Error (Token × Cursor) :=
  let (name, c) := c.span isNameChar
  if name.isEmpty || !isSpaceOrEnd c.peek then .error .malformed
  else if name = "YAML".toList then version c
  else if name = "TAG".toList then Error.orMalformed (handle? c)
  else Error.orMalformed (((c.skip (!isBreak ·)).endOfLine?).map (Token.otherDirective, ·))

/-! Tokens at the start of a node. -/

def name? (c : Cursor) : Option (String × Cursor) :=
  let (name, c) := c.span isNameChar
  if name.isEmpty then none
  else if isBlankOrEnd c.peek || c.peek.any ("?:,]\x7d%@\x60".toList.contains ·) then
    some (String.ofList name, c)
  else none

def hasSecondMark (ahead : List Char) : Bool :=
  (ahead.takeWhile fun c => c ≠ ' ' && !isBreak c).contains '!'

def tag? (c : Cursor) : Option (Token × Cursor) := do
  let (token, c) ←
    if c.peekAt 1 = some '<' then do
      let (uri, c) ← tagUri? (c.stepBy 2)
      if c.peek = some '>' then some (Token.tag none uri, c.step) else none
    else if isBlankOrEnd (c.peekAt 1) then some (Token.tag none "!", c.step)
    else do
      let (handle, c) ← if hasSecondMark c.step.ahead then tagHandle? c else some ("!", c.step)
      let (suffix, c) ← tagUri? c
      pure (Token.tag (some handle) suffix, c)
  if isSpaceOrEnd c.peek then some (token, c) else none

def startNode (read : Cursor → Option (Token × Cursor)) (s : Scan) : Option Scan := do
  let s ← s.noteKey
  let (token, c) ← read s.cursor
  pure { s.push token with cursor := c, mayStartKey := false }

def plain (s : Scan) : Option Scan := do
  let s ← s.noteKey
  let (text, c, broken) := ScalarText.plain s.inFlow (s.indent + 1) s.cursor
  pure { s.push (.scalar (Text.ofChars text) true) with cursor := c, mayStartKey := broken }

def block (s : Scan) : Option Scan := do
  let s ← s.dropKey
  let (text, c) ← ScalarText.block s.indent s.cursor
  pure { s.push (.scalar (Text.ofChars text) false) with cursor := c, mayStartKey := true }

/-! Tokens of structure. -/

def flowStart (t : Token) (s : Scan) : Option Scan := do
  let s ← s.noteKey
  pure { s.take 1 t with flowLevel := s.flowLevel + 1, mayStartKey := true }

def flowEnd (t : Token) (s : Scan) : Option Scan := do
  let s ← s.dropKey
  if s.flowLevel = 0 then none
  else pure { s.take 1 t with flowLevel := s.flowLevel - 1, mayStartKey := false }

def flowEntry (s : Scan) : Option Scan := do
  let s ← s.dropKey
  pure { s.take 1 .flowEntry with mayStartKey := true }

def blockEntry (s : Scan) : Option Scan := do
  if !s.inFlow && !s.mayStartKey then none
  else do
    let s := if s.inFlow then s else s.openBlock s.cursor.column .blockSequenceStart s.tokens.size
    let s ← s.dropKey
    pure { s.take 1 .blockEntry with mayStartKey := true }

def explicitKey (s : Scan) : Option Scan := do
  if !s.inFlow && !s.mayStartKey then none
  else do
    let s := if s.inFlow then s else s.openBlock s.cursor.column .blockMappingStart s.tokens.size
    let s ← s.dropKey
    pure { s.take 1 .key with mayStartKey := !s.inFlow }

/-- A colon before a value: the place noted last turns out to be its key. -/
def value (s : Scan) : Option Scan :=
  match s.keys.lookup s.flowLevel with
  | some k =>
    let s := { s with
      keys := s.keys.filter (·.1 ≠ s.flowLevel)
      tokens := s.tokens.insertIdxIfInBounds k.token .key }
    let s := if s.inFlow then s else s.openBlock k.column .blockMappingStart k.token
    some { s.take 1 .value with mayStartKey := false }
  | none =>
    if !s.inFlow && !s.mayStartKey then none
    else
      let s := if s.inFlow then s else s.openBlock s.cursor.column .blockMappingStart s.tokens.size
      some { s.take 1 .value with mayStartKey := !s.inFlow }

def endBlocks (s : Scan) : Option Scan := do
  let s ← (s.unwind (-1)).dropKey
  pure { s with mayStartKey := false }

def startsPlain (s : Scan) : Bool :=
  match s.cursor.peek with
  | none => false
  | some c =>
    (!isBlankOrEnd (some c) && !"-?:,[]\x7b\x7d#&*!|>'\"%@\x60".toList.contains c) ||
    (!isBlankOrEnd (s.cursor.peekAt 1) && (c = '-' || (!s.inFlow && (c = '?' || c = ':'))))

def tokenAt (s : Scan) (c : Char) : Option Scan :=
  let nextBlank := isBlankOrEnd (s.cursor.peekAt 1)
  let lineStart := s.cursor.column = 0
  if lineStart && s.cursor.isMarker '-' && c = '-' then (s.endBlocks).map (take 3 .documentStart)
  else if lineStart && s.cursor.isMarker '.' && c = '.' then (s.endBlocks).map (take 3 .documentEnd)
  else if c = '[' then s.flowStart .flowSequenceStart
  else if c = '\x7b' then s.flowStart .flowMappingStart
  else if c = ']' then s.flowEnd .flowSequenceEnd
  else if c = '\x7d' then s.flowEnd .flowMappingEnd
  else if c = ',' then s.flowEntry
  else if c = '-' && nextBlank then s.blockEntry
  else if c = '?' && (s.inFlow || nextBlank) then s.explicitKey
  else if c = ':' && (s.inFlow || nextBlank) then s.value
  else if c = '*' then s.startNode fun c => (name? c.step).map fun (n, c) => (Token.alias n, c)
  else if c = '&' then s.startNode fun c => (name? c.step).map fun (n, c) => (Token.anchor n, c)
  else if c = '!' then s.startNode tag?
  else if (c = '|' || c = '>') && !s.inFlow then s.block
  else if s.startsPlain then s.plain
  else none

def quoted (s : Scan) : Except Error Scan := do
  let s ← Error.orMalformed s.noteKey
  let (text, c) ← ScalarText.quoted s.cursor
  pure { s.push (.scalar text false) with cursor := c, mayStartKey := false }

def directiveToken (s : Scan) : Except Error Scan := do
  let s ← Error.orMalformed s.endBlocks
  let (token, c) ← directive s.cursor.step
  pure { s.push token with cursor := c }

def token (s : Scan) (c : Char) : Except Error Scan :=
  if c = '\'' || c = '"' then s.quoted
  else if c = '%' && s.cursor.column = 0 then s.directiveToken
  else Error.orMalformed (s.tokenAt c)

def finish (s : Scan) : Except Error Scan := Error.orMalformed (s.unwind (-1)).dropKey

/-- One token on, or to the end of the text; says whether there is more. `fuel` bounds the
lines that are skipped before the token. -/
def advance (fuel : Nat) (s : Scan) : Except Error (Scan × Bool) := do
  let s ← Error.orMalformed (s.skipToToken fuel).dropStaleKeys
  let s := s.unwind s.cursor.column
  match s.cursor.peek with
  | none => return (← s.finish, false)
  | some c => return (← s.token c, true)

def run : (fuel : Nat) → Scan → List Token
  | 0, s => s.broken .malformed
  | fuel + 1, s =>
    match s.advance (fuel + 1) with
    | .error e => s.broken e
    | .ok (s, false) => s.tokens.toList
    | .ok (s, true) => run fuel s

end Scan

def isAllowed (c : Char) : Bool :=
  let n := c.toNat
  n = 0x09 || n = 0x0A || n = 0x0D || (0x20 ≤ n && n ≤ 0x7E) || n = 0x85 ||
    (0xA0 ≤ n && n ≤ 0xFFFD) || 0x10000 ≤ n

def Token.ofText (text : List Char) : List Token :=
  if text.all isAllowed then
    let start : Cursor := { ahead := text }
    let start := if start.peek = some '\uFEFF' then start.step else start
    Scan.run (text.length + 1) { cursor := start }
  else [.fault .malformed]

end SeoAudit.Yaml
