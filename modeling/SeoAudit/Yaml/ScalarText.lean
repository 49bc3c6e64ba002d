import SeoAudit.Json.Reader
import SeoAudit.Yaml.Cursor
import SeoAudit.Yaml.Error

/-! The text of scalars: plain, in single or double quotes, or as a block. Line ends
inside a scalar fold: one becomes a space, and of several all but the first stay. -/
namespace SeoAudit.Yaml
namespace ScalarText

def folded (first : Char) (further : List Char) : List Char :=
  if first ≠ '\n' then first :: further
  else if further.isEmpty then [' ']
  else further

/-! Plain scalars. -/

def endsPlain (inFlow : Bool) : List Char → Bool
  | [] => true
  | c :: rest =>
    c = ' ' || c = '\t' || isBreak c ||
    (c = ':' &&
      (isBlankOrEnd rest.head? || (inFlow && rest.head?.any (",[]\x7b\x7d".toList.contains ·)))) ||
    (inFlow && ",?[]\x7b\x7d".toList.contains c)

def plainRun (inFlow : Bool) : List Char → Nat
  | [] => 0
  | c :: rest => if endsPlain inFlow (c :: rest) then 0 else plainRun inFlow rest + 1

def plainBreaks : (fuel : Nat) → List Char → Cursor → Option (List Char × Cursor)
  | 0, breaks, c => some (breaks, c)
  | fuel + 1, breaks, c =>
    if c.peek = some ' ' then plainBreaks fuel breaks c.step
    else match c.lineBreak? with
      | some (b, next) =>
        if next.isAnyMarker then none else plainBreaks fuel (breaks ++ [b]) next
      | none => some (breaks, c)

/-- What stands between two runs of a plain scalar, and whether a line ends in it. -/
structure Gap where
  text : List Char
  next : Cursor
  broken : Bool

def plainGap (fuel : Nat) (c : Cursor) : Gap :=
  let (spaces, c) := c.span (· = ' ')
  match c.lineBreak? with
  | none => ⟨spaces, c, false⟩
  | some (first, next) =>
    if next.isAnyMarker then ⟨[], next, true⟩
    else match plainBreaks fuel [] next with
      | none => ⟨[], next, true⟩
      | some (further, c) => ⟨folded first further, c, true⟩

/-- The pieces of a plain scalar from a gap on, put before those so far: the last piece
comes first. The result also says whether a line ends between the last run and what
follows. -/
def plainFrom (inFlow : Bool) (indent : Int) :
    (fuel : Nat) → List (List Char) → Gap → List (List Char) × Cursor × Bool
  | 0, pieces, gap => (pieces, gap.next, gap.broken)
  | fuel + 1, pieces, gap =>
    let c := gap.next
    let length := if c.peek = some '#' then 0 else plainRun inFlow c.ahead
    if length = 0 then (pieces, c, gap.broken)
    else
      let pieces := c.ahead.take length :: gap.text :: pieces
      let next := plainGap fuel (c.stepBy length)
      if next.text.isEmpty || next.next.peek = some '#' ||
          (!inFlow && (next.next.column : Int) < indent) then (pieces, next.next, next.broken)
      else plainFrom inFlow indent fuel pieces next

def plain (inFlow : Bool) (indent : Int) (c : Cursor) : List Char × Cursor × Bool :=
  let (pieces, next, broken) := plainFrom inFlow indent c.ahead.length [] ⟨[], c, false⟩
  (pieces.reverse.flatten, next, broken)

/-! Quoted scalars. -/

def quotedBreaks : (fuel : Nat) → List Char → Cursor → Option (List Char × Cursor)
  | 0, _, _ => none
  | fuel + 1, breaks, c =>
    if c.isAnyMarker then none
    else
      let c := c.skip fun d => d = ' ' || d = '\t'
      match c.lineBreak? with
      | some (b, next) => quotedBreaks fuel (breaks ++ [b]) next
      | none => some (breaks, c)

def simpleEscape? : Char → Option Char
  | '0' => some '\x00'
  | 'a' => some '\x07'
  | 'b' => some '\x08'
  | 't' | '\t' => some '\t'
  | 'n' => some '\n'
  | 'v' => some '\x0b'
  | 'f' => some '\x0c'
  | 'r' => some '\r'
  | 'e' => some '\x1b'
  | ' ' => some ' '
  | '"' => some '"'
  | '\\' => some '\\'
  | '/' => some '/'
  | 'N' => some '\u0085'
  | '_' => some '\u00a0'
  | 'L' => some '\u2028'
  | 'P' => some '\u2029'
  | _ => none

def codeLength? : Char → Option Nat
  | 'x' => some 2
  | 'u' => some 4
  | 'U' => some 8
  | _ => none

def hexNumber? (digits : List Char) : Option Nat :=
  digits.foldlM (fun n d => (Json.hexValue? d).map (n * 16 + ·)) 0

def ofCode (code : Nat) : Except Error CodePoint :=
  if code < 0x110000 then .ok (.ofCode code)
  else if code < 0x80000000 then .error .codeTooLarge
  else .error .codeOverflow

def coded (length : Nat) (c : Cursor) : Except Error (CodePoint × Cursor) := do
  let digits := c.ahead.take length
  if digits.length < length then throw .malformed
  let code ← Error.orMalformed (hexNumber? digits)
  let d ← ofCode code
  pure (d, c.stepBy length)

def escape (fuel : Nat) (c : Cursor) : Except Error (Text × Cursor) := do
  let d ← Error.orMalformed c.peek
  match simpleEscape? d, codeLength? d with
  | some e, _ => pure ([.char e], c.step)
  | none, some length => (coded length c.step).map fun (d, c) => ([d], c)
  | none, none =>
    if isBreak d then
      let (breaks, c) ← Error.orMalformed (quotedBreaks fuel [] c.skipBreak)
      pure (Text.ofChars breaks, c)
    else throw .malformed

def quotedBlanks (fuel : Nat) (c : Cursor) : Option (List Char × Cursor) := do
  let (blanks, c) := c.span fun d => d = ' ' || d = '\t'
  match c.lineBreak? with
  | none => pure (blanks, c)
  | some (first, next) =>
    let (further, c) ← quotedBreaks fuel [] next
    pure (folded first further, c)

/-- The rest of a quoted scalar behind its text so far, the last code point of which
comes first. -/
def quotedFrom (quote : Char) : (fuel : Nat) → Text → Cursor → Except Error (Text × Cursor)
  | 0, _, _ => .error .malformed
  | fuel + 1, behind, c => do
    let d ← Error.orMalformed c.peek
    if d = quote then
      if quote = '\'' && c.peekAt 1 = some '\'' then
        quotedFrom quote fuel (d :: behind) (c.stepBy 2)
      else pure (behind.reverse, c.step)
    else if quote = '"' && d = '\\' then
      let (more, c) ← escape fuel c.step
      quotedFrom quote fuel (more.reverse ++ behind) c
    else if d = ' ' || d = '\t' || isBreak d then
      let (more, c) ← Error.orMalformed (quotedBlanks fuel c)
      quotedFrom quote fuel (Text.ofChars more.reverse ++ behind) c
    else quotedFrom quote fuel (d :: behind) c.step

def quoted (c : Cursor) : Except Error (Text × Cursor) := do
  let quote ← Error.orMalformed c.peek
  quotedFrom quote (c.ahead.length + 1) [] c.step

/-! Block scalars. -/

inductive Chomping where
  | strip | clip | keep
deriving DecidableEq

def chomping? : Option Char → Option Chomping
  | some '+' => some .keep
  | some '-' => some .strip
  | _ => none

def increment? (c : Option Char) : Option Nat :=
  c.bind fun d => if d.isDigit then some (d.toNat - 48) else none

def blockHeader (c : Cursor) : Option (Chomping × Option Nat × Cursor) := do
  let (chomp, increment, c) :=
    match chomping? c.peek with
    | some chomp =>
      match increment? c.step.peek with
      | some n => (chomp, some n, c.stepBy 2)
      | none => (chomp, none, c.step)
    | none =>
      match increment? c.peek with
      | some n =>
        match chomping? c.step.peek with
        | some chomp => (chomp, some n, c.stepBy 2)
        | none => (Chomping.clip, some n, c.step)
      | none => (Chomping.clip, none, c)
  if increment = some 0 || !isSpaceOrEnd c.peek then none
  else do
    let c ← c.endOfLine?
    pure (chomp, increment, c)

def blockIndentation :
    (fuel : Nat) → List Char → (widest : Nat) → Cursor → List Char × Nat × Cursor
  | 0, breaks, widest, c => (breaks, widest, c)
  | fuel + 1, breaks, widest, c =>
    if c.peek = some ' ' then blockIndentation fuel breaks (max widest c.step.column) c.step
    else match c.lineBreak? with
      | some (b, next) => blockIndentation fuel (breaks ++ [b]) widest next
      | none => (breaks, widest, c)

def skipTo (column : Nat) : (fuel : Nat) → Cursor → Cursor
  | 0, c => c
  | fuel + 1, c =>
    if c.column < column && c.peek = some ' ' then skipTo column fuel c.step else c

def blockBreaks (indent : Nat) : (fuel : Nat) → List Char → Cursor → List Char × Cursor
  | 0, breaks, c => (breaks, c)
  | fuel + 1, breaks, c =>
    let c := skipTo indent indent c
    match c.lineBreak? with
    | some (b, next) => blockBreaks indent fuel (breaks ++ [b]) next
    | none => (breaks, c)

def isBlankChar (c : Option Char) : Bool := c = some ' ' || c = some '\t'

/-- The lines of a block, put before its pieces so far: the last piece comes first.
`breaks` stand before the next line. -/
def blockLines (fold : Bool) (indent : Nat) (chomp : Chomping) :
    (fuel : Nat) → List (List Char) → (lineEnd : List Char) →
      (breaks : List Char) → Cursor →
    List (List Char) × Cursor
  | 0, pieces, _, _, c => (pieces, c)
  | fuel + 1, pieces, lineEnd, breaks, c =>
    if c.column = indent && c.peek.isSome then
      let flush := !isBlankChar c.peek
      let (line, c) := c.span (!isBreak ·)
      let pieces := line :: breaks :: pieces
      let (lineEnd, c) :=
        match c.lineBreak? with
        | some (b, next) => ([b], next)
        | none => ([], c)
      let (breaks, c) := blockBreaks indent fuel [] c
      if c.column = indent && c.peek.isSome then
        let joint :=
          if fold && lineEnd = ['\n'] && flush && !isBlankChar c.peek then
            if breaks.isEmpty then [' '] else []
          else lineEnd
        blockLines fold indent chomp fuel (joint :: pieces) lineEnd breaks c
      else (finish pieces lineEnd breaks, c)
    else (finish pieces lineEnd breaks, c)
where
  /-- The pieces with what is kept of the line ends behind them. -/
  finish (pieces : List (List Char)) (lineEnd breaks : List Char) : List (List Char) :=
    match chomp with
    | .strip => pieces
    | .clip => lineEnd :: pieces
    | .keep => breaks :: lineEnd :: pieces

def block (parentIndent : Int) (c : Cursor) : Option (List Char × Cursor) := do
  let fold := c.peek = some '>'
  let (chomp, increment, c) ← blockHeader c.step
  let least := max 1 (parentIndent + 1).toNat
  let fuel := c.ahead.length + 1
  let (pieces, c) :=
    match increment with
    | some n =>
      let indent := least + n - 1
      let (breaks, c) := blockBreaks indent fuel [] c
      blockLines fold indent chomp fuel [] [] breaks c
    | none =>
      let (breaks, widest, c) := blockIndentation fuel [] 0 c
      blockLines fold (max least widest) chomp fuel [] [] breaks c
  pure (pieces.reverse.flatten, c)

end ScalarText
end SeoAudit.Yaml
