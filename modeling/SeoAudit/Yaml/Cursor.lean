/-! A place in a YAML text: the characters ahead, how many lie behind, and the line
and column. A line ends at a line feed, a carriage return, or one of three other
Unicode line ends; a byte order mark takes no column. -/
namespace SeoAudit.Yaml

def isBreak (c : Char) : Bool :=
  c = '\r' || c = '\n' || c = '\u0085' || c = '\u2028' || c = '\u2029'

def isLineEnd : Option Char → Bool
  | none => true
  | some c => isBreak c

def isSpaceOrEnd : Option Char → Bool
  | some ' ' => true
  | c => isLineEnd c

def isBlankOrEnd : Option Char → Bool
  | some '\t' => true
  | c => isSpaceOrEnd c

structure Cursor where
  ahead : List Char
  index : Nat := 0
  line : Nat := 0
  column : Nat := 0
deriving Inhabited

namespace Cursor

def peek (c : Cursor) : Option Char := c.ahead.head?

def peekAt (c : Cursor) (n : Nat) : Option Char := (c.ahead.drop n).head?

def step (c : Cursor) : Cursor :=
  match c.ahead with
  | [] => c
  | d :: rest =>
    let next := { c with ahead := rest, index := c.index + 1 }
    if isBreak d && !(d = '\r' && rest.head? = some '\n') then
      { next with line := c.line + 1, column := 0 }
    else if d = '\uFEFF' then next
    else { next with column := c.column + 1 }

def stepBy : Nat → Cursor → Cursor
  | 0, c => c
  | n + 1, c => stepBy n c.step

def span (p : Char → Bool) (c : Cursor) : List Char × Cursor :=
  let taken := c.ahead.takeWhile p
  (taken, stepBy taken.length c)

def skip (p : Char → Bool) (c : Cursor) : Cursor := (c.span p).2

def lineBreak? (c : Cursor) : Option (Char × Cursor) :=
  match c.ahead with
  | '\r' :: '\n' :: _ => some ('\n', stepBy 2 c)
  | d :: _ =>
    if d = '\r' || d = '\n' || d = '\u0085' then some ('\n', c.step)
    else if d = '\u2028' || d = '\u2029' then some (d, c.step)
    else none
  | [] => none

def skipBreak (c : Cursor) : Cursor := (c.lineBreak?.map (·.2)).getD c

def endOfLine? (c : Cursor) : Option Cursor :=
  let c := c.skip (· = ' ')
  let c := if c.peek = some '#' then c.skip (!isBreak ·) else c
  if isLineEnd c.peek then some c.skipBreak else none

/-- Whether a document marker stands here: three equal characters and then a blank. -/
def isMarker (c : Cursor) (mark : Char) : Bool :=
  c.ahead.take 3 = [mark, mark, mark] && isBlankOrEnd (c.peekAt 3)

def isAnyMarker (c : Cursor) : Bool := c.isMarker '-' || c.isMarker '.'

end Cursor
end SeoAudit.Yaml
