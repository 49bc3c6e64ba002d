import SeoAudit.Text.Encoding
import SeoAudit.Tree.Name

/-! Absolute paths as lists of segments. Joining keeps `..` segments and two slashes at
the very start; `normal` removes the segments by their meaning in the text alone, where
at the top they go nowhere, and `resolve` the second slash too. A text with a half that
stands for no octet or with a null character names no path, and one that is too long
cannot be looked up. -/
namespace SeoAudit

structure Path where
  segments : List Text
  doubled : Bool := false
deriving DecidableEq, Repr, Inhabited

namespace Path

def parts (text : Text) : List Text :=
  (text.splitOn (.char '/')).filter fun part => !part.isEmpty && part ≠ "."

def isAbsoluteText (text : Text) : Bool := text.head? = some (.char '/')

def isDoubledText (text : Text) : Bool :=
  match text with
  | .char '/' :: .char '/' :: .char '/' :: _ => false
  | .char '/' :: .char '/' :: _ => true
  | _ => false

def ofText (text : Text) : Path := ⟨parts text, isDoubledText text⟩

def below (base : Path) (segments : List Text) : Path :=
  { base with segments := base.segments ++ segments }

def join (base : Path) (text : Text) : Path :=
  if isAbsoluteText text then ofText text else base.below (parts text)

/-- Removes each `..` together with the segment before it; `above` holds the
segments kept so far, the last one first. -/
def resolveFrom (above : List Text) : List Text → List Text
  | [] => above.reverse
  | segment :: rest =>
    if segment = ".." then resolveFrom above.tail rest else resolveFrom (segment :: above) rest

def normal (p : Path) : Path := { p with segments := resolveFrom [] p.segments }

def resolve (p : Path) : Path := ⟨resolveFrom [] p.segments, false⟩

theorem not_mem_resolveFrom (above segments : List Text) (h : (".." : Text) ∉ above) :
    (".." : Text) ∉ resolveFrom above segments := by
  induction segments generalizing above with
  | nil => simpa [resolveFrom] using h
  | cons segment rest ih =>
    by_cases up : segment = ".."
    · simp only [resolveFrom, up, ↓reduceIte]
      exact ih _ fun m => h (List.mem_of_mem_tail m)
    · simp only [resolveFrom, up, ↓reduceIte]
      exact ih _ (by simp [h, Ne.symm up])

theorem not_mem_resolve (p : Path) : (".." : Text) ∉ p.resolve.segments :=
  not_mem_resolveFrom [] p.segments (by simp)

/-- Every place passed on the way to a path, the path itself last. -/
def stages (p : Path) : List Path :=
  (List.range (p.segments.length + 1)).map fun n => resolve { p with segments := p.segments.take n }

def text (p : Path) : Text :=
  (if p.doubled then "//" else "/") ++ Text.joined "/" p.segments

/-- The path with its segments as the directories on the way to it give them back. -/
def stored (p : Path) : Path := { p with segments := p.segments.map Name.stored }

def name (p : Path) : Text := p.segments.getLast?.getD []

def parent (p : Path) : Path := { p with segments := p.segments.dropLast }

def segmentsUnder? : (base path : List Text) → Option (List Text)
  | [], rest => some rest
  | _ :: _, [] => none
  | b :: bs, s :: ss => if b = s then segmentsUnder? bs ss else none

def relativeText (segments : List Text) : Text :=
  if segments.isEmpty then "." else Text.joined "/" segments

def relativeTo (p base : Path) : Text :=
  match segmentsUnder? base.segments p.segments with
  | some rest => if p.doubled = base.doubled then relativeText rest else p.text
  | none => p.text

end Path

inductive PathError where
  | nullCharacter
  /-- Halves that stand for no octets, with their place in the path. -/
  | unwritable (position : Nat) (halves : Text)
  | tooLong (path : Text)
deriving DecidableEq, Repr

namespace PathError

def message : PathError → Text
  | nullCharacter => "embedded null byte"
  | unwritable position halves =>
    EncodingError.message ⟨Encoding.utf8.name, position, halves, Encoding.utf8.reason⟩
  | tooLong path => "[Errno 36] File name too long: " ++ Quoted.encode path

end PathError

namespace Path

def fault? (text : Text) : Option PathError :=
  let before := text.takeWhile (!Name.isUnwritable ·)
  match text.drop before.length with
  | [] => if text.contains '\x00' then some .nullCharacter else none
  | rest => some (.unwritable before.length (rest.takeWhile Name.isHalf))

/-- The segments kept behind a `..`, the last one first; at the start of a relative path
there is nothing to go back to, and it stays. -/
def above (isAbsolute : Bool) : (kept : List Text) → List Text
  | [] => if isAbsolute then [] else [".."]
  | segment :: kept => if segment = ".." then ".." :: ".." :: kept else kept

/-- What keeps a place on the way along some segments from being looked at; `kept` holds
the segments before them, the last one first. -/
def faultFrom? (isAbsolute : Bool) (kept : List Text) : List Text → Option PathError
  | [] => none
  | segment :: rest =>
    if segment = ".." then faultFrom? isAbsolute (above isAbsolute kept) rest
    else
      let place := Text.joined "/" (segment :: kept).reverse
      (fault? (if isAbsolute then "/" ++ place else place)).or
        (faultFrom? isAbsolute (segment :: kept) rest)

def resolvedAs (given : Text) (p : Path) : Except PathError Path :=
  match faultFrom? (isAbsoluteText given) [] (parts given) with
  | some e => .error e
  | none => .ok p.resolve

def resolved (p : Path) : Except PathError Path := p.resolvedAs p.text

def segmentLimit : Nat := 255

def textLimit : Nat := 4095

end Path
end SeoAudit
