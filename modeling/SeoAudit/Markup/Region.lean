import SeoAudit.Text.Search

/-! The template region of a page and the tags in it. The region runs from the
first opening template tag to the next closing one, so a template inside it ends
it early. Tags are found by name without regard to case. -/
namespace SeoAudit
namespace Markup

def tagRest (s : Text) : Option (Text × Text) :=
  match s.dropWhile (· ≠ .char '>') with
  | [] => none
  | _ :: rest => some (s.takeWhile (· ≠ .char '>') ++ ">", rest)

def template : Recogniser Text := fun s => do
  let s ← Text.after? "<template" s
  let (_, s) ← tagRest s
  Text.upTo (Text.after? "</template>") s

def region? (text : Text) : Option Text := (Text.findFirst template text).map (·.1)

/-- Whether a character is the given lower case letter or its capital. Dotted and
dotless forms of `i` count as that letter. -/
def sameLetter (letter c : Char) : Bool :=
  c = letter || c.toLower = letter || (letter = 'i' && (c = '\u0130' || c = '\u0131'))

def afterAnyCase : (literal : List Char) → Text → Option (Text × Text)
  | [], s => some ([], s)
  | _ :: _, [] => none
  | a :: as, c :: cs =>
    if c.satisfies (sameLetter a) then (afterAnyCase as cs).map fun (taken, rest) =>
      (c :: taken, rest)
    else none

def tag (literal : String) : Recogniser Text := fun s => do
  let (start, s) ← afterAnyCase literal.toList s
  let (rest, s) ← tagRest s
  pure (start ++ rest, s)

end Markup
end SeoAudit
