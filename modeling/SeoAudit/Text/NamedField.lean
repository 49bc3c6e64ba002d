import SeoAudit.Text.Blank
import SeoAudit.Text.Search

/-! Named fields in source text: a name, a colon, blanks, and then a quoted text or
something between brackets. A name also counts at the end of a longer word. -/
namespace SeoAudit
namespace NamedField

def behind (c : CodePoint) : Text → Option Text
  | [] => none
  | d :: rest => if d = c then some rest else none

def behindBlanks (c : CodePoint) (s : Text) : Option Text := behind c (Text.skipBlanks s)

def isQuote (c : CodePoint) : Bool := c = '\'' || c = '"' || c = '\x60'

def start (name : Text) (s : Text) : Option Text :=
  (Text.after? (name ++ ":") s).map Text.skipBlanks

def quoted : Recogniser Text
  | [] => none
  | q :: s =>
    if isQuote q then
      match s.dropWhile (!isQuote ·) with
      | [] => none
      | _ :: rest => some (s.takeWhile (!isQuote ·), rest)
    else none

def text (name : Text) : Recogniser Text := fun s => start name s >>= quoted

def enclosed (opening closing : CodePoint) : Recogniser Text := fun s => do
  let s ← behind opening s
  let (content, rest) ← Text.upTo (behind closing) s
  pure (Text.strip content, rest)

end NamedField
end SeoAudit
