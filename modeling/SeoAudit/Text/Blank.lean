import SeoAudit.Text.Basic

/-! Blank characters and trimming. A character is blank when Unicode counts it as
white space or it is one of the four separators U+001C to U+001F. -/
namespace SeoAudit

def isBlank (c : Char) : Bool :=
  let n := c.toNat
  (0x09 ≤ n && n ≤ 0x0D) || (0x1C ≤ n && n ≤ 0x20) || n == 0x85 || n == 0xA0 ||
    n == 0x1680 || (0x2000 ≤ n && n ≤ 0x200A) || n == 0x2028 || n == 0x2029 ||
    n == 0x202F || n == 0x205F || n == 0x3000

def CodePoint.isBlank (c : CodePoint) : Bool := c.satisfies SeoAudit.isBlank

namespace Text

def skipBlanks (s : Text) : Text := s.dropWhile CodePoint.isBlank

def dropEnd (p : CodePoint → Bool) (s : Text) : Text := (s.reverse.dropWhile p).reverse

def stripEnd (s : Text) : Text := dropEnd CodePoint.isBlank s

def strip (s : Text) : Text := stripEnd (skipBlanks s)

def stripBy (p : CodePoint → Bool) (s : Text) : Text := dropEnd p (s.dropWhile p)

end Text
end SeoAudit
