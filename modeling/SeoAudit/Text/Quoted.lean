import SeoAudit.Text.Basic
import SeoAudit.Text.Printable
import SeoAudit.Text.Utf8

/-! Quoted text. Single quotes enclose it unless it holds a single quote and no
double quote. A backslash stands before the enclosing quote and before a
backslash; a code point that is no printable character is written by its code. -/
namespace SeoAudit
namespace Quoted

def hex : (width : Nat) → Nat → List Char
  | 0, _ => []
  | width + 1, n => hex width (n / 16) ++ [Utf8.hexDigit (n % 16)]

def coded (n : Nat) : Text :=
  Text.ofChars <|
    if n < 0x100 then '\\' :: 'x' :: hex 2 n
    else if n < 0x10000 then '\\' :: 'u' :: hex 4 n
    else '\\' :: 'U' :: hex 8 n

def escape (quote : CodePoint) (c : CodePoint) : Text :=
  if c = quote || c = '\\' then ['\\', c]
  else if c = '\n' then "\\n"
  else if c = '\r' then "\\r"
  else if c = '\t' then "\\t"
  else if c.satisfies isPrintable then [c]
  else coded c.code

def quoteFor (text : Text) : CodePoint :=
  if text.contains '\'' && !text.contains '"' then '"' else '\''

def encode (text : Text) : Text :=
  let quote := quoteFor text
  quote :: text.flatMap (escape quote) ++ [quote]

end Quoted
end SeoAudit
