import SeoAudit.Text.CodePoint

/-! Texts as lists of code points. Every string is a text, and no two strings are the
same one; a text with lone halves of surrogate pairs is no string. -/
namespace SeoAudit

abbrev Text := List CodePoint

namespace Text

def ofChars (cs : List Char) : Text := cs.map .char

def ofString (s : String) : Text := ofChars s.toList

instance : Coe String Text := ⟨ofString⟩

def chars? (text : Text) : Option (List Char) :=
  text.mapM fun
    | .char c => some c
    | .half _ => none

def charsOr (substitute : Char) (text : Text) : List Char :=
  text.map fun
    | .char c => c
    | .half _ => substitute

def joined (separator : Text) (texts : List Text) : Text := separator.intercalate texts

def ofLines (lines : List Text) : Text := lines.flatMap (· ++ "\n")

end Text
end SeoAudit
