import SeoAudit.Json.Basic
import SeoAudit.Text.Quoted

/-! Writing JSON text in ASCII: on one line, or indented with the keys of every
object sorted by code point. A code point beyond ASCII is written by its UTF-16 units. -/
namespace SeoAudit
namespace Json

def unitEscape (u : Nat) : List Char := '\\' :: 'u' :: Quoted.hex 4 u

def charEscape (c : Char) : List Char :=
  if c = '"' then ['\\', '"']
  else if c = '\\' then ['\\', '\\']
  else if c = '\n' then ['\\', 'n']
  else if c = '\r' then ['\\', 'r']
  else if c = '\t' then ['\\', 't']
  else if c = '\x0c' then ['\\', 'f']
  else if c = '\x08' then ['\\', 'b']
  else if 0x20 ≤ c.toNat && c.toNat < 0x7F then [c]
  else (Utf16.units c.toNat).flatMap unitEscape

def escape : CodePoint → List Char
  | .char c => charEscape c
  | .half h => unitEscape h.code

def stringText (s : Text) : List Char := '"' :: s.flatMap escape ++ ['"']

def numberText : Number → List Char
  | .fraction .nan => "NaN".toList
  | .fraction (.infinity false) => "Infinity".toList
  | .fraction (.infinity true) => "-Infinity".toList
  | n => n.text.toList

def boolText (b : Bool) : List Char := (if b then "true" else "false").toList

mutual

/-- The value on one line, with a space after each comma and colon. -/
def compact : Json → List Char
  | null => "null".toList
  | bool b => boolText b
  | number n => numberText n
  | string s => stringText s
  | array items => '[' :: compactItems items ++ [']']
  | object members => '\x7b' :: compactMembers members ++ ['\x7d']

def compactItems : List Json → List Char
  | [] => []
  | [item] => compact item
  | item :: items => compact item ++ [',', ' '] ++ compactItems items

def compactMembers : List (Text × Json) → List Char
  | [] => []
  | [(key, value)] => stringText key ++ [':', ' '] ++ compact value
  | (key, value) :: members =>
    stringText key ++ [':', ' '] ++ compact value ++ [',', ' '] ++ compactMembers members

end

mutual

def sortKeys : Json → Json
  | array items => array (sortKeysItems items)
  | object members =>
    object ((sortKeysMembers members).mergeSort fun a b => decide (a.1 ≤ b.1))
  | value => value

def sortKeysItems : List Json → List Json
  | [] => []
  | item :: items => sortKeys item :: sortKeysItems items

def sortKeysMembers : List (Text × Json) → List (Text × Json)
  | [] => []
  | (key, value) :: members => (key, sortKeys value) :: sortKeysMembers members

end

def newLine (depth : Nat) : List Char := '\n' :: List.replicate (2 * depth) ' '

mutual

def indented (depth : Nat) : Json → List Char
  | null => "null".toList
  | bool b => boolText b
  | number n => numberText n
  | string s => stringText s
  | array [] => "[]".toList
  | array (item :: items) =>
    '[' :: newLine (depth + 1) ++ indentedItems (depth + 1) (item :: items) ++
      newLine depth ++ [']']
  | object [] => ['\x7b', '\x7d']
  | object (member :: members) =>
    '\x7b' :: newLine (depth + 1) ++ indentedMembers (depth + 1) (member :: members) ++
      newLine depth ++ ['\x7d']

def indentedItems (depth : Nat) : List Json → List Char
  | [] => []
  | [item] => indented depth item
  | item :: items => indented depth item ++ ',' :: newLine depth ++ indentedItems depth items

def indentedMembers (depth : Nat) : List (Text × Json) → List Char
  | [] => []
  | [(key, value)] => stringText key ++ [':', ' '] ++ indented depth value
  | (key, value) :: members =>
    stringText key ++ [':', ' '] ++ indented depth value ++ ',' :: newLine depth ++
      indentedMembers depth members

end

def line (value : Json) : Text := Text.ofChars (compact value)

def document (value : Json) : Text := Text.ofChars (indented 0 (sortKeys value))

end Json
end SeoAudit
