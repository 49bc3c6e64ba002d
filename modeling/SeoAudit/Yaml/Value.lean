import SeoAudit.Json.Basic
import SeoAudit.Yaml.Error

/-! Values of YAML documents, and readers of them. -/
namespace SeoAudit.Yaml

inductive Value where
  | null
  | bool (value : Bool)
  | number (value : Number)
  | string (value : Text)
  | bytes (value : List UInt8)
  | timestamp
  | sequence (items : List Value)
  | mapping (pairs : List (Value × Value))
  | set (members : List Value)
deriving Inhabited

abbrev Reader := List Char → Except Error Value

namespace Value

/-- The value of the last pair of a mapping whose key is the given text. -/
def get? (key : Text) (pairs : List (Value × Value)) : Option Value :=
  pairs.reverse.findSome? fun (k, v) =>
    match k with
    | string s => if s = key then some v else none
    | _ => none

mutual

def ofJson : Json → Value
  | .null => null
  | .bool b => bool b
  | .number n => number n
  | .string s => string s
  | .array items => sequence (ofJsonItems items)
  | .object members => mapping (ofJsonMembers members)

def ofJsonItems : List Json → List Value
  | [] => []
  | item :: items => ofJson item :: ofJsonItems items

def ofJsonMembers : List (Text × Json) → List (Value × Value)
  | [] => []
  | (key, value) :: members => (string key, ofJson value) :: ofJsonMembers members

end

end Value
end SeoAudit.Yaml
