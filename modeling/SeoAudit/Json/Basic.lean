import SeoAudit.Number.Basic
import SeoAudit.Table

/-! JSON values. Numbers keep apart whole numbers and fractions, and an object is
a list of members in the order of their first appearance, one for each key. -/
namespace SeoAudit

inductive Json where
  | null
  | bool (value : Bool)
  | number (value : Number)
  | string (value : Text)
  | array (items : List Json)
  | object (members : List (Text × Json))
deriving Inhabited, Repr

abbrev Members := Table Json

namespace Json

inductive Kind where
  | null | bool | whole | fraction | string | array | object
deriving DecidableEq, Repr

def kind : Json → Kind
  | null => .null
  | bool _ => .bool
  | number (.whole _) => .whole
  | number (.fraction _) => .fraction
  | string _ => .string
  | array _ => .array
  | object _ => .object

def whole (n : Int) : Json := number (.whole n)

def ofOption {α : Type} (f : α → Json) : Option α → Json
  | none => null
  | some a => f a

def strings (texts : List Text) : Json := array (texts.map string)

/-- Whether a value counts as present: not null, not false, not zero and not empty. -/
def isPresent : Json → Bool
  | null => false
  | bool b => b
  | number n => !n.isZero
  | string s => !s.isEmpty
  | array items => !items.isEmpty
  | object members => !members.isEmpty

def members? : Json → Option Members
  | object members => some members
  | _ => none

def items? : Json → Option (List Json)
  | array items => some items
  | _ => none

def string? : Json → Option Text
  | string s => some s
  | _ => none

end Json
end SeoAudit
