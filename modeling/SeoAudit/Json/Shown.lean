import SeoAudit.Json.Basic
import SeoAudit.Text.Quoted

/-! How a value shows inside running text. A string at the top shows as it is; a
string inside an array or an object is quoted. -/
namespace SeoAudit
namespace Json

mutual

def nested : Json → Text
  | null => "None"
  | bool b => if b then "True" else "False"
  | number n => n.text
  | string s => Quoted.encode s
  | array items => "[" ++ nestedItems items ++ "]"
  | object members => "\x7b" ++ nestedMembers members ++ "\x7d"

def nestedItems : List Json → Text
  | [] => ""
  | [item] => nested item
  | item :: items => nested item ++ ", " ++ nestedItems items

def nestedMembers : List (Text × Json) → Text
  | [] => ""
  | [(key, value)] => Quoted.encode key ++ ": " ++ nested value
  | (key, value) :: members =>
    Quoted.encode key ++ ": " ++ nested value ++ ", " ++ nestedMembers members

end

def shown : Json → Text
  | string s => s
  | value => nested value

end Json
end SeoAudit
