import SeoAudit.Text.Base64
import SeoAudit.Yaml.Node
import SeoAudit.Yaml.Scalar
import SeoAudit.Yaml.Timestamp
import SeoAudit.Yaml.Value

/-! Reading YAML documents. Every node gets a type: the one its tag names, the one
its plain text has, or text, sequence or mapping. A node whose tag names no known type,
or one that the node is not of, makes the document malformed. -/
namespace SeoAudit.Yaml

inductive Tag where
  | null | bool | whole | fraction | string | bytes | timestamp
  | sequence | mapping | set | pairs | merge | default
deriving DecidableEq

namespace Tag

def names : List (String × Tag) :=
  [("null", null), ("bool", bool), ("int", whole), ("float", fraction), ("str", string),
    ("binary", bytes), ("timestamp", timestamp), ("seq", sequence), ("map", mapping),
    ("set", set), ("omap", pairs), ("pairs", pairs), ("merge", merge), ("value", default)].map
    fun (name, tag) => ("tag:yaml.org,2002:" ++ name, tag)

def withoutLineFeed (text : Text) : Text :=
  if 1 < text.length && text.getLast? = some (.char '\n') then text.dropLast else text

/-- The type of the text of a plain scalar; a line feed at its end counts for nothing.
A lone indicator of a tag, an anchor or an alias has none. -/
def ofPlain (text : Text) : Option Tag :=
  let word := withoutLineFeed text
  if (Scalar.truths ++ Scalar.untruths).contains word then some bool
  else if Scalar.isFraction word then some fraction
  else if Scalar.isWhole word then some whole
  else if word = "<<" then some merge
  else if Scalar.nulls.contains word then some null
  else if Timestamp.isPlain word then some timestamp
  else if word = "=" then some default
  else if (["!", "&", "*"] : List Text).contains word then none
  else some string

def ofNode : Node → Option Tag
  | .scalar (some tag) _ _ | .sequence (some tag) _ | .mapping (some tag) _ => names.lookup tag
  | .scalar none text isPlain => if isPlain then ofPlain text else some string
  | .sequence none _ => some sequence
  | .mapping none _ => some mapping
  | .reference _ node => ofNode node

def isCollection : Tag → Bool
  | sequence | mapping | set | pairs => true
  | _ => false

end Tag

namespace Value

def isKey : Value → Bool
  | sequence _ | mapping _ | set _ => false
  | _ => true

def ofText (tag : Tag) (text : Text) : Except Error Value :=
  match tag with
  | .null => .ok null
  | .bool => bool <$> Scalar.truth text
  | .whole => (fun n => number (.whole n)) <$> Scalar.whole text
  | .fraction => (fun x => number (.fraction x)) <$> Scalar.fraction text
  | .string => .ok (string text)
  | .bytes =>
    if text.all (·.code < 128) then
      match Base64.decode? text with
      | some octets => .ok (bytes octets)
      | none => .error .malformed
    else .error .malformed
  | .timestamp =>
    match Timestamp.ofText? (Tag.withoutLineFeed text) with
    | some t => t.check.map fun _ => timestamp
    | none => .error .notTimestamp
  | _ => .error .malformed

/-- The pairs of a mapping with the merged ones in front. Every key `<<` is taken out
and the pairs of the mappings it names are put in. -/
def merged : (fuel : Nat) → List (Node × Node) → Except Error (List (Node × Node))
  | 0, _ => .error .malformed
  | fuel + 1, pairs => do
    let isMerge (pair : Node × Node) : Bool := Tag.ofNode pair.1 = some .merge
    let taken ← (pairs.filter isMerge).mapM fun (_, value) =>
      match value.bare with
      | .mapping _ inner => merged fuel inner
      | .sequence _ items => do
        let parts ← items.mapM fun item =>
          match item.bare with
          | .mapping _ inner => merged fuel inner
          | _ => .error .malformed
        pure parts.reverse.flatten
      | _ => .error .malformed
    pure (taken.flatten ++ pairs.filter (!isMerge ·))

def keyNode (key : Node) : Node :=
  if Tag.ofNode key = some .default then key.asText else key

mutual

def textOf : Node → Option Text
  | .scalar _ text _ => some text
  | .sequence _ _ => none
  | .mapping _ pairs => defaultText pairs
  | .reference _ node => textOf node

def defaultText : List (Node × Node) → Option Text
  | [] => none
  | (key, value) :: pairs =>
    if Tag.ofNode key = some .default then textOf value else defaultText pairs

end

/-- A fault below a node, with the number of collections around it. Of several faults
the outermost counts, and of equally deep ones the first. -/
structure Fault where
  depth : Nat
  error : Error
deriving DecidableEq, Repr

namespace Fault

def here {α : Type} (result : Except Error α) : Except Fault α :=
  result.mapError fun e => ⟨0, e⟩

def malformed {α : Type} : Except Fault α := .error ⟨0, .malformed⟩

def inside {α : Type} (result : Except Fault α) : Except Fault α :=
  result.mapError fun f => { f with depth := f.depth + 1 }

def both {α β : Type} : Except Fault α → Except Fault β → Except Fault (α × β)
  | .ok a, .ok b => .ok (a, b)
  | .ok _, .error f => .error f
  | .error f, .ok _ => .error f
  | .error f, .error g => .error (if g.depth < f.depth then g else f)

def asKey : Except Fault Value → Except Fault Value
  | .ok value => if value.isKey then .ok value else malformed
  | .error f => if f.depth = 0 then .error f else malformed

end Fault

/-- The values of anchors, so that each is made once and not for every reference. -/
abbrev Named := List (String × Except Fault Value)

open Value.Fault in
mutual

def ofNode (named : Named) : (fuel : Nat) → Node → Except Fault Value
  | 0, _ => malformed
  | fuel + 1, .reference name node => (named.lookup name).getD (ofNode named fuel node)
  | fuel + 1, node =>
    match Tag.ofNode node, node with
    | some .mapping, .mapping _ pairs => mapping <$> inside (ofMapping named fuel pairs)
    | some .set, .mapping _ pairs =>
      (fun values => set (values.map (·.1))) <$> inside (ofMapping named fuel pairs)
    | some .sequence, .sequence _ items => sequence <$> inside (ofItems named fuel items)
    | some .pairs, .sequence _ items => sequence <$> inside (ofEntries named fuel items)
    | some tag, node =>
      if tag.isCollection then inside malformed
      else match textOf node, node with
        | none, _ => malformed
        | some text, .scalar _ _ _ => here (ofText tag text)
        | some text, _ =>
          if tag = .timestamp then here (.error .notText) else here (ofText tag text)
    | none, _ => malformed

def ofItems (named : Named) : (fuel : Nat) → List Node → Except Fault (List Value)
  | 0, _ => malformed
  | _ + 1, [] => .ok []
  | fuel + 1, item :: items =>
    (fun (value, values) => value :: values) <$> both (ofNode named fuel item)
      (ofItems named fuel items)

def ofMapping (named : Named) :
    (fuel : Nat) → List (Node × Node) → Except Fault (List (Value × Value))
  | 0, _ => malformed
  | fuel + 1, pairs => here (merged (fuel + 1) pairs) >>= ofPairs named fuel

def ofPairs (named : Named) :
    (fuel : Nat) → List (Node × Node) → Except Fault (List (Value × Value))
  | 0, _ => malformed
  | _ + 1, [] => .ok []
  | fuel + 1, (key, value) :: pairs =>
    (fun (pair, values) => pair :: values) <$>
      both (both (asKey (ofNode named fuel (keyNode key))) (ofNode named fuel value))
        (ofPairs named fuel pairs)

def ofEntries (named : Named) : (fuel : Nat) → List Node → Except Fault (List Value)
  | 0, _ => malformed
  | _ + 1, [] => .ok []
  | fuel + 1, item :: items =>
    match item.bare with
    | .mapping _ [(key, value)] =>
      (fun ((key, value), values) => sequence [key, value] :: values) <$>
        both (both (ofNode named fuel key) (ofNode named fuel value)) (ofEntries named fuel items)
    | _ => malformed

end

def ofAnchors (fuel : Nat) : Anchors → Named
  | [] => []
  | (name, node) :: earlier =>
    let named := ofAnchors fuel earlier
    (name, ofNode named fuel node) :: named

def read : Reader := fun text => do
  let document ← Document.ofTokens (Token.ofText text)
  let fuel := 4 * text.length + 16
  match document.node with
  | none => pure null
  | some node => (ofNode (ofAnchors fuel document.anchors) fuel node).mapError (·.error)

end Value
end SeoAudit.Yaml
