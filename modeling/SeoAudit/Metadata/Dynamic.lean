import SeoAudit.Json.Reader
import SeoAudit.Json.Shown
import SeoAudit.Metadata.Basic

/-! Metadata taken from the generator's result: an object with a list of meta
entries, links and an embedded script that holds a graph of typed items. -/
namespace SeoAudit
namespace Metadata

def contentOf (entry : Members) : Text :=
  match Table.get? "content" entry with
  | none | some .null => []
  | some value => value.shown

def hasText (key text : Text) (entry : Members) : Bool :=
  match Table.get? key entry with
  | some (.string s) => s == text
  | _ => false

def entryNamed? (key : Text) (entries : List Members) : Option Members :=
  entries.find? fun entry => hasText "name" key entry || hasText "hid" key entry

def tagOf? (key start : Text) (entry : Members) : Option Text := do
  let text ← (Table.get? key entry).bind Json.string?
  Text.after? start text

def tagsOf (key start : Text) (entries : List Members) : Table Bool :=
  Table.ofList ((entries.filterMap (tagOf? key start)).map (·, true))

def ogImageOf (entries : List Members) : Option Text :=
  match (entries.filter fun e => tagOf? "property" "og:" e = some ↑"image").getLast? with
  | none => none
  | some entry => if (contentOf entry).isEmpty then none else some (contentOf entry)

def hasCanonical (output : Members) : Bool :=
  match Table.get? "link" output with
  | some (.array links) => links.any fun link => link.members?.any (hasText "rel" "canonical")
  | _ => false

def factsOfOutput (output : Members) (entries : List Json) : Facts :=
  let entries := entries.filterMap Json.members?
  { title := (entryNamed? "title" entries).map contentOf
    description := (entryNamed? "description" entries).map contentOf
    ogTags := tagsOf "property" "og:" entries
    twitterTags := tagsOf "name" "twitter:" entries
    canonical := hasCanonical output
    ogImage := ogImageOf entries }

/-- The content of the first script, when it is there and not empty. -/
def scriptPayload? (output : Members) : Option Json :=
  match Table.get? "script" output with
  | some (.array (.object first :: _)) =>
    (Table.get? "innerHTML" first).bind fun payload =>
      if payload.isPresent then some payload else none
  | _ => none

def schemaOfType (item : Members) (name : Text) : Schema :=
  match Table.get? "mainEntity" item with
  | some (.array entities) =>
    if name = "FAQPage" then { name, count := some entities.length, unit := some "FAQs" }
    else .ofName name
  | _ => .ofName name

def schemasOfItem (item : Json) : List Schema :=
  match item with
  | .object members =>
    match Table.get? "@type" members with
    | none => []
    | some type =>
      if type.isPresent then
        (type.items?.getD [type]).map fun name => schemaOfType members name.shown
      else []
  | _ => []

def schemasOfGraph (graph : Json) : List Schema :=
  match graph with
  | .object members =>
    match Table.get? "@graph" members with
    | some (.array items) => items.flatMap schemasOfItem
    | _ => []
  | _ => []

/-- The types of the embedded graph. A result without a payload or with one that is no
JSON text gets `fallback`; a payload that is nested too deep is a fault. -/
def schemasOfOutput (output : Members) (fallback : List Schema) :
    Except Json.ReadError (List Schema) :=
  match scriptPayload? output with
  | none => .ok fallback
  | some (.string text) =>
    match Json.read text with
    | .ok graph => .ok (schemasOfGraph graph)
    | .error (.tooDeep kind) => .error (.tooDeep kind)
    | .error _ => .ok fallback
  | some graph => .ok (schemasOfGraph graph)

end Metadata
end SeoAudit
