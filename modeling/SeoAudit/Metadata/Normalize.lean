import SeoAudit.Metadata.Dynamic
import SeoAudit.Metadata.Static

/-! One metadata record per page. A generator result with a list of meta entries
decides; without one the page text does. When neither yields a schema and the
page calls the generator, property names in the text stand for schemas. -/
namespace SeoAudit
namespace Metadata

def entries? (output : Members) : Option (List Json) :=
  (Table.get? "meta" output).bind Json.items?

def judged (text : Text) (params : Option Parameters) (output : Option Members)
    (declared : Bool) : Except Json.ReadError Metadata :=
  let emitted := (params.map Schema.ofParameters).getD []
  match output.bind fun o => (entries? o).map (o, ·) with
  | some (o, entries) =>
    (schemasOfOutput o emitted).map fun schemas =>
      { ofFacts .dynamic (factsOfOutput o entries) with schemas }
  | none => .ok { ofFacts .static (factsOfText text declared) with schemas := emitted }

def completed (text : Text) (params : Option Parameters) (declared : Bool) (record : Metadata) :
    Metadata :=
  { record with
    schemas := if record.schemas.isEmpty && declared then Schema.ofHints text else record.schemas
    image := params.bind (·.image) }

/-- The record of a page from its text, the parameters of its call, the result of
the generator and whether it calls the generator at all. -/
def normalize (text : Text) (params : Option Parameters) (output : Option Members)
    (declared : Bool) : Except Json.ReadError Metadata :=
  (judged text params output declared).map (completed text params declared)

end Metadata
end SeoAudit
