import SeoAudit.Generator.Evaluation
import SeoAudit.Metadata.Normalize
import SeoAudit.Page.Basic

/-! From the text of a page to its record. The generator is run only for a page
that calls it, puts the result into the head, and has a call that can be read. -/
namespace SeoAudit

structure Document where
  path : Text
  name : Text
  text : Text
deriving DecidableEq, Repr, Inhabited

namespace Document

def callsGenerator (d : Document) : Bool := Text.mentions d.text (Parameters.generatorName ++ "(")

def callsSeoMeta (d : Document) : Bool := Text.mentions d.text "useSeoMeta("

def callsHead (d : Document) : Bool := Text.mentions d.text "useHead("

def params? (d : Document) : Option Parameters :=
  if d.callsGenerator then Parameters.ofText? d.text else none

def requested? (d : Document) : Option Parameters := if d.callsHead then d.params? else none

def pageWith (d : Document) (output : Option Members) (note : Option Text) :
    Except Json.ReadError Page :=
  (Metadata.normalize d.text d.params? output d.callsGenerator).map fun metadata =>
    { path := d.path
      name := d.name
      callsGenerator := d.callsGenerator
      callsSeoMeta := d.callsSeoMeta
      callsHead := d.callsHead
      metadata
      headings := Headings.ofText d.text
      images := Images.ofText d.text
      params := d.params?
      note }

abbrev Evaluator := Parameters → Except PathError Generator.Evaluation

/-- The evaluation that the page asks for, if there is an evaluator. -/
def evaluation? (d : Document) (evaluator : Option Evaluator) :
    Except PathError (Option Generator.Evaluation) :=
  match evaluator, d.requested? with
  | some evaluate, some params => some <$> evaluate params
  | _, _ => .ok none

def page (d : Document) (evaluation : Option Generator.Evaluation) : Except Json.ReadError Page :=
  d.pageWith (evaluation.bind (·.verdict.output?)) (evaluation.bind (·.verdict.note?))

inductive Fault where
  | badPath (error : PathError)
  | badGraph (error : Json.ReadError)
deriving DecidableEq, Repr

def Fault.message : Fault → Text
  | badPath error => error.message
  | badGraph error => error.message

def analyze (d : Document) (evaluator : Option Evaluator) : Except Fault Page := do
  let evaluation ← (d.evaluation? evaluator).mapError .badPath
  (d.page evaluation).mapError .badGraph

end Document
end SeoAudit
