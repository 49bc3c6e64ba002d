import SeoAudit.Generator.Definition
import SeoAudit.Generator.Script
import SeoAudit.Json.Reader
import SeoAudit.Tree.Basic

/-! Running the generator. Its source file is located and read, the definition cut
out, the script handed to an engine once, and the result decoded. Everything that
can go wrong on the way is a verdict with a note, never a failure. -/
namespace SeoAudit

inductive Reply where
  | failed (kind message : Text)
  | returned (value : Json)
deriving Inhabited

/-- An engine gets a script and a time limit in milliseconds. -/
abbrev Engine := (script : Text) → (timeout : Int) → Reply

inductive ResultFault where
  | engineFailed (kind message : Text)
  | noValue
  | notText (kind : Json.Kind)
  | unreadable (error : Json.ReadError)
  | notObject (kind : Json.Kind)
deriving DecidableEq, Repr

def Json.Kind.word : Json.Kind → Text
  | .null => "NoneType"
  | .bool => "bool"
  | .whole => "int"
  | .fraction => "float"
  | .string => "str"
  | .array => "list"
  | .object => "dict"

def ResultFault.message : ResultFault → Text
  | engineFailed kind message => if message.isEmpty then kind else message
  | noValue => Parameters.generatorName ++ " returned no value"
  | notText kind => "unexpected result type " ++ kind.word
  | unreadable error => error.message
  | notObject kind =>
    Parameters.generatorName ++ " returned " ++ kind.word ++ ", expected an object"

def Reply.decode : Reply → Except ResultFault Members
  | failed kind message => .error (.engineFailed kind message)
  | returned .null => .error .noValue
  | returned (.string text) =>
    match Json.read text with
    | .error e => .error (.unreadable e)
    | .ok (.object members) => .ok members
    | .ok value => .error (.notObject value.kind)
  | returned value => .error (.notText value.kind)

def Generator.defaultCandidates : List Text :=
  ["app/utils/seo.js", "utils/seo.js", "app/utils/seo.ts", "utils/seo.ts"]

structure Generator where
  root : Path
  source : Option Path := none
  candidates : List Text := Generator.defaultCandidates
  timeout : Int := 2000
  origin : Text := "https://example.com"

namespace Generator

def trimOrigin (origin : Text) : Text :=
  Text.dropEnd (· = .char '/') origin

/-- The source file: the given one if there is one, else the first candidate that exists. -/
def locate (g : Generator) (tree : Tree) : Except PathError (Option Path) :=
  match g.source with
  | some p => Tree.firstWhere tree.isFileAt [p]
  | none => Tree.firstWhere tree.isFileAt (g.candidates.map g.root.join)

inductive Verdict where
  | output (members : Members)
  | sourceMissing
  | unreadable (name : Text) (error : Tree.ReadError)
  | undefined (name : Text)
  | failed (fault : ResultFault)

namespace Verdict

def output? : Verdict → Option Members
  | output members => some members
  | _ => none

def failure (reason : Text) : Text :=
  "Could not dynamically evaluate " ++ Parameters.generatorName ++ ": " ++ reason

def note? : Verdict → Option Text
  | output _ => none
  | sourceMissing => some "SEO utility file not found"
  | unreadable name error => some (failure ("unable to read " ++ name ++ ": " ++ error.message))
  | undefined name => some (Parameters.generatorName ++ " definition not found in " ++ name)
  | failed fault => some (failure fault.message)

def isFailure : Verdict → Bool
  | unreadable _ _ | failed _ => true
  | _ => false

end Verdict

/-- The verdict and the scripts that the engine was given on the way to it. -/
structure Evaluation where
  verdict : Verdict
  calls : List (Text × Int) := []

def definitionIn (tree : Tree) (path : Path) : Except Verdict Text :=
  match tree.readText path with
  | .error e => .error (.unreadable path.name e)
  | .ok source =>
    match Definition.find? source with
    | none => .error (.undefined path.name)
    | some definition => .ok definition

def definition (g : Generator) (tree : Tree) : Except PathError (Except Verdict Text) := do
  match ← g.locate tree with
  | none => pure (.error .sourceMissing)
  | some path => pure (definitionIn tree path)

def verdictOf (reply : Reply) : Verdict :=
  match reply.decode with
  | .ok members => .output members
  | .error fault => .failed fault

def runDefinition (g : Generator) (engine : Engine) (params : Parameters) :
    Except Verdict Text → Evaluation
  | .error verdict => { verdict }
  | .ok definition =>
    let script := Script.assemble (trimOrigin g.origin) definition params.arguments
    { verdict := verdictOf (engine script g.timeout), calls := [(script, g.timeout)] }

def evaluate (g : Generator) (tree : Tree) (engine : Engine) (params : Parameters) :
    Except PathError Evaluation :=
  (g.definition tree).map (g.runDefinition engine params)

end Generator
end SeoAudit
