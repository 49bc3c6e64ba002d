import SeoAudit.Parameters.Basic
import SeoAudit.Text.NamedField

/-! Reading parameters off the page text. A call is the generator's name, blanks,
a parenthesis, blanks and a brace; its block runs to the first closing brace with
only blanks between it and a closing parenthesis. Each field is looked for in the
block on its own, at the first place where it is written out in full. -/
namespace SeoAudit
namespace Parameters
open NamedField

def generatorName : Text := "generateSEO"

/-- The text behind the end of a call: a closing brace, blanks, a closing parenthesis. -/
def callEnd (s : Text) : Option Text := behind '\x7d' s >>= behindBlanks ')'

def call : Recogniser Text := fun s => do
  let s ← Text.after? generatorName s
  let s ← behindBlanks '(' s
  let s ← behindBlanks '\x7b' s
  Text.upTo callEnd s

def callBlock? (text : Text) : Option Text := (Text.findFirst call text).map (·.1)

def text? (name : Text) (block : Text) : Option Text :=
  (Text.findFirst (text name) block).map (·.1)

def content? (name : Text) (opening closing : CodePoint) (block : Text) : Option Text :=
  (Text.findFirst (fun s => start name s >>= enclosed opening closing) block).map (·.1)

/-- The size of a collection with the given content: its opening braces, or 1
when it has none. -/
def sizeOf (content : Text) : Int :=
  match content.count (.char '\x7b') with
  | 0 => 1
  | n => n

def collection? (block : Text) (name : Text) : Option (Text × Int) :=
  match content? name '[' ']' block with
  | some (c :: cs) => some (name, sizeOf (c :: cs))
  | _ => none

def isSet (block : Text) (name : Text) : Bool :=
  match content? name '\x7b' '\x7d' block with
  | some (_ :: _) => true
  | _ => false

def ofBlock (block : Text) : Parameters where
  title := text? "title" block
  description := text? "description" block
  image := text? "image" block
  collections := collectionNames.filterMap (collection? block)
  flags := flagNames.filter (isSet block)

def ofText? (text : Text) : Option Parameters := (callBlock? text).map ofBlock

end Parameters
end SeoAudit
