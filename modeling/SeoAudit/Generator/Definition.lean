import SeoAudit.Parameters.Extract
import SeoAudit.Text.WordChar

/-! The generator's definition inside a source file. It starts at a constant or
function of the generator's name, without a leading `export`, and runs up to the
next line that begins with a declaring keyword, or to the end. -/
namespace SeoAudit
namespace Definition
open NamedField

def behindSomeBlanks : Text → Option Text
  | [] => none
  | c :: cs => if c.isBlank then some (Text.skipBlanks cs) else none

def behindWord (word : Text) (s : Text) : Option Text :=
  Text.after? word s >>= behindSomeBlanks

def behindOptional (word : Text) (s : Text) : Text := (behindWord word s).getD s

def behindExport (s : Text) : Text :=
  match behindWord "export" s with
  | some s => behindOptional "default" s
  | none => s

def behindMark (mark : Text) (s : Text) : Text := (Text.after? mark s).getD s

/-- The text behind the header of a definition: keyword, name, parameters and the
opening brace of the body. -/
def behindHeader (s : Text) : Option Text := do
  let s ← (behindWord "const" s).or (behindWord "function" s)
  let s ← Text.after? Parameters.generatorName s
  let s ← behindBlanks '(' (behindMark "=" (Text.skipBlanks s))
  let s ← behind ')' (s.dropWhile (· ≠ .char ')'))
  behindBlanks '\x7b' (behindMark "=>" (Text.skipBlanks s))

def keywords : List Text := ["export", "const", "let", "var", "function", "async"]

def startsWithKeyword (s : Text) : Bool :=
  keywords.any fun k =>
    match Text.after? k s with
    | some rest => !rest.head?.any (·.satisfies isWordChar)
    | none => false

/-- Whether a definition ends here: the text is over or a keyword opens the next line. -/
def isEnd : Text → Bool
  | [] => true
  | c :: s => c = '\n' && startsWithKeyword s

/-- The text of a definition that starts here, `export` left out. -/
def starting? (s : Text) : Option Text := do
  let start := behindExport s
  let body ← behindHeader start
  let (inside, _) ← Text.upTo (fun s => if isEnd s then some () else none) body
  pure (Text.stripEnd (start.take (start.length - body.length) ++ inside))

def find? (source : Text) : Option Text :=
  Text.findFirst starting? source

end Definition
end SeoAudit
