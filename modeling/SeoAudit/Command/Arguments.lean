import SeoAudit.Text.DecimalDigit
import SeoAudit.Text.Search

/-! Arguments of the command. A long option may be shortened while it stays the only
one, takes its value behind an equal sign or as the next argument, and short options
may be joined. One argument that is no option is the project's path; two dashes end
the options, and as a value they stand for no value. -/
namespace SeoAudit

inductive LogTarget where
  | file (text : Text)
  | unnamed
deriving DecidableEq, Repr

structure Arguments where
  path : Text := "."
  config : Option Text := none
  json : Bool := false
  noEvaluation : Bool := false
  workers : Option Int := none
  log : Option LogTarget := none
  verbose : Bool := false
  help : Bool := false
deriving DecidableEq, Repr, Inhabited

namespace Arguments

inductive Flag where
  | help | config | json | noEvaluation | workers | logFile | verbose
deriving DecidableEq, Repr

def spellings : List (Text × Flag) :=
  [("-h", .help), ("--help", .help), ("--config", .config), ("--json", .json),
    ("--no-sandbox", .noEvaluation), ("--workers", .workers), ("--log-file", .logFile),
    ("-v", .verbose), ("--verbose", .verbose)]

def Flag.takesValue : Flag → Bool
  | .config | .workers | .logFile => true
  | _ => false

inductive Word where
  /-- An option with the value written behind its equal sign, if any. -/
  | option (flag : Flag) (value : Option Text)
  /-- A short option with more letters joined to it. -/
  | letters (flag : Flag) (more : Text)
  | unknown
  | plain (text : Text)
  | separator
deriving DecidableEq, Repr

def startsWith (start text : Text) : Bool := (Text.after? start text).isSome

def atEqual (text : Text) : Text × Option Text :=
  match text.dropWhile (· ≠ .char '=') with
  | [] => (text, none)
  | _ :: value => (text.takeWhile (· ≠ .char '='), some value)

def isNegativeNumber (text : Text) : Bool :=
  let isDigit (c : CodePoint) : Bool := c.digitValue?.isSome
  match text with
  | .char '-' :: rest =>
    match rest.dropWhile isDigit with
    | [] => !rest.isEmpty
    | [.char '\n'] => !(rest.takeWhile isDigit).isEmpty
    | .char '.' :: decimals =>
      let tail := decimals.dropWhile isDigit
      !(decimals.takeWhile isDigit).isEmpty && (tail.isEmpty || tail = "\n")
    | _ => false
  | _ => false

/-- The options that a text with two dashes may be short for, with its value. -/
def longMatches (text : Text) : List Word :=
  let (start, value) := atEqual text
  (spellings.filter fun (spelling, _) => startsWith start spelling).map fun (_, flag) =>
    .option flag value

def short? (letter : CodePoint) : Option Flag := spellings.lookup [.char '-', letter]

def shortMatches (text : Text) : List Word :=
  match text with
  | _ :: letter :: more => (short? letter).toList.map fun flag => .letters flag more
  | _ => []

/-- A spelling with a value behind an equal sign; behind a short option the value is
made of letters joined to it. -/
def valued (spelling : Text) (flag : Flag) (value : Text) : Word :=
  if startsWith "--" spelling || value.isEmpty then .option flag (some value)
  else .letters flag value

def classify (text : Text) : Option Word :=
  if !startsWith "-" text || text = "-" then some (.plain text)
  else match spellings.lookup text with
    | some flag => some (.option flag none)
    | none =>
      let (start, value) := atEqual text
      match value, spellings.lookup start with
      | some v, some flag => some (valued start flag v)
      | _, _ =>
        match if startsWith "--" text then longMatches text else shortMatches text with
        | [word] => some word
        | _ :: _ :: _ => none
        | [] =>
          if isNegativeNumber text || text.contains ' ' then some (.plain text)
          else some .unknown

def wordsOf : List Text → Option (List Word)
  | [] => some []
  | text :: rest =>
    if text = "--" then some (.separator :: rest.map .plain)
    else do
      let word ← classify text
      let words ← wordsOf rest
      pure (word :: words)

def set (a : Arguments) (flag : Flag) (value : Text) : Option Arguments :=
  match flag with
  | .help => some { a with help := true }
  | .config => some { a with config := given? }
  | .json => some { a with json := true }
  | .noEvaluation => some { a with noEvaluation := true }
  | .workers =>
    match given? with
    | none => some { a with workers := none }
    | some text => (Text.readWhole? text).map fun n => { a with workers := some n }
  | .logFile => some { a with log := some (given?.elim .unnamed .file) }
  | .verbose => some { a with verbose := true }
where
  given? : Option Text := if value = "--" then none else some value

/-- The state of reading: the arguments so far, whether the path has been given, and
whether something was left over that is neither an option nor the path. -/
structure Reading where
  arguments : Arguments := {}
  hasPath : Bool := false
  hasSurplus : Bool := false

namespace Reading

def setPath (r : Reading) (text : Text) : Reading :=
  if r.hasPath then { r with hasSurplus := true }
  else { r with arguments := { r.arguments with path := text }, hasPath := true }

def setFlag (r : Reading) (flag : Flag) (value : Text) : Option Reading :=
  (r.arguments.set flag value).map fun a => { r with arguments := a }

/-- Sets a short option and the ones whose letters are joined to it. All of them must
be known before any is set; behind a request for help nothing more is set. -/
def setLetters (r : Reading) (flag : Flag) (more : Text) : Option Reading := do
  let flags ← more.mapM short?
  (flag :: flags).foldlM (fun r flag => if r.arguments.help then some r else r.setFlag flag "") r

def finish (r : Reading) : Option Arguments := if r.hasSurplus then none else some r.arguments

end Reading

/-- Reads the words in order; none when they do not fit. A request for help ends the
reading at once. Two dashes right behind the path, or before it, are passed over. -/
def readWords (r : Reading) : List Word → Option Arguments
  | [] => r.finish
  | .unknown :: words => readWords { r with hasSurplus := true } words
  | .separator :: words => readWords { r with hasSurplus := r.hasSurplus || r.hasPath } words
  | .plain text :: .separator :: words => readWords (r.setPath text) words
  | .plain text :: words => readWords (r.setPath text) words
  | .letters flag more :: words => do
    let r ← r.setLetters flag more
    if r.arguments.help then pure r.arguments else readWords r words
  | .option flag none :: words =>
    if flag.takesValue then
      match words with
      | .plain text :: words => do
        let r ← r.setFlag flag text
        readWords r words
      | _ => none
    else do
      let r ← r.setFlag flag ""
      if r.arguments.help then pure r.arguments else readWords r words
  | .option flag (some value) :: words =>
    if flag.takesValue then do
      let r ← r.setFlag flag value
      readWords r words
    else none

def read (line : List Text) : Option Arguments := wordsOf line >>= readWords {}

end Arguments
end SeoAudit
