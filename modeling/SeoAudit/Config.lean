import SeoAudit.Generator.Evaluation
import SeoAudit.Text.DecimalDigit
import SeoAudit.Text.Lowercase
import SeoAudit.Yaml.Value

/-! The configuration of an audit. It is read from a file in the project root; a
value that does not fit its key is passed over, and the default stands. -/
namespace SeoAudit

structure Config where
  root : Path
  pagesDir : Option Path := none
  sitemapFile : Option Path := none
  frameworkConfig : Option Path := none
  generatorFile : Option Path := none
  ignorePaths : List Text :=
    ["purchase/order", "purchase/orderLead", "purchase", "admin", "api"]
  workers : Int := 4
  evaluate : Bool := true
  timeout : Int := 2000
  origin : Text := "https://example.com"
  failUnder : Int := 50
deriving DecidableEq, Repr, Inhabited

inductive ConfigError where
  | unreadable (name : Text) (error : Tree.ReadError)
  | undecodable (error : Utf8.Error)
  | malformed (name : Text)
  | badValue (error : Yaml.Error)
  | notMapping
  | badPath (error : PathError)
  /-- A number where a text is wanted has too many digits to be written. -/
  | numberTooLong
deriving DecidableEq, Repr

namespace Config

def fileName : Text := ".seocheck.yml"

end Config

namespace ConfigError

def message : ConfigError → Text
  | unreadable name error => "Failed to read " ++ name ++ ": " ++ error.message
  | undecodable error => error.message
  | malformed name => "Failed to parse " ++ name ++ ": " ++ Yaml.Error.malformed.message
  | badValue error => error.message
  | notMapping => Config.fileName ++ " must contain a mapping at the root"
  | badPath error => error.message
  | numberTooLong => Text.tooLongToWrite

def isReported : ConfigError → Bool
  | unreadable _ _ | malformed _ | notMapping => true
  | undecodable _ | badValue _ | badPath _ | numberTooLong => false

end ConfigError

namespace Setting
open Yaml (Value)

def wholeText (n : Int) : Except ConfigError Text :=
  if (toString n.natAbs).length ≤ Text.digitLimit then .ok (toString n) else .error .numberTooLong

def text? : Value → Except ConfigError (Option Text)
  | .string s => .ok (some s)
  | .number (.whole n) => some <$> wholeText n
  | .number n => .ok (some n.text)
  | .bool b => .ok (some (if b then "True" else "False"))
  | _ => .ok none

def nonempty? (v : Value) : Except ConfigError (Option Text) := do
  match ← text? v with
  | none | some [] => pure none
  | some s => pure (some s)

def path? (root : Path) (v : Value) : Except ConfigError (Option Path) := do
  match ← nonempty? v with
  | none => pure none
  | some s => some <$> (root.join s).resolved.mapError .badPath

def whole? : Value → Option Int
  | .number (.whole n) => some n
  | .string s => Text.readWhole? s
  | _ => none

def positive? (v : Value) : Option Int :=
  match whole? v with
  | some n => if 0 < n then some n else none
  | none => none

def truth? : Value → Option Bool
  | .bool b => some b
  | .string s =>
    let word := Text.lower (Text.strip s)
    if (["true", "yes", "1"] : List Text).contains word then some true
    else if (["false", "no", "0"] : List Text).contains word then some false
    else none
  | _ => none

/-- A list of texts: one text, or the items of a sequence that are texts, numbers or
truth values; the octets of binary data count as numbers. -/
def texts : Value → Except ConfigError (List Text)
  | .string s => .ok [s]
  | .sequence items => (·.filterMap id) <$> items.mapM text?
  | .bytes octets => .ok (octets.map fun b => toString b.toNat)
  | _ => .ok []

def pairs : Value → List (Value × Value)
  | .mapping pairs => pairs
  | _ => []

end Setting

namespace Config
open Yaml (Value)

def reading {α : Type} (read : Value → Option α) (key : Text) (pairs : List (Value × Value)) :
    Option α :=
  (Value.get? key pairs).bind read

def readingM {α : Type} (read : Value → Except ConfigError (Option α)) (key : Text)
    (pairs : List (Value × Value)) : Except ConfigError (Option α) :=
  match Value.get? key pairs with
  | none => .ok none
  | some v => read v

def ofPairs (root : Path) (pairs : List (Value × Value)) : Except ConfigError Config := do
  let base : Config := { root }
  let evaluation := ((Value.get? "sandbox" pairs).map Setting.pairs).getD []
  let ci := ((Value.get? "ci" pairs).map Setting.pairs).getD []
  let pagesDir ← readingM (Setting.path? root) "pages_dir" pairs
  let sitemapFile ← readingM (Setting.path? root) "sitemap_file" pairs
  let frameworkConfig ← readingM (Setting.path? root) "framework_config" pairs
  let generatorFile ← readingM (Setting.path? root) "seo_util_file" pairs
  let ignorePaths ← readingM (fun v => some <$> Setting.texts v) "ignore_paths" pairs
  let origin ← readingM Setting.nonempty? "origin" evaluation
  pure {
    root, pagesDir, sitemapFile, frameworkConfig, generatorFile
    ignorePaths := ignorePaths.getD base.ignorePaths
    workers := (reading Setting.positive? "workers" pairs).getD base.workers
    evaluate := (reading Setting.truth? "enabled" evaluation).getD base.evaluate
    timeout := (reading Setting.positive? "timeout_ms" evaluation).getD base.timeout
    origin := (origin.map Generator.trimOrigin).getD base.origin
    failUnder := (reading Setting.whole? "fail_under" ci).getD base.failUnder }

def ofValue (root : Path) : Value → Except ConfigError Config
  | .null => ofPairs root []
  | .mapping pairs => ofPairs root pairs
  | _ => .error .notMapping

def ofText (yaml : Yaml.Reader) (root : Path) (name : Text) (text : String) :
    Except ConfigError Config :=
  if (Text.strip text).isEmpty then ofPairs root []
  else match yaml text.toList with
    | .error .malformed => .error (.malformed name)
    | .error e => .error (.badValue e)
    | .ok value => ofValue root value

/-- The file that a path stands for: the path itself, or the usual file in a directory.
The path is looked up under the text by which it is given. -/
def fileAt (tree : Tree) (given : Text) (path : Path) : Except PathError Path := do
  if ← tree.holdsAs given Tree.isDirectory path then (path.join fileName).resolved
  else path.resolvedAs given

/-- The paths that `fileAt` and `load` look at. -/
def places (path : Path) : List Path := [path, path.resolve, (path.join fileName).resolve]

def ofFile (yaml : Yaml.Reader) (tree : Tree) (file : Path) : Except ConfigError Config := do
  if ← (tree.existsAt file).mapError .badPath then
    match tree.readText file with
    | .ok text => ofText yaml file.parent file.name text
    | .error (.undecodable e) => throw (.undecodable e)
    | .error e => throw (.unreadable file.name e)
  else pure { root := file.parent }

def loadAs (yaml : Yaml.Reader) (tree : Tree) (given : Text) (path : Path) :
    Except ConfigError Config :=
  match fileAt tree given path with
  | .error e => .error (.badPath e)
  | .ok file => ofFile yaml tree file

def load (yaml : Yaml.Reader) (tree : Tree) (path : Path) : Except ConfigError Config :=
  loadAs yaml tree path.text path

end Config
end SeoAudit
