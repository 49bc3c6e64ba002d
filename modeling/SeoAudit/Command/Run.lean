import SeoAudit.Audit
import SeoAudit.Command.Arguments
import SeoAudit.Report.Json

/-! The command: it audits a project and prints the report. Log lines go to the error
output and, on request, to a file. With continuous integration the exit code tells
whether the score falls below the configured threshold. -/
namespace SeoAudit

/-- What the command is run in: files, working directory, the home directories of users,
the variable that marks continuous integration, the engine for scripts, the reader of
configurations, the encoding of the standard output, and the moment that log lines show. The
user without a name is the one who runs the command. -/
structure Surroundings where
  tree : Tree
  directory : Path
  home : (user : Text) → Option Path
  ci : Option Text
  engine : Engine
  yaml : Yaml.Reader
  terminal : Encoding
  stamp : Text

structure Outcome where
  exit : Nat
  output : Text := []
  errors : Text := []
  /-- The log file with the lines added to it. -/
  log : Option (Path × List Text) := none

inductive Fault where
  | logFile (error : Tree.ReadError)
  | logUnnamed
  | noHome
  | badPath (error : PathError)
  | config (error : ConfigError)
  | audit (fault : Audit.Fault)
  | unprintable (error : EncodingError)

def Fault.message : Fault → Text
  | logFile e => e.message
  | logUnnamed => "expected str, bytes or os.PathLike object, not list"
  | noHome => "Could not determine home directory."
  | badPath e => e.message
  | config e => e.message
  | audit fault => fault.message
  | unprintable e => e.message

structure Place where
  path : Path
  given : Text

namespace Surroundings

def plainPlace (s : Surroundings) (text : Text) : Place :=
  let path := s.directory.join text
  if Path.isAbsoluteText text then ⟨path, path.text⟩
  else ⟨path, Path.relativeText (Path.parts text)⟩

/-- The place that a path text names; one that starts with a tilde starts at the home
directory of the user behind it. -/
def place (s : Surroundings) (text : Text) : Except Fault Place :=
  match Path.isAbsoluteText text, Path.parts text with
  | false, (.char '~' :: user) :: rest =>
    match Path.fault? user, s.home user with
    | some e, _ => .error (.badPath e)
    | none, none => .error .noHome
    | none, some home =>
      let path := home.below rest
      .ok ⟨path, path.text⟩
  | _, _ => .ok (s.plainPlace text)

end Surroundings

inductive Command where
  | usage
  | help
  | finished (outcome : Outcome)
  | broken (fault : Fault)

namespace Command

def openError? (tree : Tree) (file : Path) : Option Tree.ReadError :=
  match tree.lookup file with
  | .ok (.directory _) => some (.isDirectory file.text)
  | .ok (.file _) => none
  | .error .missing =>
    match tree.lookup file.parent with
    | .ok _ => none
    | .error e => some (.ofLookup file e)
  | .error e => some (.ofLookup file e)

def oldLog (tree : Tree) (file : Path) : List UInt8 :=
  match tree.lookup file with
  | .ok (.file content) => content
  | _ => []

/-- The tree with lines added to a log file; lines with lone halves are left out. -/
def withLogLines (tree : Tree) (file : Path) (lines : List Text) : Tree :=
  let content := oldLog tree file ++ (lines.filterMap Text.chars?).flatMap Utf8.encode
  Tree.place (.file content) file.segments tree

def isBelowThreshold (ci : Option Text) (config : Config) (report : Report) : Bool :=
  match ci with
  | none | some [] => false
  | some _ => decide (report.percentage < config.failUnder)

def exitCode (ci : Option Text) (config : Config) (report : Report) : Nat :=
  if isBelowThreshold ci config report then 1 else 0

def printed (json : Bool) (report : Report) : Text :=
  if json then report.jsonText ++ "\n" else report.text

def failure (message : Text) : Outcome :=
  { exit := 1, errors := "seocheck failed: " ++ message ++ "\n" }

/-- The outcome of an audit that was carried out, unless its report cannot be printed. The
error output takes any text. -/
def outcomeOf (s : Surroundings) (arguments : Arguments) (config : Config) (audit : Audit) :
    Except Fault Outcome :=
  let output := printed arguments.json audit.report
  match s.terminal.fault? output with
  | some e => .error (.unprintable e)
  | none =>
    let records := audit.log.filter (LogRecord.isShown arguments.verbose)
    .ok {
      exit := exitCode s.ci config audit.report
      output
      errors := records.flatMap LogRecord.terminalLine }

def logLines (s : Surroundings) (arguments : Arguments) (log : List LogRecord) : List Text :=
  (log.filter (LogRecord.isShown arguments.verbose)).map fun r => s.stamp ++ " " ++ r.fileLine

def filesOf (s : Surroundings) (arguments : Arguments) : Option Path → Files
  | none => .still s.tree
  | some file => fun log => withLogLines s.tree file (logLines s arguments log)

def root (s : Surroundings) (arguments : Arguments) : Except Fault Path := do
  let place ← s.place arguments.path
  (place.path.resolvedAs place.given).mapError .badPath

def configPlace (s : Surroundings) (arguments : Arguments) (root : Path) : Except Fault Place :=
  match arguments.config with
  | none => .ok ⟨root, root.text⟩
  | some text => s.place text

def logFile? (s : Surroundings) (arguments : Arguments) : Except Fault (Option Path) :=
  match arguments.log with
  | none => .ok none
  | some .unnamed => .error .logUnnamed
  | some (.file text) => .ok (some (s.directory.join text).normal)

def audited (s : Surroundings) (arguments : Arguments) (files : Files) (root : Path)
    (config : Config) : Except Fault (Outcome × List LogRecord) :=
  match Audit.run files s.engine root config
      (if arguments.noEvaluation then some false else none) with
  | .ok audit => (outcomeOf s arguments config audit).map (·, audit.log)
  | .error (.layout .noPagesDirectory) => .ok (failure Layout.Fault.noPagesDirectory.message, [])
  | .error fault => .error (.audit fault)

def configured (s : Surroundings) (arguments : Arguments) (files : Files) :
    Except Fault (Outcome × List LogRecord) := do
  let root ← root s arguments
  let place ← configPlace s arguments root
  match Config.loadAs s.yaml (files []) place.given place.path with
  | .ok config => audited s arguments files root config
  | .error e => if e.isReported then pure (failure e.message, []) else throw (.config e)

def withArguments (s : Surroundings) (arguments : Arguments) : Except Fault Outcome := do
  let file? ← logFile? s arguments
  if let some e := file?.bind (openError? s.tree) then throw (.logFile e)
  let (outcome, log) ← configured s arguments (filesOf s arguments file?)
  pure { outcome with log := file?.map (·, logLines s arguments log) }

def firstPlaces (s : Surroundings) (arguments : Arguments) : List Path :=
  let config := do configPlace s arguments (← root s arguments)
  (config.toOption.toList.flatMap fun place => Config.places place.path) ++
  ((logFile? s arguments).toOption.join.toList.flatMap fun file => [file.parent, file])

def config? (s : Surroundings) (arguments : Arguments) : Option Config := do
  let root ← (root s arguments).toOption
  let place ← (configPlace s arguments root).toOption
  let config ← (Config.loadAs s.yaml s.tree place.given place.path).toOption
  pure { config with root }

/-- The command with the given command line. -/
def run (s : Surroundings) (line : List Text) : Command :=
  match Arguments.read line with
  | none => usage
  | some arguments =>
    if arguments.help then help
    else match withArguments s arguments with
      | .ok outcome => finished outcome
      | .error fault => broken fault

end Command
end SeoAudit
