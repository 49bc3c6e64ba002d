import SeoAudit.Proofs.ConfigFailures
import SeoAudit.Proofs.IndentedJson
import SeoAudit.Proofs.RunFailures
import SeoAudit.Proofs.WrittenNumbers

/-! How the command ends. A configuration that cannot be used and a missing pages directory are
told on the error output. Else the report is printed, and the exit code is decided by its
percentage, the threshold of the configuration and continuous integration: neither the form
of the report nor the number of workers nor the log lines that are shown have a part in it. -/
namespace SeoAudit

namespace Arguments

structure Options where
  json : Bool := false
  noEvaluation : Bool := false
  workers : Option Int := none
  verbose : Bool := false
deriving DecidableEq, Repr

namespace Options

def line (o : Options) : List Text :=
  flag o.json "--json" ++ flag o.noEvaluation "--no-sandbox" ++ number o.workers ++
    flag o.verbose "-v"
where
  number : Option Int → List Text
    | none => []
    | some n => ["--workers", toString n]
  flag (given : Bool) (spelling : Text) : List Text := if given then [spelling] else []

def arguments (o : Options) : Arguments where
  json := o.json
  noEvaluation := o.noEvaluation
  workers := o.workers
  verbose := o.verbose

end Options

section Numbers
open Text
variable {d : CodePoint} {ds : Text}

end Numbers

def Spells (text : Text) (word : Word) : Prop := text ≠ "--" ∧ classify text = some word

namespace Options
variable (o : Options)

def words : List Word :=
  word o.json .json ++ word o.noEvaluation .noEvaluation ++ number o.workers ++
    word o.verbose .verbose
where
  number : Option Int → List Word
    | none => []
    | some n => [.option .workers none, .plain (toString n)]
  word (given : Bool) (flag : Flag) : List Word := if given then [.option flag none] else []

end Options

end Arguments

namespace Audit.Input
variable {i : Input}

end Audit.Input

namespace Encoding
variable {e : Encoding} {text : Text}

theorem fault?_eq_none_iff : e.fault? text = none ↔ e.Takes text := by
  rw [fault?, Takes, ← List.dropWhile_eq_nil_iff]
  cases text.dropWhile e.takes with
  | nil => simp only
  | cons c rest => simp only [reduceCtorEq]

end Encoding

namespace Command
variable {s : Surroundings} {line : List Text} {a : Arguments} {projectRoot : Path} {place : Place}
  {config : Config} {report : Report}

/-- A command line that asks for the audit of a project with the configuration at a place, and
for no log file. -/
structure Asks (s : Surroundings) (line : List Text) (a : Arguments) (projectRoot : Path)
    (place : Place) : Prop where
  read : Arguments.read line = some a
  noHelp : a.help = false
  noLog : a.log = none
  root : root s a = .ok projectRoot
  configPlace : configPlace s a projectRoot = .ok place

def auditInput (s : Surroundings) (a : Arguments) (projectRoot : Path) (config : Config) :
    Audit.Input where
  tree := s.tree
  engines := fun _ => s.engine
  root := projectRoot
  config := config
  enabled := if a.noEvaluation then some false else none
  workers := a.workers

theorem Asks.reaches (asks : Asks s line a projectRoot place) : Reaches s line s.tree place :=
  ⟨a, none, projectRoot, asks.read, asks.noHelp, by rw [logFile?, asks.noLog], rfl, rfl,
    asks.root, asks.configPlace⟩

theorem Asks.run_eq (asks : Asks s line a projectRoot place)
    (loaded : Config.loadAs s.yaml s.tree place.given place.path = .ok config) :
    run s line = match audited s a (.still s.tree) projectRoot config with
      | .ok (outcome, _) => .finished { outcome with log := none }
      | .error fault => .broken fault := by
  have noFile : logFile? s a = .ok none := by rw [logFile?, asks.noLog]
  have made :
      configured s a (filesOf s a none) = audited s a (.still s.tree) projectRoot config := by
    simp only [configured, asks.root, asks.configPlace, bind, Except.bind, filesOf,
      Files.still, loaded]
  rw [run, asks.read]
  simp only [asks.noHelp, Bool.false_eq_true, if_false, withArguments, noFile, bind,
    Except.bind, made]
  cases audited s a (.still s.tree) projectRoot config <;> rfl

theorem auditInput_outcome_eq (s : Surroundings) (a : Arguments) (projectRoot : Path)
    (config : Config) :
    (auditInput s a projectRoot config).outcome =
      (Audit.run (.still s.tree) s.engine projectRoot config
        (if a.noEvaluation then some false else none)).map (·.report) := by
  have alike (page : List Text) : (auditInput s a projectRoot config).engines page = s.engine := rfl
  exact (Audit.Input.Yields.iff_run alike).mp (Audit.Input.Yields.iff_outcome.mpr rfl)

theorem Asks.run_of_audit {audit : Audit} (asks : Asks s line a projectRoot place)
    (loaded : Config.loadAs s.yaml s.tree place.given place.path = .ok config)
    (ran : Audit.run (.still s.tree) s.engine projectRoot config
      (if a.noEvaluation then some false else none) = .ok audit) :
    run s line = match outcomeOf s a config audit with
      | .ok outcome => .finished { outcome with log := none }
      | .error fault => .broken fault := by
  rw [asks.run_eq loaded, audited, ran]
  dsimp only
  cases outcomeOf s a config audit <;> rfl

theorem Asks.breaks (asks : Asks s line a projectRoot place)
    (loaded : Config.loadAs s.yaml s.tree place.given place.path = .ok config)
    (made : (auditInput s a projectRoot config).outcome = .ok report) (json : a.json = false)
    (refused : ¬ s.terminal.Takes report.text) :
    ∃ e, run s line = .broken (.unprintable e) := by
  rw [auditInput_outcome_eq] at made
  obtain ⟨audit, ran, rfl⟩ := map_eq_ok_iff.mp made
  obtain ⟨e, fault⟩ := Option.ne_none_iff_exists'.mp (mt Encoding.fault?_eq_none_iff.mp refused)
  have unprinted : outcomeOf s a config audit = .error (.unprintable e) := by
    rw [outcomeOf, json, printed, if_neg Bool.false_ne_true, fault]
  exact ⟨e, by rw [asks.run_of_audit loaded ran, unprinted]⟩

def longNameSetting : List Char := "pages_dir: ".toList ++ List.replicate 256 'a'

def longNameConfig : Config where
  root := { segments := [] }
  pagesDir := some { segments := [List.replicate 256 (.char 'a')] }

def longNamedSite : Surroundings where
  tree :=
    .directory [(Config.fileName, .file (Utf8.encode longNameSetting)), ("pages", .directory [])]
  directory := { segments := [] }
  home _ := none
  ci := none
  engine _ _ := .failed "Error" "boom"
  yaml := Yaml.Value.read
  terminal := .utf8
  stamp := ""

def settingFile : Path := { segments := [Config.fileName] }

theorem longNamedSite_loads :
    Config.loadAs longNamedSite.yaml longNamedSite.tree Config.top.given Config.top.path =
      .ok longNameConfig := by
  have read : longNamedSite.tree.readText settingFile = .ok (String.ofList longNameSetting) := by
    decide +kernel
  have text : Config.ofText longNamedSite.yaml settingFile.parent settingFile.name
      (String.ofList longNameSetting) = .ok longNameConfig := by
    -- As a list of characters the text is not encoded and decoded once more.
    rw [Config.ofText, Text.ofString, String.toList_ofList]
    decide +kernel
  exact (Config.loadAs_of_readText rfl rfl read).trans text

/-- The command neither fails with a message nor prints a report there. -/
theorem longNamedSite_is_not_decided :
    ¬ ∀ (s : Surroundings) (line : List Text) (a : Arguments) (projectRoot : Path)
      (place : Place), Asks s line a projectRoot place →
      Config.IsTold (Config.loadAs s.yaml s.tree place.given place.path) →
      ∃ outcome, run s line = .finished outcome := by
  intro law
  have asks : Asks longNamedSite [] {} { segments := [] } Config.top :=
    ⟨rfl, rfl, rfl, rfl, rfl⟩
  obtain ⟨outcome, ends⟩ := law _ _ _ _ _ asks (.inl ⟨_, longNamedSite_loads⟩)
  have breaks : (audited longNamedSite {} (.still longNamedSite.tree) { segments := [] }
      longNameConfig).toOption.isNone := by
    decide +kernel
  rw [asks.run_eq longNamedSite_loads] at ends
  split at ends
  · rename_i finished
    rw [finished] at breaks
    cases breaks
  · cases ends

end Command
end SeoAudit
