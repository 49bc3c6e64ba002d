import SeoAudit.Text.Basic

/-! Log records and the two lines written of each: a short one for the terminal and
one with the source of the record for a file. -/
namespace SeoAudit

inductive Level where
  | debug | info | warning
deriving DecidableEq, Repr

def Level.text : Level → Text
  | .debug => "DEBUG"
  | .info => "INFO"
  | .warning => "WARNING"

inductive LogSource where
  | run | discovery | evaluation
deriving DecidableEq, Repr

def LogSource.text : LogSource → Text
  | .run => "seocheck.orchestrator"
  | .discovery => "seocheck.project"
  | .evaluation => "seocheck.sandbox"

structure LogRecord where
  level : Level
  source : LogSource
  message : Text
deriving DecidableEq, Repr

namespace LogRecord

def terminalLine (r : LogRecord) : Text := "[seocheck] " ++ r.level.text ++ " " ++ r.message ++ "\n"

def fileLine (r : LogRecord) : Text :=
  r.level.text ++ " " ++ r.source.text ++ ": " ++ r.message ++ "\n"

def isShown (verbose : Bool) (r : LogRecord) : Bool := verbose || r.level ≠ .debug

end LogRecord
end SeoAudit
