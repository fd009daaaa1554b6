import MiniCheck.Compilation

/-!
# The log of the command

A record is shown when its level is at least the level that was asked for.
-/

namespace MiniCheck.CommandLine

inductive LogLevel where
  | notSet | debug | info | warning | error | critical
  deriving DecidableEq, Repr

structure LogRecord where
  level : LogLevel
  logger : String
  message : String
  deriving DecidableEq, Repr

namespace LogLevel

def rank : LogLevel → Nat
  | notSet => 0
  | debug => 10
  | info => 20
  | warning => 30
  | error => 40
  | critical => 50

def name : LogLevel → String
  | notSet => "NOTSET"
  | debug => "DEBUG"
  | info => "INFO"
  | warning => "WARNING"
  | error => "ERROR"
  | critical => "CRITICAL"

def ofName? : String → Option LogLevel
  | "CRITICAL" | "FATAL" => some critical
  | "ERROR" => some error
  | "WARNING" | "WARN" => some warning
  | "INFO" => some info
  | "DEBUG" => some debug
  | "NOTSET" => some notSet
  | _ => none

end LogLevel

namespace LogRecord

def text (r : LogRecord) : String := s!"{r.level.name}:{r.logger}:{r.message}\n"

def ofEvent : Event → LogRecord
  | .parsed tokens syntaxErrors =>
      ⟨.debug, "compiler", s!"parsed {tokens} tokens, {syntaxErrors} syntax errors"⟩
  | .entered function line =>
      ⟨.debug, "semantic.semantic_visitor", s!"entering function {function} at line {line}"⟩
  | .analyzed findings =>
      ⟨.debug, "semantic.semantic_visitor", s!"semantic pass finished with {findings} diagnostics"⟩

/-- The listing called `name` has been written to `path`. -/
def written (name path : String) : LogRecord := ⟨.info, "Driver", s!"{name} written to {path}"⟩

/-- The part of the log that is shown. -/
def shown (level : LogLevel) (records : List LogRecord) : String :=
  String.join ((records.filter fun r => level.rank ≤ r.level.rank).map text)

end LogRecord

end MiniCheck.CommandLine
