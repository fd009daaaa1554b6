import MiniCheck.Symbols.Record

/-!
# Findings

What the analysis has to say about a program. A finding names the rule that is violated; its
wording is chosen in one place, and a diagnostic is the worded form.
-/

namespace MiniCheck

inductive Violation where
  | globalRedefined (name : String)
  | localRedefined (name function : String)
  | parameterConflict (name : String)
  | initMismatch (name : String) (expected got : Ty)
  | constUninitialized (name : String)
  | functionRedefined (name : String)
  | nameOfVariable (name : String)
  | parameterRepeated (name function : String)
  | returnMissing (function : String) (type : Ty)
  | mainRecursive
  | targetUndeclared (name : String)
  | targetNotVariable (name : String)
  | constAssigned (name : String)
  | assignMismatch (name : String) (expected got : Ty)
  | returnOutside
  | returnMismatch (function : String) (expected got : Ty)
  | functionUndefined (name : String)
  | mainCalled
  | argumentCount (function : String) (expected got : Nat)
  | argumentMismatch (position : Nat) (function : String) (expected got : Ty)
  | variableUndeclared (name : String)
  | mainMissing
  deriving DecidableEq, Repr

/-- A violation and its line. Only a finding about the program as a whole has no line. -/
structure Finding where
  line : Option Int
  violation : Violation
  deriving DecidableEq, Repr

structure Diagnostic where
  line : Option Int
  message : String
  deriving DecidableEq, Repr

def Violation.message : Violation → String
  | globalRedefined name => s!"Global variable '{name}' is already defined."
  | localRedefined name function =>
      s!"Local variable '{name}' is already defined in function '{function}'."
  | parameterConflict name => s!"Local variable '{name}' conflicts with a parameter name."
  | initMismatch name expected got =>
      s!"Incompatible type in initialization of variable '{name}'. " ++
        s!"Expected {expected.name}, got {got.name}."
  | constUninitialized name => s!"Constant variable '{name}' must be initialized."
  | functionRedefined name => s!"Function '{name}' is already defined."
  | nameOfVariable name => s!"'{name}' is already defined as a global variable."
  | parameterRepeated name function =>
      s!"Parameter '{name}' is duplicated in the declaration of function '{function}'."
  | returnMissing function type =>
      s!"Function '{function}' of type {type.name} does not have a 'return' statement " ++
        "on all branches."
  | mainRecursive => s!"Function '{mainName}' cannot be recursive."
  | targetUndeclared name => s!"Variable '{name}' was not declared before use."
  | targetNotVariable name => s!"'{name}' is not a variable."
  | constAssigned name => s!"Cannot assign a new value to constant variable '{name}'."
  | assignMismatch name expected got =>
      s!"Incompatible type in assignment to '{name}'. " ++
        s!"Expected {expected.name}, got {got.name}."
  | returnOutside => "Return outside of a function."
  | returnMismatch function expected got =>
      s!"Incompatible return type in function '{function}'. " ++
        s!"Expected {expected.name}, got {got.name}."
  | functionUndefined name => s!"Function '{name}' is not defined."
  | mainCalled => s!"Function '{mainName}' cannot be called explicitly."
  | argumentCount function expected got =>
      s!"Incorrect number of arguments for '{function}'. Expected {expected}, got {got}."
  | argumentMismatch position function expected got =>
      s!"Argument {position} for '{function}' is incompatible. " ++
        s!"Expected {expected.name}, got {got.name}."
  | variableUndeclared name => s!"Variable '{name}' is not declared."
  | mainMissing => s!"Function '{mainName}' is missing."

def Finding.diagnostic (f : Finding) : Diagnostic := ⟨f.line, f.violation.message⟩

def Diagnostic.text (d : Diagnostic) : String :=
  match d.line with
  | none => d.message
  | some n => s!"[line {n}] {d.message}"

end MiniCheck
