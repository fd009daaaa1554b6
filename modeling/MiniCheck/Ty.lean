import MiniCheck.Text.Blank

/-!
# Types

The six written types, and two sentinels: `unknown` for what cannot be typed and `error` for what
has been reported already. A sentinel is never the cause of a further finding.
-/

namespace MiniCheck

inductive Ty where
  | int | float | double | string | bool | void | unknown | error
  deriving DecidableEq, Repr

namespace Ty

def name : Ty → String
  | int => "Int"
  | float => "Float"
  | double => "Double"
  | string => "String"
  | bool => "Bool"
  | void => "Void"
  | unknown => "Unknown"
  | error => "Error"

def all : List Ty := [int, float, double, string, bool, void, unknown, error]

def ofName? (s : String) : Option Ty := all.find? (·.name == s)

def ofKeyword : String → Ty
  | "int" => int
  | "float" => float
  | "double" => double
  | "string" => string
  | "void" => void
  | "bool" => bool
  | _ => unknown

/-- The type that a written type name stands for. Blanks around the keyword do not matter. -/
def ofText : Option String → Ty
  | none => unknown
  | some s => ofKeyword (Text.trimBlanks s)

/-- The result type of a function: a function without a written type returns nothing. -/
def ofReturnText : Option String → Ty
  | none => void
  | some s => if s.isEmpty then void else ofText (some s)

def ofLiteralKind : String → Ty
  | "int" => int
  | "float" => float
  | "string" => string
  | "bool" => bool
  | _ => unknown

def isSentinel : Ty → Bool
  | unknown | error => true
  | _ => false

/-- `widensTo s t`: a value of type `s` may be stored as the larger number type `t`. -/
def widensTo : Ty → Ty → Bool
  | int, float | int, double | float, double => true
  | _, _ => false

/-- Whether a value of type `source` may be stored where `target` is expected. -/
def accepts (target source : Ty) : Bool :=
  target.isSentinel || source.isSentinel || target == source || source.widensTo target

theorem accepts_unknown (target : Ty) : target.accepts unknown = true := by
  simp [accepts, isSentinel]

/-- The result type of an arithmetic operation. -/
def join (a b : Ty) : Ty :=
  if a.isSentinel || b.isSentinel then unknown
  else if a == string || b == string then string
  else if a == double || b == double then double
  else if a == float || b == float then float
  else int

theorem join_unknown (a : Ty) : a.join unknown = unknown := by
  simp [join, isSentinel]

theorem unknown_join (a : Ty) : join unknown a = unknown := by
  simp [join, isSentinel]

end Ty

end MiniCheck
