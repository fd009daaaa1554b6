import MiniCheck.Analysis.Pass
import MiniCheck.Syntax.ExprText

/-!
# The checks

What the analysis does at each construct that declares or uses a name. The visits of the parts of
a construct are passed in, so that every check says when its parts are visited.
-/

namespace MiniCheck.Check

open Pass

/-- Reports `v` unless a value of type `source` may be stored as `target`. -/
def expect (line : Int) (target source : Ty) (v : Violation) : Pass Unit :=
  reportIf (!target.accepts source) line v

/-- The text that is kept of an initializer: the written one, or else the one of the tree. -/
def initTextOf (init : Node) : Option String → Except Fault String
  | some text => .ok text
  | none => init.exprText

/-- The initializer of a variable; the result is its text. -/
def initializer (line : Int) (name : String) (declared : Ty) (isConst : Bool) (init : Node)
    (initText : Option String) (visitInit : Pass Ty) : Pass (Option String) :=
  if init.isMissing then do
    reportIf isConst line (.constUninitialized name)
    return none
  else do
    let got ← visitInit
    let text ← lift (initTextOf init initText)
    expect line declared got (.initMismatch name declared got)
    return some text

def redeclaration (t : Table) (around : Option Function) (line : Int) (name : String) : Pass Unit :=
  reportIf (t.resolveHere name).isSome line <|
    match around with
    | none => .globalRedefined name
    | some f => .localRedefined name f.name

/-- One finding for every parameter of the name. -/
def parameterConflicts (around : Option Function) (line : Int) (name : String) : Pass Unit :=
  match around with
  | none => pure ()
  | some f =>
      (f.parameters.filter (·.name == name)).forM fun _ => report line (.parameterConflict name)

/-- The declaration of a variable. A name that is taken keeps its first meaning, but the function
around lists the variable all the same. -/
def variableDecl (fn : Option FunctionId) (line : Int) (name : String) (typeText : Option String)
    (isConst : Bool) (init : Node) (initText : Option String) (visitInit : Pass Ty) : Pass Ty := do
  let declared := Ty.ofText typeText
  let t ← table
  let around ← enclosing fn
  redeclaration t around line name
  parameterConflicts around line name
  let text ← initializer line name declared isConst init initText visitInit
  let v : Variable := ⟨name, declared, line, isConst, text⟩
  update fun t => (t.defineVariable v).2
  updateEnclosing fn (·.addLocal v)
  return .void

/-- Enters the head of a function into the table. Where a variable holds the name it keeps it, and
only the registry learns of the function. -/
def declareFunction (f : Function) : Pass FunctionId := do
  let t ← table
  match t.defineFunction f with
  | (true, defined) =>
      update fun _ => defined
      return t.nextId
  | (false, _) =>
      report f.line (.nameOfVariable f.name)
      update (·.registerFunction f)
      return t.nextId

def declareParameter (id : FunctionId) (function : String) (p : Param) : Pass Unit := do
  let v : Variable := ⟨p.name, Ty.ofText p.typeText, p.line, false, none⟩
  let t ← table
  let (isNew, defined) := t.defineVariable v
  reportIf (!isNew) p.line (.parameterRepeated p.name function)
  update fun _ => defined.updateFunction id (·.addParameter v)

/-- What is asked of a function after its body. -/
def functionEnd (id : FunctionId) (line : Int) (name : String) (type : Ty) : Pass Unit := do
  let f ← enclosing (some id)
  reportIf (type != .void && !(f.any (·.hasReturn))) line (.returnMissing name type)
  reportIf (name == mainName && f.any (·.isRecursive)) line .mainRecursive

/-- The declaration of a function. Its parameters and the statements of its body share a scope. -/
def functionDecl (line : Int) (name : String) (returnText : Option String) (params : List Param)
    (visitBody : FunctionId → Pass Unit) : Pass Ty := do
  let type := Ty.ofReturnText returnText
  let t ← table
  if t.registry.contains name then
    report line (.functionRedefined name)
    return .error
  else
    let id ← declareFunction (.declared name type line [])
    inScope do
      params.forM (declareParameter id name)
      visitBody id
      functionEnd id line name type
    return .void

def assignment (line : Int) (name : String) (visitValue : Pass Ty) : Pass Ty := do
  let t ← table
  match t.resolve name with
  | none =>
      report line (.targetUndeclared name)
      return .error
  | some (.function _) =>
      report line (.targetNotVariable name)
      return .error
  | some (.variable v) =>
      reportIf v.isConst line (.constAssigned name)
      let got ← visitValue
      expect line v.type got (.assignMismatch name v.type got)
      return .void

/-- A return statement. The type of a return without a value is `void`. -/
def returning (fn : Option FunctionId) (line : Int) (value : Node) (visitValue : Pass Ty) :
    Pass Ty := do
  match ← enclosing fn with
  | none =>
      report line .returnOutside
      return .error
  | some f =>
      updateEnclosing fn (·.markReturn)
      let got ← if value.isMissing then pure Ty.void else visitValue
      expect line f.type got (.returnMismatch f.name f.type got)
      return .void

/-- The types of the arguments against the parameters; positions are counted from `first`. -/
def arguments (line : Int) (function : String) (first : Nat) : List (Ty × Variable) → Pass Unit
  | [] => pure ()
  | (got, p) :: rest => do
      expect line p.type got (.argumentMismatch first function p.type got)
      arguments line function (first + 1) rest

/-- The arguments of a call of `callee`. Types are compared only where their number is right. -/
def application (line : Int) (name : String) (callee : Function) (got : List Ty) : Pass Unit :=
  if got.length = callee.parameters.length then
    arguments line name 1 (got.zip callee.parameters)
  else report line (.argumentCount name callee.parameters.length got.length)

/-- A call of the main function is allowed to itself only. -/
def mainCall (line : Int) (name : String) (around : Option Function) : Pass Unit :=
  reportIf (name == mainName && !(around.any (·.isMain))) line .mainCalled

def selfCall (fn : Option FunctionId) (name : String) (around : Option Function) : Pass Unit :=
  if around.any (·.name == name) then updateEnclosing fn (·.markRecursive) else pure ()

/-- A call. A function that calls itself is marked as recursive. -/
def functionCall (fn : Option FunctionId) (line : Int) (name : String)
    (visitArgs : Pass (List Ty)) : Pass Ty := do
  let t ← table
  match t.registered? name with
  | none =>
      report line (.functionUndefined name)
      let _ ← visitArgs
      return .unknown
  | some (_, callee) =>
      let around ← enclosing fn
      mainCall line name around
      selfCall fn name around
      let got ← visitArgs
      application line name callee got
      return callee.type

/-- A name used as a value. The name of a function has no type of its own. -/
def identifierUse (line : Int) (name : String) : Pass Ty := do
  let t ← table
  match t.resolve name with
  | none =>
      report line (.variableUndeclared name)
      return .unknown
  | some (.variable v) => return v.type
  | some (.function _) => return .unknown

end MiniCheck.Check
