import MiniCheck.Ty

/-!
# Records of variables and functions
-/

namespace MiniCheck

structure Variable where
  name : String
  type : Ty
  line : Int
  isConst : Bool
  /-- The text of the initializer, kept for listings only. -/
  initText : Option String
  deriving DecidableEq, Repr

inductive ControlKind where
  | ifElse | forLoop | whileLoop
  deriving DecidableEq, Repr

/-- A control structure in the body of a function. -/
structure Control where
  kind : ControlKind
  line : Int
  deriving DecidableEq, Repr

structure Function where
  name : String
  type : Ty
  line : Int
  parameters : List Variable
  locals : List Variable
  controls : List Control
  hasReturn : Bool
  isRecursive : Bool
  deriving DecidableEq, Repr

def mainName : String := "main"

def ControlKind.keyword : ControlKind → String
  | ifElse => "if...else"
  | forLoop => "for"
  | whileLoop => "while"

def Control.text (c : Control) : String := c.kind.keyword ++ ", line " ++ toString c.line

namespace Function

/-- A function of which only the head is known. -/
def declared (name : String) (type : Ty) (line : Int) (parameters : List Variable) : Function where
  name := name
  type := type
  line := line
  parameters := parameters
  locals := []
  controls := []
  hasReturn := false
  isRecursive := false

def isMain (f : Function) : Bool := f.name == mainName

def addParameter (v : Variable) (f : Function) : Function :=
  { f with parameters := f.parameters ++ [v] }

def addLocal (v : Variable) (f : Function) : Function := { f with locals := f.locals ++ [v] }

def addControl (c : Control) (f : Function) : Function := { f with controls := f.controls ++ [c] }

def markReturn (f : Function) : Function := { f with hasReturn := true }

def markRecursive (f : Function) : Function := { f with isRecursive := true }

end Function

end MiniCheck
