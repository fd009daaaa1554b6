/-!
# Syntax trees

One type for every piece of a program. The parser recovers from errors, so any kind of node may
stand in any place, and `missing` stands where nothing was written or where recovery lost it.
-/

namespace MiniCheck

structure Param where
  line : Int
  name : String
  typeText : Option String
  deriving DecidableEq, Repr

inductive Node where
  | missing
  | program (line : Int) (decls : List Node)
  | block (line : Int) (statements : List Node)
  | varDecl (line : Int) (name : String) (typeText : Option String) (isConst : Bool)
      (init : Node) (initText : Option String)
  | param (p : Param)
  | funcDecl (line : Int) (name : String) (returnText : Option String) (params : List Param)
      (body : Node)
  | assign (line : Int) (name op : String) (value : Node)
  | ifElse (line : Int) (cond thenBranch elseBranch : Node)
  | forLoop (line : Int) (init cond update body : Node)
  | whileLoop (line : Int) (cond body : Node)
  | ret (line : Int) (value : Node)
  | exprStmt (line : Int) (expr : Node)
  | callStmt (line : Int) (call : Node)
  | call (line : Int) (name : String) (args : List Node)
  | literal (line : Int) (kind text : String)
  | identifier (line : Int) (name : String)
  | paren (line : Int) (inner : Node)
  | negation (line : Int) (inner : Node)
  | binary (line : Int) (op : String) (left right : Node)
  /-- A node of no known kind. -/
  | unclassified (line : Int)
  deriving Repr

namespace Node

def isMissing : Node → Bool
  | missing => true
  | _ => false

theorem eq_missing_of_isMissing {n : Node} (h : n.isMissing = true) : n = missing := by
  cases n <;> simp [isMissing] at h ⊢

def kindName : Node → String
  | missing => "Missing"
  | program .. => "Program"
  | block .. => "Block"
  | varDecl .. => "VarDecl"
  | param .. => "Param"
  | funcDecl .. => "FuncDecl"
  | assign .. => "Assign"
  | ifElse .. => "IfStmt"
  | forLoop .. => "ForStmt"
  | whileLoop .. => "WhileStmt"
  | ret .. => "ReturnStmt"
  | exprStmt .. => "ExprStmt"
  | callStmt .. => "CallStmt"
  | call .. => "Call"
  | literal .. => "Literal"
  | identifier .. => "Identifier"
  | paren .. => "Paren"
  | negation .. => "NotOp"
  | binary .. => "BinaryOp"
  | unclassified .. => "ASTNode"

end Node

/-- The operators whose result is a number or a text; all others give a truth value. -/
def isArithmetic (op : String) : Bool :=
  op == "+" || op == "-" || op == "*" || op == "/" || op == "%"

end MiniCheck
