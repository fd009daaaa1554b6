/-!
# Parse trees

The trees of the grammar, one constructor for each rule or labelled alternative, with the parts
that the rule names. A parser that recovers from errors leaves parts `missing`, may put any tree
into any part, and leaves contexts of a rule whose alternative it could not tell.
-/

namespace MiniCheck

/-- Where a context starts, if it has a first token, and the text that it covers. -/
structure Extent where
  line? : Option Int
  text : String
  deriving DecidableEq, Repr

/-- The rules whose contexts carry no label: a written type, and rules with labelled alternatives
of which recovery could not tell the alternative. -/
inductive PlainRule where
  | type | globalDecl | statement | expression
  deriving DecidableEq, Repr

inductive ParseTree where
  | missing
  | token (text : String)
  | errorToken (text : String)
  | program (extent : Extent) (decls : List ParseTree)
  | globalVar (extent : Extent) (decl : ParseTree)
  | globalFunc (extent : Extent) (decl : ParseTree)
  | varDecl (extent : Extent) (const type name init : ParseTree)
  | funcDecl (extent : Extent) (type name params body : ParseTree)
  | paramList (extent : Extent) (params children : List ParseTree)
  | param (extent : Extent) (type name : ParseTree) (children : List ParseTree)
  | block (extent : Extent) (statements : List ParseTree)
  | localVar (extent : Extent) (decl : ParseTree)
  | assignStmt (extent : Extent) (assignment : ParseTree)
  | ifElse (extent : Extent) (cond : ParseTree) (blocks : List ParseTree)
  | forLoop (extent : Extent) (init cond update body : ParseTree)
  | whileLoop (extent : Extent) (cond body : ParseTree)
  | ret (extent : Extent) (value : ParseTree)
  | callStmt (extent : Extent) (call : ParseTree)
  | blockStmt (extent : Extent) (block : ParseTree)
  | exprStmt (extent : Extent) (expr : ParseTree)
  | assignment (extent : Extent) (name op value : ParseTree)
  | call (extent : Extent) (name args : ParseTree)
  | argList (extent : Extent) (args children : List ParseTree)
  | negation (extent : Extent) (inner : ParseTree)
  | binary (extent : Extent) (left op right : ParseTree)
  | atomExpr (extent : Extent) (atom : ParseTree)
  | atom (extent : Extent) (call name int float string bool inner : ParseTree)
  | plain (extent : Extent) (rule : PlainRule) (children : List ParseTree)
  deriving Repr

namespace ParseTree

def isMissing : ParseTree → Bool
  | missing => true
  | _ => false

def extent? : ParseTree → Option Extent
  | missing | token _ | errorToken _ => none
  | program e _ | globalVar e _ | globalFunc e _ | varDecl e _ _ _ _ | funcDecl e _ _ _ _
  | paramList e _ _ | param e _ _ _ | block e _ | localVar e _ | assignStmt e _ | ifElse e _ _
  | forLoop e _ _ _ _ | whileLoop e _ _ | ret e _ | callStmt e _ | blockStmt e _ | exprStmt e _
  | assignment e _ _ _ | call e _ _ | argList e _ _ | negation e _ | binary e _ _ _
  | atomExpr e _ | atom e _ _ _ _ _ _ _ | plain e _ _ => some e

/-- The text of a tree, if there is a tree. -/
def text? : ParseTree → Option String
  | missing => none
  | token s | errorToken s => some s
  | t => t.extent?.map Extent.text

/-- The name that a context holds, as written. -/
def nameText? : ParseTree → Option String
  | varDecl _ _ _ name _ | funcDecl _ _ name _ _ | param _ _ name _ | assignment _ name _ _
  | call _ name _ | atom _ _ name _ _ _ _ _ => name.text?
  | _ => none

/-- The type that a context holds, as written. -/
def typeText? : ParseTree → Option String
  | varDecl _ _ type _ _ | funcDecl _ type _ _ _ | param _ type _ _ => type.text?
  | _ => none

end ParseTree

/-- The line of a context; it is 0 where the context has no first token. -/
def Extent.line (e : Extent) : Int := e.line?.getD 0

def ParseTree.line (t : ParseTree) : Int := (t.extent?.map Extent.line).getD 0

end MiniCheck
