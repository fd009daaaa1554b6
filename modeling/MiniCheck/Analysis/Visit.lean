import MiniCheck.Analysis.Check

/-!
# The analysis of a program

One visit in depth-first order. `fn` is the function around the visited node, if there is one. The
result of a visit is the type of the node as a value.
-/

namespace MiniCheck

open Pass

mutual

def visit (fn : Option FunctionId) : Node → Pass Ty
  | .missing => pure .unknown
  | .program _ decls => do
      let _ ← visitAll none decls
      return .void
  | .block _ statements => inScope do
      let _ ← visitAll fn statements
      return .void
  | .varDecl line name typeText isConst init initText =>
      Check.variableDecl fn line name typeText isConst init initText (visit fn init)
  | .funcDecl line name returnText params body =>
      Check.functionDecl line name returnText params fun id => visitBody (some id) body
  | .assign line name _ value => Check.assignment line name (visit fn value)
  | .ifElse line cond thenBranch elseBranch => do
      updateEnclosing fn (·.addControl ⟨.ifElse, line⟩)
      let _ ← visit fn cond
      let _ ← visit fn thenBranch
      let _ ← visit fn elseBranch
      return .void
  | .forLoop line init cond step body => do
      updateEnclosing fn (·.addControl ⟨.forLoop, line⟩)
      let _ ← visit fn init
      let _ ← visit fn cond
      let _ ← visit fn step
      let _ ← visit fn body
      return .void
  | .whileLoop line cond body => do
      updateEnclosing fn (·.addControl ⟨.whileLoop, line⟩)
      let _ ← visit fn cond
      let _ ← visit fn body
      return .void
  | .ret line value => Check.returning fn line value (visit fn value)
  | .exprStmt _ expr => do
      let _ ← visit fn expr
      return .void
  | .callStmt _ call => do
      let _ ← visit fn call
      return .void
  | .call line name args => Check.functionCall fn line name (visitAll fn args)
  | .literal _ kind _ => pure (Ty.ofLiteralKind kind)
  | .identifier line name => Check.identifierUse line name
  | .paren _ inner => visit fn inner
  | .negation _ inner => do
      let _ ← visit fn inner
      return .bool
  | .binary _ op left right => do
      let l ← visit fn left
      let r ← visit fn right
      return if isArithmetic op then l.join r else .bool
  | .param p => fail (.unknownNode (Node.kindName (.param p)))
  | .unclassified line => fail (.unknownNode (Node.kindName (.unclassified line)))

/-- Visits a list of nodes in order. -/
def visitAll (fn : Option FunctionId) : List Node → Pass (List Ty)
  | [] => pure []
  | n :: ns => do
      let type ← visit fn n
      let types ← visitAll fn ns
      return type :: types

/-- The body of a function. It opens no scope of its own. -/
def visitBody (fn : Option FunctionId) : Node → Pass Unit
  | .missing => pure ()
  | .block _ statements => do
      let _ ← visitAll fn statements
  | node => fail (.notBlock node.kindName)

end

/-- The analysis of a whole program over a table. -/
def analyze (program : Node) : Pass Unit := do
  let _ ← visit none program

/-- Every program needs a main function. -/
def missingMain (t : Table) : Option Finding :=
  if t.registry.contains mainName then none else some ⟨none, .mainMissing⟩

end MiniCheck
