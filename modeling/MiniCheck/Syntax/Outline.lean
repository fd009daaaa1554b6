import MiniCheck.Syntax.Node

/-!
# The drawing of a tree

A syntax tree is drawn as an outline of labels, one line for each node in preorder. A line starts
with three characters for each level below the root: a bar where an ancestor has a later sibling,
blanks where it has none. A connector follows, and it is the closing one at a last child.
-/

namespace MiniCheck

inductive Outline where
  | node (label : String) (children : List Outline)
  deriving Repr

namespace Outline

def connector (last : Bool) : String := if last then "└─ " else "├─ "

def margin (last : Bool) : String := if last then "   " else "│  "

mutual

/-- The lines of a subtree whose lines all start with `lead`. -/
def lines (lead : String) (last : Bool) : Outline → List String
  | node label children =>
      (lead ++ connector last ++ label) :: linesOfAll (lead ++ margin last) children

def linesOfAll (lead : String) : List Outline → List String
  | [] => []
  | t :: ts => t.lines lead ts.isEmpty ++ linesOfAll lead ts

end

end Outline

/-- A written type name, or the word for an absent one. -/
def typeLabel (typeText : Option String) : String := typeText.getD "None"

/-- A written type name, or `default` when nothing is written. -/
def typeLabelOr (default : String) : Option String → String
  | none => default
  | some s => if s.isEmpty then default else s

namespace Param

def signature (p : Param) : String := typeLabel p.typeText ++ " " ++ p.name

def outline (p : Param) : Outline := .node ("Param " ++ p.signature) []

end Param

namespace Node

mutual

/-- The outline of a node. Nothing is drawn for a missing one. -/
def outline : Node → List Outline
  | missing => []
  | program _ decls => [.node "Program" (outlines decls)]
  | block _ statements => [.node "Block" (outlines statements)]
  | varDecl _ name typeText isConst init _ =>
      let const := if isConst then "const " else ""
      [.node ("VarDecl " ++ const ++ typeLabelOr "?" typeText ++ " " ++ name) init.outline]
  | param p => [p.outline]
  | funcDecl _ name returnText params body =>
      let signature := ", ".intercalate (params.map Param.signature)
      [.node ("FuncDecl " ++ typeLabelOr "void" returnText ++ " " ++ name ++ "(" ++ signature ++ ")")
        (params.map Param.outline ++ body.outline)]
  | assign _ name op value => [.node ("Assign " ++ name ++ " '" ++ op ++ "'") value.outline]
  | ifElse _ cond thenBranch elseBranch =>
      [.node "IfStmt" (cond.outline ++ thenBranch.outline ++ elseBranch.outline)]
  | forLoop _ init cond update body =>
      [.node "ForStmt" (init.outline ++ cond.outline ++ update.outline ++ body.outline)]
  | whileLoop _ cond body => [.node "WhileStmt" (cond.outline ++ body.outline)]
  | ret _ value => [.node "ReturnStmt" value.outline]
  | exprStmt _ expr => [.node "ExprStmt" expr.outline]
  | callStmt _ inner => [.node "CallStmt" inner.outline]
  | call _ name args => [.node ("Call " ++ name ++ "()") (outlines args)]
  | literal _ kind text => [.node ("Literal " ++ kind ++ " " ++ text) []]
  | identifier _ name => [.node ("Identifier " ++ name) []]
  | paren _ inner => [.node "Paren" inner.outline]
  | negation _ inner => [.node "NotOp '!'" inner.outline]
  | binary _ op left right => [.node ("BinaryOp '" ++ op ++ "'") (left.outline ++ right.outline)]
  | unclassified _ => [.node "ASTNode" []]

def outlines : List Node → List Outline
  | [] => []
  | n :: ns => n.outline ++ outlines ns

end

def draw (n : Node) : String := "\n".intercalate (Outline.linesOfAll "" n.outline)

end Node

end MiniCheck
