import MiniCheck.Fault
import MiniCheck.Parse.Tree
import MiniCheck.Syntax.Node

/-!
# Syntax trees from parse trees

Contexts that only wrap another one give the node of what they wrap. A part that recovery lost
gives a missing node, a token gives none, and an unlabelled context gives what its last child
gives. Missing nodes are left out of the lists of declarations and statements.
-/

namespace MiniCheck.Node

/-- A parameter, read off any context that holds a name and a type. -/
def paramOfTree (t : ParseTree) : Except Fault Param :=
  if t.isMissing then .error .paramMissing
  else .ok ⟨t.line, t.nameText?.getD "", t.typeText?⟩

def paramsOfTree : ParseTree → Except Fault (List Param)
  | .missing => .ok []
  | .paramList _ params _ => params.mapM paramOfTree
  | _ => .error .listMissing

/-- The body of a function: an empty block where it has none. -/
def bodyOr (line : Int) (body : Node) : Node := if body.isMissing then .block line [] else body

def present (nodes : List Node) : List Node := nodes.filter (!·.isMissing)

/-- A literal or a name: the first part that is there decides. -/
def atomOf (line : Int) (name int float string bool : ParseTree) : Option Node :=
  match name.text?, int.text?, float.text?, string.text?, bool.text? with
  | some s, _, _, _, _ => some (.identifier line s)
  | _, some s, _, _, _ => some (.literal line "int" s)
  | _, _, some s, _, _ => some (.literal line "float" s)
  | _, _, _, some s, _ => some (.literal line "string" s)
  | _, _, _, _, some s => some (.literal line "bool" s)
  | _, _, _, _, _ => none

mutual

def ofPart : ParseTree → Except Fault Node
  | .missing | .token _ | .errorToken _ => .ok .missing
  | .program e decls => return .program e.line (present (← ofParts decls))
  | .globalVar _ decl => ofPart decl
  | .globalFunc _ decl => ofPart decl
  | .varDecl e const type name init => do
      return .varDecl e.line (name.text?.getD "") type.text? (!const.isMissing) (← ofPart init)
        init.text?
  | .funcDecl e type name params body => do
      let params ← paramsOfTree params
      let body ← ofPart body
      return .funcDecl e.line (name.text?.getD "") type.text? params (bodyOr e.line body)
  | .paramList _ _ children => ofLast children
  | .param _ _ _ children => ofLast children
  | .block e statements => return .block e.line (present (← ofParts statements))
  | .localVar _ decl => ofPart decl
  | .assignStmt _ assignment => ofPart assignment
  | .ifElse e cond blocks => do
      let cond ← ofPart cond
      let (thenBranch, elseBranch) ← ofBranches blocks
      return .ifElse e.line cond thenBranch elseBranch
  | .forLoop e init cond step body => do
      let init ← ofPart init
      let cond ← ofPart cond
      let step ← ofPart step
      let body ← ofPart body
      return .forLoop e.line init cond step body
  | .whileLoop e cond body => do
      let cond ← ofPart cond
      let body ← ofPart body
      return .whileLoop e.line cond body
  | .ret e value => return .ret e.line (← ofPart value)
  | .callStmt e inner => return .callStmt e.line (← ofPart inner)
  | .blockStmt _ inner => ofPart inner
  | .exprStmt e expr => return .exprStmt e.line (← ofPart expr)
  | .assignment e name op value => do
      return .assign e.line (name.text?.getD "") (op.text?.getD "=") (← ofPart value)
  | .call e name args => return .call e.line (name.text?.getD "") (← ofArgs args)
  | .argList _ _ children => ofLast children
  | .negation e inner => return .negation e.line (← ofPart inner)
  | .binary e left op right => do
      let left ← ofPart left
      let right ← ofPart right
      return .binary e.line (op.text?.getD "") left right
  | .atomExpr _ atom => ofPart atom
  | .atom e callee name int float string bool inner =>
      if !callee.isMissing then ofPart callee
      else
        match atomOf e.line name int float string bool with
        | some node => .ok node
        | none => if inner.isMissing then .ok .missing else return .paren e.line (← ofPart inner)
  | .plain _ _ children => ofLast children

/-- The nodes of the trees of a list, none of which may be missing. -/
def ofParts : List ParseTree → Except Fault (List Node)
  | [] => .ok []
  | t :: ts =>
      if t.isMissing then .error .treeMissing
      else do
        let node ← ofPart t
        let nodes ← ofParts ts
        return node :: nodes

/-- The node of the last tree of a list. All of them are built. -/
def ofLast : List ParseTree → Except Fault Node
  | [] => .ok .missing
  | t :: ts =>
      if t.isMissing then .error .treeMissing
      else do
        let node ← ofPart t
        if ts.isEmpty then return node else ofLast ts

/-- The two branches of a conditional; blocks after the second are not looked at. -/
def ofBranches : List ParseTree → Except Fault (Node × Node)
  | [] => .ok (.missing, .missing)
  | t :: ts =>
      if t.isMissing then .error .treeMissing
      else do
        let thenBranch ← ofPart t
        let elseBranch ← ofElse ts
        return (thenBranch, elseBranch)

/-- The other branch is the first of the blocks that are left, if there is one. -/
def ofElse : List ParseTree → Except Fault Node
  | [] => .ok .missing
  | t :: _ => if t.isMissing then .error .treeMissing else ofPart t

def ofArgs : ParseTree → Except Fault (List Node)
  | .missing => .ok []
  | .argList _ args _ => ofParts args
  | _ => .error .listMissing

end

/-- The syntax tree of a parse tree. There has to be a tree at the root. -/
def ofTree (t : ParseTree) : Except Fault Node :=
  if t.isMissing then .error .treeMissing else ofPart t

end MiniCheck.Node
