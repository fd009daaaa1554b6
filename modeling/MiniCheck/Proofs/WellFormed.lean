import MiniCheck.Proofs.Parts
import Mathlib.Data.List.Forall2

/-!
# Well-formed programs

When a program is well formed, said by rules over its text. A context holds what is known at a
point: the visible declarations, the names of the own scope, the functions declared so far and the
head of the function around. There are no tables and no stacks of scopes here.
-/

namespace MiniCheck

/-- What a visible name stands for. -/
inductive Meaning where
  | variable (type : Ty) (isConst : Bool)
  | function

structure Signature where
  params : List Ty
  result : Ty

def Signature.ofHead (params : List Param) (returnText : Option String) : Signature where
  params := params.map fun p => Ty.ofText p.typeText
  result := Ty.ofReturnText returnText

structure Context where
  /-- The visible declarations, the latest first. -/
  visible : List (String × Meaning)
  /-- The names that are declared in the own scope. -/
  own : List String
  functions : List (String × Signature)
  /-- The names of the parameters of the function around. -/
  params : List String
  /-- The result type of the function around. -/
  result : Ty

namespace Context

def empty : Context := ⟨[], [], [], [], .void⟩

def declare (Γ : Context) (name : String) (m : Meaning) : Context :=
  { Γ with visible := (name, m) :: Γ.visible, own := name :: Γ.own }

def nested (Γ : Context) : Context := { Γ with own := [] }

/-- A function is known from its own body on. -/
def declareFunction (Γ : Context) (name : String) (s : Signature) : Context :=
  { Γ.declare name .function with functions := (name, s) :: Γ.functions }

def declareParams (Γ : Context) (params : List Param) : Context :=
  params.foldl (fun Γ p => Γ.declare p.name (.variable (Ty.ofText p.typeText) false)) Γ

/-- The context at the start of a body. The parameters belong to the scope of the body. -/
def inFunction (Γ : Context) (params : List Param) (result : Ty) : Context :=
  { Γ.nested.declareParams params with params := params.map Param.name, result := result }

end Context

/-- What is asked about types. The rules on names are the same for every discipline. -/
structure Discipline where
  /-- A value of the second type may be stored as one of the first. -/
  stores : Ty → Ty → Prop
  /-- Arguments of the second types may be passed for parameters of the first. -/
  passes : List Ty → List Ty → Prop
  /-- A function of the type may do without a return statement, or has one. -/
  ends : Ty → Prop → Prop

namespace Discipline

/-- Nothing is asked about types. -/
def names : Discipline := ⟨fun _ _ => True, fun _ _ => True, fun _ _ => True⟩

/-- Values are accepted where they are stored, calls have an argument for every parameter, and a
function with a result has a return statement. -/
def typed : Discipline where
  stores target source := target.accepts source = true
  passes := List.Forall₂ fun p a => p.accepts a = true
  ends type returns := type = .void ∨ returns

end Discipline

/-- A return statement stands somewhere in the tree. -/
inductive HasReturn : Node → Prop
  | ret {line value} : HasReturn (.ret line value)
  | block {line statements s} : s ∈ statements → HasReturn s → HasReturn (.block line statements)
  | thenBranch {line cond a b} : HasReturn a → HasReturn (.ifElse line cond a b)
  | elseBranch {line cond a b} : HasReturn b → HasReturn (.ifElse line cond a b)
  | forBody {line init cond update body} :
      HasReturn body → HasReturn (.forLoop line init cond update body)
  | whileBody {line cond body} : HasReturn body → HasReturn (.whileLoop line cond body)

/-- The type of an expression whose names are all known. -/
inductive HasType (D : Discipline) (Γ : Context) : Node → Ty → Prop
  | missing : HasType D Γ .missing .unknown
  | literal {line kind text} : HasType D Γ (.literal line kind text) (Ty.ofLiteralKind kind)
  | variable {line name type isConst} :
      Γ.visible.lookup name = some (.variable type isConst) →
      HasType D Γ (.identifier line name) type
  | functionName {line name} :
      Γ.visible.lookup name = some .function → HasType D Γ (.identifier line name) .unknown
  | paren {line inner type} : HasType D Γ inner type → HasType D Γ (.paren line inner) type
  | negation {line inner type} : HasType D Γ inner type → HasType D Γ (.negation line inner) .bool
  | binary {line op left right l r} :
      HasType D Γ left l → HasType D Γ right r →
      HasType D Γ (.binary line op left right) (if isArithmetic op then l.join r else .bool)
  | call {line name args s types} :
      Γ.functions.lookup name = some s → name ≠ mainName →
      List.Forall₂ (HasType D Γ) args types → D.passes s.params types →
      HasType D Γ (.call line name args) s.result

/-- A variable may be declared here: its name is new in the own scope and no parameter's name, and
a constant has an initializer. -/
structure VariableOk (D : Discipline) (Γ : Context) (name : String) (declared : Ty)
    (isConst : Bool) (init : Node) : Prop where
  fresh : name ∉ Γ.own
  notParam : name ∉ Γ.params
  initialized : isConst = true → init ≠ .missing
  stored : ∃ type, HasType D Γ init type ∧ D.stores declared type

mutual

/-- A statement that declares nothing in the scope around it. -/
inductive StmtOk (D : Discipline) : Context → Node → Prop
  | expr {Γ e type} : HasType D Γ e type → StmtOk D Γ e
  | assign {Γ line name op value target type} :
      Γ.visible.lookup name = some (.variable target false) → HasType D Γ value type →
      D.stores target type → StmtOk D Γ (.assign line name op value)
  | ifElse {Γ line cond a b type} :
      HasType D Γ cond type → StmtOk D Γ a → StmtOk D Γ b → StmtOk D Γ (.ifElse line cond a b)
  | forLoop {Γ line init cond update body type} :
      StmtOk D Γ init → HasType D Γ cond type → StmtOk D Γ update → StmtOk D Γ body →
      StmtOk D Γ (.forLoop line init cond update body)
  | whileLoop {Γ line cond body type} :
      HasType D Γ cond type → StmtOk D Γ body → StmtOk D Γ (.whileLoop line cond body)
  | retNothing {Γ line} : D.stores Γ.result .void → StmtOk D Γ (.ret line .missing)
  | ret {Γ line value type} :
      value ≠ .missing → HasType D Γ value type → D.stores Γ.result type →
      StmtOk D Γ (.ret line value)
  | exprStmt {Γ line e type} : HasType D Γ e type → StmtOk D Γ (.exprStmt line e)
  | callStmt {Γ line e type} : HasType D Γ e type → StmtOk D Γ (.callStmt line e)
  | block {Γ line statements} : StmtsOk D Γ.nested statements → StmtOk D Γ (.block line statements)

/-- Statements of one scope. A declaration is known to those after it. -/
inductive StmtsOk (D : Discipline) : Context → List Node → Prop
  | nil {Γ} : StmtsOk D Γ []
  | declare {Γ line name typeText isConst init initText rest} :
      VariableOk D Γ name (Ty.ofText typeText) isConst init →
      StmtsOk D (Γ.declare name (.variable (Ty.ofText typeText) isConst)) rest →
      StmtsOk D Γ (.varDecl line name typeText isConst init initText :: rest)
  | cons {Γ s rest} : StmtOk D Γ s → StmtsOk D Γ rest → StmtsOk D Γ (s :: rest)

end

/-- The declarations of a program. Variables and functions share their names. -/
inductive DeclsOk (D : Discipline) : Context → List Node → Prop
  | nil {Γ} : DeclsOk D Γ []
  | variable {Γ line name typeText isConst init initText rest} :
      VariableOk D Γ name (Ty.ofText typeText) isConst init →
      DeclsOk D (Γ.declare name (.variable (Ty.ofText typeText) isConst)) rest →
      DeclsOk D Γ (.varDecl line name typeText isConst init initText :: rest)
  | function {Γ Γ' line name returnText params body rest} :
      name ∉ Γ.own → (params.map Param.name).Nodup →
      Γ' = Γ.declareFunction name (.ofHead params returnText) →
      StmtsOk D (Γ'.inFunction params (Ty.ofReturnText returnText)) body.statements →
      D.ends (Ty.ofReturnText returnText) (HasReturn body) → DeclsOk D Γ' rest →
      DeclsOk D Γ (.funcDecl line name returnText params body :: rest)

inductive WellFormed (D : Discipline) : Node → Prop
  | program {line decls} : DeclsOk D .empty decls → WellFormed D (.program line decls)

end MiniCheck
