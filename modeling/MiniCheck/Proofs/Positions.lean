import MiniCheck.Proofs.Parts

/-!
# Positions in a program

A position is the path of child numbers from the root. A name means there what the text says: the
first declaration of the innermost scope around the position that has one.
-/

namespace MiniCheck

open Pass

namespace Node

/-- The parts of a node. The statements of a body belong to the function. -/
def children : Node → List Node
  | program _ decls => decls
  | block _ statements => statements
  | varDecl _ _ _ _ init _ => [init]
  | funcDecl _ _ _ _ body => body.statements
  | assign _ _ _ value => [value]
  | ifElse _ cond thenBranch elseBranch => [cond, thenBranch, elseBranch]
  | forLoop _ init cond update body => [init, cond, update, body]
  | whileLoop _ cond body => [cond, body]
  | ret _ value => [value]
  | exprStmt _ e | callStmt _ e | paren _ e | negation _ e => [e]
  | call _ _ args => args
  | binary _ _ left right => [left, right]
  | _ => []

def node? (n : Node) : List Nat → Option Node
  | [] => some n
  | i :: path => n.children[i]?.bind fun c => c.node? path

end Node

/-- A record without what was noted in the body. -/
def Function.head (f : Function) : Function := .declared f.name f.type f.line f.parameters

/-- What a name can mean: a variable or parameter, or a function with its head. -/
inductive Declaration where
  | variable (v : Variable)
  | function (head : Function)

def Declaration.name : Declaration → String
  | .variable v => v.name
  | .function head => head.name

def Param.declaration (p : Param) : Declaration := .variable p.variable

namespace Node

def function? : Node → Option Declaration
  | funcDecl line name returnText params _ =>
      some (.function (.declared name (Ty.ofReturnText returnText) line (params.map Param.variable)))
  | _ => none

def declaration? (n : Node) : Option Declaration :=
  match n.declared? with
  | some v => some (.variable v)
  | none => n.function?

end Node

/-- The declarations of one scope in the order of the text, with those that are rejected. -/
abbrev Frame := List Declaration

/-- The scopes around a position, the innermost first. -/
abbrev Env := List Frame

namespace Env

/-- The first declaration of the name in the innermost scope that has one. -/
def find? (E : Env) (name : String) : Option Declaration :=
  E.findSome? fun frame => frame.find? (·.name == name)

/-- The scopes around child `i` of `n`. Declarations before the child are known there, and a
function is known inside of itself. -/
def inside (E : Env) (n : Node) (i : Nat) : Env :=
  match n with
  | .program _ decls =>
      ((decls.take i).filterMap Node.declaration? ++ (decls[i]?.bind Node.function?).toList) :: E
  | .block _ statements => (statements.take i).filterMap Node.declaration? :: E
  | .funcDecl _ _ _ params body =>
      (params.map Param.declaration ++ (body.statements.take i).filterMap Node.declaration?) :: E
  | _ => E

/-- The scopes around the position `path` under `n`. -/
def at? (E : Env) (n : Node) : List Nat → Option Env
  | [] => some E
  | i :: path => n.children[i]?.bind fun c => at? (E.inside n i) c path

end Env

/-- The declaration that a name means at the position `path` under `n`. -/
def Env.meaning? (E : Env) (n : Node) (path : List Nat) (name : String) : Option Declaration :=
  (E.at? n path).bind (·.find? name)

section

open Node

/-- The names of the functions among the nodes. -/
def functionNames (ns : List Node) : List String :=
  (ns.filterMap Node.function?).map Declaration.name

theorem functionNames_cons (d : Node) (ds : List Node) :
    functionNames (d :: ds) = functionNames [d] ++ functionNames ds := by
  rw [functionNames, ← List.singleton_append, List.filterMap_append, List.map_append]
  rfl

theorem functionNames_append (ds es : List Node) :
    functionNames (ds ++ es) = functionNames ds ++ functionNames es := by
  rw [functionNames, List.filterMap_append, List.map_append]
  rfl

theorem mem_functionNames_funcDecl {line : Int} {function name : String}
    {returnText : Option String} {params : List Param} {body : Node} :
    name ∈ functionNames [.funcDecl line function returnText params body] ↔ function = name := by
  simp [functionNames, Node.function?, Declaration.name, Function.declared, eq_comm]

/-- A declaration registers the function that it declares, and nothing else. -/
theorem contains_registry_decl {d : Node} {t u : Table} {fs : List Finding} {type : Ty}
    (hd : d.IsDecl) (hr : (visit none d).Returns t u fs type) (name : String) :
    u.registry.contains name = true ↔
      t.registry.contains name = true ∨ name ∈ functionNames [d] := by
  cases hd with
  | varDecl hi =>
    obtain ⟨b, rfl⟩ := hr.of_stmt (.varDecl hi)
    rw [Table.registry_collect, Table.registry_declaring]
    simp [functionNames, Node.function?]
  | @funcDecl line function returnText params body hs hb =>
    rw [mem_functionNames_funcDecl]
    cases hc : t.registry.contains function with
    | true =>
      obtain ⟨rfl, -⟩ := hr.of_funcDecl_taken hc
      exact ⟨.inl, fun h => h.elim id fun hn => hn ▸ hc⟩
    | false =>
      obtain ⟨gs, b, -, rfl, -⟩ := hr.of_funcDecl hs hb hc
      rw [Table.registry_declare, NameMap.contains, NameMap.find?_insert]
      by_cases hn : function = name
      · subst hn
        simp [functionRecord, Function.collect, Function.declared]
      · simp [functionRecord, Function.collect, Function.declared, Ne.symm hn, hn,
          NameMap.contains]

theorem contains_registry_decls {t u : Table} {fs : List Finding} {ds : List Node}
    {types : List Ty} (hd : ∀ d ∈ ds, d.IsDecl)
    (hr : (visitAll none ds).Returns t u fs types) (name : String) :
    u.registry.contains name = true ↔
      t.registry.contains name = true ∨ name ∈ functionNames ds := by
  induction ds generalizing t fs types with
  | nil =>
    obtain ⟨rfl, -⟩ := hr.of_visitAll_nil
    simp [functionNames]
  | cons d ds ih =>
    obtain ⟨v, f₁, got, f₂, rest, h₁, h₂, -⟩ := hr.of_visitAll_cons
    rw [ih (fun e he => hd e (by simp [he])) h₂, contains_registry_decl (hd d (by simp)) h₁,
      functionNames_cons d ds, List.mem_append, or_assoc]

end

end MiniCheck
