import MiniCheck.Syntax.Node

/-!
# Grammatical trees

The trees that the grammar can produce, with parts that may be missing. The predicates are decided
by functions over the tree.
-/

namespace MiniCheck

namespace Node

/-- An expression, or nothing. -/
inductive IsExpr : Node → Prop
  | missing : IsExpr .missing
  | literal {line kind text} : IsExpr (.literal line kind text)
  | identifier {line name} : IsExpr (.identifier line name)
  | paren {line inner} : IsExpr inner → IsExpr (.paren line inner)
  | negation {line inner} : IsExpr inner → IsExpr (.negation line inner)
  | binary {line op left right} : IsExpr left → IsExpr right → IsExpr (.binary line op left right)
  | call {line name args} : (∀ a ∈ args, IsExpr a) → IsExpr (.call line name args)

/-- What may stand as a branch, as the body of a loop or as the body of a function. -/
def isBody : Node → Bool
  | missing | block .. => true
  | _ => false

/-- What may stand before and after the condition of a counting loop. -/
def isUpdate : Node → Bool
  | missing | assign .. => true
  | _ => false

inductive IsStmt : Node → Prop
  | expr {e} : IsExpr e → IsStmt e
  | varDecl {line name typeText isConst init initText} :
      IsExpr init → IsStmt (.varDecl line name typeText isConst init initText)
  | assign {line name op value} : IsExpr value → IsStmt (.assign line name op value)
  | ifElse {line cond thenBranch elseBranch} :
      IsExpr cond → IsStmt thenBranch → thenBranch.isBody → IsStmt elseBranch →
      elseBranch.isBody → IsStmt (.ifElse line cond thenBranch elseBranch)
  | forLoop {line init cond update body} :
      IsStmt init → init.isUpdate → IsExpr cond → IsStmt update → update.isUpdate →
      IsStmt body → body.isBody → IsStmt (.forLoop line init cond update body)
  | whileLoop {line cond body} :
      IsExpr cond → IsStmt body → body.isBody → IsStmt (.whileLoop line cond body)
  | ret {line value} : IsExpr value → IsStmt (.ret line value)
  | exprStmt {line expr} : IsExpr expr → IsStmt (.exprStmt line expr)
  | callStmt {line call} : IsExpr call → IsStmt (.callStmt line call)
  | block {line statements} : (∀ s ∈ statements, IsStmt s) → IsStmt (.block line statements)

/-- A declaration at the top of a program. -/
inductive IsDecl : Node → Prop
  | varDecl {line name typeText isConst init initText} :
      IsExpr init → IsDecl (.varDecl line name typeText isConst init initText)
  | funcDecl {line name returnText params body} :
      IsStmt body → body.isBody → IsDecl (.funcDecl line name returnText params body)

inductive IsProgram : Node → Prop
  | program {line decls} : (∀ d ∈ decls, IsDecl d) → IsProgram (.program line decls)

mutual

def isExpr : Node → Bool
  | missing | literal .. | identifier .. => true
  | paren _ inner | negation _ inner => isExpr inner
  | binary _ _ left right => isExpr left && isExpr right
  | call _ _ args => areExprs args
  | _ => false

def areExprs : List Node → Bool
  | [] => true
  | e :: es => isExpr e && areExprs es

end

mutual

def isStmt : Node → Bool
  | varDecl _ _ _ _ init _ => init.isExpr
  | assign _ _ _ value => value.isExpr
  | ifElse _ cond a b => cond.isExpr && isStmt a && a.isBody && isStmt b && b.isBody
  | forLoop _ init cond update body =>
      isStmt init && init.isUpdate && cond.isExpr && isStmt update && update.isUpdate &&
        isStmt body && body.isBody
  | whileLoop _ cond body => cond.isExpr && isStmt body && body.isBody
  | ret _ value => value.isExpr
  | exprStmt _ e | callStmt _ e => e.isExpr
  | block _ statements => areStmts statements
  | e => e.isExpr

def areStmts : List Node → Bool
  | [] => true
  | s :: ss => isStmt s && areStmts ss

end

def isDecl : Node → Bool
  | varDecl _ _ _ _ init _ => init.isExpr
  | funcDecl _ _ _ _ body => body.isStmt && body.isBody
  | _ => false

def isProgram : Node → Bool
  | program _ decls => decls.all isDecl
  | _ => false

mutual

theorem isExpr_iff : (e : Node) → (e.isExpr = true ↔ e.IsExpr)
  | missing => ⟨fun _ => .missing, fun _ => rfl⟩
  | literal .. => ⟨fun _ => .literal, fun _ => rfl⟩
  | identifier .. => ⟨fun _ => .identifier, fun _ => rfl⟩
  | paren _ inner => by
    rw [isExpr, isExpr_iff inner]
    exact ⟨.paren, fun | .paren h => h⟩
  | negation _ inner => by
    rw [isExpr, isExpr_iff inner]
    exact ⟨.negation, fun | .negation h => h⟩
  | binary _ _ left right => by
    rw [isExpr, Bool.and_eq_true, isExpr_iff left, isExpr_iff right]
    exact ⟨fun h => .binary h.1 h.2, fun | .binary hl hr => ⟨hl, hr⟩⟩
  | call _ _ args => by
    rw [isExpr, areExprs_iff args]
    exact ⟨.call, fun | .call h => h⟩
  | program .. | block .. | varDecl .. | param .. | funcDecl .. | assign .. | ifElse ..
  | forLoop .. | whileLoop .. | ret .. | exprStmt .. | callStmt .. | unclassified .. =>
    ⟨(nomatch ·), (nomatch ·)⟩

theorem areExprs_iff : (es : List Node) → (areExprs es = true ↔ ∀ e ∈ es, e.IsExpr)
  | [] => by simp [areExprs]
  | e :: es => by
    rw [areExprs, Bool.and_eq_true, isExpr_iff e, areExprs_iff es, List.forall_mem_cons]

end

mutual

theorem isStmt_iff : (s : Node) → (s.isStmt = true ↔ s.IsStmt)
  | varDecl .. => by
    rw [isStmt, isExpr_iff]
    exact ⟨.varDecl, fun | .varDecl h => h⟩
  | assign .. => by
    rw [isStmt, isExpr_iff]
    exact ⟨.assign, fun | .assign h => h⟩
  | ifElse _ cond a b => by
    simp only [isStmt, Bool.and_eq_true, isExpr_iff, isStmt_iff a, isStmt_iff b]
    exact ⟨fun ⟨⟨⟨⟨hc, ha⟩, hab⟩, hb⟩, hbb⟩ => .ifElse hc ha hab hb hbb,
      fun | .ifElse hc ha hab hb hbb => ⟨⟨⟨⟨hc, ha⟩, hab⟩, hb⟩, hbb⟩⟩
  | forLoop _ init cond update body => by
    simp only [isStmt, Bool.and_eq_true, isExpr_iff, isStmt_iff init, isStmt_iff update,
      isStmt_iff body]
    exact ⟨fun ⟨⟨⟨⟨⟨⟨hi, hiu⟩, hc⟩, hu⟩, huu⟩, hb⟩, hbb⟩ => .forLoop hi hiu hc hu huu hb hbb,
      fun | .forLoop hi hiu hc hu huu hb hbb => ⟨⟨⟨⟨⟨⟨hi, hiu⟩, hc⟩, hu⟩, huu⟩, hb⟩, hbb⟩⟩
  | whileLoop _ cond body => by
    simp only [isStmt, Bool.and_eq_true, isExpr_iff, isStmt_iff body]
    exact ⟨fun ⟨⟨hc, hb⟩, hbb⟩ => .whileLoop hc hb hbb,
      fun | .whileLoop hc hb hbb => ⟨⟨hc, hb⟩, hbb⟩⟩
  | ret .. => by
    rw [isStmt, isExpr_iff]
    exact ⟨.ret, fun | .ret h => h⟩
  | exprStmt .. => by
    rw [isStmt, isExpr_iff]
    exact ⟨.exprStmt, fun | .exprStmt h => h⟩
  | callStmt .. => by
    rw [isStmt, isExpr_iff]
    exact ⟨.callStmt, fun | .callStmt h => h⟩
  | block _ statements => by
    rw [isStmt, areStmts_iff statements]
    exact ⟨.block, fun | .block h => h⟩
  | missing | literal .. | identifier .. | paren .. | negation .. | binary .. | call ..
  | program .. | param .. | funcDecl .. | unclassified .. => by
    simp only [isStmt, isExpr_iff]
    exact ⟨.expr, fun | .expr h => h⟩

theorem areStmts_iff : (ss : List Node) → (areStmts ss = true ↔ ∀ s ∈ ss, s.IsStmt)
  | [] => by simp [areStmts]
  | s :: ss => by
    rw [areStmts, Bool.and_eq_true, isStmt_iff s, areStmts_iff ss, List.forall_mem_cons]

end

theorem isDecl_iff (d : Node) : d.isDecl = true ↔ d.IsDecl := by
  cases d with
  | varDecl =>
    rw [isDecl, isExpr_iff]
    exact ⟨.varDecl, fun | .varDecl h => h⟩
  | funcDecl =>
    rw [isDecl, Bool.and_eq_true, isStmt_iff]
    exact ⟨fun h => .funcDecl h.1 h.2, fun | .funcDecl hs hb => ⟨hs, hb⟩⟩
  | _ => exact ⟨(nomatch ·), (nomatch ·)⟩

private theorem isProgram_iff (P : Node) : P.isProgram = true ↔ P.IsProgram := by
  cases P with
  | program =>
    simp only [isProgram, List.all_eq_true, isDecl_iff]
    exact ⟨.program, fun | .program h => h⟩
  | _ => exact ⟨(nomatch ·), (nomatch ·)⟩

instance : DecidablePred Node.IsProgram := fun P => decidable_of_iff _ (isProgram_iff P)

end Node

end MiniCheck
