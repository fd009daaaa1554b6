import MiniCheck.Proofs.Recovery

/-!
# Whole parse trees

What a parser leaves of a text without errors: every part that the grammar asks for is there, and
the alternative of every context is known. Parts that the grammar leaves open may be absent.
-/

namespace MiniCheck

/-- The contexts of the rule stand for nodes. -/
def Rule.givesNode : Rule → Bool
  | .globalDecl | .varDecl | .funcDecl | .block | .statement | .assignment | .call | .expression
  | .atom => true
  | _ => false

namespace ParseTree

/-- The tree is a context of the rule, and whole. -/
inductive Whole : Rule → ParseTree → Prop
  | token {text} : Whole .terminal (.token text)
  | type {e text} : Whole .type (.plain e .type [.token text])
  | globalVar {e decl} : Whole .varDecl decl → Whole .globalDecl (.globalVar e decl)
  | globalFunc {e decl} : Whole .funcDecl decl → Whole .globalDecl (.globalFunc e decl)
  | varDecl {e const type name init} :
      (const.isMissing = false → Whole .terminal const) → Whole .type type → Whole .terminal name →
      (init.isMissing = false → Whole .expression init) →
      Whole .varDecl (.varDecl e const type name init)
  | funcDecl {e type name params body} :
      (type.isMissing = false → Whole .type type) → Whole .terminal name →
      (params.isMissing = false → Whole .params params) → Whole .block body →
      Whole .funcDecl (.funcDecl e type name params body)
  | paramList {e params children} :
      (∀ p ∈ params, Whole .param p) → Whole .params (.paramList e params children)
  | param {e type name children} :
      Whole .type type → Whole .terminal name → Whole .param (.param e type name children)
  | block {e statements} :
      (∀ s ∈ statements, Whole .statement s) → Whole .block (.block e statements)
  | localVar {e decl} : Whole .varDecl decl → Whole .statement (.localVar e decl)
  | assignStmt {e assignment} :
      Whole .assignment assignment → Whole .statement (.assignStmt e assignment)
  | ifThen {e cond thenBlock} :
      Whole .expression cond → Whole .block thenBlock →
      Whole .statement (.ifElse e cond [thenBlock])
  | ifElse {e cond thenBlock elseBlock} :
      Whole .expression cond → Whole .block thenBlock → Whole .block elseBlock →
      Whole .statement (.ifElse e cond [thenBlock, elseBlock])
  | forLoop {e init cond update body} :
      (init.isMissing = false → Whole .assignment init) →
      (cond.isMissing = false → Whole .expression cond) →
      (update.isMissing = false → Whole .assignment update) → Whole .block body →
      Whole .statement (.forLoop e init cond update body)
  | whileLoop {e cond body} :
      Whole .expression cond → Whole .block body → Whole .statement (.whileLoop e cond body)
  | ret {e value} :
      (value.isMissing = false → Whole .expression value) → Whole .statement (.ret e value)
  | callStmt {e call} : Whole .call call → Whole .statement (.callStmt e call)
  | blockStmt {e block} : Whole .block block → Whole .statement (.blockStmt e block)
  | exprStmt {e expr} : Whole .expression expr → Whole .statement (.exprStmt e expr)
  | assignment {e name op value} :
      Whole .terminal name → Whole .terminal op →
      (value.isMissing = false → Whole .expression value) →
      Whole .assignment (.assignment e name op value)
  | call {e name args} :
      Whole .terminal name → (args.isMissing = false → Whole .args args) →
      Whole .call (.call e name args)
  | argList {e args children} :
      (∀ a ∈ args, Whole .expression a) → Whole .args (.argList e args children)
  | negation {e inner} : Whole .expression inner → Whole .expression (.negation e inner)
  | binary {e left op right} :
      Whole .expression left → Whole .terminal op → Whole .expression right →
      Whole .expression (.binary e left op right)
  | atomExpr {e atom} : Whole .atom atom → Whole .expression (.atomExpr e atom)
  | atomCall {e callee} :
      Whole .call callee →
      Whole .atom (.atom e callee .missing .missing .missing .missing .missing .missing)
  | atomName {e text} :
      Whole .atom (.atom e .missing (.token text) .missing .missing .missing .missing .missing)
  | atomInt {e text} :
      Whole .atom (.atom e .missing .missing (.token text) .missing .missing .missing .missing)
  | atomFloat {e text} :
      Whole .atom (.atom e .missing .missing .missing (.token text) .missing .missing .missing)
  | atomString {e text} :
      Whole .atom (.atom e .missing .missing .missing .missing (.token text) .missing .missing)
  | atomBool {e text} :
      Whole .atom (.atom e .missing .missing .missing .missing .missing (.token text) .missing)
  | atomParen {e inner} :
      Whole .expression inner →
      Whole .atom (.atom e .missing .missing .missing .missing .missing .missing inner)

/-- A whole tree at the root: a program, or a context that stands for a node. Types, and lists of
parameters and of arguments, are read off by the contexts around them. -/
inductive IsWhole : ParseTree → Prop
  | program {e decls} : (∀ d ∈ decls, Whole .globalDecl d) → IsWhole (.program e decls)
  | part {rule t} : rule.givesNode = true → Whole rule t → IsWhole t

private theorem eq_missing_of_isMissing {t : ParseTree} (h : t.isMissing = true) :
    t = .missing := by
  cases t <;> simp [isMissing] at h ⊢

namespace Whole

theorem isMissing_eq {rule : Rule} {t : ParseTree} (h : t.Whole rule) : t.isMissing = false := by
  cases h <;> rfl

theorem optional {P : ParseTree → Prop} {t : ParseTree} (hm : P .missing)
    (h : t.isMissing = false → P t) : P t := by
  cases ht : t.isMissing with
  | true => rw [eq_missing_of_isMissing ht]; exact hm
  | false => exact h ht

end Whole

end ParseTree

open ParseTree Node

/-- The tree is there, and its node is `n`. -/
def GivesNode (t : ParseTree) (n : Node) : Prop := t.isMissing = false ∧ ofPart t = .ok n

theorem ofParts_of_givesNode {ts : List ParseTree} {ns : List Node}
    (h : List.Forall₂ GivesNode ts ns) : ofParts ts = .ok ns := by
  induction h with
  | nil => rfl
  | @cons t n ts ns hn _ ih =>
    rw [ofParts, if_neg (by simp [hn.1]), bind_ok hn.2, bind_ok ih]
    rfl

namespace GivesNode

variable {e : Extent}

theorem negation {inner : ParseTree} {n : Node} (h : GivesNode inner n) :
    GivesNode (.negation e inner) (.negation e.line n) :=
  ⟨rfl, bind_ok h.2 _⟩

theorem binary {left right : ParseTree} {l r : Node} (op : String) (hl : GivesNode left l)
    (hr : GivesNode right r) :
    GivesNode (.binary e left (.token op) right) (.binary e.line op l r) :=
  ⟨rfl, (bind_ok hl.2 _).trans (bind_ok hr.2 _)⟩

theorem call {args : ParseTree} {ns : List Node} (name : String) (h : ofArgs args = .ok ns) :
    GivesNode (.call e (.token name) args) (.call e.line name ns) :=
  ⟨rfl, bind_ok h _⟩

theorem atomCall {callee : ParseTree} {n : Node} (h : GivesNode callee n) :
    GivesNode (.atom e callee .missing .missing .missing .missing .missing .missing) n :=
  ⟨rfl, (if_pos (by simp [h.1])).trans h.2⟩

theorem atomParen {inner : ParseTree} {n : Node} (h : GivesNode inner n) :
    GivesNode (.atom e .missing .missing .missing .missing .missing .missing inner)
      (.paren e.line n) := by
  have hbuilt : (if inner.isMissing then .ok .missing else return .paren e.line (← ofPart inner)) =
      Except.ok (Node.paren e.line n) := (if_neg (by simp [h.1])).trans (bind_ok h.2 _)
  exact ⟨rfl, hbuilt⟩

end GivesNode

end MiniCheck
