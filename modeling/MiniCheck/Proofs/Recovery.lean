import MiniCheck.Compilation
import MiniCheck.Proofs.Lists
import MiniCheck.Proofs.Positions

/-!
# Recovered parse trees

A parser that recovers from errors may lose any part of a context, and it leaves contexts whose
alternative it could not tell. What is left still belongs to the rules of the grammar: in every part
stands a context of a rule that may stand there. A grammatical program is built from such a tree,
and nothing stops its compilation.
-/

namespace MiniCheck

/-- What the grammar has in a part of a context. -/
inductive Rule where
  | terminal | varDecl | funcDecl | params | param | block | assignment | call | args | atom
  | plain (rule : PlainRule)
  /-- A child of a context whose alternative is not known. -/
  | childOf (rule : PlainRule)

namespace Rule

@[match_pattern] abbrev type : Rule := plain .type

@[match_pattern] abbrev globalDecl : Rule := plain .globalDecl

@[match_pattern] abbrev statement : Rule := plain .statement

@[match_pattern] abbrev expression : Rule := plain .expression

end Rule

/-- What the alternatives of a rule refer to. -/
def PlainRule.refersTo : PlainRule → List Rule
  | .type => [.terminal]
  | .globalDecl => [.terminal, .varDecl, .funcDecl]
  | .statement => [.terminal, .varDecl, .assignment, .expression, .block, .call]
  | .expression => [.terminal, .expression, .atom]

namespace ParseTree

def AllPresent (ts : List ParseTree) : Prop := ∀ t ∈ ts, t.isMissing = false

/-- The tree is missing or belongs to the rule, and so do its parts. Lists have no gaps. -/
inductive Fits : Rule → ParseTree → Prop
  | missing {rule} : Fits rule .missing
  | token {text} : Fits .terminal (.token text)
  | errorToken {text} : Fits .terminal (.errorToken text)
  | globalVar {e decl} : Fits .varDecl decl → Fits .globalDecl (.globalVar e decl)
  | globalFunc {e decl} : Fits .funcDecl decl → Fits .globalDecl (.globalFunc e decl)
  | varDecl {e const type name init} :
      Fits .terminal const → Fits .type type → Fits .terminal name → Fits .expression init →
      Fits .varDecl (.varDecl e const type name init)
  | funcDecl {e type name params body} :
      Fits .type type → Fits .terminal name → Fits .params params → Fits .block body →
      Fits .funcDecl (.funcDecl e type name params body)
  | paramList {e params children} :
      AllPresent params → (∀ p ∈ params, Fits .param p) →
      Fits .params (.paramList e params children)
  | param {e type name children} :
      Fits .type type → Fits .terminal name → Fits .param (.param e type name children)
  | block {e statements} :
      AllPresent statements → (∀ s ∈ statements, Fits .statement s) →
      Fits .block (.block e statements)
  | localVar {e decl} : Fits .varDecl decl → Fits .statement (.localVar e decl)
  | assignStmt {e assignment} :
      Fits .assignment assignment → Fits .statement (.assignStmt e assignment)
  | ifElse {e cond blocks} :
      Fits .expression cond → AllPresent blocks → (∀ b ∈ blocks, Fits .block b) →
      Fits .statement (.ifElse e cond blocks)
  | forLoop {e init cond update body} :
      Fits .assignment init → Fits .expression cond → Fits .assignment update →
      Fits .block body → Fits .statement (.forLoop e init cond update body)
  | whileLoop {e cond body} :
      Fits .expression cond → Fits .block body → Fits .statement (.whileLoop e cond body)
  | ret {e value} : Fits .expression value → Fits .statement (.ret e value)
  | callStmt {e call} : Fits .call call → Fits .statement (.callStmt e call)
  | blockStmt {e block} : Fits .block block → Fits .statement (.blockStmt e block)
  | exprStmt {e expr} : Fits .expression expr → Fits .statement (.exprStmt e expr)
  | assignment {e name op value} :
      Fits .terminal name → Fits .terminal op → Fits .expression value →
      Fits .assignment (.assignment e name op value)
  | call {e name args} : Fits .terminal name → Fits .args args → Fits .call (.call e name args)
  | argList {e args children} :
      AllPresent args → (∀ a ∈ args, Fits .expression a) → Fits .args (.argList e args children)
  | negation {e inner} : Fits .expression inner → Fits .expression (.negation e inner)
  | binary {e left op right} :
      Fits .expression left → Fits .terminal op → Fits .expression right →
      Fits .expression (.binary e left op right)
  | atomExpr {e atom} : Fits .atom atom → Fits .expression (.atomExpr e atom)
  | atom {e callee name int float string bool inner} :
      Fits .call callee → Fits .terminal name → Fits .terminal int → Fits .terminal float →
      Fits .terminal string → Fits .terminal bool → Fits .expression inner →
      Fits .atom (.atom e callee name int float string bool inner)
  | plain {e rule children} :
      AllPresent children → (∀ c ∈ children, Fits (.childOf rule) c) →
      Fits (.plain rule) (.plain e rule children)
  | child {rule r t} : r ∈ rule.refersTo → Fits r t → Fits (.childOf rule) t

/-- A context of any rule may hold a token only. -/
theorem fits_plain_token {e : Extent} {rule : PlainRule} {t : ParseTree} (ht : t.Fits .terminal)
    (hp : t.isMissing = false) : Fits (.plain rule) (.plain e rule [t]) := by
  refine .plain (by simpa [AllPresent] using hp) ?_
  have hr : Rule.terminal ∈ rule.refersTo := by cases rule <;> simp [PlainRule.refersTo]
  simpa using .child hr ht

/-- A whole tree after recovery. -/
inductive IsRecovered : ParseTree → Prop
  | program {e decls} :
      AllPresent decls → (∀ d ∈ decls, Fits .globalDecl d) → IsRecovered (.program e decls)

end ParseTree

namespace Node

/-- The parts of a node; the body of a function is one. -/
def parts : Node → List Node
  | funcDecl _ _ _ _ body => [body]
  | n => n.children

/-- The node and all nodes in it have the property. -/
inductive Everywhere (p : Node → Prop) : Node → Prop
  | mk {n} : p n → (∀ c ∈ n.parts, Everywhere p c) → Everywhere p n

/-- Only declarations are declared, no statement is missing, functions have bodies, parameters
stand in the heads of functions only, and the text of an initializer is kept. -/
def Tidy : Node → Prop
  | program _ decls => ∀ d ∈ decls, d.declaration?.isSome = true
  | block _ statements => ∀ s ∈ statements, s.isMissing = false
  | funcDecl _ _ _ _ body => ∃ line statements, body = .block line statements
  | varDecl _ _ _ _ init initText => init.isMissing = false → initText.isSome = true
  | param _ => False
  | _ => True

/-- The nodes that a tree of the rule may give. -/
def Suits : Rule → Node → Prop
  | .varDecl, n => n = .missing ∨ n.IsDecl ∧ n.IsStmt
  | .funcDecl, n | .globalDecl, n | .childOf .globalDecl, n => n = .missing ∨ n.IsDecl
  | .block, n => n.IsStmt ∧ n.isBody = true
  | .assignment, n => n.IsStmt ∧ n.isUpdate = true
  | .statement, n | .childOf .statement, n => n.IsStmt
  | .expression, n | .childOf .expression, n | .atom, n | .call, n => n.IsExpr
  | _, n => n = .missing

private theorem suits_missing (rule : Rule) : Suits rule .missing := by
  rcases rule with _ | _ | _ | _ | _ | _ | _ | _ | _ | _ | ⟨_ | _ | _ | _⟩ | ⟨_ | _ | _ | _⟩ <;>
    simp only [Suits, true_or]
  · exact ⟨.expr .missing, rfl⟩
  · exact ⟨.expr .missing, rfl⟩
  · exact .missing
  · exact .missing
  · exact .expr .missing
  · exact .missing
  · exact .expr .missing
  · exact .missing

/-- What a rule refers to gives nodes that may stand for the rule itself. -/
theorem Suits.child {rule : PlainRule} {r : Rule} {n : Node} (hr : r ∈ rule.refersTo)
    (h : Suits r n) : Suits (.childOf rule) n := by
  have missing_suits : n = .missing → Suits (.childOf rule) n := fun hn => hn ▸ suits_missing _
  cases rule with
  | type =>
    obtain rfl : r = .terminal := by simpa [PlainRule.refersTo] using hr
    exact h
  | globalDecl =>
    simp only [PlainRule.refersTo, List.mem_cons, List.not_mem_nil, or_false] at hr
    rcases hr with rfl | rfl | rfl
    · exact missing_suits h
    · exact h.imp_right And.left
    · exact h
  | statement =>
    simp only [PlainRule.refersTo, List.mem_cons, List.not_mem_nil, or_false] at hr
    rcases hr with rfl | rfl | rfl | rfl | rfl | rfl
    · exact missing_suits h
    · exact h.elim missing_suits And.right
    · exact h.1
    · exact .expr h
    · exact h.1
    · exact .expr h
  | expression =>
    simp only [PlainRule.refersTo, List.mem_cons, List.not_mem_nil, or_false] at hr
    rcases hr with rfl | rfl | rfl
    · exact missing_suits h
    · exact h
    · exact h

private theorem everywhere_missing :
    Everywhere Tidy .missing := .mk trivial (by simp [parts, children])

end Node

open ParseTree Node

/-- The tree is built, and the node suits the rule. -/
def Built (rule : Rule) (t : ParseTree) (n : Node) : Prop :=
  ofPart t = .ok n ∧ n.Suits rule ∧ n.Everywhere Tidy

/-- What the builder makes of a tree of a rule. Lists of parameters and of arguments are read on
their own and are no nodes. -/
def Buildable : Rule → ParseTree → Prop
  | .params, t => ∃ params, paramsOfTree t = .ok params
  | .param, _ => True
  | .args, t => ∃ ns, ofArgs t = .ok ns ∧ ∀ n ∈ ns, n.IsExpr ∧ n.Everywhere Tidy
  | rule, t => ∃ n, Built rule t n

private theorem mem_present {nodes : List Node} {n : Node} :
    n ∈ present nodes ↔ n ∈ nodes ∧ n.isMissing = false := by
  simp [present]

section Lists

variable {ts : List ParseTree} {p : Node → Prop}

private theorem ofParts_eq_ok (hp : AllPresent ts) (h : ∀ t ∈ ts, ∃ n, ofPart t = .ok n ∧ p n) :
    ∃ ns, ofParts ts = .ok ns ∧ ∀ n ∈ ns, p n := by
  induction ts with
  | nil => exact ⟨[], rfl, by simp⟩
  | cons t ts ih =>
    obtain ⟨n, hn, hpn⟩ := h t (by simp)
    obtain ⟨ns, hns, hpns⟩ := ih (fun s hs => hp s (by simp [hs])) fun s hs => h s (by simp [hs])
    have ht : t.isMissing = false := hp t (by simp)
    refine ⟨n :: ns, ?_, List.forall_mem_cons.mpr ⟨hpn, hpns⟩⟩
    exact (if_neg (by simp [ht])).trans ((bind_ok hn _).trans (bind_ok hns _))

private theorem ofLast_eq_ok (hp : AllPresent ts) (hm : p .missing)
    (h : ∀ t ∈ ts, ∃ n, ofPart t = .ok n ∧ p n) : ∃ n, ofLast ts = .ok n ∧ p n := by
  induction ts with
  | nil => exact ⟨.missing, rfl, hm⟩
  | cons t ts ih =>
    obtain ⟨n, hn, hpn⟩ := h t (by simp)
    obtain ⟨m, hm, hpm⟩ := ih (fun s hs => hp s (by simp [hs])) fun s hs => h s (by simp [hs])
    have ht : t.isMissing = false := hp t (by simp)
    cases ts with
    | nil => exact ⟨n, (if_neg (by simp [ht])).trans (bind_ok hn _), hpn⟩
    | cons s ts => exact ⟨m, (if_neg (by simp [ht])).trans ((bind_ok hn _).trans hm), hpm⟩

private theorem ofBranches_eq_ok (hp : AllPresent ts) (hm : p .missing)
    (h : ∀ t ∈ ts, ∃ n, ofPart t = .ok n ∧ p n) :
    ∃ a b, ofBranches ts = .ok (a, b) ∧ p a ∧ p b := by
  have helse : ∀ {us}, us <:+ ts → ∃ n, ofElse us = .ok n ∧ p n := by
    intro us hus
    cases us with
    | nil => exact ⟨.missing, rfl, hm⟩
    | cons u us =>
      have hu : u ∈ ts := hus.subset (by simp)
      obtain ⟨n, hn, hpn⟩ := h u hu
      exact ⟨n, (if_neg (by simp [hp u hu])).trans hn, hpn⟩
  cases ts with
  | nil => exact ⟨.missing, .missing, rfl, hm, hm⟩
  | cons t ts =>
    obtain ⟨a, ha, hpa⟩ := h t (by simp)
    obtain ⟨b, hb, hpb⟩ := helse (List.suffix_cons t ts)
    have ht : t.isMissing = false := hp t (by simp)
    refine ⟨a, b, ?_, hpa, hpb⟩
    exact (if_neg (by simp [ht])).trans ((bind_ok ha _).trans (bind_ok hb _))

end Lists

private theorem params_eq_ok {params : List ParseTree} (hp : AllPresent params) :
    ∃ ps, params.mapM paramOfTree = .ok ps := by
  induction params with
  | nil => exact ⟨[], rfl⟩
  | cons t ts ih =>
    obtain ⟨ps, hps⟩ := ih fun s hs => hp s (by simp [hs])
    have ht : paramOfTree t = .ok _ := if_neg (by simp [hp t])
    exact ⟨_ :: ps, by rw [List.mapM_cons, ht, hps]; rfl⟩

private theorem Node.Everywhere.leaf {n : Node} (ht : n.Tidy) (hp : n.parts = []) :
    n.Everywhere Tidy :=
  .mk ht (by simp [hp])

private theorem Node.Everywhere.one {n c : Node} (ht : n.Tidy) (hp : n.parts = [c])
    (hc : c.Everywhere Tidy) : n.Everywhere Tidy :=
  .mk ht (by simpa [hp] using hc)

private theorem Node.Everywhere.two {n c d : Node} (ht : n.Tidy) (hp : n.parts = [c, d])
    (hc : c.Everywhere Tidy) (hd : d.Everywhere Tidy) : n.Everywhere Tidy :=
  .mk ht (by simpa [hp] using ⟨hc, hd⟩)

section Constructs

variable {e : Extent}

private theorem built_varDecl {const type name init : ParseTree} {n : Node}
    (h : Built .expression init n) : ∃ m, Built .varDecl (.varDecl e const type name init) m := by
  obtain ⟨hn, hs, ht⟩ := h
  refine ⟨_, bind_ok hn _, .inr ⟨.varDecl hs, .varDecl hs⟩, .one ?_ rfl ht⟩
  -- A tree that gives a node has a text.
  intro hm
  cases init with
  | missing =>
    cases hn
    exact absurd hm (by decide)
  | _ => rfl

private theorem built_funcDecl {type name params body : ParseTree} {ps : List Param} {n : Node}
    (hp : paramsOfTree params = .ok ps) (h : Built .block body n) :
    ∃ m, Built .funcDecl (.funcDecl e type name params body) m := by
  obtain ⟨hn, ⟨hs, hb⟩, ht⟩ := h
  have hbody : (bodyOr e.line n).IsStmt ∧ (bodyOr e.line n).isBody = true ∧
      (bodyOr e.line n).Everywhere Tidy ∧
      ∃ l statements, bodyOr e.line n = .block l statements := by
    cases n with
    | missing => exact ⟨.block (by simp), rfl, .mk nofun nofun, _, _, rfl⟩
    | block l statements => exact ⟨hs, hb, ht, l, statements, rfl⟩
    | _ => simp [isBody] at hb
  obtain ⟨hs, hb, ht, hblock⟩ := hbody
  exact ⟨_, (bind_ok hp _).trans (bind_ok hn _), .inr (.funcDecl hs hb), .one hblock rfl ht⟩

private theorem built_block {statements : List ParseTree} (hp : AllPresent statements)
    (h : ∀ s ∈ statements, ∃ n, Built .statement s n) :
    ∃ m, Built .block (.block e statements) m := by
  obtain ⟨ns, hns, hall⟩ := ofParts_eq_ok hp h
  refine ⟨.block e.line (present ns), bind_ok hns _, ⟨.block ?_, rfl⟩, .mk ?_ ?_⟩
  · exact fun s hs => (hall s (mem_present.mp hs).1).1
  · exact fun s hs => (mem_present.mp hs).2
  · exact fun s hs => (hall s (mem_present.mp hs).1).2

private theorem built_ifElse {cond : ParseTree} {blocks : List ParseTree} {c : Node}
    (hc : Built .expression cond c) (hp : AllPresent blocks)
    (h : ∀ b ∈ blocks, ∃ n, Built .block b n) :
    ∃ m, Built .statement (.ifElse e cond blocks) m := by
  obtain ⟨hn, hs, ht⟩ := hc
  obtain ⟨a, b, hab, ⟨⟨ha, hab'⟩, hat⟩, ⟨hb, hbb⟩, hbt⟩ :=
    ofBranches_eq_ok hp ⟨suits_missing .block, everywhere_missing⟩ h
  refine ⟨.ifElse e.line c a b, (bind_ok hn _).trans (bind_ok hab _),
    .ifElse hs ha hab' hb hbb, .mk trivial ?_⟩
  simpa [parts, children] using ⟨ht, hat, hbt⟩

private theorem built_forLoop {init cond update body : ParseTree} {i c u b : Node}
    (hi : Built .assignment init i) (hc : Built .expression cond c)
    (hu : Built .assignment update u) (hb : Built .block body b) :
    ∃ m, Built .statement (.forLoop e init cond update body) m := by
  obtain ⟨hin, ⟨his, hiu⟩, hit⟩ := hi
  obtain ⟨hcn, hcs, hct⟩ := hc
  obtain ⟨hun, ⟨hus, huu⟩, hut⟩ := hu
  obtain ⟨hbn, ⟨hbs, hbb⟩, hbt⟩ := hb
  have hbuilt : ofPart (.forLoop e init cond update body) = .ok (.forLoop e.line i c u b) :=
    (bind_ok hin _).trans ((bind_ok hcn _).trans ((bind_ok hun _).trans (bind_ok hbn _)))
  refine ⟨_, hbuilt, .forLoop his hiu hcs hus huu hbs hbb, .mk trivial ?_⟩
  simpa [parts, children] using ⟨hit, hct, hut, hbt⟩

private theorem built_whileLoop {cond body : ParseTree} {c b : Node} (hc : Built .expression cond c)
    (hb : Built .block body b) : ∃ m, Built .statement (.whileLoop e cond body) m := by
  obtain ⟨hcn, hcs, hct⟩ := hc
  obtain ⟨hbn, ⟨hbs, hbb⟩, hbt⟩ := hb
  exact ⟨.whileLoop e.line c b, (bind_ok hcn _).trans (bind_ok hbn _), .whileLoop hcs hbs hbb,
    .two trivial rfl hct hbt⟩

private theorem built_call {name args : ParseTree} {ns : List Node} (hn : ofArgs args = .ok ns)
    (h : ∀ n ∈ ns, n.IsExpr ∧ n.Everywhere Tidy) : ∃ m, Built .call (.call e name args) m :=
  ⟨_, bind_ok hn _, .call fun n hm => (h n hm).1, .mk trivial fun n hm => (h n hm).2⟩

private theorem built_binary {left op right : ParseTree} {l r : Node}
    (hl : Built .expression left l) (hr : Built .expression right r) :
    ∃ m, Built .expression (.binary e left op right) m := by
  obtain ⟨hln, hls, hlt⟩ := hl
  obtain ⟨hrn, hrs, hrt⟩ := hr
  exact ⟨_, (bind_ok hln _).trans (bind_ok hrn _), .binary hls hrs, .two trivial rfl hlt hrt⟩

private theorem suits_atomOf {line : Int} {name int float string bool : ParseTree} {n : Node}
    (h : atomOf line name int float string bool = some n) : n.Suits .atom ∧ n.Everywhere Tidy := by
  unfold atomOf at h
  split at h <;> cases h
  · exact ⟨.identifier, .leaf trivial rfl⟩
  all_goals exact ⟨.literal, .leaf trivial rfl⟩

private theorem built_atom {callee name int float string bool inner : ParseTree} {c i : Node}
    (hc : Built .call callee c) (hi : Built .expression inner i) :
    ∃ m, Built .atom (.atom e callee name int float string bool inner) m := by
  cases hcm : callee.isMissing with
  | false => exact ⟨c, by rw [ofPart, hcm]; exact hc.1, hc.2⟩
  | true =>
    cases ha : atomOf e.line name int float string bool with
    | some n => exact ⟨n, by rw [ofPart, hcm, ha]; rfl, suits_atomOf ha⟩
    | none =>
      cases him : inner.isMissing with
      | true =>
        exact ⟨.missing, by rw [ofPart, hcm, ha, him]; rfl, suits_missing _, everywhere_missing⟩
      | false =>
        obtain ⟨hn, hs, ht⟩ := hi
        exact ⟨.paren e.line i, by rw [ofPart, hcm, ha, him, hn]; rfl, .paren hs,
          .one trivial rfl ht⟩

/-- A context of an unknown alternative gives what its last child gives. -/
theorem built_plain {rule : PlainRule} {children : List ParseTree} (hp : AllPresent children)
    (h : ∀ c ∈ children, ∃ n, Built (.childOf rule) c n) :
    ∃ m, Built (.plain rule) (.plain e rule children) m := by
  obtain ⟨n, hn, hs, ht⟩ := ofLast_eq_ok hp ⟨suits_missing (.childOf rule), everywhere_missing⟩ h
  refine ⟨n, hn, ?_, ht⟩
  cases rule <;> exact hs

end Constructs

/-- Every tree that fits a rule is built, and the node has the shape that the rule asks for. -/
theorem ParseTree.Fits.buildable {rule : Rule} {t : ParseTree} (h : t.Fits rule) :
    Buildable rule t := by
  induction h with
  | @missing rule =>
    cases rule with
    | params => exact ⟨[], rfl⟩
    | param => trivial
    | args => exact ⟨[], rfl, by simp⟩
    | _ => exact ⟨.missing, rfl, suits_missing _, everywhere_missing⟩
  | token => exact ⟨.missing, rfl, rfl, everywhere_missing⟩
  | errorToken => exact ⟨.missing, rfl, rfl, everywhere_missing⟩
  | globalVar _ ih =>
    obtain ⟨n, hn, hs, ht⟩ := ih
    exact ⟨n, hn, hs.imp_right And.left, ht⟩
  | globalFunc _ ih =>
    obtain ⟨n, hn, hs, ht⟩ := ih
    exact ⟨n, hn, hs, ht⟩
  | varDecl _ _ _ _ _ _ _ ih => exact ih.elim fun _ => built_varDecl
  | funcDecl _ _ _ _ _ _ ihp ihb =>
    obtain ⟨ps, hps⟩ := ihp
    exact ihb.elim fun _ => built_funcDecl hps
  | paramList hp => exact params_eq_ok hp
  | param => trivial
  | block hp _ ih => exact built_block hp ih
  | localVar _ ih =>
    obtain ⟨n, hn, hs, ht⟩ := ih
    exact ⟨n, hn, hs.elim (fun h => h ▸ suits_missing .statement) And.right, ht⟩
  | assignStmt _ ih =>
    obtain ⟨n, hn, hs, ht⟩ := ih
    exact ⟨n, hn, hs.1, ht⟩
  | ifElse _ hp _ ihc ihb => exact ihc.elim fun _ hc => built_ifElse hc hp ihb
  | forLoop _ _ _ _ ihi ihc ihu ihb =>
    obtain ⟨i, hi⟩ := ihi
    obtain ⟨c, hc⟩ := ihc
    obtain ⟨u, hu⟩ := ihu
    obtain ⟨b, hb⟩ := ihb
    exact built_forLoop hi hc hu hb
  | whileLoop _ _ ihc ihb =>
    obtain ⟨c, hc⟩ := ihc
    obtain ⟨b, hb⟩ := ihb
    exact built_whileLoop hc hb
  | ret _ ih =>
    obtain ⟨n, hn, hs, ht⟩ := ih
    exact ⟨_, bind_ok hn _, .ret hs, .one trivial rfl ht⟩
  | callStmt _ ih =>
    obtain ⟨n, hn, hs, ht⟩ := ih
    exact ⟨_, bind_ok hn _, .callStmt hs, .one trivial rfl ht⟩
  | blockStmt _ ih =>
    obtain ⟨n, hn, hs, ht⟩ := ih
    exact ⟨n, hn, hs.1, ht⟩
  | exprStmt _ ih =>
    obtain ⟨n, hn, hs, ht⟩ := ih
    exact ⟨_, bind_ok hn _, .exprStmt hs, .one trivial rfl ht⟩
  | assignment _ _ _ _ _ ih =>
    obtain ⟨n, hn, hs, ht⟩ := ih
    exact ⟨_, bind_ok hn _, ⟨.assign hs, rfl⟩, .one trivial rfl ht⟩
  | call _ _ _ ih =>
    obtain ⟨ns, hns, hall⟩ := ih
    exact built_call hns hall
  | argList hp _ ih => exact ofParts_eq_ok hp ih
  | negation _ ih =>
    obtain ⟨n, hn, hs, ht⟩ := ih
    exact ⟨_, bind_ok hn _, .negation hs, .one trivial rfl ht⟩
  | binary _ _ _ ihl _ ihr =>
    obtain ⟨l, hl⟩ := ihl
    obtain ⟨r, hr⟩ := ihr
    exact built_binary hl hr
  | atomExpr _ ih =>
    obtain ⟨n, hn, hs, ht⟩ := ih
    exact ⟨n, hn, hs, ht⟩
  | atom _ _ _ _ _ _ _ ihc _ _ _ _ _ ihi =>
    obtain ⟨c, hc⟩ := ihc
    obtain ⟨i, hi⟩ := ihi
    exact built_atom hc hi
  | plain hp _ ih => exact built_plain hp ih
  | @child rule r t hr _ ih =>
    have hb : ∃ n, Built r t n := by
      cases rule <;> simp only [PlainRule.refersTo, List.mem_cons, List.not_mem_nil, or_false] at hr
      · subst hr; exact ih
      · rcases hr with rfl | rfl | rfl <;> exact ih
      · rcases hr with rfl | rfl | rfl | rfl | rfl | rfl <;> exact ih
      · rcases hr with rfl | rfl | rfl <;> exact ih
    obtain ⟨n, hn, hs, ht⟩ := hb
    exact ⟨n, hn, hs.child hr, ht⟩

private theorem ofTree_recovered {e : Extent} {decls : List ParseTree}
    (h : (ParseTree.program e decls).IsRecovered) :
    ∃ ds, Node.ofTree (.program e decls) = .ok (.program e.line ds) ∧ (∀ d ∈ ds, d.IsDecl) ∧
      (Node.program e.line ds).Everywhere Tidy := by
  cases h with
  | program hp hd =>
    obtain ⟨ns, hns, hall⟩ := ofParts_eq_ok hp fun d hm => (hd d hm).buildable
    have hdecl : ∀ d ∈ present ns, d.IsDecl := by
      intro d hm
      obtain ⟨hm, hpresent⟩ := mem_present.mp hm
      rcases (hall d hm).1 with rfl | hd
      · exact absurd hpresent (by decide)
      · exact hd
    refine ⟨present ns, ?_, hdecl, .mk ?_ fun d hm => (hall d (mem_present.mp hm).1).2⟩
    · exact bind_ok hns _
    · intro d hm
      cases hdecl d hm <;> rfl

/-- Nothing stops the compilation of a recovered parse tree. A program is built that has the shape
of the grammar and is in order everywhere, its analysis returns from every table, and the
compilation has a result. -/
theorem compiles_of_isRecovered {T : ParseTree} (h : T.IsRecovered) :
    ∃ line decls, Node.ofTree T = .ok (.program line decls) ∧
      (Node.program line decls).IsProgram ∧ (Node.program line decls).Everywhere Tidy ∧
      (∀ t, ∃ u fs, (analyze (.program line decls)).Returns t u fs ()) ∧
      ∀ out : ParserOutput, out.tree = T →
        ∃ c, Compilation.ofParser (.finished out) = .ok c ∧ c.program = .program line decls := by
  cases h with
  | @program e trees hp hd =>
    obtain ⟨decls, hof, hdecl, htidy⟩ := ofTree_recovered (e := e) (.program hp hd)
    have hrun : ∀ t, ∃ u fs, (analyze (.program e.line decls)).Returns t u fs () := by
      intro t
      obtain ⟨u, fs, types, hr⟩ := visitAll_decls hdecl t
      exact ⟨u, fs, analyze_returns hr⟩
    refine ⟨e.line, decls, hof, .program hdecl, htidy, hrun, ?_⟩
    intro out hout
    obtain ⟨u, fs, hr⟩ := hrun .empty
    have hp : Compilation.programOf (.program e.line decls) = .program e.line decls := rfl
    simp only [Compilation.ofParser, Compilation.run, Compilation.runOutput, hout, hof, hp]
    rw [hr]
    exact ⟨_, rfl, rfl⟩

theorem compiles_of_isRecovered_bare_contexts :
    let T : ParseTree := .program ⟨none, ""⟩
      [.plain ⟨some 1, ";"⟩ .globalDecl [.errorToken ";"],
        .globalVar ⟨none, ""⟩ .missing,
        .globalFunc ⟨some 2, ""⟩ (.funcDecl ⟨some 2, ""⟩ .missing (.token "f")
          (.paramList ⟨some 2, "p"⟩ [.param ⟨none, ""⟩ .missing (.token "p") []] [])
          (.block ⟨some 2, ""⟩
            [.plain ⟨some 3, ""⟩ .statement [.errorToken "@", .negation ⟨some 3, ""⟩ .missing],
              .ret ⟨some 4, ""⟩ (.plain ⟨none, ")"⟩ .expression [.errorToken ")"])]))]
    T.IsRecovered ∧ ∃ c, Compilation.ofParser (.finished ⟨T, [], [], []⟩) = .ok c ∧
      c.program.Everywhere Tidy := by
  intro T
  have hneg : ParseTree.Fits .statement
      (.plain ⟨some 3, ""⟩ .statement [.errorToken "@", .negation ⟨some 3, ""⟩ .missing]) :=
    .plain (by simp [AllPresent, ParseTree.isMissing])
      (by simpa using ⟨.child (r := .terminal) (by simp [PlainRule.refersTo]) .errorToken,
        .child (r := .expression) (by simp [PlainRule.refersTo]) (.negation .missing)⟩)
  have hT : T.IsRecovered := by
    refine .program (by simp [AllPresent, ParseTree.isMissing]) ?_
    simp only [List.forall_mem_cons]
    refine ⟨fits_plain_token .errorToken rfl, .globalVar .missing,
      .globalFunc (.funcDecl .missing .token ?_ ?_), by simp⟩
    · exact .paramList (by simp [AllPresent, ParseTree.isMissing])
        (by simpa using .param .missing .token)
    · exact .block (by simp [AllPresent, ParseTree.isMissing])
        (by simpa using ⟨hneg, .ret (fits_plain_token .errorToken rfl)⟩)
  obtain ⟨line, decls, -, -, htidy, -, hc⟩ := compiles_of_isRecovered hT
  obtain ⟨c, hc, hp⟩ := hc ⟨T, [], [], []⟩ rfl
  exact ⟨hT, c, hc, hp ▸ htidy⟩

private theorem visit_ret_missing (line : Int) {fn : Option FunctionId} {t : Table} {f : Function}
    (hf : t.around fn = some f) :
    ∃ u, (visit fn (.ret line .missing)).Returns t u
      (Check.mismatch line f.type .void (.returnMismatch f.name f.type .void)) .void := by
  have hs : (Node.ret line .missing).IsStmt := .ret .missing
  obtain ⟨fs, type, b, hr⟩ := visit_stmt hs fn t
  obtain ⟨-, rfl, rfl⟩ := hr.of_ret_nothing hf
  exact ⟨_, hr⟩

private theorem visit_varDecl_missing (line : Int) (name : String) (typeText : Option String)
    (isConst : Bool) (initText : Option String) (fn : Option FunctionId) (t : Table) :
    ∃ u, (visit fn (.varDecl line name typeText isConst .missing initText)).Returns t u
      (Check.redeclared t (t.around fn) line name ++ (Check.conflicts (t.around fn) line name ++
        Check.uninitialized line name isConst .missing)) .void := by
  have hs : (Node.varDecl line name typeText isConst .missing initText).IsStmt := .varDecl .missing
  obtain ⟨fs, type, b, hr⟩ := visit_stmt hs fn t
  obtain ⟨u, gs, got, hv, -, rfl, rfl⟩ := hr.of_varDecl .missing
  obtain ⟨-, rfl, rfl⟩ := hv.of_missing
  rw [Check.mismatch, if_pos (Ty.accepts_unknown _), List.append_nil, List.append_nil] at hr
  exact ⟨_, hr⟩

/-- A value from which nothing is built counts as one that was not written, even where there is a
context for it. A return statement then returns nothing, which is reported in a function with a
result, and a constant is reported to have no initializer. -/
theorem findings_of_lost_value {value : ParseTree} (h : ofPart value = .ok .missing) (e : Extent)
    (fn : Option FunctionId) (t : Table) :
    (∃ s, ofPart (.ret e value) = .ok s ∧ ofPart (.ret e .missing) = .ok s ∧
      ∀ f, t.around fn = some f → ∃ u, (visit fn s).Returns t u
        (if f.type.accepts .void then [] else [⟨some e.line, .returnMismatch f.name f.type .void⟩])
        .void) ∧
    ∀ const type name, ∃ d d', ofPart (.varDecl e const type name value) = .ok d ∧
      ofPart (.varDecl e const type name .missing) = .ok d' ∧ visit fn d = visit fn d' ∧
      ∃ u, (visit fn d).Returns t u
        (Check.redeclared t (t.around fn) e.line (name.text?.getD "") ++
          (Check.conflicts (t.around fn) e.line (name.text?.getD "") ++
            if const.isMissing then []
            else [⟨some e.line, .constUninitialized (name.text?.getD "")⟩])) .void := by
  refine ⟨⟨.ret e.line .missing, bind_ok h _, rfl, fun f => visit_ret_missing _⟩, ?_⟩
  intro const type name
  refine ⟨.varDecl e.line (name.text?.getD "") type.text? (!const.isMissing) .missing value.text?,
    _, bind_ok h _, rfl, rfl, ?_⟩
  obtain ⟨u, hr⟩ := visit_varDecl_missing e.line (name.text?.getD "") type.text? (!const.isMissing)
    value.text? fn t
  refine ⟨u, ?_⟩
  cases hc : const.isMissing <;> rw [hc] at hr <;> exact hr

theorem findings_of_lost_value_in_int_function :
    let value : ParseTree := .plain ⟨some 1, "@"⟩ .expression [.errorToken "@"]
    let t : Table := Table.empty.declare (.declared "main" .int 1 [])
    ofPart value = .ok .missing ∧ ∃ s u, ofPart (.ret ⟨some 1, ""⟩ value) = .ok s ∧
      (visit (some 0) s).Returns t u [⟨some 1, .returnMismatch "main" .int .void⟩] .void := by
  intro value t
  obtain ⟨⟨s, hs, -, hr⟩, -⟩ := @findings_of_lost_value value rfl ⟨some 1, ""⟩ (some 0) t
  obtain ⟨u, hr⟩ := hr (.declared "main" .int 1 []) rfl
  exact ⟨rfl, s, u, hs, hr⟩

/-- A recovered tree with an error token as the value of a return statement and of a constant. It
has both findings, although the context of a value is present in both places. -/
theorem lost_values_reported :
    let value : ParseTree := .plain ⟨some 1, "@"⟩ .expression [.errorToken "@"]
    let type : ParseTree := .plain ⟨some 1, "int"⟩ .type [.token "int"]
    let T : ParseTree := .program ⟨some 1, ""⟩
      [.globalFunc ⟨some 1, ""⟩ (.funcDecl ⟨some 1, ""⟩ type (.token "main") .missing
          (.block ⟨some 1, ""⟩ [.ret ⟨some 1, ""⟩ value])),
        .globalVar ⟨some 2, ""⟩ (.varDecl ⟨some 2, ""⟩ (.token "const") type (.token "x") value)]
    T.IsRecovered ∧ value.isMissing = false ∧ ofPart value = .ok .missing ∧
      ∃ c, Compilation.ofParser (.finished ⟨T, [], [], []⟩) = .ok c ∧
        c.findings =
          [⟨some 1, .returnMismatch "main" .int .void⟩, ⟨some 2, .constUninitialized "x"⟩] := by
  intro value type T
  have hvalue : value.Fits .expression := fits_plain_token .errorToken rfl
  have htype : type.Fits .type := fits_plain_token .token rfl
  refine
    ⟨.program (by simp [AllPresent, ParseTree.isMissing]) ?_, rfl, rfl, _, rfl, by decide +kernel⟩
  simp only [List.forall_mem_cons]
  refine ⟨.globalFunc (.funcDecl htype .token .missing ?_),
    .globalVar (.varDecl .token htype .token hvalue), by simp⟩
  exact .block (by simp [AllPresent, ParseTree.isMissing]) (by simpa using .ret hvalue)

end MiniCheck
