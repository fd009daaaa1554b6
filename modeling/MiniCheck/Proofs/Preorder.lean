import MiniCheck.Proofs.WholeTrees

/-!
# Parse trees and syntax trees in preorder

The items of a tree in preorder, each with its place under the root, its line and what it says by
itself. The items of a parse tree are the contexts that stand for something; contexts that only wrap
others pass their place on. A whole tree gives a syntax tree with the same items.
-/

namespace MiniCheck

/-- What a part is to the whole. -/
inductive Role where
  | decl (index : Nat) | param (index : Nat) | statement (index : Nat) | arg (index : Nat)
  | init | cond | update | body | thenBranch | elseBranch
  | value | expr | call | left | right | inner
  deriving DecidableEq, Repr

/-- The block after the condition is taken if it holds, and the next one if not. -/
def Role.branch : Nat → Role
  | 0 => .thenBranch
  | _ => .elseBranch

/-- What an item says by itself, without its parts. -/
inductive Piece where
  | program | block | ifElse | forLoop | whileLoop | ret | exprStmt | callStmt | paren | negation
  | varDecl (name : String) (typeText : Option String) (isConst : Bool) (initText : Option String)
  | funcDecl (name : String) (returnText : Option String)
  | param (name : String) (typeText : Option String)
  | assign (name op : String)
  | call (name : String)
  | literal (kind text : String)
  | identifier (name : String)
  | binary (op : String)
  | unclassified
  deriving DecidableEq, Repr

structure Item where
  path : List Role
  line : Int
  piece : Piece
  deriving DecidableEq, Repr

def Param.item (path : List Role) (p : Param) : Item := ⟨path, p.line, .param p.name p.typeText⟩

def Param.itemsEach (path : List Role) (first : Nat) : List Param → List Item
  | [] => []
  | p :: ps => p.item (path ++ [.param first]) :: itemsEach path (first + 1) ps

namespace Node

mutual

/-- Every node has one item. -/
@[simp] def items (path : List Role) : Node → List Item
  | missing => []
  | program line decls => ⟨path, line, .program⟩ :: itemsEach path .decl 0 decls
  | block line statements => ⟨path, line, .block⟩ :: itemsEach path .statement 0 statements
  | varDecl line name typeText isConst init initText =>
      ⟨path, line, .varDecl name typeText isConst initText⟩ :: init.items (path ++ [.init])
  | param p => [p.item path]
  | funcDecl line name returnText params body =>
      ⟨path, line, .funcDecl name returnText⟩ ::
        (Param.itemsEach path 0 params ++ body.items (path ++ [.body]))
  | assign line name op value => ⟨path, line, .assign name op⟩ :: value.items (path ++ [.value])
  | ifElse line cond thenBranch elseBranch =>
      ⟨path, line, .ifElse⟩ :: (cond.items (path ++ [.cond]) ++
        (thenBranch.items (path ++ [.thenBranch]) ++ elseBranch.items (path ++ [.elseBranch])))
  | forLoop line init cond update body =>
      ⟨path, line, .forLoop⟩ :: (init.items (path ++ [.init]) ++ (cond.items (path ++ [.cond]) ++
        (update.items (path ++ [.update]) ++ body.items (path ++ [.body]))))
  | whileLoop line cond body =>
      ⟨path, line, .whileLoop⟩ :: (cond.items (path ++ [.cond]) ++ body.items (path ++ [.body]))
  | ret line value => ⟨path, line, .ret⟩ :: value.items (path ++ [.value])
  | exprStmt line expr => ⟨path, line, .exprStmt⟩ :: expr.items (path ++ [.expr])
  | callStmt line inner => ⟨path, line, .callStmt⟩ :: inner.items (path ++ [.call])
  | call line name args => ⟨path, line, .call name⟩ :: itemsEach path .arg 0 args
  | literal line kind text => [⟨path, line, .literal kind text⟩]
  | identifier line name => [⟨path, line, .identifier name⟩]
  | paren line inner => ⟨path, line, .paren⟩ :: inner.items (path ++ [.inner])
  | negation line inner => ⟨path, line, .negation⟩ :: inner.items (path ++ [.inner])
  | binary line op left right =>
      ⟨path, line, .binary op⟩ :: (left.items (path ++ [.left]) ++ right.items (path ++ [.right]))
  | unclassified line => [⟨path, line, .unclassified⟩]

/-- The items of parts of one role, which are numbered from `first`. -/
@[simp] def itemsEach (path : List Role) (role : Nat → Role) (first : Nat) : List Node → List Item
  | [] => []
  | n :: ns => n.items (path ++ [role first]) ++ itemsEach path role (first + 1) ns

end

end Node

namespace ParseTree

def token? : ParseTree → Option String
  | token text => some text
  | _ => none

def tokenText (t : ParseTree) : String := t.token?.getD ""

/-- What stands in an atom apart from a call: a name, a literal, or an expression in brackets. -/
def atomPieces (name int float string bool inner : ParseTree) : List Piece :=
  (name.token?.map .identifier).toList ++ (int.token?.map (.literal "int")).toList ++
    (float.token?.map (.literal "float")).toList ++
    (string.token?.map (.literal "string")).toList ++ (bool.token?.map (.literal "bool")).toList ++
    if inner.isMissing then [] else [.paren]

mutual

/-- One item for each context that is no mere wrapper. -/
@[simp] def items (path : List Role) : ParseTree → List Item
  | missing | token _ | errorToken _ | plain _ _ _ => []
  | program e decls => ⟨path, e.line, .program⟩ :: itemsEach path .decl 0 decls
  | globalVar _ decl | globalFunc _ decl | localVar _ decl => decl.items path
  | varDecl e const type name init =>
      ⟨path, e.line, .varDecl name.tokenText type.text? (!const.isMissing) init.text?⟩ ::
        init.items (path ++ [.init])
  | funcDecl e type name params body =>
      ⟨path, e.line, .funcDecl name.tokenText type.text?⟩ ::
        (params.items path ++ body.items (path ++ [.body]))
  | paramList _ params _ => itemsEach path .param 0 params
  | param e type name _ => [⟨path, e.line, .param name.tokenText type.text?⟩]
  | block e statements => ⟨path, e.line, .block⟩ :: itemsEach path .statement 0 statements
  | assignStmt _ inner | blockStmt _ inner | atomExpr _ inner => inner.items path
  | ifElse e cond blocks =>
      ⟨path, e.line, .ifElse⟩ ::
        (cond.items (path ++ [.cond]) ++ itemsEach path Role.branch 0 blocks)
  | forLoop e init cond update body =>
      ⟨path, e.line, .forLoop⟩ :: (init.items (path ++ [.init]) ++ (cond.items (path ++ [.cond]) ++
        (update.items (path ++ [.update]) ++ body.items (path ++ [.body]))))
  | whileLoop e cond body =>
      ⟨path, e.line, .whileLoop⟩ :: (cond.items (path ++ [.cond]) ++ body.items (path ++ [.body]))
  | ret e value => ⟨path, e.line, .ret⟩ :: value.items (path ++ [.value])
  | callStmt e inner => ⟨path, e.line, .callStmt⟩ :: inner.items (path ++ [.call])
  | exprStmt e expr => ⟨path, e.line, .exprStmt⟩ :: expr.items (path ++ [.expr])
  | assignment e name op value =>
      ⟨path, e.line, .assign name.tokenText op.tokenText⟩ :: value.items (path ++ [.value])
  | call e name args => ⟨path, e.line, .call name.tokenText⟩ :: args.items path
  | argList _ args _ => itemsEach path .arg 0 args
  | negation e inner => ⟨path, e.line, .negation⟩ :: inner.items (path ++ [.inner])
  | binary e left op right =>
      ⟨path, e.line, .binary op.tokenText⟩ ::
        (left.items (path ++ [.left]) ++ right.items (path ++ [.right]))
  | atom e callee name int float string bool inner =>
      callee.items path ++ (atomPieces name int float string bool inner).map (⟨path, e.line, ·⟩) ++
        inner.items (path ++ [.inner])

@[simp] def itemsEach (path : List Role) (role : Nat → Role) (first : Nat) :
    List ParseTree → List Item
  | [] => []
  | t :: ts => t.items (path ++ [role first]) ++ itemsEach path role (first + 1) ts

end

end ParseTree

open ParseTree Node

/-- The tree gives a node, and both have the same items. -/
def CarriedOver (t : ParseTree) (n : Node) : Prop :=
  GivesNode t n ∧ n.isMissing = false ∧ ∀ path, n.items path = t.items path

/-- The same for a part that may be absent. -/
def CarriedOverIfAny (t : ParseTree) : Prop :=
  ∃ n, ofPart t = .ok n ∧ ∀ path, n.items path = t.items path

private theorem carriedOverIfAny {t : ParseTree} (h : t.isMissing = false → ∃ n, CarriedOver t n) :
    CarriedOverIfAny t := by
  apply Whole.optional (P := CarriedOverIfAny) ⟨.missing, rfl, fun _ => rfl⟩
  intro ht
  obtain ⟨n, ⟨-, hn⟩, -, hitems⟩ := h ht
  exact ⟨n, hn, hitems⟩

private theorem CarriedOver.ofParts {ts : List ParseTree} {ns : List Node}
    (h : List.Forall₂ CarriedOver ts ns) : ofParts ts = .ok ns :=
  ofParts_of_givesNode (h.imp fun _ _ hn => hn.1)

private theorem CarriedOver.present_eq {ts : List ParseTree} {ns : List Node}
    (h : List.Forall₂ CarriedOver ts ns) : present ns = ns := by
  induction h with
  | nil => rfl
  | cons hn _ ih =>
    rw [present, List.filter_cons_of_pos (by simp [hn.2.1]), ← present, ih]

private theorem CarriedOver.itemsEach_eq {ts : List ParseTree} {ns : List Node}
    (h : List.Forall₂ CarriedOver ts ns) (path : List Role) (role : Nat → Role) (first : Nat) :
    Node.itemsEach path role first ns = ParseTree.itemsEach path role first ts := by
  induction h generalizing first with
  | nil => rfl
  | cons hn _ ih => rw [Node.itemsEach, ParseTree.itemsEach, hn.2.2, ih]

/-- What the builder makes of a tree of a rule. -/
def Faithful : Rule → ParseTree → Prop
  | .terminal, _ | .plain .type, _ | .childOf _, _ => True
  | .param, t => ∃ p, paramOfTree t = .ok p ∧ ∀ path, [p.item path] = t.items path
  | .params, t => ∃ ps, paramsOfTree t = .ok ps ∧ ∀ path, Param.itemsEach path 0 ps = t.items path
  | .args, t => ∃ ns, ofArgs t = .ok ns ∧ ∀ path, Node.itemsEach path .arg 0 ns = t.items path
  | _, t => ∃ n, CarriedOver t n

section Constructs

variable {e : Extent}

private theorem params_carriedOver {params : List ParseTree} (h : ∀ t ∈ params, Faithful .param t) :
    ∃ ps, params.mapM paramOfTree = .ok ps ∧ ∀ path first,
      Param.itemsEach path first ps = ParseTree.itemsEach path .param first params := by
  induction params with
  | nil => exact ⟨[], rfl, fun _ _ => rfl⟩
  | cons t ts ih =>
    obtain ⟨p, hp, hitem⟩ := h t (by simp)
    obtain ⟨ps, hps, hitems⟩ := ih fun s hs => h s (by simp [hs])
    refine ⟨p :: ps, ?_, fun path first => ?_⟩
    · rw [List.mapM_cons, bind_ok hp, bind_ok hps]
      rfl
    · rw [Param.itemsEach, ParseTree.itemsEach, hitems, ← hitem]
      rfl

private theorem carriedOver_varDecl {const type init : ParseTree} {name : String}
    (h : CarriedOverIfAny init) :
    ∃ n, CarriedOver (.varDecl e const type (.token name) init) n := by
  obtain ⟨n, hn, hitems⟩ := h
  refine ⟨_, ⟨rfl, bind_ok hn _⟩, rfl, fun path => ?_⟩
  rw [Node.items, hitems]
  rfl

private theorem carriedOver_funcDecl {type params body : ParseTree} {name : String}
    (hp : params.isMissing = false → Faithful .params params) (h : ∃ n, CarriedOver body n) :
    ∃ n, CarriedOver (.funcDecl e type (.token name) params body) n := by
  have hparams : Faithful .params params :=
    Whole.optional (P := Faithful .params) ⟨[], rfl, fun _ => rfl⟩ hp
  obtain ⟨ps, hps, hpitems⟩ := hparams
  obtain ⟨n, ⟨-, hn⟩, hpresent, hitems⟩ := h
  have hbody : bodyOr e.line n = n := if_neg (by simp [hpresent])
  refine ⟨_, ⟨rfl, (bind_ok hps _).trans (bind_ok hn _)⟩, rfl, fun path => ?_⟩
  rw [hbody, Node.items, hpitems, hitems]
  rfl

private theorem carriedOver_program {decls : List ParseTree}
    (h : ∀ d ∈ decls, ∃ n, CarriedOver d n) :
    ∃ n, CarriedOver (.program e decls) n := by
  obtain ⟨ns, hns⟩ := exists_forall₂ h
  refine ⟨_, ⟨rfl, bind_ok (CarriedOver.ofParts hns) _⟩, rfl, fun path => ?_⟩
  rw [CarriedOver.present_eq hns, Node.items, CarriedOver.itemsEach_eq hns]
  rfl

private theorem carriedOver_block {statements : List ParseTree}
    (h : ∀ s ∈ statements, ∃ n, CarriedOver s n) : ∃ n, CarriedOver (.block e statements) n := by
  obtain ⟨ns, hns⟩ := exists_forall₂ h
  refine ⟨_, ⟨rfl, bind_ok (CarriedOver.ofParts hns) _⟩, rfl, fun path => ?_⟩
  rw [CarriedOver.present_eq hns, Node.items, CarriedOver.itemsEach_eq hns]
  rfl

private theorem carriedOver_ifThen {cond thenBlock : ParseTree} (hc : ∃ n, CarriedOver cond n)
    (ht : ∃ n, CarriedOver thenBlock n) :
    ∃ n, CarriedOver (.ifElse e cond [thenBlock]) n := by
  obtain ⟨c, ⟨-, hc⟩, -, hcitems⟩ := hc
  obtain ⟨a, ⟨hpresent, ha⟩, -, haitems⟩ := ht
  have hbranches : ofBranches [thenBlock] = .ok (a, .missing) :=
    (if_neg (by simp [hpresent])).trans (bind_ok ha _)
  refine ⟨_, ⟨rfl, (bind_ok hc _).trans (bind_ok hbranches _)⟩, rfl, fun path => ?_⟩
  simp [Role.branch, hcitems, haitems]

private theorem carriedOver_ifElse {cond thenBlock elseBlock : ParseTree}
    (hc : ∃ n, CarriedOver cond n) (ht : ∃ n, CarriedOver thenBlock n)
    (hf : ∃ n, CarriedOver elseBlock n) :
    ∃ n, CarriedOver (.ifElse e cond [thenBlock, elseBlock]) n := by
  obtain ⟨c, ⟨-, hc⟩, -, hcitems⟩ := hc
  obtain ⟨a, ⟨hpresent, ha⟩, -, haitems⟩ := ht
  obtain ⟨b, ⟨hpresent', hb⟩, -, hbitems⟩ := hf
  have helse : ofElse [elseBlock] = .ok b := (if_neg (by simp [hpresent'])).trans hb
  have hbranches : ofBranches [thenBlock, elseBlock] = .ok (a, b) :=
    (if_neg (by simp [hpresent])).trans ((bind_ok ha _).trans (bind_ok helse _))
  refine ⟨_, ⟨rfl, (bind_ok hc _).trans (bind_ok hbranches _)⟩, rfl, fun path => ?_⟩
  simp [Role.branch, hcitems, haitems, hbitems]

private theorem carriedOver_forLoop {init cond update body : ParseTree} (hi : CarriedOverIfAny init)
    (hc : CarriedOverIfAny cond) (hu : CarriedOverIfAny update) (hb : ∃ n, CarriedOver body n) :
    ∃ n, CarriedOver (.forLoop e init cond update body) n := by
  obtain ⟨i, hi, hiitems⟩ := hi
  obtain ⟨c, hc, hcitems⟩ := hc
  obtain ⟨u, hu, huitems⟩ := hu
  obtain ⟨b, ⟨-, hb⟩, -, hbitems⟩ := hb
  have hbuilt : ofPart (.forLoop e init cond update body) = .ok (.forLoop e.line i c u b) :=
    (bind_ok hi _).trans ((bind_ok hc _).trans ((bind_ok hu _).trans (bind_ok hb _)))
  refine ⟨_, ⟨rfl, hbuilt⟩, rfl, fun path => ?_⟩
  rw [Node.items, hiitems, hcitems, huitems, hbitems]
  rfl

private theorem carriedOver_whileLoop {cond body : ParseTree} (hc : ∃ n, CarriedOver cond n)
    (hb : ∃ n, CarriedOver body n) : ∃ n, CarriedOver (.whileLoop e cond body) n := by
  obtain ⟨c, ⟨-, hc⟩, -, hcitems⟩ := hc
  obtain ⟨b, ⟨-, hb⟩, -, hbitems⟩ := hb
  refine ⟨_, ⟨rfl, (bind_ok hc _).trans (bind_ok hb _)⟩, rfl, fun path => ?_⟩
  rw [Node.items, hcitems, hbitems]
  rfl

private theorem carriedOver_call {name : String} {args : ParseTree}
    (h : args.isMissing = false → Faithful .args args) :
    ∃ n, CarriedOver (.call e (.token name) args) n := by
  have hargs : Faithful .args args :=
    Whole.optional (P := Faithful .args) ⟨[], rfl, fun _ => rfl⟩ h
  obtain ⟨ns, hns, hitems⟩ := hargs
  refine ⟨_, .call name hns, rfl, fun path => ?_⟩
  rw [Node.items, hitems]
  rfl

end Constructs

private theorem ParseTree.Whole.faithful {rule : Rule} {t : ParseTree} (h : t.Whole rule) :
    Faithful rule t := by
  induction h with
  | token | type => trivial
  | globalVar _ ih | globalFunc _ ih | localVar _ ih | assignStmt _ ih | blockStmt _ ih
  | atomExpr _ ih =>
    obtain ⟨n, ⟨-, hn⟩, hpresent, hitems⟩ := ih
    exact ⟨n, ⟨rfl, hn⟩, hpresent, hitems⟩
  | varDecl _ _ hname _ _ _ _ ih =>
    cases hname
    exact carriedOver_varDecl (carriedOverIfAny ih)
  | funcDecl _ hname _ _ _ _ ihp ihb =>
    cases hname
    exact carriedOver_funcDecl ihp ihb
  | paramList _ ih =>
    obtain ⟨ps, hps, hitems⟩ := params_carriedOver ih
    exact ⟨ps, hps, fun path => hitems path 0⟩
  | param _ hname =>
    cases hname
    exact ⟨_, rfl, fun path => rfl⟩
  | block _ ih => exact carriedOver_block ih
  | ifThen _ _ ihc iht => exact carriedOver_ifThen ihc iht
  | ifElse _ _ _ ihc iht ihe => exact carriedOver_ifElse ihc iht ihe
  | forLoop _ _ _ _ ihi ihc ihu ihb =>
    exact carriedOver_forLoop (carriedOverIfAny ihi) (carriedOverIfAny ihc) (carriedOverIfAny ihu)
      ihb
  | whileLoop _ _ ihc ihb => exact carriedOver_whileLoop ihc ihb
  | ret _ ih =>
    obtain ⟨n, hn, hitems⟩ := carriedOverIfAny ih
    refine ⟨_, ⟨rfl, bind_ok hn _⟩, rfl, fun path => ?_⟩
    rw [Node.items, hitems]
    rfl
  | callStmt _ ih | exprStmt _ ih =>
    obtain ⟨n, ⟨-, hn⟩, -, hitems⟩ := ih
    refine ⟨_, ⟨rfl, bind_ok hn _⟩, rfl, fun path => ?_⟩
    rw [Node.items, hitems]
    rfl
  | assignment hname hop _ _ _ ih =>
    cases hname
    cases hop
    obtain ⟨n, hn, hitems⟩ := carriedOverIfAny ih
    refine ⟨_, ⟨rfl, bind_ok hn _⟩, rfl, fun path => ?_⟩
    rw [Node.items, hitems]
    rfl
  | call hname _ _ ih =>
    cases hname
    exact carriedOver_call ih
  | argList _ ih =>
    obtain ⟨ns, hns⟩ := exists_forall₂ ih
    exact ⟨ns, CarriedOver.ofParts hns, fun path => CarriedOver.itemsEach_eq hns path .arg 0⟩
  | negation _ ih =>
    obtain ⟨n, hn, -, hitems⟩ := ih
    refine ⟨_, hn.negation, rfl, fun path => ?_⟩
    rw [Node.items, hitems]
    rfl
  | binary _ hop _ ihl _ ihr =>
    cases hop
    obtain ⟨l, hl, -, hlitems⟩ := ihl
    obtain ⟨r, hr, -, hritems⟩ := ihr
    refine ⟨_, hl.binary _ hr, rfl, fun path => ?_⟩
    rw [Node.items, hlitems, hritems]
    rfl
  | atomCall _ ih =>
    obtain ⟨n, hn, hpresent, hitems⟩ := ih
    refine ⟨n, hn.atomCall, hpresent, fun path => ?_⟩
    simp [atomPieces, token?, ParseTree.isMissing, hitems]
  | atomName | atomInt | atomFloat | atomString | atomBool =>
    exact ⟨_, ⟨rfl, rfl⟩, rfl, fun path => rfl⟩
  | atomParen _ ih =>
    obtain ⟨n, hn, -, hitems⟩ := ih
    refine ⟨_, hn.atomParen, rfl, fun path => ?_⟩
    simp [atomPieces, token?, hn.1, hitems]

/-- Nothing is lost and nothing is added. A whole tree is built, and in preorder its contexts and
the nodes are the same items: as many, in the same order, each at the same place with the same line,
and with the same names, types, operators and literals. -/
theorem items_ofTree {t : ParseTree} (h : t.IsWhole) :
    ∃ n, Node.ofTree t = .ok n ∧ n.items [] = t.items [] := by
  have hcarried : ∃ n, CarriedOver t n := by
    cases h with
    | program hdecls => exact carriedOver_program fun d hd => (hdecls d hd).faithful
    | @part rule t hrule ht =>
      have hfaithful := ht.faithful
      cases rule with
      | plain kind => cases kind <;> first | exact hfaithful | cases hrule
      | _ => first | exact hfaithful | cases hrule
  obtain ⟨n, ⟨hpresent, hn⟩, -, hitems⟩ := hcarried
  exact ⟨n, (if_neg (by simp [hpresent])).trans hn, hitems []⟩

/-- The function `int f(bool b) { if (b) { f(1); } else { return (b); } for (;;b++) { } }`, whose
statements start on lines of their own. -/
theorem items_ofTree_branches_and_loop :
    let on (line : Int) (text : String) : Extent := ⟨some line, text⟩
    let type (text : String) : ParseTree := .plain (on 1 text) .type [.token text]
    let atom (line : Int) (text : String) (name int inner : ParseTree) : ParseTree :=
      .atomExpr (on line text)
        (.atom (on line text) .missing name int .missing .missing .missing inner)
    let b (line : Int) := atom line "b" (.token "b") .missing .missing
    let call : ParseTree := .callStmt (on 3 "f(1);") (.call (on 3 "f(1)") (.token "f")
      (.argList (on 3 "1") [atom 3 "1" .missing (.token "1") .missing] []))
    let ret : ParseTree := .ret (on 5 "return(b);") (atom 5 "(b)" .missing .missing (b 5))
    let branches : ParseTree :=
      .ifElse (on 2 "") (b 2) [.block (on 2 "") [call], .block (on 4 "") [ret]]
    let loop : ParseTree := .forLoop (on 6 "for(;;b++){}") .missing .missing
      (.assignment (on 6 "b++") (.token "b") (.token "++") .missing) (.block (on 6 "{}") [])
    let params : ParseTree :=
      .paramList (on 1 "boolb") [.param (on 1 "boolb") (type "bool") (.token "b") []] []
    let f : ParseTree := .globalFunc (on 1 "")
      (.funcDecl (on 1 "") (type "int") (.token "f") params (.block (on 1 "") [branches, loop]))
    let tree : ParseTree := .program (on 1 "") [f]
    let item (above below : List Role) (line : Int) (piece : Piece) : Item :=
      ⟨above ++ below, line, piece⟩
    let body : List Role := [.decl 0, .body]
    let taken : List Role := [.decl 0, .body, .statement 0, .thenBranch]
    let other : List Role := [.decl 0, .body, .statement 0, .elseBranch]
    let items : List Item := [
      item [] [] 1 .program, item [] [.decl 0] 1 (.funcDecl "f" (some "int")),
      item [] [.decl 0, .param 0] 1 (.param "b" (some "bool")), item body [] 1 .block,
      item body [.statement 0] 2 .ifElse, item body [.statement 0, .cond] 2 (.identifier "b"),
      item taken [] 2 .block, item taken [.statement 0] 3 .callStmt,
      item taken [.statement 0, .call] 3 (.call "f"),
      item taken [.statement 0, .call, .arg 0] 3 (.literal "int" "1"),
      item other [] 4 .block, item other [.statement 0] 5 .ret,
      item other [.statement 0, .value] 5 .paren,
      item other [.statement 0, .value, .inner] 5 (.identifier "b"),
      item body [.statement 1] 6 .forLoop,
      item body [.statement 1, .update] 6 (.assign "b" "++"),
      item body [.statement 1, .body] 6 .block]
    tree.IsWhole ∧ ∃ n, Node.ofTree tree = .ok n ∧ n.items [] = items := by
  intro on type atom b call ret branches loop params f tree item body taken other items
  have hb : ∀ line, (b line).Whole .expression := fun _ => .atomExpr .atomName
  have hcall : call.Whole .statement :=
    .callStmt (.call .token fun _ => .argList (by simpa using .atomExpr .atomInt))
  have hret : ret.Whole .statement := .ret fun _ => .atomExpr (.atomParen (hb 5))
  have hbranches : branches.Whole .statement :=
    .ifElse (hb 2) (.block (by simpa using hcall)) (.block (by simpa using hret))
  have hloop : loop.Whole .statement :=
    .forLoop nofun nofun (fun _ => .assignment .token .token nofun) (.block (by simp))
  have hparams : params.Whole .params := .paramList (by simpa using .param .type .token)
  have hbody : ParseTree.Whole .block (.block (on 1 "") [branches, loop]) :=
    .block (by simpa using ⟨hbranches, hloop⟩)
  have hf : f.Whole .globalDecl :=
    .globalFunc (.funcDecl (fun _ => .type) .token (fun _ => hparams) hbody)
  have htree : tree.IsWhole := .program (by simpa using hf)
  obtain ⟨n, hn, hitems⟩ := items_ofTree htree
  exact ⟨htree, n, hn, hitems⟩

end MiniCheck
