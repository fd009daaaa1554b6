import MiniCheck.Proofs.Visits
import MiniCheck.Proofs.WholeTrees

/-!
# The text of an initializer

A variable keeps the text of its initializer. It is the text of the parse tree where the builder
kept that one, and otherwise it is written anew from the syntax tree. For a whole expression the two
are the same.
-/

namespace MiniCheck

namespace ParseTree

/-- The text that a tree adds to the text of a context around it. -/
def text (t : ParseTree) : String := t.text?.getD ""

@[simp] theorem text_missing : text missing = "" := rfl

@[simp] theorem text_token (s : String) : text (token s) = s := rfl

mutual

/-- Every context of an expression has the texts of its children, one after the other. -/
def Spelled : ParseTree → Prop
  | call e name args => e.text = name.text ++ "(" ++ args.text ++ ")" ∧ args.Spelled
  | argList e args _ => e.text = String.join ((args.map text).intersperse ",") ∧ AllSpelled args
  | negation e inner => e.text = "!" ++ inner.text ∧ inner.Spelled
  | binary e left op right =>
      e.text = left.text ++ op.text ++ right.text ∧ left.Spelled ∧ right.Spelled
  | atomExpr e inner => e.text = inner.text ∧ inner.Spelled
  | atom e callee name int float string bool inner =>
      e.text = callee.text ++ name.text ++ int.text ++ float.text ++ string.text ++ bool.text ++
        (if inner.isMissing then "" else "(" ++ inner.text ++ ")") ∧
      callee.Spelled ∧ inner.Spelled
  | _ => True

def AllSpelled : List ParseTree → Prop
  | [] => True
  | t :: ts => t.Spelled ∧ AllSpelled ts

end

private theorem allSpelled_iff {ts : List ParseTree} : AllSpelled ts ↔ ∀ t ∈ ts, t.Spelled := by
  induction ts with
  | nil => simp [AllSpelled]
  | cons t ts ih => simp [AllSpelled, ih]

end ParseTree

open ParseTree Node

/-- The tree gives an expression, which is written as the tree is. -/
def WrittenAlike (t : ParseTree) (n : Node) : Prop :=
  GivesNode t n ∧ n.IsExpr ∧ n.isMissing = false ∧ n.exprText = .ok t.text

section Constructs

variable {e : Extent}

private theorem writtenAlike_negation {inner : ParseTree} {n : Node} (h : WrittenAlike inner n)
    (hs : e.text = "!" ++ inner.text) :
    WrittenAlike (.negation e inner) (.negation e.line n) := by
  obtain ⟨hn, he, -, htext⟩ := h
  refine ⟨hn.negation, .negation he, rfl, ?_⟩
  rw [exprText, bind_ok htext, ← hs]
  rfl

private theorem writtenAlike_binary {left right : ParseTree} {l r : Node} {op : String}
    (hl : WrittenAlike left l) (hr : WrittenAlike right r)
    (hs : e.text = left.text ++ op ++ right.text) :
    WrittenAlike (.binary e left (.token op) right) (.binary e.line op l r) := by
  obtain ⟨hln, hle, -, hlt⟩ := hl
  obtain ⟨hrn, hre, -, hrt⟩ := hr
  refine ⟨hln.binary op hrn, .binary hle hre, rfl, ?_⟩
  rw [exprText, bind_ok hlt, bind_ok hrt, ← hs]
  rfl

private theorem writtenAlike_paren {inner : ParseTree} {n : Node} (h : WrittenAlike inner n)
    (hs : e.text = "(" ++ inner.text ++ ")") :
    WrittenAlike (.atom e .missing .missing .missing .missing .missing .missing inner)
      (.paren e.line n) := by
  obtain ⟨hn, he, -, htext⟩ := h
  refine ⟨hn.atomParen, .paren he, rfl, ?_⟩
  rw [exprText, bind_ok htext, ← hs]
  rfl

private theorem writtenAlike_literal {t : ParseTree} {line : Int} {kind text : String}
    (h : GivesNode t (.literal line kind text)) (hs : t.text = text) :
    WrittenAlike t (.literal line kind text) :=
  ⟨h, .literal, rfl, congrArg _ hs.symm⟩

private theorem exprTexts_of_writtenAlike {ts : List ParseTree} {ns : List Node}
    (h : List.Forall₂ WrittenAlike ts ns) : exprTexts ns = .ok (ts.map ParseTree.text) := by
  induction h with
  | nil => rfl
  | cons hn _ ih =>
    rw [exprTexts, bind_ok hn.2.2.2, bind_ok ih]
    rfl

private theorem isExpr_of_writtenAlike {ts : List ParseTree} {ns : List Node}
    (h : List.Forall₂ WrittenAlike ts ns) : ∀ n ∈ ns, n.IsExpr := by
  induction h with
  | nil => simp
  | cons hn _ ih => exact List.forall_mem_cons.mpr ⟨hn.2.1, ih⟩

/-- The arguments give expressions, which are written as the list is. -/
def ArgsWrittenAlike (t : ParseTree) (ns : List Node) : Prop :=
  ofArgs t = .ok ns ∧ (∀ n ∈ ns, n.IsExpr) ∧
    ∃ texts, exprTexts ns = .ok texts ∧ ",".intercalate texts = t.text

private theorem argsWrittenAlike_missing : ArgsWrittenAlike .missing [] :=
  ⟨rfl, by simp, [], rfl, by simp [ParseTree.text, text?]⟩

private theorem argsWrittenAlike_argList {args children : List ParseTree} {ns : List Node}
    (h : List.Forall₂ WrittenAlike args ns)
    (hs : e.text = String.join ((args.map ParseTree.text).intersperse ",")) :
    ArgsWrittenAlike (.argList e args children) ns := by
  have hgives : List.Forall₂ GivesNode args ns := h.imp fun _ _ hn => hn.1
  refine ⟨ofParts_of_givesNode hgives, isExpr_of_writtenAlike h, _, exprTexts_of_writtenAlike h, ?_⟩
  rw [intercalate_eq_join, ← hs]
  rfl

private theorem writtenAlike_call {args : ParseTree} {ns : List Node} {name : String}
    (h : ArgsWrittenAlike args ns) (hs : e.text = name ++ "(" ++ args.text ++ ")") :
    WrittenAlike (.call e (.token name) args) (.call e.line name ns) := by
  obtain ⟨hns, hexprs, texts, htexts, htext⟩ := h
  refine ⟨.call name hns, .call hexprs, rfl, ?_⟩
  rw [exprText, bind_ok htexts, htext, ← hs]
  rfl

end Constructs

/-- What the builder makes of the trees of an expression. -/
def Legible : Rule → ParseTree → Prop
  | .expression, t | .atom, t | .call, t => ∃ n, WrittenAlike t n
  | .args, t => ∃ ns, ArgsWrittenAlike t ns
  | _, _ => True

private theorem ParseTree.Whole.legible {rule : Rule} {t : ParseTree} (h : t.Whole rule)
    (hs : t.Spelled) : Legible rule t := by
  induction h with
  | call hname _ _ ih =>
    cases hname
    have hlegible : ∃ ns, ArgsWrittenAlike _ ns :=
      Whole.optional (P := fun t => t.Spelled → ∃ ns, ArgsWrittenAlike t ns)
        (fun _ => ⟨[], argsWrittenAlike_missing⟩) (fun hm h => ih hm h) hs.2
    obtain ⟨ns, hns⟩ := hlegible
    exact ⟨_, writtenAlike_call hns hs.1⟩
  | argList _ ih =>
    obtain ⟨ns, hns⟩ := exists_forall₂ fun a ha => ih a ha (allSpelled_iff.mp hs.2 a ha)
    exact ⟨ns, argsWrittenAlike_argList hns hs.1⟩
  | negation _ ih =>
    obtain ⟨n, hn⟩ := ih hs.2
    exact ⟨_, writtenAlike_negation hn hs.1⟩
  | binary _ hop _ ihl _ ihr =>
    cases hop
    obtain ⟨l, hl⟩ := ihl hs.2.1
    obtain ⟨r, hr⟩ := ihr hs.2.2
    exact ⟨_, writtenAlike_binary hl hr hs.1⟩
  | atomExpr _ ih =>
    obtain ⟨n, hn, he, hp, htext⟩ := ih hs.2
    exact ⟨n, ⟨rfl, hn.2⟩, he, hp, htext.trans (congrArg _ hs.1.symm)⟩
  | @atomCall e callee _ ih =>
    have hcallee : e.text = callee.text := by simpa [ParseTree.isMissing] using hs.1
    obtain ⟨n, hn, he, hp, htext⟩ := ih hs.2.1
    exact ⟨n, hn.atomCall, he, hp, htext.trans (congrArg _ hcallee.symm)⟩
  | @atomName e s =>
    have hname : e.text = s := by simpa [ParseTree.isMissing] using hs.1
    exact ⟨.identifier e.line s, ⟨rfl, rfl⟩, .identifier, rfl, congrArg _ hname.symm⟩
  | @atomInt e s | @atomFloat e s | @atomString e s | @atomBool e s =>
    have hspelled : e.text = s := by simpa [ParseTree.isMissing] using hs.1
    exact ⟨_, writtenAlike_literal ⟨rfl, rfl⟩ hspelled⟩
  | atomParen hinner ih =>
    obtain ⟨n, hn⟩ := ih hs.2.2
    refine ⟨_, writtenAlike_paren hn ?_⟩
    simpa [hinner.isMissing_eq] using hs.1
  | _ => trivial

section Stored

variable {n : Node} {text : String}

/-- The visit of a declaration does not tell the two texts apart. -/
theorem visit_initText (htext : n.exprText = .ok text) (fn : Option FunctionId) (line : Int)
    (name : String) (typeText : Option String) (isConst : Bool) :
    visit fn (.varDecl line name typeText isConst n (some text)) =
      visit fn (.varDecl line name typeText isConst n none) := by
  have hsame : Check.initTextOf n (some text) = Check.initTextOf n none := htext.symm
  simp only [visit, Check.variableDecl, Check.initializer, hsame]

/-- Where a visit leaves the variable: in the scope if the name was free there, and always in the
list of the function around. -/
theorem visit_keeps_initText (he : n.IsExpr) (hp : n.isMissing = false)
    (htext : n.exprText = .ok text) (fn : Option FunctionId) (line : Int) (name : String)
    (typeText : Option String) (isConst : Bool) (t : Table) :
    ∃ u fs type, (visit fn (.varDecl line name typeText isConst n none)).Returns t u fs type ∧
      ∃ v : Variable, v.name = name ∧ v.initText = some text ∧
        (t.resolveHere name = none → u.resolveHere name = some (.variable v)) ∧
        ∀ f, u.around fn = some f → f.locals.getLast? = some v := by
  have hdeclared : (Node.varDecl line name typeText isConst n none).declared? =
      some ⟨name, Ty.ofText typeText, line, isConst, some text⟩ := by
    simp [declared?, hp, Check.initTextOf, htext, Except.toOption]
  obtain ⟨fs, type, b, hvisit⟩ := visit_stmt (.varDecl he) fn t
  refine ⟨_, fs, type, hvisit, ⟨name, Ty.ofText typeText, line, isConst, some text⟩, rfl, rfl,
    ?_, ?_⟩
  · intro hfree
    have hnew : t.current.contains name = false := by
      rw [NameMap.contains, ← Table.resolveHere, hfree]
      rfl
    rw [Table.resolveHere, Table.current_collect]
    simp only [Table.declaring, hdeclared, Table.defineVariable, hnew]
    exact (NameMap.find?_push ..).trans (by simp [show t.current.find? name = none from hfree])
  · intro f hf
    rw [Table.around_collect] at hf
    obtain ⟨g, -, rfl⟩ := Option.map_eq_some_iff.mp hf
    simp [Function.collect, Node.notes, hdeclared]

end Stored

/-- The text of an initializer has one meaning. A whole expression gives a node that is written as
the tree is. Hence it does not matter for the visit of a declaration whether the text of the tree
was kept, and from every table the visit leaves a variable with that text. -/
theorem initializer_text_agrees {init : ParseTree} (h : init.Whole .expression)
    (hs : init.Spelled) :
    ∃ n text, ofPart init = .ok n ∧ n.IsExpr ∧ n.isMissing = false ∧
      init.text? = some text ∧ n.exprText = .ok text ∧
      ∀ (e : Extent) (const type name : ParseTree),
        let decl (initText : Option String) : Node :=
          .varDecl e.line name.text type.text? (!const.isMissing) n initText
        ofPart (.varDecl e const type name init) = .ok (decl (some text)) ∧
        ∀ fn, visit fn (decl (some text)) = visit fn (decl none) ∧
          ∀ t, ∃ u fs ty, (visit fn (decl (some text))).Returns t u fs ty ∧
            ∃ v : Variable, v.name = name.text ∧ v.initText = some text ∧
              (t.resolveHere v.name = none → u.resolveHere v.name = some (.variable v)) ∧
              ∀ f, u.around fn = some f → f.locals.getLast? = some v := by
  obtain ⟨n, ⟨hp, hn⟩, he, hpn, htext⟩ := h.legible hs
  have hinit : init.text? = some init.text := by
    cases init <;> first | rfl | cases hp
  refine ⟨n, init.text, hn, he, hpn, hinit, htext, ?_⟩
  intro e const type name decl
  refine ⟨?_, fun fn => ?_⟩
  · rw [ofPart, bind_ok hn, hinit]
    rfl
  · have hsame : visit fn (decl (some init.text)) = visit fn (decl none) :=
      visit_initText htext fn ..
    refine ⟨hsame, fun t => ?_⟩
    obtain ⟨u, fs, ty, hvisit, v, hname, hv, hscope, hlocals⟩ :=
      visit_keeps_initText he hpn htext fn e.line name.text type.text? (!const.isMissing) t
    rw [hsame]
    exact ⟨u, fs, ty, hvisit, v, hname, hv, hname ▸ hscope, hlocals⟩

/-- The initializer of `int x = f(1,!(y+2));`. -/
theorem initializer_text_agrees_nested_call :
    let expr (text : String) (callee name int inner : ParseTree) : ParseTree :=
      .atomExpr ⟨some 1, text⟩
        (.atom ⟨some 1, text⟩ callee name int .missing .missing .missing inner)
    let one := expr "1" .missing .missing (.token "1") .missing
    let two := expr "2" .missing .missing (.token "2") .missing
    let y := expr "y" .missing (.token "y") .missing .missing
    let sum : ParseTree := .binary ⟨some 1, "y+2"⟩ y (.token "+") two
    let negated : ParseTree :=
      .negation ⟨some 1, "!(y+2)"⟩ (expr "(y+2)" .missing .missing .missing sum)
    let args : ParseTree := .argList ⟨some 1, "1,!(y+2)"⟩ [one, negated] []
    let init := expr "f(1,!(y+2))" (.call ⟨some 1, "f(1,!(y+2))"⟩ (.token "f") args)
      .missing .missing .missing
    init.Whole .expression ∧ init.Spelled ∧
      ∃ n, ofPart init = .ok n ∧ n.exprText = .ok "f(1,!(y+2))" := by
  intro expr one two y sum negated args init
  have hsum : sum.Whole .expression :=
    .binary (.atomExpr .atomName) .token (.atomExpr .atomInt)
  have hnegated : negated.Whole .expression := .negation (.atomExpr (.atomParen hsum))
  have hone : one.Whole .expression := .atomExpr .atomInt
  have hargs : args.Whole .args := .argList (by simpa using ⟨hone, hnegated⟩)
  have hwhole : init.Whole .expression := .atomExpr (.atomCall (.call .token fun _ => hargs))
  have hspelled : init.Spelled := by
    simp [init, args, negated, sum, y, two, one, expr, Spelled, AllSpelled, ParseTree.text, text?,
      ParseTree.isMissing, extent?]
  obtain ⟨n, text, hn, -, -, htext, hexpr, -⟩ := initializer_text_agrees hwhole hspelled
  cases htext
  exact ⟨hwhole, hspelled, n, hn, hexpr⟩

end MiniCheck
