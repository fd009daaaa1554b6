import MiniCheck.Proofs.Lists
import MiniCheck.Proofs.Lookups
import MiniCheck.Proofs.Outline

/-!
# Programs that lose expressions

A parser that recovers from errors loses subtrees. The analysis of a program that lost expressions
finds nothing that it does not find in the whole program, since the type of a lost expression is
unknown and every check accepts it. If only names were lost that are not declared, then only the
findings about these names go.
-/

namespace MiniCheck

open Pass Node Lookup

/-- The second expression is the first one with some subtrees lost. -/
inductive ExprLoss : Node → Node → Prop
  | lost {e} : e.IsExpr → ExprLoss e .missing
  | literal {line kind text} : ExprLoss (.literal line kind text) (.literal line kind text)
  | identifier {line name} : ExprLoss (.identifier line name) (.identifier line name)
  | paren {line inner inner'} :
      ExprLoss inner inner' → ExprLoss (.paren line inner) (.paren line inner')
  | negation {line inner inner'} :
      ExprLoss inner inner' → ExprLoss (.negation line inner) (.negation line inner')
  | binary {line op left right left' right'} :
      ExprLoss left left' → ExprLoss right right' →
      ExprLoss (.binary line op left right) (.binary line op left' right')
  | call {line name args args'} :
      List.Forall₂ ExprLoss args args' → ExprLoss (.call line name args) (.call line name args')

/-- Expressions of a statement are lost. The whole value of a return statement and the whole
initializer of a constant stay. -/
inductive StmtLoss : Node → Node → Prop
  | expr {e e'} : e.IsExpr → ExprLoss e e' → StmtLoss e e'
  | varDecl {line name typeText isConst init init' initText} :
      ExprLoss init init' → (isConst = true → init'.isMissing = init.isMissing) →
      StmtLoss (.varDecl line name typeText isConst init initText)
        (.varDecl line name typeText isConst init' initText)
  | assign {line name op value value'} :
      ExprLoss value value' → StmtLoss (.assign line name op value) (.assign line name op value')
  | ifElse {line cond cond' a a' b b'} :
      ExprLoss cond cond' → StmtLoss a a' → StmtLoss b b' →
      StmtLoss (.ifElse line cond a b) (.ifElse line cond' a' b')
  | forLoop {line init init' cond cond' update update' body body'} :
      StmtLoss init init' → ExprLoss cond cond' → StmtLoss update update' → StmtLoss body body' →
      StmtLoss (.forLoop line init cond update body) (.forLoop line init' cond' update' body')
  | whileLoop {line cond cond' body body'} :
      ExprLoss cond cond' → StmtLoss body body' →
      StmtLoss (.whileLoop line cond body) (.whileLoop line cond' body')
  | ret {line value value'} :
      ExprLoss value value' → value'.isMissing = value.isMissing →
      StmtLoss (.ret line value) (.ret line value')
  | exprStmt {line e e'} : ExprLoss e e' → StmtLoss (.exprStmt line e) (.exprStmt line e')
  | callStmt {line e e'} : ExprLoss e e' → StmtLoss (.callStmt line e) (.callStmt line e')
  | block {line statements statements'} :
      List.Forall₂ StmtLoss statements statements' →
      StmtLoss (.block line statements) (.block line statements')

inductive DeclLoss : Node → Node → Prop
  | stmt {s s'} : StmtLoss s s' → DeclLoss s s'
  | funcDecl {line name returnText params body body'} :
      StmtLoss body body' →
      DeclLoss (.funcDecl line name returnText params body)
        (.funcDecl line name returnText params body')

inductive ProgramLoss : Node → Node → Prop
  | program {line decls decls'} :
      List.Forall₂ DeclLoss decls decls' → ProgramLoss (.program line decls) (.program line decls')

private theorem ExprLoss.isExpr {e e' : Node} (he : e.IsExpr) (h : ExprLoss e e') : e'.IsExpr := by
  induction he generalizing e' with
  | missing => cases h; exact .missing
  | literal => cases h with
    | lost => exact .missing
    | literal => exact .literal
  | identifier => cases h with
    | lost => exact .missing
    | identifier => exact .identifier
  | paren _ ih => cases h with
    | lost => exact .missing
    | paren h => exact .paren (ih h)
  | negation _ ih => cases h with
    | lost => exact .missing
    | negation h => exact .negation (ih h)
  | binary _ _ ihl ihr => cases h with
    | lost => exact .missing
    | binary hl hr => exact .binary (ihl hl) (ihr hr)
  | call ha ih => cases h with
    | lost => exact .missing
    | call h => exact .call (forall_right h ha fun a hm a' hr _ => ih a hm hr)

private theorem StmtLoss.isBody {s s' : Node} (hb : s.isBody) (h : StmtLoss s s') : s'.isBody := by
  cases h with
  | expr _ h =>
    cases h with
    | lost => rfl
    | _ => simp [Node.isBody] at hb
  | block => rfl
  | _ => simp [Node.isBody] at hb

private theorem StmtLoss.isUpdate {s s' : Node} (hb : s.isUpdate) (h : StmtLoss s s') :
    s'.isUpdate := by
  cases h with
  | expr _ h =>
    cases h with
    | lost => rfl
    | _ => simp [Node.isUpdate] at hb
  | assign => rfl
  | _ => simp [Node.isUpdate] at hb

private theorem StmtLoss.isStmt {s s' : Node} (hs : s.IsStmt) (h : StmtLoss s s') : s'.IsStmt := by
  induction hs generalizing s' with
  | expr he =>
    cases h with
    | expr _ h => exact .expr (h.isExpr he)
    | _ => cases he
  | varDecl hi =>
    cases h with
    | expr he => cases he
    | varDecl h => exact .varDecl (h.isExpr hi)
  | assign hv =>
    cases h with
    | expr he => cases he
    | assign h => exact .assign (h.isExpr hv)
  | ifElse hc _ ha _ hb iha ihb =>
    cases h with
    | expr he => cases he
    | ifElse h h₁ h₂ => exact .ifElse (h.isExpr hc) (iha h₁) (h₁.isBody ha) (ihb h₂) (h₂.isBody hb)
  | forLoop _ hi hc _ hu _ hb ihi ihu ihb =>
    cases h with
    | expr he => cases he
    | forLoop h₁ h h₂ h₃ =>
      exact .forLoop (ihi h₁) (h₁.isUpdate hi) (h.isExpr hc) (ihu h₂) (h₂.isUpdate hu) (ihb h₃)
        (h₃.isBody hb)
  | whileLoop hc _ hb ihb =>
    cases h with
    | expr he => cases he
    | whileLoop h h₁ => exact .whileLoop (h.isExpr hc) (ihb h₁) (h₁.isBody hb)
  | ret hv =>
    cases h with
    | expr he => cases he
    | ret h => exact .ret (h.isExpr hv)
  | exprStmt he =>
    cases h with
    | expr he => cases he
    | exprStmt h => exact .exprStmt (h.isExpr he)
  | callStmt he =>
    cases h with
    | expr he => cases he
    | callStmt h => exact .callStmt (h.isExpr he)
  | block hs ih =>
    cases h with
    | expr he => cases he
    | block h => exact .block (forall_right h hs fun s hm s' hr _ => ih s hm hr)

private theorem StmtLoss.hasReturn {s s' : Node} (hs : s.IsStmt) (h : StmtLoss s s') :
    s.notes.hasReturn = s'.notes.hasReturn := by
  induction hs generalizing s' with
  | expr he =>
    cases h with
    | expr _ h => rw [he.notes, (h.isExpr he).notes]
    | _ => cases he
  | ifElse _ _ _ _ _ iha ihb =>
    cases h with
    | expr he => cases he
    | ifElse _ h₁ h₂ => simp [Node.notes, Notes.append_def, iha h₁, ihb h₂]
  | forLoop _ _ _ _ _ _ _ ihi ihu ihb =>
    cases h with
    | expr he => cases he
    | forLoop h₁ _ h₂ h₃ => simp [Node.notes, Notes.append_def, ihi h₁, ihu h₂, ihb h₃]
  | whileLoop _ _ _ ihb =>
    cases h with
    | expr he => cases he
    | whileLoop _ h₁ => simp [Node.notes, Notes.append_def, ihb h₁]
  | block hs ih =>
    cases h with
    | expr he => cases he
    | block h =>
      simp only [Node.notes]
      clear hs
      induction h with
      | nil => rfl
      | cons hr _ ihs =>
        simp [notesAll, Notes.append_def, ih _ (by simp) hr,
          ihs fun s hm s' hr => ih s (by simp [hm]) hr]
  | _ =>
    cases h with
    | expr he => cases he
    | _ => rfl

private theorem DeclLoss.isDecl {d d' : Node} (hd : d.IsDecl) (h : DeclLoss d d') : d'.IsDecl := by
  cases hd with
  | varDecl hi =>
    cases h with
    | stmt h =>
      cases h with
      | expr he => cases he
      | varDecl h => exact .varDecl (h.isExpr hi)
  | funcDecl hs hb =>
    cases h with
    | stmt h =>
      cases h with
      | expr he => cases he
    | funcDecl h => exact .funcDecl (h.isStmt hs) (h.isBody hb)

def Node.lostAt (n : Node) (path : List Nat) : Bool := (n.node? path).any Node.isMissing

/-- The findings about names that are not declared and whose positions are lost in `n'`. -/
def lostFindings (n' : Node) (ls : List Lookup) : List Finding :=
  (ls.filter fun l => n'.lostAt l.path).filterMap finding?

def Use.isValue : Use → Bool
  | .value .. => true
  | .target .. => false

/-- Whatever `n` has and `n'` lost is a name used as a value that is looked up in vain. -/
def OnlyUndeclared (n n' : Node) (ls : List Lookup) : Prop :=
  ∀ path m, n.node? path = some m → m.isMissing = false → n'.lostAt path = true →
    ∃ l ∈ ls, l.path = path ∧ l.use.isValue = true ∧ l.symbol = none

private theorem node?_cons {n c : Node} {i : Nat} (hc : n.children[i]? = some c)
    (path : List Nat) : n.node? (i :: path) = c.node? path := by
  rw [Node.node?, hc, Option.bind_some]

private theorem lostAt_cons {n c : Node} {i : Nat} (hc : n.children[i]? = some c)
    (path : List Nat) : n.lostAt (i :: path) = c.lostAt path := by
  rw [Node.lostAt, node?_cons hc, Node.lostAt]

private theorem OnlyUndeclared.child {n n' c c' : Node} {i : Nat} {ls : List (List Lookup)}
    {part : List Lookup} (h : OnlyUndeclared n n' (join ls)) (hi : ls[i]? = some part)
    (hc : n.children[i]? = some c) (hc' : n'.children[i]? = some c') :
    OnlyUndeclared c c' part := by
  intro path m hm hmissing hlost
  obtain ⟨l, hl, hp, hu, hs⟩ := h (i :: path) m (by rwa [node?_cons hc]) hmissing
    (by rwa [lostAt_cons hc'])
  obtain ⟨j, part', k, hj, hk, rfl⟩ := mem_join_iff.mp hl
  obtain ⟨rfl, rfl⟩ := List.cons.inj hp
  rw [hi] at hj
  cases hj
  exact ⟨k, hk, rfl, hu, hs⟩

private theorem lostFindings_under {n' c' : Node} {i : Nat} (hc : n'.children[i]? = some c')
    (part : List Lookup) :
    lostFindings n' (part.map (Lookup.under i)) = lostFindings c' part := by
  have hp : (fun l : Lookup => n'.lostAt (Lookup.under i l).path) = fun l => c'.lostAt l.path :=
    funext fun l => lostAt_cons hc l.path
  rw [lostFindings, List.filter_map, List.filterMap_map]
  exact congrArg (fun p => (part.filter p).filterMap finding?) hp

/-- What is lost of a node is lost of its parts. -/
theorem lostFindings_join {n' : Node} {ls : List (List Lookup)}
    (h : ls.length = n'.children.length) :
    lostFindings n' (join ls) = (List.zipWith lostFindings n'.children ls).flatten := by
  have hparts : ls.zipIdx.map (fun part => lostFindings n' (part.1.map (Lookup.under part.2))) =
      List.zipWith lostFindings n'.children ls := by
    apply List.ext_getElem (by simp [h])
    intro i hi _
    have hlt : i < n'.children.length := by simpa [h] using hi
    simp [lostFindings_under (List.getElem?_eq_getElem hlt)]
  rw [← hparts, lostFindings, join, joinUnder, List.filter_flatMap, List.filterMap_flatMap,
    List.flatMap_def]
  rfl

/-- The findings `gs` are `fs` without some; under `H` exactly `lost` are gone. -/
structure Fewer (H : Prop) (lost fs gs : List Finding) : Prop where
  sublist : gs.Sublist fs
  exact : H → fs.Perm (gs ++ lost)

/-- The type `type'` is the same or unknown, and under `H` it is the same. -/
structure Faded (H : Prop) (type type' : Ty) : Prop where
  same_or_unknown : type' = type ∨ type' = .unknown
  exact : H → type' = type

def Table.isMarked (t : Table) (fn : Option FunctionId) : Bool := (t.around fn).any (·.isRecursive)

/-- The tables are alike, and the second has no mark of recursion that the first has not. -/
structure Table.Follows (H : Prop) (fn : Option FunctionId) (t t' : Table) : Prop where
  alike : t.Alike t'
  marked : t'.isMarked fn = true → t.isMarked fn = true
  exact : H → t'.isMarked fn = t.isMarked fn

private theorem Fewer.same (H : Prop) (fs : List Finding) : Fewer H [] fs fs :=
  ⟨.refl _, fun _ => by simp⟩

private theorem Fewer.append {H : Prop} {l₁ l₂ f₁ f₂ g₁ g₂ : List Finding} (h₁ : Fewer H l₁ f₁ g₁)
    (h₂ : Fewer H l₂ f₂ g₂) : Fewer H (l₁ ++ l₂) (f₁ ++ f₂) (g₁ ++ g₂) := by
  refine ⟨h₁.sublist.append h₂.sublist, fun h => ?_⟩
  have hp := (h₁.exact h).append (h₂.exact h)
  refine hp.trans ?_
  rw [List.append_assoc, List.append_assoc]
  refine List.Perm.append_left g₁ ?_
  rw [← List.append_assoc, ← List.append_assoc]
  exact List.Perm.append_right l₂ List.perm_append_comm

private theorem Fewer.ite {H p q : Prop} [Decidable p] [Decidable q] (h : q → p) (he : H → (q ↔ p))
    {fs : List Finding} : Fewer H [] (if p then fs else []) (if q then fs else []) := by
  refine ⟨?_, fun hyes => by simp only [he hyes, List.append_nil]; rfl⟩
  by_cases hq : q
  · rw [if_pos hq, if_pos (h hq)]
  · rw [if_neg hq]
    exact List.nil_sublist _

private theorem Faded.same (H : Prop) (type : Ty) : Faded H type type := ⟨.inl rfl, fun _ => rfl⟩

private theorem Table.isMarked_collect (t : Table) (fn : Option FunctionId) (n : Notes) (b : Bool) :
    (t.collect fn n b).isMarked fn = (t.isMarked fn || ((t.around fn).isSome && b)) := by
  rw [isMarked, around_collect, isMarked]
  cases t.around fn <;> simp [Function.collect]

private theorem Table.Follows.collect {H : Prop} {fn : Option FunctionId} {t t' : Table}
    (h : t.Follows H fn t') {m n : Notes} (hr : m.hasReturn = n.hasReturn) {a b : Bool}
    (hab : b = true → a = true) (he : H → b = a) :
    (t.collect fn m a).Follows H fn (t'.collect fn n b) := by
  have hs : (t.around fn).isSome = (t'.around fn).isSome := by
    obtain ⟨ht, hu⟩ | ⟨f, g, ht, hu, -⟩ := h.alike.around_cases fn <;> simp [ht, hu]
  refine ⟨h.alike.collect fn a b hr, ?_, fun hH => ?_⟩
  · simp only [isMarked_collect, hs, Bool.or_eq_true, Bool.and_eq_true]
    exact Or.imp h.marked (And.imp_right hab)
  · rw [isMarked_collect, isMarked_collect, hs, h.exact hH, he hH]

private theorem Faded.mismatch {H : Prop} {got got' : Ty} (h : Faded H got got') (line : Int)
    (target : Ty) (v : Ty → Violation) :
    Fewer H [] (Check.mismatch line target got (v got))
      (Check.mismatch line target got' (v got')) := by
  rcases h.same_or_unknown with rfl | rfl
  · exact .same _ _
  · refine ⟨?_, fun hH => ?_⟩
    · rw [Check.mismatch, if_pos (Ty.accepts_unknown target)]
      exact List.nil_sublist _
    · rw [h.exact hH, List.append_nil]

private theorem Faded.join {H : Prop} {l l' r r' : Ty} (hl : Faded H l l') (hr : Faded H r r') :
    Faded H (l.join r) (l'.join r') := by
  refine ⟨?_, fun hH => by rw [hl.exact hH, hr.exact hH]⟩
  rcases hl.same_or_unknown with rfl | rfl
  · rcases hr.same_or_unknown with rfl | rfl
    · exact .inl rfl
    · exact .inr (Ty.join_unknown _)
  · exact .inr (Ty.unknown_join _)

/-- Runs over a node and over what remains of it, from tables that follow one another. -/
def Simulated (H : Prop) (fn : Option FunctionId) (n n' : Node) : Prop :=
  ∀ ⦃t u t' u' : Table⦄ ⦃fs gs : List Finding⦄ ⦃type type' : Ty⦄, t.Follows H fn t' →
    (H → OnlyUndeclared n n' (n.lookups fn t)) → (visit fn n).Returns t u fs type →
    (visit fn n').Returns t' u' gs type' →
    u.Follows H fn u' ∧ Fewer H (lostFindings n' (n.lookups fn t)) fs gs ∧ Faded H type type'

section

variable {H : Prop} {fn : Option FunctionId}

private theorem identifier_of_root {e : Node} {t : Table} {l : Lookup} (he : e.IsExpr)
    (hl : l ∈ e.lookups fn t) (hp : l.path = []) :
    ∃ line name, e = .identifier line name ∧ l = ⟨[], .value line name, t⟩ := by
  obtain ⟨v, hv, hu, ht⟩ := mem_lookups_iff.mp hl
  obtain ⟨path, use, table⟩ := l
  have hroot : (⟨path, v⟩ : Arrival) = ⟨[], ⟨fn, e, t⟩⟩ :=
    Visit.eq_of_path_eq hv (Visit.mem_trail_iff.mpr (.inl rfl)) hp
  cases hroot
  cases ht
  cases he with
  | identifier =>
    cases hu
    exact ⟨_, _, rfl, rfl⟩
  | _ => cases hu

private theorem simulated_lost {e : Node} (he : e.IsExpr) : Simulated H fn e .missing := by
  intro t u t' u' fs gs type type' hF hH h h'
  obtain ⟨rfl, rfl, rfl⟩ := h'.of_missing
  have hexact : H → u.isMarked fn = t.isMarked fn ∧
      fs = lostFindings .missing (e.lookups fn t) ∧ type = .unknown := by
    intro hyes
    cases hm : e.isMissing with
    | true =>
      obtain rfl := eq_missing_of_isMissing hm
      obtain ⟨rfl, rfl, rfl⟩ := h.of_missing
      exact ⟨rfl, rfl, rfl⟩
    | false =>
      obtain ⟨l, hl, hp, -, hs⟩ := hH hyes [] e rfl hm rfl
      obtain ⟨line, name, rfl, rfl⟩ := identifier_of_root he hl hp
      obtain ⟨rfl, rfl, rfl⟩ := h.of_identifier
      have hs : u.resolve name = none := hs
      have hlost : lostFindings .missing ((Node.identifier line name).lookups fn u) =
          [(⟨[], .value line name, u⟩ : Lookup)].filterMap finding? := rfl
      refine ⟨rfl, ?_, by simp [Table.typeOf, hs]⟩
      rw [hlost]
      simp [Check.undeclared, hs, finding?, Lookup.symbol, Use.name, Use.finding]
  obtain ⟨b, rfl⟩ := h.of_expr he
  refine ⟨⟨?_, ?_, fun hyes => ?_⟩, ⟨List.nil_sublist _, fun hyes => ?_⟩,
    ⟨.inr rfl, fun hyes => (hexact hyes).2.2.symm⟩⟩
  · have ha := hF.alike.collect fn b false (m := .none) (n := .none) rfl
    rwa [Table.collect_none] at ha
  · rw [Table.isMarked_collect, Bool.or_eq_true]
    exact fun hm => .inl (hF.marked hm)
  · rw [(hexact hyes).1, hF.exact hyes]
  · rw [(hexact hyes).2.1, List.nil_append]

private theorem simulated_identifier (line : Int) (name : String) :
    Simulated H fn (.identifier line name) (.identifier line name) := by
  intro t u t' u' fs gs type type' hF _ h h'
  obtain ⟨rfl, rfl, rfl⟩ := h.of_identifier
  obtain ⟨rfl, rfl, rfl⟩ := h'.of_identifier
  rw [Check.undeclared_alike hF.alike, hF.alike.typeOf]
  exact ⟨hF, .same _ _, .same _ _⟩

private theorem Simulated.only {n n' c c' : Node} (hs : Simulated H fn c c')
    (hc : n.children = [c]) (hc' : n'.children = [c']) {t u t' u' : Table}
    {fs gs : List Finding} {type type' : Ty} (hF : t.Follows H fn t')
    (hH : H → OnlyUndeclared n n' (join (lookupsEach fn [c] t)))
    (h : (visit fn c).Returns t u fs type) (h' : (visit fn c').Returns t' u' gs type') :
    u.Follows H fn u' ∧ Fewer H (lostFindings n' (join (lookupsEach fn [c] t))) fs gs ∧
      Faded H type type' := by
  have hlost : lostFindings n' (join (lookupsEach fn [c] t)) =
      lostFindings c' (c.lookups fn t) := by
    rw [lostFindings_join (by rw [hc']; rfl), hc', lookupsEach_cons, List.zipWith_cons_cons,
      List.flatten_cons]
    exact List.append_nil _
  rw [hlost]
  exact hs hF (fun hyes => (hH hyes).child (i := 0) rfl (by rw [hc]; rfl)
    (by rw [hc']; rfl)) h h'

private theorem simulated_each {ns ns' : List Node} (hs : List.Forall₂ (Simulated H fn) ns ns')
    {t u t' u' : Table} {fs gs : List Finding} {types types' : List Ty} (hF : t.Follows H fn t')
    (hH : H → ∀ (i : Nat) c c' part, ns[i]? = some c → ns'[i]? = some c' →
      (lookupsEach fn ns t)[i]? = some part → OnlyUndeclared c c' part)
    (h : (visitAll fn ns).Returns t u fs types) (h' : (visitAll fn ns').Returns t' u' gs types') :
    u.Follows H fn u' ∧
      Fewer H (List.zipWith lostFindings ns' (lookupsEach fn ns t)).flatten fs gs ∧
      List.Forall₂ (Faded H) types types' := by
  induction hs generalizing t t' fs gs types types' with
  | nil =>
    obtain ⟨rfl, rfl, rfl⟩ := h.of_visitAll_nil
    obtain ⟨rfl, rfl, rfl⟩ := h'.of_visitAll_nil
    exact ⟨hF, .same _ _, .nil⟩
  | cons hn _ ih =>
    obtain ⟨w, f₁, got, f₂, rest, h₁, h₂, rfl, rfl⟩ := h.of_visitAll_cons
    obtain ⟨w', g₁, got', g₂, rest', h₁', h₂', rfl, rfl⟩ := h'.of_visitAll_cons
    rw [lookupsEach_cons, h₁.run_table] at hH ⊢
    obtain ⟨hF₁, hfew₁, hfade₁⟩ := hn hF (fun hyes => hH hyes 0 _ _ _ rfl rfl rfl) h₁ h₁'
    obtain ⟨hF₂, hfew₂, hfade₂⟩ := ih hF₁ (fun hyes i => hH hyes (i + 1)) h₂ h₂'
    exact ⟨hF₂, hfew₁.append hfew₂, .cons hfade₁ hfade₂⟩

private theorem simulated_parts (n n' : Node)
    (hs : List.Forall₂ (Simulated H fn) n.children n'.children) {t u t' u' : Table}
    {fs gs : List Finding} {types types' : List Ty} (hF : t.Follows H fn t')
    (hH : H → OnlyUndeclared n n' (join (lookupsEach fn n.children t)))
    (h : (visitAll fn n.children).Returns t u fs types)
    (h' : (visitAll fn n'.children).Returns t' u' gs types') :
    u.Follows H fn u' ∧ Fewer H (lostFindings n' (join (lookupsEach fn n.children t))) fs gs ∧
      List.Forall₂ (Faded H) types types' := by
  rw [lostFindings_join ((length_lookupsEach _ _ _).trans hs.length_eq)]
  exact simulated_each hs hF (fun hyes i c c' part hc hc' hi =>
    (hH hyes).child hi hc hc') h h'

private theorem simulated_binary {line : Int} {op : String} {left right left' right' : Node}
    (hl : Simulated H fn left left') (hr : Simulated H fn right right') :
    Simulated H fn (.binary line op left right) (.binary line op left' right') := by
  intro t u t' u' fs gs type type' hF hH h h'
  obtain ⟨w, f₁, l, f₂, r, h₁, h₂, rfl, rfl⟩ := h.of_binary
  obtain ⟨w', g₁, l', g₂, r', h₁', h₂', rfl, rfl⟩ := h'.of_binary
  have hlook : (Node.binary line op left right).lookups fn t =
      join (lookupsEach fn [left, right] t) := lookups_eq_join rfl rfl rfl
  rw [hlook] at hH ⊢
  obtain ⟨hF', hfew, hfade⟩ := simulated_parts (.binary line op left right)
    (.binary line op left' right') (.cons hl (.cons hr .nil)) hF hH
    (h₁.visitAll_cons (h₂.visitAll_cons (.visitAll_nil fn u)))
    (h₁'.visitAll_cons (h₂'.visitAll_cons (.visitAll_nil fn u')))
  rw [List.append_nil, List.append_nil] at hfew
  obtain ⟨hfade₁, hfade₂, -⟩ := (List.forall₂_cons.mp hfade).imp_right List.forall₂_cons.mp
  refine ⟨hF', hfew, ?_⟩
  split
  · exact hfade₁.join hfade₂
  · exact .same _ _

private theorem Table.Follows.calling {t t' : Table} (h : t.Follows H fn t') (name : String) :
    (Check.calling t fn name).Follows H fn (Check.calling t' fn name) := by
  have hn : (t.around fn).any (·.name == name) = (t'.around fn).any (·.name == name) := by
    obtain ⟨ht, hu⟩ | ⟨f, g, ht, hu, hfg⟩ := h.alike.around_cases fn
    · rw [ht, hu]
    · simp [ht, hu, (Function.eq_of_outline hfg).1]
  rw [Table.calling_eq_collect, Table.calling_eq_collect, hn]
  exact h.collect rfl id fun _ => rfl

private theorem Faded.mismatches {types types' : List Ty} (h : List.Forall₂ (Faded H) types types')
    (line : Int) (function : String) (first : Nat) (params : List Variable) :
    Fewer H [] (Check.mismatches line function first (types.zip params))
      (Check.mismatches line function first (types'.zip params)) := by
  induction h generalizing first params with
  | nil => exact .same _ _
  | cons hg _ ih =>
    cases params with
    | nil => exact .same _ _
    | cons p params =>
      exact (hg.mismatch line p.type (.argumentMismatch first function p.type)).append
        (ih (first + 1) params)

private theorem Faded.misapplied {types types' : List Ty} (h : List.Forall₂ (Faded H) types types')
    (line : Int) (name : String) {f g : Function} (hfg : f.outline = g.outline) :
    Fewer H [] (Check.misapplied line name f types) (Check.misapplied line name g types') := by
  rw [Check.misapplied, Check.misapplied, h.length_eq, (Function.eq_of_outline hfg).2.2]
  split
  · exact Faded.mismatches h line name 1 _
  · exact .same _ _

private theorem simulated_call {line : Int} {name : String} {args args' : List Node}
    (ha : ∀ a ∈ args, a.IsExpr) (ha' : ∀ a ∈ args', a.IsExpr)
    (hs : List.Forall₂ (Simulated H fn) args args') :
    Simulated H fn (.call line name args) (.call line name args') := by
  intro t u t' u' fs gs type type' hF hH h h'
  obtain ⟨hr, hr'⟩ | ⟨id, f, g, hr, hr', hfg⟩ := hF.alike.registered_cases name
  · obtain ⟨f₁, types, hv, rfl, rfl⟩ := h.of_call_undefined ha hr
    obtain ⟨g₁, types', hv', rfl, rfl⟩ := h'.of_call_undefined ha' hr'
    have hlook : (Node.call line name args).lookups fn t = join (lookupsEach fn args t) :=
      lookups_eq_join rfl rfl (by simp [Visit.opened, hr])
    rw [hlook] at hH ⊢
    obtain ⟨hF', hfew, -⟩ := simulated_parts (.call line name args)
      (.call line name args') hs hF hH hv hv'
    exact ⟨hF', (Fewer.same H [⟨some line, .functionUndefined name⟩]).append hfew, .same _ _⟩
  · obtain ⟨f₁, types, hv, rfl, rfl⟩ := h.of_call ha hr
    obtain ⟨g₁, types', hv', rfl, rfl⟩ := h'.of_call ha' hr'
    have hlook : (Node.call line name args).lookups fn t =
        join (lookupsEach fn args (Check.calling t fn name)) :=
      lookups_eq_join rfl rfl (by simp [Visit.opened, hr])
    rw [hlook] at hH ⊢
    obtain ⟨hF', hfew, hfade⟩ := simulated_parts (.call line name args)
      (.call line name args') hs (hF.calling name) hH hv hv'
    rw [Check.mainCalls_alike hF.alike, (Function.eq_of_outline hfg).2.1]
    refine ⟨hF', ?_, .same _ _⟩
    have hrest := hfew.append (Faded.misapplied hfade line name hfg)
    simpa [Node.children] using (Fewer.same H _).append hrest

private theorem simulated_expr {e e' : Node} (he : e.IsExpr) (hl : ExprLoss e e') :
    Simulated H fn e e' := by
  induction he generalizing e' with
  | missing => cases hl with
    | lost he => exact simulated_lost he
  | literal => cases hl with
    | lost he => exact simulated_lost he
    | literal =>
      intro t u t' u' fs gs type type' hF _ h h'
      obtain ⟨rfl, rfl, rfl⟩ := h.of_literal
      obtain ⟨rfl, rfl, rfl⟩ := h'.of_literal
      exact ⟨hF, .same _ _, .same _ _⟩
  | identifier => cases hl with
    | lost he => exact simulated_lost he
    | identifier => exact simulated_identifier _ _
  | paren _ ih => cases hl with
    | lost he => exact simulated_lost he
    | paren hl =>
      intro t u t' u' fs gs type type' hF hH h h'
      rw [lookups_eq_join rfl rfl rfl] at hH ⊢
      exact (ih hl).only rfl rfl hF hH h h'
  | negation _ ih => cases hl with
    | lost he => exact simulated_lost he
    | negation hl =>
      intro t u t' u' fs gs type type' hF hH h h'
      obtain ⟨got, hi, rfl⟩ := h.of_negation
      obtain ⟨got', hi', rfl⟩ := h'.of_negation
      rw [lookups_eq_join rfl rfl rfl] at hH ⊢
      obtain ⟨hF', hfew, -⟩ := (ih hl).only rfl rfl hF hH hi hi'
      exact ⟨hF', hfew, .same _ _⟩
  | binary _ _ ihl ihr => cases hl with
    | lost he => exact simulated_lost he
    | binary hl hr => exact simulated_binary (ihl hl) (ihr hr)
  | call ha ih => cases hl with
    | lost he => exact simulated_lost he
    | call hl =>
      exact simulated_call ha (forall_right hl ha fun a _ a' hr he => hr.isExpr he)
        (forall₂_of_mem hl fun a hm a' hr => ih a hm hr)

private theorem Table.Follows.of_marks {t t' u u' : Table} (h : t.Follows H fn t') (ha : u.Alike u')
    (hm : u.isMarked fn = t.isMarked fn) (hm' : u'.isMarked fn = t'.isMarked fn) :
    u.Follows H fn u' := by
  refine ⟨ha, ?_, fun hyes => ?_⟩
  · rw [hm, hm']
    exact h.marked
  · rw [hm, hm', h.exact hyes]

private theorem Table.Follows.declaring {t t' : Table} (h : t.Follows H fn t') {s s' : Node}
    (hd : s.declared?.map Variable.outline = s'.declared?.map Variable.outline) :
    (t.declaring s).Follows H fn (t'.declaring s') := by
  have hm : ∀ (t : Table) (s : Node), (t.declaring s).isMarked fn = t.isMarked fn := by
    intro t s
    rw [isMarked, around_declaring, isMarked]
  exact h.of_marks (t.declaring_outline hd t' h.alike) (hm t s) (hm t' s')

private theorem Table.Follows.note {t t' : Table} (h : t.Follows H fn t') {m n : Notes}
    (hr : m.hasReturn = n.hasReturn) :
    (t.collect fn m false).Follows H fn (t'.collect fn n false) :=
  h.collect hr id fun _ => rfl

private theorem simulated_varDecl {line : Int} {name : String} {typeText : Option String}
    {isConst : Bool} {init init' : Node} {initText : Option String} (hi : init.IsExpr)
    (hl : ExprLoss init init') (hc : isConst = true → init'.isMissing = init.isMissing) :
    Simulated H fn (.varDecl line name typeText isConst init initText)
      (.varDecl line name typeText isConst init' initText) := by
  intro t u t' u' fs gs type type' hF hH h h'
  obtain ⟨w, f₁, got, hv, rfl, rfl, rfl⟩ := h.of_varDecl hi
  obtain ⟨w', g₁, got', hv', rfl, rfl, rfl⟩ := h'.of_varDecl (hl.isExpr hi)
  have hlook : (Node.varDecl line name typeText isConst init initText).lookups fn t =
      join (lookupsEach fn [init] t) := lookups_eq_join rfl rfl rfl
  rw [hlook] at hH ⊢
  obtain ⟨hF₁, hfew, hfade⟩ := (simulated_expr hi hl).only rfl rfl hF hH hv hv'
  have hset : Check.uninitialized line name isConst init =
      Check.uninitialized line name isConst init' := by
    cases isConst with
    | false => rfl
    | true => rw [Check.uninitialized, Check.uninitialized, hc rfl]
  have hd : (Node.varDecl line name typeText isConst init initText).declared?.map Variable.outline =
      (Node.varDecl line name typeText isConst init' initText).declared?.map Variable.outline := rfl
  have hvalue := hfew.append (hfade.mismatch line (Ty.ofText typeText)
    (.initMismatch name (Ty.ofText typeText)))
  refine ⟨(hF₁.declaring hd).note rfl, ?_, .same _ _⟩
  rw [Check.redeclared_alike hF.alike, Check.conflicts_alike hF.alike, hset]
  simpa using (Fewer.same H _).append ((Fewer.same H _).append ((Fewer.same H _).append hvalue))

private theorem simulated_assign {line : Int} {name op : String} {value value' : Node}
    (hi : value.IsExpr) (hl : ExprLoss value value') :
    Simulated H fn (.assign line name op value) (.assign line name op value') := by
  intro t u t' u' fs gs type type' hF hH h h'
  have hlook : ∀ ns, Visit.parts ⟨fn, .assign line name op value, t⟩ = ns →
      (Node.assign line name op value).lookups fn t =
        ⟨[], .target line name, t⟩ :: join (lookupsEach fn ns t) := by
    rintro ns rfl
    exact lookups_eq fn _ t
  have hkept : ∀ ls, lostFindings (.assign line name op value')
      (⟨[], .target line name, t⟩ :: ls) = lostFindings (.assign line name op value') ls :=
    fun _ => rfl
  obtain ⟨hr, hr'⟩ | ⟨id, hr, hr'⟩ | ⟨x, y, hr, hr', hxy⟩ := hF.alike.resolve_cases name
  · obtain ⟨rfl, rfl, rfl⟩ := h.of_assign_undeclared hr
    obtain ⟨rfl, rfl, rfl⟩ := h'.of_assign_undeclared hr'
    rw [hlook [] (by simp [Visit.parts, hr])]
    exact ⟨hF, .same _ _, .same _ _⟩
  · obtain ⟨rfl, rfl, rfl⟩ := h.of_assign_function hr
    obtain ⟨rfl, rfl, rfl⟩ := h'.of_assign_function hr'
    rw [hlook [] (by simp [Visit.parts, hr])]
    exact ⟨hF, .same _ _, .same _ _⟩
  · obtain ⟨f₁, got, hv, rfl, rfl⟩ := h.of_assign hi hr
    obtain ⟨g₁, got', hv', rfl, rfl⟩ := h'.of_assign (hl.isExpr hi) hr'
    rw [hlook [value] (by simp [Visit.parts, hr])] at hH ⊢
    rw [hkept]
    -- The target is looked up at the root, so it accounts for no loss in the value.
    have hH' : H → OnlyUndeclared (.assign line name op value) (.assign line name op value')
        (join (lookupsEach fn [value] t)) := by
      intro hyes path m hm hmissing hlost
      obtain ⟨l, hl, hp, hu, hs⟩ := hH hyes path m hm hmissing hlost
      rcases List.mem_cons.mp hl with rfl | hl
      · exact absurd hu Bool.false_ne_true
      · exact ⟨l, hl, hp, hu, hs⟩
    obtain ⟨hF', hfew, hfade⟩ := (simulated_expr hi hl).only rfl rfl hF hH' hv hv'
    obtain ⟨-, htype, hconst⟩ := Variable.eq_of_outline hxy
    have hsame : Check.constant line x name = Check.constant line y name := by
      rw [Check.constant, hconst, Check.constant]
    refine ⟨hF', ?_, .same _ _⟩
    rw [hsame, htype]
    simpa using (Fewer.same H _).append
      (hfew.append (hfade.mismatch line y.type (.assignMismatch name y.type)))

private theorem simulated_ifElse {line : Int} {cond cond' a a' b b' : Node}
    (hc : Simulated H fn cond cond') (ha : Simulated H fn a a') (hb : Simulated H fn b b') :
    Simulated H fn (.ifElse line cond a b) (.ifElse line cond' a' b') := by
  intro t u t' u' fs gs type type' hF hH h h'
  obtain ⟨t₁, t₂, f₁, f₂, f₃, _, _, _, h₁, h₂, h₃, rfl, rfl⟩ := h.of_ifElse
  obtain ⟨t₁', t₂', g₁, g₂, g₃, _, _, _, h₁', h₂', h₃', rfl, rfl⟩ := h'.of_ifElse
  have hlook : (Node.ifElse line cond a b).lookups fn t =
      join (lookupsEach fn [cond, a, b] (t.collect fn ⟨[], [⟨.ifElse, line⟩], false⟩ false)) :=
    lookups_eq_join rfl rfl (t.note_addControl fn .ifElse line)
  rw [hlook] at hH ⊢
  obtain ⟨hF', hfew, -⟩ := simulated_parts (.ifElse line cond a b) (.ifElse line cond' a' b')
    (.cons hc (.cons ha (.cons hb .nil))) (hF.note rfl) hH
    (h₁.visitAll_cons (h₂.visitAll_cons (h₃.visitAll_cons (.visitAll_nil fn u))))
    (h₁'.visitAll_cons (h₂'.visitAll_cons (h₃'.visitAll_cons (.visitAll_nil fn u'))))
  rw [List.append_nil, List.append_nil] at hfew
  exact ⟨hF', hfew, .same _ _⟩

private theorem simulated_forLoop {line : Int}
    {init init' cond cond' update update' body body' : Node} (hi : Simulated H fn init init')
    (hc : Simulated H fn cond cond') (hu : Simulated H fn update update')
    (hb : Simulated H fn body body') :
    Simulated H fn (.forLoop line init cond update body)
      (.forLoop line init' cond' update' body') := by
  intro t u t' u' fs gs type type' hF hH h h'
  obtain ⟨t₁, t₂, t₃, f₁, f₂, f₃, f₄, _, _, _, _, h₁, h₂, h₃, h₄, rfl, rfl⟩ := h.of_forLoop
  obtain ⟨t₁', t₂', t₃', g₁, g₂, g₃, g₄, _, _, _, _, h₁', h₂', h₃', h₄', rfl, rfl⟩ := h'.of_forLoop
  have hlook : (Node.forLoop line init cond update body).lookups fn t =
      join (lookupsEach fn [init, cond, update, body]
        (t.collect fn ⟨[], [⟨.forLoop, line⟩], false⟩ false)) :=
    lookups_eq_join rfl rfl (t.note_addControl fn .forLoop line)
  rw [hlook] at hH ⊢
  obtain ⟨hF', hfew, -⟩ := simulated_parts (.forLoop line init cond update body)
    (.forLoop line init' cond' update' body') (.cons hi (.cons hc (.cons hu (.cons hb .nil))))
    (hF.note rfl) hH
    (h₁.visitAll_cons (h₂.visitAll_cons (h₃.visitAll_cons (h₄.visitAll_cons (.visitAll_nil fn u)))))
    (h₁'.visitAll_cons
      (h₂'.visitAll_cons (h₃'.visitAll_cons (h₄'.visitAll_cons (.visitAll_nil fn u')))))
  rw [List.append_nil, List.append_nil] at hfew
  exact ⟨hF', hfew, .same _ _⟩

private theorem simulated_whileLoop {line : Int} {cond cond' body body' : Node}
    (hc : Simulated H fn cond cond') (hb : Simulated H fn body body') :
    Simulated H fn (.whileLoop line cond body) (.whileLoop line cond' body') := by
  intro t u t' u' fs gs type type' hF hH h h'
  obtain ⟨t₁, f₁, f₂, _, _, h₁, h₂, rfl, rfl⟩ := h.of_whileLoop
  obtain ⟨t₁', g₁, g₂, _, _, h₁', h₂', rfl, rfl⟩ := h'.of_whileLoop
  have hlook : (Node.whileLoop line cond body).lookups fn t =
      join (lookupsEach fn [cond, body] (t.collect fn ⟨[], [⟨.whileLoop, line⟩], false⟩ false)) :=
    lookups_eq_join rfl rfl (t.note_addControl fn .whileLoop line)
  rw [hlook] at hH ⊢
  obtain ⟨hF', hfew, -⟩ := simulated_parts (.whileLoop line cond body)
    (.whileLoop line cond' body') (.cons hc (.cons hb .nil)) (hF.note rfl) hH
    (h₁.visitAll_cons (h₂.visitAll_cons (.visitAll_nil fn u)))
    (h₁'.visitAll_cons (h₂'.visitAll_cons (.visitAll_nil fn u')))
  rw [List.append_nil, List.append_nil] at hfew
  exact ⟨hF', hfew, .same _ _⟩

private theorem simulated_ret {line : Int} {value value' : Node} (hi : value.IsExpr)
    (hl : ExprLoss value value') (hm : value'.isMissing = value.isMissing) :
    Simulated H fn (.ret line value) (.ret line value') := by
  intro t u t' u' fs gs type type' hF hH h h'
  obtain ⟨hf, hf'⟩ | ⟨f, g, hf, hf', hfg⟩ := hF.alike.around_cases fn
  · obtain ⟨rfl, rfl, rfl⟩ := h.of_ret_outside hf
    obtain ⟨rfl, rfl, rfl⟩ := h'.of_ret_outside hf'
    have hlook : (Node.ret line value).lookups fn u = join (lookupsEach fn [] _) :=
      lookups_eq_join rfl (by simp [Visit.parts, hf]) rfl
    rw [hlook]
    exact ⟨hF, .same _ _, .same _ _⟩
  obtain ⟨hname, htype, -⟩ := Function.eq_of_outline hfg
  have hF₀ : (t.collect fn ⟨[], [], true⟩ false).Follows H fn
      (t'.collect fn ⟨[], [], true⟩ false) := hF.note rfl
  have hlook : (Node.ret line value).lookups fn t =
      join (lookupsEach fn [value] (t.collect fn ⟨[], [], true⟩ false)) :=
    lookups_eq_join rfl (by simp [Visit.parts, hf]) (t.note_markReturn fn)
  rw [hlook] at hH ⊢
  cases hmissing : value.isMissing with
  | true =>
    obtain rfl := eq_missing_of_isMissing hmissing
    cases hl
    obtain ⟨rfl, rfl, rfl⟩ := h.of_ret_nothing hf
    obtain ⟨rfl, rfl, rfl⟩ := h'.of_ret_nothing hf'
    rw [hname, htype]
    exact ⟨hF₀, .same _ _, .same _ _⟩
  | false =>
    obtain ⟨f₁, got, hv, rfl, rfl⟩ := h.of_ret hi hmissing hf
    obtain ⟨g₁, got', hv', rfl, rfl⟩ := h'.of_ret (hl.isExpr hi) (hm.trans hmissing) hf'
    obtain ⟨hF', hfew, hfade⟩ := (simulated_expr hi hl).only rfl rfl hF₀ hH hv hv'
    refine ⟨hF', ?_, .same _ _⟩
    rw [hname, htype]
    simpa using hfew.append (hfade.mismatch line g.type (.returnMismatch g.name g.type))

private theorem simulated_block {line : Int} {statements statements' : List Node}
    (hs : List.Forall₂ (Simulated H fn) statements statements') :
    Simulated H fn (.block line statements) (.block line statements') := by
  intro t u t' u' fs gs type type' hF hH h h'
  obtain ⟨w, types, hv, hx, rfl⟩ := h.of_block
  obtain ⟨w', types', hv', hx', rfl⟩ := h'.of_block
  have hlook : (Node.block line statements).lookups fn t =
      join (lookupsEach fn statements t.enter) := lookups_eq_join rfl rfl rfl
  rw [hlook] at hH ⊢
  have hF₀ : t.enter.Follows H fn t'.enter := ⟨hF.alike.enter, hF.marked, hF.exact⟩
  obtain ⟨hF', hfew, -⟩ := simulated_parts (.block line statements) (.block line statements') hs
    hF₀ hH hv hv'
  have hm : ∀ {w u : Table}, w.exit? = some u → u.isMarked fn = w.isMarked fn := by
    intro w u hx
    rw [Table.isMarked, Table.around_of_exit? w fn hx, Table.isMarked]
  exact ⟨hF'.of_marks (hF'.alike.exit hx hx') (hm hx) (hm hx'), hfew, .same _ _⟩

private theorem simulated_stmt {s s' : Node} (hs : s.IsStmt) (hl : StmtLoss s s') :
    Simulated H fn s s' := by
  induction hs generalizing s' with
  | expr he =>
    cases hl with
    | expr _ h => exact simulated_expr he h
    | _ => cases he
  | varDecl hi =>
    cases hl with
    | expr he => cases he
    | varDecl h hc => exact simulated_varDecl hi h hc
  | assign hv =>
    cases hl with
    | expr he => cases he
    | assign h => exact simulated_assign hv h
  | ifElse hc _ _ _ _ iha ihb =>
    cases hl with
    | expr he => cases he
    | ifElse h h₁ h₂ => exact simulated_ifElse (simulated_expr hc h) (iha h₁) (ihb h₂)
  | forLoop _ _ hc _ _ _ _ ihi ihu ihb =>
    cases hl with
    | expr he => cases he
    | forLoop h₁ h h₂ h₃ =>
      exact simulated_forLoop (ihi h₁) (simulated_expr hc h) (ihu h₂) (ihb h₃)
  | whileLoop hc _ _ ihb =>
    cases hl with
    | expr he => cases he
    | whileLoop h h₁ => exact simulated_whileLoop (simulated_expr hc h) (ihb h₁)
  | ret hv =>
    cases hl with
    | expr he => cases he
    | ret h hm => exact simulated_ret hv h hm
  | exprStmt he =>
    cases hl with
    | expr he => cases he
    | exprStmt h =>
      intro t u t' u' fs gs type type' hF hH hr hr'
      obtain ⟨_, hv, rfl⟩ := hr.of_exprStmt
      obtain ⟨_, hv', rfl⟩ := hr'.of_exprStmt
      rw [lookups_eq_join rfl rfl rfl] at hH ⊢
      obtain ⟨hF', hfew, -⟩ := (simulated_expr he h).only rfl rfl hF hH hv hv'
      exact ⟨hF', hfew, .same _ _⟩
  | callStmt he =>
    cases hl with
    | expr he => cases he
    | callStmt h =>
      intro t u t' u' fs gs type type' hF hH hr hr'
      obtain ⟨_, hv, rfl⟩ := hr.of_callStmt
      obtain ⟨_, hv', rfl⟩ := hr'.of_callStmt
      rw [lookups_eq_join rfl rfl rfl] at hH ⊢
      obtain ⟨hF', hfew, -⟩ := (simulated_expr he h).only rfl rfl hF hH hv hv'
      exact ⟨hF', hfew, .same _ _⟩
  | block _ ih =>
    cases hl with
    | expr he => cases he
    | block h => exact simulated_block (forall₂_of_mem h fun s hm s' hr => ih s hm hr)

private theorem isMarked_openFunction (t : Table) (line : Int) (name : String)
    (returnText : Option String) (params : List Variable) (ss : List Node) (n : Notes) (b : Bool) :
    ((ss.foldl Table.declaring (t.openFunction (Check.head line name returnText) params)).collect
      (some t.nextId) n b).isMarked (some t.nextId) = b := by
  rw [Table.isMarked, Table.around, Option.bind_some, Table.record?_openFunction]
  rfl

private theorem follows_openFunction {t t' : Table} (h : t.Alike t') (line : Int) (name : String)
    (returnText : Option String) (params : List Variable) :
    (t.openFunction (Check.head line name returnText) params).Follows H (some t.nextId)
      (t'.openFunction (Check.head line name returnText) params) := by
  have hm : ∀ t : Table, (t.openFunction (Check.head line name returnText) params).isMarked
      (some t.nextId) = false := by
    intro t
    have hb := isMarked_openFunction t line name returnText params [] .none false
    rwa [List.foldl_nil, Table.collect_none] at hb
  have hm' := hm t'
  rw [← h.nextId] at hm'
  exact ⟨h.openFunction line name returnText params, by simp [hm'], fun _ => by rw [hm, hm']⟩

private theorem Fewer.unfinished {f f' : Function} (hr : f'.hasReturn = f.hasReturn)
    (hm : f'.isRecursive = true → f.isRecursive = true) (he : H → f'.isRecursive = f.isRecursive)
    (line : Int) (name : String) (type : Ty) :
    Fewer H [] (Check.unfinished (some f) line name type)
      (Check.unfinished (some f') line name type) := by
  have hr' : (some f').any (·.hasReturn) = (some f).any (·.hasReturn) := hr
  rw [Check.unfinished, Check.unfinished, hr']
  refine (Fewer.same H _).append (.ite ?_ fun hyes => ?_)
  · simp only [Option.any_some, Bool.and_eq_true]
    exact And.imp_right hm
  · simp only [Option.any_some, he hyes]

private theorem simulated_statements {body body' : Node} (hs : body.IsStmt) (hb : body.isBody)
    (hl : StmtLoss body body') :
    List.Forall₂ (Simulated H fn) body.statements body'.statements := by
  cases body with
  | missing =>
    cases hl with
    | expr _ h => cases h; exact .nil
  | block line statements =>
    cases hl with
    | expr he => cases he
    | block h => exact forall₂_of_mem h fun s hm s' hr => simulated_stmt (hs.statements s hm) hr
  | _ => simp [isBody] at hb

private theorem simulated_funcDecl {line : Int} {name : String} {returnText : Option String}
    {params : List Param} {body body' : Node} (hs : body.IsStmt) (hb : body.isBody)
    (hl : StmtLoss body body') :
    Simulated H none (.funcDecl line name returnText params body)
      (.funcDecl line name returnText params body') := by
  intro t u t' u' fs gs type type' hF hH h h'
  have hreg : t'.registry.contains name = t.registry.contains name := by rw [hF.alike.registry]
  cases hc : t.registry.contains name with
  | true =>
    obtain ⟨rfl, rfl, rfl⟩ := h.of_funcDecl_taken hc
    obtain ⟨rfl, rfl, rfl⟩ := h'.of_funcDecl_taken (hreg.trans hc)
    have hlook : (Node.funcDecl line name returnText params body).lookups none u =
        join (lookupsEach (some u.nextId) [] _) :=
      lookups_eq_join rfl (by simp [Visit.parts, hc]) rfl
    rw [hlook]
    exact ⟨hF, .same _ _, .same _ _⟩
  | false =>
    obtain ⟨f₁, b, hv, rfl, rfl, rfl⟩ := h.of_funcDecl hs hb hc
    obtain ⟨g₁, b', hv', rfl, rfl, rfl⟩ :=
      h'.of_funcDecl (hl.isStmt hs) (hl.isBody hb) (hreg.trans hc)
    have hlook : (Node.funcDecl line name returnText params body).lookups none t =
        join (lookupsEach (some t.nextId) body.statements
          (t.openFunction (Check.head line name returnText) (params.map Param.variable))) :=
      lookups_eq_join rfl (Visit.parts_funcDecl hc) (Visit.opened_funcDecl hc)
    rw [hlook] at hH ⊢
    obtain ⟨types, hall⟩ := hv.of_visitBody hb
    obtain ⟨types', hall'⟩ := hv'.of_visitBody (hl.isBody hb)
    rw [← hF.alike.nextId] at hall'
    obtain ⟨hF', hfew, -⟩ := simulated_parts (.funcDecl line name returnText params body)
      (.funcDecl line name returnText params body') (simulated_statements hs hb hl)
      (follows_openFunction hF.alike line name returnText _) hH hall hall'
    have hm := hF'.marked
    have he := hF'.exact
    rw [isMarked_openFunction, hF.alike.nextId, isMarked_openFunction] at hm he
    have hrecord : (functionRecord line name returnText params body b).outline =
        (functionRecord line name returnText params body' b').outline := by
      simp [functionRecord, Function.outline, Function.collect, hl.hasReturn hs]
    refine ⟨⟨hF.alike.declare hrecord, id, fun _ => rfl⟩, ?_, .same _ _⟩
    have hhead := Check.repeated_congr (t := (t.declare (Check.head line name returnText)).enter)
      (u := (t'.declare (Check.head line name returnText)).enter) rfl t.nextId t'.nextId name params
    have hend : Fewer H []
        (Check.unfinished (some (functionRecord line name returnText params body b)) line name
          (Ty.ofReturnText returnText))
        (Check.unfinished (some (functionRecord line name returnText params body' b')) line name
          (Ty.ofReturnText returnText)) :=
      .unfinished (hl.hasReturn hs).symm hm he line name _
    rw [Check.hidden_alike hF.alike, hhead]
    simpa [Node.children] using
      (Fewer.same H _).append ((Fewer.same H _).append (hfew.append hend))

private theorem simulated_decl {d d' : Node} (hd : d.IsDecl) (hl : DeclLoss d d') :
    Simulated H none d d' := by
  cases hd with
  | varDecl hi =>
    cases hl with
    | stmt h => exact simulated_stmt (.varDecl hi) h
  | funcDecl hs hb =>
    cases hl with
    | stmt h =>
      cases h with
      | expr he => cases he
    | funcDecl h => exact simulated_funcDecl hs hb h

end

/-- A program that lost expressions has no finding that the whole program has not. If it lost only
names that are not declared, then exactly the findings about these names are gone. -/
theorem findings_of_programLoss {P P' : Node} (hP : P.IsProgram) (hl : ProgramLoss P P') :
    ∃ u fs u' gs, (analyze P).Returns .empty u fs () ∧ (analyze P').Returns .empty u' gs () ∧
      gs.Sublist fs ∧
      (OnlyUndeclared P P' (P.lookups none .empty) →
        fs.Perm (gs ++ lostFindings P' (P.lookups none .empty))) := by
  cases hP with
  | @program line decls hd =>
    cases hl with
    | @program _ _ decls' hl =>
      have hd' := forall_right hl hd fun d _ d' hr hd => hr.isDecl hd
      obtain ⟨u, fs, types, hr⟩ := visitAll_decls hd .empty
      obtain ⟨u', gs, types', hr'⟩ := visitAll_decls hd' .empty
      have hlook : (Node.program line decls).lookups none .empty =
          join (lookupsEach none decls .empty) := lookups_eq_join rfl rfl rfl
      rw [hlook]
      have hs : List.Forall₂ (Simulated (OnlyUndeclared (.program line decls) (.program line decls')
          (join (lookupsEach none decls .empty))) none) decls decls' :=
        forall₂_of_mem hl fun d hm d' hr => simulated_decl (hd d hm) hr
      obtain ⟨-, hfew, -⟩ := simulated_parts (.program line decls) (.program line decls') hs
        ⟨rfl, id, fun _ => rfl⟩ id hr hr'
      exact ⟨u, fs, u', gs, analyze_returns hr, analyze_returns hr', hfew.sublist, hfew.exact⟩

/-- A variable with the value of an unknown function. -/
private def fromCall (arg : Node) : Node :=
  .program 1 [.varDecl 1 "x" (some "int") false (.call 1 "f" [arg]) none]

private theorem onlyUndeclared_fromCall :
    OnlyUndeclared (fromCall (.identifier 1 "y")) (fromCall .missing)
      ((fromCall (.identifier 1 "y")).lookups none .empty) := by
  intro path m hm _ hlost
  match path with
  | [] | [0] | [0, 0] => nomatch hlost
  | [0, 0, 0] => exact ⟨_, .head _, rfl, rfl, rfl⟩
  | 0 :: 0 :: 0 :: _ :: _ | 0 :: 0 :: (_ + 1) :: _ | 0 :: (_ + 1) :: _ | (_ + 1) :: _ => nomatch hm

/-- An argument that is not declared is lost, and only the finding about it goes. -/
theorem findings_of_programLoss_argument :
    ∃ u fs u' gs, (analyze (fromCall (.identifier 1 "y"))).Returns .empty u fs () ∧
      (analyze (fromCall .missing)).Returns .empty u' gs () ∧ gs.Sublist fs ∧
      fs.Perm (gs ++ [⟨some 1, .variableUndeclared "y"⟩]) := by
  obtain ⟨u, fs, u', gs, h, h', hs, he⟩ :=
    findings_of_programLoss (P := fromCall (.identifier 1 "y")) (by decide)
      (.program (.cons (.stmt (.varDecl (.call (.cons (.lost .identifier) .nil)) nofun)) .nil))
  exact ⟨u, fs, u', gs, h, h', hs, he onlyUndeclared_fromCall⟩

end MiniCheck
