import MiniCheck.Proofs.Grammar
import MiniCheck.Proofs.Runs

/-!
# Visits of grammatical trees

A visit of a grammatical tree always returns, and the table that it leaves is read off the tree: the
variables that are declared, and what is noted about the function around.
-/

namespace MiniCheck

namespace Node

/-- The variable that a declaration declares. -/
def declared? : Node → Option Variable
  | varDecl line name typeText isConst init initText =>
      some ⟨name, Ty.ofText typeText, line, isConst,
        if init.isMissing then none else (Check.initTextOf init initText).toOption⟩
  | _ => none

end Node

/-- What is noted about a function in the order of its text. -/
structure Notes where
  locals : List Variable
  controls : List Control
  hasReturn : Bool

namespace Notes

def none : Notes := ⟨[], [], false⟩

def append (m n : Notes) : Notes :=
  ⟨m.locals ++ n.locals, m.controls ++ n.controls, m.hasReturn || n.hasReturn⟩

instance : Append Notes := ⟨append⟩

def ofControl (kind : ControlKind) (line : Int) : Notes := ⟨[], [⟨kind, line⟩], false⟩

theorem append_def (m n : Notes) :
    m ++ n = ⟨m.locals ++ n.locals, m.controls ++ n.controls, m.hasReturn || n.hasReturn⟩ := rfl

@[simp] theorem none_append (n : Notes) : none ++ n = n := by
  simp [append_def, none]

@[simp] theorem append_none (n : Notes) : n ++ none = n := by
  simp [append_def, none]

private theorem append_assoc (l m n : Notes) : l ++ m ++ n = l ++ (m ++ n) := by
  simp [append_def, Bool.or_assoc]

end Notes

mutual

def Node.notes : Node → Notes
  | .varDecl line name typeText isConst init initText =>
      ⟨(Node.varDecl line name typeText isConst init initText).declared?.toList, [], false⟩
  | .block _ statements => Node.notesAll statements
  | .ifElse line _ thenBranch elseBranch =>
      .ofControl .ifElse line ++ (thenBranch.notes ++ elseBranch.notes)
  | .forLoop line init _ update body =>
      .ofControl .forLoop line ++ (init.notes ++ (update.notes ++ body.notes))
  | .whileLoop line _ body => .ofControl .whileLoop line ++ body.notes
  | .ret _ _ => ⟨[], [], true⟩
  | _ => .none

def Node.notesAll : List Node → Notes
  | [] => .none
  | s :: ss => s.notes ++ Node.notesAll ss

end

/-- Adds notes to a record. Whether the function calls itself is noted too. -/
def Function.collect (n : Notes) (recursive : Bool) (f : Function) : Function :=
  { f with
    locals := f.locals ++ n.locals
    controls := f.controls ++ n.controls
    hasReturn := f.hasReturn || n.hasReturn
    isRecursive := f.isRecursive || recursive }

private theorem Function.collect_collect (m n : Notes) (a b : Bool) (f : Function) :
    (f.collect m a).collect n b = f.collect (m ++ n) (a || b) := by
  simp [collect, Notes.append_def, Bool.or_assoc]

@[simp] theorem Function.collect_none (f : Function) : f.collect .none false = f := by
  simp [collect, Notes.none]

namespace Table

/-- Adds notes to the record of the function around. -/
def collect (t : Table) (fn : Option FunctionId) (n : Notes) (recursive : Bool) : Table :=
  t.note fn (·.collect n recursive)

/-- The table after the declaration of a variable; other statements declare nothing. -/
def declaring (t : Table) (s : Node) : Table :=
  match s.declared? with
  | some v => (t.defineVariable v).2
  | none => t

variable (t : Table) (fn : Option FunctionId) (n : Notes) (b : Bool)

@[simp] theorem current_collect : (t.collect fn n b).current = t.current := by
  cases fn <;> rfl

@[simp] theorem registry_collect : (t.collect fn n b).registry = t.registry := by
  cases fn <;> rfl

@[simp] theorem scopes_collect : (t.collect fn n b).scopes = t.scopes := by
  cases fn <;> rfl

@[simp] theorem resolve_collect (name : String) :
    (t.collect fn n b).resolve name = t.resolve name := by
  rw [resolve, scopes_collect, resolve]

@[simp] theorem collect_none : t.collect fn .none false = t := by
  cases fn with
  | none => rfl
  | some i =>
    have h : (fun f : Function => f.collect .none false) = id := funext Function.collect_none
    simp only [collect, note, updateFunction, h, List.modify_id]

theorem collect_collect (m : Notes) (a : Bool) :
    (t.collect fn m a).collect fn n b = t.collect fn (m ++ n) (a || b) := by
  cases fn with
  | none => rfl
  | some id =>
    have h : (fun f : Function => f.collect n b) ∘ (fun f : Function => f.collect m a) =
        fun f => f.collect (m ++ n) (a || b) := funext (Function.collect_collect m n a b)
    simp only [collect, note, updateFunction, List.modify_modify_eq, h]

private theorem note_eq_collect {n b} {change : Function → Function}
    (h : ∀ f : Function, change f = f.collect n b) : t.note fn change = t.collect fn n b := by
  rw [collect, ← funext h]

theorem note_addLocal (v : Variable) :
    t.note fn (·.addLocal v) = t.collect fn ⟨[v], [], false⟩ false :=
  note_eq_collect t fn fun f => by simp [Function.addLocal, Function.collect]

theorem note_addControl (kind : ControlKind) (line : Int) :
    t.note fn (·.addControl ⟨kind, line⟩) = t.collect fn (.ofControl kind line) false :=
  note_eq_collect t fn fun f => by simp [Function.addControl, Function.collect, Notes.ofControl]

theorem note_markReturn : t.note fn (·.markReturn) = t.collect fn ⟨[], [], true⟩ false :=
  note_eq_collect t fn fun f => by simp [Function.markReturn, Function.collect]

private theorem note_markRecursive : t.note fn (·.markRecursive) = t.collect fn .none true :=
  note_eq_collect t fn fun f => by simp [Function.markRecursive, Function.collect, Notes.none]

theorem collect_of_around_none (h : t.around fn = none) : t.collect fn n b = t := by
  cases fn with
  | none => rfl
  | some id =>
    have hl : t.records.length ≤ id := List.getElem?_eq_none_iff.mp h
    simp only [collect, note, updateFunction, List.modify_eq_self hl]

theorem record?_collect (id : FunctionId) :
    (t.collect fn n b).record? id =
      (t.record? id).map fun f => if fn = some id then f.collect n b else f := by
  cases fn with
  | none => simp [collect, note]
  | some other =>
    rw [collect, note, record?_updateFunction]
    by_cases h : other = id
    · simp [h]
    · simp [h]

theorem around_collect : (t.collect fn n b).around fn = (t.around fn).map (·.collect n b) := by
  cases fn with
  | none => rfl
  | some id =>
    change (t.collect (some id) n b).record? id = (t.record? id).map (·.collect n b)
    simp [record?_collect]

theorem registered?_eq (name : String) :
    t.registered? name =
      (t.registry.find? name).bind fun id => (t.record? id).map fun f => (id, f) := by
  simp only [registered?, Option.bind_eq_bind, Option.pure_def]
  congr 1
  funext id
  cases t.record? id <;> rfl

theorem around_of_exit? {u : Table} (h : t.exit? = some u) : u.around fn = t.around fn := by
  cases he : t.enclosing with
  | nil => simp [exit?, he] at h
  | cons s ss =>
    simp only [exit?, he, Option.some.injEq] at h
    rw [← h]
    rfl

private theorem exit?_collect : (t.collect fn n b).exit? = t.exit?.map (·.collect fn n b) := by
  cases fn <;> cases h : t.enclosing <;> simp [exit?, collect, note, updateFunction, h]

private theorem defineVariable_collect (v : Variable) :
    ((t.collect fn n b).defineVariable v).2 = (t.defineVariable v).2.collect fn n b := by
  cases h : t.current.contains v.name <;>
    cases fn <;> simp [defineVariable, collect, note, updateFunction, h]

private theorem declaring_collect (s : Node) :
    (t.collect fn n b).declaring s = (t.declaring s).collect fn n b := by
  cases h : s.declared? with
  | none => simp only [declaring, h]
  | some v => simp only [declaring, h, defineVariable_collect]

theorem around_declaring (s : Node) : (t.declaring s).around fn = t.around fn := by
  cases h : s.declared? with
  | none => simp only [declaring, h]
  | some v =>
    simp only [declaring, h, defineVariable]
    cases t.current.contains v.name <;> rfl

private theorem declaring_all_collect (ss : List Node) :
    ss.foldl declaring (t.collect fn n b) = (ss.foldl declaring t).collect fn n b := by
  induction ss generalizing t with
  | nil => rfl
  | cons s ss ih => rw [List.foldl_cons, declaring_collect, ih, List.foldl_cons]

theorem calling_eq_collect (name : String) :
    Check.calling t fn name = t.collect fn .none ((t.around fn).any (·.name == name)) := by
  cases h : (t.around fn).any (·.name == name) with
  | false => simp [Check.calling, h]
  | true => simp [Check.calling, h, note_markRecursive]

end Table

namespace Node

private theorem exprTexts_eq_ok {args : List Node} (h : ∀ a ∈ args, ∃ text, a.exprText = .ok text) :
    ∃ texts, exprTexts args = .ok texts := by
  induction args with
  | nil => exact ⟨[], rfl⟩
  | cons a args ih =>
    obtain ⟨text, ht⟩ := h a (by simp)
    obtain ⟨texts, hts⟩ := ih fun b hb => h b (by simp [hb])
    exact ⟨text :: texts, by rw [exprTexts, ht, hts]; rfl⟩

private theorem IsExpr.exprText_eq_ok {e : Node} (h : e.IsExpr) :
    ∃ text, e.exprText = .ok text := by
  induction h with
  | missing => exact ⟨"", rfl⟩
  | @literal line kind text => exact ⟨text, rfl⟩
  | @identifier line name => exact ⟨name, rfl⟩
  | paren _ ih =>
    obtain ⟨text, ht⟩ := ih
    exact ⟨_, by rw [exprText, ht]; rfl⟩
  | negation _ ih =>
    obtain ⟨text, ht⟩ := ih
    exact ⟨_, by rw [exprText, ht]; rfl⟩
  | binary _ _ ihl ihr =>
    obtain ⟨l, hl⟩ := ihl
    obtain ⟨r, hr⟩ := ihr
    exact ⟨_, by rw [exprText, hl, hr]; rfl⟩
  | call _ ih =>
    obtain ⟨texts, ht⟩ := exprTexts_eq_ok ih
    exact ⟨_, by rw [exprText, ht]; rfl⟩

theorem IsExpr.initTextOf_eq_ok {e : Node} (h : e.IsExpr) (initText : Option String) :
    ∃ text, Check.initTextOf e initText = .ok text := by
  cases initText with
  | none => exact h.exprText_eq_ok
  | some text => exact ⟨text, rfl⟩

end Node

open Pass Node

/-- From `t` the visit of `n` returns; it declares what `n` declares and notes what `n` notes. -/
def Node.Visits (fn : Option FunctionId) (n : Node) : Prop :=
  ∀ t, ∃ fs type b, (visit fn n).Returns t ((t.declaring n).collect fn n.notes b) fs type

theorem Pass.Returns.visitAll_nil (fn : Option FunctionId) (t : Table) :
    (visitAll fn []).Returns t t [] [] := .pure [] t

theorem Pass.Returns.visitAll_cons {fn : Option FunctionId} {n : Node} {ns : List Node}
    {t u v : Table} {fs gs : List Finding} {type : Ty} {types : List Ty}
    (h : (visit fn n).Returns t u fs type) (hs : (visitAll fn ns).Returns u v gs types) :
    (visitAll fn (n :: ns)).Returns t v (fs ++ gs) (type :: types) :=
  h.bind (hs.bind_silent (.pure _ v))

theorem visitAll_returns {fn : Option FunctionId} {ns : List Node} (h : ∀ n ∈ ns, n.Visits fn)
    (t : Table) :
    ∃ fs types b, types.length = ns.length ∧
      (visitAll fn ns).Returns t ((ns.foldl Table.declaring t).collect fn (notesAll ns) b) fs
        types := by
  induction ns generalizing t with
  | nil =>
    exact ⟨[], [], false, rfl, by rw [notesAll, Table.collect_none]; exact .visitAll_nil fn t⟩
  | cons n ns ih =>
    obtain ⟨fs, type, b, hn⟩ := h n (by simp) t
    obtain ⟨gs, types, c, hl, hns⟩ := ih (fun m hm => h m (by simp [hm]))
      ((t.declaring n).collect fn n.notes b)
    refine ⟨fs ++ gs, type :: types, b || c, by simp [hl], ?_⟩
    rw [Table.declaring_all_collect, Table.collect_collect] at hns
    exact hn.visitAll_cons hns

private theorem Node.IsExpr.declaring {e : Node} (h : e.IsExpr) (t : Table) :
    t.declaring e = t := by
  cases h <;> rfl

theorem Node.IsExpr.notes {e : Node} (h : e.IsExpr) : e.notes = .none := by
  cases h <;> rfl

theorem declaring_args {args : List Node} (h : ∀ a ∈ args, a.IsExpr) (t : Table) :
    args.foldl Table.declaring t = t := by
  induction args generalizing t with
  | nil => rfl
  | cons a args ih =>
    rw [List.foldl_cons, (h a (by simp)).declaring, ih fun b hb => h b (by simp [hb])]

theorem notesAll_args {args : List Node} (h : ∀ a ∈ args, a.IsExpr) : notesAll args = .none := by
  induction args with
  | nil => rfl
  | cons a args ih =>
    rw [notesAll, (h a (by simp)).notes, ih fun b hb => h b (by simp [hb]), Notes.none_append]

/-- An expression changes nothing but the mark of a recursive function. -/
theorem visit_expr {e : Node} (h : e.IsExpr) (fn : Option FunctionId) (t : Table) :
    ∃ fs type b, (visit fn e).Returns t (t.collect fn .none b) fs type := by
  induction h generalizing t with
  | missing => exact ⟨[], _, false, by rw [Table.collect_none]; exact .pure _ t⟩
  | literal => exact ⟨[], _, false, by rw [Table.collect_none]; exact .pure _ t⟩
  | identifier =>
    exact ⟨_, _, false, by rw [Table.collect_none]; exact Check.returns_identifierUse _ _ t⟩
  | paren _ ih => exact ih t
  | negation _ ih =>
    obtain ⟨fs, type, b, hi⟩ := ih t
    exact ⟨fs, .bool, b, hi.bind_silent (.pure _ _)⟩
  | binary _ _ ihl ihr =>
    obtain ⟨fs, l, b, hl⟩ := ihl t
    obtain ⟨gs, r, c, hr⟩ := ihr (t.collect fn .none b)
    rw [Table.collect_collect, Notes.none_append] at hr
    exact ⟨fs ++ gs, _, b || c, hl.bind (hr.bind_silent (.pure _ _))⟩
  | @call line name args ha ih =>
    have hv : ∀ a ∈ args, a.Visits fn := by
      intro a hm t
      rw [(ha a hm).declaring, (ha a hm).notes]
      exact ih a hm t
    cases hr : t.registered? name with
    | none =>
      obtain ⟨fs, types, b, -, hargs⟩ := visitAll_returns hv t
      rw [declaring_args ha, notesAll_args ha] at hargs
      exact ⟨_, _, b, Check.returns_functionCall_undefined hr hargs⟩
    | some callee =>
      obtain ⟨fs, types, b, -, hargs⟩ := visitAll_returns hv (Check.calling t fn name)
      rw [declaring_args ha, notesAll_args ha] at hargs
      have hcall : (visit fn (.call line name args)).Returns t _ _ _ :=
        Check.returns_functionCall hr hargs
      rw [Table.calling_eq_collect, Table.collect_collect, Notes.none_append] at hcall
      exact ⟨_, _, _, hcall⟩

theorem declared?_of_isBody {n : Node} (h : n.isBody) : n.declared? = none := by
  cases n <;> first | rfl | simp [isBody] at h

theorem declared?_of_isUpdate {n : Node} (h : n.isUpdate) : n.declared? = none := by
  cases n <;> first | rfl | simp [isUpdate] at h

theorem notes_of_isUpdate {n : Node} (h : n.isUpdate) : n.notes = .none := by
  cases n <;> first | rfl | simp [isUpdate] at h

private theorem declaring_of_isBody {n : Node} (h : n.isBody) (t : Table) : t.declaring n = t := by
  simp only [Table.declaring, declared?_of_isBody h]

private theorem declaring_of_isUpdate {n : Node} (h : n.isUpdate) (t : Table) :
    t.declaring n = t := by
  simp only [Table.declaring, declared?_of_isUpdate h]

private theorem declaring_all_eq (ss : List Node) (t : Table) :
    ∃ s, ss.foldl Table.declaring t = { t with current := s } := by
  induction ss generalizing t with
  | nil => exact ⟨t.current, rfl⟩
  | cons n ss ih =>
    have hn : ∃ s, t.declaring n = { t with current := s } := by
      cases hv : n.declared? with
      | none => exact ⟨t.current, by simp only [Table.declaring, hv]⟩
      | some v =>
        simp only [Table.declaring, hv, Table.defineVariable]
        cases t.current.contains v.name
        · exact ⟨_, rfl⟩
        · exact ⟨t.current, rfl⟩
    obtain ⟨s, hs⟩ := hn
    obtain ⟨s', hs'⟩ := ih (t.declaring n)
    exact ⟨s', by rw [List.foldl_cons, hs', hs]⟩

private theorem exit?_declaring_enter (ss : List Node) (t : Table) :
    (ss.foldl Table.declaring t.enter).exit? = some t := by
  obtain ⟨s, hs⟩ := declaring_all_eq ss t.enter
  rw [hs]
  rfl

private theorem visits_varDecl {fn : Option FunctionId} {line : Int} {name : String}
    {typeText : Option String} {isConst : Bool} {init : Node} {initText : Option String}
    (hi : init.IsExpr) : (Node.varDecl line name typeText isConst init initText).Visits fn := by
  intro t
  cases hm : init.isMissing with
  | true =>
    have hd : (visit fn (.varDecl line name typeText isConst init initText)).Returns t _ _ _ :=
      Check.returns_variableDecl (Check.returns_initializer_missing _ _ _ _ hm t)
    rw [Table.note_addLocal] at hd
    exact ⟨_, _, false, by simpa [Table.declaring, declared?, Node.notes, hm] using hd⟩
  | false =>
    obtain ⟨fs, got, b, hv⟩ := visit_expr hi fn t
    obtain ⟨text, ht⟩ := hi.initTextOf_eq_ok initText
    have hd : (visit fn (.varDecl line name typeText isConst init initText)).Returns t _ _ _ :=
      Check.returns_variableDecl (Check.returns_initializer _ hm hv ht)
    rw [Table.note_addLocal, Table.defineVariable_collect, Table.collect_collect] at hd
    exact ⟨_, _, b, by
      simpa [Table.declaring, declared?, Node.notes, hm, ht, Except.toOption] using hd⟩

private theorem visits_assign {fn : Option FunctionId} {line : Int} {name op : String}
    {value : Node} (hi : value.IsExpr) : (Node.assign line name op value).Visits fn := by
  intro t
  have hn : (t.declaring (.assign line name op value)).collect fn
      (Node.assign line name op value).notes false = t := Table.collect_none t fn
  cases hr : t.resolve name with
  | none => exact ⟨_, _, false, by rw [hn]; exact Check.returns_assignment_undeclared hr⟩
  | some s =>
    cases s with
    | function id => exact ⟨_, _, false, by rw [hn]; exact Check.returns_assignment_function hr⟩
    | «variable» v =>
      obtain ⟨fs, got, b, hv⟩ := visit_expr hi fn t
      exact ⟨_, _, b, Check.returns_assignment hr hv⟩

private theorem visits_ret {fn : Option FunctionId} {line : Int} {value : Node}
    (hi : value.IsExpr) : (Node.ret line value).Visits fn := by
  intro t
  cases hf : t.around fn with
  | none =>
    have hn : (t.declaring (.ret line value)).collect fn (Node.ret line value).notes false = t :=
      Table.collect_of_around_none t fn _ _ hf
    exact ⟨_, _, false, by rw [hn]; exact Check.returns_returning_outside hf⟩
  | some f =>
    have hr : ∃ fs got b, (if value.isMissing then pure Ty.void else visit fn value).Returns
        (t.note fn (·.markReturn)) ((t.note fn (·.markReturn)).collect fn .none b) fs got := by
      cases value.isMissing
      · exact visit_expr hi fn _
      · exact ⟨[], .void, false, by rw [Table.collect_none]; exact .pure _ _⟩
    obtain ⟨fs, got, b, hr⟩ := hr
    have hret : (visit fn (.ret line value)).Returns t _ _ _ := Check.returns_returning hf hr
    rw [Table.note_markReturn, Table.collect_collect, Notes.append_none] at hret
    exact ⟨_, _, _, hret⟩

private theorem visits_block {fn : Option FunctionId} {line : Int} {statements : List Node}
    (h : ∀ s ∈ statements, s.Visits fn) : (Node.block line statements).Visits fn := by
  intro t
  obtain ⟨fs, types, b, -, hr⟩ := visitAll_returns h t.enter
  have hx : ((statements.foldl Table.declaring t.enter).collect fn (notesAll statements) b).exit? =
      some (t.collect fn (notesAll statements) b) := by
    rw [Table.exit?_collect, exit?_declaring_enter]
    rfl
  exact ⟨fs, .void, b, Returns.inScope (hr.bind_silent (.pure _ _)) hx⟩

/-- A visit of a statement returns. It leaves the table with the variable that the statement
declares, and with the notes of the statement in the record of the function around. -/
theorem visit_stmt {s : Node} (h : s.IsStmt) (fn : Option FunctionId) : s.Visits fn := by
  induction h with
  | expr he =>
    intro t
    rw [he.declaring, he.notes]
    exact visit_expr he fn t
  | varDecl hi => exact visits_varDecl hi
  | assign hv => exact visits_assign hv
  | @ifElse line cond a b hc _ ha _ hb iha ihb =>
    intro t
    have h₀ := Returns.updateEnclosing fn (·.addControl ⟨.ifElse, line⟩) t
    rw [Table.note_addControl] at h₀
    obtain ⟨f₁, _, b₁, h₁⟩ := visit_expr hc fn (t.collect fn (.ofControl .ifElse line) false)
    obtain ⟨f₂, _, b₂, h₂⟩ := iha _
    obtain ⟨f₃, _, b₃, h₃⟩ := ihb _
    rw [declaring_of_isBody ha] at h₂
    rw [declaring_of_isBody hb] at h₃
    have hr : (visit fn (.ifElse line cond a b)).Returns t _ _ _ :=
      h₀.silent_bind (h₁.bind (h₂.bind (h₃.bind_silent (.pure Ty.void _))))
    simp only [Table.collect_collect, Notes.append_none, Notes.append_assoc] at hr
    exact ⟨_, _, _, hr⟩
  | @forLoop line init cond update body _ hi hc _ hu _ hb ihi ihu ihb =>
    intro t
    have h₀ := Returns.updateEnclosing fn (·.addControl ⟨.forLoop, line⟩) t
    rw [Table.note_addControl] at h₀
    obtain ⟨f₁, _, b₁, h₁⟩ := ihi (t.collect fn (.ofControl .forLoop line) false)
    obtain ⟨f₂, _, b₂, h₂⟩ := visit_expr hc fn _
    obtain ⟨f₃, _, b₃, h₃⟩ := ihu _
    obtain ⟨f₄, _, b₄, h₄⟩ := ihb _
    rw [declaring_of_isUpdate hi] at h₁
    rw [declaring_of_isUpdate hu] at h₃
    rw [declaring_of_isBody hb] at h₄
    have hr : (visit fn (.forLoop line init cond update body)).Returns t _ _ _ :=
      h₀.silent_bind (h₁.bind (h₂.bind (h₃.bind (h₄.bind_silent (.pure Ty.void _)))))
    simp only [Table.collect_collect, Notes.append_none, Notes.append_assoc] at hr
    exact ⟨_, _, _, hr⟩
  | @whileLoop line cond body hc _ hb ihb =>
    intro t
    have h₀ := Returns.updateEnclosing fn (·.addControl ⟨.whileLoop, line⟩) t
    rw [Table.note_addControl] at h₀
    obtain ⟨f₁, _, b₁, h₁⟩ := visit_expr hc fn (t.collect fn (.ofControl .whileLoop line) false)
    obtain ⟨f₂, _, b₂, h₂⟩ := ihb _
    rw [declaring_of_isBody hb] at h₂
    have hr : (visit fn (.whileLoop line cond body)).Returns t _ _ _ :=
      h₀.silent_bind (h₁.bind (h₂.bind_silent (.pure Ty.void _)))
    simp only [Table.collect_collect, Notes.append_none] at hr
    exact ⟨_, _, _, hr⟩
  | ret hv => exact visits_ret hv
  | exprStmt he =>
    intro t
    obtain ⟨fs, type, b, hv⟩ := visit_expr he fn t
    exact ⟨fs, .void, b, hv.bind_silent (.pure _ _)⟩
  | callStmt he =>
    intro t
    obtain ⟨fs, type, b, hv⟩ := visit_expr he fn t
    exact ⟨fs, .void, b, hv.bind_silent (.pure _ _)⟩
  | block _ ih => exact visits_block ih

/-- The statements of a body. -/
def Node.statements : Node → List Node
  | .block _ statements => statements
  | _ => []

theorem Node.IsStmt.statements {body : Node} (h : body.IsStmt) :
    ∀ s ∈ body.statements, s.IsStmt := by
  intro s hs
  cases body with
  | block line statements =>
    cases h with
    | block h => exact h s hs
    | expr h => cases h
  | _ => simp [Node.statements] at hs

/-- The scope with a variable bound in it, unless the name is taken. -/
def Scope.bind (s : Scope) (v : Variable) : Scope :=
  if s.contains v.name then s else s.push v.name (.variable v)

theorem Scope.find?_bind (s : Scope) (v : Variable) (name : String) :
    (Scope.bind s v).find? name =
      (s.find? name).or (if name = v.name then some (.variable v) else none) := by
  cases hc : s.contains v.name with
  | true =>
    obtain ⟨first, hf⟩ := Option.isSome_iff_exists.mp hc
    rw [Scope.bind, if_pos hc]
    by_cases hx : name = v.name <;> simp [hx, hf]
  | false =>
    rw [Scope.bind, if_neg (by simp [hc]), NameMap.find?_push]

theorem Scope.contains_bind (s : Scope) (v : Variable) (name : String) :
    (Scope.bind s v).contains name = true ↔ name = v.name ∨ s.contains name = true := by
  simp only [NameMap.contains, Scope.find?_bind]
  by_cases hx : name = v.name <;> simp [hx]

namespace Table

theorem defineVariable_eq (t : Table) (v : Variable) :
    (t.defineVariable v).2 = { t with current := Scope.bind t.current v } := by
  cases h : t.current.contains v.name <;> simp [defineVariable, Scope.bind, h]

theorem registry_declaring (t : Table) (s : Node) : (t.declaring s).registry = t.registry := by
  cases hv : s.declared? with
  | none => simp only [declaring, hv]
  | some v => simp only [declaring, hv, defineVariable_eq]

theorem records_declare (t : Table) (f : Function) : (t.declare f).records = t.records ++ [f] := by
  cases h : t.current.contains f.name <;>
    simp [declare, defineFunction, registerFunction, h]

theorem registry_declare (t : Table) (f : Function) :
    (t.declare f).registry = t.registry.insert f.name t.nextId := by
  cases h : t.current.contains f.name <;>
    simp [declare, defineFunction, registerFunction, h]

theorem enclosing_declare (t : Table) (f : Function) :
    (t.declare f).enclosing = t.enclosing := by
  cases h : t.current.contains f.name <;>
    simp [declare, defineFunction, registerFunction, h]

theorem find?_declare (t : Table) (f : Function) (name : String) :
    (t.declare f).current.find? name =
      (t.current.find? name).or (if name = f.name then some (.function t.nextId) else none) := by
  cases h : t.current.contains f.name with
  | true =>
    obtain ⟨first, hf⟩ := Option.isSome_iff_exists.mp h
    by_cases hx : name = f.name <;> simp [declare, registerFunction, h, hx, hf]
  | false => simp [declare, defineFunction, h, NameMap.find?_push]

theorem registered?_eq_some_iff {t : Table} {name : String} {id : FunctionId} {f : Function} :
    t.registered? name = some (id, f) ↔
      t.registry.find? name = some id ∧ t.record? id = some f := by
  rw [registered?_eq, Option.bind_eq_some_iff]
  constructor
  · rintro ⟨i, hi, hf⟩
    obtain ⟨g, hg, he⟩ := Option.map_eq_some_iff.mp hf
    cases he
    exact ⟨hi, hg⟩
  · rintro ⟨hi, hf⟩
    exact ⟨id, hi, by rw [hf]; rfl⟩

theorem registered?_declare (t : Table) (f : Function) :
    (t.declare f).registered? f.name = some (t.nextId, f) := by
  refine registered?_eq_some_iff.mpr ⟨?_, ?_⟩
  · rw [registry_declare, NameMap.find?_insert, if_pos rfl]
  · simp [record?, records_declare, nextId]

theorem registered?_declare_of_registered {t : Table} {f g : Function} {name : String}
    {id : FunctionId} (hf : t.registry.contains f.name = false)
    (h : t.registered? name = some (id, g)) : (t.declare f).registered? name = some (id, g) := by
  obtain ⟨hid, hr⟩ := registered?_eq_some_iff.mp h
  have hne : name ≠ f.name := by
    rintro rfl
    simp [NameMap.contains, hid] at hf
  have hlt : id < t.records.length := (List.getElem?_eq_some_iff.mp hr).1
  refine registered?_eq_some_iff.mpr ⟨?_, ?_⟩
  · rw [registry_declare, NameMap.find?_insert, if_neg hne, hid]
  · rw [record?, records_declare, List.getElem?_append_left hlt]
    exact hr

/-- Every registered name is taken in the current scope, and its function has a record. -/
def Registered (t : Table) : Prop :=
  ∀ name id, t.registry.find? name = some id →
    t.current.contains name = true ∧ id < t.records.length

namespace Registered

theorem contains {t : Table} (h : t.Registered) {name : String}
    (hn : t.registry.contains name = true) : t.current.contains name = true := by
  obtain ⟨id, hid⟩ := Option.isSome_iff_exists.mp hn
  exact (h name id hid).1

theorem declare {t : Table} (h : t.Registered) (f : Function) : (t.declare f).Registered := by
  intro name id hid
  rw [registry_declare, NameMap.find?_insert] at hid
  rw [NameMap.contains, find?_declare, records_declare, List.length_append]
  by_cases hx : name = f.name
  · simp only [hx, if_true, Option.some.injEq] at hid
    simp [hx, ← hid, nextId]
  · rw [if_neg hx] at hid
    obtain ⟨hc, hlt⟩ := h name id hid
    rw [NameMap.contains] at hc
    exact ⟨by simp [hc], by simpa using Nat.lt_succ_of_lt hlt⟩

theorem declaring {t : Table} (h : t.Registered) (s : Node) : (t.declaring s).Registered := by
  cases hv : s.declared? with
  | none => simpa only [Table.declaring, hv] using h
  | some v =>
    simp only [Table.declaring, hv, defineVariable_eq]
    intro name id hid
    obtain ⟨hc, hlt⟩ := h name id hid
    rw [NameMap.contains] at hc
    refine ⟨?_, hlt⟩
    rw [NameMap.contains, Scope.find?_bind, Option.isSome_or, hc, Bool.true_or]

end Registered

private theorem declare_eq (t : Table) {f g : Function} (h : g.name = f.name) :
    t.declare g = { t.declare f with records := t.records ++ [g] } := by
  cases hc : t.current.contains f.name <;>
    simp [declare, defineFunction, registerFunction, h, hc]

private theorem modify_last {α : Type} (l : List α) (a : α) (change : α → α) :
    (l ++ [a]).modify l.length change = l ++ [change a] := by
  induction l with
  | nil => rfl
  | cons x l ih => simpa using ih

theorem current_addParameter (t : Table) (id : FunctionId) (v : Variable) :
    (t.addParameter id v).current = Scope.bind t.current v := by
  rw [addParameter, defineVariable_eq]
  rfl

private theorem addParameters_eq (params : List Variable) (t : Table) (rs : List Function)
    (f : Function) (h : t.records = rs ++ [f]) :
    params.foldl (addParameter rs.length) t =
      { t with
        current := params.foldl Scope.bind t.current
        records := rs ++ [{ f with parameters := f.parameters ++ params }] } := by
  induction params generalizing t f with
  | nil =>
    simp [← h]
  | cons v params ih =>
    have hv : t.addParameter rs.length v =
        { t with current := Scope.bind t.current v, records := rs ++ [f.addParameter v] } := by
      simp [addParameter, defineVariable_eq, updateFunction, h, modify_last]
    rw [List.foldl_cons, ih _ (f.addParameter v) (by rw [hv]), hv]
    simp [Function.addParameter]

theorem openFunction_eq (t : Table) (f : Function) (params : List Variable) :
    t.openFunction f params =
      { current := params.foldl Scope.bind .empty
        enclosing := (t.declare f).scopes
        registry := (t.declare f).registry
        records := t.records ++ [{ f with parameters := f.parameters ++ params }] } := by
  exact addParameters_eq params (t.declare f).enter t.records f (records_declare t f)

theorem openFunction_eq_enter (t : Table) (line : Int) (name : String) (returnText : Option String)
    (params : List Variable) :
    t.openFunction (Check.head line name returnText) params =
      { (t.declare (.declared name (Ty.ofReturnText returnText) line params)).enter with
        current := params.foldl Scope.bind .empty } := by
  have hd : t.declare (.declared name (Ty.ofReturnText returnText) line params) = _ :=
    declare_eq t (f := Check.head line name returnText) rfl
  rw [openFunction_eq, hd]
  rfl

/-- What is noted about the newest function stands in its record when its scope is left. -/
theorem exit?_openFunction (t : Table) (f : Function) (params : List Variable) (ss : List Node)
    (n : Notes) (b : Bool) :
    ((ss.foldl declaring (t.openFunction f params)).collect (some t.nextId) n b).exit? =
      some (t.declare ({ f with parameters := f.parameters ++ params }.collect n b)) := by
  obtain ⟨s, hs⟩ := declaring_all_eq ss (t.openFunction f params)
  have hd : t.declare ({ f with parameters := f.parameters ++ params }.collect n b) = _ :=
    declare_eq t (f := f) rfl
  rw [hs, openFunction_eq, hd]
  simp only [exit?, collect, note, updateFunction, scopes, nextId, modify_last]

theorem record?_openFunction (t : Table) (f : Function) (params : List Variable) (ss : List Node)
    (n : Notes) (b : Bool) :
    ((ss.foldl declaring (t.openFunction f params)).collect (some t.nextId) n b).record? t.nextId =
      some ({ f with parameters := f.parameters ++ params }.collect n b) := by
  obtain ⟨s, hs⟩ := declaring_all_eq ss (t.openFunction f params)
  rw [hs, openFunction_eq]
  simp [record?, collect, note, updateFunction, nextId, modify_last]

end Table

/-- The record that a function has after its declaration. -/
def functionRecord (line : Int) (name : String) (returnText : Option String) (params : List Param)
    (body : Node) (recursive : Bool) : Function :=
  (Function.declared name (Ty.ofReturnText returnText) line (params.map Param.variable)).collect
    body.notes recursive

theorem visitBody_returns {body : Node} (h : body.IsStmt) (hb : body.isBody)
    (fn : Option FunctionId) (t : Table) :
    ∃ fs b, (visitBody fn body).Returns t
      ((body.statements.foldl Table.declaring t).collect fn body.notes b) fs () := by
  cases body with
  | missing => exact ⟨[], false, by
      rw [show Node.notes .missing = .none from rfl, Table.collect_none]
      exact .pure () t⟩
  | block line statements =>
    obtain ⟨fs, types, b, -, hr⟩ :=
      visitAll_returns (fun s hs => visit_stmt (h.statements s hs) fn) t
    exact ⟨fs, b, hr.bind_silent (.pure () _)⟩
  | _ => simp [isBody] at hb

theorem visit_funcDecl {body : Node} (h : body.IsStmt) (hb : body.isBody)
    (fn : Option FunctionId) (line : Int) {name : String} (returnText : Option String)
    (params : List Param) {t : Table} (hf : t.registry.contains name = false) :
    ∃ fs b, (visit fn (.funcDecl line name returnText params body)).Returns t
      (t.declare (functionRecord line name returnText params body b)) fs .void := by
  obtain ⟨fs, b, hr⟩ := visitBody_returns h hb (some t.nextId)
    (t.openFunction (Check.head line name returnText) (params.map Param.variable))
  exact ⟨_, b, Check.returns_functionDecl hf hr (Table.exit?_openFunction t _ _ _ _ b)⟩

theorem visit_decl {d : Node} (h : d.IsDecl) (t : Table) :
    ∃ u fs type, (visit none d).Returns t u fs type := by
  cases h with
  | varDecl hi =>
    obtain ⟨fs, type, b, hr⟩ := visit_stmt (.varDecl hi) none t
    exact ⟨_, fs, type, hr⟩
  | @funcDecl line name returnText params body hs hb =>
    cases hc : t.registry.contains name with
    | true => exact ⟨_, _, _, Check.returns_functionDecl_taken hc⟩
    | false =>
      obtain ⟨fs, b, hr⟩ := visit_funcDecl hs hb none line returnText params hc
      exact ⟨_, _, _, hr⟩

theorem visitAll_decls {decls : List Node} (h : ∀ d ∈ decls, d.IsDecl) (t : Table) :
    ∃ u fs types, (visitAll none decls).Returns t u fs types := by
  induction decls generalizing t with
  | nil => exact ⟨t, [], [], .visitAll_nil none t⟩
  | cons d decls ih =>
    obtain ⟨u, fs, type, hd⟩ := visit_decl (h d (by simp)) t
    obtain ⟨v, gs, types, hds⟩ := ih (fun e he => h e (by simp [he])) u
    exact ⟨v, fs ++ gs, type :: types, hd.visitAll_cons hds⟩

theorem analyze_returns {line : Int} {decls : List Node} {t u : Table} {fs : List Finding}
    {types : List Ty} (h : (visitAll none decls).Returns t u fs types) :
    (analyze (.program line decls)).Returns t u fs () := by
  have hv : (visit none (.program line decls)).Returns t u fs .void :=
    h.bind_silent (.pure Ty.void u)
  exact hv.bind_silent (.pure () u)

end MiniCheck
