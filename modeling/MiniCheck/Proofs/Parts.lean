import MiniCheck.Proofs.Visits

/-!
# The parts of a run

A run over a grammatical construct consists of runs over its parts. Each statement here takes one
construct apart: the runs of the parts in their order, the findings in between, and the table.
-/

namespace MiniCheck

open Pass Node

namespace Pass.Returns

variable {fn : Option FunctionId} {t v : Table} {fs : List Finding} {type : Ty} {line : Int}

theorem of_missing (h : (visit fn .missing).Returns t v fs type) :
    v = t ∧ fs = [] ∧ type = .unknown :=
  h.unique (.pure _ t)

theorem of_literal {kind text : String}
    (h : (visit fn (.literal line kind text)).Returns t v fs type) :
    v = t ∧ fs = [] ∧ type = Ty.ofLiteralKind kind :=
  h.unique (.pure _ t)

theorem of_identifier {name : String}
    (h : (visit fn (.identifier line name)).Returns t v fs type) :
    v = t ∧ fs = Check.undeclared t line name ∧ type = t.typeOf name :=
  h.unique (Check.returns_identifierUse line name t)

theorem of_negation {inner : Node} (h : (visit fn (.negation line inner)).Returns t v fs type) :
    ∃ got, (visit fn inner).Returns t v fs got ∧ type = .bool := by
  obtain ⟨u, f₁, got, f₂, h₁, h₂, rfl⟩ := h.of_bind
  obtain ⟨rfl, rfl, rfl⟩ := h₂.unique (.pure _ u)
  exact ⟨got, by rwa [List.append_nil], rfl⟩

theorem of_binary {op : String} {left right : Node}
    (h : (visit fn (.binary line op left right)).Returns t v fs type) :
    ∃ u f₁ l f₂ r, (visit fn left).Returns t u f₁ l ∧ (visit fn right).Returns u v f₂ r ∧
      fs = f₁ ++ f₂ ∧ type = if isArithmetic op then l.join r else .bool := by
  obtain ⟨u, f₁, l, _, h₁, h', rfl⟩ := h.of_bind
  obtain ⟨w, f₂, r, _, h₂, h'', rfl⟩ := h'.of_bind
  obtain ⟨rfl, rfl, rfl⟩ := h''.unique (.pure _ w)
  exact ⟨u, f₁, l, f₂, r, h₁, h₂, by rw [List.append_nil], rfl⟩

theorem of_visitAll_nil {types : List Ty} (h : (visitAll fn []).Returns t v fs types) :
    v = t ∧ fs = [] ∧ types = [] :=
  h.unique (.pure _ t)

theorem of_visitAll_cons {n : Node} {ns : List Node} {types : List Ty}
    (h : (visitAll fn (n :: ns)).Returns t v fs types) :
    ∃ u f₁ got f₂ rest, (visit fn n).Returns t u f₁ got ∧ (visitAll fn ns).Returns u v f₂ rest ∧
      fs = f₁ ++ f₂ ∧ types = got :: rest := by
  obtain ⟨u, f₁, got, _, h₁, h', rfl⟩ := h.of_bind
  obtain ⟨w, f₂, rest, _, h₂, h'', rfl⟩ := h'.of_bind
  obtain ⟨rfl, rfl, rfl⟩ := h''.unique (.pure _ w)
  exact ⟨u, f₁, got, f₂, rest, h₁, h₂, by rw [List.append_nil], rfl⟩

private theorem args_return {args : List Node} (ha : ∀ a ∈ args, a.IsExpr) (t : Table) :
    ∃ b fs types, (visitAll fn args).Returns t (t.collect fn .none b) fs types := by
  have hv : ∀ a ∈ args, a.Visits fn := fun a hm => visit_stmt (.expr (ha a hm)) fn
  obtain ⟨fs, types, b, -, hr⟩ := visitAll_returns hv t
  rw [declaring_args ha, notesAll_args ha] at hr
  exact ⟨b, fs, types, hr⟩

theorem of_call_undefined {name : String} {args : List Node} (ha : ∀ a ∈ args, a.IsExpr)
    (hr : t.registered? name = none)
    (h : (visit fn (.call line name args)).Returns t v fs type) :
    ∃ gs types, (visitAll fn args).Returns t v gs types ∧
      fs = ⟨some line, .functionUndefined name⟩ :: gs ∧ type = .unknown := by
  obtain ⟨b, gs, types, hargs⟩ := args_return ha t
  obtain ⟨rfl, rfl, rfl⟩ := h.unique (Check.returns_functionCall_undefined hr hargs)
  exact ⟨gs, types, hargs, rfl, rfl⟩

theorem of_call {name : String} {args : List Node} {id : FunctionId} {callee : Function}
    (ha : ∀ a ∈ args, a.IsExpr) (hr : t.registered? name = some (id, callee))
    (h : (visit fn (.call line name args)).Returns t v fs type) :
    ∃ gs types, (visitAll fn args).Returns (Check.calling t fn name) v gs types ∧
      fs = Check.mainCalls line name (t.around fn) ++
        (gs ++ Check.misapplied line name callee types) ∧ type = callee.type := by
  obtain ⟨b, gs, types, hargs⟩ := args_return ha (Check.calling t fn name)
  obtain ⟨rfl, rfl, rfl⟩ := h.unique (Check.returns_functionCall hr hargs)
  exact ⟨gs, types, hargs, rfl, rfl⟩

/-- An expression leaves the table as it was, up to the mark of a recursive function. -/
theorem of_expr {e : Node} (he : e.IsExpr) (h : (visit fn e).Returns t v fs type) :
    ∃ b, v = t.collect fn .none b := by
  obtain ⟨gs, got, b, hr⟩ := visit_expr he fn t
  exact ⟨b, (h.unique hr).1⟩

theorem of_stmt {s : Node} (hs : s.IsStmt) (h : (visit fn s).Returns t v fs type) :
    ∃ b, v = (t.declaring s).collect fn s.notes b := by
  obtain ⟨gs, got, b, hr⟩ := visit_stmt hs fn t
  exact ⟨b, (h.unique hr).1⟩

/-- A missing initializer counts as an expression without a type. -/
theorem of_varDecl {name : String} {typeText : Option String} {isConst : Bool} {init : Node}
    {initText : Option String} (hi : init.IsExpr)
    (h : (visit fn (.varDecl line name typeText isConst init initText)).Returns t v fs type) :
    ∃ u gs got, (visit fn init).Returns t u gs got ∧
      v = (u.declaring (.varDecl line name typeText isConst init initText)).collect fn
        (Node.varDecl line name typeText isConst init initText).notes false ∧
      fs = Check.redeclared t (t.around fn) line name ++
        (Check.conflicts (t.around fn) line name ++
          (Check.uninitialized line name isConst init ++ (gs ++
            Check.mismatch line (Ty.ofText typeText) got
              (.initMismatch name (Ty.ofText typeText) got)))) ∧ type = .void := by
  cases hm : init.isMissing with
  | true =>
    obtain rfl := eq_missing_of_isMissing hm
    obtain ⟨rfl, rfl, rfl⟩ := h.unique
      (Check.returns_variableDecl (Check.returns_initializer_missing _ _ _ _ hm t))
    refine ⟨t, [], .unknown, .pure _ t, ?_, ?_, rfl⟩
    · rw [Table.note_addLocal]
      rfl
    · simp [Check.mismatch, Ty.accepts_unknown]
  | false =>
    obtain ⟨gs, got, b, hv⟩ := visit_expr hi fn t
    obtain ⟨text, ht⟩ := hi.initTextOf_eq_ok initText
    obtain ⟨rfl, rfl, rfl⟩ := h.unique
      (Check.returns_variableDecl (Check.returns_initializer _ hm hv ht))
    refine ⟨_, gs, got, hv, ?_, ?_, rfl⟩
    · rw [Table.note_addLocal]
      simp [Table.declaring, declared?, Node.notes, hm, ht, Except.toOption]
    · simp [Check.uninitialized, hm]

theorem of_assign_undeclared {name op : String} {value : Node} (hr : t.resolve name = none)
    (h : (visit fn (.assign line name op value)).Returns t v fs type) :
    v = t ∧ fs = [⟨some line, .targetUndeclared name⟩] ∧ type = .error :=
  h.unique (Check.returns_assignment_undeclared hr)

theorem of_assign_function {name op : String} {value : Node} {id : FunctionId}
    (hr : t.resolve name = some (.function id))
    (h : (visit fn (.assign line name op value)).Returns t v fs type) :
    v = t ∧ fs = [⟨some line, .targetNotVariable name⟩] ∧ type = .error :=
  h.unique (Check.returns_assignment_function hr)

theorem of_assign {name op : String} {value : Node} {x : Variable} (hi : value.IsExpr)
    (hr : t.resolve name = some (.variable x))
    (h : (visit fn (.assign line name op value)).Returns t v fs type) :
    ∃ gs got, (visit fn value).Returns t v gs got ∧
      fs = Check.constant line x name ++
        (gs ++ Check.mismatch line x.type got (.assignMismatch name x.type got)) ∧
      type = .void := by
  obtain ⟨gs, got, b, hv⟩ := visit_expr hi fn t
  obtain ⟨rfl, rfl, rfl⟩ := h.unique (Check.returns_assignment hr hv)
  exact ⟨gs, got, hv, rfl, rfl⟩

theorem of_ifElse {cond a b : Node} (h : (visit fn (.ifElse line cond a b)).Returns t v fs type) :
    ∃ t₁ t₂ f₁ f₂ f₃ g₁ g₂ g₃,
      (visit fn cond).Returns (t.collect fn (.ofControl .ifElse line) false) t₁ f₁ g₁ ∧
      (visit fn a).Returns t₁ t₂ f₂ g₂ ∧ (visit fn b).Returns t₂ v f₃ g₃ ∧
      fs = f₁ ++ (f₂ ++ f₃) ∧ type = .void := by
  obtain ⟨t₀, _, _, _, h₀, r₀, rfl⟩ := h.of_bind
  obtain ⟨rfl, rfl, -⟩ := h₀.unique (.updateEnclosing fn _ t)
  obtain ⟨t₁, f₁, g₁, _, h₁, r₁, rfl⟩ := r₀.of_bind
  obtain ⟨t₂, f₂, g₂, _, h₂, r₂, rfl⟩ := r₁.of_bind
  obtain ⟨t₃, f₃, g₃, _, h₃, r₃, rfl⟩ := r₂.of_bind
  obtain ⟨rfl, rfl, rfl⟩ := r₃.unique (.pure _ t₃)
  rw [Table.note_addControl] at h₁
  exact ⟨t₁, t₂, f₁, f₂, f₃, g₁, g₂, g₃, h₁, h₂, h₃, by simp, rfl⟩

theorem of_forLoop {init cond update body : Node}
    (h : (visit fn (.forLoop line init cond update body)).Returns t v fs type) :
    ∃ t₁ t₂ t₃ f₁ f₂ f₃ f₄ g₁ g₂ g₃ g₄,
      (visit fn init).Returns (t.collect fn (.ofControl .forLoop line) false) t₁ f₁ g₁ ∧
      (visit fn cond).Returns t₁ t₂ f₂ g₂ ∧ (visit fn update).Returns t₂ t₃ f₃ g₃ ∧
      (visit fn body).Returns t₃ v f₄ g₄ ∧ fs = f₁ ++ (f₂ ++ (f₃ ++ f₄)) ∧
      type = .void := by
  obtain ⟨t₀, _, _, _, h₀, r₀, rfl⟩ := h.of_bind
  obtain ⟨rfl, rfl, -⟩ := h₀.unique (.updateEnclosing fn _ t)
  obtain ⟨t₁, f₁, g₁, _, h₁, r₁, rfl⟩ := r₀.of_bind
  obtain ⟨t₂, f₂, g₂, _, h₂, r₂, rfl⟩ := r₁.of_bind
  obtain ⟨t₃, f₃, g₃, _, h₃, r₃, rfl⟩ := r₂.of_bind
  obtain ⟨t₄, f₄, g₄, _, h₄, r₄, rfl⟩ := r₃.of_bind
  obtain ⟨rfl, rfl, rfl⟩ := r₄.unique (.pure _ t₄)
  rw [Table.note_addControl] at h₁
  exact ⟨t₁, t₂, t₃, f₁, f₂, f₃, f₄, g₁, g₂, g₃, g₄, h₁, h₂, h₃, h₄, by simp, rfl⟩

theorem of_whileLoop {cond body : Node}
    (h : (visit fn (.whileLoop line cond body)).Returns t v fs type) :
    ∃ t₁ f₁ f₂ g₁ g₂,
      (visit fn cond).Returns (t.collect fn (.ofControl .whileLoop line) false) t₁ f₁ g₁ ∧
      (visit fn body).Returns t₁ v f₂ g₂ ∧ fs = f₁ ++ f₂ ∧ type = .void := by
  obtain ⟨t₀, _, _, _, h₀, r₀, rfl⟩ := h.of_bind
  obtain ⟨rfl, rfl, -⟩ := h₀.unique (.updateEnclosing fn _ t)
  obtain ⟨t₁, f₁, g₁, _, h₁, r₁, rfl⟩ := r₀.of_bind
  obtain ⟨t₂, f₂, g₂, _, h₂, r₂, rfl⟩ := r₁.of_bind
  obtain ⟨rfl, rfl, rfl⟩ := r₂.unique (.pure _ t₂)
  rw [Table.note_addControl] at h₁
  exact ⟨t₁, f₁, f₂, g₁, g₂, h₁, h₂, by simp, rfl⟩

theorem of_ret_outside {value : Node} (hf : t.around fn = none)
    (h : (visit fn (.ret line value)).Returns t v fs type) :
    v = t ∧ fs = [⟨some line, .returnOutside⟩] ∧ type = .error :=
  h.unique (Check.returns_returning_outside hf)

theorem of_ret_nothing {f : Function} (hf : t.around fn = some f)
    (h : (visit fn (.ret line .missing)).Returns t v fs type) :
    v = t.collect fn ⟨[], [], true⟩ false ∧
      fs = Check.mismatch line f.type .void (.returnMismatch f.name f.type .void) ∧
      type = .void := by
  have hv : (if Node.missing.isMissing then Pure.pure Ty.void else visit fn .missing).Returns
      (t.note fn (·.markReturn)) (t.note fn (·.markReturn)) [] .void := .pure _ _
  rw [← Table.note_markReturn]
  exact h.unique (Check.returns_returning hf hv)

theorem of_ret {value : Node} {f : Function} (hi : value.IsExpr) (hm : value.isMissing = false)
    (hf : t.around fn = some f) (h : (visit fn (.ret line value)).Returns t v fs type) :
    ∃ gs got, (visit fn value).Returns (t.collect fn ⟨[], [], true⟩ false) v gs got ∧
      fs = gs ++ Check.mismatch line f.type got (.returnMismatch f.name f.type got) ∧
      type = .void := by
  rw [← Table.note_markReturn]
  obtain ⟨gs, got, b, hr⟩ := visit_expr hi fn (t.note fn (·.markReturn))
  have hv : (if value.isMissing then Pure.pure Ty.void else visit fn value).Returns
      (t.note fn (·.markReturn)) ((t.note fn (·.markReturn)).collect fn .none b) gs got := by
    rw [hm]
    exact hr
  obtain ⟨rfl, rfl, rfl⟩ := h.unique (Check.returns_returning hf hv)
  exact ⟨gs, got, hr, rfl, rfl⟩

theorem of_exprStmt {expr : Node} (h : (visit fn (.exprStmt line expr)).Returns t v fs type) :
    ∃ got, (visit fn expr).Returns t v fs got ∧ type = .void := by
  obtain ⟨u, f₁, got, _, h₁, r₁, rfl⟩ := h.of_bind
  obtain ⟨rfl, rfl, rfl⟩ := r₁.unique (.pure _ u)
  exact ⟨got, by rwa [List.append_nil], rfl⟩

theorem of_callStmt {call : Node} (h : (visit fn (.callStmt line call)).Returns t v fs type) :
    ∃ got, (visit fn call).Returns t v fs got ∧ type = .void := by
  obtain ⟨u, f₁, got, _, h₁, r₁, rfl⟩ := h.of_bind
  obtain ⟨rfl, rfl, rfl⟩ := r₁.unique (.pure _ u)
  exact ⟨got, by rwa [List.append_nil], rfl⟩

theorem of_block {statements : List Node}
    (h : (visit fn (.block line statements)).Returns t v fs type) :
    ∃ u types, (visitAll fn statements).Returns t.enter u fs types ∧ u.exit? = some v ∧
      type = .void := by
  obtain ⟨u, hr, hx⟩ := of_inScope h
  obtain ⟨w, f₁, types, _, h₁, r₁, rfl⟩ := hr.of_bind
  obtain ⟨rfl, rfl, rfl⟩ := r₁.unique (.pure _ w)
  exact ⟨u, types, by rwa [List.append_nil], hx, rfl⟩

theorem of_funcDecl_taken {name : String} {returnText : Option String} {params : List Param}
    {body : Node} (hc : t.registry.contains name = true)
    (h : (visit fn (.funcDecl line name returnText params body)).Returns t v fs type) :
    v = t ∧ fs = [⟨some line, .functionRedefined name⟩] ∧ type = .error :=
  h.unique (Check.returns_functionDecl_taken hc)

theorem of_funcDecl {name : String} {returnText : Option String} {params : List Param}
    {body : Node} (hs : body.IsStmt) (hb : body.isBody) (hc : t.registry.contains name = false)
    (h : (visit fn (.funcDecl line name returnText params body)).Returns t v fs type) :
    ∃ gs b, (visitBody (some t.nextId) body).Returns
        (t.openFunction (Check.head line name returnText) (params.map Param.variable))
        ((body.statements.foldl Table.declaring
          (t.openFunction (Check.head line name returnText) (params.map Param.variable))).collect
            (some t.nextId) body.notes b) gs () ∧
      v = t.declare (functionRecord line name returnText params body b) ∧
      fs = Check.hidden t (Check.head line name returnText) ++
        (Check.repeated t.nextId name (t.declare (Check.head line name returnText)).enter params ++
          (gs ++ Check.unfinished (some (functionRecord line name returnText params body b)) line
            name (Ty.ofReturnText returnText))) ∧
      type = .void := by
  obtain ⟨gs, b, hr⟩ := visitBody_returns hs hb (some t.nextId)
    (t.openFunction (Check.head line name returnText) (params.map Param.variable))
  obtain ⟨rfl, rfl, rfl⟩ := h.unique
    (Check.returns_functionDecl hc hr (Table.exit?_openFunction t _ _ _ _ b))
  refine ⟨gs, b, hr, rfl, ?_, rfl⟩
  rw [Table.record?_openFunction]
  rfl

theorem of_visitBody {body : Node} (hb : body.isBody)
    (h : (visitBody fn body).Returns t v fs ()) :
    ∃ types, (visitAll fn body.statements).Returns t v fs types := by
  cases body with
  | missing =>
    obtain ⟨rfl, rfl, -⟩ := h.unique (.pure () t)
    exact ⟨[], .pure [] v⟩
  | block line statements =>
    obtain ⟨w, f₁, types, f₂, hr, hp, rfl⟩ := h.of_bind
    obtain ⟨rfl, rfl, -⟩ := hp.unique (.pure () w)
    exact ⟨types, by rwa [List.append_nil]⟩
  | _ => simp [isBody] at hb

end Pass.Returns

end MiniCheck
