import MiniCheck.Proofs.Subvisits

/-!
# Stages of a visit

The visit of a grammatical node opens with the findings about the node itself, goes on with the
visits of its parts in a row, and ends with what compares the types of the parts, or with what is
asked of a function at its end. The first stage is read off the table in which the visit begins.
-/

namespace MiniCheck

open Pass Node

/-- The constructs that are checked before their parts are visited. -/
inductive Site where
  | variable
  | function
  | assignment
  | result
  | call
  | name
  deriving DecidableEq

/-- When a rule is checked: before the parts of a construct are visited, after them, at the end of a
function, or at the end of the program. -/
inductive Stage where
  | opening (site : Site)
  | comparing
  | closing
  | final
  deriving DecidableEq

def Stage.isOpening : Stage → Bool
  | opening _ => true
  | _ => false

def Violation.stage : Violation → Stage
  | globalRedefined _ | localRedefined .. | parameterConflict _ | constUninitialized _ =>
      .opening .variable
  | functionRedefined _ | nameOfVariable _ | parameterRepeated .. => .opening .function
  | targetUndeclared _ | targetNotVariable _ | constAssigned _ => .opening .assignment
  | returnOutside => .opening .result
  | functionUndefined _ | mainCalled => .opening .call
  | variableUndeclared _ => .opening .name
  | initMismatch .. | assignMismatch .. | returnMismatch .. | argumentCount ..
  | argumentMismatch .. => .comparing
  | returnMissing .. | mainRecursive => .closing
  | mainMissing => .final

def Node.site? : Node → Option Site
  | .varDecl .. => some .variable
  | .funcDecl .. => some .function
  | .assign .. => some .assignment
  | .ret .. => some .result
  | .call .. => some .call
  | .identifier .. => some .name
  | _ => none

/-- The finding has a line, and its rule is checked at the stage. -/
def Finding.At (stage : Stage) (f : Finding) : Prop :=
  f.line.isSome = true ∧ f.violation.stage = stage

/-- The findings that a visit opens with. -/
def Visit.early (v : Visit) : List Finding :=
  match v.node with
  | .varDecl line name _ isConst init _ =>
      Check.redeclared v.table (v.table.around v.fn) line name ++
        (Check.conflicts (v.table.around v.fn) line name ++
          Check.uninitialized line name isConst init)
  | .funcDecl line name returnText params _ =>
      if v.table.registry.contains name then [⟨some line, .functionRedefined name⟩]
      else Check.hidden v.table (Check.head line name returnText) ++
        Check.repeated v.table.nextId name (v.table.declare (Check.head line name returnText)).enter
          params
  | .assign line name _ _ =>
      match v.table.resolve name with
      | none => [⟨some line, .targetUndeclared name⟩]
      | some (.function _) => [⟨some line, .targetNotVariable name⟩]
      | some (.variable x) => Check.constant line x name
  | .ret line _ => if (v.table.around v.fn).isSome then [] else [⟨some line, .returnOutside⟩]
  | .call line name _ =>
      if (v.table.registered? name).isSome then Check.mainCalls line name (v.table.around v.fn)
      else [⟨some line, .functionUndefined name⟩]
  | .identifier line name => Check.undeclared v.table line name
  | _ => []

/-- Whether the function around is marked as recursive. -/
def Table.recursive? (t : Table) (fn : Option FunctionId) : Option Bool :=
  (t.around fn).map (·.isRecursive)

/-- Whether the visit opens with the mark of a recursive function. -/
def Visit.marks (v : Visit) : Bool :=
  match v.node with
  | .call _ name _ =>
      (v.table.registered? name).isSome && (v.table.around v.fn).any (·.name == name)
  | _ => false

namespace Visit

variable {fn : Option FunctionId} {line : Int} {name : String} {returnText : Option String}
  {params : List Param} {body : Node} {t : Table}

theorem early_funcDecl (hc : t.registry.contains name = false) :
    early ⟨fn, .funcDecl line name returnText params body, t⟩ =
      Check.hidden t (Check.head line name returnText) ++ Check.repeated t.nextId name
        (t.declare (Check.head line name returnText)).enter params := by
  simp [early, hc]

theorem parts_funcDecl (hc : t.registry.contains name = false) :
    parts ⟨fn, .funcDecl line name returnText params body, t⟩ = body.statements := by
  simp [parts, hc]

theorem opened_funcDecl (hc : t.registry.contains name = false) :
    opened ⟨fn, .funcDecl line name returnText params body, t⟩ =
      t.openFunction (Check.head line name returnText) (params.map Param.variable) := by
  simp [opened, hc]

end Visit

namespace Check

private theorem at_ite {c : Prop} [Decidable c] {stage : Stage} {f : Finding} (h : f.At stage) :
    ∀ g ∈ (if c then [f] else []), g.At stage := by
  intro g hg
  split at hg
  · rw [List.mem_singleton.mp hg]
    exact h
  · cases hg

private theorem mismatch_at {line : Int} {target source : Ty} {v : Violation}
    (h : v.stage = .comparing) :
    ∀ f ∈ mismatch line target source v, f.At .comparing := by
  intro f hf
  rw [mismatch] at hf
  split at hf
  · cases hf
  · rw [List.mem_singleton.mp hf]
    exact ⟨rfl, h⟩

private theorem mismatches_at (line : Int) (function : String) (first : Nat)
    (pairs : List (Ty × Variable)) :
    ∀ f ∈ mismatches line function first pairs, f.At .comparing := by
  induction pairs generalizing first with
  | nil => exact fun f hf => nomatch hf
  | cons pair pairs ih =>
    intro f hf
    rcases List.mem_append.mp hf with hf | hf
    · exact mismatch_at rfl f hf
    · exact ih (first + 1) f hf

private theorem misapplied_at (line : Int) (name : String) (callee : Function) (got : List Ty) :
    ∀ f ∈ misapplied line name callee got, f.At .comparing := by
  rw [misapplied]
  split
  · exact mismatches_at line name 1 _
  · intro f hf
    rw [List.mem_singleton.mp hf]
    exact ⟨rfl, rfl⟩

theorem unfinished_at (f : Option Function) (line : Int) (name : String) (type : Ty) :
    ∀ x ∈ unfinished f line name type, x.At .closing := by
  intro x hx
  rcases List.mem_append.mp hx with hx | hx
  · exact at_ite ⟨rfl, rfl⟩ x hx
  · exact at_ite ⟨rfl, rfl⟩ x hx

private theorem redeclared_at (t : Table) (around : Option Function) (line : Int) (name : String) :
    ∀ f ∈ redeclared t around line name, f.At (.opening .variable) := by
  cases around with
  | none => exact at_ite ⟨rfl, rfl⟩
  | some f => exact at_ite ⟨rfl, rfl⟩

private theorem conflicts_at (around : Option Function) (line : Int) (name : String) :
    ∀ f ∈ conflicts around line name, f.At (.opening .variable) := by
  intro f hf
  cases around with
  | none => cases hf
  | some g =>
    obtain ⟨p, -, rfl⟩ := List.mem_map.mp hf
    exact ⟨rfl, rfl⟩

private theorem repeated_at (id : FunctionId) (function : String) (t : Table)
    (params : List Param) :
    ∀ f ∈ repeated id function t params, f.At (.opening .function) := by
  induction params generalizing t with
  | nil => exact fun f hf => nomatch hf
  | cons p params ih =>
    intro f hf
    rcases List.mem_append.mp hf with hf | hf
    · exact at_ite ⟨rfl, rfl⟩ f hf
    · exact ih _ f hf

end Check

/-- A visit opens with findings about its own node. -/
theorem Visit.early_at (v : Visit) :
    ∀ f ∈ v.early, ∃ site, v.node.site? = some site ∧ f.At (.opening site) := by
  obtain ⟨fn, node, t⟩ := v
  intro f hf
  cases node with
  | varDecl line name typeText isConst init initText =>
    refine ⟨.variable, rfl, ?_⟩
    rcases List.mem_append.mp hf with hf | hf
    · exact Check.redeclared_at _ _ _ _ f hf
    rcases List.mem_append.mp hf with hf | hf
    · exact Check.conflicts_at _ _ _ f hf
    · exact Check.at_ite ⟨rfl, rfl⟩ f hf
  | funcDecl line name returnText params body =>
    refine ⟨.function, rfl, ?_⟩
    simp only [early] at hf
    split at hf
    · rw [List.mem_singleton.mp hf]
      exact ⟨rfl, rfl⟩
    rcases List.mem_append.mp hf with hf | hf
    · exact Check.at_ite ⟨rfl, rfl⟩ f hf
    · exact Check.repeated_at _ _ _ _ f hf
  | assign line name op value =>
    refine ⟨.assignment, rfl, ?_⟩
    simp only [early] at hf
    split at hf
    · rw [List.mem_singleton.mp hf]
      exact ⟨rfl, rfl⟩
    · rw [List.mem_singleton.mp hf]
      exact ⟨rfl, rfl⟩
    · exact Check.at_ite ⟨rfl, rfl⟩ f hf
  | ret line value =>
    refine ⟨.result, rfl, ?_⟩
    simp only [early] at hf
    split at hf
    · cases hf
    · rw [List.mem_singleton.mp hf]
      exact ⟨rfl, rfl⟩
  | call line name args =>
    refine ⟨.call, rfl, ?_⟩
    simp only [early] at hf
    split at hf
    · exact Check.at_ite ⟨rfl, rfl⟩ f hf
    · rw [List.mem_singleton.mp hf]
      exact ⟨rfl, rfl⟩
  | identifier line name => exact ⟨.name, rfl, Check.at_ite ⟨rfl, rfl⟩ f hf⟩
  | _ => cases hf

/-- What is asked of a function at its end is not asked before. -/
theorem Visit.early_ne_closing (v : Visit) : ∀ f ∈ v.early, f.violation.stage ≠ .closing := by
  intro f hf
  obtain ⟨site, -, -, hstage⟩ := v.early_at f hf
  rw [hstage]
  exact nofun

/-- Findings of a kind that is checked elsewhere are not among those that a visit opens with. -/
theorem filter_early_eq_nil {v : Visit} {p : Finding → Bool}
    (h : ∀ f, p f = true → ∀ site, f.violation.stage = .opening site → v.node.site? ≠ some site) :
    v.early.filter p = [] := by
  rw [List.filter_eq_nil_iff]
  intro f hf hp
  obtain ⟨site, hsite, -, hstage⟩ := v.early_at f hf
  exact h f hp site hstage hsite

private theorem Table.recursive?_collect (t : Table) (fn : Option FunctionId) (n : Notes)
    (b : Bool) :
    (t.collect fn n b).recursive? fn = (t.recursive? fn).map (· || b) := by
  rw [recursive?, around_collect, Option.map_map, recursive?, Option.map_map]
  rfl

/-- A statement opens with a new scope, or with notes about the function around. -/
theorem Visit.opened_stmt {v : Visit} (hs : v.node.IsStmt) :
    v.opened = v.table.enter ∧ v.marks = false ∨
      ∃ n, v.opened = v.table.collect v.fn n v.marks := by
  obtain ⟨fn, node, t⟩ := v
  have hsame : ∃ n, t = t.collect fn n false := ⟨.none, (t.collect_none fn).symm⟩
  cases hs with
  | expr he =>
    cases he with
    | @call line name args =>
      right
      cases hr : t.registered? name with
      | none => exact ⟨.none, by simp [opened, marks, hr]⟩
      | some found => exact ⟨.none, by simp [opened, marks, hr, Table.calling_eq_collect]⟩
    | _ => exact .inr hsame
  | ifElse => exact .inr ⟨_, t.note_addControl fn _ _⟩
  | forLoop => exact .inr ⟨_, t.note_addControl fn _ _⟩
  | whileLoop => exact .inr ⟨_, t.note_addControl fn _ _⟩
  | ret => exact .inr ⟨_, t.note_markReturn fn⟩
  | block => exact .inl ⟨rfl, rfl⟩
  | _ => exact .inr hsame

theorem Visit.recursive?_opened {v : Visit} (hs : v.node.IsStmt) :
    v.opened.recursive? v.fn = (v.table.recursive? v.fn).map (· || v.marks) := by
  rcases v.opened_stmt hs with ⟨ho, hm⟩ | ⟨n, ho⟩
  · rw [ho, hm]
    have hkeep : v.table.enter.recursive? v.fn = v.table.recursive? v.fn := rfl
    simp [hkeep]
  · rw [ho, Table.recursive?_collect]

section

variable {fn : Option FunctionId} {t u : Table} {fs : List Finding} {type : Ty}

theorem Pass.Returns.visitAll_one {n : Node} (h : (visit fn n).Returns t u fs type) :
    (visitAll fn [n]).Returns t u fs [type] := by
  have hn := h.visitAll_cons (.visitAll_nil fn u)
  rwa [List.append_nil] at hn

/-- What the parts of a statement leave, and what comes after them. -/
def Visit.Staged (v : Visit) (u : Table) (fs : List Finding) : Prop :=
  ∃ w gs types late, (visitAll v.fn v.parts).Returns v.opened w gs types ∧
    fs = v.early ++ (gs ++ late) ∧ (∀ f ∈ late, f.At .comparing) ∧
    u.recursive? v.fn = w.recursive? v.fn

private theorem staged_parts {s : Node} {types : List Ty}
    (h : (visitAll fn (Visit.parts ⟨fn, s, t⟩)).Returns (Visit.opened ⟨fn, s, t⟩) u fs types)
    (he : Visit.early ⟨fn, s, t⟩ = []) : Visit.Staged ⟨fn, s, t⟩ u fs := by
  refine ⟨u, fs, types, [], h, ?_, List.forall_mem_nil _, rfl⟩
  rw [he, List.nil_append, List.append_nil]

private theorem staged_expr {e : Node} (he : e.IsExpr) (h : (visit fn e).Returns t u fs type) :
    Visit.Staged ⟨fn, e, t⟩ u fs := by
  cases he with
  | missing =>
    obtain ⟨rfl, rfl, -⟩ := h.of_missing
    exact staged_parts (.visitAll_nil fn u) rfl
  | literal =>
    obtain ⟨rfl, rfl, -⟩ := h.of_literal
    exact staged_parts (.visitAll_nil fn u) rfl
  | identifier =>
    obtain ⟨rfl, rfl, -⟩ := h.of_identifier
    refine ⟨u, [], [], [], .visitAll_nil fn u, ?_, List.forall_mem_nil _, rfl⟩
    rw [List.append_nil, List.append_nil]
    rfl
  | paren hi => exact staged_parts (Returns.visitAll_one h) rfl
  | negation hi =>
    obtain ⟨got, hr, -⟩ := h.of_negation
    exact staged_parts hr.visitAll_one rfl
  | binary hl hr =>
    obtain ⟨w, f₁, l, f₂, r, h₁, h₂, rfl, -⟩ := h.of_binary
    exact staged_parts (h₁.visitAll_cons h₂.visitAll_one) rfl
  | @call line name args ha =>
    cases hr : t.registered? name with
    | none =>
      obtain ⟨gs, types, hv, rfl, -⟩ := h.of_call_undefined ha hr
      refine ⟨u, gs, types, [], ?_, ?_, List.forall_mem_nil _, rfl⟩
      · simpa [Visit.opened, Visit.parts, hr] using hv
      · simp [Visit.early, hr]
    | some found =>
      obtain ⟨gs, types, hv, rfl, -⟩ := h.of_call ha hr
      refine ⟨u, gs, types, Check.misapplied line name found.2 types, ?_, ?_,
        Check.misapplied_at line name found.2 types, rfl⟩
      · simpa [Visit.opened, Visit.parts, hr] using hv
      · simp [Visit.early, hr]

private theorem staged_varDecl {line : Int} {name : String} {typeText : Option String}
    {isConst : Bool} {init : Node} {initText : Option String} (hi : init.IsExpr)
    (h : (visit fn (.varDecl line name typeText isConst init initText)).Returns t u fs type) :
    Visit.Staged ⟨fn, .varDecl line name typeText isConst init initText, t⟩ u fs := by
  obtain ⟨w, gs, got, hv, rfl, rfl, -⟩ := h.of_varDecl hi
  refine ⟨w, gs, [got], Check.mismatch line (Ty.ofText typeText) got
    (.initMismatch name (Ty.ofText typeText) got), hv.visitAll_one, ?_, Check.mismatch_at rfl, ?_⟩
  · simp only [Visit.early, List.append_assoc]
  · have hdecl := w.around_declaring fn (.varDecl line name typeText isConst init initText)
    rw [Table.recursive?_collect, Table.recursive?, hdecl, ← Table.recursive?]
    simp

private theorem staged_assign {line : Int} {name op : String} {value : Node} (hv : value.IsExpr)
    (h : (visit fn (.assign line name op value)).Returns t u fs type) :
    Visit.Staged ⟨fn, .assign line name op value, t⟩ u fs := by
  cases hr : t.resolve name with
  | none =>
    obtain ⟨rfl, rfl, -⟩ := h.of_assign_undeclared hr
    refine ⟨u, [], [], [], ?_, ?_, List.forall_mem_nil _, rfl⟩
    · simpa [Visit.parts, Visit.opened, hr] using Returns.visitAll_nil fn u
    · simp [Visit.early, hr]
  | some s =>
    cases s with
    | function id =>
      obtain ⟨rfl, rfl, -⟩ := h.of_assign_function hr
      refine ⟨u, [], [], [], ?_, ?_, List.forall_mem_nil _, rfl⟩
      · simpa [Visit.parts, Visit.opened, hr] using Returns.visitAll_nil fn u
      · simp [Visit.early, hr]
    | «variable» x =>
      obtain ⟨gs, got, hval, rfl, -⟩ := h.of_assign hv hr
      refine ⟨u, gs, [got], Check.mismatch line x.type got (.assignMismatch name x.type got), ?_,
        ?_, Check.mismatch_at rfl, rfl⟩
      · simpa [Visit.parts, Visit.opened, hr] using hval.visitAll_one
      · simp [Visit.early, hr]

private theorem staged_ret {line : Int} {value : Node} (hv : value.IsExpr)
    (h : (visit fn (.ret line value)).Returns t u fs type) :
    Visit.Staged ⟨fn, .ret line value, t⟩ u fs := by
  cases hf : t.around fn with
  | none =>
    obtain ⟨rfl, rfl, -⟩ := h.of_ret_outside hf
    have hopened : Visit.opened ⟨fn, .ret line value, u⟩ = u := by
      rw [Visit.opened, Table.note_markReturn, Table.collect_of_around_none _ _ _ _ hf]
    refine ⟨u, [], [], [], ?_, ?_, List.forall_mem_nil _, rfl⟩
    · rw [hopened]
      simpa [Visit.parts, hf] using Returns.visitAll_nil fn u
    · simp [Visit.early, hf]
  | some f =>
    have hopened : Visit.opened ⟨fn, .ret line value, t⟩ = t.collect fn ⟨[], [], true⟩ false :=
      t.note_markReturn fn
    have hparts : Visit.parts ⟨fn, .ret line value, t⟩ = [value] := by simp [Visit.parts, hf]
    have hearly : Visit.early ⟨fn, .ret line value, t⟩ = [] := by simp [Visit.early, hf]
    rw [Visit.Staged, hopened, hparts, hearly]
    cases hm : value.isMissing with
    | true =>
      obtain rfl := eq_missing_of_isMissing hm
      obtain ⟨rfl, rfl, -⟩ := h.of_ret_nothing hf
      exact ⟨_, [], _, _, Returns.visitAll_one (.pure _ _), rfl, Check.mismatch_at rfl, rfl⟩
    | false =>
      obtain ⟨gs, got, hval, rfl, -⟩ := h.of_ret hv hm hf
      exact ⟨u, gs, _, _, hval.visitAll_one, rfl, Check.mismatch_at rfl, rfl⟩

theorem staged_stmt {s : Node} (hs : s.IsStmt) (h : (visit fn s).Returns t u fs type) :
    Visit.Staged ⟨fn, s, t⟩ u fs := by
  cases hs with
  | expr he => exact staged_expr he h
  | varDecl hi => exact staged_varDecl hi h
  | assign hv => exact staged_assign hv h
  | ret hv => exact staged_ret hv h
  | ifElse =>
    obtain ⟨t₁, t₂, f₁, f₂, f₃, _, _, _, h₁, h₂, h₃, rfl, -⟩ := h.of_ifElse
    rw [← Table.note_addControl] at h₁
    exact staged_parts (h₁.visitAll_cons (h₂.visitAll_cons h₃.visitAll_one)) rfl
  | forLoop =>
    obtain ⟨t₁, t₂, t₃, f₁, f₂, f₃, f₄, _, _, _, _, h₁, h₂, h₃, h₄, rfl, -⟩ := h.of_forLoop
    rw [← Table.note_addControl] at h₁
    exact staged_parts
      (h₁.visitAll_cons (h₂.visitAll_cons (h₃.visitAll_cons h₄.visitAll_one))) rfl
  | whileLoop =>
    obtain ⟨t₁, f₁, f₂, _, _, h₁, h₂, rfl, -⟩ := h.of_whileLoop
    rw [← Table.note_addControl] at h₁
    exact staged_parts (h₁.visitAll_cons h₂.visitAll_one) rfl
  | exprStmt =>
    obtain ⟨got, hr, -⟩ := h.of_exprStmt
    exact staged_parts hr.visitAll_one rfl
  | callStmt =>
    obtain ⟨got, hr, -⟩ := h.of_callStmt
    exact staged_parts hr.visitAll_one rfl
  | block =>
    obtain ⟨w, types, hr, hx, -⟩ := h.of_block
    refine ⟨w, fs, types, [], hr, by rw [List.append_nil]; rfl, List.forall_mem_nil _, ?_⟩
    rw [Table.recursive?, Table.around_of_exit? w fn hx, Table.recursive?]

end

/-- Every finding that the pass makes has `P`. -/
def Pass.Reports {α : Type} (P : Finding → Prop) (p : Pass α) : Prop :=
  ∀ t, ∀ x ∈ (p.run t).findings, P x

namespace Pass.Reports

variable {α β : Type} {P : Finding → Prop}

theorem of_returns {p : Pass α} {t u : Table} {fs : List Finding} {a : α} (hp : p.Reports P)
    (h : p.Returns t u fs a) : ∀ x ∈ fs, P x := by
  have hx := hp t
  rwa [h] at hx

private theorem of_silent {p : Pass α} (h : ∀ t, (p.run t).findings = []) : p.Reports P := by
  intro t x hx
  rw [h t] at hx
  cases hx

theorem pure (a : α) : (Pure.pure a : Pass α).Reports P := of_silent fun _ => rfl

theorem update (change : Table → Table) : (Pass.update change).Reports P := of_silent fun _ => rfl

theorem lift (r : Except Fault α) : (Pass.lift r).Reports P := of_silent fun _ => rfl

theorem updateEnclosing (fn : Option FunctionId) (change : Function → Function) :
    (Pass.updateEnclosing fn change).Reports P := by
  cases fn with
  | none => exact .pure ()
  | some id => exact .update _

private theorem report {line : Int} {v : Violation} (h : P ⟨some line, v⟩) :
    (Pass.report line v).Reports P := by
  intro t x hx
  rwa [List.mem_singleton.mp hx]

theorem reportIf {c : Bool} {line : Int} {v : Violation} (h : P ⟨some line, v⟩) :
    (Pass.reportIf c line v).Reports P := by
  cases c
  · exact .pure ()
  · exact .report h

theorem bind {p : Pass α} {f : α → Pass β} (hp : p.Reports P) (hf : ∀ a, (f a).Reports P) :
    (p >>= f).Reports P := by
  intro t x hx
  rcases p.returns_or_stops t with ⟨u, fs, a, h⟩ | ⟨u, fs, e, h⟩
  · have hr : (p.run t).result = .ok a := by rw [h]
    rw [run_bind_of_ok hr] at hx
    exact (List.mem_append.mp hx).elim (hp t x) (hf a _ x)
  · have hr : (p.run t).result = .error e := by rw [h]
    rw [run_bind_of_error hr] at hx
    exact hp t x hx

end Pass.Reports

theorem visitAll_reports {fn : Option FunctionId} {ns : List Node} {P : Finding → Prop}
    (h : ∀ n ∈ ns, (visit fn n).Reports P) : (visitAll fn ns).Reports P := by
  induction ns with
  | nil => exact .pure _
  | cons n ns ih =>
    exact .bind (h n (by simp)) fun _ => .bind (ih fun m hm => h m (by simp [hm])) fun _ => .pure _

end MiniCheck
