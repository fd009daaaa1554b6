import MiniCheck.Proofs.Brackets
import MiniCheck.Proofs.Redeclaration
import Mathlib.Logic.Relation

/-!
# Variables with the name of a parameter

While the body of a function is visited, its record lists all its parameters, those with a repeated
name as well. A variable is compared with each of them. So its visit finds as many conflicts as
there are parameters with its name, and more than one if the parameter is repeated. -/

namespace MiniCheck

open Pass Node

def Finding.isConflict (f : Finding) : Bool :=
  match f.violation with
  | .parameterConflict _ => true
  | _ => false

private theorem Table.Retains.note {t : Table} {fn : Option FunctionId}
    {change : Function → Function} (h : Note change) : t.Retains (t.note fn change) := by
  cases fn with
  | none => exact of_records List.prefix_rfl
  | some id => exact of_spares (.note h)

namespace Visit

variable {v w : Visit}

private theorem retains_opened (v : Visit) : v.table.Retains v.opened := by
  obtain ⟨fn, node, t⟩ := v
  have hsame : t.Retains t := .of_records List.prefix_rfl
  cases node with
  | funcDecl line name returnText params body =>
    rw [opened]
    dsimp only
    split
    · exact hsame
    · exact .of_records (t.records_prefix_openFunction _ _)
  | ifElse => exact .note (.addControl _)
  | forLoop => exact .note (.addControl _)
  | whileLoop => exact .note (.addControl _)
  | ret => exact .note .markReturn
  | call line name args =>
    have hcalling : t.Retains (Check.calling t fn name) := by
      rw [Check.calling]
      split
      · exact .note .markRecursive
      · exact hsame
    rw [opened]
    dsimp only
    split
    · exact hcalling
    · exact hsame
  | _ => exact hsame

private theorem Calls.retains (h : v.Calls w) : v.opened.Retains w.table := by
  cases h with
  | part _ hr => exact .of_spares ((visitAll_behaves _ _).returns hr).spares

private theorem retains_of_calls (h : Relation.ReflTransGen Calls v w) :
    v.table.Retains w.table := by
  induction h with
  | refl => exact .of_records List.prefix_rfl
  | @tail x y _ hc ih => exact ih.trans (x.retains_opened.trans hc.retains)

end Visit

namespace Pass

variable {α β : Type}

private theorem findings_bind {p : Pass α} {t u : Table} {fs : List Finding} {a : α}
    (h : p.Returns t u fs a) (f : α → Pass β) :
    ((p >>= f).run t).findings = fs ++ ((f a).run u).findings := by
  have hr : (p.run t).result = .ok a := by rw [h]
  rw [run_bind_of_ok hr, h]

/-- What follows a pass does not matter for findings that it does not make. -/
theorem filter_findings_bind {q : Finding → Bool} (p : Pass α) {f : α → Pass β}
    (hf : ∀ a, (f a).Reports fun x => q x = false) (t : Table) :
    ((p >>= f).run t).findings.filter q = (p.run t).findings.filter q := by
  rcases p.returns_or_stops t with ⟨u, fs, a, h⟩ | ⟨u, fs, e, h⟩
  · have hnone : ((f a).run u).findings.filter q = [] := by
      apply List.filter_eq_nil_iff.mpr
      intro x hx
      rw [hf a u x hx]
      exact Bool.false_ne_true
    rw [findings_bind h, List.filter_append, hnone, List.append_nil, h]
  · rw [h, h.bind]

end Pass

namespace Check

variable {fn : Option FunctionId} {line : Int} {name : String} {typeText : Option String}
  {isConst : Bool} {init : Node} {initText : Option String} {t : Table}

private theorem filter_conflicts_initializer (declared : Ty) :
    ((initializer line name declared isConst init initText (visit fn init)).run t).findings.filter
        Finding.isConflict =
      (Visit.outcome ⟨fn, init, t⟩).findings.filter Finding.isConflict := by
  rw [initializer]
  split
  · next hm =>
    rw [eq_missing_of_isMissing hm, filter_findings_bind _ fun _ => .pure _]
    cases isConst <;> rfl
  · refine filter_findings_bind _ (fun got => ?_) t
    exact .bind (.lift _) fun _ => .bind (.reportIf rfl) fun _ => .pure _

private theorem filter_conflicts_variableDecl :
    (Visit.outcome ⟨fn, .varDecl line name typeText isConst init initText, t⟩).findings.filter
        Finding.isConflict =
      conflicts (t.around fn) line name ++
        (Visit.outcome ⟨fn, init, t⟩).findings.filter Finding.isConflict := by
  have hredeclared : (redeclared t (t.around fn) line name).filter Finding.isConflict = [] := by
    unfold redeclared
    cases (t.resolveHere name).isSome <;> cases t.around fn <;> rfl
  have hconflicts : (conflicts (t.around fn) line name).filter Finding.isConflict =
      conflicts (t.around fn) line name := by
    cases t.around fn with
    | none => rfl
    | some f =>
      apply List.filter_eq_self.mpr
      intro x hx
      obtain ⟨p, -, rfl⟩ := List.mem_map.mp hx
      rfl
  rw [Visit.outcome, visit, variableDecl, findings_bind (.table t), findings_bind (.enclosing fn t),
    findings_bind (returns_redeclaration t _ line name),
    findings_bind (returns_parameterConflicts _ line name t)]
  rw [List.nil_append, List.nil_append, List.filter_append, List.filter_append, hredeclared,
    hconflicts, List.nil_append, ← filter_conflicts_initializer (Ty.ofText typeText)]
  congr 1
  -- What comes after the initializer only changes the table.
  refine filter_findings_bind _ (fun text => ?_) t
  exact .bind (.update _) fun _ => .bind (.updateEnclosing _ _) fun _ => .pure _

private theorem conflicts_of_parameters {around : Option Function} {params : List Param}
    (h : around.map Function.parameters = some (params.map Param.variable)) :
    conflicts around line name =
      List.replicate (params.countP (·.name == name)) ⟨some line, .parameterConflict name⟩ := by
  obtain ⟨f, rfl, hf⟩ := Option.map_eq_some_iff.mp h
  rw [conflicts, hf, List.map_const', ← List.countP_eq_length_filter, List.countP_map]
  rfl

end Check

private theorem conflicts_expr {e : Node} (he : e.IsExpr) (fn : Option FunctionId) (t : Table) :
    (Visit.outcome ⟨fn, e, t⟩).findings.filter Finding.isConflict = [] := by
  have hrepetition : ∀ f : Finding, f.isConflict = true → f.isRepetition = true := by
    rintro ⟨line, violation⟩ h
    cases violation <;> first | rfl | cases h
  have hearly : ∀ v : Visit, v.node.IsExpr → v.early.filter Finding.isConflict = [] := by
    intro v hv
    rw [← filter_filter_of_imp hrepetition, repetitions_early_expr hv]
    rfl
  obtain ⟨fs, type, b, hr⟩ := visit_stmt (.expr he) fn t
  rw [filter_outcome (v := ⟨fn, e, t⟩) (opens_stmt (.expr he)) hr hrepetition]
  · exact hearly _ he
  · intro a ha _
    exact hearly _ (he.isExpr_node? (Visit.node?_of_mem_trail ha))

section

variable {fn : Option FunctionId} {line : Int} {name : String} {returnText : Option String}
  {params : List Param} {body : Node} {t : Table} {v w : Visit}

/-- Inside of a function the record of the function lists all its parameters. -/
theorem Visit.parameters_of_calls
    (h : Relation.TransGen Calls ⟨fn, .funcDecl line name returnText params body, t⟩ w)
    (hfn : w.fn = some t.nextId) :
    (w.table.around w.fn).map Function.parameters = some (params.map Param.variable) := by
  obtain ⟨x, hx, hw⟩ := Relation.TransGen.head'_iff.mp h
  have hc : t.registry.contains name = false := by
    cases hc : t.registry.contains name with
    | false => rfl
    | true =>
      cases hx with
      | part hparts => simp [parts, hc] at hparts
  have hretains := hx.retains.trans (retains_of_calls hw)
  rw [opened_funcDecl hc] at hretains
  obtain ⟨g, hg, hcontinues⟩ := hretains _ _ (t.around_openFunction line name returnText _)
  rw [hfn, Table.around, Option.bind_some, hg, Option.map_some, hcontinues.parameters]
  rfl

/-- Along the trail of statements all visits are made, since none of them fails. -/
theorem Visit.calls_of_parts {i : Nat} {n : Node} (hparts : ∀ m ∈ v.parts, m.IsStmt)
    (hi : v.parts[i]? = some n) :
    v.Calls ⟨v.inner, n, tableAfter v.inner (v.parts.take i) v.opened⟩ := by
  have hbefore : ∀ m ∈ v.parts.take i, m.Visits v.inner :=
    fun m hm => visit_stmt (hparts m (List.mem_of_mem_take hm)) _
  obtain ⟨fs, types, b, -, hr⟩ := visitAll_returns hbefore v.opened
  obtain ⟨hlt, hget⟩ := List.getElem?_eq_some_iff.mp hi
  have hsplit : v.parts = v.parts.take i ++ n :: v.parts.drop (i + 1) := by
    rw [← hget, List.getElem_cons_drop, List.take_append_drop]
  rw [hr.tableAfter_eq]
  exact .part hsplit hr

private theorem Visit.calls_of_mem_trail {s : Node} (hs : s.IsStmt) {a : Arrival}
    (ha : a ∈ Visit.trail ⟨fn, s, t⟩) : Relation.ReflTransGen Calls ⟨fn, s, t⟩ a.visit := by
  refine Node.IsStmt.children_induction (M := fun s => ∀ {t : Table} {a : Arrival},
    a ∈ Visit.trail ⟨fn, s, t⟩ → Relation.ReflTransGen Calls ⟨fn, s, t⟩ a.visit) ?_ hs ha
  intro s hs ih t a ha
  rcases mem_trail_iff.mp ha with rfl | ⟨i, n, b, hn, hb, rfl⟩
  · exact .refl
  · have hchild := mem_children_of_parts (List.mem_of_getElem? hn)
    have hcall := calls_of_parts (fun m hm => (ih m (mem_children_of_parts hm)).1) hn
    rw [hs.inner_eq] at hb hcall
    have hrest := (ih n hchild).2 hb
    exact .head hcall hrest

private theorem Visit.declaration_called (hs : body.IsStmt) (hc : t.registry.contains name = false)
    {path : List Nat} {m : Node}
    (h : (Node.funcDecl line name returnText params body).node? path = some m)
    (hm : m.declared?.isSome = true) :
    ∃ a ∈ Visit.trail ⟨fn, .funcDecl line name returnText params body, t⟩, a.path = path ∧
      a.visit.node = m ∧ a.visit.fn = some t.nextId ∧
      Relation.TransGen Calls ⟨fn, .funcDecl line name returnText params body, t⟩ a.visit := by
  cases path with
  | nil =>
    cases h
    cases hm
  | cons i path =>
    obtain ⟨s, hi, hnode⟩ := Option.bind_eq_some_iff.mp h
    have hstmt : s.IsStmt := hs.statements s (List.mem_of_getElem? hi)
    obtain ⟨b, hb, rfl⟩ := declaration_visited_stmt hstmt hnode hm (some t.nextId)
      (tableAfter (some t.nextId) (body.statements.take i)
        (t.openFunction (Check.head line name returnText) (params.map Param.variable)))
    have hcall := calls_of_parts (v := ⟨fn, .funcDecl line name returnText params body, t⟩)
      (i := i) (n := s) (by rw [parts_funcDecl hc]; exact hs.statements)
      (by rw [parts_funcDecl hc]; exact hi)
    rw [parts_funcDecl hc, opened_funcDecl hc] at hcall
    refine ⟨b.under i, ?_, rfl, ?_, (trail_stmt hstmt _ b hb).1, ?_⟩
    · exact mem_trail_funcDecl.mpr (.inr ⟨hc, i, s, b, hi, hb, rfl⟩)
    · exact Option.some.inj ((node?_of_mem_trail hb).symm.trans hnode)
    · have hrest := calls_of_mem_trail hstmt hb
      exact .head' hcall hrest

end

private theorem replicate_eq_ite_iff {c : Finding} {params : List Param} {name : String} :
    List.replicate (params.countP (·.name == name)) c =
        (if name ∈ params.map Param.name then [c] else []) ↔
      params.countP (·.name == name) ≤ 1 := by
  have hmem : name ∈ params.map Param.name ↔ 0 < params.countP (·.name == name) := by
    rw [List.countP_pos_iff]
    simp
  constructor
  · intro h
    have hlength := congrArg List.length h
    rw [List.length_replicate] at hlength
    rw [hlength]
    split <;> simp
  · intro h
    split
    · next hm =>
      rw [Nat.le_antisymm h (hmem.mp hm)]
      rfl
    · next hm =>
      rw [Nat.eq_zero_of_not_pos fun hpos => hm (hmem.mpr hpos)]
      rfl

/-- The visit of a variable inside of a function finds a conflict for each parameter that has its
name, and beyond them only what the visit of its initializer finds, which is nothing for an
expression. So it finds one conflict if a parameter has the name, and none otherwise, exactly if no
two parameters have the name. In a function whose name is new every variable is visited, however
deep it stands in the body. -/
theorem Visit.one_conflict_iff (fn : Option FunctionId) (line : Int) (name : String)
    (returnText : Option String) (params : List Param) (body : Node) (t : Table) :
    let v : Visit := ⟨fn, .funcDecl line name returnText params body, t⟩
    (∀ w, Relation.TransGen Calls v w → w.fn = v.inner →
      ∀ l x typeText isConst init initText, w.node = .varDecl l x typeText isConst init initText →
        w.outcome.findings.filter Finding.isConflict =
          List.replicate (params.countP (·.name == x)) ⟨some l, .parameterConflict x⟩ ++
            (Visit.outcome ⟨w.fn, init, w.table⟩).findings.filter Finding.isConflict ∧
        (init.IsExpr →
          (w.outcome.findings.filter Finding.isConflict =
              (if x ∈ params.map Param.name then [⟨some l, .parameterConflict x⟩] else []) ↔
            params.countP (·.name == x) ≤ 1))) ∧
    (body.IsStmt → t.registry.contains name = false →
      ∀ path l x typeText isConst init initText,
        v.node.node? path = some (.varDecl l x typeText isConst init initText) →
        ∃ a ∈ v.trail, a.path = path ∧ Relation.TransGen Calls v a.visit ∧ a.visit.fn = v.inner ∧
          a.visit.node = .varDecl l x typeText isConst init initText ∧ init.IsExpr) := by
  intro v
  constructor
  · intro w hw hfn l x typeText isConst init initText hnode
    have hparams := parameters_of_calls hw hfn
    have hall : w.outcome.findings.filter Finding.isConflict =
        List.replicate (params.countP (·.name == x)) ⟨some l, .parameterConflict x⟩ ++
          (Visit.outcome ⟨w.fn, init, w.table⟩).findings.filter Finding.isConflict := by
      obtain ⟨wfn, node, wt⟩ := w
      cases hnode
      rw [Check.filter_conflicts_variableDecl, Check.conflicts_of_parameters hparams]
    refine ⟨hall, fun he => ?_⟩
    rw [hall, conflicts_expr he, List.append_nil]
    exact replicate_eq_ite_iff
  · intro hs hc path l x typeText isConst init initText hnode
    obtain ⟨a, ha, hpath, hat, hfn, hcalls⟩ := declaration_called hs hc hnode rfl
    have hstmt : a.visit.node.IsStmt := by
      rcases trail_funcDecl hs ha with rfl | ⟨-, hstmt, -⟩
      · cases hat
      · exact hstmt
    rw [hat] at hstmt
    exact ⟨a, ha, hpath, hcalls, hfn, hat, hstmt.isExpr_initializer rfl init (by simp [children])⟩

/-- Of the variables of `f`, the inner `q` has the name of one parameter, and `p` has the name of
two. -/
theorem Visit.one_conflict_iff_nested :
    let var (line : Int) (name : String) : Node :=
      .varDecl line name (some "int") false (.literal line "int" "1") (some "1")
    let params : List Param := [⟨1, "p", some "int"⟩, ⟨1, "p", some "int"⟩, ⟨1, "q", some "int"⟩]
    let body : Node := .block 1 [var 2 "p", .block 3 [var 4 "q", var 5 "r"]]
    let v : Visit := ⟨none, .funcDecl 1 "f" none params body, .empty⟩
    body.IsStmt ∧ v.node.node? [1, 0] = some (var 4 "q") ∧ v.node.node? [0] = some (var 2 "p") ∧
      (∃ a ∈ v.trail, a.path = [1, 0] ∧
        a.visit.outcome.findings.filter Finding.isConflict = [⟨some 4, .parameterConflict "q"⟩]) ∧
      ∃ a ∈ v.trail, a.path = [0] ∧
        a.visit.outcome.findings.filter Finding.isConflict ≠
          [⟨some 2, .parameterConflict "p"⟩] := by
  intro var params body v
  have hs : body.IsStmt := (isStmt_iff _).mp rfl
  obtain ⟨hfound, hvisited⟩ := one_conflict_iff none 1 "f" none params body .empty
  refine ⟨hs, rfl, rfl, ?_, ?_⟩
  · obtain ⟨a, ha, hpath, hcalls, hfn, hat, he⟩ := hvisited hs rfl [1, 0] _ _ _ _ _ _ rfl
    exact ⟨a, ha, hpath, ((hfound _ hcalls hfn _ _ _ _ _ _ hat).2 he).mpr (by decide)⟩
  · obtain ⟨a, ha, hpath, hcalls, hfn, hat, he⟩ := hvisited hs rfl [0] _ _ _ _ _ _ rfl
    refine ⟨a, ha, hpath, fun h => ?_⟩
    exact absurd (((hfound _ hcalls hfn _ _ _ _ _ _ hat).2 he).mp h) (by decide)

/-- The parameter `p` stands twice, and the variable `p` is in conflict with it twice. -/
theorem Visit.two_conflicts :
    let p : Node := .varDecl 2 "p" (some "int") false .missing none
    let f : Node := .funcDecl 1 "f" none [⟨1, "p", some "int"⟩, ⟨1, "p", some "int"⟩] (.block 1 [p])
    let P : Node := .program 1 [f]
    P.IsProgram ∧ P.node? [0, 0] = some p ∧
      (∃ u, (analyze P).Returns .empty u
        [⟨some 1, .parameterRepeated "p" "f"⟩, ⟨some 2, .localRedefined "p" "f"⟩,
          ⟨some 2, .parameterConflict "p"⟩, ⟨some 2, .parameterConflict "p"⟩] ()) ∧
      ∃ a ∈ Visit.trail ⟨none, P, .empty⟩, a.path = [0, 0] ∧
        a.visit.outcome.findings.filter Finding.isConflict =
          [⟨some 2, .parameterConflict "p"⟩, ⟨some 2, .parameterConflict "p"⟩] := by
  intro p f P
  refine ⟨by decide, rfl, ⟨_, rfl⟩, ?_⟩
  have hmem : ∃ a, (Visit.trail ⟨none, P, .empty⟩)[2]? = some a := ⟨_, rfl⟩
  obtain ⟨a, ha⟩ := hmem
  refine ⟨a, List.mem_of_getElem? ha, ?_⟩
  cases ha
  exact ⟨rfl, by decide +kernel⟩

end MiniCheck
