import MiniCheck.Proofs.Parts
import MiniCheck.Proofs.Sessions

/-!
# Visits inside of a visit

A visit of a node visits the parts of the node in a row, each from the table that the one before it
leaves. Between and inside of them it passes through tables that neither its beginning nor its end
shows. What visits keep is kept at all these points.
-/

namespace MiniCheck

open Pass

/-- The visit of a node inside of a function, from a table. -/
structure Visit where
  fn : Option FunctionId
  node : Node
  table : Table

namespace Visit

def outcome (v : Visit) : Outcome Ty := (visit v.fn v.node).run v.table

/-- The function inside of which the parts are visited. -/
def inner (v : Visit) : Option FunctionId :=
  match v.node with
  | .program .. => none
  | .funcDecl .. => some v.table.nextId
  | _ => v.fn

/-- The table in which the visit of the parts begins. -/
def opened (v : Visit) : Table :=
  match v.node with
  | .block .. => v.table.enter
  | .funcDecl line name returnText params _ =>
      if v.table.registry.contains name then v.table
      else v.table.openFunction (Check.head line name returnText) (params.map Param.variable)
  | .ifElse line .. => v.table.note v.fn (·.addControl ⟨.ifElse, line⟩)
  | .forLoop line .. => v.table.note v.fn (·.addControl ⟨.forLoop, line⟩)
  | .whileLoop line .. => v.table.note v.fn (·.addControl ⟨.whileLoop, line⟩)
  | .ret .. => v.table.note v.fn (·.markReturn)
  | .call _ name _ =>
      if (v.table.registered? name).isSome then Check.calling v.table v.fn name else v.table
  | _ => v.table

/-- The parts that are visited. A function that is known already is not visited again, and neither
is the value of an assignment to what is no variable, nor a value that is returned to nowhere. -/
def parts (v : Visit) : List Node :=
  match v.node with
  | .program _ nodes | .block _ nodes | .call _ _ nodes => nodes
  | .varDecl _ _ _ _ e _ | .exprStmt _ e | .callStmt _ e | .paren _ e | .negation _ e => [e]
  | .funcDecl _ name _ _ body => if v.table.registry.contains name then [] else body.statements
  | .assign _ name _ value =>
      match v.table.resolve name with
      | some (.variable _) => [value]
      | _ => []
  | .ifElse _ cond thenBranch elseBranch => [cond, thenBranch, elseBranch]
  | .forLoop _ init cond update body => [init, cond, update, body]
  | .whileLoop _ cond body => [cond, body]
  | .ret _ value => if (v.table.around v.fn).isSome then [value] else []
  | .binary _ _ left right => [left, right]
  | .missing | .literal .. | .identifier .. | .param _ | .unclassified _ => []

/-- `v.Calls w`: the visit `v` visits one of its parts by `w`, when the parts before it are done. -/
inductive Calls (v : Visit) : Visit → Prop
  | part {before after : List Node} {n : Node} {u : Table} {fs : List Finding} {types : List Ty} :
      v.parts = before ++ n :: after → (visitAll v.inner before).Returns v.opened u fs types →
      Calls v ⟨v.inner, n, u⟩

/-- The tables that a visit passes through: where it begins, where its parts begin and where it
ends, whether or not with a fault; those of the visits that it calls; the one in which a variable is
bound that its function does not list yet; and those in which it declares a function: with its head,
with each parameter bound that the record does not list yet, and with the parameter listed. -/
inductive Passes : Visit → Table → Prop
  | start {v} : Passes v v.table
  | opened {v} : Passes v v.opened
  | finish {v} : Passes v v.outcome.table
  | inside {v w u} : Calls v w → Passes w u → Passes v u
  | binding {fn line name typeText isConst init initText t u fs got} (text : Option String) :
      (visit fn init).Returns t u fs got →
      Passes ⟨fn, .varDecl line name typeText isConst init initText, t⟩
        (u.defineVariable ⟨name, Ty.ofText typeText, line, isConst, text⟩).2
  | head {fn line name returnText params body t} : t.registry.contains name = false →
      Passes ⟨fn, .funcDecl line name returnText params body, t⟩
        (t.declare (Check.head line name returnText))
  | parameter {fn line name returnText params body t} (k : Nat) {p : Param} :
      t.registry.contains name = false → params[k]? = some p →
      Passes ⟨fn, .funcDecl line name returnText params body, t⟩
        ((t.openFunction (Check.head line name returnText)
          ((params.take k).map Param.variable)).defineVariable p.variable).2
  | parameters {fn line name returnText params body t} (k : Nat) :
      t.registry.contains name = false →
      Passes ⟨fn, .funcDecl line name returnText params body, t⟩
        (t.openFunction (Check.head line name returnText) ((params.take k).map Param.variable))

/-- The visits of nodes in a row, each from the table that the one before it leaves. -/
def row (fn : Option FunctionId) : List Node → Table → List Visit
  | [], _ => []
  | n :: ns, t => ⟨fn, n, t⟩ :: row fn ns ((visit fn n).run t).table

end Visit

/-- The table after nodes that are visited in a row. -/
def tableAfter (fn : Option FunctionId) (ns : List Node) (t : Table) : Table :=
  ns.foldl (fun u n => ((visit fn n).run u).table) t

theorem Pass.Returns.tableAfter_eq {fn : Option FunctionId} {ns : List Node} {t u : Table}
    {fs : List Finding} {types : List Ty} (h : (visitAll fn ns).Returns t u fs types) :
    tableAfter fn ns t = u := by
  induction ns generalizing t fs types with
  | nil => exact h.of_visitAll_nil.1.symm
  | cons n ns ih =>
    obtain ⟨v, f₁, got, f₂, rest, h₁, h₂, -⟩ := h.of_visitAll_cons
    rw [tableAfter, List.foldl_cons, h₁.run_table]
    exact ih h₂

theorem Visit.getElem?_row (fn : Option FunctionId) (ns : List Node) (t : Table) (i : Nat) :
    (row fn ns t)[i]? = ns[i]?.map fun n => ⟨fn, n, tableAfter fn (ns.take i) t⟩ := by
  induction ns generalizing t i with
  | nil => rfl
  | cons n ns ih =>
    cases i with
    | zero => rfl
    | succ i =>
      rw [row, List.getElem?_cons_succ, ih, List.getElem?_cons_succ, List.take_succ_cons]
      rfl

theorem Visit.length_row (fn : Option FunctionId) (ns : List Node) (t : Table) :
    (row fn ns t).length = ns.length := by
  induction ns generalizing t with
  | nil => rfl
  | cons n ns ih => rw [row, List.length_cons, ih, List.length_cons]

namespace Table.Invariant

variable {I : Table → Prop} {v w : Visit}

private theorem note (hI : Table.Invariant I) {t : Table} {change : Function → Function}
    (hn : Note change) (fn : Option FunctionId) (ht : I t) : I (t.note fn change) := by
  cases fn with
  | none => exact ht
  | some id => exact hI.revise id hn.follows ht

private theorem opened (hI : Table.Invariant I) (h : I v.table) : I v.opened := by
  obtain ⟨fn, node, t⟩ := v
  cases node with
  | block => exact hI.enter h
  | funcDecl line name returnText params body =>
    rw [Visit.opened]
    cases hc : t.registry.contains name with
    | true => simpa [hc] using h
    | false => simpa [hc] using hI.openFunction (f := Check.head line name returnText) _ hc h
  | ifElse => exact hI.note (.addControl _) fn h
  | forLoop => exact hI.note (.addControl _) fn h
  | whileLoop => exact hI.note (.addControl _) fn h
  | ret => exact hI.note .markReturn fn h
  | call line name args =>
    have hc : I (Check.calling t fn name) := by
      rw [Check.calling]
      split
      · exact hI.note .markRecursive fn h
      · exact h
    rw [Visit.opened]
    dsimp only
    split
    · exact hc
    · exact h
  | _ => exact h

private theorem calls (hI : Table.Invariant I) (h : v.Calls w) (hv : I v.table) : I w.table := by
  cases h with
  | part _ hr => exact hI.evolves ((visitAll_behaves _ _).returns hr) (hI.opened hv)

/-- What visits keep holds at every point of a visit. -/
theorem passes (hI : Table.Invariant I) {u : Table} (h : v.Passes u) (hv : I v.table) : I u := by
  induction h with
  | start => exact hv
  | opened => exact hI.opened hv
  | finish => exact hI.run (visit_behaves _ _) hv
  | inside hc _ ih => exact ih (hI.calls hc hv)
  | binding text hr => exact hI.bindVariable _ (hI.evolves ((visit_behaves _ _).returns hr) hv)
  | head hf => exact hI.declare hf hv
  | parameter k hf _ => exact hI.bindVariable _ (hI.openFunction _ hf hv)
  | parameters k hf => exact hI.openFunction _ hf hv

end Table.Invariant

end MiniCheck
