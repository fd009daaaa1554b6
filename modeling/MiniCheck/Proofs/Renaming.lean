import MiniCheck.Proofs.Outline
import Mathlib.Logic.Equiv.Basic

/-!
# Renaming

A renaming gives different names to different names and leaves the main function its name. It
renames programs, findings and tables. A relabelled table is renamed and has no texts of
initializers, which are written with the old names. What a table does, a relabelled table does
under the new names.
-/

namespace MiniCheck

structure Renaming where
  rename : String → String
  injective : Function.Injective rename
  main : rename mainName = mainName

instance : CoeFun Renaming fun _ => String → String := ⟨Renaming.rename⟩

namespace Renaming

protected def id : Renaming := ⟨fun name => name, fun _ _ h => h, rfl⟩

@[simp] theorem id_apply (name : String) : Renaming.id name = name := rfl

/-- Exchanges two names. -/
def swap (a b : String) (ha : a ≠ mainName) (hb : b ≠ mainName) : Renaming :=
  ⟨Equiv.swap a b, (Equiv.swap a b).injective, Equiv.swap_apply_of_ne_of_ne ha.symm hb.symm⟩

variable (r : Renaming)

@[simp] theorem eq_iff (a b : String) : r a = r b ↔ a = b := r.injective.eq_iff

@[simp] theorem beq_eq (a b : String) : (r a == r b) = (a == b) := by
  rw [Bool.eq_iff_iff, beq_iff_eq, beq_iff_eq, r.eq_iff]

@[simp] theorem beq_main (name : String) : (r name == mainName) = (name == mainName) := by
  rw [← r.beq_eq name mainName, r.main]

end Renaming

def Param.rename (r : Renaming) (p : Param) : Param := { p with name := r p.name }

mutual

/-- Renames what a program declares and uses. Written texts stay as they are. -/
def Node.rename (r : Renaming) : Node → Node
  | .missing => .missing
  | .program line decls => .program line (Node.renameAll r decls)
  | .block line statements => .block line (Node.renameAll r statements)
  | .varDecl line name typeText isConst init initText =>
      .varDecl line (r name) typeText isConst (init.rename r) initText
  | .param p => .param (p.rename r)
  | .funcDecl line name returnText params body =>
      .funcDecl line (r name) returnText (params.map (Param.rename r)) (body.rename r)
  | .assign line name op value => .assign line (r name) op (value.rename r)
  | .ifElse line cond thenBranch elseBranch =>
      .ifElse line (cond.rename r) (thenBranch.rename r) (elseBranch.rename r)
  | .forLoop line init cond update body =>
      .forLoop line (init.rename r) (cond.rename r) (update.rename r) (body.rename r)
  | .whileLoop line cond body => .whileLoop line (cond.rename r) (body.rename r)
  | .ret line value => .ret line (value.rename r)
  | .exprStmt line expr => .exprStmt line (expr.rename r)
  | .callStmt line e => .callStmt line (e.rename r)
  | .call line name args => .call line (r name) (Node.renameAll r args)
  | .literal line kind text => .literal line kind text
  | .identifier line name => .identifier line (r name)
  | .paren line inner => .paren line (inner.rename r)
  | .negation line inner => .negation line (inner.rename r)
  | .binary line op left right => .binary line op (left.rename r) (right.rename r)
  | .unclassified line => .unclassified line

def Node.renameAll (r : Renaming) : List Node → List Node
  | [] => []
  | n :: ns => n.rename r :: Node.renameAll r ns

end

@[simp] theorem Node.isMissing_rename (r : Renaming) (n : Node) :
    (n.rename r).isMissing = n.isMissing := by
  cases n <;> rfl

/-- The same rule, violated under other names. -/
def Violation.rename (r : Renaming) : Violation → Violation
  | globalRedefined name => globalRedefined (r name)
  | localRedefined name function => localRedefined (r name) (r function)
  | parameterConflict name => parameterConflict (r name)
  | initMismatch name expected got => initMismatch (r name) expected got
  | constUninitialized name => constUninitialized (r name)
  | functionRedefined name => functionRedefined (r name)
  | nameOfVariable name => nameOfVariable (r name)
  | parameterRepeated name function => parameterRepeated (r name) (r function)
  | returnMissing function type => returnMissing (r function) type
  | mainRecursive => mainRecursive
  | targetUndeclared name => targetUndeclared (r name)
  | targetNotVariable name => targetNotVariable (r name)
  | constAssigned name => constAssigned (r name)
  | assignMismatch name expected got => assignMismatch (r name) expected got
  | returnOutside => returnOutside
  | returnMismatch function expected got => returnMismatch (r function) expected got
  | functionUndefined name => functionUndefined (r name)
  | mainCalled => mainCalled
  | argumentCount function expected got => argumentCount (r function) expected got
  | argumentMismatch position function expected got =>
      argumentMismatch position (r function) expected got
  | variableUndeclared name => variableUndeclared (r name)
  | mainMissing => mainMissing

def Finding.rename (r : Renaming) (f : Finding) : Finding := ⟨f.line, f.violation.rename r⟩

def Variable.relabel (r : Renaming) (v : Variable) : Variable :=
  { v with name := r v.name, initText := none }

def Symbol.relabel (r : Renaming) : Symbol → Symbol
  | .variable v => .variable (v.relabel r)
  | .function id => .function id

def Function.relabel (r : Renaming) (f : Function) : Function :=
  { f with
    name := r f.name
    parameters := f.parameters.map (Variable.relabel r)
    locals := f.locals.map (Variable.relabel r) }

def NameMap.relabel {α : Type} (r : Renaming) (change : α → α) (m : NameMap α) : NameMap α :=
  ⟨m.entries.map fun e => (r e.1, change e.2)⟩

def Scope.relabel (r : Renaming) (s : Scope) : Scope := NameMap.relabel r (Symbol.relabel r) s

/-- The table under new names and without the texts of initializers. -/
def Table.relabel (r : Renaming) (t : Table) : Table where
  current := Scope.relabel r t.current
  enclosing := t.enclosing.map (Scope.relabel r)
  registry := t.registry.relabel r id
  records := t.records.map (Function.relabel r)

namespace NameMap

variable {α : Type} (r : Renaming) (change : α → α) (m : NameMap α)

private theorem find?_relabel (key : String) :
    (m.relabel r change).find? (r key) = (m.find? key).map change := by
  obtain ⟨entries⟩ := m
  simp only [relabel, find?]
  induction entries with
  | nil => rfl
  | cons e entries ih =>
    rw [List.map_cons, List.lookup_cons, List.lookup_cons, ih, r.beq_eq]
    cases key == e.1 <;> rfl

private theorem contains_relabel (key : String) :
    (m.relabel r change).contains (r key) = m.contains key := by
  rw [contains, find?_relabel, Option.isSome_map, contains]

private theorem push_relabel (key : String) (value : α) :
    (m.push key value).relabel r change = (m.relabel r change).push (r key) (change value) := by
  simp [relabel, push]

private theorem insert_relabel (key : String) (value : α) :
    (m.insert key value).relabel r change =
      (m.relabel r change).insert (r key) (change value) := by
  rw [insert, insert, contains_relabel]
  split
  · simp only [relabel, List.map_map, NameMap.mk.injEq]
    apply List.map_congr_left
    intro e _
    by_cases he : e.1 = key <;> simp [he]
  · exact push_relabel ..

end NameMap

namespace Table

variable (r : Renaming) (t : Table)

theorem nextId_relabel : (t.relabel r).nextId = t.nextId := by
  simp [nextId, relabel]

theorem resolveHere_relabel (name : String) :
    (t.relabel r).resolveHere (r name) = (t.resolveHere name).map (Symbol.relabel r) :=
  NameMap.find?_relabel ..

theorem resolve_relabel (name : String) :
    (t.relabel r).resolve (r name) = (t.resolve name).map (Symbol.relabel r) := by
  have hs : (t.relabel r).scopes = t.scopes.map (Scope.relabel r) := rfl
  rw [resolve, resolve, hs]
  induction t.scopes with
  | nil => rfl
  | cons s ss ih =>
    rw [List.map_cons, List.findSome?_cons, List.findSome?_cons, Scope.relabel,
      NameMap.find?_relabel, ih]
    cases s.find? name <;> rfl

private theorem record?_relabel (id : FunctionId) :
    (t.relabel r).record? id = (t.record? id).map (Function.relabel r) := by
  simp [record?, relabel]

theorem around_relabel (fn : Option FunctionId) :
    (t.relabel r).around fn = (t.around fn).map (Function.relabel r) := by
  cases fn with
  | none => rfl
  | some id => exact t.record?_relabel r id

theorem contains_registry_relabel (name : String) :
    (t.relabel r).registry.contains (r name) = t.registry.contains name :=
  NameMap.contains_relabel ..

theorem registered?_relabel (name : String) :
    (t.relabel r).registered? (r name) =
      (t.registered? name).map fun found => (found.1, found.2.relabel r) := by
  rw [registered?_eq, registered?_eq]
  change ((t.registry.relabel r id).find? (r name)).bind _ = _
  rw [NameMap.find?_relabel]
  cases t.registry.find? name with
  | none => rfl
  | some id =>
    simp only [Option.map_some, id_eq, Option.bind_some, record?_relabel, Option.map_map]
    rfl

theorem enter_relabel : t.enter.relabel r = (t.relabel r).enter := rfl

theorem exit?_relabel : (t.relabel r).exit? = t.exit?.map (relabel r) := by
  cases h : t.enclosing <;> simp [exit?, relabel, h]

theorem defineVariable_relabel (v : Variable) :
    (t.relabel r).defineVariable (v.relabel r) =
      ((t.defineVariable v).1, (t.defineVariable v).2.relabel r) := by
  have hc : (t.relabel r).current.contains (v.relabel r).name = t.current.contains v.name :=
    NameMap.contains_relabel ..
  rw [defineVariable, defineVariable, hc]
  split
  · rfl
  · refine congrArg (Prod.mk true) ?_
    simp only [relabel, Scope.relabel, NameMap.push_relabel]
    rfl

theorem registerFunction_relabel (f : Function) :
    (t.relabel r).registerFunction (f.relabel r) = (t.registerFunction f).relabel r := by
  simp only [registerFunction, nextId_relabel]
  simp only [relabel, NameMap.insert_relabel, List.map_append, List.map_cons, List.map_nil]
  rfl

theorem defineFunction_relabel (f : Function) :
    (t.relabel r).defineFunction (f.relabel r) =
      ((t.defineFunction f).1, (t.defineFunction f).2.relabel r) := by
  have hc : (t.relabel r).current.contains (f.relabel r).name = t.current.contains f.name :=
    NameMap.contains_relabel ..
  rw [defineFunction, defineFunction, hc]
  split
  · rfl
  · refine congrArg (Prod.mk true) ?_
    rw [registerFunction_relabel, nextId_relabel]
    simp only [relabel, Scope.relabel, NameMap.push_relabel]
    rfl

end Table

end MiniCheck
