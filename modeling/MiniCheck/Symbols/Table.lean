import MiniCheck.Symbols.NameMap
import MiniCheck.Symbols.Record

/-!
# The symbol table

A table holds a stack of scopes, the registry of functions by name, and the records of all
functions in the order of their declaration. A function is referred to by the position of its
record, so a scope and the registry that name the same function share one record. The stack is
never empty: its innermost scope is a field, and the global scope is the last of the others.
-/

namespace MiniCheck

/-- The position of a function among the records of a table. -/
abbrev FunctionId := Nat

inductive Symbol where
  | variable (v : Variable)
  | function (id : FunctionId)
  deriving DecidableEq, Repr

abbrev Scope := NameMap Symbol

structure Table where
  current : Scope
  /-- The scopes around the current one, innermost first. -/
  enclosing : List Scope
  registry : NameMap FunctionId
  records : List Function
  deriving Repr

namespace Table

def empty : Table where
  current := .empty
  enclosing := []
  registry := .empty
  records := []

def scopes (t : Table) : List Scope := t.current :: t.enclosing

def depth (t : Table) : Nat := t.scopes.length

def global (t : Table) : Scope := t.enclosing.getLastD t.current

def enter (t : Table) : Table := { t with current := .empty, enclosing := t.current :: t.enclosing }

/-- Drops the innermost scope. The global scope is never dropped. -/
def exit? (t : Table) : Option Table :=
  match t.enclosing with
  | [] => none
  | s :: rest => some { t with current := s, enclosing := rest }

def resolveHere (t : Table) (name : String) : Option Symbol := t.current.find? name

/-- Looks a name up from the innermost scope outwards. -/
def resolve (t : Table) (name : String) : Option Symbol := t.scopes.findSome? (·.find? name)

def record? (t : Table) (id : FunctionId) : Option Function := t.records[id]?

/-- The function that is registered under a name. -/
def registered? (t : Table) (name : String) : Option (FunctionId × Function) := do
  let id ← t.registry.find? name
  let f ← t.record? id
  return (id, f)

/-- The number that the next function gets. -/
def nextId (t : Table) : FunctionId := t.records.length

/-- Binds a variable in the current scope, unless its name is taken there. The flag says which. -/
def defineVariable (t : Table) (v : Variable) : Bool × Table :=
  if t.current.contains v.name then (false, t)
  else (true, { t with current := t.current.push v.name (.variable v) })

/-- Puts a new function into the registry and into no scope. -/
def registerFunction (t : Table) (f : Function) : Table :=
  { t with registry := t.registry.insert f.name t.nextId, records := t.records ++ [f] }

/-- Binds a new function in the current scope and in the registry, unless its name is taken in
the scope. -/
def defineFunction (t : Table) (f : Function) : Bool × Table :=
  if t.current.contains f.name then (false, t)
  else (true, { t.registerFunction f with current := t.current.push f.name (.function t.nextId) })

def updateFunction (t : Table) (id : FunctionId) (change : Function → Function) : Table :=
  { t with records := t.records.modify id change }

/-- The variables of the global scope in the order of their declaration. -/
def globalVariables (t : Table) : List Variable :=
  t.global.values.filterMap fun
    | .variable v => some v
    | .function _ => none

/-- The registered functions with their keys, in the order of the registry. -/
def functions (t : Table) : List (String × Function) :=
  t.registry.entries.filterMap fun (key, id) => (t.record? id).map (key, ·)

@[simp] theorem scopes_enter (t : Table) : t.enter.scopes = .empty :: t.scopes := rfl

@[simp] theorem depth_enter (t : Table) : t.enter.depth = t.depth + 1 := rfl

@[simp] theorem exit?_enter (t : Table) : t.enter.exit? = some t := rfl

theorem depth_pos (t : Table) : 0 < t.depth := by
  simp [depth, scopes]

theorem exit?_eq_none_iff (t : Table) : t.exit? = none ↔ t.depth = 1 := by
  cases h : t.enclosing <;> simp [exit?, depth, scopes, h]

/-- A scope that was just entered hides nothing. -/
@[simp] theorem resolve_enter (t : Table) (name : String) :
    t.enter.resolve name = t.resolve name := by
  rw [resolve, scopes_enter, List.findSome?_cons, NameMap.find?_empty, resolve]

@[simp] theorem scopes_registerFunction (t : Table) (f : Function) :
    (t.registerFunction f).scopes = t.scopes := rfl

@[simp] theorem scopes_updateFunction (t : Table) (id : FunctionId) (change : Function → Function) :
    (t.updateFunction id change).scopes = t.scopes := rfl

@[simp] theorem registry_updateFunction (t : Table) (id : FunctionId)
    (change : Function → Function) : (t.updateFunction id change).registry = t.registry := rfl

theorem record?_updateFunction (t : Table) (id other : FunctionId)
    (change : Function → Function) :
    (t.updateFunction id change).record? other =
      if id = other then (t.record? other).map change else t.record? other := by
  by_cases h : id = other <;> simp [updateFunction, record?, h]

end Table

end MiniCheck
