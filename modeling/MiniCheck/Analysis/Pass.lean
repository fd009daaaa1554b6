import MiniCheck.Fault
import MiniCheck.Finding
import MiniCheck.Symbols.Table

/-!
# Passes over a program

A pass changes the symbol table and adds findings. It may end with a fault; the table and the
findings are then those at the point where it stopped.
-/

namespace MiniCheck

structure Outcome (α : Type) where
  table : Table
  /-- The findings that this pass added, in the order in which they were made. -/
  findings : List Finding
  result : Except Fault α

def Pass (α : Type) : Type := Table → Outcome α

namespace Pass

variable {α β : Type}

def run (p : Pass α) (t : Table) : Outcome α := p t

protected def pure (a : α) : Pass α := fun t => ⟨t, [], .ok a⟩

/-- Runs `p` and then what its result asks for. Nothing follows a fault. -/
protected def bind (p : Pass α) (f : α → Pass β) : Pass β := fun t =>
  let first := p t
  match first.result with
  | .error e => ⟨first.table, first.findings, .error e⟩
  | .ok a =>
      let second := f a first.table
      ⟨second.table, first.findings ++ second.findings, second.result⟩

instance : Monad Pass where
  pure := Pass.pure
  bind := Pass.bind

def table : Pass Table := fun t => ⟨t, [], .ok t⟩

def update (change : Table → Table) : Pass Unit := fun t => ⟨change t, [], .ok ()⟩

def report (line : Int) (v : Violation) : Pass Unit := fun t => ⟨t, [⟨some line, v⟩], .ok ()⟩

def reportIf (c : Bool) (line : Int) (v : Violation) : Pass Unit :=
  if c then report line v else pure ()

def fail (e : Fault) : Pass α := fun t => ⟨t, [], .error e⟩

/-- Goes on with a value or stops with its fault. -/
def lift (r : Except Fault α) : Pass α := fun t => ⟨t, [], r⟩

def exitScope : Pass Unit := fun t =>
  match t.exit? with
  | some outer => ⟨outer, [], .ok ()⟩
  | none => ⟨t, [], .error .globalScopeExit⟩

/-- Runs `p` in a scope of its own. The scope stays open if `p` ends with a fault. -/
def inScope (p : Pass α) : Pass α := do
  update Table.enter
  let a ← p
  exitScope
  return a

/-- The record of the function around, if there is one. -/
def enclosing (fn : Option FunctionId) : Pass (Option Function) := fun t =>
  ⟨t, [], .ok (fn.bind t.record?)⟩

/-- Changes the record of the function around, if there is one. -/
def updateEnclosing (fn : Option FunctionId) (change : Function → Function) : Pass Unit :=
  match fn with
  | none => pure ()
  | some id => update (·.updateFunction id change)

@[simp] theorem run_pure (a : α) (t : Table) : (pure a : Pass α).run t = ⟨t, [], .ok a⟩ := rfl

theorem run_bind_of_ok {p : Pass α} {t : Table} {a : α} (h : (p.run t).result = .ok a)
    (f : α → Pass β) :
    (p >>= f).run t =
      ⟨((f a).run (p.run t).table).table,
        (p.run t).findings ++ ((f a).run (p.run t).table).findings,
        ((f a).run (p.run t).table).result⟩ := by
  simp only [run] at h
  simp only [run, Bind.bind, Pass.bind, h]

theorem run_bind_of_error {p : Pass α} {t : Table} {e : Fault} (h : (p.run t).result = .error e)
    (f : α → Pass β) :
    (p >>= f).run t = ⟨(p.run t).table, (p.run t).findings, .error e⟩ := by
  simp only [run] at h
  simp only [run, Bind.bind, Pass.bind, h]

private theorem bind_pass_pure (p : Pass α) : Pass.bind p Pass.pure = p := by
  funext t
  rcases h : p t with ⟨table, findings, result⟩
  cases result <;> simp [Pass.bind, Pass.pure, h]

private theorem bind_pass_assoc {γ : Type} (p : Pass α) (f : α → Pass β) (g : β → Pass γ) :
    Pass.bind (Pass.bind p f) g = Pass.bind p fun a => Pass.bind (f a) g := by
  funext t
  rcases h : p t with ⟨table, findings, result⟩
  cases result with
  | error e => simp [Pass.bind, h]
  | ok a =>
    rcases h' : f a table with ⟨table', findings', result'⟩
    cases result' <;> simp [Pass.bind, h, h', List.append_assoc]

instance : LawfulMonad Pass := LawfulMonad.mk' Pass
  (fun p => bind_pass_pure p)
  (fun _ _ => rfl)
  (fun p f g => bind_pass_assoc p f g)

end Pass

end MiniCheck
