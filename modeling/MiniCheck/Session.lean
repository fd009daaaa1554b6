import MiniCheck.Analysis.Visit
import MiniCheck.Listing

/-!
# Sessions

A session applies steps to one table, one after another. A step that ends with a fault leaves the
table as it stood at that point, and the session goes on from there; only a malformed function body
ends the session.
-/

namespace MiniCheck

inductive Step where
  | enter
  | exit
  | defineVariable (v : Variable)
  | defineFunction (f : Function)
  | registerFunction (f : Function)
  | resolve (name : String)
  | resolveHere (name : String)
  | view
  | checkMain
  /-- Visits a node inside the registered function of the given name. -/
  | visit (node : Node) (fn : Option String)
  /-- Analyses a program and answers with its findings. -/
  | analyze (program : Node)
  | list

/-- A symbol together with what the table knows about it. -/
inductive SymbolInfo where
  | variable (v : Variable)
  | function (f : Function)
  deriving DecidableEq, Repr

inductive Answer where
  | done
  | flag (b : Bool)
  | symbol (s : Option SymbolInfo)
  | table (t : Table)
  | missingMain (f : Option Finding)
  | type (t : Ty)
  | findings (fs : List Finding)
  | listings (globals functions : String)

def Table.info? (t : Table) : Symbol → Option SymbolInfo
  | .variable v => some (.variable v)
  | .function id => (t.record? id).map .function

/-- A change of the table that tells whether it took place. -/
def Pass.attempt (change : Table → Bool × Table) : Pass Answer := fun t =>
  let (done, changed) := change t
  ⟨changed, [], .ok (.flag done)⟩

def Pass.ask (question : Table → Answer) : Pass Answer := fun t => ⟨t, [], .ok (question t)⟩

/-- Runs `p` and answers with its findings instead of adding them. -/
def Pass.collect (p : Pass Unit) : Pass Answer := fun t =>
  let o := p t
  ⟨o.table, [], o.result.map fun _ => .findings o.findings⟩

namespace Step

open Pass

def pass : Step → Pass Answer
  | enter => do
      update Table.enter
      return .done
  | exit => do
      exitScope
      return .done
  | defineVariable v => attempt (·.defineVariable v)
  | defineFunction f => attempt (·.defineFunction f)
  | registerFunction f => do
      update (·.registerFunction f)
      return .done
  | resolve name => ask fun t => .symbol ((t.resolve name).bind t.info?)
  | resolveHere name => ask fun t => .symbol ((t.resolveHere name).bind t.info?)
  | view => ask .table
  | checkMain => ask fun t => .missingMain (MiniCheck.missingMain t)
  | visit node fn => do
      let t ← table
      let type ← MiniCheck.visit (fn.bind t.registry.find?) node
      return .type type
  | analyze program => collect (MiniCheck.analyze program)
  | list => ask fun t => .listings (Listing.globals t) (Listing.functions t)

end Step

structure Reply where
  result : Except Fault Answer
  depth : Nat
  /-- The findings that the step added. -/
  findings : List Finding

/-- Whether a session goes on after a step with this fault. -/
def Fault.isSurvivable : Fault → Bool
  | notBlock _ => false
  | _ => true

def Outcome.reply (o : Outcome Answer) : Reply := ⟨o.result, o.table.depth, o.findings⟩

namespace Session

/-- The replies to the steps of a session. -/
def run (t : Table) : List Step → Except Fault (List Reply)
  | [] => .ok []
  | s :: rest =>
      let o := s.pass t
      match o.result with
      | .error e =>
          if e.isSurvivable then (run o.table rest).map (o.reply :: ·) else .error e
      | .ok _ => (run o.table rest).map (o.reply :: ·)

end Session

end MiniCheck
