import MiniCheck.Analysis.Visit
import MiniCheck.Parse.Output
import MiniCheck.Syntax.OfTree

/-!
# Compilation

A parser's output is turned into a syntax tree, and the tree is analysed. Syntax errors do not stop
the analysis. Last comes the question whether the program has a main function.
-/

namespace MiniCheck

/-- What a compilation tells about its progress. -/
inductive Event where
  | parsed (tokens syntaxErrors : Nat)
  | entered (function : String) (line : Int)
  | analyzed (findings : Nat)
  deriving DecidableEq, Repr

structure Compilation where
  program : Node
  table : Table
  findings : List Finding
  syntaxErrors : List SyntaxError
  tokens : List Token
  kindNames : List String

/-- A compilation, or the fault that ended it, with the events up to there. -/
structure Run where
  events : List Event
  result : Except Fault Compilation

namespace Compilation

def diagnostics (c : Compilation) : List Diagnostic := c.findings.map Finding.diagnostic

def totalErrors (c : Compilation) : Nat := c.findings.length + c.syntaxErrors.length

def ok (c : Compilation) : Bool := c.totalErrors == 0

/-- The program of a root node; a root that was lost gives an empty program. -/
def programOf (root : Node) : Node := if root.isMissing then .program 0 [] else root

/-- The functions that an analysis from an empty table entered. Each is registered as it is
entered, so the registry has them in this order. -/
def entries (t : Table) : List Event := t.functions.map fun (name, f) => .entered name f.line

def runOutput (out : ParserOutput) : Run :=
  let parsed := Event.parsed out.tokens.length out.syntaxErrors.length
  match Node.ofTree out.tree with
  | .error e => ⟨[parsed], .error e⟩
  | .ok root =>
      let o := (analyze (programOf root)).run .empty
      let events := parsed :: entries o.table
      match o.result with
      | .error e => ⟨events, .error e⟩
      | .ok _ =>
          ⟨events ++ [.analyzed o.findings.length],
            .ok {
              program := programOf root
              table := o.table
              findings := o.findings ++ (missingMain o.table).toList
              syntaxErrors := out.syntaxErrors
              tokens := out.tokens
              kindNames := out.kindNames }⟩

def run : ParserRun → Run
  | .unavailable => ⟨[], .error .parserUnavailable⟩
  | .failed message => ⟨[], .error (.parserFailed message)⟩
  | .finished out => runOutput out

def ofParser (p : ParserRun) : Except Fault Compilation := (run p).result

end Compilation

end MiniCheck
