import MiniCheck.Compilation
import MiniCheck.Editor.Mark

/-!
# Documents under analysis

The documents of an editor. Whenever one of them is opened, changed or saved, its marks are
published anew. A fault of the compilation, or a mark that has no place in the document, is
published as a diagnostic of its own.
-/

namespace MiniCheck

inductive DocumentEvent where
  | opened | changed | saved
  deriving DecidableEq, Repr

structure Publication where
  uri : String
  marks : List Mark
  deriving DecidableEq, Repr

/-- The text of each document. An editor may know a document and have no text of it. -/
abbrev Documents := NameMap (Option String)

namespace Documents

def edit (docs : Documents) (uri : String) (text : Option String) : Documents :=
  docs.insert uri text

def textOf (docs : Documents) (uri : String) : String := ((docs.find? uri).bind id).getD ""

/-- The errors that a compilation leaves for the editor to show. -/
structure Errors where
  diagnostics : List Diagnostic
  syntaxErrors : List SyntaxError
  deriving DecidableEq, Repr

def errorsOf (p : ParserRun) : Except Fault Errors := do
  let c ← Compilation.ofParser p
  return ⟨c.diagnostics, c.syntaxErrors⟩

def marksOf (text : String) (outcome : Except Fault Errors) : Except Fault (List Mark) := do
  let errors ← outcome
  Mark.ofErrors text errors.diagnostics errors.syntaxErrors

def faultDiagnostic (f : Fault) : Diagnostic := ⟨none, s!"Parser/server error: {f.message}"⟩

/-- The marks of a document, or the mark of the fault that kept them from being found. -/
def marksOrFault (text : String) (outcome : Except Fault Errors) : Except Fault (List Mark) :=
  match marksOf text outcome with
  | .ok marks => .ok marks
  | .error f => Mark.ofErrors text [faultDiagnostic f] []

/-- Answers an event on a document. The three events are answered alike. -/
def answer (docs : Documents) (_event : DocumentEvent) (uri : String)
    (outcome : Except Fault Errors) : Except Fault Publication := do
  return ⟨uri, ← marksOrFault (docs.textOf uri) outcome⟩

def publish (docs : Documents) (event : DocumentEvent) (uri : String) (p : ParserRun) :
    Except Fault Publication :=
  docs.answer event uri (errorsOf p)

end Documents

end MiniCheck
