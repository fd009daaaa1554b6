import MiniCheck.Fault
import MiniCheck.Finding
import MiniCheck.Parse.SyntaxError
import MiniCheck.Text.Lines
import MiniCheck.Text.Search

/-!
# Marks in a document

An editor shows an error as a mark over a range of its document. Lines and characters count from
0, and an editor takes only coordinates of 31 bits.
-/

namespace MiniCheck

structure Position where
  line : Int
  character : Int
  deriving DecidableEq, Repr

structure Range where
  start : Position
  stop : Position
  deriving DecidableEq, Repr

structure Mark where
  range : Range
  message : String
  deriving DecidableEq, Repr

/-- A part of one line. -/
structure Span where
  line : Nat
  start : Nat
  stop : Nat
  deriving DecidableEq, Repr

namespace Position

def limit : Int := 2147483647

def inRange (n : Int) : Bool := 0 ≤ n && n ≤ limit

def checked (line character : Int) : Except Fault Position :=
  if !inRange line then .error (.positionOutOfRange .line line)
  else if !inRange character then .error (.positionOutOfRange .character character)
  else .ok ⟨line, character⟩

end Position

/-- A range on one line. -/
def Range.checked (line start stop : Int) : Except Fault Range := do
  let first ← Position.checked line start
  let last ← Position.checked line stop
  return ⟨first, last⟩

/-- The line of a document for a line number that counts from 1. Without a number, and for numbers
below 1, it is the first line. -/
def lineIndex (line : Option Int) : Nat := (line.getD 1 - 1).toNat

namespace Span

/-- The part of a line that a message is about: the piece that it quotes, where the line has it,
and otherwise the whole line. -/
def inLine (message : String) (line : List Char) : Nat × Nat :=
  match Text.quotedPiece message.toList with
  | none => (0, line.length)
  | some piece =>
      match Text.indexOf piece line with
      | none => (0, line.length)
      | some start => (start, start + piece.length)

/-- The span of a diagnostic. On a line after the last one it is empty. -/
def ofDiagnostic (lines : List (List Char)) (d : Diagnostic) : Span :=
  let index := lineIndex d.line
  match lines[index]? with
  | none => ⟨index, 0, 0⟩
  | some line =>
      let (start, stop) := inLine d.message line
      ⟨index, start, stop⟩

end Span

namespace Mark

def severity : Nat := 1

def source : String := "minilang"

def ofDiagnostic (lines : List (List Char)) (d : Diagnostic) : Except Fault Mark := do
  let span := Span.ofDiagnostic lines d
  return ⟨← Range.checked span.line span.start span.stop, d.message⟩

/-- The mark of a syntax error covers the symbol, and at least one character. -/
def ofSyntaxError (e : SyntaxError) : Except Fault Mark := do
  let width := max e.near.length 1
  return ⟨← Range.checked (lineIndex (some e.line)) e.column (e.column + width), e.message⟩

/-- The marks for a document: syntax errors first, then diagnostics. -/
def ofErrors (document : String) (diagnostics : List Diagnostic) (errors : List SyntaxError) :
    Except Fault (List Mark) := do
  let lines := Text.splitLines document.toList
  let first ← errors.mapM ofSyntaxError
  let second ← diagnostics.mapM (ofDiagnostic lines)
  return first ++ second

end Mark

end MiniCheck
