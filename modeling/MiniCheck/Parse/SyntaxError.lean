import MiniCheck.Parse.Token

/-!
# Syntax errors

A parser complains about a symbol at a place. Where it has no symbol, or an empty one, the
complaint is about the end of the input.
-/

namespace MiniCheck

structure Complaint where
  line : Int
  column : Int
  message : String
  symbol : Option String
  deriving DecidableEq, Repr

structure SyntaxError where
  line : Int
  column : Int
  near : String
  message : String
  deriving DecidableEq, Repr

namespace SyntaxError

def nearText : Option String → String
  | none => Token.endText
  | some s => if s.isEmpty then Token.endText else s

def ofComplaint (c : Complaint) : SyntaxError := ⟨c.line, c.column, nearText c.symbol, c.message⟩

def text (e : SyntaxError) : String :=
  s!"[line {e.line}] syntax error near '{e.near}': {e.message}"

end SyntaxError

end MiniCheck
