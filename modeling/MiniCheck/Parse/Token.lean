/-!
# Tokens
-/

namespace MiniCheck

structure Token where
  /-- The number of the token's kind. The end of the input and all that is not a lexeme have none
  that is positive. -/
  kind : Int
  text : Option String
  line : Int
  deriving DecidableEq, Repr

namespace Token

def endKind : Int := -1

def endText : String := "<EOF>"

def endOfInput (line : Int) : Token := ⟨endKind, some endText, line⟩

def isEnd (t : Token) : Bool := t.kind == endKind

end Token

end MiniCheck
