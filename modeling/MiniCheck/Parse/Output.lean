import MiniCheck.Parse.SyntaxError
import MiniCheck.Parse.Tree

/-!
# What a parser hands over

The parse tree, the tokens, and the complaints made on the way. The parser complains first; the
tokens are fetched after it, and each brings the complaints of the lexer that precede it. Fetching
ends with the token for the end of the input, which is added where the lexer gave none.
-/

namespace MiniCheck

structure Lexed where
  token : Token
  complaints : List Complaint
  deriving Repr

structure ParserOutput where
  tree : ParseTree
  lexed : List Lexed
  /-- The names of the kinds of tokens, by number. -/
  kindNames : List String
  complaints : List Complaint
  deriving Repr

inductive ParserRun where
  | unavailable
  | failed (message : String)
  | finished (output : ParserOutput)
  deriving Repr

namespace Lexed

/-- The part of the lexer's work that is fetched. `line` is the line of the last token before. -/
def fetch (line : Int) : List Lexed → List Lexed
  | [] => [⟨.endOfInput line, []⟩]
  | l :: rest => if l.token.isEnd then [l] else l :: fetch l.token.line rest

end Lexed

namespace ParserOutput

def fetched (out : ParserOutput) : List Lexed := Lexed.fetch 1 out.lexed

def tokens (out : ParserOutput) : List Token := out.fetched.map Lexed.token

def syntaxErrors (out : ParserOutput) : List SyntaxError :=
  (out.complaints ++ out.fetched.flatMap Lexed.complaints).map SyntaxError.ofComplaint

end ParserOutput

end MiniCheck
