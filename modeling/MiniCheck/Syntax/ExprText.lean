import MiniCheck.Fault
import MiniCheck.Syntax.Node

/-!
# The text of an expression

An expression is written without blanks. A missing operand leaves an empty text, and a statement
has no text as an expression.
-/

namespace MiniCheck.Node

mutual

def exprText : Node → Except Fault String
  | missing => .ok ""
  | literal _ _ text => .ok text
  | identifier _ name => .ok name
  | paren _ inner => do
      let text ← inner.exprText
      return "(" ++ text ++ ")"
  | negation _ inner => do
      let text ← inner.exprText
      return "!" ++ text
  | binary _ op left right => do
      let l ← left.exprText
      let r ← right.exprText
      return l ++ op ++ r
  | call _ name args => do
      let texts ← exprTexts args
      return name ++ "(" ++ ",".intercalate texts ++ ")"
  | node => .error (.notExpression node.kindName)

def exprTexts : List Node → Except Fault (List String)
  | [] => .ok []
  | a :: as => do
      let text ← a.exprText
      let texts ← exprTexts as
      return text :: texts

end

end MiniCheck.Node
