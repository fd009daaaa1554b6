/-!
# Faults

Reasons why a piece of work cannot be finished. A mistake in the analysed program is no fault: it
is recorded as a finding, and the analysis goes on.
-/

namespace MiniCheck

inductive PositionField where
  | line | character
  deriving DecidableEq, Repr

inductive Fault where
  /-- A node of a kind that has no place in a program. -/
  | unknownNode (kind : String)
  /-- A node without a written form was used as an expression. -/
  | notExpression (kind : String)
  /-- The body of a function is no block. -/
  | notBlock (kind : String)
  | globalScopeExit
  /-- There is no tree where one has to be built upon. -/
  | treeMissing
  | paramMissing
  /-- A list of parameters or arguments is not a list. -/
  | listMissing
  | parserUnavailable
  | parserFailed (message : String)
  | positionOutOfRange (field : PositionField) (value : Int)
  deriving DecidableEq, Repr

def PositionField.name : PositionField → String
  | line => "line"
  | character => "character"

def Fault.message : Fault → String
  | unknownNode kind => s!"Unknown syntax node kind: {kind}"
  | notExpression kind => s!"not an expression node: {kind}"
  | notBlock kind => s!"'{kind}' object has no attribute 'statements'"
  | globalScopeExit => "Cannot exit global scope"
  | treeMissing => "'NoneType' object has no attribute 'accept'"
  | paramMissing => "'NoneType' object has no attribute 'ID'"
  | listMissing => "'NoneType' object is not iterable"
  | parserUnavailable => "No module named 'parsing.MiniLangLexer'"
  | parserFailed message => message
  | positionOutOfRange field value =>
      s!"Position.{field.name} should be in range [0:2147483647], but was {value}."

end MiniCheck
