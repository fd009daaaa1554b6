/-!
# Searching in a text
-/

namespace MiniCheck.Text

/-- The position of the first occurrence of `piece`. -/
def indexOf (piece : List Char) : List Char → Option Nat
  | [] => if piece.isEmpty then some 0 else none
  | c :: cs => if piece.isPrefixOf (c :: cs) then some 0 else (indexOf piece cs).map (· + 1)

def quoteMark : Char := '\x27'

/-- What stands between a quotation mark just before `cs` and the next one. -/
def quotedHead (cs : List Char) : Option (List Char) :=
  let piece := cs.takeWhile (· != quoteMark)
  if !piece.isEmpty && piece.length < cs.length then some piece else none

/-- The first quoted piece that is not empty. -/
def quotedPiece : List Char → Option (List Char)
  | [] => none
  | c :: cs =>
      if c == quoteMark then
        match quotedHead cs with
        | some piece => some piece
        | none => quotedPiece cs
      else quotedPiece cs

end MiniCheck.Text
