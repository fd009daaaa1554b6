import MiniCheck.Text.Unprinted

/-!
# Quoted texts

How a message quotes a text: between single quotation marks, or between double ones if the text has
a single mark and no double one. Backslashes, the marks around the text and all characters that
cannot be printed are written as escapes.
-/

namespace MiniCheck.Text

/-- The last `width` hexadecimal digits of a number. -/
def hexDigits : Nat → Nat → List Char
  | 0, _ => []
  | width + 1, n => hexDigits width (n / 16) ++ [Nat.digitChar (n % 16)]

def escapeUnprinted (c : Char) : List Char :=
  if c.toNat < 0x100 then '\\' :: 'x' :: hexDigits 2 c.toNat
  else if c.toNat < 0x10000 then '\\' :: 'u' :: hexDigits 4 c.toNat
  else '\\' :: 'U' :: hexDigits 8 c.toNat

def escapeChar (mark : Char) (c : Char) : List Char :=
  if c == mark || c == '\\' then ['\\', c]
  else if c == '\n' then ['\\', 'n']
  else if c == '\r' then ['\\', 'r']
  else if c == '\t' then ['\\', 't']
  else if isPrinted c then [c]
  else escapeUnprinted c

def markFor (s : String) : Char :=
  if s.contains '\x27' && !s.contains '\x22' then '\x22' else '\x27'

def quoted (s : String) : String :=
  let mark := markFor s
  String.ofList (mark :: s.toList.flatMap (escapeChar mark) ++ [mark])

end MiniCheck.Text
