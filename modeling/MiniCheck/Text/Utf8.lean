/-!
# Reading UTF-8

The first place at which a sequence of bytes is no UTF-8, as a machine that takes one byte after
another.
-/

namespace MiniCheck.Text.Utf8

inductive Reason where
  | invalidStart | invalidContinuation | unexpectedEnd
  deriving DecidableEq, Repr

/-- The bytes from `first` on that cannot be read; `byte` is the first of them. -/
structure DecodeError where
  first : Nat
  count : Nat
  byte : Nat
  reason : Reason
  deriving DecidableEq, Repr

/-- What the machine expects. Inside a character it has taken `taken` bytes beginning with `lead`,
and it expects `owed` more, the next of them between `low` and `high`. -/
inductive State where
  | start
  | inside (lead taken owed low high : Nat)
  deriving DecidableEq, Repr

/-- The state after the first byte of a character, or none where no character begins so. -/
def first? (b : Nat) : Option State :=
  if b < 0x80 then some .start
  else if b < 0xc2 then none
  else if b < 0xe0 then some (.inside b 1 1 0x80 0xbf)
  else if b == 0xe0 then some (.inside b 1 2 0xa0 0xbf)
  else if b == 0xed then some (.inside b 1 2 0x80 0x9f)
  else if b < 0xf0 then some (.inside b 1 2 0x80 0xbf)
  else if b == 0xf0 then some (.inside b 1 3 0x90 0xbf)
  else if b < 0xf4 then some (.inside b 1 3 0x80 0xbf)
  else if b == 0xf4 then some (.inside b 1 3 0x80 0x8f)
  else none

/-- The first error in the bytes from position `pos` on. -/
def firstError (pos : Nat) : State → List UInt8 → Option DecodeError
  | .start, [] => none
  | .inside lead taken _ _ _, [] => some ⟨pos - taken, taken, lead, .unexpectedEnd⟩
  | .start, b :: rest =>
      match first? b.toNat with
      | none => some ⟨pos, 1, b.toNat, .invalidStart⟩
      | some next => firstError (pos + 1) next rest
  | .inside lead taken owed low high, b :: rest =>
      if low ≤ b.toNat && b.toNat ≤ high then
        if owed ≤ 1 then firstError (pos + 1) .start rest
        else firstError (pos + 1) (.inside lead (taken + 1) (owed - 1) 0x80 0xbf) rest
      else some ⟨pos - taken, taken, lead, .invalidContinuation⟩

def error? (bytes : List UInt8) : Option DecodeError := firstError 0 .start bytes

def Reason.text : Reason → String
  | invalidStart => "invalid start byte"
  | invalidContinuation => "invalid continuation byte"
  | unexpectedEnd => "unexpected end of data"

/-- A byte as two hexadecimal digits. -/
def hexByte (b : Nat) : String := String.ofList [Nat.digitChar (b / 16), Nat.digitChar (b % 16)]

def DecodeError.message (e : DecodeError) : String :=
  let place :=
    if e.count == 1 then s!"byte 0x{hexByte e.byte} in position {e.first}"
    else s!"bytes in position {e.first}-{e.first + e.count - 1}"
  s!"'utf-8' codec can't decode {place}: {e.reason.text}"

end MiniCheck.Text.Utf8
