import MiniCheck.Text.Segments

/-!
# Targets of requests

The target of a request is a reference to a page. It is a path, perhaps after a scheme and a host,
and perhaps with a query or a fragment behind it. The path that is asked for is found in three
steps: it is made to start at the root, its dot segments are resolved, and its escapes are decoded.
-/

namespace MiniCheck.Service.Target

/-- Takes one more segment of a path. A dot stands for nothing, and two dots take the segment before
them away, but never the empty one before the first slash. -/
def addSegment (done : List String) (segment : String) : List String :=
  if segment == "." then done
  else if segment == ".." then if done == [""] then done else done.dropLast
  else done ++ [segment]

def resolveDots (path : String) : String :=
  "/".intercalate ((Text.segments path).foldl addSegment [])

def isSchemeChar (c : Char) : Bool := c.isAlphanum || c == '+' || c == '.' || c == '-'

/-- Takes the scheme and its colon off a target, and tells whether there was one. -/
def dropScheme (target : List Char) : Bool × List Char :=
  let scheme := target.takeWhile isSchemeChar
  match target.drop scheme.length with
  | ':' :: rest =>
      if (scheme.take 1).all Char.isAlpha then (!scheme.isEmpty, rest) else (false, target)
  | _ => (false, target)

/-- Takes the host off a target. It stands between two slashes and the path. -/
def dropHost : List Char → List Char × List Char
  | '/' :: '/' :: rest => (rest.takeWhile (· != '/'), rest.dropWhile (· != '/'))
  | target => ([], target)

/-- The path of a target from the root. Only a scheme and a host together make a target complete;
the path of any other one is put after the slash of the root. -/
def rooted (target : String) : String :=
  let (scheme, rest) := dropScheme (target.toList.takeWhile fun c => c != '?' && c != '#')
  let (host, rest) := dropHost rest
  let path := String.ofList rest
  let path := if scheme || !host.isEmpty then resolveDots path else path
  if scheme && !host.isEmpty then path
  else resolveDots (String.ofList ('/' :: path.toList.dropWhile (· == '/')))

def hexDigit? (c : Char) : Option Nat :=
  if '0' ≤ c && c ≤ '9' then some (c.toNat - '0'.toNat)
  else if 'a' ≤ c && c ≤ 'f' then some (c.toNat - 'a'.toNat + 10)
  else if 'A' ≤ c && c ≤ 'F' then some (c.toNat - 'A'.toNat + 10)
  else none

/-- The character behind an escape of two hexadecimal digits. Escapes outside ASCII are left alone:
no page has such a character in its path. -/
def escaped? (high low : Char) : Option Char := do
  let n := 16 * (← hexDigit? high) + (← hexDigit? low)
  if n < 0x80 then some (Char.ofNat n) else none

def decodeEscapes : List Char → List Char
  | '%' :: high :: low :: rest =>
      match escaped? high low with
      | some c => c :: decodeEscapes rest
      | none => '%' :: decodeEscapes (high :: low :: rest)
  | c :: rest => c :: decodeEscapes rest
  | [] => []

/-- The path that a target asks for. Escapes are decoded where the request is sent and once more
where it is received. -/
def path (target : String) : String :=
  let decoded := decodeEscapes (decodeEscapes (rooted target).toList)
  if decoded.isEmpty then "/" else String.ofList decoded

end MiniCheck.Service.Target
