import MiniCheck.Finding
import MiniCheck.Parse.Token
import MiniCheck.Symbols.Table

/-!
# Listings

Plain texts about a compiled program: its tokens, its global variables, its functions, and the
summary of its errors. Each is given as a list of lines first.
-/

namespace MiniCheck.Listing

def ofLines (lines : List String) : String := "\n".intercalate lines

/-- Writes a text on one line: a line feed becomes an escape, a carriage return is left out. -/
def oneLine (text : String) : String :=
  String.ofList <| text.toList.flatMap fun c =>
    if c == '\n' then ['\\', 'n'] else if c == '\r' then [] else [c]

/-- A token of an unnamed kind is listed under the number of its kind. -/
def kindName (names : List String) (kind : Int) : String :=
  names[kind.toNat]?.getD (toString kind)

def lexeme (t : Token) : String := oneLine (t.text.getD "")

def tokenLine (names : List String) (t : Token) : String :=
  s!"<Token: {kindName names t.kind}, Lexeme: '{lexeme t}', Line: {t.line}>"

/-- One line for each lexeme. -/
def tokenLines (names : List String) (tokens : List Token) : List String :=
  (tokens.filter (0 < ·.kind)).map (tokenLine names)

def tokens (names : List String) (ts : List Token) : String := ofLines (tokenLines names ts)

def initLabel (initText : Option String) : String := initText.getD "null"

def constLabel (isConst : Bool) : String := if isConst then "True" else "False"

def yesNo (flag : Bool) : String := if flag then "YES" else "NO"

def globalLine (v : Variable) : String :=
  s!"Name: {v.name}, Type: {v.type.name}, Initialized with: {initLabel v.initText}, " ++
    s!"Const: {constLabel v.isConst}"

def globalLines (t : Table) : List String :=
  "--- Global Variables ---" :: t.globalVariables.map globalLine

def globals (t : Table) : String := ofLines (globalLines t)

/-- The lines of a list inside a listing; an empty list has a line of its own. -/
def itemLines (items : List String) : List String :=
  if items.isEmpty then ["    (none)"] else items.map ("    " ++ ·)

def separator : String := "-----------------------------"

def functionLines (f : Function) : List String :=
  [s!"Name: {f.name}",
    s!"  Return Type: {f.type.name}",
    s!"  Main: {yesNo f.isMain}, Recursive: {yesNo f.isRecursive}",
    "  Parameters:"] ++
  itemLines (f.parameters.map fun p => s!"{p.type.name} {p.name}") ++
  ["  Local Variables:"] ++
  itemLines (f.locals.map fun v => s!"{v.type.name} {v.name} (Init: {initLabel v.initText})") ++
  ["  Control Structures:"] ++
  itemLines (f.controls.map fun c => s!"<{c.text}>") ++
  [separator]

def functionsLines (t : Table) : List String :=
  "--- Functions ---" :: t.functions.flatMap fun (_, f) => functionLines f

def functions (t : Table) : String := ofLines (functionsLines t)

def success : String := "Compilation succeeded! No errors found."

/-- The summary of the diagnostics and of a number of syntax errors, which are only counted. -/
def summaryLines (diagnostics : List Diagnostic) (syntaxErrors : Int) : List String :=
  let total := diagnostics.length + syntaxErrors
  if total == 0 then [success]
  else
    [s!"Found errors ({total}):"] ++
    (if 0 < syntaxErrors then
      ["Syntax errors detected (see the console output for the parser details)."]
    else []) ++
    diagnostics.map Diagnostic.text

def summary (diagnostics : List Diagnostic) (syntaxErrors : Int) : String :=
  ofLines (summaryLines diagnostics syntaxErrors)

end MiniCheck.Listing
