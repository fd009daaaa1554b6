import MiniCheck.Text.Digit
import MiniCheck.Text.Quoted

/-!
# Options of the command

A long option may be cut short as long as only one is meant, and its value may follow an equals
sign. Negative numbers, texts with a space, and everything after two dashes are no options. The
last value of an option counts. Two dashes after the equals sign only separate, and leave the option
without a value.
-/

namespace MiniCheck.CommandLine

structure Options where
  input : String
  outDir : Option String
  printTree : Bool
  logLevel : Option String
  deriving DecidableEq, Repr

inductive Flag where
  | help | outDir | printTree | logLevel
  deriving DecidableEq, Repr

inductive UsageError where
  | unrecognized (args : List String)
  | argumentExpected (flag : Flag)
  | argumentIgnored (flag : Flag) (value : String)
  | ambiguous (arg : String) (candidates : List String)
  deriving DecidableEq, Repr

/-- Why the command ends before it starts to work. -/
inductive Stop where
  | help
  | usage (e : UsageError)
  deriving DecidableEq, Repr

/-- An argument as it is understood. A flag may bring a value of its own. -/
inductive Arg where
  | value (s : String)
  | flag (f : Flag) (given : Option String)
  /-- The short help flag, with more text in the same argument. -/
  | helpWith (text : String)
  | unknown (s : String)
  | separator
  deriving DecidableEq, Repr

namespace Flag

def longName : Flag → String
  | help => "--help"
  | outDir => "--out-dir"
  | printTree => "--print-ast"
  | logLevel => "--log-level"

def all : List Flag := [help, outDir, printTree, logLevel]

def shortHelp : String := "-h"

/-- The name of a flag in messages. -/
def label : Flag → String
  | help => shortHelp ++ "/" ++ help.longName
  | f => f.longName

def ofExact? (s : String) : Option Flag :=
  if s == shortHelp then some help else all.find? (·.longName == s)

end Flag

namespace Arg

/-- A text split at its first equals sign. -/
def splitEquals (s : String) : String × Option String :=
  let name := s.toList.takeWhile (· != '=')
  match s.toList.drop name.length with
  | [] => (s, none)
  | _ :: given => (String.ofList name, some (String.ofList given))

/-- A minus sign and a decimal number. A line feed may end it. -/
def isNegativeNumber (s : String) : Bool :=
  match s.toList with
  | '-' :: number =>
      let whole := number.takeWhile Text.isDigit
      match number.drop whole.length with
      | [] | ['\n'] => !whole.isEmpty
      | '.' :: rest =>
          let fraction := rest.takeWhile Text.isDigit
          let ending := rest.drop fraction.length
          !fraction.isEmpty && (ending == [] || ending == ['\n'])
      | _ => false
  | _ => false

/-- An argument that starts with a dash and is no flag as it stands. -/
def ofDashed (s : String) : Except UsageError Arg :=
  let (name, given) := splitEquals s
  let candidates := if s.startsWith "--" then Flag.all.filter (·.longName.startsWith name) else []
  match given, Flag.ofExact? name, candidates with
  | some v, some f, _ => .ok (if name == Flag.shortHelp then .helpWith v else .flag f (some v))
  | _, _, [f] => .ok (.flag f given)
  | _, _, _ :: _ :: _ => .error (.ambiguous s (candidates.map Flag.longName))
  | _, _, [] =>
      if s.startsWith Flag.shortHelp then
        .ok (.helpWith (String.ofList (s.toList.drop Flag.shortHelp.length)))
      else if isNegativeNumber s || s.contains ' ' then .ok (.value s)
      else .ok (.unknown s)

def ofString (s : String) : Except UsageError Arg :=
  if !s.startsWith "-" || s == "-" then .ok (.value s)
  else
    match Flag.ofExact? s with
    | some f => .ok (.flag f none)
    | none => ofDashed s

/-- Understands the arguments. After two dashes all are values. -/
def ofStrings : List String → Except UsageError (List Arg)
  | [] => .ok []
  | s :: rest =>
      if s == "--" then .ok (.separator :: rest.map .value)
      else do
        let arg ← ofString s
        let args ← ofStrings rest
        return arg :: args

end Arg

namespace Options

def default : Options where
  input := "input.txt"
  outDir := some "."
  printTree := false
  logLevel := some "WARNING"

/-- The value that an option takes from the text after its equals sign. -/
def valueOf (given : String) : Option String := if given == "--" then none else some given

/-- What the short help flag makes of the text after it. The letter of the flag may be repeated, and
nothing else may follow. -/
def afterHelp : List Char → Stop
  | ['h'] => .help
  | 'h' :: rest => afterHelp rest
  | rest => .usage (.argumentIgnored .help (String.ofList rest))

/-- Goes through the arguments. `seen` tells whether the input has been named, `fresh` whether it
was the argument just before; `extras` are the arguments that have no place. -/
def scan (o : Options) (seen fresh : Bool) (extras : List String) :
    List Arg → Except Stop (Options × List String)
  | [] => .ok (o, extras)
  | .value v :: rest =>
      if seen then scan o true false (extras ++ [v]) rest
      else scan { o with input := v } true true extras rest
  | .separator :: rest =>
      if seen && !fresh then scan o seen false (extras ++ ["--"]) rest
      else scan o seen false extras rest
  | .unknown s :: rest => scan o seen false (extras ++ [s]) rest
  | .helpWith text :: _ => .error (afterHelp text.toList)
  | .flag .help none :: _ => .error .help
  | .flag .help (some given) :: _ => .error (.usage (.argumentIgnored .help given))
  | .flag .printTree none :: rest => scan { o with printTree := true } seen false extras rest
  | .flag .printTree (some given) :: _ => .error (.usage (.argumentIgnored .printTree given))
  | .flag .outDir (some given) :: rest =>
      scan { o with outDir := valueOf given } seen false extras rest
  | .flag .outDir none :: .value v :: rest => scan { o with outDir := some v } seen false extras rest
  | .flag .outDir none :: _ => .error (.usage (.argumentExpected .outDir))
  | .flag .logLevel (some given) :: rest =>
      scan { o with logLevel := valueOf given } seen false extras rest
  | .flag .logLevel none :: .value v :: rest =>
      scan { o with logLevel := some v } seen false extras rest
  | .flag .logLevel none :: _ => .error (.usage (.argumentExpected .logLevel))

def parse (args : List String) : Except Stop Options :=
  match Arg.ofStrings args with
  | .error e => .error (.usage e)
  | .ok args => do
      let (o, extras) ← scan default false false [] args
      if extras.isEmpty then return o else .error (.usage (.unrecognized extras))

end Options

def UsageError.message : UsageError → String
  | unrecognized args => "unrecognized arguments: " ++ " ".intercalate args
  | argumentExpected flag => s!"argument {flag.label}: expected one argument"
  | argumentIgnored flag value =>
      s!"argument {flag.label}: ignored explicit argument {Text.quoted value}"
  | ambiguous arg candidates =>
      s!"ambiguous option: {arg} could match " ++ ", ".intercalate candidates

def programName : String := "Driver.py"

def usageText : String :=
  s!"usage: {programName} [-h] [--out-dir OUT_DIR] [--print-ast]\n" ++
  "                 [--log-level LOG_LEVEL]\n" ++
  "                 [input]\n"

def helpText : String :=
  usageText ++
  "\nMiniLang semantic analyzer\n" ++
  "\npositional arguments:\n" ++
  "  input                 source file (default: input.txt)\n" ++
  "\noptions:\n" ++
  "  -h, --help            show this help message and exit\n" ++
  "  --out-dir OUT_DIR     where tokens.txt, global_vars.txt, functions.txt and\n" ++
  "                        errors.txt go\n" ++
  "  --print-ast           print the syntax tree before the reports\n" ++
  "  --log-level LOG_LEVEL\n" ++
  "                        logging level (DEBUG, INFO, ...)\n"

def errorText (e : UsageError) : String := usageText ++ s!"{programName}: error: {e.message}\n"

end MiniCheck.CommandLine
