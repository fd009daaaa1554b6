import MiniCheck.CommandLine.FileTree
import MiniCheck.CommandLine.Log
import MiniCheck.CommandLine.Options
import MiniCheck.Listing
import MiniCheck.Syntax.Outline
import MiniCheck.Text.Upper
import MiniCheck.Text.Utf8

/-!
# The command

Compiles a file and writes four listings. The exit code is 0 for a program without errors, 1 if
the file is not there, and 2 if the program has errors or the command was not understood.
-/

namespace MiniCheck.CommandLine

/-- What can end the command other than by an exit code. -/
inductive Failure where
  | levelMissing
  | unknownLevel (name : String)
  | unreadable (e : PathError)
  | undecodable (e : Text.Utf8.DecodeError)
  | uncompiled (f : Fault)
  | outDirMissing
  | unwritable (e : PathError)
  deriving DecidableEq, Repr

inductive Ending where
  | exit (code : Nat)
  /-- The arguments settled it. -/
  | usage (code : Nat)
  | failed (f : Failure)
  deriving DecidableEq, Repr

/-- What a run of the command leaves. -/
structure Transcript where
  stdout : String
  stderr : String
  files : FileTree
  ending : Ending

def Failure.message : Failure → String
  | levelMissing => "'list' object has no attribute 'upper'"
  | unknownLevel name => s!"Unknown level: {Text.quoted name}"
  | unreadable e => e.message
  | undecodable e => e.message
  | uncompiled f => f.message
  | outDirMissing => "expected str, bytes or os.PathLike object, not list"
  | unwritable e => e.message

namespace Transcript

/-- Goes on with what was printed and logged so far. -/
def after (stdout stderr : String) (t : Transcript) : Transcript :=
  { t with stdout := stdout ++ t.stdout, stderr := stderr ++ t.stderr }

def fail (files : FileTree) (f : Failure) : Transcript := ⟨"", "", files, .failed f⟩

end Transcript

/-- The listings with their names, in the order in which they are written. -/
def listings (c : Compilation) : List (String × String) :=
  [("tokens", Listing.tokens c.kindNames c.tokens),
    ("global_vars", Listing.globals c.table),
    ("functions", Listing.functions c.table),
    ("errors", Listing.summary c.diagnostics c.syntaxErrors.length)]

def listingPath (dir name : String) : String := FileTree.joinPath dir (name ++ ".txt")

/-- Writes listings one after another. Those before a failure stay written. -/
def writeAll (dir : String) (files : FileTree) : List (String × String) → FileTree × Option PathError
  | [] => (files, none)
  | (name, text) :: rest =>
      match files.write (listingPath dir name) (text ++ "\n").toUTF8.toList with
      | .error e => (files, some e)
      | .ok written => writeAll dir written rest

def conclusion (c : Compilation) : String :=
  if c.ok then "\nCompilation succeeded! Check the generated files.\n"
  else
    (if c.syntaxErrors.isEmpty then ""
    else "\n== SYNTAX ERRORS ==\n" ++ String.join (c.syntaxErrors.map fun e => s!"• {e.text}\n")) ++
    s!"\n{c.totalErrors} error(s) found. Details in errors.txt.\n"

/-- Writes the listings of a compilation to a directory and concludes. -/
def writeListings (dir : String) (level : LogLevel) (files : FileTree) (c : Compilation) :
    Transcript :=
  match files.ensureDirs dir with
  | (made, some e) => .fail made (.unwritable e)
  | (made, none) =>
      match writeAll dir made (listings c) with
      | (written, some e) => .fail written (.unwritable e)
      | (written, none) =>
          let names := (listings c).map Prod.fst
          let paths := names.map (listingPath dir)
          let log := (names.zip paths).map fun (name, path) => LogRecord.written name path
          ⟨"[OK] Reports written to: " ++ ", ".intercalate paths ++ "\n" ++ conclusion c,
            LogRecord.shown level log, written, .exit (if c.ok then 0 else 2)⟩

/-- What follows a compilation that came to its end. -/
def finish (o : Options) (level : LogLevel) (files : FileTree) (c : Compilation) : Transcript :=
  match o.outDir with
  | none => .fail files .outDirMissing
  | some dir => writeListings dir level files c

def drawing (o : Options) (c : Compilation) : String :=
  if o.printTree then "\n== AST ==\n" ++ c.program.draw ++ "\n" else ""

/-- Compiles what the parser made of the file. -/
def compile (o : Options) (level : LogLevel) (files : FileTree) (p : ParserRun) : Transcript :=
  let r := Compilation.run p
  let log := LogRecord.shown level (r.events.map LogRecord.ofEvent)
  match r.result with
  | .error f => (Transcript.fail files (.uncompiled f)).after "" log
  | .ok c => (finish o level files c).after (drawing o c) log

/-- Reads the file and compiles it. -/
def compileFile (o : Options) (level : LogLevel) (files : FileTree) (p : ParserRun) : Transcript :=
  if !files.isTherePath o.input then
    ⟨s!"[ERROR] File '{o.input}' was not found.\n", "", files, .exit 1⟩
  else
    match files.read o.input with
    | .error e => .fail files (.unreadable e)
    | .ok bytes =>
        match Text.Utf8.error? bytes with
        | some e => .fail files (.undecodable e)
        | none => compile o level files p

/-- The level of the log. Its name may be written in small letters. -/
def levelOf (o : Options) : Except Failure LogLevel :=
  match o.logLevel with
  | none => .error .levelMissing
  | some name =>
      match LogLevel.ofName? (Text.upper name) with
      | none => .error (.unknownLevel (Text.upper name))
      | some level => .ok level

/-- Runs the command. `p` is what the parser makes of the input file. -/
def run (files : FileTree) (p : ParserRun) (args : List String) : Transcript :=
  match Options.parse args with
  | .error .help => ⟨helpText, "", files, .usage 0⟩
  | .error (.usage e) => ⟨"", errorText e, files, .usage 2⟩
  | .ok o =>
      match levelOf o with
      | .error f => .fail files f
      | .ok level =>
          (compileFile o level files p).after s!"\n[INFO] Analyzing file: {o.input}\n" ""

end MiniCheck.CommandLine
