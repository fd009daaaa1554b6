import MiniCheck.Text.Quoted
import MiniCheck.Text.Segments

/-!
# A tree of files

Files and directories by their path from the root of the tree, with a working directory from which
relative paths start. Names and paths have a greatest size, counted in bytes.
-/

namespace MiniCheck.CommandLine

abbrev Location := List String

structure FileTree where
  home : Location
  dirs : List Location
  files : List (Location × List UInt8)
  deriving Repr

/-- Why a path cannot be used. -/
inductive PathCause where
  | notFound | alreadyExists | notDirectory | isDirectory | nameTooLong | nullByte
  deriving DecidableEq, Repr

structure PathError where
  cause : PathCause
  path : String
  deriving DecidableEq, Repr

namespace PathCause

/-- The number of a cause, if it has one. -/
def number : PathCause → Option Nat
  | notFound => some 2
  | alreadyExists => some 17
  | notDirectory => some 20
  | isDirectory => some 21
  | nameTooLong => some 36
  | nullByte => none

def text : PathCause → String
  | notFound => "No such file or directory"
  | alreadyExists => "File exists"
  | notDirectory => "Not a directory"
  | isDirectory => "Is a directory"
  | nameTooLong => "File name too long"
  | nullByte => "embedded null byte"

end PathCause

/-- A numbered cause is reported together with the path. -/
def PathError.message (e : PathError) : String :=
  match e.cause.number with
  | some n => s!"[Errno {n}] {e.cause.text}: {Text.quoted e.path}"
  | none => e.cause.text

namespace FileTree

/-- A tree with nothing in it but an empty working directory. -/
def empty (home : Location) : FileTree where
  home := home
  dirs := (List.range (home.length + 1)).map home.take
  files := []

def file? (t : FileTree) (p : Location) : Option (List UInt8) := t.files.lookup p

def isFile (t : FileTree) (p : Location) : Bool := (t.file? p).isSome

def isDir (t : FileTree) (p : Location) : Bool := p.isEmpty || t.dirs.contains p

def isThere (t : FileTree) (p : Location) : Bool := t.isDir p || t.isFile p

def addDir (t : FileTree) (p : Location) : FileTree :=
  if t.isDir p then t else { t with dirs := t.dirs ++ [p] }

def putFile (t : FileTree) (p : Location) (content : List UInt8) : FileTree :=
  if t.isFile p then
    { t with files := t.files.map fun e => if e.1 == p then (p, content) else e }
  else { t with files := t.files ++ [(p, content)] }

/-- One step along a path. -/
def step (here : Location) (name : String) : Location :=
  if name == "" || name == "." then here
  else if name == ".." then here.dropLast
  else here ++ [name]

/-- The greatest size of a name in a directory. -/
def nameLimit : Nat := 255

/-- The greatest size of a path. -/
def pathLimit : Nat := 4095

/-- Follows the names of a path. Only from a directory is there a further step. -/
def walk (t : FileTree) (here : Location) : List String → Except PathCause Location
  | [] => .ok here
  | name :: rest =>
      if !t.isDir here then .error (if t.isFile here then .notDirectory else .notFound)
      else if nameLimit < name.utf8ByteSize then .error .nameTooLong
      else walk t (step here name) rest

/-- Where a path starts. -/
def origin (t : FileTree) (path : String) : Location := if path.startsWith "/" then [] else t.home

/-- What is wrong with a path as a text. -/
def textCause? (path : String) : Option PathCause :=
  if path.toList.contains '\x00' then some .nullByte
  else if path.isEmpty then some .notFound
  else if pathLimit < path.utf8ByteSize then some .nameTooLong
  else none

/-- The place that a path names. Nothing needs to be there yet. -/
def locate (t : FileTree) (path : String) : Except PathCause Location :=
  match textCause? path with
  | some cause => .error cause
  | none => t.walk (t.origin path) (Text.segments path)

def isTherePath (t : FileTree) (path : String) : Bool :=
  match t.locate path with
  | .ok p => t.isThere p
  | .error _ => false

def isDirPath (t : FileTree) (path : String) : Bool :=
  match t.locate path with
  | .ok p => t.isDir p
  | .error _ => false

def read (t : FileTree) (path : String) : Except PathError (List UInt8) :=
  match t.locate path with
  | .error cause => .error ⟨cause, path⟩
  | .ok p =>
      match t.file? p with
      | some content => .ok content
      | none => .error ⟨if t.isDir p then .isDirectory else .notFound, path⟩

def write (t : FileTree) (path : String) (content : List UInt8) : Except PathError FileTree :=
  match t.locate path with
  | .error cause => .error ⟨cause, path⟩
  | .ok p => if t.isDir p then .error ⟨.isDirectory, path⟩ else .ok (t.putFile p content)

/-- A path without the slashes at its end. The root keeps its slash. -/
def trimSlashes (path : String) : String :=
  let trimmed := String.ofList (path.toList.reverse.dropWhile (· == '/')).reverse
  if trimmed.isEmpty then path else trimmed

/-- The place for a new directory. The slashes at the end of its path do not count. -/
def locateNew (t : FileTree) (path : String) : Except PathCause Location :=
  match textCause? path with
  | some cause => .error cause
  | none => t.walk (t.origin path) (Text.segments (trimSlashes path))

/-- Makes one directory. -/
def makeDir (t : FileTree) (path : String) : Except PathError FileTree :=
  match t.locateNew path with
  | .error cause => .error ⟨cause, path⟩
  | .ok p => if t.isThere p then .error ⟨.alreadyExists, path⟩ else .ok (t.addDir p)

/-- Makes one directory, unless it is there already. -/
def ensureDir (t : FileTree) (path : String) : FileTree × Option PathError :=
  match t.makeDir path with
  | .ok made => (made, none)
  | .error e => (t, if t.isDirPath path then none else some e)

/-- A path cut before its last name: what comes before, and the name. -/
def splitLast (path : String) : String × String :=
  let name := (path.toList.reverse.takeWhile (· != '/')).reverse
  let before := String.ofList (path.toList.take (path.length - name.length))
  (trimSlashes before, String.ofList name)

/-- The directory around a path, and the name in it. A slash at the end of the path is no name. -/
def splitParent (path : String) : String × String :=
  let (before, name) := splitLast path
  if name.isEmpty then splitLast before else (before, name)

/-- Makes the directory called `name`, with the given path, after those around it. A file in the
place of one of these is no error yet, because it is met again on the way to the directory. -/
def ensureLast (path name : String) : FileTree × Option PathError → FileTree × Option PathError
  | (t, some ⟨.alreadyExists, _⟩) | (t, none) => if name == "." then (t, none) else t.ensureDir path
  | (t, some e) => (t, some e)

/-- Makes a directory and the missing ones around it. Every step shortens the path, so `fuel` steps
are enough for a path that is not longer. -/
def ensureDirsWithin : Nat → FileTree → String → FileTree × Option PathError
  | 0, t, path => t.ensureDir path
  | fuel + 1, t, path =>
      let (parent, name) := splitParent path
      if parent.isEmpty || name.isEmpty || t.isTherePath parent then t.ensureDir path
      else ensureLast path name (ensureDirsWithin fuel t parent)

/-- Makes a directory and the missing ones around it. Those made before an error stay. -/
def ensureDirs (t : FileTree) (path : String) : FileTree × Option PathError :=
  ensureDirsWithin path.length t path

/-- The path of a file in a directory. -/
def joinPath (dir name : String) : String :=
  if dir.isEmpty || dir.endsWith "/" then dir ++ name else dir ++ "/" ++ name

/-- Makes a directory of every place along a path. -/
def withDirs (t : FileTree) (here : Location) : List String → FileTree × Location
  | [] => (t.addDir here, here)
  | name :: rest => withDirs (t.addDir here) (step here name) rest

def withDir (t : FileTree) (path : String) : FileTree :=
  (t.withDirs (t.origin path) (Text.segments path)).1

/-- Puts a file into the tree, with the directories along its path. -/
def withFile (t : FileTree) (path : String) (content : List UInt8) : FileTree :=
  let names := Text.segments path
  let (around, here) := t.withDirs (t.origin path) names.dropLast
  around.putFile (step here (names.getLastD "")) content

/-- The files that are new or other than they were before. -/
def changedFiles (before after : FileTree) : List (Location × List UInt8) :=
  after.files.filter fun (p, content) => before.file? p != some content

/-- The changed files of the working directory, by their paths from there. -/
def changes (before after : FileTree) : List (String × List UInt8) :=
  (changedFiles before after).filterMap fun (p, content) =>
    if after.home.isPrefixOf p then some ("/".intercalate (p.drop after.home.length), content)
    else none

end FileTree

end MiniCheck.CommandLine
