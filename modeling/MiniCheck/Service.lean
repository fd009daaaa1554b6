import MiniCheck.Compilation
import MiniCheck.Service.Target
import MiniCheck.Text.Upper

/-!
# The analysis as a web service

Two pages take a source text, one answering with the diagnostics and one with the symbols, and the
front page greets. Further pages hold the manual of the service; what stands in it is no matter of
this library. A request is routed first, then its content is checked, and then the source is
compiled.
-/

namespace MiniCheck.Service

/-- The field of the content that has to hold the source text. -/
inductive SourceField where
  | missing
  | notText
  | text (source : String)
  deriving DecidableEq, Repr

inductive Content where
  | missing
  | notObject
  | object (source : SourceField)
  deriving DecidableEq, Repr

structure Request where
  method : String
  target : String
  content : Content
  deriving DecidableEq, Repr

inductive Page where
  | greeting | diagnostics | symbols | manual
  deriving DecidableEq, Repr

/-- What is wrong with the content of a request. -/
inductive Issue where
  | contentMissing | contentNotObject | sourceMissing | sourceNotText
  deriving DecidableEq, Repr

structure Entry where
  line : Int
  message : String
  deriving DecidableEq, Repr

inductive Body where
  | greeting (message : String)
  | diagnostics (entries : List Entry)
  | symbols (globals : List Variable) (functions : List Function)
  | manual
  | detail (message : String)
  | invalid (issue : Issue)
  deriving DecidableEq, Repr

structure Response where
  status : Nat
  body : Body
  deriving DecidableEq, Repr

namespace Issue

def kind : Issue → String
  | contentMissing | sourceMissing => "missing"
  | contentNotObject => "model_attributes_type"
  | sourceNotText => "string_type"

def location : Issue → List String
  | contentMissing | contentNotObject => ["body"]
  | sourceMissing | sourceNotText => ["body", "source"]

def message : Issue → String
  | contentMissing | sourceMissing => "Field required"
  | contentNotObject => "Input should be a valid dictionary or object to extract fields from"
  | sourceNotText => "Input should be a valid string"

end Issue

namespace Page

def ofPath : String → Option Page
  | "/" => some greeting
  | "/diagnostics" => some diagnostics
  | "/symbols" => some symbols
  | "/docs" | "/docs/oauth2-redirect" | "/redoc" | "/openapi.json" => some manual
  | _ => none

/-- The page of a path as it stands. One line feed at the end does not count. -/
def direct (path : String) : Option Page :=
  match ofPath path with
  | some page => some page
  | none => if path.endsWith "\n" then ofPath (String.ofList path.toList.dropLast) else none

/-- The path without the slashes at its end. -/
def bare (path : String) : String :=
  String.ofList (path.toList.reverse.dropWhile (· == '/')).reverse

/-- The page of a path. Slashes at the end of a path lead to the page without them. -/
def find (path : String) : Option Page :=
  match direct path with
  | some page => some page
  | none => direct (bare path)

def methods : Page → List String
  | greeting => ["GET"]
  | diagnostics | symbols => ["POST"]
  | manual => ["GET", "HEAD"]

end Page

def Content.source : Content → Except Issue String
  | missing => .error .contentMissing
  | notObject => .error .contentNotObject
  | object .missing => .error .sourceMissing
  | object .notText => .error .sourceNotText
  | object (.text s) => .ok s

def severity : String := "error"

/-- One entry for each error: syntax errors first. A diagnostic without a line has line 0. -/
def entries (c : Compilation) : List Entry :=
  c.syntaxErrors.map (fun e => ⟨e.line, e.message⟩) ++
    c.diagnostics.map fun d => ⟨d.line.getD 0, d.message⟩

def symbolsBody (c : Compilation) : Body :=
  .symbols c.table.globalVariables (c.table.functions.map Prod.snd)

/-- The answer to a request for a source that the parser has worked on. -/
def compiled (p : ParserRun) (body : Compilation → Body) : Response :=
  match Compilation.ofParser p with
  | .ok c => ⟨200, body c⟩
  | .error f => ⟨500, .detail f.message⟩

def checked (content : Content) (answer : String → Response) : Response :=
  match content.source with
  | .error issue => ⟨422, .invalid issue⟩
  | .ok source => answer source

/-- Answers a request. `parse` is the parser. -/
def respond (parse : String → ParserRun) (r : Request) : Response :=
  match Page.find (Target.path r.target) with
  | none => ⟨404, .detail "Not Found"⟩
  | some page =>
      if !page.methods.contains (Text.upper r.method) then ⟨405, .detail "Method Not Allowed"⟩
      else
        match page with
        | .greeting => ⟨200, .greeting "Hello from the MiniLang semantic analyzer service!"⟩
        | .diagnostics =>
            checked r.content fun source => compiled (parse source) fun c => .diagnostics (entries c)
        | .symbols => checked r.content fun source => compiled (parse source) symbolsBody
        | .manual => ⟨200, .manual⟩

end MiniCheck.Service
