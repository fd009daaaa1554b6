import MiniCheck.Proofs.Files
import MiniCheck.Proofs.Marks
import MiniCheck.Proofs.Runs
import MiniCheck.Service

/-!
# One compilation, three surfaces

The service, the editor and the command each make up their own answer from a compilation. They agree
with one another: as many errors, the same messages in the same order, and the same verdict.
-/

namespace MiniCheck

namespace Compilation

variable {out : ParserOutput} {c : Compilation}

private theorem of_finished (hc : ofParser (.finished out) = .ok c) :
    ∃ root u fs, Node.ofTree out.tree = .ok root ∧
      (analyze (programOf root)).Returns .empty u fs () ∧
      c.findings = fs ++ (missingMain u).toList ∧ c.syntaxErrors = out.syntaxErrors := by
  unfold ofParser run runOutput at hc
  cases hroot : Node.ofTree out.tree with
  | error e => simp [hroot] at hc
  | ok root =>
    rcases hrun : (analyze (programOf root)).run .empty with ⟨u, fs, _ | _⟩
    · simp [hroot, hrun] at hc
    · simp only [hroot, hrun, Except.ok.injEq] at hc
      subst hc
      exact ⟨root, u, fs, rfl, hrun, rfl, rfl⟩

/-- The messages of all errors, those of the parser first. -/
def messages (c : Compilation) : List String :=
  c.syntaxErrors.map SyntaxError.message ++ c.diagnostics.map Diagnostic.message

private theorem totalErrors_eq (c : Compilation) :
    c.totalErrors = c.syntaxErrors.length + c.diagnostics.length := by
  simp [totalErrors, diagnostics, Nat.add_comm]

private theorem length_messages (c : Compilation) : c.messages.length = c.totalErrors := by
  simp [messages, totalErrors_eq]

private theorem ok_iff : c.ok = true ↔ c.totalErrors = 0 := by
  simp [ok]

private theorem length_of_messages {α : Type} {message : α → String} {l : List α}
    (h : l.map message = c.messages) : l.length = c.totalErrors := by
  rw [← length_messages, ← h, List.length_map]

private theorem ok_iff_eq_nil {α : Type} {message : α → String} {l : List α}
    (h : l.map message = c.messages) : c.ok = true ↔ l = [] := by
  rw [ok_iff, ← length_of_messages h, List.length_eq_zero_iff]

end Compilation

namespace Service

private theorem find_diagnostics : Page.find (Target.path "/diagnostics") = some .diagnostics := by
  decide +kernel

private theorem respond_diagnostics {parse : String → ParserRun} {source : String} {c : Compilation}
    (hc : Compilation.ofParser (parse source) = .ok c) :
    respond parse ⟨"POST", "/diagnostics", .object (.text source)⟩ =
      ⟨200, .diagnostics (entries c)⟩ := by
  have hpost : Text.upper "POST" = "POST" := by decide +kernel
  unfold respond
  rw [find_diagnostics]
  simp only [hpost, Page.methods]
  simp [checked, Content.source, compiled, hc]

private theorem messages_entries (c : Compilation) :
    (entries c).map Entry.message = c.messages := by
  simp [entries, Compilation.messages, Function.comp_def]

end Service

namespace Documents

def marks (document : String) (c : Compilation) : List Mark :=
  c.syntaxErrors.map SyntaxError.mark ++ c.diagnostics.map (Diagnostic.mark document)

private theorem publish_marks {p : ParserRun} {c : Compilation}
    (hc : Compilation.ofParser p = .ok c) (docs : Documents) (event : DocumentEvent) (uri : String)
    (hes : ∀ e ∈ c.syntaxErrors, e.range.InRange)
    (hds : ∀ d ∈ c.diagnostics, (d.range (docs.textOf uri)).InRange) :
    docs.publish event uri p = .ok ⟨uri, marks (docs.textOf uri) c⟩ := by
  have herrors : errorsOf p = .ok ⟨c.diagnostics, c.syntaxErrors⟩ :=
    bind_eq_ok_iff.mpr ⟨c, hc, rfl⟩
  have hmarks : marksOf (docs.textOf uri) (errorsOf p) = .ok (marks (docs.textOf uri) c) :=
    bind_eq_ok_iff.mpr ⟨_, herrors, Mark.ofErrors_eq_ok_iff.mpr ⟨hes, hds, rfl⟩⟩
  have hor : marksOrFault (docs.textOf uri) (errorsOf p) = .ok (marks (docs.textOf uri) c) := by
    simp only [marksOrFault, hmarks]
  exact bind_eq_ok_iff.mpr ⟨_, hor, rfl⟩

private theorem messages_marks (document : String) (c : Compilation) :
    (marks document c).map Mark.message = c.messages := by
  simp [marks, Compilation.messages, Function.comp_def, SyntaxError.mark, Diagnostic.mark]

end Documents

private theorem Listing.ofLines_cons (line : String) (lines : List String) :
    ofLines (line :: lines) = line ++ ofLines ("" :: lines) := by
  rw [ofLines, ofLines, ← String.intercalate_cons_append, String.append_empty]

namespace CommandLine

variable {c : Compilation}

private theorem report_of_ok (h : c.ok = true) : report c = Listing.success := by
  have htotal : ((c.diagnostics.length : Int) + c.syntaxErrors.length == 0) = true := by
    have := Compilation.ok_iff.mp h
    rw [Compilation.totalErrors_eq] at this
    rw [beq_iff_eq]
    omega
  simp only [report, Listing.summary, Listing.summaryLines, htotal, if_true]
  simp [Listing.ofLines]

private theorem report_of_not_ok (h : c.ok = false) :
    ∃ rest, report c = s!"Found errors ({c.totalErrors}):" ++ rest := by
  have htotal : (c.diagnostics.length : Int) + c.syntaxErrors.length = c.totalErrors := by
    rw [Compilation.totalErrors_eq]
    omega
  have hne : ((c.totalErrors : Int) == 0) = false := by
    have : ¬ c.totalErrors = 0 := by rw [← Compilation.ok_iff, h]; simp
    simpa using this
  simp only [report, Listing.summary, Listing.summaryLines, htotal, hne]
  exact ⟨_, Listing.ofLines_cons _ _⟩

private theorem report_eq_success_iff : report c = Listing.success ↔ c.ok = true := by
  constructor
  · intro h
    cases hok : c.ok with
    | true => rfl
    | false =>
      obtain ⟨rest, hr⟩ := report_of_not_ok hok
      have hheads := congrArg (fun s => s.toList.head?) (hr.symm.trans h)
      simp [Listing.success, toString] at hheads
  · exact report_of_ok

private theorem exitCode_eq_zero_iff : exitCode c = 0 ↔ c.ok = true := by
  unfold exitCode
  split <;> simp_all

end CommandLine

open CommandLine

/-- The surfaces agree on every compilation. Its errors are those that the parser and the lexer
reported, and then the findings of the analysis, the missing main function last. The service lists
them, one entry for each. So does the editor, for every document in which it takes their ranges. The
command, with its input there, ends with an exit code if all else it needs is there too, and with a
failure otherwise; the code and the summary in the listing of errors tell the same as the lists. -/
theorem surfaces_agree {out : ParserOutput} {c : Compilation}
    (hc : Compilation.ofParser (.finished out) = .ok c) :
    (∃ root u fs, Node.ofTree out.tree = .ok root ∧
      (analyze (Compilation.programOf root)).Returns .empty u fs () ∧
      c.syntaxErrors.map SyntaxError.message =
        (out.complaints ++ out.fetched.flatMap Lexed.complaints).map Complaint.message ∧
      c.diagnostics.map Diagnostic.message =
        (fs ++ (missingMain u).toList).map (·.violation.message)) ∧
    c.totalErrors = c.syntaxErrors.length + c.diagnostics.length ∧
    (∀ parse source, parse source = .finished out →
      ∃ entries,
        Service.respond parse ⟨"POST", "/diagnostics", .object (.text source)⟩ =
          ⟨200, .diagnostics entries⟩ ∧
        entries.length = c.totalErrors ∧ entries.map Service.Entry.message = c.messages ∧
        (c.ok = true ↔ entries = [])) ∧
    (∀ (docs : Documents) event uri, (∀ e ∈ c.syntaxErrors, e.range.InRange) →
      (∀ d ∈ c.diagnostics, (d.range (docs.textOf uri)).InRange) →
      ∃ marks, docs.publish event uri (.finished out) = .ok ⟨uri, marks⟩ ∧
        marks.length = c.totalErrors ∧ marks.map Mark.message = c.messages ∧
        (c.ok = true ↔ marks = [])) ∧
    ∀ files args o, Options.parse args = .ok o → files.isTherePath o.input = true →
      (¬ Ready files o → ∃ f, (run files (.finished out) args).ending = .failed f) ∧
      (Ready files o → ∃ code dir content, o.outDir = some dir ∧
        (run files (.finished out) args).ending = .exit code ∧
        (run files (.finished out) args).files.read (listingPath dir "errors") = .ok content ∧
        (c.ok = true ↔ code = 0) ∧ (c.ok = true ↔ content = contentOf Listing.success) ∧
        (c.ok = false → code = 2 ∧
          ∃ rest, content = contentOf (s!"Found errors ({c.totalErrors}):" ++ rest))) := by
  refine ⟨?_, c.totalErrors_eq, ?_, ?_, ?_⟩
  · obtain ⟨root, u, fs, hroot, hrun, hfs, hes⟩ := Compilation.of_finished hc
    refine ⟨root, u, fs, hroot, hrun, ?_, ?_⟩
    · simp [hes, ParserOutput.syntaxErrors, SyntaxError.ofComplaint, Function.comp_def]
    · simp [Compilation.diagnostics, hfs, Finding.diagnostic, Function.comp_def]
  · intro parse source hparse
    have hmessages := Service.messages_entries c
    refine ⟨Service.entries c, Service.respond_diagnostics (hparse ▸ hc), ?_, hmessages, ?_⟩
    · exact Compilation.length_of_messages hmessages
    · exact Compilation.ok_iff_eq_nil hmessages
  · intro docs event uri hes hds
    have hmessages := Documents.messages_marks (docs.textOf uri) c
    refine ⟨_, Documents.publish_marks hc docs event uri hes hds, ?_, hmessages, ?_⟩
    · exact Compilation.length_of_messages hmessages
    · exact Compilation.ok_iff_eq_nil hmessages
  · intro files args o hargs hin
    obtain ⟨hready, hfail⟩ := run_concludesWhen hargs hin hc
    refine ⟨hfail, ?_⟩
    intro h
    obtain ⟨dir, hdir, hr⟩ := hready h
    refine ⟨_, dir, _, hdir, hr.ending, hr.errors, exitCode_eq_zero_iff.symm, ?_, ?_⟩
    · rw [contentOf_injective.eq_iff]
      exact report_eq_success_iff.symm
    · intro hok
      obtain ⟨rest, hrest⟩ := report_of_not_ok hok
      exact ⟨by simp [exitCode, hok], rest, congrArg contentOf hrest⟩

/-- One error each of the parser and of the lexer, and two of the analysis. -/
theorem surfaces_agree_four_errors :
    let x (line : Int) : ParseTree := .globalVar ⟨some line, "intx;"⟩
      (.varDecl ⟨some line, "intx;"⟩ .missing (.plain ⟨some line, "int"⟩ .type [.token "int"])
        (.token "x") .missing)
    let out : ParserOutput := {
      tree := .program ⟨some 1, "intx;intx;"⟩ [x 1, x 2]
      lexed := [⟨⟨-1, none, 2⟩, [⟨2, 7, "token recognition error", some "#"⟩]⟩]
      kindNames := []
      complaints := [⟨2, 5, "missing semicolon", none⟩] }
    let files : FileTree := ⟨["home"], [["home"]], [(["home", "input.txt"], [])]⟩
    let transcript := run files (.finished out) ["--out-dir", "out"]
    ∃ c, Compilation.ofParser (.finished out) = .ok c ∧
      c.messages = ["missing semicolon", "token recognition error",
        "Global variable 'x' is already defined.", "Function 'main' is missing."] ∧
      (∃ entries, Service.respond (fun _ => .finished out)
          ⟨"POST", "/diagnostics", .object (.text "int x;\nint x #")⟩ =
            ⟨200, .diagnostics entries⟩ ∧
        entries.map Service.Entry.message = c.messages) ∧
      (∃ marks, Documents.publish ⟨[("a", some "int x;\nint x #")]⟩ .saved "a" (.finished out) =
          .ok ⟨"a", marks⟩ ∧
        marks.length = 4) ∧
      transcript.ending = .exit 2 ∧
      ∃ rest, transcript.files.read (listingPath "out" "errors") =
        .ok (contentOf ("Found errors (4):" ++ rest)) := by
  intro x out files transcript
  have hdiagnostics : (Compilation.ofParser (.finished out)).toOption.map
      Compilation.diagnostics = some [⟨some 2, "Global variable 'x' is already defined."⟩,
        ⟨none, "Function 'main' is missing."⟩] := by decide +kernel
  obtain ⟨c, hsome, hds⟩ := Option.map_eq_some_iff.mp hdiagnostics
  have hc : Compilation.ofParser (.finished out) = .ok c := eq_ok_of_toOption hsome
  have hes : c.syntaxErrors = out.syntaxErrors := by
    obtain ⟨-, -, -, -, -, -, hes⟩ := Compilation.of_finished hc
    exact hes
  have htotal : c.totalErrors = 4 := by
    rw [c.totalErrors_eq, hes, hds]
    rfl
  have hok : c.ok = false := by simp [Compilation.ok, htotal]
  obtain ⟨-, -, hservice, heditor, hcommand⟩ := surfaces_agree hc
  obtain ⟨entries, hrespond, -, hmessages, -⟩ := hservice (fun _ => .finished out) _ rfl
  obtain ⟨marks, hpublish, hlength, -, -⟩ := heditor ⟨[("a", some "int x;\nint x #")]⟩ .saved "a"
    (by rw [hes]; decide +kernel) (by rw [hds]; decide +kernel)
  have hready : Ready files { Options.default with outDir := some "out" } := by decide +kernel
  have hargs : Options.parse ["--out-dir", "out"] =
      .ok { Options.default with outDir := some "out" } := eq_ok_of_toOption (by decide +kernel)
  obtain ⟨-, hexit⟩ := hcommand files _ _ hargs (by decide +kernel)
  obtain ⟨code, dir, content, hdir, hending, hread, -, -, hfail⟩ := hexit hready
  obtain ⟨rfl, rest, rfl⟩ := hfail hok
  cases hdir
  refine ⟨c, hc, ?_, ⟨entries, hrespond, hmessages⟩, ⟨marks, hpublish, hlength.trans htotal⟩,
    hending, rest, ?_⟩
  · rw [Compilation.messages, hes, hds]
    rfl
  · rw [htotal] at hread
    exact hread

end MiniCheck
