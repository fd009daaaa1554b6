import MiniCheck.Proofs.Expressions
import MiniCheck.Proofs.Scopes

/-!
# Calls

A call of a name that no function has is answered at the name. Of any other call the number of
arguments is compared with that of the parameters, and if it is right, every argument with its
parameter. The type of a call is the declared one, also inside of the function that is called.
-/

namespace MiniCheck

open Pass Node

/-- What is said about an argument of the type at a position, if it does not fit the parameter. -/
def argumentDiagnostic? (line : Int) (name : String) (got : Ty) (p : Variable) (position : Nat) :
    Option Diagnostic :=
  if p.type.accepts got then none
  else some ⟨some line, s!"Argument {position} for '{name}' is incompatible. " ++
    s!"Expected {p.type.name}, got {got.name}."⟩

/-- What is said about arguments of the types in a call of a function with the parameters. Positions
are counted from one. -/
def applicationDiagnostics (line : Int) (name : String) (params : List Variable)
    (types : List Ty) : List Diagnostic :=
  if types.length = params.length then
    ((types.zip params).zipIdx 1).filterMap fun ((got, p), i) =>
      argumentDiagnostic? line name got p i
  else
    [⟨some line,
     s!"Incorrect number of arguments for '{name}'. Expected {params.length}, got {types.length}."⟩]

namespace Check

private theorem map_diagnostic_mismatch (line : Int) (name : String) (got : Ty) (p : Variable)
    (i : Nat) :
    (mismatch line p.type got (.argumentMismatch i name p.type got)).map Finding.diagnostic =
      (argumentDiagnostic? line name got p i).toList := by
  rw [mismatch, argumentDiagnostic?]
  split <;> rfl

private theorem map_diagnostic_mismatches (line : Int) (name : String) (first : Nat)
    (pairs : List (Ty × Variable)) :
    (mismatches line name first pairs).map Finding.diagnostic =
      (pairs.zipIdx first).filterMap fun ((got, p), i) =>
        argumentDiagnostic? line name got p i := by
  induction pairs generalizing first with
  | nil => rfl
  | cons pair pairs ih =>
    obtain ⟨got, p⟩ := pair
    rw [mismatches, List.map_append, ih, map_diagnostic_mismatch, List.zipIdx_cons,
      List.filterMap_cons]
    dsimp only
    cases argumentDiagnostic? line name got p first <;> rfl

private theorem map_diagnostic_misapplied (line : Int) (name : String) (callee : Function)
    (types : List Ty) :
    (misapplied line name callee types).map Finding.diagnostic =
      applicationDiagnostics line name callee.parameters types := by
  rw [misapplied, applicationDiagnostics]
  split
  · exact map_diagnostic_mismatches line name 1 _
  · rfl

private theorem map_diagnostic_mainCalls (line : Int) (name : String) (around : Option Function) :
    (mainCalls line name around).map Finding.diagnostic =
      if name == "main" && !(around.any (·.name == "main")) then
        [⟨some line, "Function 'main' cannot be called explicitly."⟩] else [] := by
  have hmain : mainCalls line name around =
      if name == "main" && !(around.any (·.name == "main")) then [⟨some line, .mainCalled⟩]
      else [] := rfl
  rw [hmain]
  split <;> rfl

end Check

namespace Table

private theorem SameFunctions.registered? {t u : Table} (h : t.SameFunctions u) {name : String}
    {id : FunctionId} {f : Function} (hf : t.registered? name = some (id, f)) :
    ∃ g, u.registered? name = some (id, g) ∧ g.head = f.head := by
  obtain ⟨hid, hrec⟩ := registered?_eq_some_iff.mp hf
  have hheads : (u.record? id).map Function.head = (t.record? id).map Function.head :=
    h.around_head (some id)
  rw [hrec] at hheads
  obtain ⟨g, hg, hhead⟩ := Option.map_eq_some_iff.mp hheads
  exact ⟨g, registered?_eq_some_iff.mpr ⟨h.registry ▸ hid, hg⟩, hhead⟩

private theorem registered?_openFunction (t : Table) (line : Int) (name : String)
    (returnText : Option String) (params : List Variable) :
    (t.openFunction (Check.head line name returnText) params).registered? name =
      some (t.nextId, .declared name (Ty.ofReturnText returnText) line params) := by
  rw [openFunction_eq_enter]
  exact t.registered?_declare (.declared name (Ty.ofReturnText returnText) line params)

end Table

section

variable {fn : Option FunctionId} {t : Table} {line : Int} {name : String}
  {returnText : Option String} {params : List Param} {body : Node} {a : Arrival}

/-- All along its body a function is registered with the head that is declared. -/
theorem registered?_inside (hs : body.IsStmt)
    (ha : a ∈ Visit.trail ⟨fn, .funcDecl line name returnText params body, t⟩)
    (hnode : a.visit.node.head? = none) :
    a.visit.fn = some t.nextId ∧ a.visit.node.IsStmt ∧
      ∃ f, a.visit.table.registered? name = some (t.nextId, f) ∧
        f.head = .declared name (Ty.ofReturnText returnText) line (params.map Param.variable) := by
  rcases trail_funcDecl hs ha with rfl | ⟨hfn, hstmt, hinside⟩
  · cases hnode
  have hopen := t.registered?_openFunction line name returnText (params.map Param.variable)
  exact ⟨hfn, hstmt, hinside.registered? hopen⟩

end

/-- Calls are answered exactly. A call returns from every table. If no function has the name, this
is said at the name and the type is unknown; the arguments are visited all the same. Otherwise the
type is the declared one. Nothing but the main function may call the main function; then come the
findings of the arguments in their order, each as it is found by itself, and then what is to be said
about them as arguments. While the body of a function is visited, a call of the function itself
finds its declared parameters and has the declared type. -/
theorem calls_answered_exactly :
    (∀ (fn : Option FunctionId) (t : Table) (line : Int) (name : String) (args : List Node),
      (∀ a ∈ args, a.IsExpr) →
      let result (a : Node) := ((visit fn a).run t).result
      let own := (args.flatMap fun a => ((visit fn a).run t).findings).map Finding.diagnostic
      ∃ u fs type types, (visit fn (.call line name args)).Returns t u fs type ∧
        args.map result = types.map .ok ∧
        (t.registered? name = none → type = .unknown ∧
          fs.map Finding.diagnostic = ⟨some line, s!"Function '{name}' is not defined."⟩ :: own) ∧
        ∀ id callee, t.registered? name = some (id, callee) → type = callee.type ∧
          fs.map Finding.diagnostic =
            (if name == "main" && !((t.around fn).any (·.name == "main")) then
              [⟨some line, "Function 'main' cannot be called explicitly."⟩] else []) ++
            (own ++ applicationDiagnostics line name callee.parameters types)) ∧
    ∀ (fn : Option FunctionId) (t : Table) (line : Int) (name : String)
      (returnText : Option String) (params : List Param) (body : Node), body.IsStmt →
      ∀ a ∈ Visit.trail ⟨fn, .funcDecl line name returnText params body, t⟩,
      ∀ line' args, a.visit.node = .call line' name args →
        a.visit.fn = some t.nextId ∧
        a.visit.outcome.result = .ok (Ty.ofReturnText returnText) ∧
        ∃ callee, a.visit.table.registered? name = some (t.nextId, callee) ∧
          callee.parameters = params.map Param.variable := by
  refine ⟨?_, ?_⟩
  · intro fn t line name args hargs result own
    have hr := visit_reads (.call hargs : (Node.call line name args).IsExpr) fn t
    have hown : own = (findingsInAll fn t args).map Finding.diagnostic := by
      rw [findingsInAll_eq, ← findings_eq hargs]
    refine ⟨_, _, _, _, hr, results_eq hargs fn t, ?_, ?_⟩
    · intro hnone
      rw [findingsIn, Check.callFindings, hnone, hown, typeIn, Table.resultOf, hnone]
      exact ⟨rfl, rfl⟩
    · intro id callee hsome
      rw [findingsIn, Check.callFindings, hsome, hown, typeIn, Table.resultOf, hsome,
        ← Check.map_diagnostic_mainCalls, ← Check.map_diagnostic_misapplied, ← List.map_append,
        ← List.map_append]
      exact ⟨rfl, rfl⟩
  · intro fn t line name returnText params body hs a ha line' args hcall
    obtain ⟨hfn, hstmt, f, hf, hhead⟩ := registered?_inside hs ha (by rw [hcall]; rfl)
    have htype : f.type = Ty.ofReturnText returnText := congrArg Function.type hhead
    refine ⟨hfn, ?_, f, hf, congrArg Function.parameters hhead⟩
    rw [hcall] at hstmt
    cases hstmt with
    | expr he =>
      have hr := visit_reads he a.visit.fn a.visit.table
      rw [typeIn, Table.resultOf, hf] at hr
      rw [Visit.outcome, hcall, hr]
      exact congrArg Except.ok htype

/-- The function `f` is called in its own body. The first and the last argument do not fit, and the
one between them is a call of a function that does not exist. -/
theorem calls_answered_exactly_self_call :
    let args : List Node := [.literal 2 "string" "one", .call 3 "g" [], .literal 4 "string" "two"]
    let body : Node := .block 1 [.exprStmt 2 (.call 2 "f" args)]
    let params : List Param := [⟨1, "a", some "int"⟩, ⟨1, "b", some "int"⟩, ⟨1, "c", some "bool"⟩]
    (∀ a ∈ args, a.IsExpr) ∧ body.IsStmt ∧
      ∃ a ∈ Visit.trail ⟨none, .funcDecl 1 "f" (some "double") params body, .empty⟩,
        a.visit.node = .call 2 "f" args ∧ a.visit.outcome.result = .ok .double ∧
        a.visit.outcome.findings.map Finding.diagnostic =
          [⟨some 3, "Function 'g' is not defined."⟩,
            ⟨some 2, "Argument 1 for 'f' is incompatible. Expected Int, got String."⟩,
            ⟨some 2, "Argument 3 for 'f' is incompatible. Expected Bool, got String."⟩] := by
  intro args body params
  have hargs : ∀ a ∈ args, a.IsExpr := fun a ha => (isExpr_iff a).mp (by revert a; decide)
  have hs : body.IsStmt := .block (by simpa using .exprStmt (.call hargs))
  obtain ⟨hanswered, hself⟩ := calls_answered_exactly
  let trail := Visit.trail ⟨none, .funcDecl 1 "f" (some "double") params body, .empty⟩
  have ha : trail[2] ∈ trail := List.getElem_mem _
  obtain ⟨-, hresult, callee, hcallee, hparams⟩ := hself _ _ _ _ _ _ _ hs _ ha 2 args rfl
  obtain ⟨u, fs, type, types, hr, htypes, -, hsaid⟩ :=
    hanswered trail[2].visit.fn trail[2].visit.table 2 "f" args hargs
  have htypes' : types = [.string, .unknown, .string] :=
    List.map_injective_iff.mpr (fun _ _ => Except.ok.inj) htypes.symm
  have hfindings := (hsaid _ callee hcallee).2
  rw [hparams, htypes'] at hfindings
  refine ⟨hargs, hs, _, ha, rfl, hresult, ?_⟩
  have hrun : trail[2].visit.outcome.findings = fs := congrArg Outcome.findings hr
  rw [hrun, hfindings]
  rfl

end MiniCheck
