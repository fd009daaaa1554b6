import MiniCheck.Proofs.Exchange
import MiniCheck.Proofs.Trail

/-!
# What is recorded about functions

The record of a function is read off its first declaration alone: the variables, the control
statements and the return statements that stand anywhere in its body. So is the finding that a
return statement is missing, which is made once, or never.
-/

namespace MiniCheck

open Pass Node

namespace Node

/-- The marker that a control statement leaves. -/
def control? : Node → Option Control
  | ifElse line .. => some ⟨.ifElse, line⟩
  | forLoop line .. => some ⟨.forLoop, line⟩
  | whileLoop line .. => some ⟨.whileLoop, line⟩
  | _ => none

def isReturn : Node → Bool
  | ret .. => true
  | _ => false

mutual

/-- All nodes inside of a node, each before those inside of it. -/
def inside : Node → List Node
  | program _ decls => insideAll decls
  | block _ statements => insideAll statements
  | varDecl _ _ _ _ init _ => init :: init.inside
  | funcDecl _ _ _ _ body => body :: body.inside
  | assign _ _ _ value => value :: value.inside
  | ifElse _ cond a b => cond :: cond.inside ++ (a :: a.inside ++ b :: b.inside)
  | forLoop _ init cond update body =>
      init :: init.inside ++
        (cond :: cond.inside ++ (update :: update.inside ++ body :: body.inside))
  | whileLoop _ cond body => cond :: cond.inside ++ body :: body.inside
  | ret _ value => value :: value.inside
  | exprStmt _ e | callStmt _ e | paren _ e | negation _ e => e :: e.inside
  | call _ _ args => insideAll args
  | binary _ _ left right => left :: left.inside ++ right :: right.inside
  | missing | param _ | literal .. | identifier .. | unclassified _ => []

/-- The nodes and all nodes inside of them. -/
def insideAll : List Node → List Node
  | [] => []
  | n :: ns => n :: n.inside ++ insideAll ns

end

end Node

/-- What the nodes leave in the record of the function around them. -/
def Notes.ofNodes (ns : List Node) : Notes :=
  ⟨ns.filterMap Node.declared?, ns.filterMap Node.control?, ns.any Node.isReturn⟩

private theorem Notes.ofNodes_append (ms ns : List Node) :
    Notes.ofNodes (ms ++ ns) = Notes.ofNodes ms ++ Notes.ofNodes ns := by
  simp [ofNodes, append_def]

private theorem Notes.ofNodes_cons (n : Node) (ns : List Node) :
    Notes.ofNodes (n :: ns) = Notes.ofNodes [n] ++ Notes.ofNodes ns :=
  ofNodes_append [n] ns

private theorem notesAll_eq_ofNodes {ns : List Node}
    (h : ∀ n ∈ ns, n.notes = Notes.ofNodes (n :: n.inside)) :
    notesAll ns = Notes.ofNodes (insideAll ns) := by
  induction ns with
  | nil => rfl
  | cons n ns ih =>
    rw [notesAll, h n (by simp), ih fun m hm => h m (by simp [hm]), insideAll,
      Notes.ofNodes_append]

private theorem Node.IsExpr.ofNodes {e : Node} (h : e.IsExpr) :
    Notes.ofNodes (e :: e.inside) = .none := by
  induction h with
  | missing => rfl
  | literal => rfl
  | identifier => rfl
  | paren _ ih => exact ih
  | negation _ ih => exact ih
  | @binary line op left right _ _ ihl ihr =>
    rw [Notes.ofNodes_cons, inside, Notes.ofNodes_append, ihl, ihr]
    rfl
  | @call line name args ha ih =>
    have hn : ∀ a ∈ args, a.notes = Notes.ofNodes (a :: a.inside) := fun a hm => by
      rw [(ha a hm).notes, ih a hm]
    rw [Notes.ofNodes_cons, inside, ← notesAll_eq_ofNodes hn, notesAll_args ha]
    rfl

/-- The notes of a statement are those of its nodes in their order. -/
theorem Node.IsStmt.notes_eq {s : Node} (h : s.IsStmt) :
    s.notes = Notes.ofNodes (s :: s.inside) := by
  induction h with
  | expr he => rw [he.notes, he.ofNodes]
  | varDecl hi =>
    rw [Notes.ofNodes_cons, inside, hi.ofNodes, Notes.append_none]
    rfl
  | assign hv =>
    rw [Notes.ofNodes_cons, inside, hv.ofNodes, Notes.append_none]
    rfl
  | ifElse hc _ _ _ _ iha ihb =>
    rw [Notes.ofNodes_cons, inside, Notes.ofNodes_append, Notes.ofNodes_append, hc.ofNodes,
      Notes.none_append, ← iha, ← ihb]
    rfl
  | forLoop _ _ hc _ _ _ _ ihi ihu ihb =>
    rw [Notes.ofNodes_cons, inside, Notes.ofNodes_append, Notes.ofNodes_append,
      Notes.ofNodes_append, hc.ofNodes, Notes.none_append, ← ihi, ← ihu, ← ihb]
    rfl
  | whileLoop hc _ _ ihb =>
    rw [Notes.ofNodes_cons, inside, Notes.ofNodes_append, hc.ofNodes, Notes.none_append, ← ihb]
    rfl
  | ret hv =>
    rw [Notes.ofNodes_cons, inside, hv.ofNodes, Notes.append_none]
    rfl
  | exprStmt he =>
    rw [Notes.ofNodes_cons, inside, he.ofNodes, Notes.append_none]
    rfl
  | callStmt he =>
    rw [Notes.ofNodes_cons, inside, he.ofNodes, Notes.append_none]
    rfl
  | block _ ih =>
    rw [Notes.ofNodes_cons, inside, ← notesAll_eq_ofNodes ih]
    rfl

private theorem notes_body {body : Node} (hs : body.IsStmt) (hb : body.isBody) :
    body.notes = Notes.ofNodes body.inside := by
  cases body with
  | missing => rfl
  | block line statements =>
    rw [hs.notes_eq]
    rfl
  | _ => simp [isBody] at hb

/-- Whether the finding says that the function of the name has no return statement. -/
def Finding.lacksReturn (name : String) (x : Finding) : Bool :=
  match x.violation with
  | .returnMissing function _ => function == name
  | _ => false

/-- The finding about a function without a return statement. -/
def Node.unreturned : Node → List Finding
  | .funcDecl line name returnText _ body =>
      if Ty.ofReturnText returnText ≠ .void ∧ ∀ n ∈ body.inside, n.isReturn = false then
        [⟨some line, .returnMissing name (Ty.ofReturnText returnText)⟩]
      else []
  | _ => []

private theorem lacksReturn_eq_nil {fs : List Finding} (h : ∀ x ∈ fs, x.violation.stage ≠ .closing)
    (name : String) : fs.filter (·.lacksReturn name) = [] := by
  rw [List.filter_eq_nil_iff]
  rintro ⟨line, v⟩ hx hl
  cases v with
  | returnMissing function type => exact h _ hx rfl
  | _ => cases hl

section

variable {t u : Table} {fs : List Finding}

private theorem lacksReturn_unfinished {line : Int} {name : String} {returnText : Option String}
    {params : List Param} {body : Node} {b : Bool} (hs : body.IsStmt) (hb : body.isBody)
    (other : String) :
    (Check.unfinished (some (functionRecord line name returnText params body b)) line name
      (Ty.ofReturnText returnText)).filter (·.lacksReturn other) =
      if name = other then (Node.funcDecl line name returnText params body).unreturned else [] := by
  have hret : (functionRecord line name returnText params body b).hasReturn =
      body.inside.any isReturn := by
    rw [functionRecord, notes_body hs hb]
    rfl
  have hmain : (if name == mainName &&
      (some (functionRecord line name returnText params body b)).any (·.isRecursive) then
        [(⟨some line, .mainRecursive⟩ : Finding)] else []).filter (·.lacksReturn other) = [] := by
    split <;> rfl
  rw [Check.unfinished, List.filter_append, hmain, List.append_nil, Option.any_some, hret,
    Node.unreturned]
  have hc : (Ty.ofReturnText returnText != .void && !body.inside.any isReturn) = true ↔
      Ty.ofReturnText returnText ≠ .void ∧ ∀ n ∈ body.inside, n.isReturn = false := by
    simp
  simp only [hc]
  split
  · by_cases hn : name = other <;> simp [Finding.lacksReturn, hn]
  · simp

/-- A declaration asks for a return statement only as the first function of its name. -/
theorem lacksReturn_decl {d : Node} {type : Ty} (hd : d.IsDecl)
    (hr : (visit none d).Returns t u fs type) (name : String) :
    fs.filter (·.lacksReturn name) =
      if name ∈ functionNames [d] ∧ t.registry.contains name = false then d.unreturned else [] := by
  cases hd with
  | varDecl hi =>
    have hwithin := (stmt_reports_within (.varDecl hi)).of_returns hr
    rw [lacksReturn_eq_nil fun x hx => (hwithin x hx).2.1]
    exact (ite_self []).symm
  | @funcDecl line function returnText params body hs hb =>
    simp only [mem_functionNames_funcDecl]
    cases hc : t.registry.contains function with
    | true =>
      obtain ⟨-, rfl, -⟩ := hr.of_funcDecl_taken hc
      rw [if_neg]
      · rfl
      · rintro ⟨rfl, hf⟩
        rw [hc] at hf
        cases hf
    | false =>
      obtain ⟨gs, b, hbody, -, rfl, -⟩ := hr.of_funcDecl hs hb hc
      obtain ⟨types, hall⟩ := hbody.of_visitBody hb
      have hgs : ∀ x ∈ gs, x.Within :=
        (visitAll_reports fun s hm => stmt_reports_within (hs.statements s hm)).of_returns hall
      have hearly :=
        Visit.early_ne_closing ⟨none, .funcDecl line function returnText params body, t⟩
      rw [Visit.early_funcDecl hc] at hearly
      rw [← List.append_assoc, List.filter_append, lacksReturn_eq_nil hearly, List.filter_append,
        lacksReturn_eq_nil fun x hx => (hgs x hx).2.1, lacksReturn_unfinished hs hb]
      by_cases hn : function = name
      · subst hn
        simp [hc]
      · simp [hn]

/-- Nothing asks for a return statement of a function that is known already or that is not among
the declarations. -/
theorem lacksReturn_decls {ds : List Node} {types : List Ty} (hd : ∀ d ∈ ds, d.IsDecl)
    (hr : (visitAll none ds).Returns t u fs types) {name : String}
    (hn : name ∈ functionNames ds → t.registry.contains name = true) :
    fs.filter (·.lacksReturn name) = [] := by
  induction ds generalizing t fs types with
  | nil =>
    obtain ⟨-, rfl, -⟩ := hr.of_visitAll_nil
    rfl
  | cons d ds ih =>
    obtain ⟨v, f₁, got, f₂, rest, h₁, h₂, rfl, -⟩ := hr.of_visitAll_cons
    rw [functionNames_cons, List.mem_append] at hn
    have hlater : name ∈ functionNames ds → v.registry.contains name = true := fun hm =>
      (contains_registry_decl (hd d (by simp)) h₁ name).mpr (.inl (hn (.inr hm)))
    rw [List.filter_append, lacksReturn_decl (hd d (by simp)) h₁,
      ih (fun e he => hd e (by simp [he])) h₂ hlater, if_neg, List.append_nil]
    rintro ⟨hm, hf⟩
    rw [hn (.inl hm)] at hf
    cases hf

private theorem registered?_decl {d : Node} {type : Ty} {name : String} {id : FunctionId}
    {f : Function} (hd : d.IsDecl) (hr : (visit none d).Returns t u fs type)
    (h : t.registered? name = some (id, f)) : u.registered? name = some (id, f) := by
  cases hd with
  | varDecl hi =>
    obtain ⟨b, rfl⟩ := hr.of_stmt (.varDecl hi)
    simp only [Table.declaring, Node.declared?, Table.defineVariable_eq]
    exact h
  | @funcDecl line function returnText params body hs hb =>
    cases hc : t.registry.contains function with
    | true =>
      obtain ⟨rfl, -⟩ := hr.of_funcDecl_taken hc
      exact h
    | false =>
      obtain ⟨gs, b, -, rfl, -⟩ := hr.of_funcDecl hs hb hc
      exact Table.registered?_declare_of_registered hc h

theorem registered?_decls {ds : List Node} {types : List Ty} {name : String} {id : FunctionId}
    {f : Function} (hd : ∀ d ∈ ds, d.IsDecl) (hr : (visitAll none ds).Returns t u fs types)
    (h : t.registered? name = some (id, f)) : u.registered? name = some (id, f) := by
  induction ds generalizing t fs types with
  | nil =>
    obtain ⟨rfl, -⟩ := hr.of_visitAll_nil
    exact h
  | cons d ds ih =>
    obtain ⟨v, f₁, got, f₂, rest, h₁, h₂, -⟩ := hr.of_visitAll_cons
    exact ih (fun e he => hd e (by simp [he])) h₂ (registered?_decl (hd d (by simp)) h₁ h)

end

/-- After the first declaration of a function, and after all that may follow it, the same record
stands in the registry. -/
theorem registered?_first {before : List Node} {name : String} {body : Node} (line : Int)
    (returnText : Option String) (params : List Param) (hd : ∀ d ∈ before, d.IsDecl)
    (hs : body.IsStmt) (hb : body.isBody) (hn : name ∉ functionNames before) :
    ∃ id recursive, ∀ rest : List Node, (∀ d ∈ rest, d.IsDecl) → ∃ u fs types,
      (visitAll none (before ++ .funcDecl line name returnText params body :: rest)).Returns
        .empty u fs types ∧
      u.registered? name = some (id, functionRecord line name returnText params body recursive) ∧
      fs.filter (·.lacksReturn name) =
        (Node.funcDecl line name returnText params body).unreturned := by
  obtain ⟨t, fs₁, types₁, h₁⟩ := visitAll_decls hd .empty
  have hc : t.registry.contains name = false := by
    rw [← Bool.not_eq_true, contains_registry_decls hd h₁]
    rintro (h | h)
    · cases h
    · exact hn h
  obtain ⟨fs₂, b, h₂⟩ := visit_funcDecl hs hb none line returnText params hc
  have hreg : (t.declare (functionRecord line name returnText params body b)).registered? name =
      some (t.nextId, functionRecord line name returnText params body b) :=
    t.registered?_declare _
  refine ⟨t.nextId, b, fun rest hrest => ?_⟩
  obtain ⟨u, fs₃, types₃, h₃⟩ := visitAll_decls hrest
    (t.declare (functionRecord line name returnText params body b))
  refine ⟨u, _, _, h₁.visitAll_append (h₂.visitAll_cons h₃), registered?_decls hrest h₃ hreg, ?_⟩
  have hknown := (contains_registry_decl (.funcDecl hs hb) h₂ name).mpr
    (.inr (mem_functionNames_funcDecl.mpr rfl))
  rw [List.filter_append, List.filter_append, lacksReturn_decls hd h₁ fun h => absurd h hn,
    lacksReturn_decls hrest h₃ fun _ => hknown, lacksReturn_decl (.funcDecl hs hb) h₂,
    if_pos ⟨mem_functionNames_funcDecl.mpr rfl, hc⟩, List.nil_append, List.append_nil]

/-- The registered functions are the functions of the program. The record of each is read off its
first declaration: it lists the variables that are declared anywhere in the body, also those whose
names are taken, and the control statements, all in the order of the text, and it tells whether
there is a return statement. That one is missing is found once where a value is to be returned and
there is none, and not otherwise. Whatever follows the declaration, the record is the same. -/
theorem function_records_exact {line : Int} {decls : List Node}
    (hP : (Node.program line decls).IsProgram) :
    ∃ u fs, (analyze (.program line decls)).Returns .empty u fs () ∧
      (∀ name, name ∈ u.registry.keys ↔ name ∈ functionNames decls) ∧
      (∀ name, name ∉ functionNames decls → fs.filter (·.lacksReturn name) = []) ∧
      ∀ before l name returnText params body after,
        decls = before ++ .funcDecl l name returnText params body :: after →
        name ∉ functionNames before →
        ∃ id f, u.registered? name = some (id, f) ∧
          f.locals = body.inside.filterMap Node.declared? ∧
          f.controls = body.inside.filterMap Node.control? ∧
          (f.hasReturn = true ↔ ∃ n ∈ body.inside, n.isReturn = true) ∧
          fs.filter (·.lacksReturn name) =
            (if Ty.ofReturnText returnText ≠ .void ∧ ∀ n ∈ body.inside, n.isReturn = false then
              [⟨some l, .returnMissing name (Ty.ofReturnText returnText)⟩]
            else []) ∧
          ∀ rest, (∀ d ∈ rest, d.IsDecl) → ∃ u' fs',
            (analyze (.program line
              (before ++ .funcDecl l name returnText params body :: rest))).Returns
                .empty u' fs' () ∧
            u'.registered? name = some (id, f) := by
  cases hP with
  | program hd =>
    obtain ⟨u, fs, types, hr⟩ := visitAll_decls hd .empty
    refine ⟨u, fs, analyze_returns hr, ?_, ?_, ?_⟩
    · intro name
      rw [← NameMap.contains_eq_true_iff, contains_registry_decls hd hr]
      exact or_iff_right Bool.false_ne_true
    · exact fun name hn => lacksReturn_decls hd hr fun h => absurd h hn
    · rintro before l name returnText params body after rfl hn
      obtain ⟨hs, hb⟩ : body.IsStmt ∧ body.isBody := by
        cases hd (.funcDecl l name returnText params body) (by simp) with
        | funcDecl hs hb => exact ⟨hs, hb⟩
      obtain ⟨id, b, hfirst⟩ := registered?_first l returnText params
        (fun d hm => hd d (by simp [hm])) hs hb hn
      obtain ⟨v, gs, types', hr', hreg, hlacks⟩ := hfirst after fun d hm => hd d (by simp [hm])
      obtain ⟨rfl, rfl, -⟩ := hr.unique hr'
      have hnotes := notes_body hs hb
      refine ⟨id, _, hreg, ?_, ?_, ?_, hlacks, ?_⟩
      · rw [functionRecord, hnotes]
        rfl
      · rw [functionRecord, hnotes]
        rfl
      · rw [functionRecord, hnotes, ← List.any_eq_true]
        rfl
      · intro rest hrest
        obtain ⟨w, gs, types', hr', hreg', -⟩ := hfirst rest hrest
        exact ⟨w, gs, analyze_returns hr', hreg'⟩

/-- The second variable `x` is rejected, and so is the second function `f`, which returns. -/
theorem function_records_exact_nested :
    let body : Node := .block 1
      [.varDecl 2 "x" (some "int") true (.literal 2 "int" "1") none,
        .ifElse 3 (.identifier 3 "p")
          (.block 3
            [.varDecl 4 "y" (some "bool") false .missing none,
              .whileLoop 5 (.identifier 5 "y") (.block 5 [])])
          .missing,
        .varDecl 6 "x" (some "float") false (.identifier 6 "p") (some "p")]
    let decls : List Node :=
      [.funcDecl 1 "f" (some "int") [⟨1, "p", some "bool"⟩] body,
        .funcDecl 8 "f" (some "int") [] (.block 8 [.ret 8 (.literal 8 "int" "0")]),
        .funcDecl 9 "main" none [] (.block 9 [.callStmt 9 (.call 9 "f" [])])]
    (Node.program 1 decls).IsProgram ∧ ∃ u fs, (analyze (.program 1 decls)).Returns .empty u fs () ∧
      ∃ id f, u.registered? "f" = some (id, f) ∧
        f.locals = [⟨"x", .int, 2, true, some "1"⟩, ⟨"y", .bool, 4, false, none⟩,
          ⟨"x", .float, 6, false, some "p"⟩] ∧
        f.controls = [⟨.ifElse, 3⟩, ⟨.whileLoop, 5⟩] ∧ ¬ f.hasReturn = true ∧
        fs.filter (·.lacksReturn "f") = [⟨some 1, .returnMissing "f" .int⟩] := by
  intro body decls
  have hP : (Node.program 1 decls).IsProgram := by decide
  obtain ⟨u, fs, hr, -, -, hfirst⟩ := function_records_exact hP
  obtain ⟨id, f, hreg, hl, hc, hret, hlacks, -⟩ :=
    hfirst [] 1 "f" (some "int") [⟨1, "p", some "bool"⟩] body decls.tail rfl nofun
  have hnone : ∀ n ∈ body.inside, n.isReturn = false := by
    simp [body, inside, insideAll, isReturn]
  have hno : ¬ f.hasReturn = true := by
    rw [hret]
    rintro ⟨n, hn, hr⟩
    rw [hnone n hn] at hr
    cases hr
  have hint : Ty.ofReturnText (some "int") = .int := rfl
  rw [hint, if_pos ⟨nofun, hnone⟩] at hlacks
  exact ⟨hP, u, fs, hr, id, f, hreg, hl.trans rfl, hc.trans rfl, hno, hlacks⟩

end MiniCheck
