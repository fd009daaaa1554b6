import MiniCheck.Proofs.FirstDeclarations
import MiniCheck.Proofs.Scopes

/-!
# Names that are declared again

A declaration is reported for its name exactly if an earlier declaration of the same scope has the
name. What stands in other scopes does not matter, except that a variable may not have the name of a
parameter of its function. A function whose name an earlier function has is reported and not looked
into, so nothing inside of it is reported.
-/

namespace MiniCheck

open Pass Node

namespace Finding

/-- A variable has the name of an earlier declaration of its scope. -/
def isRedefinition (f : Finding) : Bool :=
  match f.violation with
  | .globalRedefined _ | .localRedefined .. => true
  | _ => false

/-- A parameter has the name of an earlier one. -/
def isDuplication (f : Finding) : Bool :=
  match f.violation with
  | .parameterRepeated .. => true
  | _ => false

/-- A name is declared again, or a variable has the name of a parameter of its function. -/
def isRepetition (f : Finding) : Bool :=
  match f.violation with
  | .globalRedefined _ | .localRedefined .. | .parameterConflict _ | .parameterRepeated .. => true
  | _ => false

end Finding

/-- The finding about a variable that is declared again. -/
def redefinition (around : Option Function) (line : Int) (name : String) : Finding :=
  match around with
  | none => ⟨some line, .globalRedefined name⟩
  | some f => ⟨some line, .localRedefined name f.name⟩

/-- One finding for each parameter of the function that has the name. -/
def conflictsWith (around : Option Function) (line : Int) (name : String) : List Finding :=
  ((around.toList.flatMap Function.parameters).filter (·.name == name)).map fun _ =>
    ⟨some line, .parameterConflict name⟩

/-- One finding for each parameter whose name an earlier one has. -/
def duplications (function : String) (earlier : List String) : List Param → List Finding
  | [] => []
  | p :: ps =>
      (if p.name ∈ earlier then [⟨some p.line, .parameterRepeated p.name function⟩] else []) ++
        duplications function (earlier ++ [p.name]) ps

/-- The declarations of the scope around a position that stand before it. -/
def Node.scopeAt (P : Node) (path : List Nat) : Frame :=
  ((Env.at? [] P path).bind List.head?).getD []

/-- The findings that the text of a program asks for at a position. -/
def Node.repetitions (P : Node) (path : List Nat) : List Finding :=
  if P.inRejected path then []
  else
    match P.node? path with
    | some (.varDecl line name ..) =>
        (if name ∈ (P.scopeAt path).names then [redefinition (P.functionAround? path) line name]
          else []) ++ conflictsWith (P.functionAround? path) line name
    | some (.funcDecl _ name _ params _) => duplications name [] params
    | _ => []

private theorem repetitions_varDecl {P : Node} {path : List Nat} {line : Int} {name : String}
    {typeText : Option String} {isConst : Bool} {init : Node} {initText : Option String}
    {frame : Frame} {E : Env}
    (hnode : P.node? path = some (.varDecl line name typeText isConst init initText))
    (hr : P.inRejected path = false) (hat : Env.at? [] P path = some (frame :: E)) :
    P.repetitions path =
      (if name ∈ frame.names then [redefinition (P.functionAround? path) line name] else []) ++
        conflictsWith (P.functionAround? path) line name := by
  simp [repetitions, hr, hnode, scopeAt, hat]

private theorem filter_redefinition (around : Option Function) (line : Int) (name : String)
    (c : Prop) [Decidable c] :
    ((if c then [redefinition around line name] else []) ++ conflictsWith around line name).filter
        Finding.isRedefinition =
      if c then [redefinition around line name] else [] := by
  have hconflicts : (conflictsWith around line name).filter Finding.isRedefinition = [] := by
    rw [List.filter_eq_nil_iff]
    intro f hf
    obtain ⟨-, -, rfl⟩ := List.mem_map.mp hf
    exact Bool.false_ne_true
  rw [List.filter_append, hconflicts, List.append_nil]
  split
  · cases around <;> rfl
  · rfl

private theorem conflictsWith_eq_nil {around : Option Function} {name : String} (line : Int)
    (h : ∀ f, around = some f → ∀ p ∈ f.parameters, p.name ≠ name) :
    conflictsWith around line name = [] := by
  rw [conflictsWith, List.map_eq_nil_iff, List.filter_eq_nil_iff]
  intro p hp
  obtain ⟨f, hf, hp⟩ := List.mem_flatMap.mp hp
  simpa using h f (Option.mem_toList.mp hf) p hp

private theorem Finding.stage_of_isRepetition {f : Finding} (h : f.isRepetition = true) :
    f.violation.stage = .opening .variable ∨ f.violation.stage = .opening .function := by
  obtain ⟨line, violation⟩ := f
  cases violation <;> first | exact .inl rfl | exact .inr rfl | cases h

private theorem Finding.stage_of_isDuplication {f : Finding} (h : f.isDuplication = true) :
    f.violation.stage = .opening .function := by
  obtain ⟨line, violation⟩ := f
  cases violation <;> first | rfl | cases h

private theorem Finding.isOpening_of_isRepetition {f : Finding} (h : f.isRepetition = true) :
    f.violation.stage.isOpening = true := by
  rcases stage_of_isRepetition h with hv | hv
  · rw [hv]
    rfl
  · rw [hv]
    rfl

private theorem Finding.isRepetition_of_isRedefinition {f : Finding} (h : f.isRedefinition = true) :
    f.isRepetition = true := by
  obtain ⟨line, violation⟩ := f
  cases violation <;> first | rfl | cases h

private theorem Finding.isRepetition_of_isDuplication {f : Finding} (h : f.isDuplication = true) :
    f.isRepetition = true := by
  obtain ⟨line, violation⟩ := f
  cases violation <;> first | rfl | cases h

private theorem repetitions_early_other {v : Visit} (hv : v.node.site? ≠ some .variable)
    (hf : v.node.site? ≠ some .function) : v.early.filter Finding.isRepetition = [] := by
  apply filter_early_eq_nil
  intro f hp site hstage
  rcases Finding.stage_of_isRepetition hp with hr | hr
  · rw [← Stage.opening.inj (hr.symm.trans hstage)]
    exact hv
  · rw [← Stage.opening.inj (hr.symm.trans hstage)]
    exact hf

theorem repetitions_early_expr {v : Visit} (he : v.node.IsExpr) :
    v.early.filter Finding.isRepetition = [] := by
  have hsite : v.node.site? ≠ some .variable ∧ v.node.site? ≠ some .function := by
    generalize v.node = e at he
    cases he <;> simp [site?]
  exact repetitions_early_other hsite.1 hsite.2

private theorem Env.Reflected.resolveHere_isSome {t : Table} {E : Env} (h : E.Reflected t) :
    ∃ frame rest, E = frame :: rest ∧
      ∀ name, (t.resolveHere name).isSome = true ↔ name ∈ frame.names := by
  cases h with
  | @cons _ frame _ rest hframe _ =>
    refine ⟨frame, rest, rfl, fun name => ?_⟩
    have hfound : (t.resolveHere name).isSome = (frame.find? (·.name == name)).isSome := by
      have hrel := hframe name
      rw [Table.resolveHere]
      revert hrel
      generalize t.current.find? name = found
      generalize frame.find? (·.name == name) = written
      rintro (_ | _) <;> rfl
    rw [hfound, List.find?_isSome, Frame.names, List.mem_map]
    simp only [beq_iff_eq]

private theorem repetitions_early_varDecl {fn : Option FunctionId} {line : Int} {name : String}
    {typeText : Option String} {isConst : Bool} {init : Node} {initText : Option String}
    {t : Table} :
    (Visit.early ⟨fn, .varDecl line name typeText isConst init initText, t⟩).filter
        Finding.isRepetition =
      (if (t.resolveHere name).isSome then
        [redefinition ((t.around fn).map Function.head) line name] else []) ++
        conflictsWith ((t.around fn).map Function.head) line name := by
  have huninitialized :
      (Check.uninitialized line name isConst init).filter Finding.isRepetition = [] := by
    rw [Check.uninitialized]
    split <;> rfl
  have hredeclared : (Check.redeclared t (t.around fn) line name).filter Finding.isRepetition =
      if (t.resolveHere name).isSome then
        [redefinition ((t.around fn).map Function.head) line name] else [] := by
    unfold Check.redeclared
    cases (t.resolveHere name).isSome <;> cases t.around fn <;> rfl
  have hconflicts : (Check.conflicts (t.around fn) line name).filter Finding.isRepetition =
      conflictsWith ((t.around fn).map Function.head) line name := by
    cases t.around fn with
    | none => rfl
    | some f =>
      have hsame : conflictsWith (some f.head) line name = Check.conflicts (some f) line name := by
        simp [conflictsWith, Check.conflicts, Function.head, Function.declared]
      rw [Option.map_some, hsame, List.filter_eq_self]
      intro g hg
      obtain ⟨-, -, rfl⟩ := List.mem_map.mp hg
      rfl
  simp only [Visit.early, List.filter_append, hredeclared, hconflicts, huninitialized,
    List.append_nil]

private theorem repeated_eq (id : FunctionId) (function : String) (params : List Param) {t : Table}
    {earlier : List String} (h : ∀ name, t.current.contains name = true ↔ name ∈ earlier) :
    Check.repeated id function t params = duplications function earlier params := by
  induction params generalizing t earlier with
  | nil => rfl
  | cons p ps ih =>
    have hnext : ∀ name, (t.addParameter id p.variable).current.contains name = true ↔
        name ∈ earlier ++ [p.name] := by
      intro name
      rw [Table.current_addParameter, Scope.contains_bind, h, List.mem_append, List.mem_singleton]
      exact or_comm
    rw [Check.repeated, duplications, ih hnext]
    simp only [h]

private theorem filter_duplications {p : Finding → Bool} {function : String}
    (hp : ∀ q : Param, p ⟨some q.line, .parameterRepeated q.name function⟩ = true)
    (earlier : List String) (params : List Param) :
    (duplications function earlier params).filter p = duplications function earlier params := by
  induction params generalizing earlier with
  | nil => rfl
  | cons q qs ih =>
    rw [duplications, List.filter_append, ih]
    split
    · rw [List.filter_cons_of_pos (hp q)]
      rfl
    · rfl

private theorem repetitions_early_funcDecl {fn : Option FunctionId} {line : Int} {name : String}
    {returnText : Option String} {params : List Param} {body : Node} {t : Table}
    (hc : t.registry.contains name = false) :
    (Visit.early ⟨fn, .funcDecl line name returnText params body, t⟩).filter
      Finding.isRepetition = duplications name [] params := by
  have hhidden : (Check.hidden t (Check.head line name returnText)).filter
      Finding.isRepetition = [] := by
    rw [Check.hidden]
    split <;> rfl
  have hempty : ∀ x, (t.declare (Check.head line name returnText)).enter.current.contains x = true ↔
      x ∈ ([] : List String) := fun _ => iff_of_false Bool.false_ne_true List.not_mem_nil
  rw [Visit.early_funcDecl hc, List.filter_append, hhidden, repeated_eq t.nextId name params hempty]
  exact filter_duplications (fun _ => rfl) [] params

/-- What the visit of a node finds of a kind that is found before parts only, if the visits below it
find nothing of the kind. -/
theorem filter_outcome {v : Visit} (hv : v.node.Opens v.fn) {u : Table} {fs : List Finding}
    {type : Ty} (hr : (visit v.fn v.node).Returns v.table u fs type) {p : Finding → Bool}
    (hp : ∀ f, p f = true → f.isRepetition = true)
    (hbelow : ∀ a ∈ v.trail, a.path ≠ [] → a.visit.early.filter p = []) :
    v.outcome.findings.filter p = v.early.filter p := by
  have hopen : (openings fs).filter p = fs.filter p :=
    filter_filter_of_imp (fun f hf => Finding.isOpening_of_isRepetition (hp f hf)) fs
  have hfindings : v.outcome.findings = fs := by
    rw [Visit.outcome, hr]
  have hnone : ∀ a ∈ Arrival.join (trailEach v.inner v.parts v.opened),
      a.visit.early.filter p = [] := by
    intro a ha
    have hmem : a ∈ v.trail := by
      rw [Visit.trail_eq]
      exact List.mem_cons_of_mem _ ha
    obtain ⟨i, part, b, -, -, rfl⟩ := Arrival.mem_join_iff.mp ha
    exact hbelow _ hmem (List.cons_ne_nil i b.path)
  rw [hfindings, ← hopen, hv hr, Visit.visits, List.flatMap_map, List.filter_flatMap,
    Visit.trail_eq, List.flatMap_cons, List.flatMap_eq_nil_iff.mpr hnone, List.append_nil]

section

variable {line : Int} {decls : List Node} {a : Arrival}

/-- What the text asks for at a position is found when the position is visited. -/
theorem repetitions_early (hd : ∀ d ∈ decls, d.IsDecl)
    (ha : a ∈ Visit.trail ⟨none, .program line decls, .empty⟩) :
    a.visit.early.filter Finding.isRepetition = (Node.program line decls).repetitions a.path := by
  have hnode := Visit.node?_of_mem_trail ha
  have haround := around_program hd ha
  cases hn : a.visit.node with
  | varDecl l name typeText isConst init initText =>
    have hr := inRejected_program hd ha (by rw [hn]; rfl)
    have hs := isStmt_of_declared hd hnode (by rw [hn]; rfl)
    obtain ⟨F, hat, hF⟩ := trail_reflected_program hd ha hs
    obtain ⟨frame, rest, rfl, hnames⟩ := hF.resolveHere_isSome
    obtain ⟨path, fn, node, t⟩ := a
    cases hn
    rw [repetitions_early_varDecl, haround]
    simp only [repetitions_varDecl hnode hr hat, hnames]
  | funcDecl l name returnText params body =>
    obtain ⟨i, hi, ha⟩ := function_at hd ha (by rw [hn]; rfl)
    rw [hn] at hi ha
    have hr : (Node.program line decls).inRejected [i] = _ := inRejected_funcDecl hd hi []
    rw [ha] at hnode ⊢
    rw [repetitions, hr, hnode]
    cases hc : (tableAfter none (decls.take i) .empty).registry.contains name with
    | true => simp [Visit.early, hc, Finding.isRepetition]
    | false => exact repetitions_early_funcDecl hc
  | _ =>
    have hnone := repetitions_early_other (v := a.visit) (by simp [hn, site?]) (by simp [hn, site?])
    rw [hnone, repetitions, hnode, hn]
    exact (ite_self []).symm

theorem Node.IsStmt.isExpr_initializer {s : Node} (hs : s.IsStmt)
    (hm : s.declared?.isSome = true) : ∀ c ∈ s.children, c.IsExpr := by
  cases hs with
  | varDecl hi => simpa [children] using hi
  | expr he => cases he <;> cases hm
  | _ => cases hm

/-- The visit of a variable finds what is asked for at its position, since an initializer declares
nothing. -/
theorem repetitions_variable (hd : ∀ d ∈ decls, d.IsDecl)
    (ha : a ∈ Visit.trail ⟨none, .program line decls, .empty⟩)
    (hm : a.visit.node.declared?.isSome = true) {p : Finding → Bool}
    (hp : ∀ f, p f = true → f.isRepetition = true) :
    a.visit.outcome.findings.filter p =
      ((Node.program line decls).repetitions a.path).filter p := by
  have hs := isStmt_of_declared hd (Visit.node?_of_mem_trail ha) hm
  obtain ⟨fs, type, b, hr⟩ := visit_stmt hs a.visit.fn a.visit.table
  have hbelow : ∀ b ∈ a.visit.trail, b.path ≠ [] → b.visit.early.filter p = [] := by
    intro b hb hpath
    have he : b.visit.node.IsExpr := by
      have hnode := Visit.node?_of_mem_trail hb
      obtain ⟨path, v⟩ := b
      cases path with
      | nil => exact absurd rfl hpath
      | cons i rest =>
        obtain ⟨c, hc, hnode⟩ := Option.bind_eq_some_iff.mp hnode
        exact (hs.isExpr_initializer hm c (List.mem_of_getElem? hc)).isExpr_node? hnode
    rw [← filter_filter_of_imp hp, repetitions_early_expr he]
    rfl
  rw [filter_outcome (opens_stmt hs) hr hp hbelow, ← filter_filter_of_imp hp,
    repetitions_early hd ha]

private theorem duplications_function (hd : ∀ d ∈ decls, d.IsDecl) {i : Nat} {l : Int}
    {name : String} {returnText : Option String} {params : List Param} {body : Node}
    (hi : decls[i]? = some (.funcDecl l name returnText params body))
    (hr : (Node.program line decls).inRejected [i] = false) :
    (Visit.outcome ⟨none, .funcDecl l name returnText params body,
        tableAfter none (decls.take i) .empty⟩).findings.filter Finding.isDuplication =
      duplications name [] params := by
  have hdecl := hd _ (List.mem_of_getElem? hi)
  obtain ⟨u, fs, type, hreturns⟩ := visit_decl hdecl (tableAfter none (decls.take i) .empty)
  rw [inRejected_funcDecl hd hi] at hr
  have hbelow : ∀ b ∈ Visit.trail ⟨none, .funcDecl l name returnText params body,
      tableAfter none (decls.take i) .empty⟩, b.path ≠ [] →
        b.visit.early.filter Finding.isDuplication = [] := by
    intro b hb hpath
    apply filter_early_eq_nil
    intro f hf site hstage hsite
    rw [Finding.stage_of_isDuplication hf] at hstage
    cases hstage
    have hhead : b.visit.node.head?.isSome = true := by
      generalize b.visit.node = m at hsite
      cases m <;> first | rfl | cases hsite
    have hmem : b.under i ∈ Visit.trail ⟨none, .program line decls, .empty⟩ :=
      mem_trail_program.mpr (.inr ⟨i, _, b, hi, hb, rfl⟩)
    obtain ⟨j, -, hb⟩ := function_at hd hmem hhead
    exact hpath (List.cons.inj (congrArg Arrival.path hb)).2
  rw [filter_outcome (opens_decl hdecl) hreturns (fun f => Finding.isRepetition_of_isDuplication)
    hbelow, ← filter_filter_of_imp fun f => Finding.isRepetition_of_isDuplication,
    repetitions_early_funcDecl hr]
  exact filter_duplications (fun _ => rfl) [] params

/-- A rejected function is visited, but not what is inside of it. -/
theorem findings_rejected (hd : ∀ d ∈ decls, d.IsDecl)
    (ha : a ∈ Visit.trail ⟨none, .program line decls, .empty⟩)
    (hr : (Node.program line decls).inRejected a.path = true) :
    ∃ i f, a.path = [i] ∧ a.visit.node.head? = some f ∧
      a.visit.outcome.findings = [⟨some f.line, .functionRedefined f.name⟩] := by
  cases hhead : a.visit.node.head? with
  | none =>
    rw [inRejected_program hd ha hhead] at hr
    cases hr
  | some f =>
    obtain ⟨i, hi, ha⟩ := function_at hd ha (by rw [hhead]; rfl)
    rw [ha] at hr ⊢
    refine ⟨i, f, rfl, rfl, ?_⟩
    generalize a.visit.node = m at *
    cases m with
    | funcDecl l name returnText params body =>
      cases hhead
      rw [inRejected_funcDecl hd hi] at hr
      exact congrArg Outcome.findings (Check.returns_functionDecl_taken hr)
    | _ => cases hhead

end

/-- Names that are declared again. The findings about them are those that the text asks for, in its
order: the trail comes to no position twice, and what is asked for at a position depends on the
declarations that stand before it in the scope around it, and on the parameters of the function
around it. A variable outside of rejected functions is visited, and its visit finds once that it is
already defined if an earlier declaration of the same scope has its name, and never otherwise; if no
parameter of its function has the name either, then its name is in order. The visit of a function
that is not rejected finds once for each parameter with the name of an earlier one that it is
duplicated. Of a rejected function only that is found, and nothing inside of it is visited. -/
theorem redeclarations_reported {line : Int} {decls : List Node}
    (hP : (Node.program line decls).IsProgram) :
    let P := Node.program line decls
    let trail := Visit.trail ⟨none, P, .empty⟩
    ∃ u fs, (analyze P).Returns .empty u fs () ∧ (trail.map Arrival.path).Nodup ∧
      fs.filter Finding.isRepetition = (trail.flatMap fun a => P.repetitions a.path) ∧
      (∀ path l name typeText isConst init initText,
        P.node? path = some (.varDecl l name typeText isConst init initText) →
        P.inRejected path = false →
        ∃ a ∈ trail, a.path = path ∧ ∃ frame E, Env.at? [] P path = some (frame :: E) ∧
          a.visit.outcome.findings.filter Finding.isRedefinition =
            (if name ∈ frame.names then [redefinition (P.functionAround? path) l name] else []) ∧
          (name ∉ frame.names →
            (∀ f, P.functionAround? path = some f → ∀ p ∈ f.parameters, p.name ≠ name) →
            a.visit.outcome.findings.filter Finding.isRepetition = [])) ∧
      (∀ i l name returnText params body,
        decls[i]? = some (.funcDecl l name returnText params body) → P.inRejected [i] = false →
        ∃ a ∈ trail, a.path = [i] ∧
          a.visit.outcome.findings.filter Finding.isDuplication = duplications name [] params) ∧
      ∀ a ∈ trail, P.inRejected a.path = true →
        ∃ i f, a.path = [i] ∧ a.visit.node.head? = some f ∧
          a.visit.outcome.findings = [⟨some f.line, .functionRedefined f.name⟩] := by
  intro P trail
  cases hP with
  | program hd =>
    obtain ⟨u, fs, types, hr⟩ := visitAll_decls hd .empty
    refine ⟨u, fs, analyze_returns hr, nodup_trail_program hd, ?_, ?_, ?_, ?_⟩
    · have hopen : (openings fs).filter Finding.isRepetition = fs.filter Finding.isRepetition :=
        filter_filter_of_imp (fun f => Finding.isOpening_of_isRepetition) fs
      rw [← hopen, openings_program hd hr, Visit.visits, List.flatMap_map, List.filter_flatMap]
      exact List.flatMap_congr fun a ha => repetitions_early hd ha
    · intro path l name typeText isConst init initText hnode hrejected
      obtain ⟨a, ha, rfl⟩ := declaration_visited hd hnode rfl hrejected
      have hsame : a.visit.node = .varDecl l name typeText isConst init initText :=
        Option.some.inj ((Visit.node?_of_mem_trail ha).symm.trans hnode)
      have hm : a.visit.node.declared?.isSome = true := by rw [hsame]; rfl
      have hs := isStmt_of_declared hd (Visit.node?_of_mem_trail ha) hm
      obtain ⟨F, hat, hF⟩ := trail_reflected_program hd ha hs
      obtain ⟨frame, rest, rfl, -⟩ := hF.resolveHere_isSome
      have hall := repetitions_varDecl hnode hrejected hat
      refine ⟨a, ha, rfl, frame, rest, hat, ?_, ?_⟩
      · rw [repetitions_variable hd ha hm fun f => Finding.isRepetition_of_isRedefinition, hall]
        exact filter_redefinition _ _ _ _
      · intro hfresh hparams
        rw [repetitions_variable hd ha hm fun _ => id, hall, if_neg hfresh,
          conflictsWith_eq_nil l hparams]
        rfl
    · intro i l name returnText params body hi hrejected
      exact ⟨_, declaration_at hi, rfl, duplications_function hd hi hrejected⟩
    · exact fun a ha => findings_rejected hd ha

/-- The inner `y` and the local `x` hide others and are in order. What stands in the second `f` is
not reported. -/
theorem redeclarations_reported_nested :
    let var (line : Int) (name type : String) : Node :=
      .varDecl line name (some type) false .missing none
    let f : Node := .funcDecl 3 "f" none [⟨3, "p", some "int"⟩, ⟨3, "p", some "bool"⟩]
      (.block 3 [var 4 "y" "int", .block 5 [var 6 "y" "int", var 7 "x" "int"], var 8 "y" "bool",
        var 9 "p" "int"])
    let f₂ : Node := .funcDecl 10 "f" none [⟨10, "q", some "int"⟩, ⟨10, "q", some "int"⟩]
      (.block 10 [var 11 "z" "int", var 12 "z" "int"])
    let P : Node := .program 1 [var 1 "x" "int", var 2 "x" "bool", f, f₂]
    P.IsProgram ∧ P.node? [2, 1, 0] = some (var 6 "y" "int") ∧
    ∃ u fs, (analyze P).Returns .empty u fs () ∧
      (fs.filter Finding.isRepetition).map Finding.diagnostic =
        [⟨some 2, "Global variable 'x' is already defined."⟩,
          ⟨some 3, "Parameter 'p' is duplicated in the declaration of function 'f'."⟩,
          ⟨some 8, "Local variable 'y' is already defined in function 'f'."⟩,
          ⟨some 9, "Local variable 'p' is already defined in function 'f'."⟩,
          ⟨some 9, "Local variable 'p' conflicts with a parameter name."⟩,
          ⟨some 9, "Local variable 'p' conflicts with a parameter name."⟩] ∧
      ∃ a ∈ Visit.trail ⟨none, P, .empty⟩, a.path = [2, 1, 0] ∧
        a.visit.outcome.findings.filter Finding.isRedefinition = [] := by
  intro var f f₂ P
  have hP : P.IsProgram := by decide
  have hnode : P.node? [2, 1, 0] = some (var 6 "y" "int") := rfl
  obtain ⟨u, fs, hr, -, hfs, hvariables, -⟩ := redeclarations_reported hP
  have hfirst : P.inRejected [2, 1, 0] = false := by decide +kernel
  obtain ⟨a, ha, hpath, frame, E, hat, hfound, -⟩ := hvariables _ _ _ _ _ _ _ hnode hfirst
  refine ⟨hP, hnode, u, fs, hr, ?_, a, ha, hpath, ?_⟩
  · rw [hfs]
    decide +kernel
  · cases hat
    exact hfound

/-- In a rejected function neither a repeated parameter nor a repeated variable is reported. -/
theorem rejected_function_not_reported :
    let x (line : Int) : Node := .varDecl line "x" (some "int") false .missing none
    let f₂ : Node := .funcDecl 2 "f" none [⟨2, "p", some "int"⟩, ⟨2, "p", some "int"⟩]
      (.block 2 [x 3, x 4])
    let P : Node := .program 1 [.funcDecl 1 "f" none [] (.block 1 []), f₂]
    P.IsProgram ∧ P.node? [1, 0] = some (x 3) ∧ P.node? [1, 1] = some (x 4) ∧
      ∃ u, (analyze P).Returns .empty u [⟨some 2, .functionRedefined "f"⟩] () := by
  intro x f₂ P
  exact ⟨by decide, rfl, rfl, _, rfl⟩

end MiniCheck
