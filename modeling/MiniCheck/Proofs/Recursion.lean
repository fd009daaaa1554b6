import MiniCheck.Proofs.Calls
import MiniCheck.Proofs.Lexical
import MiniCheck.Proofs.MainProtocol

/-!
# Recursive functions

A function is marked as recursive if it calls itself by its name. The calls that count are those in
the body of its first declaration, except where the pass leaves the text out. Other functions and
the values of global variables leave no mark.
-/

namespace MiniCheck

open Pass Node

private theorem marks_iff {fn : Option FunctionId} {t : Table} {line : Int} {name : String}
    {returnText : Option String} {params : List Param} {body : Node} {a : Arrival}
    (hs : body.IsStmt)
    (ha : a ∈ Visit.trail ⟨fn, .funcDecl line name returnText params body, t⟩) :
    a.visit.marks = true ↔ ∃ l args, a.visit.node = .call l name args := by
  cases hnode : a.visit.node with
  | call l callee args =>
    obtain ⟨hfn, -, f, hf, hhead⟩ := registered?_inside hs ha (by rw [hnode]; rfl)
    have haround : a.visit.table.around a.visit.fn = some f := by
      rw [hfn]
      exact (Table.registered?_eq_some_iff.mp hf).2
    have hname : f.name = name := congrArg Function.name hhead
    simp only [Visit.marks, hnode, haround, Option.any_some, hname]
    constructor
    · intro hmarks
      obtain rfl : name = callee := eq_of_beq (Bool.and_eq_true_iff.mp hmarks).2
      exact ⟨l, args, rfl⟩
    · rintro ⟨l', args', hcall⟩
      cases hcall
      rw [hf, beq_self_eq_true]
      rfl
  | _ => simp [Visit.marks, hnode]

section

variable {line : Int} {decls : List Node} {l : Int} {name : String} {returnText : Option String}
  {params : List Param} {body : Node}

/-- The marks along the body of a function are left by its calls at positions that are visited. -/
theorem any_marks_iff (hd : ∀ d ∈ decls, d.IsDecl) {i : Nat}
    (hi : decls[i]? = some (.funcDecl l name returnText params body)) (hs : body.IsStmt) :
    (Visit.visits ⟨none, .funcDecl l name returnText params body,
      tableAfter none (decls.take i) .empty⟩).any Visit.marks = true ↔
    ∃ path l' args, (Node.program line decls).node? (i :: path) = some (.call l' name args) ∧
      ¬ (Node.program line decls).Unvisited (i :: path) := by
  have hstmt : ∀ {path l' args},
      (Node.program line decls).node? path = some (.call l' name args) →
        (Node.call l' name args).IsStmt :=
    fun h => isStmt_of_not_isDecl hd h (by rintro ⟨⟩) (by rintro ⟨⟩)
  rw [Visit.visits, List.any_map, List.any_eq_true]
  constructor
  · rintro ⟨b, hb, hmarks⟩
    obtain ⟨l', args, hcall⟩ := (marks_iff hs hb).mp hmarks
    have ha : b.under i ∈ Visit.trail ⟨none, .program line decls, .empty⟩ :=
      mem_trail_program.mpr (.inr ⟨i, _, b, hi, hb, rfl⟩)
    have hnode := (Visit.node?_of_mem_trail ha).trans (congrArg some hcall)
    exact ⟨b.path, l', args, hnode, (visited_iff hd hnode (hstmt hnode)).mp ⟨_, ha, rfl⟩⟩
  · rintro ⟨path, l', args, hnode, hvisited⟩
    obtain ⟨a, ha, hpath⟩ := (visited_iff hd hnode (hstmt hnode)).mpr hvisited
    rcases mem_trail_program.mp ha with rfl | ⟨k, d, b, hk, hb, rfl⟩
    · cases hpath
    obtain ⟨rfl, rfl⟩ := List.cons.inj hpath
    obtain rfl := Option.some.inj (hk.symm.trans hi)
    have hcall := Option.some.inj ((Visit.node?_of_mem_trail ha).symm.trans hnode)
    exact ⟨b, hb, (marks_iff hs hb).mpr ⟨l', args, hcall⟩⟩

/-- The record of a function has the mark that is left along the first declaration. -/
theorem isRecursive_first {before after : List Node}
    (hd : ∀ d ∈ before ++ .funcDecl l name returnText params body :: after, d.IsDecl)
    (hn : name ∉ functionNames before) {u : Table} {fs : List Finding} {types : List Ty}
    (hr : (visitAll none (before ++ .funcDecl l name returnText params body :: after)).Returns
      .empty u fs types) :
    ∃ id f, u.registered? name = some (id, f) ∧
      f.isRecursive = (Visit.visits ⟨none, .funcDecl l name returnText params body,
        tableAfter none before .empty⟩).any Visit.marks := by
  obtain ⟨hbefore, hrest⟩ := List.forall_mem_append.mp hd
  obtain ⟨hfirst, hafter⟩ := List.forall_mem_cons.mp hrest
  obtain ⟨t, fs₁, types₁, h₁⟩ := visitAll_decls hbefore .empty
  obtain ⟨w, fs₂, type, h₂⟩ := visit_decl hfirst t
  obtain ⟨v, fs₃, types₃, h₃⟩ := visitAll_decls hafter w
  obtain ⟨rfl, -⟩ := hr.unique (h₁.visitAll_append (h₂.visitAll_cons h₃))
  have hc : t.registry.contains name = false := by
    rw [← h₁.tableAfter_eq, ← Bool.not_eq_true, contains_registry_tableAfter hbefore]
    exact hn
  cases hfirst with
  | funcDecl hs hb =>
    obtain ⟨f, rfl, hname, hrec, -⟩ := funcDecl_closes hs hb hc h₂
    have hreg := t.registered?_declare f
    rw [hname] at hreg
    rw [h₁.tableAfter_eq]
    exact ⟨t.nextId, f, registered?_decls hafter h₃ hreg, hrec⟩

end

/-- The functions of a program are registered, and each is marked as recursive if it is called by
its name in its first declaration: in any statement and at any depth, also in an argument of a call
that is not right, but not in the value of an assignment to what is no variable at that position.
Calls that stand elsewhere in the program are of no account. -/
theorem recursive_iff_calls_itself {line : Int} {decls : List Node}
    (hP : (Node.program line decls).IsProgram) :
    ∃ u fs, (analyze (.program line decls)).Returns .empty u fs () ∧
      (∀ name, name ∈ u.registry.keys ↔ name ∈ functionNames decls) ∧
      ∀ before l name returnText params body after,
        decls = before ++ .funcDecl l name returnText params body :: after →
        name ∉ functionNames before →
        ∃ id f, u.registered? name = some (id, f) ∧
          (f.isRecursive = true ↔ ∃ path l' args,
            (Node.program line decls).node? (before.length :: path) = some (.call l' name args) ∧
            ¬ (Node.program line decls).Unvisited (before.length :: path)) := by
  cases hP with
  | program hd =>
    obtain ⟨u, fs, types, hr⟩ := visitAll_decls hd .empty
    refine ⟨u, fs, analyze_returns hr, ?_, ?_⟩
    · intro name
      rw [← NameMap.contains_eq_true_iff, contains_registry_decls hd hr]
      exact or_iff_right Bool.false_ne_true
    · rintro before l name returnText params body after rfl hn
      obtain ⟨id, f, hreg, hrec⟩ := isRecursive_first hd hn hr
      have hs : body.IsStmt := by
        cases hd (.funcDecl l name returnText params body) (by simp) with
        | funcDecl hs => exact hs
      have hi : (before ++ .funcDecl l name returnText params body :: after)[before.length]? =
          some (.funcDecl l name returnText params body) := by simp
      refine ⟨id, f, hreg, ?_⟩
      rw [hrec, ← any_marks_iff hd hi hs, List.take_left]

/-- The function `f` calls itself in an argument of a call of no function. The function `g` is
called by `h` and by a global variable, but by itself only in a value that is not visited. -/
theorem recursive_iff_calls_itself_two_calls :
    let f : Node := .funcDecl 1 "f" none []
      (.block 1 [.whileLoop 2 (.call 2 "k" [.call 2 "f" []]) (.block 2 [])])
    let g : Node := .funcDecl 3 "g" none [] (.block 3 [.assign 4 "y" "=" (.call 4 "g" [])])
    let x : Node := .varDecl 5 "x" (some "int") false (.call 5 "g" []) none
    let h : Node := .funcDecl 6 "h" none [] (.block 6 [.callStmt 7 (.call 7 "g" [])])
    let P : Node := .program 1 [f, g, x, h]
    P.IsProgram ∧ ∃ u fs, (analyze P).Returns .empty u fs () ∧
      (∃ id f', u.registered? "f" = some (id, f') ∧ f'.isRecursive = true) ∧
      ∃ id g', u.registered? "g" = some (id, g') ∧ ¬ g'.isRecursive = true := by
  intro f g x h P
  have hP : (Node.program 1 [f, g, x, h]).IsProgram := by decide
  have hd : ∀ d ∈ [f, g, x, h], d.IsDecl := by
    cases hP with
    | program hd => exact hd
  obtain ⟨u, fs, hr, -, hfirst⟩ := recursive_iff_calls_itself hP
  obtain ⟨i, f', hf, hrecf⟩ := hfirst [] 1 "f" none [] _ [g, x, h] rfl (by decide)
  obtain ⟨j, g', hg, hrecg⟩ := hfirst [f] 3 "g" none [] _ [x, h] rfl (by decide)
  refine ⟨hP, u, fs, hr, ⟨i, f', hf, ?_⟩, j, g', hg, ?_⟩
  · let trail := Visit.trail ⟨none, P, .empty⟩
    have hcall : P.node? [0, 0, 0, 0] = some (.call 2 "f" []) := rfl
    have hs : (Node.call 2 "f" []).IsStmt := .expr ((isExpr_iff _).mp rfl)
    have hvisited := (visited_iff hd hcall hs).mp ⟨trail[4], List.getElem_mem _, rfl⟩
    exact hrecf.mpr ⟨[0, 0, 0], 2, [], hcall, hvisited⟩
  · rw [hrecg]
    rintro ⟨path, l, args, hnode, hvisited⟩
    have hmeaning : Env.meaning? [] P [1, 0] "y" = none := rfl
    have hvalue : ∀ k rest, P.Unvisited ([1, 0] ++ k :: rest) :=
      fun k rest => .value rfl fun v => by simp [hmeaning]
    match path with
    | [] | [0] =>
      injection hnode with hnode
      injection hnode
    | 0 :: k :: rest => exact hvisited (hvalue k rest)
    | (k + 1) :: rest => injection hnode

end MiniCheck
