import MiniCheck.Proofs.Lookups
import MiniCheck.Proofs.Scopes

/-!
# Lexical scoping

Every name that the pass looks up means what it means in the text: the first declaration of the
innermost scope that has one before it. This holds in programs with errors too, and it decides what
the visit of the name makes of it. The names that the pass does not look up are those that it leaves
out.
-/

namespace MiniCheck

open Pass Node

/-- The pass leaves the position out: it is in the value of an assignment to what is no variable, or
in a function whose name an earlier function has. -/
inductive Node.Unvisited (P : Node) : List Nat → Prop
  | value {path i rest line name op value} :
      P.node? path = some (.assign line name op value) →
      (∀ v, Env.meaning? [] P path name ≠ some (.variable v)) → P.Unvisited (path ++ i :: rest)
  | function {i rest f} :
      P.children[i]?.bind Node.function? = some f →
      f.name ∈ functionNames (P.children.take i) → P.Unvisited (i :: rest)

private theorem Node.node?_append (n : Node) (above rest : List Nat) :
    n.node? (above ++ rest) = (n.node? above).bind (·.node? rest) := by
  induction above generalizing n with
  | nil => rfl
  | cons i above ih =>
    rw [List.cons_append, node?, node?, Option.bind_assoc]
    congr 1
    funext c
    exact ih c

namespace Visit

private theorem mem_trail_above {v : Visit} {a : Arrival} {above rest : List Nat} {j : Nat}
    (ha : a ∈ v.trail) (hpath : a.path = above ++ j :: rest) :
    ∃ b ∈ v.trail, b.path = above ∧ b.visit.parts ≠ [] := by
  induction above generalizing v a with
  | nil =>
    rcases mem_trail_iff.mp ha with rfl | ⟨i, n, b, hn, -, -⟩
    · cases hpath
    · refine ⟨⟨[], v⟩, mem_trail_iff.mpr (.inl rfl), rfl, ?_⟩
      intro hnone
      rw [hnone] at hn
      cases hn
  | cons i above ih =>
    rcases mem_trail_iff.mp ha with rfl | ⟨k, n, b, hn, hb, rfl⟩
    · cases hpath
    · obtain ⟨rfl, hrest⟩ := List.cons.inj hpath
      obtain ⟨c, hc, rfl, hparts⟩ := ih hb hrest
      exact ⟨c.under k, mem_trail_iff.mpr (.inr ⟨k, n, c, hn, hc, rfl⟩), rfl, hparts⟩

/-- Why a visit may leave out the children of its node. -/
inductive Skips (v : Visit) : Prop
  | function {line name returnText params body} :
      v.node = .funcDecl line name returnText params body →
      v.table.registry.contains name = true → v.Skips
  | value {line name op value} : v.node = .assign line name op value →
      (∀ x, v.table.resolve name ≠ some (.variable x)) → v.Skips
  | outside {line value} : v.node = .ret line value → v.table.around v.fn = none → v.Skips

private theorem skips_of_parts {v : Visit} (h : v.parts = []) (hc : v.node.children ≠ []) :
    v.Skips := by
  obtain ⟨fn, node, t⟩ := v
  cases node with
  | funcDecl line name returnText params body =>
    cases hr : t.registry.contains name with
    | true => exact .function rfl hr
    | false => exact absurd ((parts_funcDecl hr).symm.trans h) hc
  | assign line name op value =>
    refine .value rfl fun x hx => ?_
    simp [parts, hx] at h
  | ret line value =>
    refine .outside rfl ?_
    cases hf : t.around fn with
    | none => rfl
    | some f => simp [parts, hf] at h
  | _ => exact absurd h hc

private theorem resolve_of_parts {v : Visit} {line : Int} {name op : String} {value : Node}
    (hn : v.node = .assign line name op value) (h : v.parts ≠ []) :
    ∃ x, v.table.resolve name = some (.variable x) := by
  obtain ⟨fn, node, t⟩ := v
  cases hn
  cases hr : t.resolve name with
  | none => exact absurd (by simp [parts, hr]) h
  | some s =>
    cases s with
    | «variable» x => exact ⟨x, rfl⟩
    | function id => exact absurd (by simp [parts, hr]) h

end Visit

section

variable {line : Int} {decls : List Node}

private theorem inRejected_iff {P : Node} {i : Nat} {rest : List Nat} :
    P.inRejected (i :: rest) = true ↔ ∃ f, P.children[i]?.bind Node.function? = some f ∧
      f.name ∈ functionNames (P.children.take i) := by
  rw [inRejected]
  cases P.children[i]? with
  | none => simp
  | some c => cases c <;> simp [Node.head?, Node.function?, Declaration.name, Function.declared]

/-- What a name stands for in the table of a visit is what it means at the position. -/
theorem meaning?_rel (hd : ∀ d ∈ decls, d.IsDecl) {a : Arrival}
    (ha : a ∈ Visit.trail ⟨none, .program line decls, .empty⟩) (hs : a.visit.node.IsStmt)
    (name : String) :
    Option.Rel (Denotes a.visit.table.records) (a.visit.table.resolve name)
      (Env.meaning? [] (.program line decls) a.path name) := by
  obtain ⟨F, hF, hreflected⟩ := trail_reflected_program hd ha hs
  rw [Env.meaning?, hF]
  exact hreflected.resolve name

private theorem meaning?_iff (hd : ∀ d ∈ decls, d.IsDecl) {a : Arrival}
    (ha : a ∈ Visit.trail ⟨none, .program line decls, .empty⟩) (hs : a.visit.node.IsStmt)
    (name : String) (x : Variable) :
    a.visit.table.resolve name = some (.variable x) ↔
      Env.meaning? [] (.program line decls) a.path name = some (.variable x) := by
  have hsame := meaning?_rel hd ha hs name
  generalize a.visit.table.resolve name = s at hsame ⊢
  generalize Env.meaning? [] (.program line decls) a.path name = d at hsame ⊢
  cases hsame with
  | none => simp
  | some h => cases h <;> simp

private theorem Node.IsStmt.head?_eq_none {s : Node} (hs : s.IsStmt) : s.head? = none := by
  cases hs with
  | expr he => cases he <;> rfl
  | _ => rfl

theorem isStmt_of_not_isDecl (hd : ∀ d ∈ decls, d.IsDecl) {path : List Nat} {m : Node}
    (h : (Node.program line decls).node? path = some m) (hP : ¬ m.IsProgram) (hm : ¬ m.IsDecl) :
    m.IsStmt := by
  match path with
  | [] =>
    cases h
    exact absurd (.program hd) hP
  | [i] =>
    obtain ⟨d, hi, h⟩ := Option.bind_eq_some_iff.mp h
    cases h
    exact absurd (hd _ (List.mem_of_getElem? hi)) hm
  | i :: j :: rest => exact isStmt_below hd h

private theorem functionAround?_ret (hd : ∀ d ∈ decls, d.IsDecl) {path : List Nat} {l : Int}
    {value : Node} (h : (Node.program line decls).node? path = some (.ret l value)) :
    ((Node.program line decls).functionAround? path).isSome = true := by
  match path with
  | [] => cases h
  | [i] =>
    obtain ⟨d, hi, h⟩ := Option.bind_eq_some_iff.mp h
    cases h
    cases hd _ (List.mem_of_getElem? hi)
  | i :: j :: rest =>
    obtain ⟨d, hi, h⟩ := Option.bind_eq_some_iff.mp h
    rw [functionAround?, hi, Option.bind_some]
    cases hd d (List.mem_of_getElem? hi) with
    | varDecl he =>
      obtain ⟨c, hj, h⟩ := Option.bind_eq_some_iff.mp h
      have hc := List.mem_of_getElem? hj
      rw [List.mem_singleton.mp hc] at h
      cases he.isExpr_node? h
    | funcDecl => rfl

private theorem not_unvisited (hd : ∀ d ∈ decls, d.IsDecl) {a : Arrival}
    (ha : a ∈ Visit.trail ⟨none, .program line decls, .empty⟩) (hs : a.visit.node.IsStmt) :
    ¬ (Node.program line decls).Unvisited a.path := by
  intro hun
  generalize hpath : a.path = path at hun
  cases hun with
  | value hnode hno =>
    obtain ⟨b, hb, rfl, hparts⟩ := Visit.mem_trail_above ha hpath
    have hassign := Option.some.inj ((Visit.node?_of_mem_trail hb).symm.trans hnode)
    have hstmt := isStmt_of_not_isDecl hd hnode (by rintro ⟨⟩) (by rintro ⟨⟩)
    obtain ⟨x, hx⟩ := Visit.resolve_of_parts hassign hparts
    exact hno x ((meaning?_iff hd hb (hassign ▸ hstmt) _ x).mp hx)
  | function hf hname =>
    have hrejected := inRejected_program hd ha hs.head?_eq_none
    rw [hpath, inRejected_iff.mpr ⟨_, hf, hname⟩] at hrejected
    cases hrejected

private theorem unvisited_of_skips (hd : ∀ d ∈ decls, d.IsDecl) {a : Arrival}
    (ha : a ∈ Visit.trail ⟨none, .program line decls, .empty⟩) (h : a.visit.Skips) (j : Nat)
    (rest : List Nat) : (Node.program line decls).Unvisited (a.path ++ j :: rest) := by
  have hnode := Visit.node?_of_mem_trail ha
  cases h with
  | function hn hc =>
    obtain ⟨i, hi, hplace⟩ := function_at hd ha (by rw [hn]; rfl)
    have hrejected : (Node.program line decls).inRejected (i :: j :: rest) = _ :=
      inRejected_funcDecl hd (hn ▸ hi) _
    have hpath : a.path = [i] := congrArg Arrival.path hplace
    have htable : a.visit.table = tableAfter none (decls.take i) .empty :=
      congrArg (·.visit.table) hplace
    rw [← htable, hc] at hrejected
    obtain ⟨f, hf, hname⟩ := inRejected_iff.mp hrejected
    rw [hpath]
    exact .function hf hname
  | value hn hno =>
    rw [hn] at hnode
    have hs := isStmt_of_not_isDecl hd hnode (by rintro ⟨⟩) (by rintro ⟨⟩)
    exact .value hnode fun x hx => hno x ((meaning?_iff hd ha (hn ▸ hs) _ x).mpr hx)
  | outside hn hno =>
    -- The function around is known wherever there is a return statement.
    have hsome := functionAround?_ret hd (hn ▸ hnode)
    rw [← around_program hd ha, hno] at hsome
    cases hsome

/-- Of the statements, those are visited that the pass does not leave out. -/
theorem visited_iff (hd : ∀ d ∈ decls, d.IsDecl) {path : List Nat} {m : Node}
    (h : (Node.program line decls).node? path = some m) (hm : m.IsStmt) :
    (∃ a ∈ Visit.trail ⟨none, .program line decls, .empty⟩, a.path = path) ↔
      ¬ (Node.program line decls).Unvisited path := by
  constructor
  · rintro ⟨a, ha, rfl⟩
    have hnode := Option.some.inj (h.symm.trans (Visit.node?_of_mem_trail ha))
    exact not_unvisited hd ha (hnode ▸ hm)
  · intro hun
    obtain ⟨a, ha, rfl | ⟨j, rest, rfl, hnone⟩⟩ := Visit.trail_covers (v := ⟨none, _, .empty⟩) h
    · exact ⟨a, ha, rfl⟩
    have hchildren : a.visit.node.children ≠ [] := by
      rw [Node.node?_append, Visit.node?_of_mem_trail ha, Option.bind_some] at h
      obtain ⟨c, hc, -⟩ := Option.bind_eq_some_iff.mp h
      intro hnil
      rw [hnil] at hc
      cases hc
    exact absurd (unvisited_of_skips hd ha (Visit.skips_of_parts hnone hchildren) j rest) hun

end

/-- What the visit of a name makes of the declaration that the name means. As a value it has the
type of the variable, and the name of a function has no type of its own. As a target it must be a
variable, which is not a constant and whose type accepts the value; no other target has its value
visited. -/
inductive Visit.Treats : Visit → Option Declaration → Prop
  | valueUndeclared {fn line name t} :
      (visit fn (.identifier line name)).Returns t t [⟨some line, .variableUndeclared name⟩]
        .unknown →
      Treats ⟨fn, .identifier line name, t⟩ none
  | value {fn line name t x} :
      (visit fn (.identifier line name)).Returns t t [] x.type →
      Treats ⟨fn, .identifier line name, t⟩ (some (.variable x))
  | functionValue {fn line name t head} :
      (visit fn (.identifier line name)).Returns t t [] .unknown →
      Treats ⟨fn, .identifier line name, t⟩ (some (.function head))
  | targetUndeclared {fn line name op value t} :
      (visit fn (.assign line name op value)).Returns t t [⟨some line, .targetUndeclared name⟩]
        .error →
      Treats ⟨fn, .assign line name op value, t⟩ none
  | target {fn line name op value t x u fs got} :
      (visit fn value).Returns t u fs got →
      (visit fn (.assign line name op value)).Returns t u
        ((if x.isConst then [⟨some line, .constAssigned name⟩] else []) ++ (fs ++
          if x.type.accepts got then [] else [⟨some line, .assignMismatch name x.type got⟩]))
        .void →
      Treats ⟨fn, .assign line name op value, t⟩ (some (.variable x))
  | functionTarget {fn line name op value t head} :
      (visit fn (.assign line name op value)).Returns t t [⟨some line, .targetNotVariable name⟩]
        .error →
      Treats ⟨fn, .assign line name op value, t⟩ (some (.function head))

section

variable {fn : Option FunctionId} {line : Int} {name : String} {t : Table} {d : Option Declaration}

private theorem treats_identifier (h : Option.Rel (Denotes t.records) (t.resolve name) d) :
    Visit.Treats ⟨fn, .identifier line name, t⟩ d := by
  have hr : (visit fn (.identifier line name)).Returns t t _ _ :=
    Check.returns_identifierUse line name t
  rw [Check.undeclared, Table.typeOf] at hr
  generalize t.resolve name = s at h hr
  cases h with
  | none => exact .valueUndeclared hr
  | some h =>
    cases h with
    | «variable» x => exact .value hr
    | function => exact .functionValue hr

private theorem treats_assign {op : String} {value : Node} (hv : value.IsExpr)
    (h : Option.Rel (Denotes t.records) (t.resolve name) d) :
    Visit.Treats ⟨fn, .assign line name op value, t⟩ d := by
  obtain ⟨fs, got, b, hvalue⟩ := visit_expr hv fn t
  generalize hs : t.resolve name = s at h
  cases h with
  | none => exact .targetUndeclared (Check.returns_assignment_undeclared hs)
  | some h =>
    cases h with
    | «variable» x => exact .target hvalue (Check.returns_assignment hs hvalue)
    | function => exact .functionTarget (Check.returns_assignment_function hs)

private theorem treats_of_rel {v : Visit} {use : Use} (hs : v.node.IsStmt)
    (hu : v.node.use? = some use)
    (h : Option.Rel (Denotes v.table.records) (v.table.resolve use.name) d) : v.Treats d := by
  obtain ⟨fn, node, t⟩ := v
  cases node with
  | identifier line name =>
    cases hu
    exact treats_identifier h
  | assign line name op value =>
    cases hu
    cases hs with
    | assign hv => exact treats_assign hv h
    | expr he => cases he
  | _ => cases hu

end

section

variable {line : Int} {decls : List Node}

private theorem isStmt_of_use (hd : ∀ d ∈ decls, d.IsDecl) {path : List Nat} {m : Node} {use : Use}
    (h : (Node.program line decls).node? path = some m) (hu : m.use? = some use) : m.IsStmt := by
  cases m with
  | identifier => exact .expr .identifier
  | assign => exact isStmt_of_not_isDecl hd h (by rintro ⟨⟩) (by rintro ⟨⟩)
  | _ => cases hu

/-- Every name in the text is looked up, unless the pass leaves it out. -/
theorem lookup_or_unvisited (hd : ∀ d ∈ decls, d.IsDecl) {path : List Nat} {use : Use}
    (h : ((Node.program line decls).node? path).bind Node.use? = some use) :
    (∃ l ∈ (Node.program line decls).lookups none .empty, l.path = path) ∨
      (Node.program line decls).Unvisited path := by
  obtain ⟨m, hm, hu⟩ := Option.bind_eq_some_iff.mp h
  by_cases hun : (Node.program line decls).Unvisited path
  · exact .inr hun
  · obtain ⟨⟨path, v⟩, ha, rfl⟩ := (visited_iff hd hm (isStmt_of_use hd hm hu)).mpr hun
    have hnode : v.node = m := Option.some.inj ((Visit.node?_of_mem_trail ha).symm.trans hm)
    exact .inl ⟨⟨path, use, v.table⟩, mem_lookups_iff.mpr ⟨v, ha, hnode ▸ hu, rfl⟩, rfl⟩

/-- The visit behind a lookup: the table finds what the name means, and the visit goes by that. -/
theorem lookup_visit (hd : ∀ d ∈ decls, d.IsDecl) {l : Lookup}
    (hl : l ∈ (Node.program line decls).lookups none .empty) :
    let meaning := Env.meaning? [] (.program line decls) l.path l.use.name
    ∃ v : Visit, (⟨l.path, v⟩ : Arrival) ∈ Visit.trail ⟨none, .program line decls, .empty⟩ ∧
      v.table = l.table ∧ v.node.use? = some l.use ∧
      Option.Rel (Denotes l.table.records) l.symbol meaning ∧ v.Treats meaning := by
  intro meaning
  obtain ⟨v, ha, hu, htable⟩ := mem_lookups_iff.mp hl
  have hs : v.node.IsStmt := isStmt_of_use hd (Visit.node?_of_mem_trail ha) hu
  have hrel : Option.Rel (Denotes v.table.records) (v.table.resolve l.use.name) meaning :=
    meaning?_rel hd ha hs l.use.name
  have htreats := treats_of_rel hs hu hrel
  rw [htable] at hrel
  exact ⟨v, ha, htable, hu, hrel, htreats⟩

end

/-- Lexical scoping. The pass looks up every name that it visits, and every position once. What it
finds stands for the first declaration in the innermost scope of the text that has one, and the
visit of the position gives the name the type of this declaration, or holds it against the value
that is assigned. The pass reports exactly the names that no scope around them declares, each once
and in their order. -/
theorem lookups_lexical {P : Node} (hP : P.IsProgram) :
    ∃ u fs, (analyze P).Returns .empty u fs () ∧
      (∀ path use, (P.node? path).bind Node.use? = some use →
        (∃ l ∈ P.lookups none .empty, l.path = path) ∨ P.Unvisited path) ∧
      ((P.lookups none .empty).map Lookup.path).Nodup ∧
      (∀ l ∈ P.lookups none .empty, (P.node? l.path).bind Node.use? = some l.use ∧
        Option.Rel (Denotes l.table.records) l.symbol (Env.meaning? [] P l.path l.use.name)) ∧
      (∀ l ∈ P.lookups none .empty, ∃ v : Visit,
        (⟨l.path, v⟩ : Arrival) ∈ Visit.trail ⟨none, P, .empty⟩ ∧ v.table = l.table ∧
        v.node.use? = some l.use ∧ v.Treats (Env.meaning? [] P l.path l.use.name)) ∧
      undeclaredFindings fs = (P.lookups none .empty).filterMap fun l =>
        if (Env.meaning? [] P l.path l.use.name).isNone then some l.use.finding else none := by
  cases hP with
  | @program line decls hd =>
    obtain ⟨u, fs, types, hr⟩ := visitAll_decls hd .empty
    refine ⟨u, fs, analyze_returns hr, fun path use => lookup_or_unvisited hd,
      nodup_lookups (nodup_trail_program hd), ?_, ?_, ?_⟩
    · intro l hl
      obtain ⟨v, ha, -, hu, hsymbol, -⟩ := lookup_visit hd hl
      have hnode := Visit.node?_of_mem_trail ha
      exact ⟨Option.bind_eq_some_iff.mpr ⟨v.node, hnode, hu⟩, hsymbol⟩
    · intro l hl
      obtain ⟨v, ha, htable, hu, -, htreats⟩ := lookup_visit hd hl
      exact ⟨v, ha, htable, hu, htreats⟩
    · rw [undeclared_program line hd hr]
      refine List.filterMap_congr fun l hl => ?_
      obtain ⟨v, -, -, -, hsymbol, -⟩ := lookup_visit hd hl
      rw [Lookup.finding?]
      generalize l.symbol = s at hsymbol ⊢
      generalize Env.meaning? [] _ l.path l.use.name = d at hsymbol ⊢
      cases hsymbol <;> rfl

/-- The initializer of the global `x` and the target `y` after its block are not declared. The
second `x` of the function takes its value from the global one, and the third one is rejected. -/
theorem lookups_lexical_redeclared :
    let P : Node := .program 1
      [.varDecl 1 "x" (some "int") false (.identifier 1 "x") none,
        .funcDecl 2 "f" none [⟨2, "p", some "int"⟩] (.block 2
          [.varDecl 3 "x" (some "string") false (.identifier 3 "x") none,
            .block 4 [.varDecl 4 "y" (some "int") false (.identifier 4 "p") none],
            .varDecl 5 "x" (some "int") false .missing none,
            .assign 6 "y" "=" (.identifier 6 "z")])]
    P.IsProgram ∧ ∃ u fs, (analyze P).Returns .empty u fs () ∧
      undeclaredFindings fs =
        [⟨some 1, .variableUndeclared "x"⟩, ⟨some 6, .targetUndeclared "y"⟩] := by
  intro P
  obtain ⟨u, fs, hr, -, -, -, -, hf⟩ := lookups_lexical (P := P) (by decide)
  exact ⟨by decide, u, fs, hr, hf.trans (by decide +kernel)⟩

end MiniCheck
