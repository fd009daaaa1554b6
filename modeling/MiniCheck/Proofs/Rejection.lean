import MiniCheck.Proofs.FirstDeclarations
import MiniCheck.Proofs.Subvisits

/-!
# Rejected declarations

A variable at the top of a program is rejected if its name is taken, and a function if another
function has its name. What is rejected leaves no trace in the table, so the program without it ends
with the same table, and of its findings only those about what was rejected are missing.
-/

namespace MiniCheck

open Pass Node

/-- The names that the declarations declare. -/
def declaredNames (ns : List Node) : List String :=
  (ns.filterMap Node.declaration?).map Declaration.name

/-- The declaration is rejected after the ones `before` it. -/
def Node.rejectedAfter (before : List Node) : Node → Bool
  | .varDecl _ name _ _ _ _ => decide (name ∈ declaredNames before)
  | .funcDecl _ name _ _ _ => decide (name ∈ functionNames before)
  | _ => false

/-- Which of the declarations are accepted after the ones `before` them. -/
def acceptedAfter (before : List Node) : List Node → List Bool
  | [] => []
  | d :: ds => (!d.rejectedAfter before) :: acceptedAfter (before ++ [d]) ds

/-- The entries of a list that are marked. -/
def marked {α : Type} : List Bool → List α → List α
  | mark :: marks, a :: rest => if mark then a :: marked marks rest else marked marks rest
  | _, _ => []

/-- The findings about each of the declarations, which are visited in a row from the table `t`. -/
def findingsEach (ds : List Node) (t : Table) : List (List Finding) :=
  (Visit.row none ds t).map (·.outcome.findings)

private theorem acceptedAfter_append (before ds es : List Node) :
    acceptedAfter before (ds ++ es) =
      acceptedAfter before ds ++ acceptedAfter (before ++ ds) es := by
  induction ds generalizing before with
  | nil => simp [acceptedAfter]
  | cons d ds ih => simp [acceptedAfter, ih]

private theorem length_acceptedAfter (before ds : List Node) :
    (acceptedAfter before ds).length = ds.length := by
  induction ds generalizing before with
  | nil => rfl
  | cons d ds ih => rw [acceptedAfter, List.length_cons, ih, List.length_cons]

private theorem findingsEach_cons {d : Node} {t u : Table} {fs : List Finding} {type : Ty}
    (h : (visit none d).Returns t u fs type) (ds : List Node) :
    findingsEach (d :: ds) t = fs :: findingsEach ds u := by
  rw [findingsEach, Visit.row, List.map_cons, Visit.outcome, h]
  rfl

/-- The findings about a declaration are those of its visit after the ones before it. -/
theorem getElem?_findingsEach {before : List Node} {d : Node} {t u v : Table}
    {gs fs : List Finding} {types : List Ty} {type : Ty}
    (ht : (visitAll none before).Returns t u gs types) (hr : (visit none d).Returns u v fs type)
    (after : List Node) : (findingsEach (before ++ d :: after) t)[before.length]? = some fs := by
  rw [findingsEach, List.getElem?_map, Visit.getElem?_row, List.take_left, ht.tableAfter_eq,
    List.getElem?_append_right (Nat.le_refl _), Nat.sub_self, List.getElem?_cons_zero,
    Option.map_some, Option.map_some, Visit.outcome, hr]

section

variable {before : List Node} {xs : Frame} {t u : Table}

private theorem declaredNames_eq (hx : List.Forall₂ Declares before xs) :
    declaredNames before = xs.names := by
  rw [declaredNames, filterMap_declaration? hx, List.map_map, Frame.names]
  apply List.map_congr_left
  intro x _
  exact x.name_head

private theorem contains_current_iff (hx : List.Forall₂ Declares before xs) (ht : t.Shows xs)
    (name : String) : t.current.contains name = true ↔ name ∈ declaredNames before := by
  rw [declaredNames_eq hx]
  exact ht.contains_current name

private theorem contains_registry_iff (hx : List.Forall₂ Declares before xs) (ht : t.Shows xs)
    (name : String) : t.registry.contains name = true ↔ name ∈ functionNames before := by
  rw [functionNames_eq hx]
  exact ht.contains_registry name

private theorem table_of_rejected {d : Node} {fs : List Finding} {type : Ty}
    (hx : List.Forall₂ Declares before xs) (ht : t.Shows xs) (hd : d.IsDecl)
    (hrej : d.rejectedAfter before = true) (hr : (visit none d).Returns t u fs type) : u = t := by
  cases hd with
  | varDecl hi =>
    have hname := of_decide_eq_true hrej
    have hc := (contains_current_iff hx ht _).mpr hname
    obtain ⟨b, rfl⟩ := hr.of_stmt (.varDecl hi)
    simp only [Table.declaring, declared?, Table.defineVariable, hc, if_true]
    rfl
  | funcDecl hs hb =>
    have hname := of_decide_eq_true hrej
    have hc := (contains_registry_iff hx ht _).mpr hname
    exact (hr.of_funcDecl_taken hc).1

end

private theorem accepted_returns {before ds : List Node} {xs : Frame} {t : Table}
    (hx : List.Forall₂ Declares before xs) (ht : t.Shows xs) (hd : ∀ d ∈ ds, d.IsDecl) :
    ∃ u types types',
      (visitAll none ds).Returns t u (findingsEach ds t).flatten types ∧
      (visitAll none (marked (acceptedAfter before ds) ds)).Returns t u
        (marked (acceptedAfter before ds) (findingsEach ds t)).flatten types' := by
  induction ds generalizing before xs t with
  | nil => exact ⟨t, [], [], .visitAll_nil none t, .visitAll_nil none t⟩
  | cons d ds ih =>
    have hd₁ : d.IsDecl := hd d (by simp)
    obtain ⟨v, fs, type, hr⟩ := visit_decl hd₁ t
    obtain ⟨x, hdx, hv⟩ := ht.after_decl hd₁ hr
    have hx' : List.Forall₂ Declares (before ++ [d]) (xs ++ [x]) :=
      List.rel_append hx (.cons hdx .nil)
    obtain ⟨u, types, types', hall, hacc⟩ := ih hx' hv fun e he => hd e (by simp [he])
    have hfirst := hr.visitAll_cons hall
    rw [findingsEach_cons hr, acceptedAfter]
    cases hrej : d.rejectedAfter before with
    | true =>
      have hvt : v = t := table_of_rejected hx ht hd₁ hrej hr
      subst hvt
      exact ⟨u, _, types', hfirst, hacc⟩
    | false =>
      have hsecond := hr.visitAll_cons hacc
      exact ⟨u, _, _, hfirst, hsecond⟩

/-- Without its rejected declarations a program ends with the same table, and its findings are those
about the declarations that are left. A variable is rejected if its name is taken in the global
scope and a function if its name is registered. About a rejected function there is one finding,
whatever its parameters and its body are. -/
theorem rejected_declarations_inert {line : Int} {decls : List Node}
    (hP : (Node.program line decls).IsProgram) :
    let accepted := acceptedAfter [] decls
    let findings := findingsEach decls .empty
    ∃ u, (analyze (.program line decls)).Returns .empty u findings.flatten () ∧
      (analyze (.program line (marked accepted decls))).Returns .empty u
        (marked accepted findings).flatten () ∧
      ∀ before d after, decls = before ++ d :: after → ∃ t gs v fs type,
        (analyze (.program line before)).Returns .empty t gs () ∧
        (visit none d).Returns t v fs type ∧ findings[before.length]? = some fs ∧
        accepted[before.length]? = some (!d.rejectedAfter before) ∧
        (d.rejectedAfter before = true → v = t) ∧
        (∀ l name typeText isConst init initText,
          d = .varDecl l name typeText isConst init initText →
          (d.rejectedAfter before = true ↔ t.current.contains name = true)) ∧
        ∀ l name returnText params body, d = .funcDecl l name returnText params body →
          (d.rejectedAfter before = true ↔ t.registry.contains name = true) ∧
          (d.rejectedAfter before = true → fs = [⟨some l, .functionRedefined name⟩]) := by
  intro accepted findings
  cases hP with
  | program hd =>
    obtain ⟨u, types, types', hall, hacc⟩ := accepted_returns .nil .empty hd
    refine ⟨u, analyze_returns hall, analyze_returns hacc, ?_⟩
    intro before d after hsplit
    have hbefore : ∀ e ∈ before, e.IsDecl := fun e he => hd e (by simp [hsplit, he])
    have hd₁ : d.IsDecl := hd d (by simp [hsplit])
    obtain ⟨t, gs, _, ht⟩ := visitAll_decls hbefore .empty
    obtain ⟨xs, hx, hshows⟩ := Table.Shows.empty.after_decls hbefore ht
    rw [List.nil_append] at hshows
    obtain ⟨v, fs, type, hr⟩ := visit_decl hd₁ t
    have hfs : findings[before.length]? = some fs := by
      simp only [findings, hsplit]
      exact getElem?_findingsEach ht hr after
    have hmark : accepted[before.length]? = some (!d.rejectedAfter before) := by
      have hlen := length_acceptedAfter [] before
      simp only [accepted, hsplit, acceptedAfter_append, acceptedAfter, List.nil_append]
      rw [List.getElem?_append_right (by omega), hlen, Nat.sub_self]
      rfl
    refine ⟨t, gs, v, fs, type, analyze_returns ht, hr, hfs, hmark, ?_, ?_, ?_⟩
    · exact fun hrej => table_of_rejected hx hshows hd₁ hrej hr
    · rintro l name typeText isConst init initText rfl
      rw [contains_current_iff hx hshows, Node.rejectedAfter, decide_eq_true_eq]
    · rintro l name returnText params body rfl
      have hiff : (Node.funcDecl l name returnText params body).rejectedAfter before = true ↔
          t.registry.contains name = true := by
        rw [contains_registry_iff hx hshows, Node.rejectedAfter, decide_eq_true_eq]
      exact ⟨hiff, fun hrej => (hr.of_funcDecl_taken (hiff.mp hrej)).2.1⟩

/-- The second `x` calls `f` in vain, and the second `f` is full of mistakes that nobody looks at.
The function `x` stays, although a variable has its name. -/
theorem rejected_declarations_inert_interleaved :
    let x : Node := .varDecl 1 "x" (some "int") false .missing none
    let f : Node := .funcDecl 2 "f" (some "int") [⟨2, "p", some "int"⟩]
      (.block 2 [.ret 2 (.identifier 2 "p")])
    let x₂ : Node := .varDecl 3 "x" (some "int") false (.call 3 "f" [.identifier 3 "y"]) none
    let f₂ : Node := .funcDecl 4 "f" (some "int") [⟨4, "q", none⟩, ⟨4, "q", none⟩]
      (.block 4 [.assign 4 "z" "=" .missing])
    let x₃ : Node := .funcDecl 5 "x" none [] (.block 5 [])
    let decls := [x, f, x₂, f₂, x₃]
    (Node.program 1 decls).IsProgram ∧ marked (acceptedAfter [] decls) decls = [x, f, x₃] ∧
    ∃ u, (analyze (.program 1 decls)).Returns .empty u
        [⟨some 3, .globalRedefined "x"⟩, ⟨some 3, .variableUndeclared "y"⟩,
          ⟨some 4, .functionRedefined "f"⟩, ⟨some 5, .nameOfVariable "x"⟩] () ∧
      (analyze (.program 1 [x, f, x₃])).Returns .empty u [⟨some 5, .nameOfVariable "x"⟩] () := by
  intro x f x₂ f₂ x₃ decls
  have hP : (Node.program 1 decls).IsProgram := by decide
  have hmarked : marked (acceptedAfter [] decls) decls = [x, f, x₃] := rfl
  have hfindings : findingsEach decls .empty =
      [[], [], [⟨some 3, .globalRedefined "x"⟩, ⟨some 3, .variableUndeclared "y"⟩],
        [⟨some 4, .functionRedefined "f"⟩], [⟨some 5, .nameOfVariable "x"⟩]] := by decide +kernel
  obtain ⟨u, hall, hacc, -⟩ := rejected_declarations_inert hP
  rw [hfindings] at hall hacc
  rw [hmarked] at hacc
  exact ⟨hP, hmarked, u, hall, hacc⟩

end MiniCheck
