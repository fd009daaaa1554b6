import MiniCheck.Proofs.Trail

/-!
# Lookups of names

A visit of a name used as a value, and a visit of an assignment, look a name up in the table in
which they begin. So the lookups of a visit are read off its trail, and the names that are reported
as undeclared are those that are looked up in vain.
-/

namespace MiniCheck

open Pass Node

/-- A name in the text: as a value or as the target of an assignment. -/
inductive Use where
  | value (line : Int) (name : String)
  | target (line : Int) (name : String)

namespace Use

def name : Use → String
  | value _ name | target _ name => name

/-- What is found about a name that is not declared. -/
def finding : Use → Finding
  | value line name => ⟨some line, .variableUndeclared name⟩
  | target line name => ⟨some line, .targetUndeclared name⟩

end Use

def Node.use? : Node → Option Use
  | .identifier line name => some (.value line name)
  | .assign line name _ _ => some (.target line name)
  | _ => none

/-- A name that is looked up in a table. -/
structure Lookup where
  path : List Nat
  use : Use
  table : Table

namespace Lookup

def symbol (l : Lookup) : Option Symbol := l.table.resolve l.use.name

def finding? (l : Lookup) : Option Finding :=
  match l.symbol with
  | none => some l.use.finding
  | some _ => none

def under (i : Nat) (l : Lookup) : Lookup := { l with path := i :: l.path }

/-- The lookups of the parts as those of their parent. -/
def join (ls : List (List Lookup)) : List Lookup := joinUnder under ls

theorem mem_join_iff {ls : List (List Lookup)} {l : Lookup} :
    l ∈ join ls ↔ ∃ i part, ∃ m : Lookup, ls[i]? = some part ∧ m ∈ part ∧ l = m.under i :=
  mem_joinUnder_iff

end Lookup

/-- The lookup that a visit makes before it visits the parts of its node. -/
def Arrival.lookup? (a : Arrival) : Option Lookup :=
  a.visit.node.use?.map fun use => ⟨a.path, use, a.visit.table⟩

/-- The lookups of the visit of a node from the table `t`. -/
def Node.lookups (fn : Option FunctionId) (n : Node) (t : Table) : List Lookup :=
  (Visit.trail ⟨fn, n, t⟩).filterMap Arrival.lookup?

/-- The lookups of nodes that are visited in a row. -/
def lookupsEach (fn : Option FunctionId) (ns : List Node) (t : Table) : List (List Lookup) :=
  (Visit.row fn ns t).map fun v => v.node.lookups v.fn v.table

theorem lookupsEach_cons (fn : Option FunctionId) (n : Node) (ns : List Node) (t : Table) :
    lookupsEach fn (n :: ns) t =
      n.lookups fn t :: lookupsEach fn ns ((visit fn n).run t).table := rfl

theorem length_lookupsEach (fn : Option FunctionId) (ns : List Node) (t : Table) :
    (lookupsEach fn ns t).length = ns.length := by
  rw [lookupsEach, List.length_map, Visit.length_row]

section

variable {fn : Option FunctionId} {n : Node} {t : Table}

/-- A visit looks its own name up, and then the names of its parts. -/
theorem lookups_eq (fn : Option FunctionId) (n : Node) (t : Table) :
    n.lookups fn t = (n.use?.map fun use => (⟨[], use, t⟩ : Lookup)).toList ++
      Lookup.join (lookupsEach (Visit.inner ⟨fn, n, t⟩) (Visit.parts ⟨fn, n, t⟩)
        (Visit.opened ⟨fn, n, t⟩)) := by
  have hunder : ∀ i (a : Arrival), (a.under i).lookup? = a.lookup?.map (Lookup.under i) := by
    intro i a
    rw [Arrival.lookup?, Arrival.lookup?, Option.map_map]
    rfl
  have hparts : ∀ fn ns t, (Arrival.join (trailEach fn ns t)).filterMap Arrival.lookup? =
      Lookup.join (lookupsEach fn ns t) := by
    intro fn ns t
    rw [Arrival.join, filterMap_joinUnder hunder, trailEach_eq, List.map_map]
    rfl
  rw [Node.lookups, Visit.trail_eq, List.filterMap_cons, hparts, Arrival.lookup?]
  cases n.use? <;> rfl

/-- A node that is no use of a name leaves the lookups to its parts. -/
theorem lookups_eq_join {ns : List Node} {u : Table} (hn : n.use? = none)
    (hp : Visit.parts ⟨fn, n, t⟩ = ns) (ho : Visit.opened ⟨fn, n, t⟩ = u) :
    n.lookups fn t = Lookup.join (lookupsEach (Visit.inner ⟨fn, n, t⟩) ns u) := by
  rw [lookups_eq, hn, hp, ho]
  rfl

theorem mem_lookups_iff {l : Lookup} :
    l ∈ n.lookups fn t ↔ ∃ v : Visit, (⟨l.path, v⟩ : Arrival) ∈ Visit.trail ⟨fn, n, t⟩ ∧
      v.node.use? = some l.use ∧ v.table = l.table := by
  rw [Node.lookups, List.mem_filterMap]
  constructor
  · rintro ⟨a, ha, hl⟩
    obtain ⟨use, huse, rfl⟩ := Option.map_eq_some_iff.mp hl
    exact ⟨a.visit, ha, huse, rfl⟩
  · rintro ⟨v, ha, huse, htable⟩
    refine ⟨_, ha, ?_⟩
    rw [Arrival.lookup?, huse, Option.map_some, htable]

theorem nodup_lookups (h : ((Visit.trail ⟨fn, n, t⟩).map Arrival.path).Nodup) :
    ((n.lookups fn t).map Lookup.path).Nodup := by
  have hpath : ∀ {a : Arrival} {l : Lookup}, a.lookup? = some l → l.path = a.path := by
    intro a l hl
    obtain ⟨use, -, rfl⟩ := Option.map_eq_some_iff.mp hl
    rfl
  rw [List.Nodup, List.pairwise_map] at h ⊢
  rw [Node.lookups, List.pairwise_filterMap]
  refine h.imp ?_
  intro a b hne l hl m hm
  rw [hpath hl, hpath hm]
  exact hne

end

def Violation.isUndeclared : Violation → Bool
  | variableUndeclared _ | targetUndeclared _ => true
  | _ => false

/-- The findings that a name is not declared. -/
def undeclaredFindings (fs : List Finding) : List Finding := fs.filter (·.violation.isUndeclared)

/-- A visit opens with such a finding if it looks a name up in vain. -/
theorem undeclared_early (a : Arrival) :
    undeclaredFindings a.visit.early = (a.lookup?.bind Lookup.finding?).toList := by
  obtain ⟨path, fn, node, t⟩ := a
  have hother : ∀ n : Node, n.site? ≠ some .name → n.site? ≠ some .assignment →
      undeclaredFindings (Visit.early ⟨fn, n, t⟩) = [] := by
    intro n hname hassign
    apply filter_early_eq_nil
    rintro ⟨line, violation⟩ hp site hstage hsite
    cases violation with
    | variableUndeclared =>
      cases hstage
      exact hname hsite
    | targetUndeclared =>
      cases hstage
      exact hassign hsite
    | _ => cases hp
  cases node with
  | identifier line name =>
    cases hr : t.resolve name <;>
      simp [undeclaredFindings, Visit.early, Check.undeclared, hr, Arrival.lookup?, Node.use?,
        Lookup.finding?, Lookup.symbol, Use.name, Use.finding, Violation.isUndeclared]
  | assign line name op value =>
    cases hr : t.resolve name with
    | none =>
      simp [undeclaredFindings, Visit.early, hr, Arrival.lookup?, Node.use?, Lookup.finding?,
        Lookup.symbol, Use.name, Use.finding, Violation.isUndeclared]
    | some s =>
      have hfound : undeclaredFindings (Visit.early ⟨fn, .assign line name op value, t⟩) = [] := by
        cases s with
        | function id => simp [undeclaredFindings, Visit.early, hr, Violation.isUndeclared]
        | «variable» x =>
          simp only [undeclaredFindings, Visit.early, hr, Check.constant]
          split <;> rfl
      rw [hfound]
      simp [Arrival.lookup?, Node.use?, Lookup.finding?, Lookup.symbol, Use.name, hr]
  | _ => exact hother _ (by simp [site?]) (by simp [site?])

/-- The names that are reported as undeclared are those that are looked up in vain. -/
theorem undeclared_program (line : Int) {decls : List Node} (hd : ∀ d ∈ decls, d.IsDecl)
    {u : Table} {fs : List Finding} {types : List Ty}
    (hr : (visitAll none decls).Returns .empty u fs types) :
    undeclaredFindings fs =
      ((Node.program line decls).lookups none .empty).filterMap Lookup.finding? := by
  have hopening : ∀ f : Finding, f.violation.isUndeclared = true →
      f.violation.stage.isOpening = true := by
    rintro ⟨line, violation⟩ hf
    cases violation <;> first | rfl | cases hf
  have hopen : undeclaredFindings (openings fs) = undeclaredFindings fs :=
    filter_filter_of_imp hopening fs
  rw [← hopen, openings_program hd hr, Visit.visits, undeclaredFindings, List.flatMap_map,
    List.filter_flatMap, Node.lookups, List.filterMap_filterMap, List.filterMap_eq_flatMap_toList]
  exact List.flatMap_congr fun a _ => undeclared_early a

end MiniCheck
