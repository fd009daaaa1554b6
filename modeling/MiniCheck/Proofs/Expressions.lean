import MiniCheck.Proofs.FunctionRecords

/-!
# Expressions

The type of an expression and its findings are read off the table in which its visit begins. The
visit leaves the table as it was, except that the function around is marked as recursive if it is
called. No check of an expression reads that mark, so a second visit is like the first.
-/

namespace MiniCheck

open Pass Node

namespace Node

/-- The name of the function that a node calls. -/
def called? : Node → Option String
  | call _ name _ => some name
  | _ => none

/-- The names of the functions that are called in a node, at any depth. -/
def callees (e : Node) : List String := (e :: e.inside).filterMap called?

private theorem callees_binary (line : Int) (op : String) (left right : Node) :
    (binary line op left right).callees = left.callees ++ right.callees := by
  simp only [callees, inside, ← List.filterMap_append]
  rfl

private theorem filterMap_insideAll (ns : List Node) :
    (insideAll ns).filterMap called? = ns.flatMap callees := by
  induction ns with
  | nil => rfl
  | cons n ns ih => rw [insideAll, List.filterMap_append, ih, List.flatMap_cons, callees]

private theorem callees_call (line : Int) (name : String) (args : List Node) :
    (call line name args).callees = name :: args.flatMap callees := by
  rw [← filterMap_insideAll]
  rfl

end Node

namespace Table

/-- A call of the name marks the function around. -/
def callsBack (t : Table) (fn : Option FunctionId) (name : String) : Bool :=
  (t.registered? name).isSome && (t.around fn).any (·.name == name)

/-- The type of a call of the name. -/
def resultOf (t : Table) (name : String) : Ty := ((t.registered? name).map (·.2.type)).getD .unknown

end Table

/-- The findings of a call whose arguments have the types and the findings that are given. -/
def Check.callFindings (t : Table) (fn : Option FunctionId) (line : Int) (name : String)
    (types : List Ty) (own : List Finding) : List Finding :=
  match t.registered? name with
  | none => ⟨some line, .functionUndefined name⟩ :: own
  | some (_, callee) =>
      mainCalls line name (t.around fn) ++ (own ++ misapplied line name callee types)

private theorem Check.returns_call {fn : Option FunctionId} {line : Int} {name : String}
    {args : List Node} {t u : Table} {own : List Finding} {types : List Ty}
    (h : (visitAll fn args).Returns (t.collect fn .none (t.callsBack fn name)) u own types) :
    (visit fn (.call line name args)).Returns t u (callFindings t fn line name types own)
      (t.resultOf name) := by
  cases hr : t.registered? name with
  | none =>
    simp only [Table.callsBack, hr, Option.isSome_none, Bool.false_and, Table.collect_none] at h
    simp only [callFindings, Table.resultOf, hr]
    exact returns_functionCall_undefined hr h
  | some found =>
    simp only [Table.callsBack, hr, Option.isSome_some, Bool.true_and,
      ← Table.calling_eq_collect] at h
    simp only [callFindings, Table.resultOf, hr]
    exact returns_functionCall hr h

section

variable (t : Table) (fn : Option FunctionId) (n : Notes) (b : Bool) (name : String)

private theorem Table.around_name_collect :
    ((t.collect fn n b).around fn).map Function.name = (t.around fn).map Function.name := by
  rw [around_collect, Option.map_map]
  rfl

private theorem Table.typeOf_collect : (t.collect fn n b).typeOf name = t.typeOf name := by
  rw [typeOf, resolve_collect, typeOf]

private theorem Table.resultOf_collect : (t.collect fn n b).resultOf name = t.resultOf name := by
  have hhead := congrArg (Option.map Function.type) (t.registered?_collect_head fn n b name)
  rw [Option.map_map, Option.map_map] at hhead
  exact congrArg (·.getD .unknown) hhead

private theorem Table.callsBack_collect :
    (t.collect fn n b).callsBack fn name = t.callsBack fn name := by
  have hknown := congrArg Option.isSome (t.registered?_collect_head fn n b name)
  rw [Option.isSome_map, Option.isSome_map] at hknown
  have hown := congrArg (·.any (· == name)) (t.around_name_collect fn n b)
  rw [Option.any_map, Option.any_map] at hown
  rw [callsBack, hknown, callsBack]
  exact congrArg _ hown

private theorem Check.callFindings_collect (line : Int) (types : List Ty) (own : List Finding) :
    callFindings (t.collect fn n b) fn line name types own =
      callFindings t fn line name types own := by
  have hmain := mainCalls_congr line name (t.around_name_collect fn n b)
  obtain ⟨hu, ht⟩ | ⟨⟨i, f⟩, ⟨j, g⟩, hu, ht, hhead⟩ :=
    cases_of_map_eq (t.registered?_collect_head fn n b name)
  · simp only [callFindings, hu, ht]
  · have hparams : f.parameters = g.parameters := (Function.eq_of_head hhead).2
    simp only [callFindings, hu, ht, hmain, misapplied, hparams]

end

namespace Node

/-- The type of an expression in a table. -/
def typeIn (t : Table) : Node → Ty
  | literal _ kind _ => Ty.ofLiteralKind kind
  | identifier _ name => t.typeOf name
  | paren _ inner => inner.typeIn t
  | negation .. => .bool
  | binary _ op left right =>
      if isArithmetic op then (left.typeIn t).join (right.typeIn t) else .bool
  | call _ name _ => t.resultOf name
  | _ => .unknown

mutual

/-- The findings of an expression in a table, inside of the function `fn`. -/
def findingsIn (fn : Option FunctionId) (t : Table) : Node → List Finding
  | identifier line name => Check.undeclared t line name
  | paren _ inner | negation _ inner => inner.findingsIn fn t
  | binary _ _ left right => left.findingsIn fn t ++ right.findingsIn fn t
  | call line name args =>
      Check.callFindings t fn line name (args.map (typeIn t)) (findingsInAll fn t args)
  | _ => []

def findingsInAll (fn : Option FunctionId) (t : Table) : List Node → List Finding
  | [] => []
  | e :: es => e.findingsIn fn t ++ findingsInAll fn t es

end

theorem findingsInAll_eq (fn : Option FunctionId) (t : Table) (es : List Node) :
    findingsInAll fn t es = es.flatMap (findingsIn fn t) := by
  induction es with
  | nil => rfl
  | cons e es ih => rw [findingsInAll, ih, List.flatMap_cons]

variable {e : Node} {es : List Node} (t : Table) (fn : Option FunctionId) (n : Notes) (b : Bool)

private theorem IsExpr.typeIn_collect (he : e.IsExpr) :
    e.typeIn (t.collect fn n b) = e.typeIn t := by
  induction he with
  | missing => rfl
  | literal => rfl
  | identifier => exact t.typeOf_collect fn n b _
  | paren _ ih => exact ih
  | negation => rfl
  | binary _ _ ihl ihr => rw [typeIn, ihl, ihr, typeIn]
  | call => exact t.resultOf_collect fn n b _

private theorem map_typeIn_collect (h : ∀ e ∈ es, e.IsExpr) :
    es.map (typeIn (t.collect fn n b)) = es.map (typeIn t) :=
  List.map_congr_left fun e he => (h e he).typeIn_collect t fn n b

private theorem IsExpr.findingsIn_collect (he : e.IsExpr) :
    e.findingsIn fn (t.collect fn n b) = e.findingsIn fn t := by
  induction he with
  | missing => rfl
  | literal => rfl
  | identifier =>
    rw [findingsIn, Check.undeclared, Table.resolve_collect, findingsIn, Check.undeclared]
  | paren _ ih => exact ih
  | negation _ ih => exact ih
  | binary _ _ ihl ihr => rw [findingsIn, ihl, ihr, findingsIn]
  | call ha ih =>
    rw [findingsIn, Check.callFindings_collect, map_typeIn_collect t fn n b ha, findingsInAll_eq,
      List.flatMap_congr ih, ← findingsInAll_eq, findingsIn]

end Node

/-- From every table the visit returns what is read off the table, and it marks the function around
if it is called. -/
def Node.Reads (fn : Option FunctionId) (e : Node) : Prop :=
  ∀ t, (visit fn e).Returns t (t.collect fn .none (e.callees.any (t.callsBack fn)))
    (e.findingsIn fn t) (e.typeIn t)

section

variable {fn : Option FunctionId}

private theorem reads_leaf {e : Node}
    (h : ∀ t, (visit fn e).Returns t t (e.findingsIn fn t) (e.typeIn t)) (hc : e.callees = []) :
    e.Reads fn := by
  intro t
  rw [hc, List.any_nil, Table.collect_none]
  exact h t

/-- A visit sees nothing of the marks that the visits before it leave. -/
theorem Node.Reads.after {e : Node} (h : e.Reads fn) (he : e.IsExpr) (t : Table) (b : Bool) :
    (visit fn e).Returns (t.collect fn .none b)
      (t.collect fn .none (b || e.callees.any (t.callsBack fn))) (e.findingsIn fn t)
      (e.typeIn t) := by
  have hcalls : (t.collect fn .none b).callsBack fn = t.callsBack fn :=
    funext (t.callsBack_collect fn .none b)
  have hr := h (t.collect fn .none b)
  rwa [he.findingsIn_collect, he.typeIn_collect, hcalls, Table.collect_collect,
    Notes.none_append] at hr

private theorem visitAll_reads {es : List Node} (he : ∀ e ∈ es, e.IsExpr) (h : ∀ e ∈ es, e.Reads fn)
    (t : Table) (b : Bool) :
    (visitAll fn es).Returns (t.collect fn .none b)
      (t.collect fn .none (b || (es.flatMap callees).any (t.callsBack fn)))
      (findingsInAll fn t es) (es.map (typeIn t)) := by
  induction es generalizing b with
  | nil =>
    rw [List.flatMap_nil, List.any_nil, Bool.or_false]
    exact .visitAll_nil fn _
  | cons e es ih =>
    have hfirst := (h e (by simp)).after (he e (by simp)) t b
    have hrest := ih (fun d hd => he d (by simp [hd])) (fun d hd => h d (by simp [hd]))
      (b || e.callees.any (t.callsBack fn))
    rw [List.flatMap_cons, List.any_append, ← Bool.or_assoc]
    exact hfirst.visitAll_cons hrest

/-- The visit of an expression returns what is read off the table before it. -/
theorem visit_reads {e : Node} (he : e.IsExpr) (fn : Option FunctionId) : e.Reads fn := by
  induction he with
  | missing => exact reads_leaf (fun t => .pure _ t) rfl
  | literal => exact reads_leaf (fun t => .pure _ t) rfl
  | identifier => exact reads_leaf (fun t => Check.returns_identifierUse _ _ t) rfl
  | paren _ ih => exact ih
  | negation _ ih => exact fun t => (ih t).bind_silent (.pure _ _)
  | @binary line op left right _ hr ihl ihr =>
    intro t
    rw [callees_binary, List.any_append]
    exact (ihl t).bind ((ihr.after hr t _).bind_silent (.pure _ _))
  | @call line name args ha ih =>
    intro t
    rw [callees_call, List.any_cons]
    exact Check.returns_call (visitAll_reads ha ih t (t.callsBack fn name))

theorem results_eq {es : List Node} (h : ∀ e ∈ es, e.IsExpr) (fn : Option FunctionId) (t : Table) :
    (es.map fun e => ((visit fn e).run t).result) = (es.map (typeIn t)).map Except.ok := by
  rw [List.map_map]
  exact List.map_congr_left fun e he => congrArg Outcome.result (visit_reads (h e he) fn t)

theorem findings_eq {es : List Node} (h : ∀ e ∈ es, e.IsExpr) (fn : Option FunctionId)
    (t : Table) :
    (es.flatMap fun e => ((visit fn e).run t).findings) = es.flatMap (findingsIn fn t) :=
  List.flatMap_congr fun e he => congrArg Outcome.findings (visit_reads (h e he) fn t)

private theorem Table.any_callsBack {t : Table} {f : Function} (h : t.around fn = some f)
    (names : List String) :
    names.any (t.callsBack fn) = (names.contains f.name && (t.registered? f.name).isSome) := by
  have hone : ∀ name, t.callsBack fn name = true ↔
      name = f.name ∧ (t.registered? f.name).isSome = true := by
    intro name
    rw [callsBack, h, Option.any_some, Bool.and_eq_true, beq_iff_eq, and_comm, eq_comm]
    exact and_congr_right fun hname => by rw [hname]
  rw [Bool.eq_iff_iff, List.any_eq_true, Bool.and_eq_true, List.contains_iff_mem]
  constructor
  · rintro ⟨name, hmem, hcalls⟩
    obtain ⟨rfl, hknown⟩ := (hone name).mp hcalls
    exact ⟨hmem, hknown⟩
  · rintro ⟨hmem, hknown⟩
    exact ⟨f.name, hmem, (hone f.name).mpr ⟨rfl, hknown⟩⟩

end

/-- A visit of an expression returns. It leaves the scopes, the registry and all records as they
were, except that the function around is marked as recursive if the expression calls it by its name
and a function is registered under that name. A second visit returns the same type with the same
findings, and leaves the table as the first left it. -/
theorem expression_visit_frame {e : Node} (he : e.IsExpr) (fn : Option FunctionId) (t : Table) :
    ∃ u fs type, (visit fn e).Returns t u fs type ∧
      u.scopes = t.scopes ∧ u.registry = t.registry ∧
      (∀ id, u.record? id = (t.record? id).map fun f =>
        if fn = some id then
          { f with isRecursive :=
              f.isRecursive || (e.callees.contains f.name && (t.registered? f.name).isSome) }
        else f) ∧
      (visit fn e).Returns u u fs type := by
  have hagain := (visit_reads he fn).after he t (e.callees.any (t.callsBack fn))
  rw [Bool.or_self] at hagain
  refine ⟨_, _, _, visit_reads he fn t, Table.scopes_collect .., Table.registry_collect .., ?_,
    hagain⟩
  intro id
  rw [Table.record?_collect]
  cases hf : t.record? id with
  | none => rfl
  | some f =>
    rw [Option.map_some, Option.map_some]
    split
    · rename_i hfn
      have haround : t.around fn = some f := by
        rw [hfn]
        exact hf
      rw [Table.any_callsBack haround]
      simp [Function.collect, Notes.none]
    · rfl

/-- The function `f` is called in an argument of a call with too many arguments, and `x` is not
declared. -/
theorem expression_visit_frame_nested_call :
    let f : Function := .declared "f" .int 1 []
    let t : Table := ⟨.empty, [], ⟨[("f", 0), ("g", 1)]⟩, [f, .declared "g" .bool 2 []]⟩
    let e : Node := .binary 3 "+" (.call 3 "g" [.call 3 "f" []]) (.identifier 4 "x")
    let fs : List Finding := [⟨some 3, .argumentCount "g" 0 1⟩, ⟨some 4, .variableUndeclared "x"⟩]
    e.IsExpr ∧ ∃ u, (visit (some 0) e).Returns t u fs .unknown ∧
      u.record? 0 = some { f with isRecursive := true } ∧ u.record? 1 = t.record? 1 ∧
      (visit (some 0) e).Returns u u fs .unknown := by
  intro f t e fs
  have he : e.IsExpr := (isExpr_iff e).mp rfl
  obtain ⟨u, gs, type, hr, -, -, hrecords, hagain⟩ := expression_visit_frame he (some 0) t
  have hrun : (visit (some 0) e).Returns t _ fs .unknown := rfl
  obtain ⟨-, rfl, rfl⟩ := hr.unique hrun
  exact ⟨he, u, hr, (hrecords 0).trans (by decide), (hrecords 1).trans rfl, hagain⟩

end MiniCheck
