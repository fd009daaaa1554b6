import MiniCheck.Proofs.Expressions

/-!
# Arithmetic

The type of an arithmetic expression depends on the set of the types of its operands. Their order,
the parentheses between them and the operators do not matter, although types that are no numbers
count as numbers only after an operation.
-/

namespace MiniCheck

open Pass Node

namespace Ty

/-- The type of an operation over operands of the types. -/
def ofOperands (types : List Ty) : Ty :=
  if types.any isSentinel then unknown
  else if types.contains string then string
  else if types.contains double then double
  else if types.contains float then float
  else int

private theorem ofOperands_congr {types types' : List Ty}
    (h : ∀ type, type ∈ types' ↔ type ∈ types) :
    ofOperands types' = ofOperands types := by
  simp only [ofOperands, List.any_eq_true, List.contains_iff_mem, h]

private theorem join_assoc (a b c : Ty) : (a.join b).join c = a.join (b.join c) := by
  cases a <;> cases b <;> cases c <;> rfl

private theorem join_join_int (a b : Ty) : (a.join b).join int = a.join b := by
  cases a <;> cases b <;> rfl

private theorem int_join_join (a b : Ty) : int.join (a.join b) = a.join b := by
  cases a <;> cases b <;> rfl

private theorem ofOperands_cons (a : Ty) (types : List Ty) :
    ofOperands (a :: types) = a.join (ofOperands types) := by
  simp only [ofOperands, List.any_cons, List.contains_cons]
  generalize types.any isSentinel = noType
  generalize types.contains string = hasString
  generalize types.contains double = hasDouble
  generalize types.contains float = hasFloat
  cases a <;> cases noType <;> cases hasString <;> cases hasDouble <;> cases hasFloat <;> rfl

private theorem ofOperands_append (types types' : List Ty) :
    ofOperands (types ++ types') = (ofOperands types).join (ofOperands types') := by
  induction types with
  | nil =>
    cases types' with
    | nil => rfl
    | cons a types' =>
      rw [List.nil_append, ofOperands_cons]
      exact (int_join_join _ _).symm
  | cons a types ih => rw [List.cons_append, ofOperands_cons, ih, ofOperands_cons, join_assoc]

private theorem ofOperands_join (a b : Ty) : ofOperands [a.join b] = a.join b := by
  rw [ofOperands_cons]
  exact join_join_int a b

end Ty

/-- The expression is put together from the operands, in their order, by arithmetic operations and
parentheses. It has an operation if there is more than one operand. -/
inductive Node.ArithmeticOver : Node → List Node → Prop
  | operand {e} : e.IsExpr → ArithmeticOver e [e]
  | paren {line e es} : ArithmeticOver e es → ArithmeticOver (.paren line e) es
  | binary {line op left right ls rs} : isArithmetic op = true → ArithmeticOver left ls →
      ArithmeticOver right rs → ArithmeticOver (.binary line op left right) (ls ++ rs)

namespace Node.ArithmeticOver

variable {e : Node} {es : List Node}

private theorem isExpr (h : e.ArithmeticOver es) : e.IsExpr := by
  induction h with
  | operand he => exact he
  | paren _ ih => exact .paren ih
  | binary _ _ _ ihl ihr => exact .binary ihl ihr

private theorem isExpr_operands (h : e.ArithmeticOver es) : ∀ a ∈ es, a.IsExpr := by
  induction h with
  | operand he => exact List.forall_mem_singleton.mpr he
  | paren _ ih => exact ih
  | binary _ _ _ ihl ihr => exact List.forall_mem_append.mpr ⟨ihl, ihr⟩

private theorem findingsIn_eq (h : e.ArithmeticOver es) (fn : Option FunctionId) (t : Table) :
    e.findingsIn fn t = es.flatMap (findingsIn fn t) := by
  induction h with
  | operand => exact (List.append_nil _).symm
  | paren _ ih => exact ih
  | binary _ _ _ ihl ihr => rw [findingsIn, ihl, ihr, List.flatMap_append]

/-- As an operand of a further operation, the expression counts as much as its own operands. -/
theorem ofOperands_eq (h : e.ArithmeticOver es) (t : Table) :
    Ty.ofOperands [e.typeIn t] = Ty.ofOperands (es.map (typeIn t)) := by
  induction h with
  | operand => rfl
  | paren _ ih => exact ih
  | @binary line op left right ls rs hop _ _ ihl ihr =>
    have hboth : Ty.ofOperands [left.typeIn t, right.typeIn t] =
        (left.typeIn t).join (right.typeIn t) := by
      rw [Ty.ofOperands_cons, Ty.ofOperands_cons, ← Ty.join_assoc]
      exact Ty.join_join_int ..
    have htype : (Node.binary line op left right).typeIn t =
        (left.typeIn t).join (right.typeIn t) := if_pos hop
    calc Ty.ofOperands [(Node.binary line op left right).typeIn t]
        = Ty.ofOperands ([left.typeIn t] ++ [right.typeIn t]) := by
          rw [htype, Ty.ofOperands_join]
          exact hboth.symm
      _ = Ty.ofOperands ((ls ++ rs).map (typeIn t)) := by
          rw [Ty.ofOperands_append, ihl, ihr, List.map_append, Ty.ofOperands_append]

private theorem typeIn_eq_join (h : e.ArithmeticOver es) (hmany : 1 < es.length) (t : Table) :
    ∃ a b : Ty, e.typeIn t = a.join b := by
  induction h with
  | operand => exact absurd hmany (Nat.lt_irrefl 1)
  | paren _ ih => exact ih hmany
  | binary hop => exact ⟨_, _, if_pos hop⟩

private theorem typeIn_eq (h : e.ArithmeticOver es) (hmany : 1 < es.length) (t : Table) :
    e.typeIn t = Ty.ofOperands (es.map (typeIn t)) := by
  obtain ⟨a, b, hjoin⟩ := h.typeIn_eq_join hmany t
  rw [← h.ofOperands_eq t, hjoin, Ty.ofOperands_join]

end Node.ArithmeticOver

/-- Arithmetic over two or more operands. Each operand returns from the table in which the visit
begins, and the type of the whole is that of an operation over the types of the operands; the
findings are those of the operands in their order. Any arithmetic over operands of the same types
has the same type, whichever way it is put together. -/
theorem arithmetic_type_of_operands {e : Node} {es : List Node} (h : e.ArithmeticOver es)
    (hmany : 1 < es.length) (fn : Option FunctionId) (t : Table) :
    let result (a : Node) := ((visit fn a).run t).result
    let findings (a : Node) := ((visit fn a).run t).findings
    ∃ u types, es.map result = types.map .ok ∧
      (visit fn e).Returns t u (es.flatMap findings) (Ty.ofOperands types) ∧
      ∀ e' es', e'.ArithmeticOver es' → 1 < es'.length →
        (∀ r, r ∈ es'.map result ↔ r ∈ es.map result) →
        ∃ u', (visit fn e').Returns t u' (es'.flatMap findings) (Ty.ofOperands types) := by
  intro result findings
  have hreturns : ∀ {e : Node} {es : List Node}, e.ArithmeticOver es → 1 < es.length →
      ∃ u, (visit fn e).Returns t u (es.flatMap findings)
        (Ty.ofOperands (es.map (typeIn t))) := by
    intro e es h hmany
    have hr := visit_reads h.isExpr fn t
    rw [h.findingsIn_eq, ← findings_eq h.isExpr_operands, h.typeIn_eq hmany] at hr
    exact ⟨_, hr⟩
  obtain ⟨u, hr⟩ := hreturns h hmany
  have htypes := results_eq h.isExpr_operands fn t
  refine ⟨u, _, htypes, hr, ?_⟩
  intro e' es' h' hmany' hsame
  have htypes' := results_eq h'.isExpr_operands fn t
  have hset : ∀ type, type ∈ es'.map (typeIn t) ↔ type ∈ es.map (typeIn t) := by
    intro type
    have hr := hsame (.ok type)
    change .ok type ∈ es'.map (fun a => ((visit fn a).run t).result) ↔
      .ok type ∈ es.map (fun a => ((visit fn a).run t).result) at hr
    rw [htypes, htypes'] at hr
    simpa using hr
  rw [← Ty.ofOperands_congr hset]
  exact hreturns h' hmany'

/-- A truth value, a `float` variable and a call with a finding, put together in two ways. -/
theorem arithmetic_type_of_operands_reordered :
    let x : Variable := ⟨"x", .float, 1, false, none⟩
    let f : Function := .declared "f" .double 2 []
    let t : Table := ⟨⟨[("x", .variable x)]⟩, [], ⟨[("f", 0)]⟩, [f]⟩
    let es : List Node :=
      [.literal 3 "bool" "true", .identifier 3 "x", .call 3 "f" [.literal 3 "int" "1"]]
    let e : Node := .binary 3 "+" (.paren 3 (.binary 3 "-" es[0] es[1])) es[2]
    let e' : Node := .binary 4 "%" es[2] (.binary 4 "*" es[1] es[0])
    let fs : List Finding := [⟨some 3, .argumentCount "f" 0 1⟩]
    e.ArithmeticOver es ∧ e'.ArithmeticOver es.reverse ∧
      (∃ u, (visit none e).Returns t u fs .double) ∧
      ∃ u, (visit none e').Returns t u fs .double := by
  intro x f t es e e' fs
  have hexpr : ∀ a ∈ es, a.IsExpr := fun a ha => (isExpr_iff a).mp (by revert a; decide)
  have h : e.ArithmeticOver es :=
    .binary rfl (.paren (.binary rfl (.operand (hexpr _ (by simp [es])))
      (.operand (hexpr _ (by simp [es]))))) (.operand (hexpr _ (by simp [es])))
  have h' : e'.ArithmeticOver es.reverse :=
    .binary rfl (.operand (hexpr _ (by simp [es])))
      (.binary rfl (.operand (hexpr _ (by simp [es]))) (.operand (hexpr _ (by simp [es]))))
  obtain ⟨u, types, htypes, hr, hother⟩ := arithmetic_type_of_operands h (by decide) none t
  have hrun : (visit none e).Returns t _ fs .double := rfl
  obtain ⟨-, -, htype⟩ := hr.unique hrun
  obtain ⟨u', hr'⟩ := hother e' es.reverse h' (by decide) fun r => by simp
  rw [htype] at hr hr'
  exact ⟨h, h', ⟨u, hr⟩, u', hr'⟩

end MiniCheck
