import MiniCheck.Proofs.Evolution
import MiniCheck.Proofs.Locality

/-!
# Where the variables of a table come from

Every variable that a pass puts into a scope or into the record of a function is declared in the
program, as a variable or as a parameter, and every record has the name of a function of the
program. A property of all that a program declares is a property of all that the table holds
afterwards, also if the pass ends with a fault. -/

namespace MiniCheck

open Pass Node

variable {V : Variable → Prop} {N : String → Prop}

/-- The variables and parameters that are declared in the node have `V`, and the names of its
functions have `N`. -/
structure Node.DeclaresOnly (V : Variable → Prop) (N : String → Prop) (n : Node) : Prop where
  declared : ∀ {path m v}, n.node? path = some m → m.declared? = some v → V v
  functions : ∀ {path line name returnText params body},
    n.node? path = some (.funcDecl line name returnText params body) →
      N name ∧ ∀ p ∈ params, V p.variable

private theorem Node.node?_nil (n : Node) : n.node? [] = some n := rfl

private theorem Node.DeclaresOnly.child {n c : Node} (h : n.DeclaresOnly V N)
    (hc : c ∈ n.children) :
    c.DeclaresOnly V N := by
  obtain ⟨i, hi⟩ := List.mem_iff_getElem?.mp hc
  have hbelow : ∀ path, n.node? (i :: path) = c.node? path := by
    intro path
    rw [node?, hi, Option.bind_some]
  refine ⟨?_, ?_⟩
  · intro path m v hm hv
    exact h.declared ((hbelow path).trans hm) hv
  · intro path line name returnText params body hf
    exact h.functions ((hbelow path).trans hf)

private theorem Node.names_of_child {n c : Node} (hc : c ∈ n.children) {x : String}
    (hx : x ∈ c.names) :
    x ∈ n.names := by
  have hall : ∀ {ns : List Node}, c ∈ ns → x ∈ namesAll ns :=
    fun hm => forall_namesAll.mp (fun _ => id) c hm x hx
  cases n with
  | program => exact hall hc
  | block => exact hall hc
  | call => exact List.mem_cons_of_mem _ (hall hc)
  | funcDecl line name returnText params body =>
    cases body with
    | block => exact List.mem_cons_of_mem _ (List.mem_append_right _ (hall hc))
    | _ => cases hc
  | _ => grind [children, names]

/-- The names that stand in a node include those that are declared in it. -/
theorem Node.DeclaresOnly.of_names {n : Node} (h : ∀ x ∈ n.names, N x) :
    n.DeclaresOnly (fun v => N v.name) N := by
  have hbelow : ∀ {path m x}, n.node? path = some m → x ∈ m.names → N x := by
    intro path m x hm hx
    induction path generalizing n with
    | nil =>
      cases hm
      exact h x hx
    | cons i path ih =>
      obtain ⟨c, hc, hm⟩ := Option.bind_eq_some_iff.mp hm
      exact ih (fun y hy => h y (names_of_child (List.mem_of_getElem? hc) hy)) hm
  refine ⟨?_, ?_⟩
  · intro path m v hm hv
    cases m with
    | varDecl =>
      cases hv
      exact hbelow hm (by simp [names])
    | _ => cases hv
  · intro path line name returnText params body hf
    refine ⟨hbelow hf (by simp [names]), fun p hp => hbelow hf ?_⟩
    exact List.mem_cons_of_mem _ (List.mem_append_left _ (List.mem_map_of_mem hp))

structure Function.Holds (V : Variable → Prop) (N : String → Prop) (f : Function) : Prop where
  name : N f.name
  parameters : ∀ v ∈ f.parameters, V v
  locals : ∀ v ∈ f.locals, V v

/-- The variables of the scopes and of the records have `V`, and the names of the records have
`N`. -/
structure Table.Holds (V : Variable → Prop) (N : String → Prop) (t : Table) : Prop where
  scopes : ∀ s ∈ t.scopes, ∀ v, Symbol.variable v ∈ s.values → V v
  records : ∀ f ∈ t.records, f.Holds V N

namespace Function.Holds

variable {f : Function}

private theorem addParameter {v : Variable} (h : f.Holds V N) (hv : V v) :
    (f.addParameter v).Holds V N := by
  refine ⟨h.name, ?_, h.locals⟩
  rw [Function.addParameter, List.forall_mem_append]
  exact ⟨h.parameters, by simpa using hv⟩

private theorem addLocal {v : Variable} (h : f.Holds V N) (hv : V v) :
    (f.addLocal v).Holds V N := by
  refine ⟨h.name, h.parameters, ?_⟩
  rw [Function.addLocal, List.forall_mem_append]
  exact ⟨h.locals, by simpa using hv⟩

end Function.Holds

namespace Table.Holds

variable {t u : Table}

private theorem empty : Table.empty.Holds V N := by
  refine ⟨?_, List.forall_mem_nil _⟩
  intro s hs v hv
  rw [List.mem_singleton.mp hs] at hv
  cases hv

private theorem enter (h : t.Holds V N) : t.enter.Holds V N := by
  refine ⟨?_, h.records⟩
  rw [scopes_enter, List.forall_mem_cons]
  exact ⟨by rintro v ⟨⟩, h.scopes⟩

private theorem exit (h : t.Holds V N) (hu : t.exit? = some u) : u.Holds V N := by
  obtain ⟨hscopes, -, hrecords⟩ := scopes_of_exit? hu
  refine ⟨fun s hs => h.scopes s ?_, by rw [← hrecords]; exact h.records⟩
  rw [hscopes]
  exact List.mem_cons_of_mem _ hs

private theorem push {s : Scope} {name : String} {x : Symbol}
    (h : ∀ v, Symbol.variable v ∈ s.values → V v) (hx : ∀ v, x = .variable v → V v) :
    ∀ v, Symbol.variable v ∈ (s.push name x).values → V v := by
  intro v hv
  rw [NameMap.values_push, List.mem_append, List.mem_singleton] at hv
  rcases hv with hv | hv
  · exact h v hv
  · exact hx v hv.symm

private theorem defineVariable {v : Variable} (h : t.Holds V N) (hv : V v) :
    (t.defineVariable v).2.Holds V N := by
  obtain ⟨hcurrent, henclosing⟩ := List.forall_mem_cons.mp h.scopes
  unfold Table.defineVariable
  split
  · exact h
  · refine ⟨List.forall_mem_cons.mpr ⟨push hcurrent ?_, henclosing⟩, h.records⟩
    rintro w ⟨⟩
    exact hv

private theorem updateFunction {change : Function → Function} (h : t.Holds V N) (id : FunctionId)
    (hc : ∀ f : Function, f.Holds V N → (change f).Holds V N) :
    (t.updateFunction id change).Holds V N := by
  refine ⟨h.scopes, ?_⟩
  intro g hg
  obtain ⟨i, hi⟩ := List.mem_iff_getElem?.mp hg
  rw [Table.updateFunction, List.getElem?_modify] at hi
  obtain ⟨f, hf, rfl⟩ := Option.map_eq_some_iff.mp hi
  have hold := h.records f (List.mem_of_getElem? hf)
  split
  · exact hc f hold
  · exact hold

private theorem note {change : Function → Function} (h : t.Holds V N) (fn : Option FunctionId)
    (hc : ∀ f : Function, f.Holds V N → (change f).Holds V N) : (t.note fn change).Holds V N := by
  cases fn with
  | none => exact h
  | some id => exact h.updateFunction id hc

private theorem declare {f : Function} (h : t.Holds V N) (hf : f.Holds V N) :
    (t.declare f).Holds V N := by
  obtain ⟨hcurrent, henclosing⟩ := List.forall_mem_cons.mp h.scopes
  refine ⟨?_, ?_⟩
  · unfold Table.declare Table.defineFunction
    split
    · exact h.scopes
    · exact List.forall_mem_cons.mpr ⟨push hcurrent nofun, henclosing⟩
  · rw [records_declare, List.forall_mem_append]
    exact ⟨h.records, by simpa using hf⟩

private theorem addParameters {params : List Variable} (h : t.Holds V N) (id : FunctionId)
    (hp : ∀ v ∈ params, V v) : (params.foldl (Table.addParameter id) t).Holds V N := by
  induction params generalizing t with
  | nil => exact h
  | cons v params ih =>
    obtain ⟨hv, hp⟩ := List.forall_mem_cons.mp hp
    exact ih ((h.defineVariable hv).updateFunction id fun f hf => hf.addParameter hv) hp

theorem globalVariables (h : t.Holds V N) : ∀ v ∈ t.globalVariables, V v := by
  intro v hv
  have hglobal : t.global ∈ t.scopes := by
    rw [global, Table.scopes, List.getLastD_eq_getLast?]
    cases hlast : t.enclosing.getLast? with
    | none => exact List.mem_cons_self
    | some s => exact List.mem_cons_of_mem _ (List.mem_of_getLast? hlast)
  obtain ⟨x, hx, hxv⟩ := List.mem_filterMap.mp hv
  cases x with
  | function id => cases hxv
  | «variable» =>
    cases hxv
    exact h.scopes _ hglobal _ hx

theorem functions (h : t.Holds V N) : ∀ e ∈ t.functions, e.2.Holds V N := by
  intro e he
  obtain ⟨entry, -, hentry⟩ := List.mem_filterMap.mp he
  obtain ⟨f, hf, rfl⟩ := Option.map_eq_some_iff.mp hentry
  exact h.records f (List.mem_of_getElem? hf)

end Table.Holds

/-- The pass keeps a property of the table, whether or not it ends with a fault. -/
def Pass.Keeps {α : Type} (I : Table → Prop) (p : Pass α) : Prop :=
  ∀ t, I t → I (p.run t).table

namespace Pass.Keeps

variable {α β : Type} {I : Table → Prop}

private theorem of_returns {p : Pass α} (h : ∀ t, I t → ∃ u fs a, p.Returns t u fs a ∧ I u) :
    p.Keeps I := by
  intro t ht
  obtain ⟨u, fs, a, hr, hu⟩ := h t ht
  rw [hr.run_table]
  exact hu

private theorem of_same {p : Pass α} (h : ∀ t, (p.run t).table = t) : p.Keeps I := by
  intro t ht
  rw [h t]
  exact ht

private theorem pure (a : α) : (Pure.pure a : Pass α).Keeps I := of_same fun _ => rfl

private theorem report (line : Int) (v : Violation) :
    (Pass.report line v).Keeps I := of_same fun _ => rfl

private theorem reportIf (c : Bool) (line : Int) (v : Violation) :
    (Pass.reportIf c line v).Keeps I :=
  of_same fun t => (Returns.reportIf c line v t).run_table

private theorem updateEnclosing {fn : Option FunctionId} {change : Function → Function}
    (h : ∀ t, I t → I (t.note fn change)) : (Pass.updateEnclosing fn change).Keeps I :=
  of_returns fun t ht => ⟨_, _, _, .updateEnclosing fn change t, h t ht⟩

private theorem bind_of_returns {p : Pass α} {f : α → Pass β} (hp : p.Keeps I)
    (hf : ∀ {t u fs a}, p.Returns t u fs a → (f a).Keeps I) : (p >>= f).Keeps I := by
  intro t ht
  have hu := hp t ht
  rcases p.returns_or_stops t with ⟨u, fs, a, h⟩ | ⟨u, fs, e, h⟩
  · have hr : (p.run t).result = .ok a := by rw [h]
    rw [run_bind_of_ok hr]
    exact hf h _ hu
  · rw [h] at hu
    rw [h.bind]
    exact hu

private theorem bind {p : Pass α} {f : α → Pass β} (hp : p.Keeps I) (hf : ∀ a, (f a).Keeps I) :
    (p >>= f).Keeps I :=
  hp.bind_of_returns fun {_ _ _ a} _ => hf a

private theorem inScope {p : Pass α} (henter : ∀ t, I t → I t.enter)
    (hexit : ∀ t u, I t → t.exit? = some u → I u) (hp : p.Keeps I) : (Pass.inScope p).Keeps I := by
  have hleave : Pass.exitScope.Keeps I := by
    intro t ht
    rw [run, Pass.exitScope]
    cases hx : t.exit? with
    | none => exact ht
    | some u => exact hexit t u ht hx
  have hopen : (Pass.update Table.enter).Keeps I := fun t ht => henter t ht
  exact hopen.bind fun _ => hp.bind fun _ => hleave.bind fun _ => pure _

end Pass.Keeps

namespace Check

variable {fn : Option FunctionId} {line : Int} {name : String}

private theorem declared?_of_initializer {typeText : Option String} {isConst : Bool} {init : Node}
    {initText text : Option String} {visitInit : Pass Ty} {t u : Table} {fs : List Finding}
    (h : (initializer line name (Ty.ofText typeText) isConst init initText visitInit).Returns
      t u fs text) :
    (Node.varDecl line name typeText isConst init initText).declared? =
      some ⟨name, Ty.ofText typeText, line, isConst, text⟩ := by
  rw [declared?]
  cases hm : init.isMissing with
  | true =>
    rw [(h.unique (returns_initializer_missing _ _ _ _ hm t)).2.2]
    rfl
  | false =>
    simp only [initializer, hm, Bool.false_eq_true, if_false] at h ⊢
    obtain ⟨_, _, got, _, -, h, -⟩ := h.of_bind
    obtain ⟨w, _, written, _, htext, h, -⟩ := h.of_bind
    obtain ⟨_, _, _, _, -, h, -⟩ := h.of_bind
    cases h
    cases hr : initTextOf init initText with
    | error e =>
      rw [hr] at htext
      cases htext
    | ok s =>
      rw [hr] at htext
      cases htext
      rfl

private theorem keeps_variableDecl {typeText : Option String} {isConst : Bool} {init : Node}
    {initText : Option String} {visitInit : Pass Ty} (hi : visitInit.Keeps (Table.Holds V N))
    (hv : ∀ v, (Node.varDecl line name typeText isConst init initText).declared? = some v → V v) :
    (variableDecl fn line name typeText isConst init initText visitInit).Keeps
      (Table.Holds V N) := by
  have hinit : (initializer line name (Ty.ofText typeText) isConst init initText
      visitInit).Keeps (Table.Holds V N) := by
    rw [initializer]
    split
    · exact .bind (.reportIf _ _ _) fun _ => .pure _
    · refine .bind hi fun got => .bind (.of_same fun _ => rfl) fun text => ?_
      exact .bind (.reportIf _ _ _) fun _ => .pure _
  refine .bind (.of_same fun _ => rfl) fun t => .bind (.of_same fun _ => rfl) fun around => ?_
  refine .bind (.reportIf _ _ _) fun _ => .bind (.of_same fun t => ?_) fun _ => ?_
  · exact (returns_parameterConflicts around line name t).run_table
  -- The text that is bound is the one that the initializer returned.
  · refine hinit.bind_of_returns fun {_ _ _ text} h => ?_
    have hdeclared := hv _ (declared?_of_initializer h)
    refine .bind (fun t ht => ht.defineVariable hdeclared) fun _ => .bind (.updateEnclosing ?_)
      fun _ => .pure _
    exact fun t ht => ht.note fn fun f hf => hf.addLocal hdeclared

private theorem keeps_functionDecl {returnText : Option String} {params : List Param}
    {visitBody : FunctionId → Pass Unit} (hname : N name) (hparams : ∀ p ∈ params, V p.variable)
    (hb : ∀ id, (visitBody id).Keeps (Table.Holds V N)) :
    (functionDecl line name returnText params visitBody).Keeps (Table.Holds V N) := by
  refine .bind (.of_same fun _ => rfl) fun t => ?_
  split
  · exact .bind (.report _ _) fun _ => .pure _
  · have hhead : (head line name returnText).Holds V N :=
      ⟨hname, List.forall_mem_nil _, List.forall_mem_nil _⟩
    refine .bind (.of_returns fun t ht => ⟨_, _, _, returns_declareFunction _ t, ht.declare hhead⟩)
      fun id => .bind (.inScope (fun _ => .enter) (fun _ _ => .exit) ?_) fun _ => .pure _
    refine .bind (.of_returns fun t ht => ⟨_, _, _, returns_declareParameters id name params t, ?_⟩)
      fun _ => .bind (hb id) fun _ => .of_same fun t => ?_
    · exact ht.addParameters id (by simpa using hparams)
    · exact (returns_functionEnd id line name _ t).run_table

private theorem keeps_assignment {I : Table → Prop} {visitValue : Pass Ty}
    (hv : visitValue.Keeps I) :
    (assignment line name visitValue).Keeps I := by
  refine .bind (.of_same fun _ => rfl) fun t => ?_
  cases t.resolve name with
  | none => exact .bind (.report _ _) fun _ => .pure _
  | some s =>
    cases s with
    | function id => exact .bind (.report _ _) fun _ => .pure _
    | «variable» v =>
      refine .bind (.reportIf _ _ _) fun _ => .bind hv fun got => ?_
      exact .bind (.reportIf _ _ _) fun _ => .pure _

private theorem keeps_returning {value : Node} {visitValue : Pass Ty}
    (hv : visitValue.Keeps (Table.Holds V N)) :
    (returning fn line value visitValue).Keeps (Table.Holds V N) := by
  refine .bind (.of_same fun _ => rfl) fun around => ?_
  cases around with
  | none => exact .bind (.report _ _) fun _ => .pure _
  | some f =>
    refine .bind (.updateEnclosing fun t ht => ht.note fn fun _ hf => ⟨hf.1, hf.2, hf.3⟩)
      fun _ => ?_
    dsimp only
    split
    · exact .bind (.pure _) fun _ => .bind (.reportIf _ _ _) fun _ => .pure _
    · exact .bind hv fun _ => .bind (.reportIf _ _ _) fun _ => .pure _

private theorem keeps_functionCall {visitArgs : Pass (List Ty)}
    (hv : visitArgs.Keeps (Table.Holds V N)) :
    (functionCall fn line name visitArgs).Keeps (Table.Holds V N) := by
  refine .bind (.of_same fun _ => rfl) fun t => ?_
  cases t.registered? name with
  | none => exact .bind (.report _ _) fun _ => .bind hv fun _ => .pure _
  | some found =>
    refine .bind (.of_same fun _ => rfl) fun around => .bind (.reportIf _ _ _) fun _ =>
      .bind ?_ fun _ => .bind hv fun got => .bind (.of_same fun t => ?_) fun _ => .pure _
    · rw [selfCall]
      split
      · exact .updateEnclosing fun t ht => ht.note fn fun _ hf => ⟨hf.1, hf.2, hf.3⟩
      · exact .pure _
    · exact (returns_application line name found.2 got t).run_table

end Check

mutual

/-- What all declarations of a node have, the table has after its visit. -/
theorem visit_keeps (fn : Option FunctionId) (n : Node) (h : n.DeclaresOnly V N) :
    (visit fn n).Keeps (Table.Holds V N) := by
  have hcontrol : ∀ c, (updateEnclosing fn (·.addControl c)).Keeps (Table.Holds V N) :=
    fun c => .updateEnclosing fun t ht => ht.note fn fun _ hf => ⟨hf.1, hf.2, hf.3⟩
  cases n with
  | missing => exact .pure _
  | program line decls => exact .bind (visitAll_keeps none decls fun _ => h.child) fun _ => .pure _
  | block line statements =>
    refine .inScope (fun _ => .enter) (fun _ _ => .exit) ?_
    exact .bind (visitAll_keeps fn statements fun _ => h.child) fun _ => .pure _
  | varDecl line name typeText isConst init initText =>
    refine Check.keeps_variableDecl (visit_keeps fn init (h.child (by simp [children]))) ?_
    exact fun v hv => h.declared (node?_nil _) hv
  | param p => exact .of_same fun _ => rfl
  | funcDecl line name returnText params body =>
    obtain ⟨hname, hparams⟩ := h.functions (node?_nil _)
    exact Check.keeps_functionDecl hname hparams fun id =>
      visitBody_keeps (some id) body fun _ => h.child
  | assign line name op value =>
    exact Check.keeps_assignment (visit_keeps fn value (h.child (by simp [children])))
  | ifElse line cond thenBranch elseBranch =>
    refine .bind (hcontrol _) fun _ => .bind (visit_keeps fn cond ?_) fun _ =>
      .bind (visit_keeps fn thenBranch ?_) fun _ => .bind (visit_keeps fn elseBranch ?_) fun _ =>
      .pure _ <;> exact h.child (by simp [children])
  | forLoop line init cond update body =>
    refine .bind (hcontrol _) fun _ => .bind (visit_keeps fn init ?_) fun _ =>
      .bind (visit_keeps fn cond ?_) fun _ => .bind (visit_keeps fn update ?_) fun _ =>
      .bind (visit_keeps fn body ?_) fun _ => .pure _ <;> exact h.child (by simp [children])
  | whileLoop line cond body =>
    refine .bind (hcontrol _) fun _ => .bind (visit_keeps fn cond ?_) fun _ =>
      .bind (visit_keeps fn body ?_) fun _ => .pure _ <;> exact h.child (by simp [children])
  | ret line value =>
    exact Check.keeps_returning (visit_keeps fn value (h.child (by simp [children])))
  | exprStmt line e =>
    exact .bind (visit_keeps fn e (h.child (by simp [children]))) fun _ => .pure _
  | callStmt line e =>
    exact .bind (visit_keeps fn e (h.child (by simp [children]))) fun _ => .pure _
  | call line name args =>
    exact Check.keeps_functionCall (visitAll_keeps fn args fun _ => h.child)
  | literal line kind text => exact .pure _
  | identifier line name =>
    refine .bind (.of_same fun _ => rfl) fun t => ?_
    cases t.resolve name with
    | none => exact .bind (.report _ _) fun _ => .pure _
    | some s => cases s <;> exact .pure _
  | paren line inner => exact visit_keeps fn inner (h.child (by simp [children]))
  | negation line inner =>
    exact .bind (visit_keeps fn inner (h.child (by simp [children]))) fun _ => .pure _
  | binary line op left right =>
    refine .bind (visit_keeps fn left ?_) fun _ => .bind (visit_keeps fn right ?_) fun _ =>
      .pure _ <;> exact h.child (by simp [children])
  | unclassified line => exact .of_same fun _ => rfl

theorem visitAll_keeps (fn : Option FunctionId) (ns : List Node)
    (h : ∀ n ∈ ns, n.DeclaresOnly V N) : (visitAll fn ns).Keeps (Table.Holds V N) := by
  cases ns with
  | nil => exact .pure _
  | cons n ns =>
    obtain ⟨hn, hns⟩ := List.forall_mem_cons.mp h
    exact .bind (visit_keeps fn n hn) fun _ => .bind (visitAll_keeps fn ns hns) fun _ => .pure _

theorem visitBody_keeps (fn : Option FunctionId) (body : Node)
    (h : ∀ s ∈ body.statements, s.DeclaresOnly V N) :
    (visitBody fn body).Keeps (Table.Holds V N) := by
  cases body with
  | missing => exact .pure _
  | block line statements => exact .bind (visitAll_keeps fn statements h) fun _ => .pure _
  | _ => exact .of_same fun _ => rfl

end

/-- What all declarations of a program have, the table has after its analysis. -/
theorem Table.Holds.analyze {P : Node} (h : P.DeclaresOnly V N) :
    ((analyze P).run .empty).table.Holds V N :=
  Pass.Keeps.bind (visit_keeps none P h) (fun _ => .pure _) _ .empty

end MiniCheck
