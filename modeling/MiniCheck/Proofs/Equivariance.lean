import MiniCheck.Proofs.Renaming

/-!
# Names are used through equality alone

Two passes mirror each other if they take tables that differ in names, and in the texts of
initializers, to such tables again, with findings that differ in names and with the same end. Each
check mirrors itself under new names, and so does every visit. The analysis of a renamed program
is the renamed analysis.
-/

namespace MiniCheck

variable {r : Renaming}

/-- The variable `w` is `v` under its new name, whatever the texts of their initializers. -/
def Variable.Renamed (r : Renaming) (v w : Variable) : Prop := w.relabel .id = v.relabel r

def Function.Renamed (r : Renaming) (f g : Function) : Prop := g.relabel .id = f.relabel r

/-- The table `u` is `t` under new names, the texts of initializers aside. -/
def Table.Renamed (r : Renaming) (t u : Table) : Prop := u.relabel .id = t.relabel r

private theorem Variable.Renamed.fields {v w : Variable} (h : v.Renamed r w) :
    w.name = r v.name ∧ w.type = v.type ∧ w.isConst = v.isConst := by
  simp only [Renamed, relabel, Variable.mk.injEq] at h
  exact ⟨h.1, h.2.1, h.2.2.2.1⟩

namespace Function.Renamed

variable {f g : Function} (h : f.Renamed r g)

include h

private theorem name : g.name = r f.name := congrArg Function.name h

private theorem type : g.type = f.type :=
  (congrArg Function.type h : (g.relabel .id).type = (f.relabel r).type)

private theorem line : g.line = f.line :=
  (congrArg Function.line h : (g.relabel .id).line = (f.relabel r).line)

private theorem hasReturn : g.hasReturn = f.hasReturn :=
  (congrArg Function.hasReturn h : (g.relabel .id).hasReturn = (f.relabel r).hasReturn)

private theorem isRecursive : g.isRecursive = f.isRecursive :=
  (congrArg Function.isRecursive h : (g.relabel .id).isRecursive = (f.relabel r).isRecursive)

private theorem parameters :
    g.parameters.map (Variable.relabel .id) = f.parameters.map (Variable.relabel r) :=
  congrArg Function.parameters h

private theorem parameters_length : g.parameters.length = f.parameters.length := by
  simpa using congrArg List.length h.parameters

private theorem isMain : g.isMain = f.isMain := by
  rw [Function.isMain, h.name, r.beq_main, Function.isMain]

private theorem addParameter {v w : Variable} (hv : v.Renamed r w) :
    (f.addParameter v).Renamed r (g.addParameter w) := by
  simp only [Renamed, Variable.Renamed, relabel, Function.addParameter, Function.mk.injEq,
    List.map_append, List.map_cons, List.map_nil] at h hv ⊢
  simp only [h, hv, and_self]

private theorem addLocal {v w : Variable} (hv : v.Renamed r w) :
    (f.addLocal v).Renamed r (g.addLocal w) := by
  simp only [Renamed, Variable.Renamed, relabel, Function.addLocal, Function.mk.injEq,
    List.map_append, List.map_cons, List.map_nil] at h hv ⊢
  simp only [h, hv, and_self]

private theorem addControl (c : Control) : (f.addControl c).Renamed r (g.addControl c) := by
  simp only [Renamed, relabel, Function.addControl, Function.mk.injEq] at h ⊢
  simp only [h, and_self]

private theorem markReturn : f.markReturn.Renamed r g.markReturn := by
  simp only [Renamed, relabel, Function.markReturn, Function.mk.injEq] at h ⊢
  simp only [h, and_self]

private theorem markRecursive : f.markRecursive.Renamed r g.markRecursive := by
  simp only [Renamed, relabel, Function.markRecursive, Function.mk.injEq] at h ⊢
  simp only [h, and_self]

end Function.Renamed

namespace Table.Renamed

private theorem empty : Table.empty.Renamed r .empty := rfl

variable {t u : Table} (h : t.Renamed r u)

include h

private theorem nextId : u.nextId = t.nextId := by
  rw [← u.nextId_relabel .id, h, t.nextId_relabel r]

private theorem contains_registry (name : String) :
    u.registry.contains (r name) = t.registry.contains name := by
  rw [← t.contains_registry_relabel r name, ← h]
  exact (u.contains_registry_relabel .id (r name)).symm

private theorem resolveHere_isSome (name : String) :
    (u.resolveHere (r name)).isSome = (t.resolveHere name).isSome := by
  have hu := u.resolveHere_relabel .id (r name)
  rw [Renaming.id_apply, h, t.resolveHere_relabel r] at hu
  simpa using (congrArg Option.isSome hu).symm

/-- The names stand for nothing, for the same function, or for the same variable. -/
theorem resolve_cases (name : String) :
    (t.resolve name = none ∧ u.resolve (r name) = none) ∨
      (∃ id, t.resolve name = some (.function id) ∧ u.resolve (r name) = some (.function id)) ∨
      ∃ v w, t.resolve name = some (.variable v) ∧ u.resolve (r name) = some (.variable w) ∧
        v.Renamed r w := by
  have hu := u.resolve_relabel .id (r name)
  rw [Renaming.id_apply, h, t.resolve_relabel r] at hu
  obtain ⟨ht, hu⟩ | ⟨x, y, ht, hu, he⟩ := cases_of_map_eq hu
  · exact .inl ⟨ht, hu⟩
  · cases x with
    | function id =>
      cases y with
      | function id' =>
        obtain rfl : id = id' := by simpa [Symbol.relabel] using he
        exact .inr (.inl ⟨id, ht, hu⟩)
      | «variable» w => simp [Symbol.relabel] at he
    | «variable» v =>
      cases y with
      | function id' => simp [Symbol.relabel] at he
      | «variable» w =>
        have he : v.relabel r = w.relabel .id := by simpa [Symbol.relabel] using he
        exact .inr (.inr ⟨v, w, ht, hu, he.symm⟩)

private theorem registered_cases (name : String) :
    (t.registered? name = none ∧ u.registered? (r name) = none) ∨
      ∃ id f g, t.registered? name = some (id, f) ∧ u.registered? (r name) = some (id, g) ∧
        f.Renamed r g := by
  have hu := u.registered?_relabel .id (r name)
  rw [Renaming.id_apply, h, t.registered?_relabel r] at hu
  obtain ⟨ht, hu⟩ | ⟨⟨id, f⟩, ⟨id', g⟩, ht, hu, he⟩ := cases_of_map_eq hu
  · exact .inl ⟨ht, hu⟩
  · obtain ⟨rfl, he⟩ := Prod.mk.inj he
    exact .inr ⟨id, f, g, ht, hu, he.symm⟩

private theorem around (fn : Option FunctionId) :
    (u.around fn).map (Function.relabel .id) = (t.around fn).map (Function.relabel r) := by
  rw [← around_relabel, h, around_relabel]

private theorem enter : t.enter.Renamed r u.enter := by
  rw [Renamed, enter_relabel, h, enter_relabel]

private theorem exit_cases :
    (t.exit? = none ∧ u.exit? = none) ∨
      ∃ t' u', t.exit? = some t' ∧ u.exit? = some u' ∧ t'.Renamed r u' := by
  have hu := u.exit?_relabel .id
  rw [h, exit?_relabel] at hu
  obtain ⟨ht, hu⟩ | ⟨t', u', ht, hu, he⟩ := cases_of_map_eq hu
  · exact .inl ⟨ht, hu⟩
  · exact .inr ⟨t', u', ht, hu, he.symm⟩

private theorem defineVariable {v w : Variable} (hv : v.Renamed r w) :
    (u.defineVariable w).1 = (t.defineVariable v).1 ∧
      (t.defineVariable v).2.Renamed r (u.defineVariable w).2 := by
  have hu := u.defineVariable_relabel .id w
  rw [h, hv, t.defineVariable_relabel r] at hu
  obtain ⟨hb, ht⟩ := Prod.mk.inj hu
  exact ⟨hb.symm, ht.symm⟩

private theorem registerFunction {f g : Function} (hf : f.Renamed r g) :
    (t.registerFunction f).Renamed r (u.registerFunction g) := by
  rw [Renamed, ← registerFunction_relabel, h, hf, registerFunction_relabel]

private theorem defineFunction {f g : Function} (hf : f.Renamed r g) :
    (u.defineFunction g).1 = (t.defineFunction f).1 ∧
      (t.defineFunction f).2.Renamed r (u.defineFunction g).2 := by
  have hu := u.defineFunction_relabel .id g
  rw [h, hf, t.defineFunction_relabel r] at hu
  obtain ⟨hb, ht⟩ := Prod.mk.inj hu
  exact ⟨hb.symm, ht.symm⟩

private theorem updateFunction (id : FunctionId) {change change' : Function → Function}
    (hc : ∀ f g, Function.Renamed r f g → (change f).Renamed r (change' g)) :
    (t.updateFunction id change).Renamed r (u.updateFunction id change') := by
  have hrec : u.records.map (Function.relabel .id) = t.records.map (Function.relabel r) :=
    congrArg Table.records h
  have hm : (u.records.modify id change').map (Function.relabel .id) =
      (t.records.modify id change).map (Function.relabel r) := by
    -- The records are compared one by one: only the one with the number `id` is changed.
    apply List.ext_getElem?
    intro i
    have hi := congrArg (fun l => l[i]?) hrec
    simp only [List.getElem?_map, List.getElem?_modify] at hi ⊢
    obtain ⟨hu, ht⟩ | ⟨g, f, hu, ht, he⟩ := cases_of_map_eq hi
    · rw [hu, ht]
      rfl
    · rw [hu, ht]
      by_cases hid : id = i
      · have hfg : (change' g).relabel .id = (change f).relabel r := hc f g he
        simpa [hid] using hfg
      · simpa [hid] using he
  simp only [Renamed, relabel, Table.mk.injEq] at h
  simp only [Renamed, relabel, Table.updateFunction, h, hm]

end Table.Renamed

/-- Related values, or the same fault. -/
inductive SameEnd {α β : Type} (R : α → β → Prop) : Except Fault α → Except Fault β → Prop
  | ok {a : α} {b : β} : R a b → SameEnd R (.ok a) (.ok b)
  | error (e : Fault) : SameEnd R (.error e) (.error e)

private theorem SameEnd.bind {α β γ δ : Type} {R : α → β → Prop} {S : γ → δ → Prop}
    {x : Except Fault α} {y : Except Fault β} {f : α → Except Fault γ} {g : β → Except Fault δ}
    (h : SameEnd R x y) (hf : ∀ a b, R a b → SameEnd S (f a) (g b)) :
    SameEnd S (x >>= f) (y >>= g) := by
  cases h with
  | ok hab => exact hf _ _ hab
  | error e => exact .error e

private theorem SameEnd.eq {α : Type} {x y : Except Fault α} (h : SameEnd Eq x y) : y = x := by
  cases h with
  | ok hab => rw [hab]
  | error e => rfl

structure Outcome.Mirrors {α β : Type} (r : Renaming) (R : α → β → Prop) (o : Outcome α)
    (o' : Outcome β) : Prop where
  table : o.table.Renamed r o'.table
  findings : o'.findings = o.findings.map (Finding.rename r)
  result : SameEnd R o.result o'.result

/-- From tables under two sets of names the passes do the same. Their values are related by `R`. -/
def Pass.Mirrors {α β : Type} (r : Renaming) (R : α → β → Prop) (p : Pass α) (q : Pass β) : Prop :=
  ∀ ⦃t u : Table⦄, t.Renamed r u → (p.run t).Mirrors r R (q.run u)

namespace Pass.Mirrors

variable {α β γ δ : Type} {R : α → β → Prop} {S : γ → δ → Prop}

private theorem pure {a : α} {b : β} (hab : R a b) :
    (Pure.pure a : Pass α).Mirrors r R (Pure.pure b) :=
  fun _ _ h => ⟨h, rfl, .ok hab⟩

private theorem bind {p : Pass α} {q : Pass β} {f : α → Pass γ} {g : β → Pass δ}
    (hp : p.Mirrors r R q) (hf : ∀ a b, R a b → (f a).Mirrors r S (g b)) :
    (p >>= f).Mirrors r S (q >>= g) := by
  intro t u h
  obtain ⟨ht, hfs, hend⟩ := hp h
  generalize hx : (p.run t).result = x at hend
  generalize hy : (q.run u).result = y at hend
  cases hend with
  | ok hab =>
    rw [run_bind_of_ok hx, run_bind_of_ok hy]
    obtain ⟨ht', hfs', hend'⟩ := hf _ _ hab ht
    exact ⟨ht', by rw [hfs, hfs', List.map_append], hend'⟩
  | error e =>
    rw [run_bind_of_error hx, run_bind_of_error hy]
    exact ⟨ht, hfs, .error e⟩

private theorem andThen {p : Pass α} {q : Pass β} {f : α → Pass γ} {g : β → Pass δ}
    (hp : p.Mirrors r R q) (hf : ∀ a b, (f a).Mirrors r S (g b)) :
    (p >>= f).Mirrors r S (q >>= g) :=
  hp.bind fun a b _ => hf a b

private theorem table : Pass.table.Mirrors r (Table.Renamed r) Pass.table :=
  fun _ _ h => ⟨h, rfl, .ok h⟩

private theorem update {change change' : Table → Table}
    (hc : ∀ t u, t.Renamed r u → (change t).Renamed r (change' u)) :
    (Pass.update change).Mirrors r Eq (Pass.update change') :=
  fun t u h => ⟨hc t u h, rfl, .ok rfl⟩

private theorem report (line : Int) (v : Violation) :
    (Pass.report line v).Mirrors r Eq (Pass.report line (v.rename r)) :=
  fun _ _ h => ⟨h, rfl, .ok rfl⟩

private theorem reportIf (c : Bool) (line : Int) (v : Violation) :
    (Pass.reportIf c line v).Mirrors r Eq (Pass.reportIf c line (v.rename r)) := by
  cases c
  · exact .pure rfl
  · exact .report line v

private theorem lift {x : Except Fault α} {y : Except Fault β} (hxy : SameEnd R x y) :
    (Pass.lift x).Mirrors r R (Pass.lift y) :=
  fun _ _ h => ⟨h, rfl, hxy⟩

private theorem fail (e : Fault) : (Pass.fail e : Pass α).Mirrors r R (Pass.fail e : Pass β) :=
  lift (.error e)

private theorem enclosing (fn : Option FunctionId) :
    (Pass.enclosing fn).Mirrors r
      (fun f g => g.map (Function.relabel .id) = f.map (Function.relabel r))
      (Pass.enclosing fn) :=
  fun _ _ h => ⟨h, rfl, .ok (h.around fn)⟩

private theorem updateEnclosing (fn : Option FunctionId) {change change' : Function → Function}
    (hc : ∀ f g, Function.Renamed r f g → (change f).Renamed r (change' g)) :
    (Pass.updateEnclosing fn change).Mirrors r Eq (Pass.updateEnclosing fn change') := by
  cases fn with
  | none => exact .pure rfl
  | some id => exact .update fun t u h => h.updateFunction id hc

private theorem exitScope : Pass.exitScope.Mirrors r Eq Pass.exitScope := by
  intro t u h
  simp only [run, Pass.exitScope]
  obtain ⟨ht, hu⟩ | ⟨t', u', ht, hu, he⟩ := h.exit_cases
  · rw [ht, hu]
    exact ⟨h, rfl, .error _⟩
  · rw [ht, hu]
    exact ⟨he, rfl, .ok rfl⟩

private theorem inScope {p : Pass α} {q : Pass β} (hp : p.Mirrors r R q) :
    (Pass.inScope p).Mirrors r R (Pass.inScope q) :=
  (Mirrors.update fun _ _ h => h.enter).andThen fun _ _ =>
    hp.bind fun _ _ hab => exitScope.andThen fun _ _ => .pure hab

private theorem forM_map {f : γ → Pass PUnit} {g : δ → Pass PUnit} {c : γ → δ}
    (h : ∀ x, (f x).Mirrors r Eq (g (c x))) (l : List γ) :
    (l.forM f).Mirrors r Eq ((l.map c).forM g) := by
  induction l with
  | nil => exact .pure rfl
  | cons x l ih => exact (h x).andThen fun _ _ => ih

private theorem of_returns {p : Pass α} {q : Pass β} {fs gs : List Finding} {a : α} {b : β}
    (hp : ∀ t, p.Returns t t fs a) (hq : ∀ u, q.Returns u u gs b)
    (hfs : gs = fs.map (Finding.rename r)) (hab : R a b) : p.Mirrors r R q := by
  intro t u h
  rw [hp t, hq u]
  exact ⟨h, hfs, .ok hab⟩

end Pass.Mirrors

mutual

/-- The texts of renamed expressions differ, but none is lost and none is found. -/
theorem Node.exprText_rename (r : Renaming) (n : Node) :
    SameEnd (fun _ _ => True) n.exprText (n.rename r).exprText := by
  cases n with
  | paren line inner => exact (inner.exprText_rename r).bind fun _ _ _ => .ok trivial
  | negation line inner => exact (inner.exprText_rename r).bind fun _ _ _ => .ok trivial
  | binary line op left right =>
    exact (left.exprText_rename r).bind fun _ _ _ =>
      (right.exprText_rename r).bind fun _ _ _ => .ok trivial
  | call line name args => exact (Node.exprTexts_rename r args).bind fun _ _ _ => .ok trivial
  | missing => exact .ok trivial
  | literal => exact .ok trivial
  | identifier => exact .ok trivial
  | _ => exact .error _

theorem Node.exprTexts_rename (r : Renaming) (ns : List Node) :
    SameEnd (fun _ _ => True) (Node.exprTexts ns) (Node.exprTexts (Node.renameAll r ns)) := by
  cases ns with
  | nil => exact .ok trivial
  | cons n ns =>
    exact (n.exprText_rename r).bind fun _ _ _ =>
      (Node.exprTexts_rename r ns).bind fun _ _ _ => .ok trivial

end

namespace Check

open Pass

variable {fn : Option FunctionId} {line : Int} {name : String}

private theorem mirrors_expect (line : Int) (target source : Ty) (v : Violation) :
    (expect line target source v).Mirrors r Eq (expect line target source (v.rename r)) :=
  .reportIf _ line v

private theorem initTextOf_rename (r : Renaming) (init : Node) (initText : Option String) :
    SameEnd (fun _ _ => True) (initTextOf init initText) (initTextOf (init.rename r) initText) := by
  cases initText with
  | none => exact init.exprText_rename r
  | some text => exact .ok trivial

private theorem mirrors_initializer {declared : Ty} {isConst : Bool} {init : Node}
    {initText : Option String} {visitInit visitInit' : Pass Ty}
    (hv : visitInit.Mirrors r Eq visitInit') :
    (initializer line name declared isConst init initText visitInit).Mirrors r (fun _ _ => True)
      (initializer line (r name) declared isConst (init.rename r) initText visitInit') := by
  rw [initializer, initializer, Node.isMissing_rename]
  split
  · exact (Mirrors.reportIf isConst line (.constUninitialized name)).andThen fun _ _ =>
      .pure trivial
  · refine hv.bind ?_
    rintro got _ rfl
    refine (Mirrors.lift (initTextOf_rename r init initText)).andThen fun _ _ => ?_
    exact (mirrors_expect line declared got (.initMismatch name declared got)).andThen fun _ _ =>
      .pure trivial

private theorem mirrors_redeclaration {t u : Table} (h : t.Renamed r u)
    {around around' : Option Function}
    (ha : around'.map (Function.relabel .id) = around.map (Function.relabel r)) :
    (redeclaration t around line name).Mirrors r Eq (redeclaration u around' line (r name)) := by
  simp only [redeclaration, h.resolveHere_isSome]
  obtain ⟨rfl, rfl⟩ | ⟨g, f, rfl, rfl, hfg⟩ := cases_of_map_eq ha
  · exact .reportIf _ line (.globalRedefined name)
  · have hn : g.name = r f.name := Function.Renamed.name hfg
    simp only [hn]
    exact .reportIf _ line (.localRedefined name f.name)

private theorem countP_parameters {f g : Function} (h : f.Renamed r g) (name : String) :
    g.parameters.countP (·.name == r name) = f.parameters.countP (·.name == name) := by
  have hc := congrArg (List.countP (·.name == r name)) h.parameters
  simpa [List.countP_map, Function.comp_def, Variable.relabel] using hc

private theorem conflicts_rename {around around' : Option Function}
    (ha : around'.map (Function.relabel .id) = around.map (Function.relabel r)) :
    conflicts around' line (r name) = (conflicts around line name).map (Finding.rename r) := by
  obtain ⟨rfl, rfl⟩ | ⟨g, f, rfl, rfl, hfg⟩ := cases_of_map_eq ha
  · rfl
  · have hc := countP_parameters hfg name
    simp only [List.countP_eq_length_filter] at hc
    simp only [conflicts, List.map_const', hc, List.map_replicate]
    rfl

private theorem mirrors_variableDecl {typeText : Option String} {isConst : Bool} {init : Node}
    {initText : Option String} {visitInit visitInit' : Pass Ty}
    (hv : visitInit.Mirrors r Eq visitInit') :
    (variableDecl fn line name typeText isConst init initText visitInit).Mirrors r Eq
      (variableDecl fn line (r name) typeText isConst (init.rename r) initText visitInit') := by
  refine Mirrors.table.bind fun t u htu => (Mirrors.enclosing fn).bind fun f g hfg => ?_
  refine (mirrors_redeclaration htu hfg).andThen fun _ _ => ?_
  refine (Mirrors.of_returns (returns_parameterConflicts f line name)
    (returns_parameterConflicts g line (r name)) (conflicts_rename hfg)
    (R := Eq) rfl).andThen fun _ _ => ?_
  refine (mirrors_initializer hv).andThen fun text text' => ?_
  have hvw : Variable.Renamed r ⟨name, Ty.ofText typeText, line, isConst, text⟩
      ⟨r name, Ty.ofText typeText, line, isConst, text'⟩ := rfl
  refine (Mirrors.update fun t u h => (h.defineVariable hvw).2).andThen fun _ _ => ?_
  exact (Mirrors.updateEnclosing fn fun f g h => h.addLocal hvw).andThen fun _ _ => .pure rfl

private theorem mirrors_declareFunction {f g : Function} (h : f.Renamed r g) :
    (declareFunction f).Mirrors r Eq (declareFunction g) := by
  refine Mirrors.table.bind fun t u htu => ?_
  obtain ⟨hb, hd⟩ := htu.defineFunction h
  rcases ht : t.defineFunction f with ⟨b, t'⟩
  rcases hu : u.defineFunction g with ⟨b', u'⟩
  rw [ht, hu] at hb hd
  obtain rfl : b' = b := hb
  cases b' with
  | true =>
    exact (Mirrors.update fun _ _ _ => hd).andThen fun _ _ => .pure htu.nextId.symm
  | false =>
    simp only [h.line, h.name]
    refine (Mirrors.report f.line (.nameOfVariable f.name)).andThen fun _ _ => ?_
    exact (Mirrors.update fun t u htu => htu.registerFunction h).andThen fun _ _ =>
      .pure htu.nextId.symm

private theorem mirrors_declareParameter (id : FunctionId) (function : String) (p : Param) :
    (declareParameter id function p).Mirrors r Eq
      (declareParameter id (r function) (p.rename r)) := by
  refine Mirrors.table.bind fun t u htu => ?_
  have hp : p.variable.Renamed r (p.rename r).variable := rfl
  obtain ⟨hb, hd⟩ := htu.defineVariable hp
  change (do
    reportIf (!(t.defineVariable p.variable).1) p.line (.parameterRepeated p.name function)
    Pass.update fun _ => (t.defineVariable p.variable).2.updateFunction id
      (·.addParameter p.variable)).Mirrors r Eq (do
    reportIf (!(u.defineVariable (p.rename r).variable).1) p.line
      (.parameterRepeated (r p.name) (r function))
    Pass.update fun _ => (u.defineVariable (p.rename r).variable).2.updateFunction id
      (·.addParameter (p.rename r).variable))
  rw [hb]
  refine (Mirrors.reportIf _ p.line (.parameterRepeated p.name function)).andThen fun _ _ => ?_
  exact Mirrors.update fun _ _ _ => hd.updateFunction id fun f g h => h.addParameter hp

private theorem any_eq_of_renamed {around around' : Option Function} {mark mark' : Function → Bool}
    (ha : around'.map (Function.relabel .id) = around.map (Function.relabel r))
    (hm : ∀ f g, Function.Renamed r f g → mark' g = mark f) :
    around'.any mark' = around.any mark := by
  obtain ⟨rfl, rfl⟩ | ⟨g, f, rfl, rfl, hfg⟩ := cases_of_map_eq ha
  · rfl
  · exact hm f g hfg

private theorem mirrors_functionEnd (id : FunctionId) (line : Int) (name : String) (type : Ty) :
    (functionEnd id line name type).Mirrors r Eq (functionEnd id line (r name) type) := by
  refine (Mirrors.enclosing (some id)).bind fun f g hfg => ?_
  rw [any_eq_of_renamed hfg fun _ _ h => h.hasReturn,
    any_eq_of_renamed hfg fun _ _ h => h.isRecursive, r.beq_main]
  exact (Mirrors.reportIf _ line (.returnMissing name type)).andThen fun _ _ =>
    .reportIf _ line .mainRecursive

private theorem mirrors_functionDecl {returnText : Option String} {params : List Param}
    {visitBody visitBody' : FunctionId → Pass Unit}
    (hb : ∀ id, (visitBody id).Mirrors r Eq (visitBody' id)) :
    (functionDecl line name returnText params visitBody).Mirrors r Eq
      (functionDecl line (r name) returnText (params.map (Param.rename r)) visitBody') := by
  refine Mirrors.table.bind fun t u htu => ?_
  rw [htu.contains_registry]
  split
  · exact (Mirrors.report line (.functionRedefined name)).andThen fun _ _ => .pure rfl
  · have hd : Function.Renamed r (.declared name (Ty.ofReturnText returnText) line [])
        (.declared (r name) (Ty.ofReturnText returnText) line []) := rfl
    refine (mirrors_declareFunction hd).bind ?_
    rintro id _ rfl
    refine (Mirrors.inScope (R := Eq) ?_).andThen fun _ _ => .pure rfl
    refine (Mirrors.forM_map (mirrors_declareParameter id name) params).andThen fun _ _ => ?_
    exact (hb id).andThen fun _ _ => mirrors_functionEnd id line name _

private theorem mirrors_assignment {visitValue visitValue' : Pass Ty}
    (hv : visitValue.Mirrors r Eq visitValue') :
    (assignment line name visitValue).Mirrors r Eq (assignment line (r name) visitValue') := by
  refine Mirrors.table.bind fun t u htu => ?_
  obtain ⟨ht, hu⟩ | ⟨id, ht, hu⟩ | ⟨v, w, ht, hu, hvw⟩ := htu.resolve_cases name
  · simp only [ht, hu]
    exact (Mirrors.report line (.targetUndeclared name)).andThen fun _ _ => .pure rfl
  · simp only [ht, hu]
    exact (Mirrors.report line (.targetNotVariable name)).andThen fun _ _ => .pure rfl
  · obtain ⟨-, hty, hco⟩ := hvw.fields
    simp only [ht, hu, hty, hco]
    refine (Mirrors.reportIf _ line (.constAssigned name)).andThen fun _ _ => hv.bind ?_
    rintro got _ rfl
    exact (mirrors_expect line v.type got (.assignMismatch name v.type got)).andThen fun _ _ =>
      .pure rfl

private theorem mirrors_returning {value : Node} {visitValue visitValue' : Pass Ty}
    (hv : visitValue.Mirrors r Eq visitValue') :
    (returning fn line value visitValue).Mirrors r Eq
      (returning fn line (value.rename r) visitValue') := by
  refine (Mirrors.enclosing fn).bind fun around around' ha => ?_
  obtain ⟨rfl, rfl⟩ | ⟨g, f, rfl, rfl, hfg⟩ := cases_of_map_eq ha
  · exact (Mirrors.report line .returnOutside).andThen fun _ _ => .pure rfl
  · have hf : f.Renamed r g := hfg
    simp only [hf.type, hf.name, Node.isMissing_rename]
    refine (Mirrors.updateEnclosing fn fun _ _ h => h.markReturn).andThen fun _ _ => ?_
    have hend : ∀ got got', got = got' →
        (do expect line f.type got (.returnMismatch f.name f.type got); pure Ty.void).Mirrors r Eq
        (do expect line f.type got' (.returnMismatch (r f.name) f.type got'); pure Ty.void) := by
      rintro got _ rfl
      exact (mirrors_expect line f.type got (.returnMismatch f.name f.type got)).andThen fun _ _ =>
        .pure rfl
    split
    · exact (Mirrors.pure rfl).bind hend
    · exact hv.bind hend

private theorem mirrors_arguments (line : Int) (name : String) (first : Nat) (got : List Ty)
    {ps qs : List Variable} (h : qs.map (Variable.relabel .id) = ps.map (Variable.relabel r)) :
    (arguments line name first (got.zip ps)).Mirrors r Eq
      (arguments line (r name) first (got.zip qs)) := by
  induction got generalizing ps qs first with
  | nil => exact .pure rfl
  | cons type got ih =>
    cases ps with
    | nil =>
      obtain rfl : qs = [] := by simpa using h
      exact .pure rfl
    | cons p ps =>
      cases qs with
      | nil => simp at h
      | cons q qs =>
        obtain ⟨hq, hqs⟩ := List.cons.inj h
        have hty : q.type = p.type := (Variable.Renamed.fields hq).2.1
        simp only [List.zip_cons_cons, arguments, hty]
        exact (mirrors_expect line p.type type
          (.argumentMismatch first name p.type type)).andThen fun _ _ => ih (first + 1) hqs

private theorem mirrors_application {callee callee' : Function} (h : callee.Renamed r callee')
    (got : List Ty) :
    (application line name callee got).Mirrors r Eq
      (application line (r name) callee' got) := by
  simp only [application, h.parameters_length]
  split
  · exact mirrors_arguments line name 1 got h.parameters
  · exact .report line (.argumentCount name callee.parameters.length got.length)

private theorem mirrors_functionCall {visitArgs visitArgs' : Pass (List Ty)}
    (hv : visitArgs.Mirrors r Eq visitArgs') :
    (functionCall fn line name visitArgs).Mirrors r Eq
      (functionCall fn line (r name) visitArgs') := by
  refine Mirrors.table.bind fun t u htu => ?_
  obtain ⟨ht, hu⟩ | ⟨id, callee, callee', ht, hu, hc⟩ := htu.registered_cases name
  · simp only [ht, hu]
    exact (Mirrors.report line (.functionUndefined name)).andThen fun _ _ =>
      hv.andThen fun _ _ => .pure rfl
  · simp only [ht, hu]
    refine (Mirrors.enclosing fn).bind fun around around' ha => ?_
    have hmain : (mainCall line name around).Mirrors r Eq (mainCall line (r name) around') := by
      rw [mainCall, mainCall, any_eq_of_renamed ha fun _ _ h => h.isMain, r.beq_main]
      exact .reportIf _ line .mainCalled
    have hself : (selfCall fn name around).Mirrors r Eq (selfCall fn (r name) around') := by
      have hn : around'.any (·.name == r name) = around.any (·.name == name) :=
        any_eq_of_renamed ha fun _ _ h => by rw [h.name, r.beq_eq]
      rw [selfCall, selfCall, hn]
      split
      · exact .updateEnclosing fn fun _ _ h => h.markRecursive
      · exact .pure rfl
    refine hmain.andThen fun _ _ => hself.andThen fun _ _ => hv.bind ?_
    rintro got _ rfl
    exact (mirrors_application hc got).andThen fun _ _ => .pure hc.type.symm

private theorem mirrors_identifierUse (line : Int) (name : String) :
    (identifierUse line name).Mirrors r Eq (identifierUse line (r name)) := by
  refine Mirrors.table.bind fun t u htu => ?_
  obtain ⟨ht, hu⟩ | ⟨id, ht, hu⟩ | ⟨v, w, ht, hu, hvw⟩ := htu.resolve_cases name
  · simp only [ht, hu]
    exact (Mirrors.report line (.variableUndeclared name)).andThen fun _ _ => .pure rfl
  · simp only [ht, hu]
    exact .pure rfl
  · simp only [ht, hu]
    exact .pure hvw.fields.2.1.symm

end Check

open Pass

mutual

private theorem visit_mirrors (r : Renaming) (fn : Option FunctionId) (n : Node) :
    (visit fn n).Mirrors r Eq (visit fn (n.rename r)) := by
  cases n with
  | missing => exact .pure rfl
  | program line decls => exact (visitAll_mirrors r none decls).andThen fun _ _ => .pure rfl
  | block line statements =>
    exact .inScope ((visitAll_mirrors r fn statements).andThen fun _ _ => .pure rfl)
  | varDecl line name typeText isConst init initText =>
    exact Check.mirrors_variableDecl (visit_mirrors r fn init)
  | param p => exact .fail _
  | funcDecl line name returnText params body =>
    exact Check.mirrors_functionDecl fun id => visitBody_mirrors r (some id) body
  | assign line name op value => exact Check.mirrors_assignment (visit_mirrors r fn value)
  | ifElse line cond thenBranch elseBranch =>
    refine (Mirrors.updateEnclosing fn fun _ _ h => h.addControl _).andThen fun _ _ => ?_
    refine (visit_mirrors r fn cond).andThen fun _ _ => ?_
    refine (visit_mirrors r fn thenBranch).andThen fun _ _ => ?_
    exact (visit_mirrors r fn elseBranch).andThen fun _ _ => .pure rfl
  | forLoop line init cond update body =>
    refine (Mirrors.updateEnclosing fn fun _ _ h => h.addControl _).andThen fun _ _ => ?_
    refine (visit_mirrors r fn init).andThen fun _ _ => ?_
    refine (visit_mirrors r fn cond).andThen fun _ _ => ?_
    refine (visit_mirrors r fn update).andThen fun _ _ => ?_
    exact (visit_mirrors r fn body).andThen fun _ _ => .pure rfl
  | whileLoop line cond body =>
    refine (Mirrors.updateEnclosing fn fun _ _ h => h.addControl _).andThen fun _ _ => ?_
    refine (visit_mirrors r fn cond).andThen fun _ _ => ?_
    exact (visit_mirrors r fn body).andThen fun _ _ => .pure rfl
  | ret line value => exact Check.mirrors_returning (visit_mirrors r fn value)
  | exprStmt line expr => exact (visit_mirrors r fn expr).andThen fun _ _ => .pure rfl
  | callStmt line e => exact (visit_mirrors r fn e).andThen fun _ _ => .pure rfl
  | call line name args => exact Check.mirrors_functionCall (visitAll_mirrors r fn args)
  | literal => exact .pure rfl
  | identifier line name => exact Check.mirrors_identifierUse line name
  | paren line inner => exact visit_mirrors r fn inner
  | negation line inner => exact (visit_mirrors r fn inner).andThen fun _ _ => .pure rfl
  | binary line op left right =>
    refine (visit_mirrors r fn left).bind ?_
    rintro l _ rfl
    refine (visit_mirrors r fn right).bind ?_
    rintro k _ rfl
    exact .pure rfl
  | unclassified => exact .fail _

theorem visitAll_mirrors (r : Renaming) (fn : Option FunctionId) (ns : List Node) :
    (visitAll fn ns).Mirrors r Eq (visitAll fn (Node.renameAll r ns)) := by
  cases ns with
  | nil => exact .pure rfl
  | cons n ns =>
    refine (visit_mirrors r fn n).bind ?_
    rintro type _ rfl
    refine (visitAll_mirrors r fn ns).bind ?_
    rintro types _ rfl
    exact .pure rfl

theorem visitBody_mirrors (r : Renaming) (fn : Option FunctionId) (body : Node) :
    (visitBody fn body).Mirrors r Eq (visitBody fn (body.rename r)) := by
  cases body with
  | missing => exact .pure rfl
  | block line statements => exact (visitAll_mirrors r fn statements).andThen fun _ _ => .pure rfl
  | _ => exact .fail _

end

/-- The analysis of a renamed program ends as that of the program does, with the same value or the
same fault. It makes the same findings in the same places under the new names, and it leaves the
same table under the new names, the texts of initializers aside. -/
theorem analyze_equivariant (r : Renaming) (program : Node) :
    let o := (analyze program).run .empty
    let o' := (analyze (program.rename r)).run .empty
    o'.result = o.result ∧ o'.findings = o.findings.map (Finding.rename r) ∧
      o'.table.relabel .id = o.table.relabel r := by
  intro o o'
  have hv : (analyze program).Mirrors r Eq (analyze (program.rename r)) :=
    (visit_mirrors r none program).andThen fun _ _ => .pure rfl
  obtain ⟨ht, hfs, hend⟩ := hv .empty
  exact ⟨hend.eq, hfs, ht⟩

/-- A variable and a function exchange their names, in what is declared, used and found. -/
theorem analyze_equivariant_exchanged :
    let program (x f : String) : Node := .program 1
      [.varDecl 1 x (some "int") false .missing none,
        .funcDecl 2 f (some "int") [⟨2, "p", some "int"⟩] (.block 2 [.ret 2 (.identifier 2 x)]),
        .funcDecl 3 "main" none [] (.block 3
          [.assign 4 x "=" (.call 4 f [.literal 4 "string" "\"s\""]), .assign 5 f "=" .missing])]
    let r := Renaming.swap "x" "f" (by decide) (by decide)
    (program "x" "f").rename r = program "f" "x" ∧
      ((analyze (program "x" "f")).run .empty).findings =
        [⟨some 4, .argumentMismatch 1 "f" .int .string⟩, ⟨some 5, .targetNotVariable "f"⟩] ∧
      ((analyze (program "f" "x")).run .empty).findings =
        [⟨some 4, .argumentMismatch 1 "x" .int .string⟩, ⟨some 5, .targetNotVariable "x"⟩] := by
  intro program r
  have hrename : (program "x" "f").rename r = program "f" "x" := rfl
  have hfindings : ((analyze (program "x" "f")).run .empty).findings =
      [⟨some 4, .argumentMismatch 1 "f" .int .string⟩, ⟨some 5, .targetNotVariable "f"⟩] := by
    decide +kernel
  obtain ⟨-, hrenamed, -⟩ := analyze_equivariant r (program "x" "f")
  rw [hrename, hfindings] at hrenamed
  exact ⟨hrename, hfindings, hrenamed⟩

end MiniCheck
