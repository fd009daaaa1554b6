import MiniCheck.Analysis.Visit

/-!
# Runs of the checks

What each check returns when the visits of its parts return: the table that it leaves and its
findings in their order. The findings of a check are read off the table before it.
-/

namespace MiniCheck

namespace Table

/-- The record of the function around. -/
def around (t : Table) (fn : Option FunctionId) : Option Function := fn.bind t.record?

/-- Changes the record of the function around. -/
def note (t : Table) (fn : Option FunctionId) (change : Function → Function) : Table :=
  match fn with
  | none => t
  | some id => t.updateFunction id change

/-- Enters the head of a function. A name that is taken in the current scope stays as it is. -/
def declare (t : Table) (f : Function) : Table :=
  if t.current.contains f.name then t.registerFunction f else (t.defineFunction f).2

def addParameter (id : FunctionId) (t : Table) (v : Variable) : Table :=
  (t.defineVariable v).2.updateFunction id (·.addParameter v)

/-- The table in which the body of the new function `f` is visited. -/
def openFunction (t : Table) (f : Function) (params : List Variable) : Table :=
  params.foldl (addParameter t.nextId) (t.declare f).enter

/-- The type of a name that is used as a value. -/
def typeOf (t : Table) (name : String) : Ty :=
  match t.resolve name with
  | some (.variable v) => v.type
  | _ => .unknown

end Table

def Param.variable (p : Param) : Variable := ⟨p.name, Ty.ofText p.typeText, p.line, false, none⟩

namespace Check

def mismatch (line : Int) (target source : Ty) (v : Violation) : List Finding :=
  if target.accepts source then [] else [⟨some line, v⟩]

def redeclared (t : Table) (around : Option Function) (line : Int) (name : String) :
    List Finding :=
  if (t.resolveHere name).isSome then
    match around with
    | none => [⟨some line, .globalRedefined name⟩]
    | some f => [⟨some line, .localRedefined name f.name⟩]
  else []

def conflicts (around : Option Function) (line : Int) (name : String) : List Finding :=
  match around with
  | none => []
  | some f =>
      (f.parameters.filter (·.name == name)).map fun _ => ⟨some line, .parameterConflict name⟩

def uninitialized (line : Int) (name : String) (isConst : Bool) (init : Node) : List Finding :=
  if isConst && init.isMissing then [⟨some line, .constUninitialized name⟩] else []

def hidden (t : Table) (f : Function) : List Finding :=
  if t.current.contains f.name then [⟨some f.line, .nameOfVariable f.name⟩] else []

/-- The findings about repeated parameters; `t` is the table before the first of them. -/
def repeated (id : FunctionId) (function : String) (t : Table) : List Param → List Finding
  | [] => []
  | p :: ps =>
      (if t.current.contains p.name then [⟨some p.line, .parameterRepeated p.name function⟩]
        else []) ++ repeated id function (t.addParameter id p.variable) ps

def unfinished (f : Option Function) (line : Int) (name : String) (type : Ty) : List Finding :=
  (if type != .void && !(f.any (·.hasReturn)) then [⟨some line, .returnMissing name type⟩]
    else []) ++
  if name == mainName && f.any (·.isRecursive) then [⟨some line, .mainRecursive⟩] else []

def constant (line : Int) (v : Variable) (name : String) : List Finding :=
  if v.isConst then [⟨some line, .constAssigned name⟩] else []

def mainCalls (line : Int) (name : String) (around : Option Function) : List Finding :=
  if name == mainName && !(around.any (·.isMain)) then [⟨some line, .mainCalled⟩] else []

def mismatches (line : Int) (function : String) (first : Nat) : List (Ty × Variable) →
    List Finding
  | [] => []
  | (got, p) :: rest =>
      mismatch line p.type got (.argumentMismatch first function p.type got) ++
        mismatches line function (first + 1) rest

/-- The findings about the arguments of a call of `callee`. -/
def misapplied (line : Int) (name : String) (callee : Function) (got : List Ty) :
    List Finding :=
  if got.length = callee.parameters.length then
    mismatches line name 1 (got.zip callee.parameters)
  else [⟨some line, .argumentCount name callee.parameters.length got.length⟩]

def undeclared (t : Table) (line : Int) (name : String) : List Finding :=
  if t.resolve name = none then [⟨some line, .variableUndeclared name⟩] else []

/-- The table in which the arguments of a call are visited. -/
def calling (t : Table) (fn : Option FunctionId) (name : String) : Table :=
  if (t.around fn).any (·.name == name) then t.note fn (·.markRecursive) else t

end Check

namespace Pass

variable {α β : Type}

/-- From the table `t` the pass returns `a`, leaves the table `u` and makes the findings `fs`. -/
def Returns (p : Pass α) (t u : Table) (fs : List Finding) (a : α) : Prop :=
  p.run t = ⟨u, fs, .ok a⟩

/-- From the table `t` the pass stops with the fault `e`. -/
def Stops (p : Pass α) (t u : Table) (fs : List Finding) (e : Fault) : Prop :=
  p.run t = ⟨u, fs, .error e⟩

theorem returns_or_stops (p : Pass α) (t : Table) :
    (∃ u fs a, p.Returns t u fs a) ∨ ∃ u fs e, p.Stops t u fs e := by
  rcases h : p.run t with ⟨u, fs, r⟩
  cases r with
  | ok a => exact .inl ⟨u, fs, a, h⟩
  | error e => exact .inr ⟨u, fs, e, h⟩

theorem Returns.not_stops {p : Pass α} {t u v : Table} {fs gs : List Finding} {a : α} {e : Fault}
    (h : p.Returns t u fs a) : ¬ p.Stops t v gs e := by
  intro h'
  rw [Stops, h] at h'
  cases h'

namespace Returns

variable {t u v : Table} {fs gs : List Finding}

theorem run_table {p : Pass α} {a : α} (h : p.Returns t u fs a) : (p.run t).table = u := by
  rw [h]

theorem pure (a : α) (t : Table) : (Pure.pure a : Pass α).Returns t t [] a := rfl

theorem bind {p : Pass α} {f : α → Pass β} {a : α} {b : β} (h : p.Returns t u fs a)
    (h' : (f a).Returns u v gs b) : (p >>= f).Returns t v (fs ++ gs) b := by
  have hr : (p.run t).result = .ok a := by rw [h]
  rw [Returns, run_bind_of_ok hr, h, h']

private theorem bind_stops {p : Pass α} {f : α → Pass β} {a : α} {e : Fault}
    (h : p.Returns t u fs a) (h' : (f a).Stops u v gs e) : (p >>= f).Stops t v (fs ++ gs) e := by
  have hr : (p.run t).result = .ok a := by rw [h]
  rw [Stops, run_bind_of_ok hr, h, h']

theorem silent_bind {p : Pass α} {f : α → Pass β} {a : α} {b : β} (h : p.Returns t u [] a)
    (h' : (f a).Returns u v gs b) : (p >>= f).Returns t v gs b :=
  h.bind h'

theorem bind_silent {p : Pass α} {f : α → Pass β} {a : α} {b : β} (h : p.Returns t u fs a)
    (h' : (f a).Returns u v [] b) : (p >>= f).Returns t v fs b := by
  rw [← List.append_nil fs]
  exact h.bind h'

theorem unique {p : Pass α} {a b : α} (h : p.Returns t u fs a) (h' : p.Returns t v gs b) :
    u = v ∧ fs = gs ∧ a = b := by
  rw [Returns, h] at h'
  injection h' with ht hf hr
  injection hr with hr
  exact ⟨ht, hf, hr⟩

theorem table (t : Table) : Pass.table.Returns t t [] t := rfl

theorem update (change : Table → Table) (t : Table) :
    (Pass.update change).Returns t (change t) [] () := rfl

theorem report (line : Int) (v : Violation) (t : Table) :
    (Pass.report line v).Returns t t [⟨some line, v⟩] () := rfl

private theorem lift {r : Except Fault α} {a : α} (h : r = .ok a) (t : Table) :
    (Pass.lift r).Returns t t [] a := by
  rw [Returns, h]
  rfl

theorem enclosing (fn : Option FunctionId) (t : Table) :
    (Pass.enclosing fn).Returns t t [] (t.around fn) := rfl

theorem updateEnclosing (fn : Option FunctionId) (change : Function → Function) (t : Table) :
    (Pass.updateEnclosing fn change).Returns t (t.note fn change) [] () := by
  cases fn <;> rfl

theorem reportIf (c : Bool) (line : Int) (v : Violation) (t : Table) :
    (Pass.reportIf c line v).Returns t t (if c then [⟨some line, v⟩] else []) () := by
  cases c <;> rfl

theorem inScope {p : Pass α} {a : α} (h : p.Returns t.enter u fs a) (hv : u.exit? = some v) :
    (Pass.inScope p).Returns t v fs a := by
  have he : Pass.exitScope.Returns u v [] () := by
    simp only [Returns, run, Pass.exitScope, hv]
  exact silent_bind (update Table.enter t) (bind_silent h (silent_bind he (pure a v)))

end Returns

theorem Stops.bind {p : Pass α} {f : α → Pass β} {t u : Table} {fs : List Finding} {e : Fault}
    (h : p.Stops t u fs e) : (p >>= f).Stops t u fs e := by
  have hr : (p.run t).result = .error e := by rw [h]
  rw [Stops, run_bind_of_error hr, h]

theorem Stops.unique {p : Pass α} {t u v : Table} {fs gs : List Finding} {e e' : Fault}
    (h : p.Stops t u fs e) (h' : p.Stops t v gs e') : u = v ∧ fs = gs ∧ e = e' := by
  rw [Stops, h] at h'
  injection h' with ht hf hr
  injection hr with hr
  exact ⟨ht, hf, hr⟩

theorem Stops.inScope {p : Pass α} {t u : Table} {fs : List Finding} {e : Fault}
    (h : p.Stops t.enter u fs e) : (Pass.inScope p).Stops t u fs e :=
  (Returns.update Table.enter t).bind_stops h.bind

/-- A pass splits where it was put together. -/
theorem Returns.of_bind {p : Pass α} {f : α → Pass β} {t v : Table} {b : β} {hs : List Finding}
    (h : (p >>= f).Returns t v hs b) :
    ∃ u fs a gs, p.Returns t u fs a ∧ (f a).Returns u v gs b ∧ hs = fs ++ gs := by
  rcases p.returns_or_stops t with ⟨u, fs, a, hp⟩ | ⟨u, fs, e, hp⟩
  · rcases (f a).returns_or_stops u with ⟨w, gs, c, hf⟩ | ⟨w, gs, e, hf⟩
    · obtain ⟨rfl, rfl, rfl⟩ := h.unique (hp.bind hf)
      exact ⟨u, fs, a, gs, hp, hf, rfl⟩
    · exact absurd (hp.bind_stops hf) h.not_stops
  · exact absurd hp.bind h.not_stops

theorem Stops.of_bind {p : Pass α} {f : α → Pass β} {t v : Table} {e : Fault} {hs : List Finding}
    (h : (p >>= f).Stops t v hs e) :
    p.Stops t v hs e ∨
      ∃ u fs a gs, p.Returns t u fs a ∧ (f a).Stops u v gs e ∧ hs = fs ++ gs := by
  rcases p.returns_or_stops t with ⟨u, fs, a, hp⟩ | ⟨u, fs, e', hp⟩
  · rcases (f a).returns_or_stops u with ⟨w, gs, c, hf⟩ | ⟨w, gs, e', hf⟩
    · exact absurd h (hp.bind hf).not_stops
    · obtain ⟨rfl, rfl, rfl⟩ := h.unique (hp.bind_stops hf)
      exact .inr ⟨u, fs, a, gs, hp, hf, rfl⟩
  · obtain ⟨rfl, rfl, rfl⟩ := h.unique hp.bind
    exact .inl hp

theorem Returns.of_inScope {p : Pass α} {t v : Table} {a : α} {fs : List Finding}
    (h : (Pass.inScope p).Returns t v fs a) :
    ∃ u, p.Returns t.enter u fs a ∧ u.exit? = some v := by
  obtain ⟨t', f₁, _, g₁, hu, h₁, rfl⟩ := h.of_bind
  obtain ⟨rfl, rfl, -⟩ := hu.unique (Returns.update Table.enter t)
  obtain ⟨u, f₂, b, g₂, hp, h₂, rfl⟩ := h₁.of_bind
  obtain ⟨w, f₃, _, g₃, he, h₃, rfl⟩ := h₂.of_bind
  obtain ⟨rfl, rfl, rfl⟩ := h₃.unique (Returns.pure b w)
  cases hx : u.exit? with
  | none =>
    simp only [Returns, run, exitScope, hx] at he
    cases he
  | some outer =>
    have he' : exitScope.Returns u outer [] () := by
      simp only [Returns, run, exitScope, hx]
    obtain ⟨rfl, rfl, -⟩ := he.unique he'
    exact ⟨u, by simpa using hp, hx⟩

end Pass

namespace Check

open Pass

variable {t u : Table} {fs : List Finding} {line : Int} {name : String}

private theorem returns_expect (line : Int) (target source : Ty) (v : Violation) (t : Table) :
    (expect line target source v).Returns t t (mismatch line target source v) () := by
  cases h : target.accepts source <;> simp only [expect, mismatch, h] <;> rfl

theorem returns_redeclaration (t : Table) (around : Option Function) (line : Int) (name : String) :
    (redeclaration t around line name).Returns t t (redeclared t around line name) () := by
  cases h : (t.resolveHere name).isSome <;> cases around <;>
    simp only [redeclaration, redeclared, h] <;> rfl

private theorem returns_forM_report {γ : Type} (l : List γ) (line : Int) (v : Violation)
    (t : Table) :
    (l.forM fun _ => report line v).Returns t t (l.map fun _ => ⟨some line, v⟩) () := by
  induction l with
  | nil => rfl
  | cons _ l ih => exact (Returns.report line v t).bind ih

theorem returns_parameterConflicts (around : Option Function) (line : Int) (name : String)
    (t : Table) :
    (parameterConflicts around line name).Returns t t (conflicts around line name) () := by
  cases around with
  | none => rfl
  | some f => exact returns_forM_report _ _ _ t

theorem returns_initializer_missing (declared : Ty) (isConst : Bool) {init : Node}
    (initText : Option String) (visitInit : Pass Ty) (hm : init.isMissing = true) (t : Table) :
    (initializer line name declared isConst init initText visitInit).Returns t t
      (uninitialized line name isConst init) none := by
  simp only [initializer, uninitialized, hm, if_true, Bool.and_true]
  exact Returns.bind_silent (Returns.reportIf _ _ _ t) (Returns.pure _ t)

theorem returns_initializer {declared got : Ty} (isConst : Bool) {init : Node}
    {initText : Option String} {visitInit : Pass Ty} {text : String}
    (hm : init.isMissing = false) (hv : visitInit.Returns t u fs got)
    (ht : initTextOf init initText = .ok text) :
    (initializer line name declared isConst init initText visitInit).Returns t u
      (fs ++ mismatch line declared got (.initMismatch name declared got)) (some text) := by
  simp only [initializer, hm, Bool.false_eq_true, if_false]
  refine hv.bind (Returns.silent_bind (Returns.lift ht u) ?_)
  exact Returns.bind_silent (returns_expect _ _ _ _ u) (Returns.pure _ u)

theorem returns_variableDecl {fn : Option FunctionId} {typeText : Option String} {isConst : Bool}
    {init : Node} {initText text : Option String} {visitInit : Pass Ty}
    (h : (initializer line name (Ty.ofText typeText) isConst init initText visitInit).Returns
      t u fs text) :
    (variableDecl fn line name typeText isConst init initText visitInit).Returns t
      ((u.defineVariable ⟨name, Ty.ofText typeText, line, isConst, text⟩).2.note fn
        (·.addLocal ⟨name, Ty.ofText typeText, line, isConst, text⟩))
      (redeclared t (t.around fn) line name ++ (conflicts (t.around fn) line name ++ fs))
      .void := by
  refine Returns.silent_bind (Returns.table t) (Returns.silent_bind (Returns.enclosing fn t) ?_)
  refine Returns.bind (returns_redeclaration t (t.around fn) line name) ?_
  refine Returns.bind (returns_parameterConflicts (t.around fn) line name t)
    (Returns.bind_silent h ?_)
  exact Returns.silent_bind (Returns.update _ u)
    (Returns.silent_bind (Returns.updateEnclosing fn _ _) (Returns.pure _ _))

theorem returns_declareFunction (f : Function) (t : Table) :
    (declareFunction f).Returns t (t.declare f) (hidden t f) t.nextId := by
  refine Returns.silent_bind (Returns.table t) ?_
  cases h : t.current.contains f.name <;>
    simp only [Table.declare, hidden, Table.defineFunction, h] <;> rfl

private theorem returns_declareParameter (id : FunctionId) (function : String) (p : Param)
    (t : Table) :
    (declareParameter id function p).Returns t (t.addParameter id p.variable)
      (if t.current.contains p.name then [⟨some p.line, .parameterRepeated p.name function⟩]
        else []) () := by
  refine Returns.silent_bind (Returns.table t) ?_
  cases h : t.current.contains p.name <;>
    simp only [Table.addParameter, Param.variable, Table.defineVariable, h] <;> rfl

theorem returns_declareParameters (id : FunctionId) (function : String) (params : List Param)
    (t : Table) :
    (params.forM (declareParameter id function)).Returns t
      ((params.map Param.variable).foldl (Table.addParameter id) t)
      (repeated id function t params) () := by
  induction params generalizing t with
  | nil => rfl
  | cons p params ih => exact (returns_declareParameter id function p t).bind (ih _)

theorem returns_functionEnd (id : FunctionId) (line : Int) (name : String) (type : Ty)
    (t : Table) :
    (functionEnd id line name type).Returns t t (unfinished (t.record? id) line name type) () := by
  refine Returns.silent_bind (Returns.enclosing (some id) t) ?_
  exact (Returns.reportIf _ _ _ t).bind (Returns.reportIf _ _ _ t)

theorem returns_functionDecl_taken {returnText : Option String} {params : List Param}
    {visitBody : FunctionId → Pass Unit} (h : t.registry.contains name = true) :
    (functionDecl line name returnText params visitBody).Returns t t
      [⟨some line, .functionRedefined name⟩] .error := by
  refine Returns.silent_bind (Returns.table t) ?_
  simp only [h, if_true]
  exact Returns.bind_silent (Returns.report _ _ t) (Returns.pure _ t)

/-- The head of a function as it is declared. -/
def head (line : Int) (name : String) (returnText : Option String) : Function :=
  .declared name (Ty.ofReturnText returnText) line []

theorem returns_functionDecl {returnText : Option String} {params : List Param}
    {visitBody : FunctionId → Pass Unit} {v : Table} (h : t.registry.contains name = false)
    (hb : (visitBody t.nextId).Returns
      (t.openFunction (head line name returnText) (params.map Param.variable)) u fs ())
    (hv : u.exit? = some v) :
    (functionDecl line name returnText params visitBody).Returns t v
      (hidden t (head line name returnText) ++
        (repeated t.nextId name (t.declare (head line name returnText)).enter params ++
          (fs ++ unfinished (u.record? t.nextId) line name (Ty.ofReturnText returnText))))
      .void := by
  refine Returns.silent_bind (Returns.table t) ?_
  simp only [h, Bool.false_eq_true, if_false]
  refine Returns.bind (returns_declareFunction _ t) ?_
  refine Returns.bind_silent (a := ()) (Returns.inScope ?_ hv) (Returns.pure _ v)
  refine Returns.bind (returns_declareParameters t.nextId name params _) ?_
  exact hb.bind (returns_functionEnd t.nextId line name _ u)

theorem stops_functionDecl {returnText : Option String} {params : List Param}
    {visitBody : FunctionId → Pass Unit} {e : Fault} (h : t.registry.contains name = false)
    (hb : (visitBody t.nextId).Stops
      (t.openFunction (head line name returnText) (params.map Param.variable)) u fs e) :
    (functionDecl line name returnText params visitBody).Stops t u
      (hidden t (head line name returnText) ++
        (repeated t.nextId name (t.declare (head line name returnText)).enter params ++ fs)) e := by
  refine (Returns.table t).bind_stops ?_
  simp only [h, Bool.false_eq_true, if_false]
  refine (returns_declareFunction _ t).bind_stops (Stops.bind (Stops.inScope ?_))
  exact (returns_declareParameters t.nextId name params _).bind_stops hb.bind

theorem returns_assignment_undeclared {visitValue : Pass Ty} (h : t.resolve name = none) :
    (assignment line name visitValue).Returns t t [⟨some line, .targetUndeclared name⟩] .error := by
  refine Returns.silent_bind (Returns.table t) ?_
  simp only [h]
  exact Returns.bind_silent (Returns.report _ _ t) (Returns.pure _ t)

theorem returns_assignment_function {visitValue : Pass Ty} {id : FunctionId}
    (h : t.resolve name = some (.function id)) :
    (assignment line name visitValue).Returns t t [⟨some line, .targetNotVariable name⟩]
      .error := by
  refine Returns.silent_bind (Returns.table t) ?_
  simp only [h]
  exact Returns.bind_silent (Returns.report _ _ t) (Returns.pure _ t)

theorem returns_assignment {visitValue : Pass Ty} {v : Variable} {got : Ty}
    (h : t.resolve name = some (.variable v)) (hv : visitValue.Returns t u fs got) :
    (assignment line name visitValue).Returns t u
      (constant line v name ++
        (fs ++ mismatch line v.type got (.assignMismatch name v.type got))) .void := by
  refine Returns.silent_bind (Returns.table t) ?_
  simp only [h]
  refine Returns.bind (Returns.reportIf _ _ _ t) (hv.bind ?_)
  exact Returns.bind_silent (returns_expect _ _ _ _ u) (Returns.pure _ u)

theorem returns_returning_outside {fn : Option FunctionId} {value : Node} {visitValue : Pass Ty}
    (h : t.around fn = none) :
    (returning fn line value visitValue).Returns t t [⟨some line, .returnOutside⟩] .error := by
  refine Returns.silent_bind (Returns.enclosing fn t) ?_
  simp only [h]
  exact Returns.bind_silent (Returns.report _ _ t) (Returns.pure _ t)

theorem returns_returning {fn : Option FunctionId} {value : Node} {visitValue : Pass Ty}
    {f : Function} {got : Ty} (h : t.around fn = some f)
    (hv : (if value.isMissing then pure Ty.void else visitValue).Returns
      (t.note fn (·.markReturn)) u fs got) :
    (returning fn line value visitValue).Returns t u
      (fs ++ mismatch line f.type got (.returnMismatch f.name f.type got)) .void := by
  refine Returns.silent_bind (Returns.enclosing fn t) ?_
  simp only [h]
  refine Returns.silent_bind (Returns.updateEnclosing fn _ t) ?_
  by_cases hm : value.isMissing = true
  · simp only [hm, if_true] at hv ⊢
    exact hv.bind (Returns.bind_silent (returns_expect _ _ _ _ u) (Returns.pure _ u))
  · simp only [hm, Bool.false_eq_true, if_false] at hv ⊢
    exact hv.bind (Returns.bind_silent (returns_expect _ _ _ _ u) (Returns.pure _ u))

private theorem returns_arguments (line : Int) (function : String) (first : Nat)
    (pairs : List (Ty × Variable)) (t : Table) :
    (arguments line function first pairs).Returns t t (mismatches line function first pairs)
      () := by
  induction pairs generalizing first with
  | nil => rfl
  | cons pair pairs ih => exact (returns_expect _ _ _ _ t).bind (ih (first + 1))

theorem returns_application (line : Int) (name : String) (callee : Function) (got : List Ty)
    (t : Table) :
    (application line name callee got).Returns t t (misapplied line name callee got) () := by
  by_cases h : got.length = callee.parameters.length
  · simp only [application, misapplied, h, if_true]
    exact returns_arguments _ _ _ _ t
  · simp only [application, misapplied, h, if_false]
    exact Returns.report _ _ t

theorem returns_functionCall_undefined {fn : Option FunctionId} {visitArgs : Pass (List Ty)}
    {got : List Ty} (h : t.registered? name = none) (hv : visitArgs.Returns t u fs got) :
    (functionCall fn line name visitArgs).Returns t u
      (⟨some line, .functionUndefined name⟩ :: fs) .unknown := by
  refine Returns.silent_bind (Returns.table t) ?_
  simp only [h]
  exact Returns.bind (Returns.report _ _ t) (Returns.bind_silent hv (Returns.pure _ u))

theorem returns_functionCall {fn : Option FunctionId} {visitArgs : Pass (List Ty)}
    {id : FunctionId} {callee : Function} {got : List Ty}
    (h : t.registered? name = some (id, callee))
    (hv : visitArgs.Returns (calling t fn name) u fs got) :
    (functionCall fn line name visitArgs).Returns t u
      (mainCalls line name (t.around fn) ++ (fs ++ misapplied line name callee got))
      callee.type := by
  have hself : (selfCall fn name (t.around fn)).Returns t (calling t fn name) [] () := by
    cases hc : (t.around fn).any (·.name == name) <;> simp only [selfCall, calling, hc]
    · rfl
    · exact Returns.updateEnclosing fn _ t
  refine Returns.silent_bind (Returns.table t) ?_
  simp only [h]
  refine Returns.silent_bind (Returns.enclosing fn t) ?_
  refine Returns.bind (Returns.reportIf _ _ _ t) (Returns.silent_bind hself (hv.bind ?_))
  exact Returns.bind_silent (returns_application line name callee got u) (Returns.pure _ u)

theorem returns_identifierUse (line : Int) (name : String) (t : Table) :
    (identifierUse line name).Returns t t (undeclared t line name) (t.typeOf name) := by
  refine Returns.silent_bind (Returns.table t) ?_
  cases h : t.resolve name with
  | none =>
    simp only [undeclared, Table.typeOf, h]
    exact Returns.bind_silent (Returns.report _ _ t) (Returns.pure _ t)
  | some s => cases s <;> simp only [undeclared, Table.typeOf, h] <;> rfl

end Check

end MiniCheck
