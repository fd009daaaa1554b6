import MiniCheck.Proofs.Parts

/-!
# Outlines of tables

The outline of a table forgets what no check reads: the texts of initializers, and the locals, the
control statements and the marks of recursion of the functions. Everything that a visit does to a
table it does to the outline. Tables with one outline are alike.
-/

namespace MiniCheck

def Variable.outline (v : Variable) : Variable := { v with initText := none }

def Symbol.outline : Symbol → Symbol
  | .variable v => .variable v.outline
  | .function id => .function id

def Function.outline (f : Function) : Function :=
  { f with locals := [], controls := [], isRecursive := false }

def Scope.outline (s : Scope) : Scope := ⟨s.entries.map fun e => (e.1, e.2.outline)⟩

def Notes.outline (n : Notes) : Notes := ⟨[], [], n.hasReturn⟩

def Table.outline (t : Table) : Table where
  current := Scope.outline t.current
  enclosing := t.enclosing.map Scope.outline
  registry := t.registry
  records := t.records.map Function.outline

theorem Variable.eq_of_outline {v w : Variable} (h : v.outline = w.outline) :
    v.name = w.name ∧ v.type = w.type ∧ v.isConst = w.isConst := by
  simp only [outline, Variable.mk.injEq] at h
  exact ⟨h.1, h.2.1, h.2.2.2.1⟩

theorem Function.eq_of_outline {f g : Function} (h : f.outline = g.outline) :
    f.name = g.name ∧ f.type = g.type ∧ f.parameters = g.parameters := by
  simp only [outline, Function.mk.injEq] at h
  exact ⟨h.1, h.2.1, h.2.2.2.1⟩

private theorem Scope.find?_outline (s : Scope) (name : String) :
    (Scope.outline s).find? name = (s.find? name).map Symbol.outline := by
  obtain ⟨entries⟩ := s
  simp only [Scope.outline, NameMap.find?]
  induction entries with
  | nil => rfl
  | cons e entries ih =>
    rw [List.map_cons, List.lookup_cons, List.lookup_cons, ih]
    cases name == e.1 <;> rfl

private theorem Scope.contains_outline (s : Scope) (name : String) :
    (Scope.outline s).contains name = s.contains name := by
  rw [NameMap.contains, Scope.find?_outline, Option.isSome_map, NameMap.contains]

private theorem Scope.push_outline (s : Scope) (name : String) (symbol : Symbol) :
    Scope.outline (s.push name symbol) = (Scope.outline s).push name symbol.outline := by
  simp [Scope.outline, NameMap.push]

private theorem Scope.bind_outline (s : Scope) (v : Variable) :
    Scope.outline (Scope.bind s v) = Scope.bind (Scope.outline s) v.outline := by
  have hc : (Scope.outline s).contains v.outline.name = s.contains v.name :=
    Scope.contains_outline s v.name
  rw [Scope.bind, Scope.bind, hc]
  split
  · rfl
  · exact Scope.push_outline ..

namespace Table

variable (t : Table)

private theorem scopes_outline : t.outline.scopes = t.scopes.map Scope.outline := rfl

private theorem resolve_outline (name : String) :
    t.outline.resolve name = (t.resolve name).map Symbol.outline := by
  rw [resolve, resolve, scopes_outline]
  induction t.scopes with
  | nil => rfl
  | cons s ss ih =>
    rw [List.map_cons, List.findSome?_cons, List.findSome?_cons, Scope.find?_outline, ih]
    cases s.find? name <;> rfl

private theorem record?_outline (id : FunctionId) :
    t.outline.record? id = (t.record? id).map Function.outline := by
  simp [record?, outline]

private theorem around_outline (fn : Option FunctionId) :
    t.outline.around fn = (t.around fn).map Function.outline := by
  cases fn with
  | none => rfl
  | some id => exact t.record?_outline id

private theorem registered?_outline (name : String) :
    t.outline.registered? name =
      (t.registered? name).map fun found => (found.1, found.2.outline) := by
  rw [registered?_eq, registered?_eq]
  change (t.registry.find? name).bind _ = _
  cases t.registry.find? name with
  | none => rfl
  | some id =>
    simp only [Option.bind_some, record?_outline, Option.map_map]
    rfl

private theorem enter_outline : t.enter.outline = t.outline.enter := rfl

private theorem exit?_outline : t.outline.exit? = t.exit?.map outline := by
  cases h : t.enclosing <;> simp [exit?, outline, h]

private theorem collect_outline (fn : Option FunctionId) (n : Notes) (b : Bool) :
    (t.collect fn n b).outline = t.outline.collect fn n.outline false := by
  cases fn with
  | none => rfl
  | some id =>
    have hm : (t.records.modify id (·.collect n b)).map Function.outline =
        (t.records.map Function.outline).modify id (·.collect n.outline false) := by
      generalize t.records = rs
      induction rs generalizing id with
      | nil => simp
      | cons f rs ih =>
        cases id with
        | zero => simp [Function.outline, Function.collect, Notes.outline]
        | succ id => simpa using ih id
    simp only [collect, note, updateFunction, outline, hm]

theorem declaring_outline {s s' : Node}
    (h : s.declared?.map Variable.outline = s'.declared?.map Variable.outline) (u : Table)
    (ht : t.outline = u.outline) : (t.declaring s).outline = (u.declaring s').outline := by
  cases hv : s.declared? with
  | none =>
    rw [hv] at h
    have hv' : s'.declared? = none := by simpa using h.symm
    simpa only [declaring, hv, hv'] using ht
  | some v =>
    rw [hv] at h
    obtain ⟨v', hv', he⟩ := Option.map_eq_some_iff.mp h.symm
    have hd : ∀ (t : Table) (v : Variable), ({ t with current := Scope.bind t.current v }).outline =
        { t.outline with current := Scope.bind t.outline.current v.outline } := by
      intro t v
      simp only [outline, Scope.bind_outline]
    simp only [declaring, hv, hv', defineVariable_eq, hd, ht, he]

private theorem declare_outline (f : Function) :
    (t.declare f).outline = t.outline.declare f.outline := by
  have hc : t.outline.current.contains f.outline.name = t.current.contains f.name :=
    Scope.contains_outline t.current f.name
  cases h : t.current.contains f.name with
  | true =>
    rw [declare, if_pos h, declare, if_pos (hc.trans h)]
    simp [registerFunction, outline, nextId, Function.outline]
  | false =>
    simp only [declare, defineFunction, hc, h, Bool.false_eq_true, if_false]
    simp [registerFunction, outline, nextId, Function.outline, Scope.push_outline, Symbol.outline]

private theorem openFunction_outline (line : Int) (name : String) (returnText : Option String)
    (params : List Variable) :
    (t.openFunction (Check.head line name returnText) params).outline =
      { (t.outline.declare (.declared name (Ty.ofReturnText returnText) line params)).enter with
        current := Scope.outline (params.foldl Scope.bind .empty) } := by
  have hf : (Function.declared name (Ty.ofReturnText returnText) line params).outline =
      .declared name (Ty.ofReturnText returnText) line params := rfl
  rw [openFunction_eq_enter, ← hf, ← declare_outline, ← enter_outline]
  rfl

end Table

theorem cases_of_map_eq {α β γ : Type} {f : α → γ} {g : β → γ} {a : Option α} {b : Option β}
    (h : a.map f = b.map g) :
    (a = none ∧ b = none) ∨ ∃ x y, a = some x ∧ b = some y ∧ f x = g y := by
  cases a with
  | none => exact .inl ⟨rfl, by simpa using h.symm⟩
  | some x =>
    obtain ⟨y, hy, he⟩ := Option.map_eq_some_iff.mp h.symm
    exact .inr ⟨x, y, rfl, hy, he.symm⟩

/-- The tables have the same outline. -/
def Table.Alike (t u : Table) : Prop := t.outline = u.outline

namespace Table.Alike

variable {t u : Table}

theorem collect (h : t.Alike u) (fn : Option FunctionId) {m n : Notes} (a b : Bool)
    (hr : m.hasReturn = n.hasReturn) : (t.collect fn m a).Alike (u.collect fn n b) := by
  rw [Alike, collect_outline, collect_outline, h, Notes.outline, hr, Notes.outline]

theorem enter (h : t.Alike u) : t.enter.Alike u.enter := by
  rw [Alike, enter_outline, h, enter_outline]

theorem exit {t' u' : Table} (h : t.Alike u) (ht : t.exit? = some t') (hu : u.exit? = some u') :
    t'.Alike u' := by
  have ho := t.exit?_outline
  rw [h, exit?_outline, ht, hu] at ho
  exact (Option.some.inj ho).symm

theorem resolve_cases (h : t.Alike u) (name : String) :
    (t.resolve name = none ∧ u.resolve name = none) ∨
    (∃ id, t.resolve name = some (.function id) ∧ u.resolve name = some (.function id)) ∨
    ∃ v w, t.resolve name = some (.variable v) ∧ u.resolve name = some (.variable w) ∧
      v.outline = w.outline := by
  have ho := t.resolve_outline name
  rw [h, resolve_outline] at ho
  obtain ⟨ht, hu⟩ | ⟨x, y, ht, hu, he⟩ := cases_of_map_eq ho.symm
  · exact .inl ⟨ht, hu⟩
  · cases x with
    | function id =>
      cases y with
      | function id' =>
        obtain rfl : id = id' := by simpa [Symbol.outline] using he
        exact .inr (.inl ⟨id, ht, hu⟩)
      | «variable» w => simp [Symbol.outline] at he
    | «variable» v =>
      cases y with
      | function id' => simp [Symbol.outline] at he
      | «variable» w =>
        have he : v.outline = w.outline := by simpa [Symbol.outline] using he
        exact .inr (.inr ⟨v, w, ht, hu, he⟩)

theorem around_cases (h : t.Alike u) (fn : Option FunctionId) :
    (t.around fn = none ∧ u.around fn = none) ∨
    ∃ f g, t.around fn = some f ∧ u.around fn = some g ∧ f.outline = g.outline := by
  apply cases_of_map_eq
  rw [← around_outline, h, around_outline]

private theorem around_map (h : t.Alike u) (fn : Option FunctionId) {α : Type} {part : Function → α}
    (hp : ∀ f g : Function, f.outline = g.outline → part f = part g) :
    (t.around fn).map part = (u.around fn).map part := by
  obtain ⟨ht, hu⟩ | ⟨f, g, ht, hu, hfg⟩ := h.around_cases fn
  · rw [ht, hu]
  · rw [ht, hu, Option.map_some, Option.map_some, hp f g hfg]

theorem registered_cases (h : t.Alike u) (name : String) :
    (t.registered? name = none ∧ u.registered? name = none) ∨
    ∃ id f g, t.registered? name = some (id, f) ∧ u.registered? name = some (id, g) ∧
      f.outline = g.outline := by
  have ho := t.registered?_outline name
  rw [h, registered?_outline] at ho
  obtain ⟨ht, hu⟩ | ⟨x, y, ht, hu, he⟩ := cases_of_map_eq ho.symm
  · exact .inl ⟨ht, hu⟩
  · obtain ⟨hid, hf⟩ := Prod.mk.inj he
    exact .inr ⟨x.1, x.2, y.2, ht, by rw [hu, hid], hf⟩

theorem registry (h : t.Alike u) : t.registry = u.registry := by
  have hr : t.outline.registry = u.outline.registry := by rw [h]
  exact hr

theorem nextId (h : t.Alike u) : t.nextId = u.nextId := by
  have hl := congrArg (fun o => o.records.length) h
  simpa [Table.outline, Table.nextId] using hl

private theorem contains (h : t.Alike u) (name : String) :
    t.current.contains name = u.current.contains name := by
  have hc := congrArg (fun o => o.current.contains name) h
  simpa [Table.outline, Scope.contains_outline] using hc

theorem declare (h : t.Alike u) {f g : Function} (hf : f.outline = g.outline) :
    (t.declare f).Alike (u.declare g) := by
  rw [Alike, declare_outline, h, hf, declare_outline]

theorem openFunction (h : t.Alike u) (line : Int) (name : String) (returnText : Option String)
    (params : List Variable) :
    (t.openFunction (Check.head line name returnText) params).Alike
      (u.openFunction (Check.head line name returnText) params) := by
  rw [Alike, openFunction_outline, h, openFunction_outline]

end Table.Alike

namespace Check

section Congruence

variable {t u : Table} {f g : Option Function} (line : Int) (name : String)

theorem redeclared_congr (hc : t.current.contains name = u.current.contains name)
    (hn : f.map Function.name = g.map Function.name) :
    redeclared t f line name = redeclared u g line name := by
  have hc' : (t.resolveHere name).isSome = (u.resolveHere name).isSome := hc
  unfold redeclared
  rw [hc']
  obtain ⟨rfl, rfl⟩ | ⟨x, y, rfl, rfl, hxy⟩ := cases_of_map_eq hn
  · rfl
  · simp only [hxy]

theorem conflicts_congr (hp : f.map Function.parameters = g.map Function.parameters) :
    conflicts f line name = conflicts g line name := by
  obtain ⟨rfl, rfl⟩ | ⟨x, y, rfl, rfl, hxy⟩ := cases_of_map_eq hp
  · rfl
  · simp only [conflicts, hxy]

theorem mainCalls_congr (hn : f.map Function.name = g.map Function.name) :
    mainCalls line name f = mainCalls line name g := by
  obtain ⟨rfl, rfl⟩ | ⟨x, y, rfl, rfl, hxy⟩ := cases_of_map_eq hn
  · rfl
  · rw [mainCalls, Option.any_some, Function.isMain, hxy]
    rfl

end Congruence

variable {t u : Table} (h : t.Alike u) (fn : Option FunctionId) (line : Int) (name : String)
include h

theorem redeclared_alike :
    redeclared t (t.around fn) line name = redeclared u (u.around fn) line name :=
  redeclared_congr line name (h.contains name)
    (h.around_map fn fun _ _ he => (Function.eq_of_outline he).1)

theorem conflicts_alike :
    conflicts (t.around fn) line name = conflicts (u.around fn) line name :=
  conflicts_congr line name (h.around_map fn fun _ _ he => (Function.eq_of_outline he).2.2)

theorem mainCalls_alike :
    mainCalls line name (t.around fn) = mainCalls line name (u.around fn) :=
  mainCalls_congr line name (h.around_map fn fun _ _ he => (Function.eq_of_outline he).1)

theorem undeclared_alike : undeclared t line name = undeclared u line name := by
  obtain ⟨ht, hu⟩ | ⟨id, ht, hu⟩ | ⟨v, w, ht, hu, -⟩ := h.resolve_cases name <;>
    simp [undeclared, ht, hu]

omit h in
theorem repeated_congr (ht : t.current = u.current) (i j : FunctionId) (function : String)
    (params : List Param) : repeated i function t params = repeated j function u params := by
  induction params generalizing t u with
  | nil => rfl
  | cons p params ih =>
    have hbind : (t.addParameter i p.variable).current = (u.addParameter j p.variable).current := by
      rw [Table.current_addParameter, ht, Table.current_addParameter]
    rw [repeated, ht, ih hbind, repeated]

theorem hidden_alike (f : Function) : hidden t f = hidden u f := by
  rw [hidden, h.contains, hidden]

end Check

theorem Table.Alike.typeOf {t u : Table} (h : t.Alike u) (name : String) :
    t.typeOf name = u.typeOf name := by
  obtain ⟨ht, hu⟩ | ⟨id, ht, hu⟩ | ⟨v, w, ht, hu, hvw⟩ := h.resolve_cases name
  · simp only [Table.typeOf, ht, hu]
  · simp only [Table.typeOf, ht, hu]
  · simpa only [Table.typeOf, ht, hu] using (Variable.eq_of_outline hvw).2.1

end MiniCheck
