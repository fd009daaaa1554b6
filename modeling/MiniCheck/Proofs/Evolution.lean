import MiniCheck.Proofs.Runs

/-!
# How a visit changes the table

A visit changes a table in a few ways only: it binds a variable, notes something in the record of
the function around, declares a function, or works in a scope of its own. `Evolves` is what a
finished visit can do, `Breaks` what one can do that stops with a fault. Every invariant of visits
follows from these two by induction.
-/

namespace MiniCheck

/-- What the analysis collects about a function while it visits the body. -/
inductive Note : (Function → Function) → Prop
  | addLocal (v : Variable) : Note (·.addLocal v)
  | addControl (c : Control) : Note (·.addControl c)
  | markReturn : Note (·.markReturn)
  | markRecursive : Note (·.markRecursive)

inductive Evolves : Option FunctionId → Table → Table → Prop
  | refl {fn t} : Evolves fn t t
  | trans {fn t u v} : Evolves fn t u → Evolves fn u v → Evolves fn t v
  | bindVariable {fn t} (v : Variable) : Evolves fn t (t.defineVariable v).2
  | note {id t change} : Note change → Evolves (some id) t (t.updateFunction id change)
  | outside {fn t u} : Evolves none t u → Evolves fn t u
  | scope {fn t u v} : Evolves fn t.enter u → u.exit? = some v → Evolves fn t v
  | function {fn t u v} (f : Function) (params : List Variable) :
      t.registry.contains f.name = false →
      Evolves (some t.nextId) (t.openFunction f params) u → u.exit? = some v → Evolves fn t v

/-- A fault leaves open the scopes that were entered before it. -/
inductive Breaks : Option FunctionId → Table → Table → Prop
  | here {fn t} : Breaks fn t t
  | after {fn t u v} : Evolves fn t u → Breaks fn u v → Breaks fn t v
  | outside {fn t u} : Breaks none t u → Breaks fn t u
  | scope {fn t u} : Breaks fn t.enter u → Breaks fn t u
  | function {fn t u} (f : Function) (params : List Variable) :
      t.registry.contains f.name = false →
      Breaks (some t.nextId) (t.openFunction f params) u → Breaks fn t u

namespace NameMap

variable {α : Type}

/-- `m.Extends n`: `n` is `m` with entries under new names added at its end. -/
def Extends (m n : NameMap α) : Prop :=
  ∃ added : List (String × α), n.entries = m.entries ++ added ∧
    (added.map Prod.fst).Nodup ∧ ∀ key ∈ added.map Prod.fst, key ∉ m.keys

theorem Extends.refl (m : NameMap α) : m.Extends m := ⟨[], by simp⟩

private theorem Extends.trans {m n o : NameMap α} (h : m.Extends n) (h' : n.Extends o) :
    m.Extends o := by
  obtain ⟨added, hn, hd, hf⟩ := h
  obtain ⟨added', ho, hd', hf'⟩ := h'
  have hk : n.keys = m.keys ++ added.map Prod.fst := by simp [keys, hn]
  refine ⟨added ++ added', by rw [ho, hn, List.append_assoc], ?_, ?_⟩
  · rw [List.map_append]
    refine List.nodup_append.mpr ⟨hd, hd', ?_⟩
    intro a ha b hb hab
    exact hf' b hb (by rw [hk, ← hab]; exact List.mem_append_right _ ha)
  · intro key hkey
    rw [List.map_append, List.mem_append] at hkey
    rcases hkey with hkey | hkey
    · exact hf key hkey
    · intro hm
      exact hf' key hkey (by rw [hk]; exact List.mem_append_left _ hm)

private theorem Extends.push {m : NameMap α} {key : String} (value : α)
    (h : m.contains key = false) :
    m.Extends (m.push key value) := by
  have hk : key ∉ m.keys := by
    intro hm
    rw [(m.contains_eq_true_iff key).mpr hm] at h
    exact absurd h (by decide)
  exact ⟨[(key, value)], rfl, by simp, by simpa using hk⟩

end NameMap

/-- `g` is a later state of the record `f`. -/
structure Function.Follows (f g : Function) : Prop where
  name : g.name = f.name
  type : g.type = f.type
  line : g.line = f.line

theorem Note.follows {change : Function → Function} (h : Note change) (f : Function) :
    f.Follows (change f) := by
  cases h <;> exact ⟨rfl, rfl, rfl⟩

/-- The enclosing scopes are the same, and the current scope and the registry only grow. A function
keeps its number. -/
structure Table.Grows (t u : Table) : Prop where
  enclosing : u.enclosing = t.enclosing
  current : t.current.Extends u.current
  registry : t.registry.Extends u.registry
  records : ∀ id f, t.record? id = some f → ∃ g, u.record? id = some g ∧ f.Follows g

namespace Table.Grows

private theorem of_records_eq {t u : Table} (he : u.enclosing = t.enclosing)
    (hc : t.current.Extends u.current) (hr : t.registry.Extends u.registry)
    (h : u.records = t.records) : t.Grows u :=
  ⟨he, hc, hr, fun id f hf => ⟨f, by rw [← hf, record?, h, record?], rfl, rfl, rfl⟩⟩

private theorem refl (t : Table) : t.Grows t := of_records_eq rfl (.refl _) (.refl _) rfl

private theorem trans {t u v : Table} (h : t.Grows u) (h' : u.Grows v) : t.Grows v := by
  refine ⟨h'.enclosing.trans h.enclosing, h.current.trans h'.current,
    h.registry.trans h'.registry, ?_⟩
  intro id f hf
  obtain ⟨g, hg, hfg⟩ := h.records id f hf
  obtain ⟨k, hk, hgk⟩ := h'.records id g hg
  exact ⟨k, hk, hgk.name.trans hfg.name, hgk.type.trans hfg.type, hgk.line.trans hfg.line⟩

theorem updateFunction (t : Table) (id : FunctionId) {change : Function → Function}
    (hc : ∀ f : Function, f.Follows (change f)) : t.Grows (t.updateFunction id change) := by
  refine ⟨rfl, .refl _, .refl _, ?_⟩
  intro other f hf
  rw [record?_updateFunction]
  by_cases h : id = other
  · exact ⟨change f, by rw [if_pos h, hf]; rfl, hc f⟩
  · exact ⟨f, by rw [if_neg h, hf], rfl, rfl, rfl⟩

private theorem defineVariable (t : Table) (v : Variable) : t.Grows (t.defineVariable v).2 := by
  by_cases h : t.current.contains v.name = true
  · simp only [Table.defineVariable, h, if_true]
    exact refl t
  · have hf : t.current.contains v.name = false := by simpa using h
    simp only [Table.defineVariable, hf, Bool.false_eq_true, if_false]
    exact of_records_eq rfl (.push _ hf) (.refl _) rfl

private theorem declare {t : Table} {f : Function} (hf : t.registry.contains f.name = false) :
    t.Grows (t.declare f) := by
  have hr : t.registry.Extends (t.registry.insert f.name t.nextId) := by
    simp only [NameMap.insert, hf, Bool.false_eq_true, if_false]
    exact .push _ hf
  have hk : ∀ id g, t.record? id = some g → ∃ g', (t.records ++ [f])[id]? = some g' ∧
      g.Follows g' := by
    intro id g hg
    have hlt : id < t.records.length := (List.getElem?_eq_some_iff.mp hg).1
    exact ⟨g, by rw [List.getElem?_append_left hlt]; exact hg, rfl, rfl, rfl⟩
  by_cases h : t.current.contains f.name = true
  · simp only [Table.declare, h, if_true]
    exact ⟨rfl, .refl _, hr, hk⟩
  · have hc : t.current.contains f.name = false := by simpa using h
    simp only [Table.declare, Table.defineFunction, hc, Bool.false_eq_true, if_false]
    exact ⟨rfl, .push _ hc, hr, hk⟩

private theorem addParameters (id : FunctionId) (params : List Variable) (t : Table) :
    t.Grows (params.foldl (Table.addParameter id) t) := by
  induction params generalizing t with
  | nil => exact refl t
  | cons v params ih =>
    have hv : t.Grows (t.addParameter id v) :=
      (defineVariable t v).trans (updateFunction _ id fun _ => ⟨rfl, rfl, rfl⟩)
    exact hv.trans (ih _)

private theorem exit?_eq {t u : Table} (h : t.enter.Grows u) :
    u.exit? = some { u with current := t.current, enclosing := t.enclosing } := by
  have he : u.enclosing = t.current :: t.enclosing := h.enclosing
  simp only [Table.exit?, he]

private theorem exit {t u v : Table} (h : t.enter.Grows u) (hv : u.exit? = some v) :
    v.current = t.current ∧ t.Grows v := by
  rw [h.exit?_eq, Option.some.injEq] at hv
  subst v
  exact ⟨rfl, rfl, .refl _, h.registry, h.records⟩

/-- A function leaves only its own name in the scope around. -/
theorem exitFunction {t u v : Table} {f : Function} {params : List Variable}
    (hf : t.registry.contains f.name = false) (h : (t.openFunction f params).Grows u)
    (hv : u.exit? = some v) : v.current = (t.declare f).current ∧ t.Grows v := by
  have hin : (t.declare f).enter.Grows u := (addParameters _ params _).trans h
  obtain ⟨hcur, hv⟩ := hin.exit hv
  exact ⟨hcur, (declare hf).trans hv⟩

end Table.Grows

theorem Evolves.grows {fn : Option FunctionId} {t u : Table} (h : Evolves fn t u) : t.Grows u := by
  induction h with
  | refl => exact .refl _
  | trans _ _ ih ih' => exact ih.trans ih'
  | bindVariable v => exact .defineVariable _ v
  | note hn => exact .updateFunction _ _ hn.follows
  | outside _ ih => exact ih
  | scope _ hv ih => exact (ih.exit hv).2
  | function f params hf _ hv ih => exact (ih.exitFunction hf hv).2

theorem Table.scopes_of_exit? {u v : Table} (h : u.exit? = some v) :
    u.scopes = u.current :: v.scopes ∧ u.registry = v.registry ∧ u.records = v.records := by
  cases he : u.enclosing with
  | nil => simp [exit?, he] at h
  | cons s rest =>
    simp only [exit?, he, Option.some.injEq] at h
    subst v
    exact ⟨by simp [scopes, he], rfl, rfl⟩

/-- After a fault the table is a grown one, with the scopes on top that stayed open. -/
theorem Breaks.grows {fn : Option FunctionId} {t u : Table} (h : Breaks fn t u) :
    ∃ opened v, t.Grows v ∧ u.scopes = opened ++ v.scopes ∧ u.registry = v.registry ∧
      u.records = v.records := by
  induction h with
  | here => exact ⟨[], _, .refl _, rfl, rfl, rfl⟩
  | after he _ ih =>
    obtain ⟨opened, v, hv, hs⟩ := ih
    exact ⟨opened, v, he.grows.trans hv, hs⟩
  | outside _ ih => exact ih
  | scope _ ih =>
    obtain ⟨opened, v, hv, hs, hr, hk⟩ := ih
    obtain ⟨hvs, hvr, hvk⟩ := Table.scopes_of_exit? hv.exit?_eq
    exact ⟨opened ++ [v.current], _, (hv.exit hv.exit?_eq).2, by simp [hs, hvs], hr.trans hvr,
      hk.trans hvk⟩
  | function f params hf _ ih =>
    obtain ⟨opened, v, hv, hs, hr, hk⟩ := ih
    have hin := (Table.Grows.addParameters _ params _).trans hv
    obtain ⟨hvs, hvr, hvk⟩ := Table.scopes_of_exit? hin.exit?_eq
    exact ⟨opened ++ [v.current], _, (hv.exitFunction hf hin.exit?_eq).2, by simp [hs, hvs],
      hr.trans hvr, hk.trans hvk⟩

/-- The pass does no more to a table than a visit may do, and it never leaves the global scope. -/
structure Pass.Behaves {α : Type} (fn : Option FunctionId) (p : Pass α) : Prop where
  returns : ∀ {t u fs a}, p.Returns t u fs a → Evolves fn t u
  stops : ∀ {t u fs e}, p.Stops t u fs e → Breaks fn t u ∧ e ≠ .globalScopeExit

namespace Pass.Behaves

variable {α β : Type} {fn : Option FunctionId}

private theorem of_returns {p : Pass α} (h : ∀ t, ∃ u fs a, p.Returns t u fs a ∧ Evolves fn t u) :
    p.Behaves fn := by
  refine ⟨?_, ?_⟩
  · intro t v gs b hb
    obtain ⟨u, fs, a, ha, he⟩ := h t
    rw [← (ha.unique hb).1]
    exact he
  · intro t v gs e hs
    obtain ⟨u, fs, a, ha, -⟩ := h t
    exact absurd hs ha.not_stops

theorem pure (a : α) : (Pure.pure a : Pass α).Behaves fn :=
  of_returns fun t => ⟨t, [], a, .pure a t, .refl⟩

private theorem report (line : Int) (v : Violation) : (Pass.report line v).Behaves fn :=
  of_returns fun t => ⟨t, _, (), .report line v t, .refl⟩

private theorem reportIf (c : Bool) (line : Int) (v : Violation) :
    (Pass.reportIf c line v).Behaves fn :=
  of_returns fun t => ⟨t, _, (), .reportIf c line v t, .refl⟩

private theorem table : Pass.table.Behaves fn :=
  of_returns fun t => ⟨t, [], t, .table t, .refl⟩

private theorem enclosing (other : Option FunctionId) : (Pass.enclosing other).Behaves fn :=
  of_returns fun t => ⟨t, [], _, .enclosing other t, .refl⟩

private theorem bindVariable (v : Variable) :
    (Pass.update fun t => (t.defineVariable v).2).Behaves fn :=
  of_returns fun t => ⟨_, [], (), .update _ t, .bindVariable v⟩

private theorem fail {e : Fault} (he : e ≠ .globalScopeExit) :
    (Pass.fail e : Pass α).Behaves fn := by
  refine ⟨?_, ?_⟩
  · intro t u fs a h
    cases h
  · intro t u fs e' h
    cases h
    exact ⟨.here, he⟩

private theorem lift {r : Except Fault α} (he : r ≠ .error .globalScopeExit) :
    (Pass.lift r).Behaves fn := by
  cases r with
  | ok a => exact pure a
  | error e => exact fail fun h => he (by rw [h])

theorem bind {p : Pass α} {f : α → Pass β} (hp : p.Behaves fn) (hf : ∀ a, (f a).Behaves fn) :
    (p >>= f).Behaves fn := by
  refine ⟨?_, ?_⟩
  · intro t v hs b h
    obtain ⟨u, fs, a, gs, ha, hb, -⟩ := h.of_bind
    exact (hp.returns ha).trans ((hf a).returns hb)
  · intro t v hs e h
    rcases h.of_bind with h | ⟨u, fs, a, gs, ha, hb, -⟩
    · exact hp.stops h
    · obtain ⟨hb, he⟩ := (hf a).stops hb
      exact ⟨.after (hp.returns ha) hb, he⟩

private theorem outside {p : Pass α} (hp : p.Behaves none) : p.Behaves fn := by
  refine ⟨fun h => .outside (hp.returns h), ?_⟩
  intro t u fs e h
  obtain ⟨hb, he⟩ := hp.stops h
  exact ⟨.outside hb, he⟩

private theorem inScope {p : Pass α} (hp : p.Behaves fn) : (Pass.inScope p).Behaves fn := by
  refine ⟨?_, ?_⟩
  · intro t v gs b h
    obtain ⟨u, hr, hv⟩ := h.of_inScope
    exact .scope (hp.returns hr) hv
  · intro t v gs e h
    rcases p.returns_or_stops t.enter with ⟨u, fs, a, hr⟩ | ⟨u, fs, e', hr⟩
    · exact absurd h (hr.inScope (hp.returns hr).grows.exit?_eq).not_stops
    · obtain ⟨rfl, -, rfl⟩ := hr.inScope.unique h
      obtain ⟨hb, he⟩ := hp.stops hr
      exact ⟨.scope hb, he⟩

private theorem updateEnclosing {change : Function → Function} (h : Note change) :
    (Pass.updateEnclosing fn change).Behaves fn := by
  cases fn with
  | none => exact pure ()
  | some id => exact of_returns fun t => ⟨_, [], (), .updateEnclosing (some id) _ t, .note h⟩

private theorem ite {c : Prop} [Decidable c] {p q : Pass α} (hp : p.Behaves fn)
    (hq : q.Behaves fn) :
    (if c then p else q).Behaves fn := by
  by_cases h : c
  · rw [if_pos h]
    exact hp
  · rw [if_neg h]
    exact hq

private theorem forM {γ : Type} (l : List γ) {f : γ → Pass PUnit} (hf : ∀ x, (f x).Behaves fn) :
    (l.forM f).Behaves fn := by
  induction l with
  | nil => exact pure _
  | cons x l ih => exact bind (hf x) fun _ => ih

end Pass.Behaves

private theorem except_bind_ne_error {α β : Type} {r : Except Fault α} {f : α → Except Fault β}
    {e : Fault} (hr : r ≠ .error e) (hf : ∀ a, f a ≠ .error e) : (r >>= f) ≠ .error e := by
  cases r with
  | ok a => exact hf a
  | error e' =>
    intro h
    cases h
    exact hr rfl

mutual

private theorem Node.exprText_ne_globalScopeExit (n : Node) :
    n.exprText ≠ .error .globalScopeExit := by
  cases n with
  | paren line inner =>
    exact except_bind_ne_error inner.exprText_ne_globalScopeExit fun _ h => by cases h
  | negation line inner =>
    exact except_bind_ne_error inner.exprText_ne_globalScopeExit fun _ h => by cases h
  | binary line op left right =>
    refine except_bind_ne_error left.exprText_ne_globalScopeExit fun _ => ?_
    exact except_bind_ne_error right.exprText_ne_globalScopeExit fun _ h => by cases h
  | call line name args =>
    exact except_bind_ne_error (Node.exprTexts_ne_globalScopeExit args) fun _ h => by cases h
  | _ => simp [Node.exprText]

theorem Node.exprTexts_ne_globalScopeExit (ns : List Node) :
    Node.exprTexts ns ≠ .error .globalScopeExit := by
  cases ns with
  | nil => simp [Node.exprTexts]
  | cons n ns =>
    refine except_bind_ne_error n.exprText_ne_globalScopeExit fun _ => ?_
    exact except_bind_ne_error (Node.exprTexts_ne_globalScopeExit ns) fun _ h => by cases h

end

namespace Check

open Pass

variable {fn : Option FunctionId}

private theorem behaves_expect (line : Int) (target source : Ty) (v : Violation) :
    (expect line target source v).Behaves fn :=
  .reportIf _ line v

private theorem initTextOf_ne_globalScopeExit (init : Node) (initText : Option String) :
    initTextOf init initText ≠ .error .globalScopeExit := by
  cases initText with
  | some text => simp [initTextOf]
  | none => exact Node.exprText_ne_globalScopeExit init

private theorem behaves_variableDecl {line : Int} {name : String} {typeText : Option String}
    {isConst : Bool} {init : Node} {initText : Option String} {visitInit : Pass Ty}
    (hi : visitInit.Behaves fn) :
    (variableDecl fn line name typeText isConst init initText visitInit).Behaves fn := by
  have hinit : ∀ declared, (initializer line name declared isConst init initText
      visitInit).Behaves fn := by
    intro declared
    refine .ite (.bind (.reportIf _ _ _) fun _ => .pure _) (.bind hi fun got => ?_)
    refine .bind (.lift (initTextOf_ne_globalScopeExit init initText)) fun text => ?_
    exact .bind (behaves_expect _ _ _ _) fun _ => .pure _
  have hconf : ∀ around, (parameterConflicts around line name).Behaves fn := by
    intro around
    cases around with
    | none => exact .pure ()
    | some f => exact .forM _ fun _ => .report _ _
  refine .bind .table fun t => .bind (.enclosing fn) fun around => ?_
  refine .bind (.reportIf _ _ _) fun _ => .bind (hconf around) fun _ => ?_
  refine .bind (hinit _) fun text => .bind (.bindVariable _) fun _ => ?_
  exact .bind (.updateEnclosing (.addLocal _)) fun _ => .pure _

private theorem behaves_functionDecl {line : Int} {name : String} {returnText : Option String}
    {params : List Param} {visitBody : FunctionId → Pass Unit}
    (hb : ∀ id, (visitBody id).Behaves (some id)) :
    (functionDecl line name returnText params visitBody).Behaves fn := by
  refine ⟨?_, ?_⟩
  · intro t v gs a h
    cases hc : t.registry.contains name with
    | true =>
      rw [← ((returns_functionDecl_taken hc).unique h).1]
      exact .refl
    | false =>
      rcases (visitBody t.nextId).returns_or_stops (t.openFunction (head line name returnText)
        (params.map Param.variable)) with ⟨u, fs, b, hr⟩ | ⟨u, fs, e, hr⟩
      · have he := (hb t.nextId).returns hr
        have hv := ((Table.Grows.addParameters _ _ _).trans he.grows).exit?_eq
        rw [← ((returns_functionDecl hc hr hv).unique h).1]
        exact .function (head line name returnText) _ hc he hv
      · exact absurd (stops_functionDecl hc hr) h.not_stops
  · intro t v gs e h
    cases hc : t.registry.contains name with
    | true => exact absurd h (returns_functionDecl_taken hc).not_stops
    | false =>
      rcases (visitBody t.nextId).returns_or_stops (t.openFunction (head line name returnText)
        (params.map Param.variable)) with ⟨u, fs, b, hr⟩ | ⟨u, fs, e', hr⟩
      · have he := (hb t.nextId).returns hr
        have hv := ((Table.Grows.addParameters _ _ _).trans he.grows).exit?_eq
        exact absurd h (returns_functionDecl hc hr hv).not_stops
      · obtain ⟨rfl, -, rfl⟩ := (stops_functionDecl hc hr).unique h
        obtain ⟨hbr, he⟩ := (hb t.nextId).stops hr
        exact ⟨.function (head line name returnText) _ hc hbr, he⟩

private theorem behaves_assignment {line : Int} {name : String} {visitValue : Pass Ty}
    (hv : visitValue.Behaves fn) : (assignment line name visitValue).Behaves fn := by
  refine .bind .table fun t => ?_
  cases t.resolve name with
  | none => exact .bind (.report _ _) fun _ => .pure _
  | some s =>
    cases s with
    | function id => exact .bind (.report _ _) fun _ => .pure _
    | «variable» v =>
      refine .bind (.reportIf _ _ _) fun _ => .bind hv fun got => ?_
      exact .bind (behaves_expect _ _ _ _) fun _ => .pure _

private theorem behaves_returning {line : Int} {value : Node} {visitValue : Pass Ty}
    (hv : visitValue.Behaves fn) : (returning fn line value visitValue).Behaves fn := by
  refine .bind (.enclosing fn) fun around => ?_
  cases around with
  | none => exact .bind (.report _ _) fun _ => .pure _
  | some f =>
    refine .bind (.updateEnclosing .markReturn) fun _ => .ite ?_ ?_
    · exact .bind (.pure _) fun got => .bind (behaves_expect _ _ _ _) fun _ => .pure _
    · exact .bind hv fun got => .bind (behaves_expect _ _ _ _) fun _ => .pure _

private theorem behaves_arguments (line : Int) (function : String) (first : Nat)
    (pairs : List (Ty × Variable)) : (arguments line function first pairs).Behaves fn := by
  induction pairs generalizing first with
  | nil => exact .pure ()
  | cons pair pairs ih => exact .bind (behaves_expect _ _ _ _) fun _ => ih (first + 1)

private theorem behaves_functionCall {line : Int} {name : String} {visitArgs : Pass (List Ty)}
    (hv : visitArgs.Behaves fn) : (functionCall fn line name visitArgs).Behaves fn := by
  refine .bind .table fun t => ?_
  cases t.registered? name with
  | none => exact .bind (.report _ _) fun _ => .bind hv fun _ => .pure _
  | some callee =>
    refine .bind (.enclosing fn) fun around => .bind (.reportIf _ _ _) fun _ => ?_
    refine .bind (.ite (.updateEnclosing .markRecursive) (.pure ())) fun _ => .bind hv fun got => ?_
    exact .bind (.ite (behaves_arguments _ _ _ _) (.report _ _)) fun _ => .pure _

private theorem behaves_identifierUse (line : Int) (name : String) :
    (identifierUse line name).Behaves fn := by
  refine .bind .table fun t => ?_
  cases t.resolve name with
  | none => exact .bind (.report _ _) fun _ => .pure _
  | some s => cases s <;> exact .pure _

end Check

mutual

theorem visit_behaves (fn : Option FunctionId) (n : Node) : (visit fn n).Behaves fn := by
  cases n with
  | missing => exact .pure _
  | program line decls => exact .bind (.outside (visitAll_behaves none decls)) fun _ => .pure _
  | block line statements =>
    exact .inScope (.bind (visitAll_behaves fn statements) fun _ => .pure _)
  | varDecl line name typeText isConst init initText =>
    exact Check.behaves_variableDecl (visit_behaves fn init)
  | param p => exact .fail (by simp)
  | funcDecl line name returnText params body =>
    exact Check.behaves_functionDecl fun id => visitBody_behaves (some id) body
  | assign line name op value => exact Check.behaves_assignment (visit_behaves fn value)
  | ifElse line cond thenBranch elseBranch =>
    refine .bind (.updateEnclosing (.addControl _)) fun _ => ?_
    refine .bind (visit_behaves fn cond) fun _ => ?_
    refine .bind (visit_behaves fn thenBranch) fun _ => ?_
    exact .bind (visit_behaves fn elseBranch) fun _ => .pure _
  | forLoop line init cond update body =>
    refine .bind (.updateEnclosing (.addControl _)) fun _ => ?_
    refine .bind (visit_behaves fn init) fun _ => ?_
    refine .bind (visit_behaves fn cond) fun _ => .bind (visit_behaves fn update) fun _ => ?_
    exact .bind (visit_behaves fn body) fun _ => .pure _
  | whileLoop line cond body =>
    refine .bind (.updateEnclosing (.addControl _)) fun _ => ?_
    refine .bind (visit_behaves fn cond) fun _ => ?_
    exact .bind (visit_behaves fn body) fun _ => .pure _
  | ret line value => exact Check.behaves_returning (visit_behaves fn value)
  | exprStmt line expr => exact .bind (visit_behaves fn expr) fun _ => .pure _
  | callStmt line call => exact .bind (visit_behaves fn call) fun _ => .pure _
  | call line name args => exact Check.behaves_functionCall (visitAll_behaves fn args)
  | literal line kind text => exact .pure _
  | identifier line name => exact Check.behaves_identifierUse line name
  | paren line inner => exact visit_behaves fn inner
  | negation line inner => exact .bind (visit_behaves fn inner) fun _ => .pure _
  | binary line op left right =>
    exact .bind (visit_behaves fn left) fun _ => .bind (visit_behaves fn right) fun _ => .pure _
  | unclassified line => exact .fail (by simp)

theorem visitAll_behaves (fn : Option FunctionId) (ns : List Node) :
    (visitAll fn ns).Behaves fn := by
  cases ns with
  | nil => exact .pure _
  | cons n ns =>
    exact .bind (visit_behaves fn n) fun _ => .bind (visitAll_behaves fn ns) fun _ => .pure _

theorem visitBody_behaves (fn : Option FunctionId) (body : Node) :
    (visitBody fn body).Behaves fn := by
  cases body with
  | missing => exact .pure _
  | block line statements => exact .bind (visitAll_behaves fn statements) fun _ => .pure _
  | _ => exact .fail (by simp)

end

private theorem current_of_block {fn : Option FunctionId} {line : Int} {statements : List Node}
    {t u : Table} {fs : List Finding} {a : Ty}
    (h : (visit fn (.block line statements)).Returns t u fs a) : u.current = t.current := by
  obtain ⟨w, hr, hv⟩ := Pass.Returns.of_inScope h
  have hb : (do let _ ← visitAll fn statements; return Ty.void : Pass Ty).Behaves fn :=
    .bind (visitAll_behaves fn statements) fun _ => .pure _
  exact ((hb.returns hr).grows.exit hv).1

private theorem prefix_findings (before : Pass Unit) (p : Pass Ty) {s t : Table}
    {earlier : List Finding} (h : before.Returns s t earlier ()) :
    earlier <+: ((before >>= fun _ => p).run s).findings := by
  have hr : (before.run s).result = .ok () := by rw [h]
  rw [Pass.run_bind_of_ok hr, h]
  exact List.prefix_append _ _

/-- Whatever is visited, wherever it stands and whether or not the visit returns: the enclosing
scopes are as they were, the current scope and the registry keep their entries in order and only
grow at their ends, functions keep their numbers, and earlier findings come first. A visit that
returns closes the scopes that it opens, and no visit leaves the global scope. -/
theorem visit_frame (fn : Option FunctionId) (node : Node) (t : Table) :
    let o := (visit fn node).run t
    (∃ opened top, o.table.scopes = opened ++ top :: t.enclosing ∧ t.current.Extends top ∧
      (∀ type, o.result = .ok type → opened = []) ∧
      ∀ line statements type, node = .block line statements → o.result = .ok type →
        top = t.current) ∧
    t.registry.Extends o.table.registry ∧
    (∀ id f, t.record? id = some f → ∃ g, o.table.record? id = some g ∧ f.Follows g) ∧
    (∀ type, o.result = .ok type → o.table.depth = t.depth) ∧
    (∀ e, o.result = .error e → t.depth ≤ o.table.depth ∧ e ≠ .globalScopeExit) ∧
    ∀ (before : Pass Unit) (s : Table) (earlier : List Finding), before.Returns s t earlier () →
      earlier <+: ((before >>= fun _ => visit fn node).run s).findings := by
  have hb := visit_behaves fn node
  have hpre : ∀ (before : Pass Unit) (s : Table) (earlier : List Finding),
      before.Returns s t earlier () →
        earlier <+: ((before >>= fun _ => visit fn node).run s).findings :=
    fun before _ _ h => prefix_findings before (visit fn node) h
  rcases (visit fn node).returns_or_stops t with ⟨u, fs, a, h⟩ | ⟨u, fs, e, h⟩
  · have hg := (hb.returns h).grows
    have hs : u.scopes = u.current :: t.enclosing := by rw [Table.scopes, hg.enclosing]
    rw [h]
    refine ⟨⟨[], u.current, hs, hg.current, fun _ _ => rfl, ?_⟩, hg.registry, hg.records, ?_, ?_,
      hpre⟩
    · intro line statements type hn _
      subst hn
      exact current_of_block h
    · intro type _
      simp only [Table.depth, hs]
      rfl
    · intro e he
      cases he
  · obtain ⟨hbr, he⟩ := hb.stops h
    obtain ⟨opened, v, hv, hs, hr, hk⟩ := hbr.grows
    have hs' : u.scopes = opened ++ v.current :: t.enclosing := by
      rw [hs, Table.scopes, hv.enclosing]
    rw [h]
    refine ⟨⟨opened, v.current, hs', hv.current, ?_, ?_⟩, ?_, ?_, ?_, ?_, hpre⟩
    · intro type ht
      cases ht
    · intro line statements type _ ht
      cases ht
    · rw [hr]
      exact hv.registry
    · intro id f hf
      obtain ⟨g, hg, hfg⟩ := hv.records id f hf
      exact ⟨g, by rw [← hg, Table.record?, hk, Table.record?], hfg⟩
    · intro type ht
      cases ht
    · intro e' he'
      cases he'
      have ht : t.depth = t.enclosing.length + 1 := rfl
      have hu : u.depth = opened.length + (t.enclosing.length + 1) := by
        rw [Table.depth, hs', List.length_append, List.length_cons]
      exact ⟨by rw [ht, hu]; omega, he⟩

end MiniCheck
