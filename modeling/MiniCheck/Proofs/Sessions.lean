import MiniCheck.Proofs.Evolution
import MiniCheck.Proofs.Visits
import MiniCheck.Session

/-!
# Invariants of sessions

A session may open and close scopes, enter symbols and visit nodes in any order, and it goes on
after faults. A property of tables that survives the few changes a visit is made of survives every
visit, finished or not, and so every session. The table is sound after every session: what stands
under a name has that name, and every function in a scope is registered.
-/

namespace MiniCheck

open Pass

/-- A property of tables that no change of a visit destroys. -/
structure Table.Invariant (I : Table → Prop) : Prop where
  enter : ∀ {t}, I t → I t.enter
  exit : ∀ {t u}, I t → t.exit? = some u → I u
  bindVariable : ∀ {t} (v : Variable), I t → I (t.defineVariable v).2
  revise : ∀ {t} (id : FunctionId) {change : Function → Function},
    (∀ f : Function, f.Follows (change f)) → I t → I (t.updateFunction id change)
  declare : ∀ {t f}, t.registry.contains f.name = false → I t → I (t.declare f)

namespace Table.Invariant

variable {I : Table → Prop} {fn : Option FunctionId} {t u : Table}

private theorem addParameters (hI : Table.Invariant I) (id : FunctionId) (params : List Variable)
    (h : I t) : I (params.foldl (Table.addParameter id) t) := by
  induction params generalizing t with
  | nil => exact h
  | cons v params ih =>
    apply ih
    exact hI.revise id (fun _ => ⟨rfl, rfl, rfl⟩) (hI.bindVariable v h)

theorem openFunction (hI : Table.Invariant I) {f : Function} (params : List Variable)
    (hf : t.registry.contains f.name = false) (h : I t) : I (t.openFunction f params) :=
  hI.addParameters _ params (hI.enter (hI.declare hf h))

theorem evolves (hI : Table.Invariant I) (h : Evolves fn t u) (ht : I t) : I u := by
  induction h with
  | refl => exact ht
  | trans _ _ ih ih' => exact ih' (ih ht)
  | bindVariable v => exact hI.bindVariable v ht
  | note hn => exact hI.revise _ hn.follows ht
  | outside _ ih => exact ih ht
  | scope _ hv ih => exact hI.exit (ih (hI.enter ht)) hv
  | function f params hf _ hv ih => exact hI.exit (ih (hI.openFunction params hf ht)) hv

private theorem breaks (hI : Table.Invariant I) (h : Breaks fn t u) (ht : I t) : I u := by
  induction h with
  | here => exact ht
  | after he _ ih => exact ih (hI.evolves he ht)
  | outside _ ih => exact ih ht
  | scope _ ih => exact ih (hI.enter ht)
  | function f params hf _ ih => exact ih (hI.openFunction params hf ht)

theorem run {α : Type} (hI : Table.Invariant I) {p : Pass α} (hp : p.Behaves fn) (ht : I t) :
    I (p.run t).table := by
  rcases p.returns_or_stops t with ⟨u, fs, a, h⟩ | ⟨u, fs, e, h⟩
  · rw [h]
    exact hI.evolves (hp.returns h) ht
  · rw [h]
    exact hI.breaks (hp.stops h).1 ht

end Table.Invariant

/-- Whether the step enters a function by itself, without the checks of a visit. -/
def Step.entersFunction : Step → Bool
  | defineFunction _ | registerFunction _ => true
  | _ => false

theorem Step.exit_returns {t u : Table} (h : t.exit? = some u) :
    Step.exit.pass.Returns t u [] .done := by
  have hx : exitScope.Returns t u [] () := by
    simp only [Returns, run, exitScope, h]
  exact hx.silent_bind (.pure _ u)

theorem Step.exit_stops {t : Table} (h : t.exit? = none) :
    Step.exit.pass.Stops t t [] .globalScopeExit := by
  have hx : exitScope.Stops t t [] .globalScopeExit := by
    simp only [Stops, run, exitScope, h]
  exact hx.bind

theorem Step.behaves_visit (fn : Option FunctionId) (node : Node) :
    (do return .type (← MiniCheck.visit fn node) : Pass Answer).Behaves fn :=
  .bind (visit_behaves fn node) fun _ => .pure _

theorem Step.behaves_analyze (program : Node) : (MiniCheck.analyze program).Behaves none :=
  .bind (visit_behaves none program) fun _ => .pure _

/-- Every other step keeps what visits keep, whether or not it ends with a fault. -/
theorem Table.Invariant.step {I : Table → Prop} (hI : Table.Invariant I) {t : Table} {s : Step}
    (hs : s.entersFunction = false) (ht : I t) : I (s.pass.run t).table := by
  cases s with
  | enter => exact hI.enter ht
  | exit =>
    cases hx : t.exit? with
    | none =>
      rw [Step.exit_stops hx]
      exact ht
    | some u =>
      rw [Step.exit_returns hx]
      exact hI.exit ht hx
  | defineVariable v => exact hI.bindVariable v ht
  | defineFunction f => cases hs
  | registerFunction f => cases hs
  | resolve name => exact ht
  | resolveHere name => exact ht
  | view => exact ht
  | checkMain => exact ht
  | visit node fn =>
    have hv := hI.run (Step.behaves_visit (fn.bind t.registry.find?) node) ht
    exact hv
  | analyze program =>
    have hv := hI.run (Step.behaves_analyze program) ht
    exact hv
  | list => exact ht

namespace NameMap

variable {α : Type}

private theorem mem_insert {m : NameMap α} {key : String} {value : α} {e : String × α}
    (h : e ∈ (m.insert key value).entries) : e = (key, value) ∨ e ∈ m.entries := by
  cases hc : m.contains key with
  | true =>
    simp only [insert, hc, if_true, List.mem_map] at h
    obtain ⟨old, hold, rfl⟩ := h
    by_cases hk : old.1 = key
    · simp [hk]
    · simp [hk, hold]
  | false =>
    simp only [insert, hc, Bool.false_eq_true, if_false, push, List.mem_append,
      List.mem_singleton] at h
    exact h.symm

private theorem keys_prefix_insert (m : NameMap α) (key : String) (value : α) :
    m.keys <+: (m.insert key value).keys := by
  rw [keys_insert]
  split
  · exact List.prefix_rfl
  · exact List.prefix_append _ _

private theorem mem_keys_insert (m : NameMap α) (key : String) (value : α) :
    key ∈ (m.insert key value).keys := by
  rw [keys_insert]
  split
  · assumption
  · simp

private theorem nodup_push {m : NameMap α} {key : String} (value : α) (h : m.keys.Nodup)
    (hk : m.contains key = false) : (m.push key value).keys.Nodup := by
  have hn : key ∉ m.keys := by
    rw [← contains_eq_true_iff, hk]
    exact Bool.false_ne_true
  rw [keys_push]
  exact List.nodup_append.mpr ⟨h, by simp, by
    simpa using fun k hm (he : k = key) => hn (he ▸ hm)⟩

private theorem nodup_insert {m : NameMap α} (key : String) (value : α) (h : m.keys.Nodup) :
    (m.insert key value).keys.Nodup := by
  cases hc : m.contains key with
  | true =>
    rw [keys_insert, if_pos ((m.contains_eq_true_iff key).mp hc)]
    exact h
  | false =>
    simp only [insert, hc, Bool.false_eq_true, if_false]
    exact nodup_push value h hc

end NameMap

/-- The name of what a symbol stands for; the records tell which function it is. -/
def Symbol.name? (records : List Function) : Symbol → Option String
  | .variable v => some v.name
  | .function id => records[id]?.map Function.name

/-- The records of `rs` keep their names in `ss`. -/
def KeepsNames (rs ss : List Function) : Prop :=
  ∀ (s : Symbol) name, s.name? rs = some name → s.name? ss = some name

private theorem Table.Grows.keepsNames {t u : Table} (h : t.Grows u) :
    KeepsNames t.records u.records := by
  intro s name hs
  cases s with
  | «variable» v => exact hs
  | function id =>
    obtain ⟨f, hf, rfl⟩ := Option.map_eq_some_iff.mp hs
    obtain ⟨g, hg, hfg⟩ := h.records id f hf
    rw [Symbol.name?, show u.records[id]? = some g from hg, Option.map_some, hfg.name]

private theorem KeepsNames.append (rs ss : List Function) : KeepsNames rs (rs ++ ss) := by
  intro s name hs
  cases s with
  | «variable» v => exact hs
  | function id =>
    obtain ⟨f, hf, rfl⟩ := Option.map_eq_some_iff.mp hs
    have hlt : id < rs.length := (List.getElem?_eq_some_iff.mp hf).1
    rw [Symbol.name?, List.getElem?_append_left hlt]
    exact hs

private theorem Symbol.name?_append (rs : List Function) (f : Function) :
    (Symbol.function rs.length).name? (rs ++ [f]) = some f.name := by
  simp [Symbol.name?]

/-- The names of the scope are different, and what stands under a name has that name. -/
structure Scope.Named (records : List Function) (s : Scope) : Prop where
  nodup : s.keys.Nodup
  names : ∀ e ∈ s.entries, e.2.name? records = some e.1

namespace Scope.Named

variable {rs ss : List Function} {s : Scope}

private theorem keep (h : Scope.Named rs s) (hk : KeepsNames rs ss) : Scope.Named ss s :=
  ⟨h.nodup, fun e he => hk _ _ (h.names e he)⟩

private theorem empty : Scope.Named rs .empty := ⟨List.nodup_nil, nofun⟩

private theorem push {name : String} {symbol : Symbol} (h : Scope.Named rs s)
    (hc : s.contains name = false) (hn : symbol.name? rs = some name) :
    Scope.Named rs (s.push name symbol) := by
  refine ⟨NameMap.nodup_push symbol h.nodup hc, ?_⟩
  intro e he
  rcases List.mem_append.mp he with he | he
  · exact h.names e he
  · rw [List.mem_singleton.mp he]
    exact hn

end Scope.Named

namespace Table

/-- Names are right in all scopes and in the registry, and functions in scopes are registered. -/
structure Sound (t : Table) : Prop where
  scopes : ∀ s ∈ t.scopes, Scope.Named t.records s
  nodup : t.registry.keys.Nodup
  names : ∀ e ∈ t.registry.entries, (Symbol.function e.2).name? t.records = some e.1
  bound : ∀ s ∈ t.scopes, ∀ name id, (name, Symbol.function id) ∈ s.entries →
    name ∈ t.registry.keys

namespace Sound

variable {t u : Table}

private theorem empty : Table.empty.Sound where
  scopes := by
    intro s hs
    rw [List.mem_singleton.mp hs]
    exact .empty
  nodup := List.nodup_nil
  names := nofun
  bound := by
    intro s hs name id hm
    rw [List.mem_singleton.mp hs] at hm
    cases hm

private theorem enter (h : t.Sound) : t.enter.Sound where
  scopes := List.forall_mem_cons.mpr ⟨.empty, h.scopes⟩
  nodup := h.nodup
  names := h.names
  bound := List.forall_mem_cons.mpr ⟨nofun, h.bound⟩

private theorem exit (h : t.Sound) (hx : t.exit? = some u) : u.Sound := by
  obtain ⟨hs, hr, hk⟩ := scopes_of_exit? hx
  have hsub : ∀ s ∈ u.scopes, s ∈ t.scopes := by
    intro s hm
    rw [hs]
    exact List.mem_cons_of_mem _ hm
  exact ⟨fun s hm => hk ▸ h.scopes s (hsub s hm), hr ▸ h.nodup, hr ▸ hk ▸ h.names,
    fun s hm => hr ▸ h.bound s (hsub s hm)⟩

private theorem defineVariable (h : t.Sound) (v : Variable) : (t.defineVariable v).2.Sound := by
  cases hc : t.current.contains v.name with
  | true => simpa [Table.defineVariable, hc] using h
  | false =>
    have hd := List.forall_mem_cons.mp h.scopes
    have hb := List.forall_mem_cons.mp h.bound
    simp only [Table.defineVariable, hc, Bool.false_eq_true, if_false]
    refine ⟨List.forall_mem_cons.mpr ⟨hd.1.push hc rfl, hd.2⟩, h.nodup, h.names,
      List.forall_mem_cons.mpr ⟨?_, hb.2⟩⟩
    intro name id hm
    rcases List.mem_append.mp hm with hm | hm
    · exact hb.1 name id hm
    · simp at hm

private theorem updateFunction (h : t.Sound) (id : FunctionId) {change : Function → Function}
    (hc : ∀ f : Function, f.Follows (change f)) : (t.updateFunction id change).Sound := by
  have hk := (Grows.updateFunction t id hc).keepsNames
  exact ⟨fun s hm => (h.scopes s hm).keep hk, h.nodup, fun e he => hk _ _ (h.names e he), h.bound⟩

private theorem registerFunction (h : t.Sound) (f : Function) : (t.registerFunction f).Sound where
  scopes s hs := (h.scopes s hs).keep (.append _ _)
  nodup := NameMap.nodup_insert _ _ h.nodup
  names := by
    intro e he
    rcases NameMap.mem_insert he with rfl | he
    · exact Symbol.name?_append t.records f
    · exact KeepsNames.append _ _ _ _ (h.names e he)
  bound s hs name id hm :=
    (NameMap.keys_prefix_insert _ _ _).subset (h.bound s hs name id hm)

private theorem defineFunction (h : t.Sound) (f : Function) : (t.defineFunction f).2.Sound := by
  cases hc : t.current.contains f.name with
  | true => simpa [Table.defineFunction, hc] using h
  | false =>
    have hr := h.registerFunction f
    have hd := List.forall_mem_cons.mp hr.scopes
    have hb := List.forall_mem_cons.mp hr.bound
    simp only [Table.defineFunction, hc, Bool.false_eq_true, if_false]
    refine ⟨List.forall_mem_cons.mpr ⟨hd.1.push hc (Symbol.name?_append t.records f), hd.2⟩,
      hr.nodup, hr.names, List.forall_mem_cons.mpr ⟨?_, hb.2⟩⟩
    intro name id hm
    rcases List.mem_append.mp hm with hm | hm
    · exact hb.1 name id hm
    · obtain ⟨rfl, -⟩ : name = f.name ∧ id = t.nextId := by simpa using hm
      exact NameMap.mem_keys_insert _ _ _

private theorem declare (h : t.Sound) (f : Function) : (t.declare f).Sound := by
  rw [Table.declare]
  split
  · exact h.registerFunction f
  · exact h.defineFunction f

private theorem invariant : Table.Invariant Sound where
  enter := enter
  exit := exit
  bindVariable v h := h.defineVariable v
  revise id _ hc h := h.updateFunction id hc
  declare _ h := h.declare _

private theorem step (h : t.Sound) (s : Step) : (s.pass.run t).table.Sound := by
  cases s with
  | defineFunction f => exact h.defineFunction f
  | registerFunction f => exact h.registerFunction f
  | _ => exact invariant.step rfl h

end Sound

/-- The registry starts with the given names. -/
def RegistryStarts (keys : List String) (t : Table) : Prop := keys <+: t.registry.keys

private theorem keys_prefix_defineFunction (t : Table) (f : Function) :
    t.registry.keys <+: (t.defineFunction f).2.registry.keys := by
  cases hc : t.current.contains f.name with
  | true =>
    simp only [defineFunction, hc, if_true]
    exact List.prefix_rfl
  | false =>
    simp only [defineFunction, hc, Bool.false_eq_true, if_false]
    exact NameMap.keys_prefix_insert _ _ _

private theorem RegistryStarts.invariant (keys : List String) :
    Table.Invariant (RegistryStarts keys) where
  enter h := h
  exit h hx := by rwa [RegistryStarts, ← (scopes_of_exit? hx).2.1]
  bindVariable v h := by rwa [RegistryStarts, defineVariable_eq]
  revise _ _ _ h := h
  declare _ h := by
    rw [RegistryStarts, registry_declare]
    exact h.trans (NameMap.keys_prefix_insert _ _ _)

theorem RegistryStarts.step {keys : List String} {t : Table} (h : RegistryStarts keys t)
    (s : Step) : RegistryStarts keys (s.pass.run t).table := by
  cases s with
  | defineFunction f => exact h.trans (keys_prefix_defineFunction t f)
  | registerFunction f => exact h.trans (NameMap.keys_prefix_insert _ _ _)
  | _ => exact (invariant keys).step rfl h

end Table

namespace Session

/-- The table after the steps. Where a step ends with a fault, the next one finds its table. -/
def after (t : Table) (steps : List Step) : Table :=
  steps.foldl (fun t s => (s.pass.run t).table) t

theorem after_append (t : Table) (steps rest : List Step) :
    after t (steps ++ rest) = after (after t steps) rest :=
  List.foldl_append

/-- A property that every step keeps holds after a session. -/
theorem after_induction {I : Table → Prop} {steps : List Step} {t : Table}
    (hs : ∀ s ∈ steps, ∀ t, I t → I (s.pass.run t).table) (ht : I t) : I (after t steps) := by
  induction steps generalizing t with
  | nil => exact ht
  | cons s steps ih =>
    exact ih (fun r hr => hs r (by simp [hr])) (hs s (by simp) t ht)

private theorem run_append {t : Table} {steps : List Step} {replies : List Reply}
    (h : run t steps = .ok replies) (rest : List Step) :
    run t (steps ++ rest) = (run (after t steps) rest).map (replies ++ ·) := by
  induction steps generalizing t replies with
  | nil =>
    obtain rfl : [] = replies := by simpa [run] using h
    cases hr : run t rest <;> simp [after, hr, Except.map]
  | cons s steps ih =>
    have hgo : ∀ replies, (run (s.pass t).table steps).map ((s.pass t).reply :: ·) = .ok replies →
        (run (s.pass t).table (steps ++ rest)).map ((s.pass t).reply :: ·) =
          (run (after t (s :: steps)) rest).map (replies ++ ·) := by
      intro replies hm
      cases hr : run (s.pass t).table steps with
      | error e => simp [hr, Except.map] at hm
      | ok more =>
        obtain rfl : (s.pass t).reply :: more = replies := by simpa [hr, Except.map] using hm
        rw [ih hr]
        change _ = (run (after (s.pass t).table steps) rest).map _
        cases run (after (s.pass t).table steps) rest <;> rfl
    simp only [run, List.cons_append] at h ⊢
    cases hres : (s.pass t).result with
    | ok a =>
      simp only [hres] at h ⊢
      exact hgo replies h
    | error e =>
      simp only [hres] at h ⊢
      cases he : e.isSurvivable with
      | false => simp [he] at h
      | true =>
        simp only [he, if_true] at h ⊢
        exact hgo replies h

end Session

/-- The name that a step binds in the current scope. -/
def Step.defines? : Step → Option String
  | defineVariable v => some v.name
  | defineFunction f => some f.name
  | _ => none

/-- A definition is refused where the name is taken, and then it changes nothing. -/
theorem Step.define_refused {s : Step} {name : String} (hs : s.defines? = some name) (t : Table) :
    ((s.pass.run t).result = .ok (.flag false) ↔ name ∈ t.current.keys) ∧
      ((s.pass.run t).result = .ok (.flag false) → (s.pass.run t).table = t) := by
  rw [← NameMap.contains_eq_true_iff]
  cases s with
  | defineVariable v =>
    obtain rfl := Option.some.inj hs
    cases hc : t.current.contains v.name <;>
      simp [Step.pass, run, attempt, Table.defineVariable, hc]
  | defineFunction f =>
    obtain rfl := Option.some.inj hs
    cases hc : t.current.contains f.name <;>
      simp [Step.pass, run, attempt, Table.defineFunction, hc]
  | _ => cases hs

/-- The global scope cannot be left, and trying to leave it changes nothing. -/
theorem Step.exit_refused (t : Table) :
    ((∃ e, (Step.exit.pass.run t).result = .error e) ↔ t.depth = 1) ∧
      ∀ e, (Step.exit.pass.run t).result = .error e → (Step.exit.pass.run t).table = t := by
  rw [← t.exit?_eq_none_iff]
  cases hx : t.exit? with
  | none => simp [show Step.exit.pass.run t = _ from Step.exit_stops hx]
  | some u => simp [show Step.exit.pass.run t = _ from Step.exit_returns hx]

/-- After every session there is a scope. In every scope names are different and stand for what has
them. So do the names in the registry, which has the name of every function in a scope and keeps its
names in their order in all that follows. A definition that is refused and a scope that cannot be
left change nothing at all. Sessions that go on do so from this table. -/
theorem Session.table_sound (steps : List Step) :
    let t := after .empty steps
    (∀ replies rest, run .empty steps = .ok replies →
      run .empty (steps ++ rest) = (run t rest).map (replies ++ ·)) ∧
    0 < t.depth ∧
    (∀ s ∈ t.scopes, s.keys.Nodup ∧ ∀ e ∈ s.entries, e.2.name? t.records = some e.1) ∧
    (t.registry.keys.Nodup ∧
      ∀ e ∈ t.registry.entries, ∃ f, t.record? e.2 = some f ∧ f.name = e.1) ∧
    (∀ s ∈ t.scopes, ∀ name id, (name, Symbol.function id) ∈ s.entries →
      ∃ f, t.record? id = some f ∧ f.name = name ∧ f.name ∈ t.registry.keys) ∧
    (∀ rest, t.registry.keys <+: (after .empty (steps ++ rest)).registry.keys) ∧
    (∀ s name, Step.defines? s = some name →
      ((s.pass.run t).result = .ok (.flag false) ↔ name ∈ t.current.keys) ∧
      ((s.pass.run t).result = .ok (.flag false) → (s.pass.run t).table = t)) ∧
    ((∃ e, (Step.exit.pass.run t).result = .error e) ↔ t.depth = 1) ∧
    ∀ e, (Step.exit.pass.run t).result = .error e → (Step.exit.pass.run t).table = t := by
  intro t
  have ht : t.Sound := after_induction (fun s _ _ h => h.step s) .empty
  refine ⟨fun _ rest hrun => run_append hrun rest, t.depth_pos,
    fun s hs => ⟨(ht.scopes s hs).nodup, (ht.scopes s hs).names⟩, ⟨ht.nodup, ?_⟩, ?_, ?_,
    fun s name hs => Step.define_refused hs t, Step.exit_refused t⟩
  · intro e he
    exact Option.map_eq_some_iff.mp (ht.names e he)
  · intro s hs name id hm
    have hname : (Symbol.function id).name? t.records = some name := (ht.scopes s hs).names _ hm
    obtain ⟨f, hf, rfl⟩ := Option.map_eq_some_iff.mp hname
    exact ⟨f, hf, rfl, ht.bound s hs _ id hm⟩
  · intro rest
    rw [after_append]
    have hr : Table.RegistryStarts t.registry.keys t := List.prefix_rfl
    exact after_induction (fun s _ _ h => h.step s) hr

end MiniCheck
