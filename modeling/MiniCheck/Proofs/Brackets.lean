import MiniCheck.Proofs.Isolation
import MiniCheck.Proofs.Sessions
import Mathlib.Data.List.Infix

/-!
# Scopes that are entered and left

Between entering a scope and leaving it a session may do anything, and a visit that stops may leave
scopes open for later steps to close. As long as the stack stays above the scopes that were there
before, none of them is touched. So leaving the scope brings the old stack back as it was.
-/

namespace MiniCheck

open Pass

/-- What the steps of a session do to a table. A definition of a variable, and a step that changes
nothing, are among what a visit can do. -/
inductive Step.Changes : Table → Table → Prop
  | enter {t} : Changes t t.enter
  | exit {t u} : t.exit? = some u → Changes t u
  | register {t} (f : Function) : Changes t (t.registerFunction f)
  | define {t} (f : Function) : Changes t (t.defineFunction f).2
  | evolves {fn t u} : Evolves fn t u → Changes t u
  | breaks {fn t u} : Breaks fn t u → Changes t u

private theorem Pass.Behaves.changes {α : Type} {fn : Option FunctionId} {p : Pass α}
    (hp : p.Behaves fn) (t : Table) : Step.Changes t (p.run t).table := by
  rcases p.returns_or_stops t with ⟨u, fs, a, h⟩ | ⟨u, fs, e, h⟩
  · rw [h]
    exact .evolves (hp.returns h)
  · rw [h]
    exact .breaks (hp.stops h).1

private theorem Step.changes (s : Step) (t : Table) : Step.Changes t (s.pass.run t).table := by
  have hnothing : Step.Changes t t := .evolves (.refl : Evolves none t t)
  cases s with
  | enter => exact .enter
  | exit =>
    cases hx : t.exit? with
    | none =>
      rw [Step.exit_stops hx]
      exact hnothing
    | some u =>
      rw [Step.exit_returns hx]
      exact .exit hx
  | defineVariable v => exact .evolves (.bindVariable v : Evolves none t _)
  | defineFunction f => exact .define f
  | registerFunction f => exact .register f
  | visit node fn => exact (Step.behaves_visit (fn.bind t.registry.find?) node).changes t
  | analyze program => exact (Step.behaves_analyze program).changes t
  | resolve | resolveHere | view | checkMain | list => exact hnothing

/-- Every record of `t` is in `u` under its number, and there it may have gone on. -/
def Table.Retains (t u : Table) : Prop :=
  ∀ id f, t.record? id = some f → ∃ g, u.record? id = some g ∧ f.Continues g

namespace Table.Retains

variable {t u v : Table}

theorem of_records (h : t.records <+: u.records) : t.Retains u := by
  intro id f hf
  obtain ⟨added, hadded⟩ := h
  have hlt : id < t.records.length := (List.getElem?_eq_some_iff.mp hf).1
  refine ⟨f, ?_, .refl f⟩
  rw [record?, ← hadded, List.getElem?_append_left hlt]
  exact hf

theorem of_spares {fn : Option FunctionId} (h : Spares fn t u) : t.Retains u := by
  intro id f hf
  by_cases hfn : fn = some id
  · exact h.around id f hf hfn
  · exact ⟨f, h.others id f hf hfn, .refl f⟩

theorem trans (h : t.Retains u) (h' : u.Retains v) : t.Retains v := by
  intro id f hf
  obtain ⟨g, hg, hfg⟩ := h id f hf
  obtain ⟨k, hk, hgk⟩ := h' id g hg
  exact ⟨k, hk, hfg.trans hgk⟩

private theorem of_changes (h : Step.Changes t u) : t.Retains u := by
  cases h with
  | enter => exact of_records List.prefix_rfl
  | exit hx =>
    have hrecords : t.records = u.records := (scopes_of_exit? hx).2.2
    exact of_records (hrecords ▸ List.prefix_rfl)
  | register f => exact of_records (List.prefix_append _ _)
  | define f =>
    apply of_records
    rw [defineFunction]
    split
    · exact List.prefix_rfl
    · exact List.prefix_append _ _
  | evolves he => exact of_spares he.spares
  | breaks hb => exact of_spares hb.spares

private theorem after (t : Table) (steps : List Step) : t.Retains (Session.after t steps) :=
  Session.after_induction (fun s _ u h => h.trans (of_changes (s.changes u)))
    (of_records List.prefix_rfl)

end Table.Retains

private theorem Step.Changes.enclosing {t u : Table} (h : Step.Changes t u) :
    t.enclosing <:+ u.enclosing ∨ u.enclosing <:+ t.enclosing := by
  cases h with
  | enter => exact .inl (List.suffix_cons _ _)
  | exit hx =>
    have hs : t.enclosing = u.scopes := (List.cons.inj (Table.scopes_of_exit? hx).1).2
    rw [hs]
    exact .inr (List.suffix_cons _ _)
  | register f => exact .inl List.suffix_rfl
  | define f =>
    rw [Table.defineFunction]
    split <;> exact .inl List.suffix_rfl
  | evolves he =>
    rw [he.grows.enclosing]
    exact .inl List.suffix_rfl
  | breaks hb =>
    obtain ⟨opened, v, hv, hs, -⟩ := hb.grows
    rw [← hv.enclosing]
    cases opened with
    | nil =>
      rw [(List.cons.inj hs).2]
      exact .inl List.suffix_rfl
    | cons top opened =>
      rw [(List.cons.inj hs).2]
      exact .inl ((List.suffix_cons _ _).trans (List.suffix_append _ _))

/-- The scopes of `base` all enclose the current scope of `t`. -/
def Table.StandsOn (base : List Scope) (t : Table) : Prop := base <:+ t.enclosing

namespace Table.StandsOn

variable {base : List Scope} {t u : Table}

private theorem step (h : StandsOn base t) (hc : Step.Changes t u) (hd : base.length < u.depth) :
    StandsOn base u := by
  rcases hc.enclosing with hgrown | hshrunk
  · exact h.trans hgrown
  · -- Both are ends of one stack, and `base` is not the longer one.
    have hle : base.length ≤ u.enclosing.length := Nat.le_of_lt_succ hd
    exact List.suffix_of_suffix_length_le h hshrunk hle

private theorem after {steps : List Step} (h : StandsOn base t)
    (hd : ∀ first, first <+: steps → base.length < (Session.after t first).depth) :
    StandsOn base (Session.after t steps) := by
  induction steps generalizing t with
  | nil => exact h
  | cons s steps ih =>
    have hfirst : [s] <+: s :: steps := List.cons_prefix_cons.mpr ⟨rfl, List.nil_prefix⟩
    have hnext := h.step (s.changes t) (hd [s] hfirst)
    apply ih hnext
    intro first hf
    exact hd (s :: first) (List.cons_prefix_cons.mpr ⟨rfl, hf⟩)

private theorem exit?_eq (h : StandsOn t.scopes u) (hd : u.depth = t.depth + 1) :
    u.exit? = some { u with current := t.current, enclosing := t.enclosing } := by
  have hlen : t.scopes.length = u.enclosing.length := (Nat.succ.inj hd).symm
  have henc : u.enclosing = t.current :: t.enclosing := (h.eq_of_length hlen).symm
  simp only [Table.exit?, henc]

end Table.StandsOn

/-- A scope is entered, anything is done that keeps the stack above the scopes that were there, and
then the scope is left. The scope can be left, and the stack is the old one again, with the same
symbols under the same names in the same order; so every name resolves as before. The registry has
kept its names in their places, and every record that was there has at most gone on. -/
theorem Session.bracket_restores_scopes {t : Table} {steps : List Step}
    (hdeep : ∀ first, first <+: steps → t.depth + 1 ≤ (after t.enter first).depth)
    (hend : (after t.enter steps).depth = t.depth + 1) :
    let u := after t (.enter :: steps ++ [.exit])
    Step.exit.pass.run (after t (.enter :: steps)) = ⟨u, [], .ok .done⟩ ∧
      u.scopes = t.scopes ∧
      (∀ name, u.resolve name = t.resolve name ∧ u.resolveHere name = t.resolveHere name) ∧
      t.registry.keys <+: u.registry.keys ∧
      ∀ id f, t.record? id = some f → ∃ g, u.record? id = some g ∧ f.Continues g := by
  intro u
  have hstands : (after t.enter steps).StandsOn t.scopes :=
    Table.StandsOn.after (t := t.enter) List.suffix_rfl hdeep
  have hexit := Step.exit_returns (hstands.exit?_eq hend)
  have hu : u = (Step.exit.pass.run (after t.enter steps)).table :=
    after_append t (.enter :: steps) [.exit]
  rw [hexit] at hu
  have hscopes : u.scopes = t.scopes := by rw [hu]; rfl
  have hcurrent : u.current = t.current := (List.cons.inj hscopes).1
  refine ⟨?_, hscopes, ?_, ?_, Table.Retains.after t _⟩
  · rw [hu]
    exact hexit
  · intro name
    exact ⟨by rw [Table.resolve, hscopes, Table.resolve],
      by rw [Table.resolveHere, hcurrent, Table.resolveHere]⟩
  · have hr : Table.RegistryStarts t.registry.keys t := List.prefix_rfl
    exact after_induction (fun s _ _ h => h.step s) hr

/-- The visit of `g` stops in a block, so two scopes stay open until later steps close them. In
between a name is hidden, and the name of a function is taken by another one. -/
theorem Session.bracket_restores_scopes_after_fault :
    let x : Variable := ⟨"x", .int, 1, false, some "1"⟩
    let f : Function := .declared "f" .int 2 []
    let t := after .empty [.defineVariable x, .defineFunction f]
    let g : Node := .funcDecl 3 "g" none [⟨3, "x", some "bool"⟩] (.block 3
      [.varDecl 4 "f" none false .missing none, .block 5 [.unclassified 6]])
    let steps : List Step :=
      [.visit g none, .defineVariable { x with line := 7 }, .exit, .exit, .defineFunction f,
        .defineVariable { x with type := .bool }]
    let u := after t (.enter :: steps ++ [.exit])
    (∀ first, first <+: steps → t.depth + 1 ≤ (after t.enter first).depth) ∧
      (after t.enter steps).depth = t.depth + 1 ∧
      (steps.inits.map fun first => (after t.enter first).depth) = [2, 4, 4, 3, 2, 2, 2] ∧
      u.scopes = t.scopes ∧ u.resolve "x" = some (.variable x) ∧
      u.resolveHere "f" = some (.function 0) ∧ u.registry.find? "f" = some 2 := by
  intro x f t g steps u
  have hdepths : (steps.inits.map fun first => (after t.enter first).depth) =
      [2, 4, 4, 3, 2, 2, 2] := by decide +kernel
  have hdeep : ∀ first, first <+: steps → t.depth + 1 ≤ (after t.enter first).depth := by
    intro first hfirst
    have hmem := List.mem_map_of_mem (f := fun first => (after t.enter first).depth)
      ((List.mem_inits _ _).mpr hfirst)
    have hall : ∀ d ∈ [2, 4, 4, 3, 2, 2, 2], t.depth + 1 ≤ d := by decide +kernel
    rw [hdepths] at hmem
    exact hall _ hmem
  have hend : (after t.enter steps).depth = t.depth + 1 := by decide +kernel
  have hx : t.resolve "x" = some (.variable x) := by decide +kernel
  have hf : t.resolveHere "f" = some (.function 0) := by decide +kernel
  have hregistry : u.registry.find? "f" = some 2 := by decide +kernel
  obtain ⟨-, hscopes, hnames, -⟩ := bracket_restores_scopes hdeep hend
  exact ⟨hdeep, hend, hdepths, hscopes, (hnames "x").1.trans hx, (hnames "f").2.trans hf,
    hregistry⟩

end MiniCheck
