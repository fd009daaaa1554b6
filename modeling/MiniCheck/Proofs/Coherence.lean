import MiniCheck.Proofs.Subvisits

/-!
# Scopes and registry agree

A scope and the registry refer to functions by number, and the number leads to the one record of the
function. While functions are declared by visits only, a name that stands for a function in some
scope is registered with the same number, at every point of every visit. So both show the same
record.
-/

namespace MiniCheck

namespace Table

/-- A function that is bound in a scope is the one that is registered under its name. -/
def Coherent (t : Table) : Prop :=
  ∀ s ∈ t.scopes, ∀ name id, (name, Symbol.function id) ∈ s.entries →
    ∃ f, t.registered? name = some (id, f)

namespace Coherent

variable {t u : Table}

private theorem empty : Table.empty.Coherent := by
  intro s hs name id hm
  rw [List.mem_singleton.mp hs] at hm
  cases hm

private theorem exit (h : t.Coherent) (hx : t.exit? = some u) : u.Coherent := by
  obtain ⟨hs, hr, hk⟩ := scopes_of_exit? hx
  intro s hm name id he
  obtain ⟨f, hf⟩ := h s (by rw [hs]; exact List.mem_cons_of_mem _ hm) name id he
  rw [registered?_eq_some_iff, hr, record?, hk] at hf
  exact ⟨f, registered?_eq_some_iff.mpr hf⟩

private theorem bindVariable (h : t.Coherent) (v : Variable) : (t.defineVariable v).2.Coherent := by
  cases hc : t.current.contains v.name with
  | true => simpa [defineVariable, hc] using h
  | false =>
    obtain ⟨hcur, henc⟩ := List.forall_mem_cons.mp h
    simp only [defineVariable, hc, Bool.false_eq_true, if_false]
    refine List.forall_mem_cons.mpr ⟨?_, henc⟩
    intro name id hm
    rcases List.mem_append.mp hm with hm | hm
    · exact hcur name id hm
    · simp at hm

private theorem revise (h : t.Coherent) (id : FunctionId) (change : Function → Function) :
    (t.updateFunction id change).Coherent := by
  intro s hs name i hm
  obtain ⟨f, hf⟩ := h s hs name i hm
  obtain ⟨hi, hr⟩ := registered?_eq_some_iff.mp hf
  refine ⟨if id = i then change f else f, registered?_eq_some_iff.mpr ⟨hi, ?_⟩⟩
  rw [record?_updateFunction, hr]
  split <;> rfl

private theorem declare (h : t.Coherent) {f : Function} (hf : t.registry.contains f.name = false) :
    (t.declare f).Coherent := by
  have hold : ∀ s ∈ t.scopes, ∀ name id, (name, Symbol.function id) ∈ s.entries →
      ∃ g, (t.declare f).registered? name = some (id, g) := by
    intro s hs name id hm
    obtain ⟨g, hg⟩ := h s hs name id hm
    exact ⟨g, registered?_declare_of_registered hf hg⟩
  obtain ⟨hcur, henc⟩ := List.forall_mem_cons.mp hold
  refine List.forall_mem_cons.mpr ⟨?_, by rwa [enclosing_declare]⟩
  cases hc : t.current.contains f.name with
  | true =>
    have he : (t.declare f).current = t.current := by
      simp [Table.declare, registerFunction, hc]
    rwa [he]
  | false =>
    have he : (t.declare f).current = t.current.push f.name (.function t.nextId) := by
      simp [Table.declare, defineFunction, hc]
    rw [he]
    intro name id hm
    rcases List.mem_append.mp hm with hm | hm
    · exact hcur name id hm
    · obtain ⟨rfl, rfl⟩ : name = f.name ∧ id = t.nextId := by simpa using hm
      exact ⟨f, registered?_declare t f⟩

private theorem invariant : Table.Invariant Coherent where
  enter h := List.forall_mem_cons.mpr ⟨nofun, h⟩
  exit h hx := h.exit hx
  bindVariable v h := h.bindVariable v
  revise id change _ h := h.revise id change
  declare hf h := h.declare hf

private theorem info? (h : t.Coherent) {s : Scope} (hs : s ∈ t.scopes) {name : String}
    {id : FunctionId} (hm : (name, Symbol.function id) ∈ s.entries) :
    ∃ f, t.info? (.function id) = some (.function f) ∧ t.registered? name = some (id, f) := by
  obtain ⟨f, hf⟩ := h s hs name id hm
  have hr := (registered?_eq_some_iff.mp hf).2
  exact ⟨f, by rw [Table.info?, hr]; rfl, hf⟩

end Coherent

private theorem mem_of_resolve {t : Table} {name : String} {symbol : Symbol}
    (h : t.resolve name = some symbol) : ∃ s ∈ t.scopes, (name, symbol) ∈ s.entries := by
  obtain ⟨s, hs, hf⟩ := List.exists_of_findSome?_eq_some h
  obtain ⟨before, after, he, -⟩ := List.lookup_eq_some_iff.mp hf
  exact ⟨s, hs, by simp [he]⟩

end Table

/-- In sessions that leave the declaration of functions to visits, a name that stands for a function
in some scope stands for the same function in the registry: after every step, and at every point of
a further visit, finished or not, inside of any registered function. Resolving the name shows the
very record that the registry shows. -/
theorem Session.bound_functions_registered {steps : List Step}
    (hs : ∀ s ∈ steps, s.entersFunction = false) :
    let t := after .empty steps
    ∀ u, (u = t ∨ ∃ (fn : Option String) (node : Node),
        Visit.Passes ⟨fn.bind t.registry.find?, node, t⟩ u) →
      (∀ s ∈ u.scopes, ∀ name id, (name, Symbol.function id) ∈ s.entries →
        ∃ f, u.info? (.function id) = some (.function f) ∧ u.registered? name = some (id, f)) ∧
      ∀ name id, u.resolve name = some (.function id) →
        ∃ f, u.info? (.function id) = some (.function f) ∧ u.registered? name = some (id, f) := by
  intro t u hu
  have ht : t.Coherent :=
    after_induction (fun s hm _ h => Table.Coherent.invariant.step (hs s hm) h) .empty
  have hc : u.Coherent := by
    rcases hu with rfl | ⟨fn, node, hu⟩
    · exact ht
    · exact Table.Coherent.invariant.passes hu ht
  refine ⟨fun s hm name id he => hc.info? hm he, ?_⟩
  intro name id hr
  obtain ⟨s, hm, he⟩ := Table.mem_of_resolve hr
  exact hc.info? hm he

/-- The visit stops in the body of `f`: the scope of `f` stays open and its record is half done. -/
theorem Session.bound_functions_registered_in_body :
    let body : Node := .block 2
      [.ifElse 3 (.identifier 3 "p") (.block 3 [.ret 4 (.call 4 "f" [])]) .missing, .unclassified 5]
    let steps : List Step :=
      [.defineVariable ⟨"f", .bool, 1, false, none⟩, .enter,
        .visit (.funcDecl 2 "f" (some "int") [⟨2, "p", some "int"⟩] body) none]
    let t := after .empty steps
    let f : Function :=
      ⟨"f", .int, 2, [⟨"p", .int, 2, false, none⟩], [], [⟨.ifElse, 3⟩], true, true⟩
    (∀ s ∈ steps, s.entersFunction = false) ∧ t.depth = 3 ∧ t.resolve "f" = some (.function 0) ∧
      t.info? (.function 0) = some (.function f) ∧ t.registered? "f" = some (0, f) := by
  intro body steps t f
  have hs : ∀ s ∈ steps, s.entersFunction = false := by simp [steps, Step.entersFunction]
  have hr : t.resolve "f" = some (.function 0) := rfl
  have hi : t.info? (.function 0) = some (.function f) := rfl
  obtain ⟨g, hg, hreg⟩ := (bound_functions_registered hs t (.inl rfl)).2 "f" 0 hr
  obtain rfl : f = g := by simpa [hi] using hg
  exact ⟨hs, rfl, hr, hi, hreg⟩

end MiniCheck
