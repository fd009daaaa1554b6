import MiniCheck.Proofs.Evolution
import MiniCheck.Proofs.Visits

/-!
# Isolation of records

A visit writes to the record of the function around it and to no other record that is there already.
Functions that are declared inside get records of their own, and those are new. What is written is
added to what stood there, so a record only ever continues.
-/

namespace MiniCheck

open Pass

/-- `g` is the record `f` after more of the body has been visited. -/
structure Function.Continues (f g : Function) : Prop where
  name : g.name = f.name
  type : g.type = f.type
  line : g.line = f.line
  parameters : g.parameters = f.parameters
  locals : f.locals <+: g.locals
  controls : f.controls <+: g.controls
  hasReturn : f.hasReturn = true → g.hasReturn = true
  isRecursive : f.isRecursive = true → g.isRecursive = true

theorem Function.Continues.refl (f : Function) : f.Continues f :=
  ⟨rfl, rfl, rfl, rfl, List.prefix_rfl, List.prefix_rfl, id, id⟩

theorem Function.Continues.trans {f g k : Function} (h : f.Continues g) (h' : g.Continues k) :
    f.Continues k where
  name := h'.name.trans h.name
  type := h'.type.trans h.type
  line := h'.line.trans h.line
  parameters := h'.parameters.trans h.parameters
  locals := h.locals.trans h'.locals
  controls := h.controls.trans h'.controls
  hasReturn hf := h'.hasReturn (h.hasReturn hf)
  isRecursive hf := h'.isRecursive (h.isRecursive hf)

private theorem Note.continues {change : Function → Function} (h : Note change) (f : Function) :
    f.Continues (change f) := by
  have hf := Function.Continues.refl f
  cases h with
  | addLocal v => exact { hf with locals := List.prefix_append _ _ }
  | addControl c => exact { hf with controls := List.prefix_append _ _ }
  | markReturn => exact { hf with hasReturn := fun _ => rfl }
  | markRecursive => exact { hf with isRecursive := fun _ => rfl }

/-- The records of `t` are all in `u`, and none but the one of `fn` has changed. -/
structure Table.Spares (fn : Option FunctionId) (t u : Table) : Prop where
  others : ∀ id f, t.record? id = some f → fn ≠ some id → u.record? id = some f
  around : ∀ id f, t.record? id = some f → fn = some id →
    ∃ g, u.record? id = some g ∧ f.Continues g

namespace Table.Spares

variable {fn : Option FunctionId} {t u v : Table}

private theorem of_records (h : ∀ id f, t.record? id = some f → u.record? id = some f) :
    Spares fn t u :=
  ⟨fun id f hf _ => h id f hf, fun id f hf _ => ⟨f, h id f hf, .refl f⟩⟩

private theorem of_records_eq (h : u.records = t.records) : Spares fn t u := by
  apply of_records
  intro id f hf
  rwa [record?, h]

private theorem trans (h : Spares fn t u) (h' : Spares fn u v) : Spares fn t v := by
  refine ⟨fun id f hf hn => h'.others id f (h.others id f hf hn) hn, ?_⟩
  intro id f hf hn
  obtain ⟨g, hg, hfg⟩ := h.around id f hf hn
  obtain ⟨k, hk, hgk⟩ := h'.around id g hg hn
  exact ⟨k, hk, hfg.trans hgk⟩

theorem note {id : FunctionId} {change : Function → Function} (hc : Note change) :
    Spares (some id) t (t.updateFunction id change) := by
  refine ⟨?_, ?_⟩
  · intro other f hf hn
    have hne : id ≠ other := fun h => hn (congrArg some h)
    rw [record?_updateFunction, if_neg hne, hf]
  · intro other f hf hn
    have he : id = other := Option.some.inj hn
    exact ⟨change f, by rw [record?_updateFunction, if_pos he, hf]; rfl, hc.continues f⟩

private theorem outside (h : Spares none t u) : Spares fn t u :=
  of_records fun id f hf => h.others id f hf nofun

private theorem ofNew {w : Table} (hw : t.records <+: w.records) (h : Spares (some t.nextId) w u) :
    Spares fn t u := by
  apply of_records
  intro id f hf
  have hlt : id < t.records.length := (List.getElem?_eq_some_iff.mp hf).1
  have hf' : w.record? id = some f := by
    obtain ⟨added, hadded⟩ := hw
    rw [record?, ← hadded, List.getElem?_append_left hlt]
    exact hf
  apply h.others id f hf'
  intro he
  exact absurd (Option.some.inj he) (Nat.ne_of_gt hlt)

end Table.Spares

theorem Table.records_prefix_openFunction (t : Table) (f : Function) (params : List Variable) :
    t.records <+: (t.openFunction f params).records := by
  rw [openFunction_eq]
  exact List.prefix_append _ _

theorem Evolves.spares {fn : Option FunctionId} {t u : Table} (h : Evolves fn t u) :
    Table.Spares fn t u := by
  induction h with
  | refl => exact .of_records_eq rfl
  | trans _ _ ih ih' => exact ih.trans ih'
  | bindVariable v => exact .of_records_eq (by rw [Table.defineVariable_eq])
  | note hn => exact .note hn
  | outside _ ih => exact ih.outside
  | @scope fn t u v _ hv ih =>
    have hopen : Table.Spares fn t t.enter := .of_records_eq rfl
    exact (hopen.trans ih).trans (.of_records_eq (Table.scopes_of_exit? hv).2.2.symm)
  | @function fn t u v f params _ _ hv ih =>
    have hopen : Table.Spares fn t u := .ofNew (t.records_prefix_openFunction f params) ih
    exact hopen.trans (.of_records_eq (Table.scopes_of_exit? hv).2.2.symm)

theorem Breaks.spares {fn : Option FunctionId} {t u : Table} (h : Breaks fn t u) :
    Table.Spares fn t u := by
  induction h with
  | here => exact .of_records_eq rfl
  | after he _ ih => exact he.spares.trans ih
  | outside _ ih => exact ih.outside
  | @scope fn t u _ ih =>
    have hopen : Table.Spares fn t t.enter := .of_records_eq rfl
    exact hopen.trans ih
  | function f params _ _ ih => exact .ofNew (Table.records_prefix_openFunction _ f params) ih

private theorem NameMap.Extends.find? {α : Type} {m n : NameMap α} (h : m.Extends n) {name : String}
    {value : α} (hv : m.find? name = some value) : n.find? name = some value := by
  obtain ⟨added, he, -⟩ := h
  rw [NameMap.find?] at hv ⊢
  rw [he, List.lookup_append, hv, Option.some_or]

/-- The scopes of a table that has grown, with any scopes opened on top of it, continue those of the
table before. -/
theorem Table.Grows.scope {t u v : Table} {opened : List Scope} (h : t.Grows v)
    (hu : u.scopes = opened ++ v.scopes) {k : Nat} {s : Scope}
    (hs : t.scopes.reverse[k]? = some s) :
    ∃ s', u.scopes.reverse[k]? = some s' ∧ s.Extends s' := by
  have hold : t.scopes.reverse = t.enclosing.reverse ++ [t.current] := by simp [scopes]
  have hnew : u.scopes.reverse = t.enclosing.reverse ++ v.current :: opened.reverse := by
    rw [hu, scopes, h.enclosing]
    simp
  rw [hold] at hs
  rw [hnew]
  by_cases hk : k < t.enclosing.reverse.length
  · rw [List.getElem?_append_left hk] at hs ⊢
    exact ⟨s, hs, .refl s⟩
  · have hle : t.enclosing.reverse.length ≤ k := by omega
    rw [List.getElem?_append_right hle, List.getElem?_singleton] at hs
    by_cases htop : k - t.enclosing.reverse.length = 0
    · rw [if_pos htop, Option.some.injEq] at hs
      refine ⟨v.current, ?_, hs ▸ h.current⟩
      rw [List.getElem?_append_right hle, htop]
      rfl
    · rw [if_neg htop] at hs
      cases hs

private theorem visit_scope {fn : Option FunctionId} {node : Node} {t : Table} {k : Nat} {s : Scope}
    (hs : t.scopes.reverse[k]? = some s) :
    ∃ s', ((visit fn node).run t).table.scopes.reverse[k]? = some s' ∧ s.Extends s' := by
  have hb := visit_behaves fn node
  rcases (visit fn node).returns_or_stops t with ⟨u, fs, a, h⟩ | ⟨u, fs, e, h⟩
  · rw [h]
    have hu : u.scopes = [] ++ u.scopes := rfl
    exact (hb.returns h).grows.scope hu hs
  · rw [h]
    obtain ⟨opened, v, hv, hu, -⟩ := (hb.stops h).1.grows
    exact hv.scope hu hs

/-- Whatever is visited, inside of any function or of none, and whether or not the visit returns:
every record that was there and is not the one of the function around stays as it is in all its
parts. The one of the function around keeps its name, its type, its line and its parameters, what it
lists stays at the beginning of its lists, and its marks are never taken back. Every variable that a
scope has stays there as it is, under its name and in its place. -/
theorem visit_isolated (fn : Option FunctionId) (node : Node) (t : Table) :
    let u := ((visit fn node).run t).table
    (∀ id f, t.record? id = some f → fn ≠ some id → u.record? id = some f) ∧
    (∀ id f, t.record? id = some f → fn = some id → ∃ g, u.record? id = some g ∧
      g.name = f.name ∧ g.type = f.type ∧ g.line = f.line ∧ g.parameters = f.parameters ∧
      f.locals <+: g.locals ∧ f.controls <+: g.controls ∧
      (f.hasReturn = true → g.hasReturn = true) ∧
      (f.isRecursive = true → g.isRecursive = true)) ∧
    ∀ (k : Nat) (s : Scope), t.scopes.reverse[k]? = some s →
      ∃ s' : Scope, u.scopes.reverse[k]? = some s' ∧
        s.entries <+: s'.entries ∧
        ∀ name v, s.find? name = some (.variable v) → s'.find? name = some (.variable v) := by
  intro u
  have hspares : Table.Spares fn t u := by
    have hb := visit_behaves fn node
    rcases (visit fn node).returns_or_stops t with ⟨w, fs, a, h⟩ | ⟨w, fs, e, h⟩
    · have hu : u = w := h.run_table
      rw [hu]
      exact (hb.returns h).spares
    · have hu : u = w := congrArg Outcome.table h
      rw [hu]
      exact (hb.stops h).1.spares
  refine ⟨hspares.others, ?_, ?_⟩
  · intro id f hf hn
    obtain ⟨g, hg, hc⟩ := hspares.around id f hf hn
    exact ⟨g, hg, hc.name, hc.type, hc.line, hc.parameters, hc.locals, hc.controls, hc.hasReturn,
      hc.isRecursive⟩
  · intro k s hs
    obtain ⟨s', hs', he⟩ := visit_scope hs
    have hentries : s.entries <+: s'.entries := by
      obtain ⟨added, hadded, -⟩ := he
      exact ⟨added, hadded.symm⟩
    exact ⟨s', hs', hentries, fun name v hv => he.find? hv⟩

end MiniCheck
