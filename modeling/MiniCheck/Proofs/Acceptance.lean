import MiniCheck.Proofs.WellFormed

/-!
# The analysis accepts the well-formed programs

The analysis of a grammatical program finds nothing exactly when the program is well formed. A
context describes a table at every point of the pass, and a run without findings is a derivation.
Calls of `main` from itself are found at its end only, so a run has to be calm as well: it does not
mark `main` as recursive.
-/

namespace MiniCheck

open Pass Node

def Symbol.meaning : Symbol → Meaning
  | .variable v => .variable v.type v.isConst
  | .function _ => .function

def Function.signature (f : Function) : Signature := ⟨f.parameters.map Variable.type, f.type⟩

/-- `Γ` says of names what the table `t` says of them inside the function `fn`. -/
structure Context.Describes (Γ : Context) (fn : Option FunctionId) (t : Table) : Prop where
  visible : ∀ name, Γ.visible.lookup name = (t.resolve name).map Symbol.meaning
  own : ∀ name, name ∈ Γ.own ↔ t.current.contains name = true
  functions : ∀ name, Γ.functions.lookup name =
    (t.registered? name).map fun found => found.2.signature
  params : Γ.params = ((t.around fn).map fun f => f.parameters.map Variable.name).getD []
  result : ∀ f, t.around fn = some f → Γ.result = f.type

/-- The function around is not `main` with a mark of recursion. -/
def Table.Calm (t : Table) (fn : Option FunctionId) : Prop :=
  ∀ f, t.around fn = some f → f.name = mainName → f.isRecursive = false

private theorem Table.calm_declaring (t : Table) (fn : Option FunctionId) (s : Node) :
    (t.declaring s).Calm fn ↔ t.Calm fn := by
  rw [Calm, around_declaring, Calm]

private theorem Table.calm_collect (t : Table) (fn : Option FunctionId) (n : Notes) :
    (t.collect fn n false).Calm fn ↔ t.Calm fn := by
  simp only [Calm, around_collect, Option.map_eq_some_iff]
  constructor
  · intro h f hf hm
    simpa [Function.collect] using h _ ⟨f, hf, rfl⟩ hm
  · rintro h _ ⟨f, hf, rfl⟩ hm
    simpa [Function.collect] using h f hf hm

private theorem Table.Calm.of_collect {t : Table} {fn : Option FunctionId} {n : Notes} {b : Bool}
    (h : (t.collect fn n b).Calm fn) : t.Calm fn := by
  intro f hf hm
  have hc := h (f.collect n b) (by rw [around_collect, hf]; rfl) hm
  simp only [Function.collect, Bool.or_eq_false_iff] at hc
  exact hc.1

namespace Context.Describes

variable {Γ : Context} {fn : Option FunctionId} {t : Table}

private theorem collect (h : Γ.Describes fn t) (n : Notes) (b : Bool) :
    Γ.Describes fn (t.collect fn n b) := by
  refine ⟨?_, ?_, ?_, ?_, ?_⟩
  · intro name
    rw [h.visible, Table.resolve_collect]
  · intro name
    rw [h.own, Table.current_collect]
  · intro name
    rw [h.functions, Table.registered?_eq, Table.registered?_eq, Table.registry_collect]
    cases t.registry.find? name with
    | none => rfl
    | some id =>
      simp only [Option.bind_some, Table.record?_collect]
      cases t.record? id with
      | none => rfl
      | some f => by_cases hid : fn = some id <;> simp [hid, Function.collect, Function.signature]
  · rw [h.params, Table.around_collect]
    cases t.around fn <;> rfl
  · intro f hf
    rw [Table.around_collect, Option.map_eq_some_iff] at hf
    obtain ⟨g, hg, rfl⟩ := hf
    exact h.result g hg

private theorem enter (h : Γ.Describes fn t) : Γ.nested.Describes fn t.enter := by
  refine ⟨?_, ?_, h.functions, h.params, h.result⟩
  · intro name
    rw [Table.resolve_enter]
    exact h.visible name
  · intro name
    simp [Context.nested, Table.enter, NameMap.contains]

private theorem declare (h : Γ.Describes fn t) {v : Variable}
    (hf : t.current.contains v.name = false) :
    (Γ.declare v.name (.variable v.type v.isConst)).Describes fn (t.defineVariable v).2 := by
  have hn : t.current.find? v.name = none := by simpa [NameMap.contains] using hf
  rw [Table.defineVariable_eq]
  refine ⟨?_, ?_, h.functions, h.params, h.result⟩
  · intro name
    simp only [Context.declare, Table.resolve, Table.scopes, List.findSome?_cons,
      Scope.find?_bind, List.lookup_cons]
    by_cases hx : name = v.name
    · subst hx
      simp [hn, Symbol.meaning]
    · have hb : (name == v.name) = false := beq_false_of_ne hx
      simp only [hb, hx, if_false, Option.or_none]
      exact h.visible name
  · intro name
    simp only [Context.declare, List.mem_cons, h.own, NameMap.contains, Scope.find?_bind]
    by_cases hx : name = v.name <;> simp [hx]

end Context.Describes

private theorem mismatch_eq_nil {line : Int} {target source : Ty} {v : Violation} :
    Check.mismatch line target source v = [] ↔ Discipline.typed.stores target source := by
  cases h : target.accepts source <;> simp [Check.mismatch, Discipline.typed, h]

private theorem mismatches_eq_nil {line : Int} {name : String} (first : Nat) (got : List Ty)
    (params : List Variable) (hl : got.length = params.length) :
    Check.mismatches line name first (got.zip params) = [] ↔
      Discipline.typed.passes (params.map Variable.type) got := by
  induction got generalizing first params with
  | nil =>
    cases params with
    | nil => simp [Check.mismatches, Discipline.typed]
    | cons p params => simp at hl
  | cons g got ih =>
    cases params with
    | nil => simp at hl
    | cons p params =>
      have ih := ih (first + 1) params (by simpa using hl)
      simp only [List.zip_cons_cons, Check.mismatches, List.append_eq_nil_iff, ih,
        mismatch_eq_nil, List.map_cons]
      simp [Discipline.typed]

private theorem misapplied_eq_nil {line : Int} {name : String} {callee : Function}
    {got : List Ty} :
    Check.misapplied line name callee got = [] ↔
      Discipline.typed.passes callee.signature.params got := by
  by_cases hl : got.length = callee.parameters.length
  · rw [Check.misapplied, if_pos hl]
    exact mismatches_eq_nil 1 got callee.parameters hl
  · rw [Check.misapplied, if_neg hl]
    refine ⟨fun h => absurd h (List.cons_ne_nil _ _), fun h => ?_⟩
    have := List.Forall₂.length_eq h
    simp only [Function.signature, List.length_map] at this
    exact absurd this.symm hl

/-- A run over an expression finds nothing and is calm exactly when the expression has a type. -/
def Judged (Γ : Context) (fn : Option FunctionId) (e : Node) : Prop :=
  ∀ {t u : Table} {fs : List Finding} {got : Ty}, Γ.Describes fn t →
    (visit fn e).Returns t u fs got → ∀ type,
      (HasType .typed Γ e type ∧ t.Calm fn) ↔ (fs = [] ∧ u.Calm fn ∧ type = got)

private theorem judged_args {Γ : Context} {fn : Option FunctionId} {args : List Node}
    (ha : ∀ a ∈ args, a.IsExpr) (hj : ∀ a ∈ args, Judged Γ fn a) {t u : Table}
    {fs : List Finding} {got : List Ty} (hΓ : Γ.Describes fn t)
    (h : (visitAll fn args).Returns t u fs got) (types : List Ty) :
    (List.Forall₂ (HasType .typed Γ) args types ∧ t.Calm fn) ↔
      (fs = [] ∧ u.Calm fn ∧ types = got) := by
  induction args generalizing t u fs got types with
  | nil =>
    obtain ⟨rfl, rfl, rfl⟩ := h.of_visitAll_nil
    simp [List.forall₂_nil_left_iff, and_comm]
  | cons a args ih =>
    obtain ⟨w, f₁, g, f₂, gs, h₁, h₂, rfl, rfl⟩ := h.of_visitAll_cons
    obtain ⟨b, rfl⟩ := h₁.of_expr (ha a (by simp))
    have ih := ih (fun b hb => ha b (by simp [hb])) (fun b hb => hj b (by simp [hb]))
      (hΓ.collect .none b) h₂
    have hja := hj a (by simp) hΓ h₁
    constructor
    · rintro ⟨hf, hc⟩
      cases hf with
      | cons hfa hfs =>
        obtain ⟨rfl, hw, rfl⟩ := (hja _).mp ⟨hfa, hc⟩
        obtain ⟨rfl, hu, rfl⟩ := (ih _).mp ⟨hfs, hw⟩
        exact ⟨rfl, hu, rfl⟩
    · rintro ⟨hf, hu, rfl⟩
      obtain ⟨rfl, rfl⟩ := List.append_eq_nil_iff.mp hf
      obtain ⟨hfs, hw⟩ := (ih gs).mpr ⟨rfl, hu, rfl⟩
      obtain ⟨hfa, hc⟩ := (hja g).mpr ⟨rfl, hw, rfl⟩
      exact ⟨.cons hfa hfs, hc⟩

private theorem calling_calm {t : Table} {fn : Option FunctionId} {line : Int} {name : String} :
    (name ≠ mainName ∧ t.Calm fn) ↔
      (Check.mainCalls line name (t.around fn) = [] ∧ (Check.calling t fn name).Calm fn) := by
  rw [Table.calling_eq_collect]
  by_cases hm : name = mainName
  · refine ⟨fun h => absurd hm h.1, ?_⟩
    rintro ⟨hc, hcalm⟩
    cases hf : t.around fn with
    | none => simp [Check.mainCalls, hf, hm] at hc
    | some f =>
      have hfm : f.name = mainName := by
        simpa [Check.mainCalls, hf, hm, Function.isMain] using hc
      have hmark := hcalm (f.collect .none true)
        (by simp [Table.around_collect, hf, hfm, hm]) hfm
      simp [Function.collect] at hmark
  · have hc : Check.mainCalls line name (t.around fn) = [] := by simp [Check.mainCalls, hm]
    refine ⟨fun h => ⟨hc, ?_⟩, fun h => ⟨hm, h.2.of_collect⟩⟩
    intro f hf hfm
    rw [Table.around_collect, Option.map_eq_some_iff] at hf
    obtain ⟨g, hg, rfl⟩ := hf
    have hgm : g.name = mainName := hfm
    have hne : (g.name == name) = false := by rw [hgm]; exact beq_false_of_ne (Ne.symm hm)
    simp [Function.collect, hg, hne, h.2 g hg hgm]

private theorem judged_call {Γ : Context} {fn : Option FunctionId} {line : Int} {name : String}
    {args : List Node} (ha : ∀ a ∈ args, a.IsExpr) (hj : ∀ a ∈ args, Judged Γ fn a) :
    Judged Γ fn (.call line name args) := by
  intro t u fs got hΓ h type
  have hΓ' : Γ.Describes fn (Check.calling t fn name) := by
    rw [Table.calling_eq_collect]
    exact hΓ.collect _ _
  cases hr : t.registered? name with
  | none =>
    obtain ⟨gs, types, -, rfl, rfl⟩ := h.of_call_undefined ha hr
    have hl := hΓ.functions name
    rw [hr] at hl
    refine ⟨?_, fun h => absurd h.1 (List.cons_ne_nil _ _)⟩
    rintro ⟨ht, -⟩
    cases ht with
    | call hs => rw [hl] at hs; cases hs
  | some found =>
    obtain ⟨id, callee⟩ := found
    obtain ⟨gs, types, hv, rfl, rfl⟩ := h.of_call ha hr
    have hl : Γ.functions.lookup name = some callee.signature := by
      rw [hΓ.functions, hr]
      rfl
    have hargs := judged_args ha hj hΓ' hv
    have hcalm := @calling_calm t fn line name
    constructor
    · rintro ⟨ht, hc⟩
      cases ht with
      | call hs hn hts hp =>
        cases hl.symm.trans hs
        obtain ⟨hmain, hc'⟩ := hcalm.mp ⟨hn, hc⟩
        obtain ⟨rfl, hu, rfl⟩ := (hargs _).mp ⟨hts, hc'⟩
        rw [hmain, misapplied_eq_nil.mpr hp]
        exact ⟨rfl, hu, rfl⟩
    · rintro ⟨hf, hu, rfl⟩
      obtain ⟨hmain, hrest⟩ := List.append_eq_nil_iff.mp hf
      obtain ⟨rfl, hp⟩ := List.append_eq_nil_iff.mp hrest
      obtain ⟨hts, hc'⟩ := (hargs types).mpr ⟨rfl, hu, rfl⟩
      obtain ⟨hn, hc⟩ := hcalm.mpr ⟨hmain, hc'⟩
      exact ⟨.call hl hn hts (misapplied_eq_nil.mp hp), hc⟩

private theorem judged_identifier (Γ : Context) (fn : Option FunctionId) (line : Int)
    (name : String) : Judged Γ fn (.identifier line name) := by
  intro t u fs got hΓ h type
  obtain ⟨rfl, rfl, rfl⟩ := h.of_identifier
  have hv := hΓ.visible name
  cases hr : u.resolve name with
  | none =>
    rw [hr] at hv
    refine ⟨?_, fun h => by simp [Check.undeclared, hr] at h⟩
    rintro ⟨ht, -⟩
    cases ht with
    | «variable» hx => rw [hv] at hx; cases hx
    | functionName hx => rw [hv] at hx; cases hx
  | some s =>
    have hn : Check.undeclared u line name = [] := by simp [Check.undeclared, hr]
    have hty : HasType .typed Γ (.identifier line name) type ↔ type = u.typeOf name := by
      rw [hr] at hv
      simp only [Table.typeOf, hr]
      cases s with
      | «variable» v =>
        refine ⟨fun ht => ?_, fun ht => ht ▸ .variable hv⟩
        cases ht with
        | «variable» hx => cases hv.symm.trans hx; rfl
        | functionName hx => cases hv.symm.trans hx
      | function id =>
        refine ⟨fun ht => ?_, fun ht => ht ▸ .functionName hv⟩
        cases ht with
        | «variable» hx => cases hv.symm.trans hx
        | functionName hx => rfl
    rw [hn, hty]
    constructor
    · rintro ⟨ht, hc⟩
      exact ⟨rfl, hc, ht⟩
    · rintro ⟨-, hc, ht⟩
      exact ⟨ht, hc⟩

private theorem judged_binary {Γ : Context} {fn : Option FunctionId} {line : Int} {op : String}
    {left right : Node} (hl : left.IsExpr) (ihl : Judged Γ fn left) (ihr : Judged Γ fn right) :
    Judged Γ fn (.binary line op left right) := by
  intro t u fs got hΓ h type
  obtain ⟨w, f₁, l, f₂, r, h₁, h₂, rfl, rfl⟩ := h.of_binary
  obtain ⟨b, rfl⟩ := h₁.of_expr hl
  have ihr := ihr (hΓ.collect .none b) h₂
  constructor
  · rintro ⟨ht, hc⟩
    cases ht with
    | binary htl htr =>
      obtain ⟨rfl, hw, rfl⟩ := (ihl hΓ h₁ _).mp ⟨htl, hc⟩
      obtain ⟨rfl, hu, rfl⟩ := (ihr _).mp ⟨htr, hw⟩
      exact ⟨rfl, hu, rfl⟩
  · rintro ⟨hf, hu, rfl⟩
    obtain ⟨rfl, rfl⟩ := List.append_eq_nil_iff.mp hf
    obtain ⟨htr, hw⟩ := (ihr r).mpr ⟨rfl, hu, rfl⟩
    obtain ⟨htl, hc⟩ := (ihl hΓ h₁ l).mpr ⟨rfl, hw, rfl⟩
    exact ⟨.binary htl htr, hc⟩

/-- Expressions: a run without findings is a typing derivation. -/
theorem judged_expr {e : Node} (he : e.IsExpr) (Γ : Context) (fn : Option FunctionId) :
    Judged Γ fn e := by
  induction he with
  | missing =>
    intro t u fs got _ h type
    obtain ⟨rfl, rfl, rfl⟩ := h.of_missing
    constructor
    · rintro ⟨⟨⟩, hc⟩
      exact ⟨rfl, hc, rfl⟩
    · rintro ⟨-, hc, rfl⟩
      exact ⟨.missing, hc⟩
  | literal =>
    intro t u fs got _ h type
    obtain ⟨rfl, rfl, rfl⟩ := h.of_literal
    constructor
    · rintro ⟨⟨⟩, hc⟩
      exact ⟨rfl, hc, rfl⟩
    · rintro ⟨-, hc, rfl⟩
      exact ⟨.literal, hc⟩
  | identifier => exact judged_identifier Γ fn _ _
  | paren _ ih =>
    intro t u fs got hΓ h type
    rw [← ih hΓ h type]
    refine and_congr_left fun _ => ⟨fun ht => ?_, .paren⟩
    cases ht
    assumption
  | negation _ ih =>
    intro t u fs got hΓ h type
    obtain ⟨inner, hi, rfl⟩ := h.of_negation
    constructor
    · rintro ⟨ht, hc⟩
      cases ht with
      | negation ht =>
        obtain ⟨rfl, hu, -⟩ := (ih hΓ hi _).mp ⟨ht, hc⟩
        exact ⟨rfl, hu, rfl⟩
    · rintro ⟨rfl, hu, rfl⟩
      obtain ⟨ht, hc⟩ := (ih hΓ hi inner).mpr ⟨rfl, hu, rfl⟩
      exact ⟨.negation ht, hc⟩
  | binary hl _ ihl ihr => exact judged_binary hl ihl ihr
  | call ha ih => exact judged_call ha ih

private theorem judged_stored {Γ : Context} {fn : Option FunctionId} {e : Node} (he : e.IsExpr)
    {t u : Table} {fs : List Finding} {got : Ty} (hΓ : Γ.Describes fn t)
    (h : (visit fn e).Returns t u fs got) (line : Int) (target : Ty) (v : Violation) :
    ((∃ type, HasType .typed Γ e type ∧ Discipline.typed.stores target type) ∧ t.Calm fn) ↔
      (fs ++ Check.mismatch line target got v = [] ∧ u.Calm fn) := by
  have hj := judged_expr he Γ fn hΓ h
  rw [List.append_eq_nil_iff, mismatch_eq_nil]
  constructor
  · rintro ⟨⟨type, ht, hs⟩, hc⟩
    obtain ⟨hf, hu, rfl⟩ := (hj type).mp ⟨ht, hc⟩
    exact ⟨⟨hf, hs⟩, hu⟩
  · rintro ⟨⟨hf, hs⟩, hu⟩
    obtain ⟨ht, hc⟩ := (hj got).mpr ⟨hf, hu, rfl⟩
    exact ⟨⟨got, ht, hs⟩, hc⟩

private theorem judged_some {Γ : Context} {fn : Option FunctionId} {e : Node} (he : e.IsExpr)
    {t u : Table} {fs : List Finding} {got : Ty} (hΓ : Γ.Describes fn t)
    (h : (visit fn e).Returns t u fs got) :
    ((∃ type, HasType .typed Γ e type) ∧ t.Calm fn) ↔ (fs = [] ∧ u.Calm fn) := by
  have hj := judged_expr he Γ fn hΓ h
  constructor
  · rintro ⟨⟨type, ht⟩, hc⟩
    obtain ⟨hf, hu, rfl⟩ := (hj type).mp ⟨ht, hc⟩
    exact ⟨hf, hu⟩
  · rintro ⟨hf, hu⟩
    obtain ⟨ht, hc⟩ := (hj got).mpr ⟨hf, hu, rfl⟩
    exact ⟨⟨got, ht⟩, hc⟩

section

variable {Γ : Context} {fn : Option FunctionId} {t : Table}

private theorem redeclared_eq_nil (hΓ : Γ.Describes fn t) {around : Option Function} {line : Int}
    {name : String} : Check.redeclared t around line name = [] ↔ name ∉ Γ.own := by
  rw [hΓ.own, NameMap.contains]
  unfold Check.redeclared Table.resolveHere
  cases t.current.find? name <;> cases around <;> simp

private theorem conflicts_eq_nil (hΓ : Γ.Describes fn t) {line : Int} {name : String} :
    Check.conflicts (t.around fn) line name = [] ↔ name ∉ Γ.params := by
  rw [hΓ.params]
  cases t.around fn with
  | none => simp [Check.conflicts]
  | some f => simp [Check.conflicts, List.filter_eq_nil_iff]

private theorem Context.Describes.declaring (hΓ : Γ.Describes fn t) {s : Node} {v : Variable}
    (hv : s.declared? = some v) (hf : v.name ∉ Γ.own) :
    (Γ.declare v.name (.variable v.type v.isConst)).Describes fn (t.declaring s) := by
  rw [hΓ.own, Bool.not_eq_true] at hf
  simp only [Table.declaring, hv]
  exact hΓ.declare hf

/-- A declaration of a variable is accepted exactly where it may stand, and the context that knows
the variable describes the table after it. -/
theorem accepted_varDecl {u : Table} {line : Int} {name : String} {typeText : Option String}
    {isConst : Bool} {init : Node} {initText : Option String} {fs : List Finding} {got : Ty}
    (hi : init.IsExpr) (hΓ : Γ.Describes fn t)
    (h : (visit fn (.varDecl line name typeText isConst init initText)).Returns t u fs got) :
    ((VariableOk .typed Γ name (Ty.ofText typeText) isConst init ∧ t.Calm fn) ↔
      (fs = [] ∧ u.Calm fn)) ∧
    (fs = [] →
      (Γ.declare name (.variable (Ty.ofText typeText) isConst)).Describes fn u) := by
  obtain ⟨w, gs, type, hv, rfl, rfl, -⟩ := h.of_varDecl hi
  have hset : Check.uninitialized line name isConst init = [] ↔
      (isConst = true → init ≠ .missing) := by
    cases init <;> simp [Check.uninitialized, isMissing]
  have hstored := judged_stored hi hΓ hv line (Ty.ofText typeText)
    (.initMismatch name (Ty.ofText typeText) type)
  constructor
  · rw [Table.calm_collect, Table.calm_declaring, List.append_eq_nil_iff, List.append_eq_nil_iff,
      List.append_eq_nil_iff, redeclared_eq_nil hΓ, conflicts_eq_nil hΓ, hset]
    constructor
    · rintro ⟨⟨hf, hp, hc, hs⟩, ht⟩
      obtain ⟨hg, hcalm⟩ := hstored.mp ⟨hs, ht⟩
      exact ⟨⟨hf, hp, hc, hg⟩, hcalm⟩
    · rintro ⟨⟨hf, hp, hc, hg⟩, hcalm⟩
      obtain ⟨hs, ht⟩ := hstored.mpr ⟨hg, hcalm⟩
      exact ⟨⟨hf, hp, hc, hs⟩, ht⟩
  · intro hf
    have hf : name ∉ Γ.own := (redeclared_eq_nil hΓ).mp (List.append_eq_nil_iff.mp hf).1
    obtain ⟨b, rfl⟩ := hv.of_expr hi
    exact ((hΓ.collect _ _).declaring (s := .varDecl line name typeText isConst init initText) rfl
      hf).collect _ _

end

/-- `Γ` describes the table, and the visit is inside of a function. -/
structure Context.Inside (Γ : Context) (fn : Option FunctionId) (t : Table) : Prop where
  describes : Γ.Describes fn t
  inside : (t.around fn).isSome

private theorem Context.Inside.collect {Γ : Context} {fn : Option FunctionId} {t : Table}
    (h : Γ.Inside fn t) (n : Notes) (b : Bool) : Γ.Inside fn (t.collect fn n b) := by
  refine ⟨h.describes.collect n b, ?_⟩
  rw [Table.around_collect, Option.isSome_map]
  exact h.inside

/-- A run over a statement of a function finds nothing and is calm exactly when the statement is
well formed. -/
def Accepted (fn : Option FunctionId) (s : Node) : Prop :=
  ∀ {Γ : Context} {t u : Table} {fs : List Finding} {got : Ty}, Γ.Inside fn t →
    (visit fn s).Returns t u fs got → ((StmtOk .typed Γ s ∧ t.Calm fn) ↔ (fs = [] ∧ u.Calm fn))

section

variable {Γ : Context} {fn : Option FunctionId} {t u : Table} {fs : List Finding} {got : Ty}

private theorem Context.Inside.of_expr {e : Node} (h : Γ.Inside fn t) (he : e.IsExpr)
    (hr : (visit fn e).Returns t u fs got) : Γ.Inside fn u := by
  obtain ⟨b, rfl⟩ := hr.of_expr he
  exact h.collect _ _

private theorem Context.Inside.of_stmt {s : Node} (h : Γ.Inside fn t) (hs : s.IsStmt)
    (hd : s.declared? = none) (hr : (visit fn s).Returns t u fs got) : Γ.Inside fn u := by
  obtain ⟨b, rfl⟩ := hr.of_stmt hs
  simp only [Table.declaring, hd]
  exact h.collect _ _

private theorem accepted_cons_declaration {line : Int} {name : String} {typeText : Option String}
    {isConst : Bool} {init : Node} {initText : Option String} {ss : List Node} {w : Table}
    {gs : List Finding} (hi : init.IsExpr) (hΓ : Γ.Inside fn t)
    (h : (visit fn (.varDecl line name typeText isConst init initText)).Returns t w fs got)
    (hss : ∀ {Δ : Context}, Δ.Inside fn w →
      ((StmtsOk .typed Δ ss ∧ w.Calm fn) ↔ (gs = [] ∧ u.Calm fn))) :
    (StmtsOk .typed Γ (.varDecl line name typeText isConst init initText :: ss) ∧ t.Calm fn) ↔
      (fs ++ gs = [] ∧ u.Calm fn) := by
  obtain ⟨hhead, hd⟩ := accepted_varDecl hi hΓ.describes h
  have hw : (w.around fn).isSome := by
    obtain ⟨b, rfl⟩ := h.of_stmt (.varDecl hi)
    rw [Table.around_collect, Table.around_declaring, Option.isSome_map]
    exact hΓ.inside
  rw [List.append_eq_nil_iff]
  constructor
  · rintro ⟨hok, hc⟩
    cases hok with
    | cons hsk _ =>
      cases hsk with
      | expr ht => cases ht
    | declare hok hrest =>
      obtain ⟨hf, hcw⟩ := hhead.mp ⟨hok, hc⟩
      obtain ⟨hg, hcu⟩ := (hss ⟨hd hf, hw⟩).mp ⟨hrest, hcw⟩
      exact ⟨⟨hf, hg⟩, hcu⟩
  · rintro ⟨⟨hf, hg⟩, hcu⟩
    obtain ⟨hrest, hcw⟩ := (hss ⟨hd hf, hw⟩).mpr ⟨hg, hcu⟩
    obtain ⟨hok, hc⟩ := hhead.mpr ⟨hf, hcw⟩
    exact ⟨.declare hok hrest, hc⟩

private theorem accepted_both {A B C₀ C₁ C₂ : Prop} {gs : List Finding}
    (h₁ : (A ∧ C₀) ↔ (fs = [] ∧ C₁)) (h₂ : (B ∧ C₁) ↔ (gs = [] ∧ C₂)) :
    ((A ∧ B) ∧ C₀) ↔ (fs ++ gs = [] ∧ C₂) := by
  rw [List.append_eq_nil_iff]
  constructor
  · rintro ⟨⟨ha, hb⟩, h₀⟩
    obtain ⟨hf, hc⟩ := h₁.mp ⟨ha, h₀⟩
    obtain ⟨hg, hc⟩ := h₂.mp ⟨hb, hc⟩
    exact ⟨⟨hf, hg⟩, hc⟩
  · rintro ⟨⟨hf, hg⟩, h₂'⟩
    obtain ⟨hb, hc⟩ := h₂.mpr ⟨hg, h₂'⟩
    obtain ⟨ha, hc⟩ := h₁.mpr ⟨hf, hc⟩
    exact ⟨⟨ha, hb⟩, hc⟩

private theorem accepted_statements {ss : List Node} {types : List Ty} (hs : ∀ s ∈ ss, s.IsStmt)
    (ha : ∀ s ∈ ss, s.declared? = none → Accepted fn s) (hΓ : Γ.Inside fn t)
    (h : (visitAll fn ss).Returns t u fs types) :
    (StmtsOk .typed Γ ss ∧ t.Calm fn) ↔ (fs = [] ∧ u.Calm fn) := by
  induction ss generalizing Γ t u fs types with
  | nil =>
    obtain ⟨rfl, rfl, -⟩ := h.of_visitAll_nil
    exact and_congr_left fun _ => ⟨fun _ => rfl, fun _ => .nil⟩
  | cons s ss ih =>
    obtain ⟨w, f₁, g, f₂, gs, h₁, h₂, rfl, -⟩ := h.of_visitAll_cons
    have ih := fun {Δ : Context} (hΔ : Δ.Inside fn w) =>
      ih (fun r hr => hs r (by simp [hr])) (fun r hr => ha r (by simp [hr])) hΔ h₂
    have hstmt := hs s (by simp)
    cases hv : s.declared? with
    | none =>
      have hhead := ha s (by simp) hv hΓ h₁
      rw [← accepted_both hhead (ih (hΓ.of_stmt hstmt hv h₁))]
      refine and_congr_left fun _ => ⟨fun hok => ?_, fun hok => .cons hok.1 hok.2⟩
      cases hok with
      | declare => simp [declared?] at hv
      | cons hsk hrest => exact ⟨hsk, hrest⟩
    | some v =>
      cases hstmt with
      | varDecl hi => exact accepted_cons_declaration hi hΓ h₁ ih
      | expr he => cases he <;> simp [declared?] at hv
      | _ => simp [declared?] at hv

private theorem accepted_expr {e : Node} (he : e.IsExpr) : Accepted fn e := by
  intro Γ t u fs got hΓ h
  rw [← judged_some he hΓ.describes h]
  refine and_congr_left fun _ => ⟨fun hok => ?_, ?_⟩
  · cases hok with
    | expr ht => exact ⟨_, ht⟩
    | _ => cases he
  · rintro ⟨type, ht⟩
    exact .expr ht

private theorem accepted_assign {line : Int} {name op : String} {value : Node}
    (hi : value.IsExpr) : Accepted fn (.assign line name op value) := by
  intro Γ t u fs got hΓ h
  have hv := hΓ.describes.visible name
  cases hr : t.resolve name with
  | none =>
    obtain ⟨-, rfl, -⟩ := h.of_assign_undeclared hr
    rw [hr] at hv
    refine ⟨?_, fun h => absurd h.1 (List.cons_ne_nil _ _)⟩
    rintro ⟨hok, -⟩
    cases hok with
    | expr ht => cases ht
    | assign hx => cases hv.symm.trans hx
  | some s =>
    rw [hr] at hv
    cases s with
    | function id =>
      obtain ⟨-, rfl, -⟩ := h.of_assign_function hr
      refine ⟨?_, fun h => absurd h.1 (List.cons_ne_nil _ _)⟩
      rintro ⟨hok, -⟩
      cases hok with
      | expr ht => cases ht
      | assign hx => cases hv.symm.trans hx
    | «variable» x =>
      obtain ⟨gs, type, hval, rfl, -⟩ := h.of_assign hi hr
      have hc : Check.constant line x name = [] ↔ x.isConst = false := by
        simp [Check.constant]
      rw [List.append_eq_nil_iff, hc, and_assoc, ← judged_stored hi hΓ.describes hval]
      constructor
      · rintro ⟨hok, hcalm⟩
        cases hok with
        | expr ht => cases ht
        | assign hx ht hs =>
          obtain ⟨rfl, hconst⟩ : x.type = _ ∧ x.isConst = false := by
            simpa [Symbol.meaning] using hv.symm.trans hx
          exact ⟨hconst, ⟨_, ht, hs⟩, hcalm⟩
      · rintro ⟨hconst, ⟨type, ht, hs⟩, hcalm⟩
        simp only [Option.map_some, Symbol.meaning, hconst] at hv
        exact ⟨.assign hv ht hs, hcalm⟩

private theorem accepted_ret {line : Int} {value : Node} (hi : value.IsExpr) :
    Accepted fn (.ret line value) := by
  intro Γ t u fs got hΓ h
  obtain ⟨f, hf⟩ := Option.isSome_iff_exists.mp hΓ.inside
  have hres := hΓ.describes.result f hf
  have hcalm := Table.calm_collect t fn ⟨[], [], true⟩
  cases hm : value.isMissing with
  | true =>
    obtain rfl := eq_missing_of_isMissing hm
    obtain ⟨rfl, rfl, -⟩ := h.of_ret_nothing hf
    rw [mismatch_eq_nil, ← hres, hcalm]
    refine and_congr_left fun _ => ⟨fun hok => ?_, fun hs => .retNothing hs⟩
    cases hok with
    | expr ht => cases ht
    | retNothing hs => exact hs
    | ret hne => exact absurd rfl hne
  | false =>
    obtain ⟨gs, type, hv, rfl, -⟩ := h.of_ret hi hm hf
    have hne : value ≠ .missing := by
      rintro rfl
      simp [isMissing] at hm
    rw [← judged_stored hi (hΓ.describes.collect _ _) hv, ← hres, hcalm]
    refine and_congr_left fun _ => ⟨fun hok => ?_, ?_⟩
    · cases hok with
      | expr ht => cases ht
      | retNothing hs => exact absurd rfl hne
      | ret _ ht hs => exact ⟨_, ht, hs⟩
    · rintro ⟨type, ht, hs⟩
      exact .ret hne ht hs

private theorem accepted_block {line : Int} {statements : List Node}
    (hs : ∀ s ∈ statements, s.IsStmt)
    (ha : ∀ s ∈ statements, s.declared? = none → Accepted fn s) :
    Accepted fn (.block line statements) := by
  intro Γ t u fs got hΓ h
  obtain ⟨w, types, hr, hx, -⟩ := h.of_block
  have hin : Γ.nested.Inside fn t.enter := ⟨hΓ.describes.enter, hΓ.inside⟩
  have hcalm : w.Calm fn ↔ u.Calm fn := by
    rw [Table.Calm, Table.Calm, Table.around_of_exit? w fn hx]
  rw [← hcalm, ← accepted_statements hs ha hin hr]
  refine and_congr (⟨fun hok => ?_, .block⟩) Iff.rfl
  cases hok with
  | expr ht => cases ht
  | block hss => exact hss

private theorem judged_after_control {e : Node} {n : Notes} (he : e.IsExpr) (hΓ : Γ.Inside fn t)
    (h : (visit fn e).Returns (t.collect fn n false) u fs got) :
    ((∃ type, HasType .typed Γ e type) ∧ t.Calm fn) ↔ (fs = [] ∧ u.Calm fn) := by
  rw [← judged_some he (hΓ.describes.collect n false) h, Table.calm_collect]

private theorem accepted_ifElse {line : Int} {cond a b : Node} (hc : cond.IsExpr)
    (has : a.IsStmt) (ha : a.declared? = none) (iha : Accepted fn a) (ihb : Accepted fn b) :
    Accepted fn (.ifElse line cond a b) := by
  intro Γ t u fs got hΓ h
  obtain ⟨t₁, t₂, f₁, f₂, f₃, _, _, _, h₁, h₂, h₃, rfl, -⟩ := h.of_ifElse
  have hΓ₁ := (hΓ.collect _ _).of_expr hc h₁
  have hΓ₂ := hΓ₁.of_stmt has ha h₂
  rw [← accepted_both (judged_after_control hc hΓ h₁) (accepted_both (iha hΓ₁ h₂) (ihb hΓ₂ h₃))]
  refine and_congr_left fun _ => ⟨fun hok => ?_, ?_⟩
  · cases hok with
    | expr ht => cases ht
    | ifElse ht hoka hokb => exact ⟨⟨_, ht⟩, hoka, hokb⟩
  · rintro ⟨⟨_, ht⟩, hoka, hokb⟩
    exact .ifElse ht hoka hokb

private theorem accepted_whileLoop {line : Int} {cond body : Node} (hc : cond.IsExpr)
    (ihb : Accepted fn body) : Accepted fn (.whileLoop line cond body) := by
  intro Γ t u fs got hΓ h
  obtain ⟨t₁, f₁, f₂, _, _, h₁, h₂, rfl, -⟩ := h.of_whileLoop
  have hΓ₁ := (hΓ.collect _ _).of_expr hc h₁
  rw [← accepted_both (judged_after_control hc hΓ h₁) (ihb hΓ₁ h₂)]
  refine and_congr_left fun _ => ⟨fun hok => ?_, ?_⟩
  · cases hok with
    | expr ht => cases ht
    | whileLoop ht hokb => exact ⟨⟨_, ht⟩, hokb⟩
  · rintro ⟨⟨_, ht⟩, hokb⟩
    exact .whileLoop ht hokb

private theorem accepted_forLoop {line : Int} {init cond update body : Node} (his : init.IsStmt)
    (hi : init.declared? = none) (hc : cond.IsExpr) (hus : update.IsStmt)
    (hu : update.declared? = none) (ihi : Accepted fn init) (ihu : Accepted fn update)
    (ihb : Accepted fn body) : Accepted fn (.forLoop line init cond update body) := by
  intro Γ t u fs got hΓ h
  obtain ⟨t₁, t₂, t₃, f₁, f₂, f₃, f₄, _, _, _, _, h₁, h₂, h₃, h₄, rfl, -⟩ := h.of_forLoop
  have hΓ₁ := (hΓ.collect _ _).of_stmt his hi h₁
  have hΓ₂ := hΓ₁.of_expr hc h₂
  have hΓ₃ := hΓ₂.of_stmt hus hu h₃
  have hinit := ihi (hΓ.collect _ _) h₁
  rw [Table.calm_collect] at hinit
  rw [← accepted_both hinit (accepted_both (judged_some hc hΓ₁.describes h₂)
    (accepted_both (ihu hΓ₂ h₃) (ihb hΓ₃ h₄)))]
  refine and_congr_left fun _ => ⟨fun hok => ?_, ?_⟩
  · cases hok with
    | expr ht => cases ht
    | forLoop hoki ht hoku hokb => exact ⟨hoki, ⟨_, ht⟩, hoku, hokb⟩
  · rintro ⟨hoki, ⟨_, ht⟩, hoku, hokb⟩
    exact .forLoop hoki ht hoku hokb

/-- Statements: a run without findings is a derivation. -/
theorem accepted_stmt {s : Node} (hs : s.IsStmt) : s.declared? = none → Accepted fn s := by
  induction hs with
  | expr he => exact fun _ => accepted_expr he
  | varDecl => exact fun hd => by simp [declared?] at hd
  | assign hv => exact fun _ => accepted_assign hv
  | ifElse hc has ha _ hb iha ihb =>
    exact fun _ => accepted_ifElse hc has (declared?_of_isBody ha) (iha (declared?_of_isBody ha))
      (ihb (declared?_of_isBody hb))
  | forLoop his hi hc hus hu _ hb ihi ihu ihb =>
    have hi := declared?_of_isUpdate hi
    have hu := declared?_of_isUpdate hu
    exact fun _ =>
      accepted_forLoop his hi hc hus hu (ihi hi) (ihu hu) (ihb (declared?_of_isBody hb))
  | whileLoop hc _ hb ihb => exact fun _ => accepted_whileLoop hc (ihb (declared?_of_isBody hb))
  | ret hv => exact fun _ => accepted_ret hv
  | exprStmt he =>
    intro _ Γ t u fs got hΓ h
    obtain ⟨type, hr, -⟩ := h.of_exprStmt
    rw [← judged_some he hΓ.describes hr]
    refine and_congr_left fun _ => ⟨fun hok => ?_, ?_⟩
    · cases hok with
      | expr ht => cases ht
      | exprStmt ht => exact ⟨_, ht⟩
    · rintro ⟨_, ht⟩
      exact .exprStmt ht
  | callStmt he =>
    intro _ Γ t u fs got hΓ h
    obtain ⟨type, hr, -⟩ := h.of_callStmt
    rw [← judged_some he hΓ.describes hr]
    refine and_congr_left fun _ => ⟨fun hok => ?_, ?_⟩
    · cases hok with
      | expr ht => cases ht
      | callStmt ht => exact ⟨_, ht⟩
    · rintro ⟨_, ht⟩
      exact .callStmt ht
  | block hs ih => exact fun _ => accepted_block hs ih

end

private theorem repeated_eq_nil {id : FunctionId} {function : String} {params : List Param}
    {t : Table} :
    Check.repeated id function t params = [] ↔
      (params.map Param.name).Nodup ∧ ∀ p ∈ params, t.current.contains p.name = false := by
  induction params generalizing t with
  | nil => simp [Check.repeated]
  | cons p ps ih =>
    have hbind : ∀ q : Param, (Scope.bind t.current p.variable).contains q.name = false ↔
        q.name ≠ p.name ∧ t.current.contains q.name = false := by
      intro q
      rw [← Bool.not_eq_true, Scope.contains_bind, not_or, Bool.not_eq_true]
      rfl
    rw [Check.repeated, List.append_eq_nil_iff, ih, Table.current_addParameter]
    simp only [hbind, List.map_cons, List.nodup_cons, List.mem_map, List.forall_mem_cons]
    cases hc : t.current.contains p.name with
    | true => simp
    | false =>
      simp only [Bool.false_eq_true, if_false, true_and]
      constructor
      · rintro ⟨hn, hps⟩
        refine ⟨⟨?_, hn⟩, fun q hq => (hps q hq).2⟩
        rintro ⟨q, hq, he⟩
        exact (hps q hq).1 he
      · rintro ⟨⟨hp, hn⟩, hps⟩
        exact ⟨hn, fun q hq => ⟨fun he => hp ⟨q, hq, he⟩, hps q hq⟩⟩

private theorem hasReturn_notesAll (ss : List Node) :
    (notesAll ss).hasReturn = true ↔ ∃ s ∈ ss, s.notes.hasReturn = true := by
  induction ss with
  | nil => simp [notesAll, Notes.none]
  | cons s ss ih => simp [notesAll, Notes.append_def, ih]

private theorem hasReturn_iff {s : Node} (hs : s.IsStmt) :
    HasReturn s ↔ s.notes.hasReturn = true := by
  induction hs with
  | expr he =>
    rw [he.notes]
    refine ⟨fun h => ?_, fun h => absurd h Bool.false_ne_true⟩
    cases h <;> cases he
  | varDecl => exact ⟨fun h => (by cases h), fun h => absurd h Bool.false_ne_true⟩
  | assign => exact ⟨fun h => (by cases h), fun h => absurd h Bool.false_ne_true⟩
  | ifElse _ _ _ _ _ iha ihb =>
    simp only [Node.notes, Notes.append_def, Notes.ofControl, Bool.false_or, Bool.or_eq_true, ← iha,
      ← ihb]
    refine ⟨fun h => ?_, fun h => h.elim .thenBranch .elseBranch⟩
    cases h with
    | thenBranch h => exact .inl h
    | elseBranch h => exact .inr h
  | forLoop _ hi _ _ hu _ _ _ _ ihb =>
    simp only [Node.notes, notes_of_isUpdate hi, notes_of_isUpdate hu, Notes.none,
      Notes.append_def, Notes.ofControl, Bool.false_or, ← ihb]
    refine ⟨fun h => ?_, .forBody⟩
    cases h
    assumption
  | whileLoop _ _ _ ihb =>
    simp only [Node.notes, Notes.append_def, Notes.ofControl, Bool.false_or, ← ihb]
    refine ⟨fun h => ?_, .whileBody⟩
    cases h
    assumption
  | ret => exact ⟨fun _ => rfl, fun _ => .ret⟩
  | exprStmt => exact ⟨fun h => (by cases h), fun h => absurd h Bool.false_ne_true⟩
  | callStmt => exact ⟨fun h => (by cases h), fun h => absurd h Bool.false_ne_true⟩
  | block _ ih =>
    rw [Node.notes, hasReturn_notesAll]
    constructor
    · intro h
      cases h with
      | block hs hr => exact ⟨_, hs, (ih _ hs).mp hr⟩
    · rintro ⟨s, hs, hr⟩
      exact .block hs ((ih s hs).mpr hr)

namespace Context.Describes

variable {Γ : Context} {fn : Option FunctionId} {t : Table}

private theorem declareParams {params : List Param} (h : Γ.Describes fn t)
    (hn : (params.map Param.name).Nodup) (hf : ∀ p ∈ params, t.current.contains p.name = false) :
    (Γ.declareParams params).Describes fn
      { t with current := (params.map Param.variable).foldl Scope.bind t.current } := by
  induction params generalizing Γ t with
  | nil => exact h
  | cons p ps ih =>
    simp only [List.map_cons, List.nodup_cons, List.mem_map, not_exists, not_and] at hn
    have hp := h.declare (v := p.variable) (hf p (by simp))
    rw [Table.defineVariable_eq] at hp
    refine ih hp hn.2 fun q hq => ?_
    rw [← Bool.not_eq_true, Scope.contains_bind, not_or, Bool.not_eq_true]
    exact ⟨hn.1 q hq, hf q (by simp [hq])⟩

end Context.Describes

/-- `Γ` describes the table between the declarations of a program. -/
structure Context.Top (Γ : Context) (t : Table) : Prop where
  describes : Γ.Describes none t
  registered : t.Registered

namespace Context.Top

variable {Γ : Context} {t : Table}

private theorem empty : Context.empty.Top .empty :=
  ⟨⟨fun _ => rfl, fun _ => by simp [Context.empty, Table.empty, NameMap.contains], fun _ => rfl,
    rfl, by rintro _ ⟨⟩⟩, by rintro _ _ ⟨⟩⟩

private theorem declareFunction (h : Γ.Top t) {f : Function}
    (hf : t.current.contains f.name = false) :
    (Γ.declareFunction f.name f.signature).Top (t.declare f) := by
  have hn : t.current.find? f.name = none := by simpa [NameMap.contains] using hf
  refine ⟨⟨?_, ?_, ?_, h.describes.params, by rintro _ ⟨⟩⟩, h.registered.declare f⟩
  · intro name
    simp only [Context.declareFunction, Context.declare, Table.resolve, Table.scopes,
      List.findSome?_cons, Table.find?_declare, Table.enclosing_declare, List.lookup_cons]
    by_cases hx : name = f.name
    · subst hx
      simp [hn, Symbol.meaning]
    · simp only [beq_false_of_ne hx, hx, if_false, Option.or_none]
      exact h.describes.visible name
  · intro name
    simp only [Context.declareFunction, Context.declare, List.mem_cons, h.describes.own,
      NameMap.contains, Table.find?_declare]
    by_cases hx : name = f.name <;> simp [hx]
  · intro name
    simp only [Context.declareFunction, Context.declare, Table.registered?_eq,
      Table.registry_declare, NameMap.find?_insert, Table.record?, Table.records_declare,
      List.lookup_cons]
    by_cases hx : name = f.name
    · simp [hx, Table.nextId]
    · have hfun := h.describes.functions name
      simp only [beq_false_of_ne hx, hx, if_false, hfun, Table.registered?_eq]
      cases hid : t.registry.find? name with
      | none => rfl
      | some id =>
        have hlt := (h.registered name id hid).2
        simp [Table.record?, List.getElem?_append_left hlt]

private theorem of_stmt {Δ : Context} {s : Node} {u : Table} {fs : List Finding} {got : Ty}
    (h : Γ.Top t) (hs : s.IsStmt) (hr : (visit none s).Returns t u fs got)
    (hΔ : Δ.Describes none u) :
    Δ.Top u := by
  obtain ⟨b, rfl⟩ := hr.of_stmt hs
  exact ⟨hΔ, h.registered.declaring s⟩

private theorem inFunction_eq (Γ : Context) (params : List Param) (result : Ty) :
    Γ.inFunction params result =
      { Γ.nested with params := params.map Param.name, result := result }.declareParams params := by
  have heads : ∀ (Δ : Context) (ps : List Param) (names : List String),
      { Δ.declareParams ps with params := names, result := result } =
        { Δ with params := names, result := result }.declareParams ps := by
    intro Δ ps names
    induction ps generalizing Δ with
    | nil => rfl
    | cons p ps ih => exact ih _
  exact heads _ _ _

private theorem inFunction (h : Γ.Top t) {line : Int} {name : String} {returnText : Option String}
    {params : List Param} (hf : t.current.contains name = false)
    (hn : (params.map Param.name).Nodup) :
    ((Γ.declareFunction name (.ofHead params returnText)).inFunction params
        (Ty.ofReturnText returnText)).Inside (some t.nextId)
      (t.openFunction (Check.head line name returnText) (params.map Param.variable)) := by
  obtain ⟨f, hfdef⟩ : ∃ f, f = Function.declared name (Ty.ofReturnText returnText) line
      (params.map Param.variable) := ⟨_, rfl⟩
  have hsig : f.signature = .ofHead params returnText := by
    simp [hfdef, Function.signature, Signature.ofHead, Function.declared, Function.comp_def,
      Param.variable]
  have hname : f.name = name := by rw [hfdef]; rfl
  have htop := h.declareFunction (f := f) (by rw [hname]; exact hf)
  rw [hsig, hname] at htop
  have hrec : (t.declare f).enter.around (some t.nextId) = some f := by
    have : (t.declare f).records[t.records.length]? = some f := by simp [Table.records_declare]
    exact this
  generalize Γ.declareFunction name _ = Δ at htop ⊢
  have henter := htop.describes.enter
  have hstart : Context.Describes
      { Δ.nested with params := params.map Param.name, result := Ty.ofReturnText returnText }
      (some t.nextId) (t.declare f).enter := by
    refine ⟨henter.visible, henter.own, henter.functions, ?_, fun g hg => ?_⟩
    · rw [hrec, hfdef]
      simp [Function.declared, Function.comp_def, Param.variable]
    · rw [hrec] at hg
      cases hg
      rw [hfdef]
      rfl
  rw [inFunction_eq, Table.openFunction_eq_enter, ← hfdef]
  exact ⟨hstart.declareParams hn fun _ _ => rfl, Option.isSome_iff_exists.mpr ⟨f, hrec⟩⟩

end Context.Top

private theorem accepted_body {Γ : Context} {fn : Option FunctionId} {body : Node} {t u : Table}
    {fs : List Finding} (hs : body.IsStmt) (hb : body.isBody) (hΓ : Γ.Inside fn t)
    (h : (visitBody fn body).Returns t u fs ()) :
    (StmtsOk .typed Γ body.statements ∧ t.Calm fn) ↔ (fs = [] ∧ u.Calm fn) := by
  obtain ⟨types, hr⟩ := h.of_visitBody hb
  exact accepted_statements hs.statements (fun s hm => accepted_stmt (hs.statements s hm)) hΓ hr

private theorem unfinished_eq_nil {f : Function} {line : Int} {name : String} {type : Ty} :
    Check.unfinished (some f) line name type = [] ↔
      (type = .void ∨ f.hasReturn = true) ∧ (name = mainName → f.isRecursive = false) := by
  rw [Check.unfinished, List.append_eq_nil_iff]
  refine and_congr ?_ ?_
  · by_cases hv : type = .void <;> cases hr : f.hasReturn <;> simp [hv, hr]
  · by_cases hm : name = mainName <;> cases hr : f.isRecursive <;> simp [hm, hr]

private theorem hidden_eq_nil {Γ : Context} {fn : Option FunctionId} {t : Table} {f : Function}
    (hΓ : Γ.Describes fn t) : Check.hidden t f = [] ↔ f.name ∉ Γ.own := by
  rw [hΓ.own, Check.hidden]
  cases t.current.contains f.name <;> simp

/-- The table in which a body is visited is calm; the one after it is calm unless `main` calls
itself. -/
private theorem calm_openFunction {t : Table} {line : Int} {name : String}
    {returnText : Option String} {params : List Variable} (ss : List Node) (n : Notes) (b : Bool) :
    ((ss.foldl Table.declaring
      (t.openFunction (Check.head line name returnText) params)).collect (some t.nextId) n b).Calm
        (some t.nextId) ↔ (name = mainName → b = false) := by
  have hrec := Table.record?_openFunction t (Check.head line name returnText) params ss n b
  constructor
  · intro h hm
    simpa [Function.collect, Check.head, Function.declared] using h _ hrec hm
  · intro h f hf hm
    cases hrec.symm.trans hf
    simpa [Function.collect, Check.head, Function.declared] using h hm

private theorem accepted_functionBody {Γ : Context} {line : Int} {name : String}
    {returnText : Option String} {params : List Param} {body : Node} {t : Table} {b : Bool}
    {gs : List Finding} (hs : body.IsStmt) (hb : body.isBody) (hΓ : Γ.Top t)
    (hf : t.current.contains name = false) (hn : (params.map Param.name).Nodup)
    (h : (visitBody (some t.nextId) body).Returns
      (t.openFunction (Check.head line name returnText) (params.map Param.variable))
      ((body.statements.foldl Table.declaring (t.openFunction (Check.head line name returnText)
        (params.map Param.variable))).collect (some t.nextId) body.notes b) gs ()) :
    StmtsOk .typed ((Γ.declareFunction name (.ofHead params returnText)).inFunction params
      (Ty.ofReturnText returnText)) body.statements ↔ gs = [] ∧ (name = mainName → b = false) := by
  have hbody := accepted_body hs hb (hΓ.inFunction hf hn) h
  have hstart := @calm_openFunction t line name returnText (params.map Param.variable) [] .none
    false
  rw [Table.collect_none] at hstart
  rw [calm_openFunction] at hbody
  rw [← hbody]
  exact ⟨fun hok => ⟨hok, hstart.mpr fun _ => rfl⟩, fun hok => hok.1⟩

/-- A declaration of a function is accepted exactly when its name is new, its parameters differ,
its body is well formed and it has the return statement that it needs. -/
theorem accepted_funcDecl {Γ : Context} {line : Int} {name : String} {returnText : Option String}
    {params : List Param} {body : Node} {t u : Table} {fs : List Finding} {got : Ty}
    (hs : body.IsStmt) (hb : body.isBody) (hΓ : Γ.Top t)
    (h : (visit none (.funcDecl line name returnText params body)).Returns t u fs got) :
    (fs = [] ↔ name ∉ Γ.own ∧ (params.map Param.name).Nodup ∧
      StmtsOk .typed ((Γ.declareFunction name (.ofHead params returnText)).inFunction params
        (Ty.ofReturnText returnText)) body.statements ∧
      Discipline.typed.ends (Ty.ofReturnText returnText) (HasReturn body)) ∧
    (fs = [] → (Γ.declareFunction name (.ofHead params returnText)).Top u) := by
  cases hc : t.registry.contains name with
  | true =>
    obtain ⟨-, rfl, -⟩ := h.of_funcDecl_taken hc
    have hown : name ∈ Γ.own := (hΓ.describes.own name).mpr (hΓ.registered.contains hc)
    have hne := List.cons_ne_nil (⟨some line, .functionRedefined name⟩ : Finding) []
    exact ⟨⟨fun h => absurd h hne, fun h => absurd hown h.1⟩, fun h => absurd h hne⟩
  | false =>
    obtain ⟨gs, b, hr, rfl, rfl, -⟩ := h.of_funcDecl hs hb hc
    have hfresh := hidden_eq_nil (f := Check.head line name returnText) hΓ.describes
    have hcur : name ∉ Γ.own → t.current.contains name = false := fun hown => by
      rwa [← Bool.not_eq_true, ← hΓ.describes.own]
    have hreturn : (functionRecord line name returnText params body b).hasReturn = true ↔
        HasReturn body := by
      rw [hasReturn_iff hs]
      simp [functionRecord, Function.collect, Function.declared]
    have hrecursive : (functionRecord line name returnText params body b).isRecursive = b := by
      simp [functionRecord, Function.collect, Function.declared]
    simp only [List.append_eq_nil_iff, hfresh, repeated_eq_nil, unfinished_eq_nil, hreturn,
      hrecursive]
    constructor
    · constructor
      · rintro ⟨hown, ⟨hn, -⟩, hg, hends, hmain⟩
        exact ⟨hown, hn, (accepted_functionBody hs hb hΓ (hcur hown) hn hr).mpr ⟨hg, hmain⟩, hends⟩
      · rintro ⟨hown, hn, hok, hends⟩
        obtain ⟨hg, hmain⟩ := (accepted_functionBody hs hb hΓ (hcur hown) hn hr).mp hok
        exact ⟨hown, ⟨hn, fun _ _ => rfl⟩, hg, hends, hmain⟩
    · rintro ⟨hown, -⟩
      have htop := hΓ.declareFunction (f := functionRecord line name returnText params body b)
        (hcur hown)
      have hsig : (functionRecord line name returnText params body b).signature =
          .ofHead params returnText := by
        simp [functionRecord, Function.signature, Signature.ofHead, Function.collect,
          Function.declared, Function.comp_def, Param.variable]
      rwa [hsig] at htop

private theorem accepted_decls {Γ : Context} {decls : List Node} {t u : Table} {fs : List Finding}
    {types : List Ty} (hd : ∀ d ∈ decls, d.IsDecl) (hΓ : Γ.Top t)
    (h : (visitAll none decls).Returns t u fs types) : fs = [] ↔ DeclsOk .typed Γ decls := by
  induction decls generalizing Γ t u fs types with
  | nil =>
    obtain ⟨-, rfl, -⟩ := h.of_visitAll_nil
    exact ⟨fun _ => .nil, fun _ => rfl⟩
  | cons d decls ih =>
    obtain ⟨w, f₁, g, f₂, gs, h₁, h₂, rfl, -⟩ := h.of_visitAll_cons
    have ih := fun {Δ : Context} (hΔ : Δ.Top w) => ih (fun e he => hd e (by simp [he])) hΔ h₂
    rw [List.append_eq_nil_iff]
    cases hd d (by simp) with
    | varDecl hi =>
      obtain ⟨hok, hdesc⟩ := accepted_varDecl hi hΓ.describes h₁
      have hcalm : ∀ t : Table, t.Calm none := by rintro _ _ ⟨⟩
      constructor
      · rintro ⟨hf, hg⟩
        have htop := hΓ.of_stmt (.varDecl hi) h₁ (hdesc hf)
        exact .variable (hok.mpr ⟨hf, hcalm w⟩).1 ((ih htop).mp hg)
      · rintro (_ | ⟨hvar, hrest⟩ | _)
        have hf := (hok.mp ⟨hvar, hcalm t⟩).1
        exact ⟨hf, (ih (hΓ.of_stmt (.varDecl hi) h₁ (hdesc hf))).mpr hrest⟩
    | funcDecl hs hb =>
      obtain ⟨hok, htop⟩ := accepted_funcDecl hs hb hΓ h₁
      constructor
      · rintro ⟨hf, hg⟩
        obtain ⟨hown, hn, hbody, hends⟩ := hok.mp hf
        exact .function hown hn rfl hbody hends ((ih (htop hf)).mp hg)
      · rintro (_ | _ | ⟨hown, hn, rfl, hbody, hends, hrest⟩)
        have hf := hok.mpr ⟨hown, hn, hbody, hends⟩
        exact ⟨hf, (ih (htop hf)).mpr hrest⟩

/-- The analysis of a grammatical program always returns, and it finds nothing exactly in the
well-formed programs. -/
theorem findings_eq_nil_iff_wellFormed {P : Node} (hP : P.IsProgram) :
    ((analyze P).run .empty).result = .ok () ∧
      (((analyze P).run .empty).findings = [] ↔ WellFormed .typed P) := by
  cases hP with
  | @program line decls hd =>
    obtain ⟨u, fs, types, hr⟩ := visitAll_decls hd .empty
    have ha : (analyze (.program line decls)).Returns .empty u fs () := analyze_returns hr
    have hok := accepted_decls hd .empty hr
    rw [ha]
    refine ⟨rfl, hok.trans ⟨.program, fun h => ?_⟩⟩
    cases h with
    | program h => exact h

/-- A local variable hides a constant of another type, and a variable of the loop hides it in turn.
-/
theorem findings_eq_nil_iff_wellFormed_shadowing :
    let P : Node := .program 1
      [.varDecl 1 "x" (some "int") true (.literal 1 "int" "1") none,
        .funcDecl 2 "f" (some "float") [⟨2, "n", some "int"⟩] (.block 2
          [.varDecl 3 "x" (some "float") false (.identifier 3 "x") none,
            .whileLoop 4 (.binary 4 "<" (.identifier 4 "x") (.identifier 4 "n")) (.block 4
              [.assign 5 "x" "=" (.call 5 "f" [.identifier 5 "n"]),
                .varDecl 6 "x" (some "string") false .missing none]),
            .ret 7 (.binary 7 "+" (.identifier 7 "x") (.identifier 7 "n"))])]
    P.IsProgram ∧ WellFormed .typed P :=
  ⟨by decide, (findings_eq_nil_iff_wellFormed (by decide)).2.mp (by decide)⟩

/-- A program that the rules on names accept and the analysis does not. -/
def Overlooked (P : Node) : Prop :=
  P.IsProgram ∧ WellFormed .names P ∧ ((analyze P).run .empty).findings ≠ []

private theorem overlooked_initializer :
    Overlooked (.program 1 [.varDecl 1 "x" (some "int") false (.literal 1 "string" "s") none]) := by
  refine ⟨by decide, ?_, by decide⟩
  exact .program (.variable ⟨by simp [Context.empty], by simp [Context.empty], by simp,
    _, .literal, trivial⟩ .nil)

private theorem overlooked_call :
    Overlooked (.program 1
      [.funcDecl 1 "f" none [⟨1, "p", some "int"⟩] (.block 1 []),
        .funcDecl 2 "g" none [] (.block 2 [.callStmt 3 (.call 3 "f" [])])]) := by
  refine ⟨by decide, ?_, by decide⟩
  refine .program (.function (by simp [Context.empty]) (by simp) rfl .nil trivial
    (.function ?_ (by simp) rfl (.cons (.callStmt (.call rfl (by decide) .nil trivial)) .nil)
      trivial .nil))
  simp [Context.declareFunction, Context.declare, Context.empty]

private theorem overlooked_return :
    Overlooked (.program 1 [.funcDecl 1 "f" (some "int") [] (.block 1 [])]) := by
  refine ⟨by decide, ?_, by decide⟩
  exact .program (.function (by simp [Context.empty]) (by simp) rfl .nil trivial .nil)

/-- The rules on names are not enough: types are asked where values are stored, where arguments are
passed and where a function ends. -/
theorem names_overlook_types :
    Overlooked (.program 1 [.varDecl 1 "x" (some "int") false (.literal 1 "string" "s") none]) ∧
    Overlooked (.program 1
      [.funcDecl 1 "f" none [⟨1, "p", some "int"⟩] (.block 1 []),
        .funcDecl 2 "g" none [] (.block 2 [.callStmt 3 (.call 3 "f" [])])]) ∧
    Overlooked (.program 1 [.funcDecl 1 "f" (some "int") [] (.block 1 [])]) :=
  ⟨overlooked_initializer, overlooked_call, overlooked_return⟩

end MiniCheck
