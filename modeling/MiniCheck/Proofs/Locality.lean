import MiniCheck.Proofs.Outline
import MiniCheck.Proofs.Positions
import Mathlib.Data.List.Forall2

/-!
# Locality

A visit depends on the names that stand in the node and on nothing else of the table. Tables that
agree on these names give the same findings and the same type, and they agree afterwards. The
functions may have different numbers in the two tables.
-/

namespace MiniCheck

open Pass Node

mutual

/-- The names that stand in a node: what it declares, uses, assigns and calls. -/
def Node.names : Node → List String
  | .program _ decls => Node.namesAll decls
  | .block _ statements => Node.namesAll statements
  | .varDecl _ name _ _ init _ => name :: init.names
  | .param p => [p.name]
  | .funcDecl _ name _ params body => name :: (params.map Param.name ++ body.names)
  | .assign _ name _ value => name :: value.names
  | .ifElse _ cond thenBranch elseBranch => cond.names ++ (thenBranch.names ++ elseBranch.names)
  | .forLoop _ init cond update body =>
      init.names ++ (cond.names ++ (update.names ++ body.names))
  | .whileLoop _ cond body => cond.names ++ body.names
  | .ret _ e | .exprStmt _ e | .callStmt _ e | .paren _ e | .negation _ e => e.names
  | .call _ name args => name :: Node.namesAll args
  | .identifier _ name => [name]
  | .binary _ _ left right => left.names ++ right.names
  | .missing | .literal .. | .unclassified _ => []

def Node.namesAll : List Node → List String
  | [] => []
  | n :: ns => n.names ++ Node.namesAll ns

end

theorem forall_namesAll {N : String → Prop} {ns : List Node} :
    (∀ x ∈ namesAll ns, N x) ↔ ∀ n ∈ ns, ∀ x ∈ n.names, N x := by
  induction ns with
  | nil => simp [namesAll]
  | cons n ns ih => rw [namesAll, List.forall_mem_append, ih, List.forall_mem_cons]

/-- The variable of a symbol; the number of a function is left out. -/
def Symbol.asVariable? : Symbol → Option Variable
  | .variable v => some v
  | .function _ => none

/-- The record of a function without the lists of its locals and control statements. -/
def Function.gist (f : Function) : Function := { f with locals := [], controls := [] }

theorem Function.eq_of_head {f g : Function} (h : f.head = g.head) :
    f.type = g.type ∧ f.parameters = g.parameters := by
  simp only [head, declared, Function.mk.injEq] at h
  exact ⟨h.2.1, h.2.2.2.1⟩

private theorem Function.eq_of_gist {f g : Function} (h : f.gist = g.gist) :
    f.name = g.name ∧ f.type = g.type ∧ f.parameters = g.parameters ∧
      f.isRecursive = g.isRecursive := by
  simp only [gist, Function.mk.injEq] at h
  exact ⟨h.1, h.2.1, h.2.2.2.1, h.2.2.2.2.2.2.2⟩

def Scope.Agree (N : String → Prop) (s s' : Scope) : Prop :=
  ∀ name, N name → (s.find? name).map Symbol.asVariable? = (s'.find? name).map Symbol.asVariable?

/-- Inside of the functions `fn` and `fn'`, the tables agree on the names in `N`. -/
structure Agree (N : String → Prop) (fn : Option FunctionId) (t : Table) (fn' : Option FunctionId)
    (u : Table) : Prop where
  scopes : List.Forall₂ (Scope.Agree N) t.scopes u.scopes
  registered : ∀ name, N name →
    (t.registered? name).map (·.2.head) = (u.registered? name).map (·.2.head)
  around : (t.around fn).map Function.gist = (u.around fn').map Function.gist

private theorem Scope.Agree.bind {N : String → Prop} {s s' : Scope} (h : Scope.Agree N s s')
    (v : Variable) : Scope.Agree N (Scope.bind s v) (Scope.bind s' v) := by
  intro name hn
  rw [Scope.find?_bind, Scope.find?_bind, Option.map_or, Option.map_or, h name hn]

theorem Table.registered?_collect_head (t : Table) (fn : Option FunctionId) (n : Notes) (b : Bool)
    (name : String) :
    ((t.collect fn n b).registered? name).map (·.2.head) =
      (t.registered? name).map (·.2.head) := by
  rw [registered?_eq, registered?_eq, registry_collect]
  cases t.registry.find? name with
  | none => rfl
  | some id =>
    simp only [Option.bind_some, record?_collect, Option.map_map]
    cases t.record? id with
    | none => rfl
    | some f =>
      simp only [Option.map_some, Function.comp_apply, Option.some.injEq]
      split <;> rfl

namespace Agree

variable {N : String → Prop} {fn fn' : Option FunctionId} {t u : Table}

private theorem collect (h : Agree N fn t fn' u) (n : Notes) (b : Bool) :
    Agree N fn (t.collect fn n b) fn' (u.collect fn' n b) := by
  refine ⟨?_, ?_, ?_⟩
  · rw [Table.scopes_collect, Table.scopes_collect]
    exact h.scopes
  · intro name hn
    rw [Table.registered?_collect_head, Table.registered?_collect_head, h.registered name hn]
  · have hg : ∀ f : Function, (f.collect n b).gist = (f.gist.collect n b).gist := fun f => rfl
    rw [Table.around_collect, Table.around_collect, Option.map_map, Option.map_map]
    have hm := congrArg (Option.map fun f : Function => (f.collect n b).gist) h.around
    simpa only [Option.map_map, Function.comp_def, ← hg] using hm

private theorem enter (h : Agree N fn t fn' u) : Agree N fn t.enter fn' u.enter :=
  ⟨.cons (fun _ _ => rfl) h.scopes, h.registered, h.around⟩

private theorem exit {t' u' : Table} (h : Agree N fn t fn' u) (ht : t.exit? = some t')
    (hu : u.exit? = some u') : Agree N fn t' fn' u' := by
  have hexit : ∀ {t t' : Table}, t.exit? = some t' →
      t.scopes.tail = t'.scopes ∧ ∀ name, t'.registered? name = t.registered? name := by
    intro t t' ht
    cases he : t.enclosing with
    | nil => simp [Table.exit?, he] at ht
    | cons s ss =>
      obtain rfl : { t with current := s, enclosing := ss } = t' := by
        simpa [Table.exit?, he] using ht
      exact ⟨by simp [Table.scopes, he], fun _ => rfl⟩
  obtain ⟨hst, hrt⟩ := hexit ht
  obtain ⟨hsu, hru⟩ := hexit hu
  refine ⟨?_, fun name hn => ?_, ?_⟩
  · rw [← hst, ← hsu]
    cases h.scopes with
    | cons _ hs => exact hs
  · rw [hrt, hru, h.registered name hn]
  · rw [Table.around_of_exit? t fn ht, Table.around_of_exit? u fn' hu, h.around]

private theorem declaring (h : Agree N fn t fn' u) (s : Node) :
    Agree N fn (t.declaring s) fn' (u.declaring s) := by
  cases hv : s.declared? with
  | none => simpa only [Table.declaring, hv] using h
  | some v =>
    simp only [Table.declaring, hv, Table.defineVariable_eq]
    refine ⟨?_, h.registered, h.around⟩
    cases h.scopes with
    | cons hc hs => exact .cons (hc.bind v) hs

private theorem around_cases (h : Agree N fn t fn' u) :
    (t.around fn = none ∧ u.around fn' = none) ∨
    ∃ f g, t.around fn = some f ∧ u.around fn' = some g ∧ f.gist = g.gist :=
  cases_of_map_eq h.around

private theorem around_map (h : Agree N fn t fn' u) {α : Type} {part : Function → α}
    (hp : ∀ f g : Function, f.gist = g.gist → part f = part g) :
    (t.around fn).map part = (u.around fn').map part := by
  obtain ⟨ht, hu⟩ | ⟨f, g, ht, hu, hfg⟩ := h.around_cases
  · rw [ht, hu]
  · rw [ht, hu, Option.map_some, Option.map_some, hp f g hfg]

private theorem registered_cases (h : Agree N fn t fn' u) {name : String} (hn : N name) :
    (t.registered? name = none ∧ u.registered? name = none) ∨
    ∃ found found', t.registered? name = some found ∧ u.registered? name = some found' ∧
      found.2.head = found'.2.head :=
  cases_of_map_eq (h.registered name hn)

private theorem resolve (h : Agree N fn t fn' u) {name : String} (hn : N name) :
    (t.resolve name).map Symbol.asVariable? = (u.resolve name).map Symbol.asVariable? := by
  rw [Table.resolve, Table.resolve]
  have hs := h.scopes
  generalize t.scopes = ss, u.scopes = ss' at hs
  induction hs with
  | nil => rfl
  | @cons s s' ss ss' hs _ ih =>
    have hf := hs name hn
    rw [List.findSome?_cons, List.findSome?_cons]
    cases hx : s.find? name <;> cases hy : s'.find? name <;> simp only [hx, hy] at hf ⊢
    · exact ih
    · simp at hf
    · simp at hf
    · exact hf

private theorem resolve_cases (h : Agree N fn t fn' u) {name : String} (hn : N name) :
    (t.resolve name = none ∧ u.resolve name = none) ∨
    (∃ i j, t.resolve name = some (.function i) ∧ u.resolve name = some (.function j)) ∨
    ∃ v, t.resolve name = some (.variable v) ∧ u.resolve name = some (.variable v) := by
  obtain ⟨ht, hu⟩ | ⟨x, y, ht, hu, he⟩ := cases_of_map_eq (h.resolve hn)
  · exact .inl ⟨ht, hu⟩
  · cases x with
    | function i =>
      cases y with
      | function j => exact .inr (.inl ⟨i, j, ht, hu⟩)
      | «variable» w => simp [Symbol.asVariable?] at he
    | «variable» v =>
      cases y with
      | function j => simp [Symbol.asVariable?] at he
      | «variable» w =>
        obtain rfl : v = w := by simpa [Symbol.asVariable?] using he
        exact .inr (.inr ⟨v, ht, hu⟩)

theorem contains (h : Agree N fn t fn' u) {name : String} (hn : N name) :
    t.current.contains name = u.current.contains name := by
  have hs := h.scopes
  rw [Table.scopes, Table.scopes] at hs
  cases hs with
  | cons hc _ =>
    have hi := congrArg Option.isSome (hc name hn)
    rwa [Option.isSome_map, Option.isSome_map] at hi

private theorem typeOf (h : Agree N fn t fn' u) {name : String} (hn : N name) :
    t.typeOf name = u.typeOf name := by
  obtain ⟨ht, hu⟩ | ⟨i, j, ht, hu⟩ | ⟨v, ht, hu⟩ := h.resolve_cases hn <;>
    simp only [Table.typeOf, ht, hu]

end Agree

namespace Check

variable {N : String → Prop} {fn fn' : Option FunctionId} {t u : Table} (h : Agree N fn t fn' u)
  (line : Int) (name : String)
include h

private theorem redeclared_agree (hn : N name) :
    redeclared t (t.around fn) line name = redeclared u (u.around fn') line name :=
  redeclared_congr line name (h.contains hn)
    (h.around_map fun _ _ he => (Function.eq_of_gist he).1)

private theorem conflicts_agree :
    conflicts (t.around fn) line name = conflicts (u.around fn') line name :=
  conflicts_congr line name (h.around_map fun _ _ he => (Function.eq_of_gist he).2.2.1)

private theorem mainCalls_agree :
    mainCalls line name (t.around fn) = mainCalls line name (u.around fn') :=
  mainCalls_congr line name (h.around_map fun _ _ he => (Function.eq_of_gist he).1)

private theorem undeclared_agree (hn : N name) :
    undeclared t line name = undeclared u line name := by
  obtain ⟨ht, hu⟩ | ⟨i, j, ht, hu⟩ | ⟨v, ht, hu⟩ := h.resolve_cases hn <;>
    simp [undeclared, ht, hu]

private theorem calling_agree : Agree N fn (calling t fn name) fn' (calling u fn' name) := by
  have hself : (t.around fn).any (·.name == name) = (u.around fn').any (·.name == name) := by
    obtain ⟨ht, hu⟩ | ⟨f, g, ht, hu, hfg⟩ := h.around_cases
    · rw [ht, hu]
    · rw [ht, hu, Option.any_some, Option.any_some, (Function.eq_of_gist hfg).1]
  rw [Table.calling_eq_collect, Table.calling_eq_collect, hself]
  exact h.collect _ _

end Check

/-- Visits of `n` from tables that agree on `N` find the same and agree afterwards. -/
def Node.Local (N : String → Prop) (n : Node) : Prop :=
  ∀ ⦃fn fn' t u⦄, Agree N fn t fn' u → ∀ ⦃t' u' fs gs type type'⦄,
    (visit fn n).Returns t t' fs type → (visit fn' n).Returns u u' gs type' →
    Agree N fn t' fn' u' ∧ fs = gs ∧ type = type'

variable {N : String → Prop} {fn fn' : Option FunctionId} {t u t' u' : Table}
  {fs gs : List Finding}

private theorem local_each {ns : List Node} (hl : ∀ n ∈ ns, n.Local N) {types types' : List Ty}
    (h : Agree N fn t fn' u) (ht : (visitAll fn ns).Returns t t' fs types)
    (hu : (visitAll fn' ns).Returns u u' gs types') :
    Agree N fn t' fn' u' ∧ fs = gs ∧ types = types' := by
  induction ns generalizing t u fs gs types types' with
  | nil =>
    obtain ⟨rfl, rfl, rfl⟩ := ht.of_visitAll_nil
    obtain ⟨rfl, rfl, rfl⟩ := hu.of_visitAll_nil
    exact ⟨h, rfl, rfl⟩
  | cons n ns ih =>
    obtain ⟨t₁, f₁, got, f₂, rest, ht₁, ht₂, rfl, rfl⟩ := ht.of_visitAll_cons
    obtain ⟨u₁, g₁, got', g₂, rest', hu₁, hu₂, rfl, rfl⟩ := hu.of_visitAll_cons
    obtain ⟨h₁, rfl, rfl⟩ := hl n (by simp) h ht₁ hu₁
    obtain ⟨h₂, rfl, rfl⟩ := ih (fun m hm => hl m (by simp [hm])) h₁ ht₂ hu₂
    exact ⟨h₂, rfl, rfl⟩

private theorem local_call {line : Int} {name : String} {args : List Node}
    (ha : ∀ a ∈ args, a.IsExpr) (hl : ∀ a ∈ args, a.Local N) (hn : N name) :
    (Node.call line name args).Local N := by
  intro fn fn' t u h t' u' fs gs type type' ht hu
  obtain ⟨rt, ru⟩ | ⟨⟨i, f⟩, ⟨j, g⟩, rt, ru, hfg⟩ := h.registered_cases hn
  · obtain ⟨f₁, types, ht₁, rfl, rfl⟩ := ht.of_call_undefined ha rt
    obtain ⟨g₁, types', hu₁, rfl, rfl⟩ := hu.of_call_undefined ha ru
    obtain ⟨h₁, rfl, rfl⟩ := local_each hl h ht₁ hu₁
    exact ⟨h₁, rfl, rfl⟩
  · obtain ⟨f₁, types, ht₁, rfl, rfl⟩ := ht.of_call ha rt
    obtain ⟨g₁, types', hu₁, rfl, rfl⟩ := hu.of_call ha ru
    obtain ⟨h', rfl, rfl⟩ := local_each hl (Check.calling_agree h name) ht₁ hu₁
    obtain ⟨htype, hparams⟩ := Function.eq_of_head hfg
    refine ⟨h', ?_, htype⟩
    rw [Check.mainCalls_agree h line name, Check.misapplied, hparams, Check.misapplied]

private theorem local_expr {e : Node} (he : e.IsExpr) (hn : ∀ x ∈ e.names, N x) : e.Local N := by
  induction he with
  | missing =>
    intro fn fn' t u h t' u' fs gs type type' ht hu
    obtain ⟨rfl, rfl, rfl⟩ := ht.of_missing
    obtain ⟨rfl, rfl, rfl⟩ := hu.of_missing
    exact ⟨h, rfl, rfl⟩
  | literal =>
    intro fn fn' t u h t' u' fs gs type type' ht hu
    obtain ⟨rfl, rfl, rfl⟩ := ht.of_literal
    obtain ⟨rfl, rfl, rfl⟩ := hu.of_literal
    exact ⟨h, rfl, rfl⟩
  | @identifier line name =>
    intro fn fn' t u h t' u' fs gs type type' ht hu
    have hn : N name := hn name (by simp [names])
    obtain ⟨rfl, rfl, rfl⟩ := ht.of_identifier
    obtain ⟨rfl, rfl, rfl⟩ := hu.of_identifier
    exact ⟨h, Check.undeclared_agree h line name hn, h.typeOf hn⟩
  | paren _ ih => exact ih hn
  | negation _ ih =>
    intro fn fn' t u h t' u' fs gs type type' ht hu
    obtain ⟨got, ht₁, rfl⟩ := ht.of_negation
    obtain ⟨got', hu₁, rfl⟩ := hu.of_negation
    obtain ⟨h₁, rfl, -⟩ := ih hn h ht₁ hu₁
    exact ⟨h₁, rfl, rfl⟩
  | binary _ _ ihl ihr =>
    intro fn fn' t u h t' u' fs gs type type' ht hu
    rw [names, List.forall_mem_append] at hn
    obtain ⟨t₁, f₁, l, f₂, r, ht₁, ht₂, rfl, rfl⟩ := ht.of_binary
    obtain ⟨u₁, g₁, l', g₂, r', hu₁, hu₂, rfl, rfl⟩ := hu.of_binary
    obtain ⟨h₁, rfl, rfl⟩ := ihl hn.1 h ht₁ hu₁
    obtain ⟨h₂, rfl, rfl⟩ := ihr hn.2 h₁ ht₂ hu₂
    exact ⟨h₂, rfl, rfl⟩
  | call ha ih =>
    rw [names, List.forall_mem_cons, forall_namesAll] at hn
    exact local_call ha (fun a hm => ih a hm (hn.2 a hm)) hn.1

private theorem local_varDecl {line : Int} {name : String} {typeText : Option String}
    {isConst : Bool} {init : Node} {initText : Option String} (hi : init.IsExpr)
    (hl : init.Local N) (hn : N name) :
    (Node.varDecl line name typeText isConst init initText).Local N := by
  intro fn fn' t u h t' u' fs gs type type' ht hu
  obtain ⟨t₁, f₁, got, ht₁, rfl, rfl, rfl⟩ := ht.of_varDecl hi
  obtain ⟨u₁, g₁, got', hu₁, rfl, rfl, rfl⟩ := hu.of_varDecl hi
  obtain ⟨h₁, rfl, rfl⟩ := hl h ht₁ hu₁
  refine ⟨(h₁.declaring _).collect _ _, ?_, rfl⟩
  rw [Check.redeclared_agree h line name hn, Check.conflicts_agree h line name]

private theorem local_assign {line : Int} {name op : String} {value : Node} (hv : value.IsExpr)
    (hl : value.Local N) (hn : N name) : (Node.assign line name op value).Local N := by
  intro fn fn' t u h t' u' fs gs type type' ht hu
  obtain ⟨rt, ru⟩ | ⟨i, j, rt, ru⟩ | ⟨x, rt, ru⟩ := h.resolve_cases hn
  · obtain ⟨rfl, rfl, rfl⟩ := ht.of_assign_undeclared rt
    obtain ⟨rfl, rfl, rfl⟩ := hu.of_assign_undeclared ru
    exact ⟨h, rfl, rfl⟩
  · obtain ⟨rfl, rfl, rfl⟩ := ht.of_assign_function rt
    obtain ⟨rfl, rfl, rfl⟩ := hu.of_assign_function ru
    exact ⟨h, rfl, rfl⟩
  · obtain ⟨f₁, got, ht₁, rfl, rfl⟩ := ht.of_assign hv rt
    obtain ⟨g₁, got', hu₁, rfl, rfl⟩ := hu.of_assign hv ru
    obtain ⟨h₁, rfl, rfl⟩ := hl h ht₁ hu₁
    exact ⟨h₁, rfl, rfl⟩

private theorem local_ret {line : Int} {value : Node} (hv : value.IsExpr) (hl : value.Local N) :
    (Node.ret line value).Local N := by
  intro fn fn' t u h t' u' fs gs type type' ht hu
  obtain ⟨at', au⟩ | ⟨f, g, at', au, hfg⟩ := h.around_cases
  · obtain ⟨rfl, rfl, rfl⟩ := ht.of_ret_outside at'
    obtain ⟨rfl, rfl, rfl⟩ := hu.of_ret_outside au
    exact ⟨h, rfl, rfl⟩
  · obtain ⟨hname, htype, -, -⟩ := Function.eq_of_gist hfg
    cases hm : value.isMissing with
    | true =>
      obtain rfl := eq_missing_of_isMissing hm
      obtain ⟨rfl, rfl, rfl⟩ := ht.of_ret_nothing at'
      obtain ⟨rfl, rfl, rfl⟩ := hu.of_ret_nothing au
      exact ⟨h.collect _ _, by rw [hname, htype], rfl⟩
    | false =>
      obtain ⟨f₁, got, ht₁, rfl, rfl⟩ := ht.of_ret hv hm at'
      obtain ⟨g₁, got', hu₁, rfl, rfl⟩ := hu.of_ret hv hm au
      obtain ⟨h₁, rfl, rfl⟩ := hl (h.collect _ _) ht₁ hu₁
      exact ⟨h₁, by rw [hname, htype], rfl⟩

theorem local_stmt {s : Node} (hs : s.IsStmt) (hn : ∀ x ∈ s.names, N x) : s.Local N := by
  induction hs with
  | expr he => exact local_expr he hn
  | varDecl hi =>
    rw [names, List.forall_mem_cons] at hn
    exact local_varDecl hi (local_expr hi hn.2) hn.1
  | assign hv =>
    rw [names, List.forall_mem_cons] at hn
    exact local_assign hv (local_expr hv hn.2) hn.1
  | ifElse hc _ _ _ _ iha ihb =>
    intro fn fn' t u h t' u' fs gs type type' ht hu
    rw [names, List.forall_mem_append, List.forall_mem_append] at hn
    obtain ⟨t₁, t₂, f₁, f₂, f₃, _, _, _, ht₁, ht₂, ht₃, rfl, rfl⟩ := ht.of_ifElse
    obtain ⟨u₁, u₂, g₁, g₂, g₃, _, _, _, hu₁, hu₂, hu₃, rfl, rfl⟩ := hu.of_ifElse
    obtain ⟨h₁, rfl, -⟩ := local_expr hc hn.1 (h.collect _ _) ht₁ hu₁
    obtain ⟨h₂, rfl, -⟩ := iha hn.2.1 h₁ ht₂ hu₂
    obtain ⟨h₃, rfl, -⟩ := ihb hn.2.2 h₂ ht₃ hu₃
    exact ⟨h₃, rfl, rfl⟩
  | forLoop _ _ hc _ _ _ _ ihi ihu ihb =>
    intro fn fn' t u h t' u' fs gs type type' ht hu
    rw [names, List.forall_mem_append, List.forall_mem_append, List.forall_mem_append] at hn
    obtain ⟨t₁, t₂, t₃, f₁, f₂, f₃, f₄, _, _, _, _, ht₁, ht₂, ht₃, ht₄, rfl, rfl⟩ := ht.of_forLoop
    obtain ⟨u₁, u₂, u₃, g₁, g₂, g₃, g₄, _, _, _, _, hu₁, hu₂, hu₃, hu₄, rfl, rfl⟩ := hu.of_forLoop
    obtain ⟨h₁, rfl, -⟩ := ihi hn.1 (h.collect _ _) ht₁ hu₁
    obtain ⟨h₂, rfl, -⟩ := local_expr hc hn.2.1 h₁ ht₂ hu₂
    obtain ⟨h₃, rfl, -⟩ := ihu hn.2.2.1 h₂ ht₃ hu₃
    obtain ⟨h₄, rfl, -⟩ := ihb hn.2.2.2 h₃ ht₄ hu₄
    exact ⟨h₄, rfl, rfl⟩
  | whileLoop hc _ _ ihb =>
    intro fn fn' t u h t' u' fs gs type type' ht hu
    rw [names, List.forall_mem_append] at hn
    obtain ⟨t₁, f₁, f₂, _, _, ht₁, ht₂, rfl, rfl⟩ := ht.of_whileLoop
    obtain ⟨u₁, g₁, g₂, _, _, hu₁, hu₂, rfl, rfl⟩ := hu.of_whileLoop
    obtain ⟨h₁, rfl, -⟩ := local_expr hc hn.1 (h.collect _ _) ht₁ hu₁
    obtain ⟨h₂, rfl, -⟩ := ihb hn.2 h₁ ht₂ hu₂
    exact ⟨h₂, rfl, rfl⟩
  | ret hv => exact local_ret hv (local_expr hv hn)
  | exprStmt he =>
    intro fn fn' t u h t' u' fs gs type type' ht hu
    obtain ⟨_, ht₁, rfl⟩ := ht.of_exprStmt
    obtain ⟨_, hu₁, rfl⟩ := hu.of_exprStmt
    obtain ⟨h₁, rfl, -⟩ := local_expr he hn h ht₁ hu₁
    exact ⟨h₁, rfl, rfl⟩
  | callStmt he =>
    intro fn fn' t u h t' u' fs gs type type' ht hu
    obtain ⟨_, ht₁, rfl⟩ := ht.of_callStmt
    obtain ⟨_, hu₁, rfl⟩ := hu.of_callStmt
    obtain ⟨h₁, rfl, -⟩ := local_expr he hn h ht₁ hu₁
    exact ⟨h₁, rfl, rfl⟩
  | block _ ih =>
    intro fn fn' t u h t' u' fs gs type type' ht hu
    rw [names, forall_namesAll] at hn
    obtain ⟨t₁, _, ht₁, hxt, rfl⟩ := ht.of_block
    obtain ⟨u₁, _, hu₁, hxu, rfl⟩ := hu.of_block
    obtain ⟨h₁, rfl, -⟩ := local_each (fun s hm => ih s hm (hn s hm)) h.enter ht₁ hu₁
    exact ⟨h₁.exit hxt hxu, rfl, rfl⟩

private theorem local_body {body : Node} (hs : body.IsStmt) (hb : body.isBody)
    (hn : ∀ x ∈ body.names, N x) (h : Agree N fn t fn' u)
    (ht : (visitBody fn body).Returns t t' fs ()) (hu : (visitBody fn' body).Returns u u' gs ()) :
    Agree N fn t' fn' u' ∧ fs = gs := by
  obtain ⟨_, ht⟩ := ht.of_visitBody hb
  obtain ⟨_, hu⟩ := hu.of_visitBody hb
  have hn' : ∀ s ∈ body.statements, ∀ x ∈ s.names, N x := by
    cases body with
    | block line statements =>
      rw [names, forall_namesAll] at hn
      exact hn
    | _ => simp [Node.statements]
  obtain ⟨h, rfl, -⟩ := local_each
    (fun s hm => local_stmt (hs.statements s hm) (hn' s hm)) h ht hu
  exact ⟨h, rfl⟩

/-- Declarations of a function get the same record where their bodies are visited from tables that
agree. -/
theorem local_funcDecl {line : Int} {name : String} {returnText : Option String}
    {params : List Param} {body : Node} {type type' : Ty} (hs : body.IsStmt) (hb : body.isBody)
    (hn : ∀ x ∈ body.names, N x) (hct : t.registry.contains name = false)
    (hcu : u.registry.contains name = false)
    (hc : t.current.contains name = u.current.contains name)
    (h : Agree N (some t.nextId)
      (t.openFunction (Check.head line name returnText) (params.map Param.variable))
      (some u.nextId)
      (u.openFunction (Check.head line name returnText) (params.map Param.variable)))
    (ht : (visit fn (.funcDecl line name returnText params body)).Returns t t' fs type)
    (hu : (visit fn' (.funcDecl line name returnText params body)).Returns u u' gs type') :
    ∃ b, t' = t.declare (functionRecord line name returnText params body b) ∧
      u' = u.declare (functionRecord line name returnText params body b) ∧ fs = gs ∧
      type = type' := by
  obtain ⟨f₁, b, ht₁, rfl, rfl, rfl⟩ := ht.of_funcDecl hs hb hct
  obtain ⟨g₁, b', hu₁, rfl, rfl, rfl⟩ := hu.of_funcDecl hs hb hcu
  obtain ⟨h₁, rfl⟩ := local_body hs hb hn h ht₁ hu₁
  have hbb : b = b' := by
    have ha := h₁.around
    simp only [Table.around, Option.bind_some, Table.record?_openFunction, Option.map_some,
      Option.some.injEq] at ha
    simpa [Function.collect, Check.head, Function.declared] using (Function.eq_of_gist ha).2.2.2
  subst hbb
  have hh : Check.hidden t (Check.head line name returnText) =
      Check.hidden u (Check.head line name returnText) := by
    have hc' : t.current.contains (Check.head line name returnText).name =
        u.current.contains (Check.head line name returnText).name := hc
    rw [Check.hidden, hc', Check.hidden]
  have hp :
      Check.repeated t.nextId name (t.declare (Check.head line name returnText)).enter params =
      Check.repeated u.nextId name (u.declare (Check.head line name returnText)).enter params := by
    apply Check.repeated_congr
    rfl
  exact ⟨b, rfl, rfl, by rw [hh, hp], rfl⟩

end MiniCheck
