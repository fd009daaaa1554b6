import MiniCheck.Proofs.Positions
import MiniCheck.Proofs.Stages
import Mathlib.Data.List.Nodup

/-!
# The trail of a visit

The visits that a visit makes are listed in their order, each with its position and the table in
which it begins. What the pass finds before the parts of a node is found along the trail, visit by
visit, and what is noted about recursion is noted there too. Positions that the trail leaves out lie
under a node whose parts are not visited.
-/

namespace MiniCheck

open Pass Node

/-- The lists of the parts as one of their parent; `under i` tells of an entry that it comes from
part `i`. -/
def joinUnder {α : Type} (under : Nat → α → α) (ls : List (List α)) : List α :=
  ls.zipIdx.flatMap fun part => part.1.map (under part.2)

section

variable {α β : Type} {under : Nat → α → α} {ls : List (List α)}

theorem mem_joinUnder_iff {a : α} :
    a ∈ joinUnder under ls ↔ ∃ i part b, ls[i]? = some part ∧ b ∈ part ∧ a = under i b := by
  simp only [joinUnder, List.mem_flatMap, List.mem_map, Prod.exists, List.mem_zipIdx_iff_getElem?]
  constructor
  · rintro ⟨part, i, hi, b, hb, rfl⟩
    exact ⟨i, part, b, hi, hb, rfl⟩
  · rintro ⟨i, part, b, hi, hb, rfl⟩
    exact ⟨part, i, hi, b, hb, rfl⟩

private theorem map_joinUnder {f : α → β} (h : ∀ i a, f (under i a) = f a) (ls : List (List α)) :
    (joinUnder under ls).map f = ls.flatMap (·.map f) := by
  have hpart : ∀ part : List α × Nat, (part.1.map (under part.2)).map f = part.1.map f := by
    intro part
    rw [List.map_map]
    exact List.map_congr_left fun a _ => h part.2 a
  have hfst : ls.zipIdx.map Prod.fst = ls := List.zipIdx_map_fst 0 ls
  rw [joinUnder, List.map_flatMap]
  simp only [hpart]
  rw [← List.flatMap_map Prod.fst (fun part : List α => part.map f), hfst]

theorem filterMap_joinUnder {under' : Nat → β → β} {f : α → Option β}
    (h : ∀ i a, f (under i a) = (f a).map (under' i)) (ls : List (List α)) :
    (joinUnder under ls).filterMap f = joinUnder under' (ls.map (·.filterMap f)) := by
  rw [joinUnder, joinUnder, List.filterMap_flatMap, List.zipIdx_map, List.flatMap_map]
  apply List.flatMap_congr
  rintro ⟨part, i⟩ -
  rw [List.filterMap_map, Prod.map_apply, List.map_filterMap]
  exact List.filterMap_congr fun a _ => h i a

end

/-- A visit at a position under the node of another visit. -/
structure Arrival where
  path : List Nat
  visit : Visit

namespace Arrival

def under (i : Nat) (a : Arrival) : Arrival := { a with path := i :: a.path }

/-- The trails of the parts as one of their parent. -/
def join (ls : List (List Arrival)) : List Arrival := joinUnder under ls

theorem mem_join_iff {ls : List (List Arrival)} {a : Arrival} :
    a ∈ join ls ↔ ∃ i part, ∃ b : Arrival, ls[i]? = some part ∧ b ∈ part ∧ a = b.under i :=
  mem_joinUnder_iff

private theorem map_visit_join (ls : List (List Arrival)) :
    (join ls).map visit = ls.flatMap (·.map visit) := by
  have hunder : ∀ i a, visit (under i a) = visit a := fun _ _ => rfl
  exact map_joinUnder hunder ls

private theorem nodup_join {ls : List (List Arrival)} (h : ∀ part ∈ ls, (part.map path).Nodup) :
    ((join ls).map path).Nodup := by
  have hpaths : (join ls).map path =
      ls.zipIdx.flatMap fun part => (part.1.map path).map (part.2 :: ·) := by
    rw [join, joinUnder, List.map_flatMap]
    congr 1
    funext part
    rw [List.map_map, List.map_map]
    rfl
  have hnumbers : (ls.zipIdx.map Prod.snd).Nodup := by
    rw [List.zipIdx_map_snd]
    exact List.nodup_range'
  rw [hpaths, List.nodup_flatMap]
  refine ⟨?_, ?_⟩
  · rintro ⟨part, i⟩ hpart
    have hmem : part ∈ ls := List.mem_of_getElem? (List.mem_zipIdx_iff_getElem?.mp hpart)
    exact (h part hmem).map fun a b hab => (List.cons.inj hab).2
  · refine (List.pairwise_map.mp hnumbers).imp ?_
    intro x y hne p hx hy
    obtain ⟨q, -, rfl⟩ := List.mem_map.mp hx
    obtain ⟨r, -, hr⟩ := List.mem_map.mp hy
    exact hne (List.cons.inj hr).1.symm

end Arrival

open Arrival

/-- The trail of a visit whose parts have the trails `ls`. -/
def Visit.trailOver (v : Visit) (ls : List (List Arrival)) : List Arrival := ⟨[], v⟩ :: join ls

mutual

/-- The trails of the parts that a visit from the table `t` visits. -/
def Node.trails (fn : Option FunctionId) : Node → Table → List (List Arrival)
  | .program _ decls, t => trailEach none decls t
  | .block _ statements, t => trailEach fn statements t.enter
  | .funcDecl line name returnText params body, t =>
      if t.registry.contains name then []
      else trailBody (some t.nextId) body
        (t.openFunction (Check.head line name returnText) (params.map Param.variable))
  | .assign _ name _ value, t =>
      match t.resolve name with
      | some (.variable _) => [Visit.trailOver ⟨fn, value, t⟩ (value.trails fn t)]
      | _ => []
  | .ifElse line cond a b, t =>
      let t₀ := t.note fn (·.addControl ⟨.ifElse, line⟩)
      let t₁ := ((visit fn cond).run t₀).table
      let t₂ := ((visit fn a).run t₁).table
      [Visit.trailOver ⟨fn, cond, t₀⟩ (cond.trails fn t₀),
        Visit.trailOver ⟨fn, a, t₁⟩ (a.trails fn t₁), Visit.trailOver ⟨fn, b, t₂⟩ (b.trails fn t₂)]
  | .forLoop line init cond update body, t =>
      let t₀ := t.note fn (·.addControl ⟨.forLoop, line⟩)
      let t₁ := ((visit fn init).run t₀).table
      let t₂ := ((visit fn cond).run t₁).table
      let t₃ := ((visit fn update).run t₂).table
      [Visit.trailOver ⟨fn, init, t₀⟩ (init.trails fn t₀),
        Visit.trailOver ⟨fn, cond, t₁⟩ (cond.trails fn t₁),
        Visit.trailOver ⟨fn, update, t₂⟩ (update.trails fn t₂),
        Visit.trailOver ⟨fn, body, t₃⟩ (body.trails fn t₃)]
  | .whileLoop line cond body, t =>
      let t₀ := t.note fn (·.addControl ⟨.whileLoop, line⟩)
      let t₁ := ((visit fn cond).run t₀).table
      [Visit.trailOver ⟨fn, cond, t₀⟩ (cond.trails fn t₀),
        Visit.trailOver ⟨fn, body, t₁⟩ (body.trails fn t₁)]
  | .ret _ value, t =>
      let t₀ := t.note fn (·.markReturn)
      if (t.around fn).isSome then [Visit.trailOver ⟨fn, value, t₀⟩ (value.trails fn t₀)] else []
  | .varDecl _ _ _ _ e _, t | .exprStmt _ e, t | .callStmt _ e, t | .paren _ e, t
  | .negation _ e, t => [Visit.trailOver ⟨fn, e, t⟩ (e.trails fn t)]
  | .call _ name args, t =>
      trailEach fn args (if (t.registered? name).isSome then Check.calling t fn name else t)
  | .binary _ _ left right, t =>
      let t₁ := ((visit fn left).run t).table
      [Visit.trailOver ⟨fn, left, t⟩ (left.trails fn t),
        Visit.trailOver ⟨fn, right, t₁⟩ (right.trails fn t₁)]
  | .missing, _ | .literal .., _ | .identifier .., _ | .param _, _ | .unclassified _, _ => []

def trailEach (fn : Option FunctionId) : List Node → Table → List (List Arrival)
  | [], _ => []
  | n :: ns, t =>
      Visit.trailOver ⟨fn, n, t⟩ (n.trails fn t) :: trailEach fn ns ((visit fn n).run t).table

def trailBody (fn : Option FunctionId) : Node → Table → List (List Arrival)
  | .block _ statements, t => trailEach fn statements t
  | _, _ => []

end

namespace Visit

/-- The visits that a visit makes, itself first, with their positions. -/
def trail (v : Visit) : List Arrival := v.trailOver (v.node.trails v.fn v.table)

/-- The visits that a visit makes, itself first. -/
def visits (v : Visit) : List Visit := v.trail.map Arrival.visit

private theorem trails_eq (v : Visit) :
    v.node.trails v.fn v.table = trailEach v.inner v.parts v.opened := by
  obtain ⟨fn, node, t⟩ := v
  cases node with
  | funcDecl line name returnText params body =>
    have hbody : ∀ id u, trailBody id body u = trailEach id body.statements u := by
      intro id u
      cases body <;> rfl
    cases hc : t.registry.contains name with
    | true => simp [Node.trails, parts, hc, trailEach]
    | false => simp [Node.trails, parts, inner, opened, hc, hbody]
  | assign line name op value =>
    cases hr : t.resolve name with
    | none => simp [Node.trails, parts, hr, trailEach]
    | some s => cases s <;> simp [Node.trails, parts, opened, inner, hr, trailEach]
  | ret line value =>
    cases hf : t.around fn with
    | none => simp [Node.trails, parts, hf, trailEach]
    | some f => simp [Node.trails, parts, opened, inner, hf, trailEach]
  | _ => rfl

theorem trail_eq (v : Visit) :
    v.trail = ⟨[], v⟩ :: join (trailEach v.inner v.parts v.opened) := by
  rw [trail, trailOver, trails_eq]

theorem visits_eq (v : Visit) :
    v.visits = v :: (trailEach v.inner v.parts v.opened).flatMap (·.map Arrival.visit) := by
  rw [visits, trail_eq, List.map_cons, map_visit_join]

end Visit

theorem trailEach_cons (fn : Option FunctionId) (n : Node) (ns : List Node) (t : Table) :
    trailEach fn (n :: ns) t =
      Visit.trail ⟨fn, n, t⟩ :: trailEach fn ns ((visit fn n).run t).table := rfl

theorem trailEach_eq (fn : Option FunctionId) (ns : List Node) (t : Table) :
    trailEach fn ns t = (Visit.row fn ns t).map Visit.trail := by
  induction ns generalizing t with
  | nil => rfl
  | cons n ns ih => rw [trailEach_cons, ih, Visit.row, List.map_cons]

private theorem getElem?_trailEach (fn : Option FunctionId) (ns : List Node) (t : Table) (i : Nat) :
    (trailEach fn ns t)[i]? =
      ns[i]?.map fun n => Visit.trail ⟨fn, n, tableAfter fn (ns.take i) t⟩ := by
  rw [trailEach_eq, List.getElem?_map, Visit.getElem?_row, Option.map_map]
  rfl

namespace Visit

theorem mem_trail_iff {v : Visit} {a : Arrival} :
    a ∈ v.trail ↔ a = ⟨[], v⟩ ∨ ∃ i n b, v.parts[i]? = some n ∧
      b ∈ Visit.trail ⟨v.inner, n, tableAfter v.inner (v.parts.take i) v.opened⟩ ∧
      a = b.under i := by
  rw [trail_eq, List.mem_cons, mem_join_iff]
  simp only [getElem?_trailEach, Option.map_eq_some_iff]
  constructor
  · rintro (rfl | ⟨i, part, b, ⟨n, hn, rfl⟩, hb, rfl⟩)
    · exact .inl rfl
    · exact .inr ⟨i, n, b, hn, hb, rfl⟩
  · rintro (rfl | ⟨i, n, b, hn, hb, rfl⟩)
    · exact .inl rfl
    · exact .inr ⟨i, _, b, ⟨n, hn, rfl⟩, hb, rfl⟩

/-- A visit visits all children of its node, or none of them. -/
theorem parts_eq (v : Visit) : v.parts = v.node.children ∨ v.parts = [] := by
  obtain ⟨fn, node, t⟩ := v
  cases node with
  | funcDecl line name returnText params body =>
    cases hc : t.registry.contains name with
    | true => exact .inr (by simp [parts, hc])
    | false => exact .inl (by simp [parts, hc, children])
  | assign line name op value =>
    cases hr : t.resolve name with
    | none => exact .inr (by simp [parts, hr])
    | some s =>
      cases s with
      | function id => exact .inr (by simp [parts, hr])
      | «variable» x => exact .inl (by simp [parts, hr, children])
  | ret line value =>
    cases hf : t.around fn with
    | none => exact .inr (by simp [parts, hf])
    | some f => exact .inl (by simp [parts, hf, children])
  | _ => exact .inl rfl

theorem children_of_parts {v : Visit} {i : Nat} {n : Node} (h : v.parts[i]? = some n) :
    v.node.children[i]? = some n := by
  rcases v.parts_eq with hp | hp
  · rwa [← hp]
  · rw [hp] at h
    cases h

theorem mem_children_of_parts {v : Visit} {n : Node} (h : n ∈ v.parts) : n ∈ v.node.children := by
  obtain ⟨i, hi⟩ := List.mem_iff_getElem?.mp h
  exact List.mem_of_getElem? (children_of_parts hi)

theorem node?_of_mem_trail {v : Visit} {a : Arrival} (h : a ∈ v.trail) :
    v.node.node? a.path = some a.visit.node := by
  obtain ⟨path, w⟩ := a
  induction path generalizing v with
  | nil =>
    rcases mem_trail_iff.mp h with ha | ⟨i, n, b, -, -, ha⟩
    · cases ha
      rfl
    · cases ha
  | cons i path ih =>
    rcases mem_trail_iff.mp h with ha | ⟨j, n, b, hn, hb, ha⟩
    · cases ha
    · cases ha
      rw [node?, children_of_parts hn]
      exact ih hb

/-- No position is visited twice. -/
theorem eq_of_path_eq {v : Visit} {a b : Arrival} (ha : a ∈ v.trail) (hb : b ∈ v.trail)
    (h : a.path = b.path) : a = b := by
  obtain ⟨path, w⟩ := a
  obtain ⟨path', w'⟩ := b
  obtain rfl : path = path' := h
  induction path generalizing v with
  | nil =>
    rcases mem_trail_iff.mp ha with ha | ⟨_, _, _, -, -, ha⟩
    · rcases mem_trail_iff.mp hb with hb | ⟨_, _, _, -, -, hb⟩
      · rw [ha, hb]
      · cases hb
    · cases ha
  | cons i path ih =>
    rcases mem_trail_iff.mp ha with ha | ⟨j, n, ⟨p, x⟩, hn, ha', ha⟩
    · cases ha
    rcases mem_trail_iff.mp hb with hb | ⟨k, m, ⟨q, y⟩, hm, hb', hb⟩
    · cases hb
    cases ha
    cases hb
    rw [hn, Option.some.injEq] at hm
    subst hm
    have he := ih ha' hb'
    injection he with _ he
    rw [he]

/-- A position is visited, or it is under a node whose parts are not. -/
theorem trail_covers {v : Visit} {path : List Nat} {m : Node} (h : v.node.node? path = some m) :
    ∃ a ∈ v.trail, a.path = path ∨ ∃ i rest, path = a.path ++ i :: rest ∧ a.visit.parts = [] := by
  induction path generalizing v with
  | nil => exact ⟨⟨[], v⟩, mem_trail_iff.mpr (.inl rfl), .inl rfl⟩
  | cons i path ih =>
    rw [node?] at h
    obtain ⟨c, hc, h⟩ := Option.bind_eq_some_iff.mp h
    rcases v.parts_eq with hp | hp
    · rw [← hp] at hc
      obtain ⟨a, ha, hcov⟩ := ih (v := ⟨v.inner, c, tableAfter v.inner (v.parts.take i) v.opened⟩) h
      refine ⟨a.under i, mem_trail_iff.mpr (.inr ⟨i, c, a, hc, ha, rfl⟩), ?_⟩
      rcases hcov with rfl | ⟨j, rest, rfl, hnone⟩
      · exact .inl rfl
      · exact .inr ⟨j, rest, rfl, hnone⟩
    · exact ⟨⟨[], v⟩, mem_trail_iff.mpr (.inl rfl), .inr ⟨i, path, rfl, hp⟩⟩

end Visit

/-- What holds of a statement if it holds of its children holds of every statement. -/
theorem Node.IsStmt.children_induction {M : Node → Prop}
    (step : ∀ n : Node, n.IsStmt → (∀ c ∈ n.children, c.IsStmt ∧ M c) → M n) {s : Node}
    (hs : s.IsStmt) : M s := by
  have hexpr : ∀ {e : Node}, e.IsExpr → M e := by
    intro e he
    induction he with
    | missing => exact step _ (.expr .missing) (List.forall_mem_nil _)
    | literal => exact step _ (.expr .literal) (List.forall_mem_nil _)
    | identifier => exact step _ (.expr .identifier) (List.forall_mem_nil _)
    | paren hi ih => exact step _ (.expr (.paren hi)) (by simpa [children] using ⟨.expr hi, ih⟩)
    | negation hi ih =>
      exact step _ (.expr (.negation hi)) (by simpa [children] using ⟨.expr hi, ih⟩)
    | binary hl hr ihl ihr =>
      exact step _ (.expr (.binary hl hr))
        (by simpa [children] using ⟨⟨.expr hl, ihl⟩, .expr hr, ihr⟩)
    | call ha ih => exact step _ (.expr (.call ha)) fun a hm => ⟨.expr (ha a hm), ih a hm⟩
  induction hs with
  | expr he => exact hexpr he
  | varDecl hi => exact step _ (.varDecl hi) (by simpa [children] using ⟨.expr hi, hexpr hi⟩)
  | assign hv => exact step _ (.assign hv) (by simpa [children] using ⟨.expr hv, hexpr hv⟩)
  | ifElse hc ha hab hb hbb iha ihb =>
    exact step _ (.ifElse hc ha hab hb hbb)
      (by simpa [children] using ⟨⟨.expr hc, hexpr hc⟩, ⟨ha, iha⟩, hb, ihb⟩)
  | forLoop hi hiu hc hu huu hb hbb ihi ihu ihb =>
    exact step _ (.forLoop hi hiu hc hu huu hb hbb)
      (by simpa [children] using ⟨⟨hi, ihi⟩, ⟨.expr hc, hexpr hc⟩, ⟨hu, ihu⟩, hb, ihb⟩)
  | whileLoop hc hb hbb ihb =>
    exact step _ (.whileLoop hc hb hbb)
      (by simpa [children] using ⟨⟨.expr hc, hexpr hc⟩, hb, ihb⟩)
  | ret hv => exact step _ (.ret hv) (by simpa [children] using ⟨.expr hv, hexpr hv⟩)
  | exprStmt he => exact step _ (.exprStmt he) (by simpa [children] using ⟨.expr he, hexpr he⟩)
  | callStmt he => exact step _ (.callStmt he) (by simpa [children] using ⟨.expr he, hexpr he⟩)
  | block hs ih => exact step _ (.block hs) fun s hm => ⟨hs s hm, ih s hm⟩

theorem Node.IsStmt.inner_eq {s : Node} (hs : s.IsStmt) (fn : Option FunctionId) (t : Table) :
    Visit.inner ⟨fn, s, t⟩ = fn := by
  cases hs with
  | expr he => cases he <;> rfl
  | _ => rfl

namespace Visit

private theorem nodup_trail {v : Visit}
    (h : ∀ n ∈ v.parts, ∀ t, ((trail ⟨v.inner, n, t⟩).map Arrival.path).Nodup) :
    (v.trail.map Arrival.path).Nodup := by
  have hparts : ∀ part ∈ trailEach v.inner v.parts v.opened, (part.map Arrival.path).Nodup := by
    intro part hpart
    obtain ⟨i, hi⟩ := List.mem_iff_getElem?.mp hpart
    rw [getElem?_trailEach] at hi
    obtain ⟨n, hn, rfl⟩ := Option.map_eq_some_iff.mp hi
    exact h n (List.mem_of_getElem? hn) _
  rw [trail_eq, List.map_cons, List.nodup_cons]
  refine ⟨?_, Arrival.nodup_join hparts⟩
  intro hroot
  obtain ⟨a, ha, hpath⟩ := List.mem_map.mp hroot
  obtain ⟨i, part, b, -, -, rfl⟩ := Arrival.mem_join_iff.mp ha
  exact List.cons_ne_nil _ _ hpath

end Visit

private theorem nodup_trail_stmt {s : Node} (hs : s.IsStmt) (fn : Option FunctionId) (t : Table) :
    ((Visit.trail ⟨fn, s, t⟩).map Arrival.path).Nodup := by
  refine Node.IsStmt.children_induction
    (M := fun s => ∀ fn t, ((Visit.trail ⟨fn, s, t⟩).map Arrival.path).Nodup) ?_ hs fn t
  intro s _ ih fn t
  apply Visit.nodup_trail
  intro n hn u
  exact (ih n (Visit.mem_children_of_parts hn)).2 _ u

theorem nodup_trail_program {line : Int} {decls : List Node} (hd : ∀ d ∈ decls, d.IsDecl) :
    ((Visit.trail ⟨none, .program line decls, .empty⟩).map Arrival.path).Nodup := by
  apply Visit.nodup_trail
  intro d hm t
  cases hd d hm with
  | varDecl hi => exact nodup_trail_stmt (.varDecl hi) _ t
  | funcDecl hs hb =>
    apply Visit.nodup_trail
    intro s hm u
    have hstatement := Visit.mem_children_of_parts hm
    exact nodup_trail_stmt (hs.statements s hstatement) _ u

/-- The findings that are made before the parts of a node are visited. -/
def openings (fs : List Finding) : List Finding := fs.filter (·.violation.stage.isOpening)

private theorem openings_append (fs gs : List Finding) :
    openings (fs ++ gs) = openings fs ++ openings gs := List.filter_append ..

theorem filter_filter_of_imp {p q : Finding → Bool} (h : ∀ f, p f = true → q f = true)
    (fs : List Finding) : (fs.filter q).filter p = fs.filter p := by
  rw [List.filter_filter]
  apply List.filter_congr
  intro f _
  cases hp : p f with
  | false => rfl
  | true => rw [h f hp]; rfl

private theorem openings_early (v : Visit) : openings v.early = v.early := by
  apply List.filter_eq_self.mpr
  intro f hf
  obtain ⟨site, -, hat⟩ := v.early_at f hf
  rw [hat.2]
  rfl

private theorem openings_eq_nil {fs : List Finding} {stage : Stage} (h : ∀ f ∈ fs, f.At stage)
    (hs : stage.isOpening = false) : openings fs = [] := by
  apply List.filter_eq_nil_iff.mpr
  intro f hf
  rw [(h f hf).2, hs]
  exact Bool.false_ne_true

section

variable {fn : Option FunctionId} {t u : Table} {fs : List Finding}

/-- The node is visited with the openings of the visits of its trail. -/
def Node.Opens (fn : Option FunctionId) (n : Node) : Prop :=
  ∀ {t u : Table} {fs : List Finding} {type : Ty}, (visit fn n).Returns t u fs type →
    openings fs = (Visit.visits ⟨fn, n, t⟩).flatMap Visit.early

private theorem opens_each {ns : List Node} {types : List Ty} (hn : ∀ n ∈ ns, n.Opens fn)
    (h : (visitAll fn ns).Returns t u fs types) :
    openings fs = ((trailEach fn ns t).flatMap (·.map Arrival.visit)).flatMap Visit.early := by
  induction ns generalizing t fs types with
  | nil =>
    obtain ⟨-, rfl, -⟩ := h.of_visitAll_nil
    rfl
  | cons n ns ih =>
    obtain ⟨w, f₁, got, f₂, rest, h₁, h₂, rfl, -⟩ := h.of_visitAll_cons
    have hfirst := hn n (by simp) h₁
    have hrest := ih (fun m hm => hn m (by simp [hm])) h₂
    rw [openings_append, hfirst, hrest, trailEach_cons, h₁.run_table, List.flatMap_cons,
      List.flatMap_append]
    rfl

theorem opens_stmt {s : Node} (hs : s.IsStmt) : s.Opens fn := by
  refine Node.IsStmt.children_induction (M := Node.Opens fn) ?_ hs
  intro s hs ih t u fs type h
  obtain ⟨w, gs, types, late, hparts, rfl, hlate, -⟩ := staged_stmt hs h
  have hn : ∀ n ∈ Visit.parts ⟨fn, s, t⟩, n.Opens fn :=
    fun n hm => (ih n (Visit.mem_children_of_parts hm)).2
  rw [openings_append, openings_append, openings_early,
    openings_eq_nil hlate rfl, opens_each hn hparts, Visit.visits_eq, hs.inner_eq,
    List.append_nil, List.flatMap_cons]

/-- The finding has a line, and its rule is checked inside of a program or a function. -/
def Finding.Within (f : Finding) : Prop :=
  f.line.isSome = true ∧ f.violation.stage ≠ .closing ∧ f.violation.stage ≠ .final

theorem stmt_reports_within {s : Node} (hs : s.IsStmt) :
    (visit fn s).Reports Finding.Within := by
  refine Node.IsStmt.children_induction (M := fun s => (visit fn s).Reports Finding.Within) ?_ hs
  intro s hs ih t f hf
  obtain ⟨fs, type, b, h⟩ := visit_stmt hs fn t
  obtain ⟨w, gs, types, late, hparts, rfl, hlate, -⟩ := staged_stmt hs h
  have hn := visitAll_reports fun n (hm : n ∈ Visit.parts ⟨fn, s, t⟩) =>
    (ih n (Visit.mem_children_of_parts hm)).2
  rw [h] at hf
  rcases List.mem_append.mp hf with hf | hf
  · obtain ⟨site, -, hline, hstage⟩ := Visit.early_at _ f hf
    exact ⟨hline, by rw [hstage]; exact nofun, by rw [hstage]; exact nofun⟩
  rcases List.mem_append.mp hf with hf | hf
  · exact hn.of_returns hparts f hf
  · obtain ⟨hline, hstage⟩ := hlate f hf
    exact ⟨hline, by rw [hstage]; exact nofun, by rw [hstage]; exact nofun⟩

/-- A declaration is visited with the openings of the visits of its trail. -/
theorem opens_decl {d : Node} (hd : d.IsDecl) : d.Opens none := by
  cases hd with
  | varDecl hi => exact opens_stmt (.varDecl hi)
  | @funcDecl line name returnText params body hs hb =>
    intro t u fs type h
    rw [Visit.visits_eq, List.flatMap_cons]
    cases hc : t.registry.contains name with
    | true =>
      obtain ⟨-, rfl, -⟩ := h.of_funcDecl_taken hc
      simp [Visit.early, Visit.parts, hc, trailEach, openings, Violation.stage, Stage.isOpening]
    | false =>
      obtain ⟨gs, b, hbody, -, rfl, -⟩ := h.of_funcDecl hs hb hc
      obtain ⟨types, hall⟩ := hbody.of_visitBody hb
      have hgs := opens_each (fun s hm => opens_stmt (hs.statements s hm)) hall
      have hearly := openings_early ⟨none, .funcDecl line name returnText params body, t⟩
      rw [Visit.early_funcDecl hc] at hearly ⊢
      rw [Visit.parts_funcDecl hc, Visit.opened_funcDecl hc, ← List.append_assoc, openings_append,
        hearly, openings_append, hgs, openings_eq_nil (Check.unfinished_at _ _ _ _) rfl,
        List.append_nil]
      rfl

/-- A program is visited with the openings of the visits of its trail. -/
theorem openings_program {line : Int} {decls : List Node} {types : List Ty}
    (hd : ∀ d ∈ decls, d.IsDecl) (hr : (visitAll none decls).Returns .empty u fs types) :
    openings fs = (Visit.visits ⟨none, .program line decls, .empty⟩).flatMap Visit.early := by
  rw [opens_each (fun d hm => opens_decl (hd d hm)) hr, Visit.visits_eq, List.flatMap_cons]
  rfl

/-- The function around is marked by the visits of the trail, and by no others. -/
theorem recursive?_each {ns : List Node} {types : List Ty}
    (hn : ∀ n ∈ ns, ∀ {t u : Table} {fs : List Finding} {type : Ty},
      (visit fn n).Returns t u fs type →
        u.recursive? fn = (t.recursive? fn).map (· || (Visit.visits ⟨fn, n, t⟩).any Visit.marks))
    (h : (visitAll fn ns).Returns t u fs types) :
    u.recursive? fn = (t.recursive? fn).map
      (· || ((trailEach fn ns t).flatMap (·.map Arrival.visit)).any Visit.marks) := by
  induction ns generalizing t fs types with
  | nil =>
    obtain ⟨rfl, -⟩ := h.of_visitAll_nil
    simp [trailEach]
  | cons n ns ih =>
    obtain ⟨w, f₁, got, f₂, rest, h₁, h₂, rfl, -⟩ := h.of_visitAll_cons
    have hfirst := hn n (by simp) h₁
    have hrest := ih (fun m hm => hn m (by simp [hm])) h₂
    rw [hrest, hfirst, Option.map_map, trailEach_cons, h₁.run_table, List.flatMap_cons,
      List.any_append]
    congr 1
    funext b
    exact Bool.or_assoc ..

theorem recursive?_stmt {s : Node} (hs : s.IsStmt) :
    ∀ {t u : Table} {fs : List Finding} {type : Ty}, (visit fn s).Returns t u fs type →
      u.recursive? fn = (t.recursive? fn).map (· || (Visit.visits ⟨fn, s, t⟩).any Visit.marks) := by
  refine Node.IsStmt.children_induction
    (M := fun s => ∀ {t u : Table} {fs : List Finding} {type : Ty},
      (visit fn s).Returns t u fs type →
        u.recursive? fn = (t.recursive? fn).map (· || (Visit.visits ⟨fn, s, t⟩).any Visit.marks))
    ?_ hs
  intro s hs ih t u fs type h
  obtain ⟨w, gs, types, late, hparts, -, -, hlast⟩ := staged_stmt hs h
  have hrun := recursive?_each (fun n hm => (ih n (Visit.mem_children_of_parts hm)).2) hparts
  have hopen := Visit.recursive?_opened (v := ⟨fn, s, t⟩) hs
  rw [hlast, hrun, hopen, Option.map_map, Visit.visits_eq, hs.inner_eq, List.any_cons]
  congr 1
  funext b
  exact Bool.or_assoc ..

end

/-- The same functions are registered, and the records have the same heads. -/
structure Table.SameFunctions (t u : Table) : Prop where
  registry : u.registry = t.registry
  heads : u.records.map Function.head = t.records.map Function.head

namespace Table.SameFunctions

variable {t u v : Table}

private theorem refl (t : Table) : t.SameFunctions t := ⟨rfl, rfl⟩

theorem trans (h : t.SameFunctions u) (h' : u.SameFunctions v) : t.SameFunctions v :=
  ⟨h'.registry.trans h.registry, h'.heads.trans h.heads⟩

private theorem collect (t : Table) (fn : Option FunctionId) (n : Notes) (b : Bool) :
    t.SameFunctions (t.collect fn n b) := by
  refine ⟨registry_collect t fn n b, ?_⟩
  apply List.ext_getElem?
  intro i
  rw [List.getElem?_map, List.getElem?_map]
  have hr : (t.collect fn n b).records[i]? = _ := record?_collect t fn n b i
  rw [hr, Option.map_map]
  change Option.map _ (t.records[i]?) = Option.map _ (t.records[i]?)
  congr 1
  funext f
  by_cases hi : fn = some i
  · simp [hi, Function.head, Function.collect]
  · simp [hi]

theorem declaring (t : Table) (s : Node) : t.SameFunctions (t.declaring s) := by
  refine ⟨registry_declaring t s, ?_⟩
  cases hv : s.declared? with
  | none => simp only [Table.declaring, hv]
  | some v => simp only [Table.declaring, hv, defineVariable_eq]

private theorem opened {v : Visit} (hs : v.node.IsStmt) : v.table.SameFunctions v.opened := by
  rcases v.opened_stmt hs with ⟨ho, -⟩ | ⟨n, ho⟩
  · rw [ho]
    exact ⟨rfl, rfl⟩
  · rw [ho]
    exact collect ..

theorem tableAfter {ns : List Node} (hn : ∀ n ∈ ns, n.IsStmt) (fn : Option FunctionId) (t : Table) :
    t.SameFunctions (tableAfter fn ns t) := by
  induction ns generalizing t with
  | nil => exact refl t
  | cons n ns ih =>
    obtain ⟨fs, type, b, h⟩ := visit_stmt (hn n (by simp)) fn t
    have hfirst : t.SameFunctions ((visit fn n).run t).table := by
      rw [h.run_table]
      exact (declaring t n).trans (collect ..)
    exact hfirst.trans (ih (fun m hm => hn m (by simp [hm])) _)

theorem isSome_registered? (h : t.SameFunctions u) (name : String) :
    (u.registered? name).isSome = (t.registered? name).isSome := by
  have hrec : ∀ id, (u.record? id).isSome = (t.record? id).isSome := by
    intro id
    have hid := congrArg (fun l => l[id]?.isSome) h.heads
    simpa [record?] using hid
  rw [registered?_eq, registered?_eq, h.registry]
  cases t.registry.find? name with
  | none => rfl
  | some id => simpa using hrec id

theorem around_head (h : t.SameFunctions u) (fn : Option FunctionId) :
    (u.around fn).map Function.head = (t.around fn).map Function.head := by
  cases fn with
  | none => rfl
  | some id =>
    have hid := congrArg (fun l => l[id]?) h.heads
    simpa [around, record?] using hid

theorem around_name (h : t.SameFunctions u) (fn : Option FunctionId) :
    (u.around fn).map Function.name = (t.around fn).map Function.name := by
  have hname := congrArg (Option.map Function.name) (h.around_head fn)
  rwa [Option.map_map, Option.map_map] at hname

end Table.SameFunctions

theorem Table.around_openFunction (t : Table) (line : Int) (name : String)
    (returnText : Option String) (params : List Variable) :
    (t.openFunction (Check.head line name returnText) params).around (some t.nextId) =
      some (.declared name (Ty.ofReturnText returnText) line params) := by
  have hrec := t.record?_openFunction (Check.head line name returnText) params [] .none false
  rw [List.foldl_nil, collect_none, Function.collect_none] at hrec
  exact hrec

theorem trail_stmt {fn : Option FunctionId} {s : Node} (hs : s.IsStmt) :
    ∀ t, ∀ a ∈ Visit.trail ⟨fn, s, t⟩, a.visit.fn = fn ∧ t.SameFunctions a.visit.table := by
  refine Node.IsStmt.children_induction (M := fun s =>
    ∀ t, ∀ a ∈ Visit.trail ⟨fn, s, t⟩, a.visit.fn = fn ∧ t.SameFunctions a.visit.table) ?_ hs
  intro s hs ih t a ha
  rcases Visit.mem_trail_iff.mp ha with rfl | ⟨i, n, b, hn, hb, rfl⟩
  · exact ⟨rfl, .refl t⟩
  · have hpart : ∀ m ∈ Visit.parts ⟨fn, s, t⟩, m ∈ s.children :=
      fun m hm => Visit.mem_children_of_parts hm
    rw [hs.inner_eq] at hb
    obtain ⟨hfn, hsame⟩ := (ih n (hpart n (List.mem_of_getElem? hn))).2 _ b hb
    have hbefore : ∀ m ∈ (Visit.parts ⟨fn, s, t⟩).take i, m.IsStmt :=
      fun m hm => (ih m (hpart m (List.mem_of_mem_take hm))).1
    have hopen := Table.SameFunctions.opened (v := ⟨fn, s, t⟩) hs
    exact ⟨hfn, (hopen.trans (.tableAfter hbefore fn _)).trans hsame⟩

end MiniCheck
