import MiniCheck.Proofs.Trail
import Mathlib.Data.List.Forall2

/-!
# Scopes along the trail

Wherever the trail of a pass comes to a statement, the scopes of the table reflect those around the
position in the text, scope by scope, and the function around is the one whose declaration the
position lies in. This holds in programs with errors too.
-/

namespace MiniCheck

open Pass Node

/-- A symbol stands for a declaration of the text; the records tell which function it is. -/
inductive Denotes (records : List Function) : Symbol → Declaration → Prop
  | variable (v : Variable) : Denotes records (.variable v) (.variable v)
  | function {id : FunctionId} {f : Function} :
      records[id]? = some f → Denotes records (.function id) (.function f.head)

/-- The records of `rs` keep their heads in `ss`. -/
def KeepsHeads (rs ss : List Function) : Prop :=
  ∀ (id : FunctionId) f, rs[id]? = some f → ∃ g : Function, ss[id]? = some g ∧ g.head = f.head

private theorem Denotes.keep {rs ss : List Function} (hk : KeepsHeads rs ss) {s : Symbol}
    {d : Declaration} (h : Denotes rs s d) : Denotes ss s d := by
  cases h with
  | «variable» v => exact .variable v
  | function hf =>
    obtain ⟨g, hg, he⟩ := hk _ _ hf
    rw [← he]
    exact .function hg

private theorem rel_or {α β : Type} {r : α → β → Prop} {a c : Option α} {b d : Option β}
    (h₁ : Option.Rel r a b) (h₂ : Option.Rel r c d) : Option.Rel r (a.or c) (b.or d) := by
  cases h₁ with
  | none => simpa using h₂
  | some h => exact .some h

private theorem rel_mono {α β : Type} {r q : α → β → Prop} {a : Option α} {b : Option β}
    (hrq : ∀ a b, r a b → q a b) (h : Option.Rel r a b) : Option.Rel q a b := by
  cases h with
  | none => exact .none
  | some h => exact .some (hrq _ _ h)

/-- A scope binds every name to the first declaration of the frame. -/
def Frame.Reflected (records : List Function) (s : Scope) (frame : Frame) : Prop :=
  ∀ name, Option.Rel (Denotes records) (s.find? name) (frame.find? (·.name == name))

/-- The stack of scopes reflects the scopes of the text. -/
def Env.Reflected (t : Table) (E : Env) : Prop :=
  List.Forall₂ (Frame.Reflected t.records) t.scopes E

namespace Frame.Reflected

variable {rs : List Function} {s : Scope} {frame : Frame}

private theorem keep {ss : List Function} (hk : KeepsHeads rs ss) (h : frame.Reflected rs s) :
    frame.Reflected ss s :=
  fun name => rel_mono (fun _ _ hd => hd.keep hk) (h name)

private theorem bind (h : frame.Reflected rs s) (v : Variable) :
    Frame.Reflected rs (Scope.bind s v) (frame ++ [.variable v]) := by
  intro name
  rw [Scope.find?_bind, List.find?_append]
  refine rel_or (h name) ?_
  by_cases hx : name = v.name
  · simpa [hx, Declaration.name] using Denotes.variable v
  · have hb : (v.name == name) = false := beq_false_of_ne (Ne.symm hx)
    simp [hx, Declaration.name, hb]

private theorem bind_all (vs : List Variable) (h : frame.Reflected rs s) :
    Frame.Reflected rs (vs.foldl Scope.bind s) (frame ++ vs.map .variable) := by
  induction vs generalizing s frame with
  | nil => simpa using h
  | cons v vs ih => simpa using ih (h.bind v)

end Frame.Reflected

namespace Env.Reflected

variable {E : Env} {t : Table}

theorem resolve (h : E.Reflected t) (name : String) :
    Option.Rel (Denotes t.records) (t.resolve name) (E.find? name) := by
  rw [Table.resolve, Env.find?]
  unfold Env.Reflected at h
  generalize t.scopes = ss at h
  induction h with
  | nil => exact .none
  | cons hs _ ih =>
    have hs := hs name
    rw [List.findSome?_cons, List.findSome?_cons]
    revert hs
    generalize NameMap.find? _ name = a
    generalize List.find? _ _ = b
    rintro (hd | _)
    · exact .some hd
    · exact ih

private theorem keep {u : Table} (h : E.Reflected t) (hs : u.scopes = t.scopes)
    (hk : KeepsHeads t.records u.records) :
    E.Reflected u := by
  rw [Env.Reflected, hs]
  exact List.Forall₂.imp (fun _ _ hf => Frame.Reflected.keep hk hf) h

private theorem collect (h : E.Reflected t) (fn : Option FunctionId) (n : Notes) (b : Bool) :
    E.Reflected (t.collect fn n b) := by
  refine h.keep (Table.scopes_collect t fn n b) fun id f hf => ?_
  have hr : (t.collect fn n b).records[id]? = _ := Table.record?_collect t fn n b id
  rw [hr, show t.record? id = some f from hf]
  by_cases hid : fn = some id
  · exact ⟨f.collect n b, by simp [hid], rfl⟩
  · exact ⟨f, by simp [hid], rfl⟩

private theorem enter (h : E.Reflected t) : Env.Reflected t.enter ([] :: E) :=
  .cons (fun _ => .none) h

private theorem declaring {frame : Frame} {s : Node} (h : Env.Reflected t (frame :: E))
    (hs : s.function? = none) :
    Env.Reflected (t.declaring s) ((frame ++ s.declaration?.toList) :: E) := by
  cases hv : s.declared? with
  | none => simpa [Table.declaring, Node.declaration?, hv, hs] using h
  | some v =>
    simp only [Table.declaring, Node.declaration?, hv, Table.defineVariable_eq]
    cases h with
    | cons hf hE => exact .cons (hf.bind v) hE

private theorem declare {frame : Frame} (h : Env.Reflected t (frame :: E)) (f : Function) :
    Env.Reflected (t.declare f) ((frame ++ [.function f.head]) :: E) := by
  have hk : KeepsHeads t.records (t.declare f).records := by
    intro id g hg
    rw [Table.records_declare]
    have hlt := (List.getElem?_eq_some_iff.mp hg).1
    exact ⟨g, by rw [List.getElem?_append_left hlt, hg], rfl⟩
  cases h with
  | cons hf hE =>
    refine .cons (fun name => ?_) ?_
    · rw [Table.find?_declare, List.find?_append]
      refine rel_or (hf.keep hk name) ?_
      by_cases hx : name = f.name
      · have hd : (t.declare f).records[t.nextId]? = some f := by
          simp [Table.records_declare, Table.nextId]
        simpa [hx, Declaration.name, Function.head, Function.declared] using Denotes.function hd
      · have hb : (f.name == name) = false := beq_false_of_ne (Ne.symm hx)
        simp [hx, Declaration.name, Function.head, Function.declared, hb]
    · rw [Table.enclosing_declare]
      exact hE.imp fun _ _ hf => hf.keep hk

private theorem taken {frame : Frame} {d : Declaration} (h : Env.Reflected t (frame :: E))
    (hd : t.current.contains d.name = true) : Env.Reflected t ((frame ++ [d]) :: E) := by
  cases h with
  | cons hf hE =>
    refine .cons (fun name => ?_) hE
    rw [List.find?_append]
    by_cases hx : name = d.name
    · obtain ⟨s, hs⟩ := Option.isSome_iff_exists.mp hd
      have hr := hf name
      rw [hx, hs] at hr ⊢
      generalize List.find? _ frame = b at hr ⊢
      cases hr with
      | some hd => exact .some hd
    · have hb : (d.name == name) = false := beq_false_of_ne (Ne.symm hx)
      simpa [hb] using hf name

private theorem openFunction {frame : Frame} (h : Env.Reflected t (frame :: E)) (line : Int)
    (name : String) (returnText : Option String) (params : List Param) :
    Env.Reflected
      (t.openFunction (Check.head line name returnText) (params.map Param.variable))
      (params.map Param.declaration :: (frame ++ [.function (.declared name
        (Ty.ofReturnText returnText) line (params.map Param.variable))]) :: E) := by
  rw [Table.openFunction_eq_enter]
  refine .cons ?_ (h.declare (.declared name (Ty.ofReturnText returnText) line
    (params.map Param.variable)))
  have hp : params.map Param.declaration =
      [] ++ (params.map Param.variable).map Declaration.variable := by
    simp [Function.comp_def, Param.declaration]
  rw [hp]
  exact Frame.Reflected.bind_all _ fun _ => .none

end Env.Reflected

theorem mem_trail_program {line : Int} {decls : List Node} {t : Table} {a : Arrival} :
    a ∈ Visit.trail ⟨none, .program line decls, t⟩ ↔
      a = ⟨[], ⟨none, .program line decls, t⟩⟩ ∨ ∃ i d b, decls[i]? = some d ∧
        b ∈ Visit.trail ⟨none, d, tableAfter none (decls.take i) t⟩ ∧ a = b.under i :=
  Visit.mem_trail_iff

/-- The statements of a function are visited if its name is new. -/
theorem mem_trail_funcDecl {fn : Option FunctionId} {line : Int} {name : String}
    {returnText : Option String} {params : List Param} {body : Node} {t : Table} {a : Arrival} :
    a ∈ Visit.trail ⟨fn, .funcDecl line name returnText params body, t⟩ ↔
      a = ⟨[], ⟨fn, .funcDecl line name returnText params body, t⟩⟩ ∨
        t.registry.contains name = false ∧ ∃ i s b, body.statements[i]? = some s ∧
          b ∈ Visit.trail ⟨some t.nextId, s, tableAfter (some t.nextId) (body.statements.take i)
            (t.openFunction (Check.head line name returnText) (params.map Param.variable))⟩ ∧
          a = b.under i := by
  rw [Visit.mem_trail_iff]
  cases hc : t.registry.contains name with
  | true => simp [Visit.parts, hc]
  | false =>
    rw [Visit.parts_funcDecl hc, Visit.opened_funcDecl hc]
    simp only [true_and]
    rfl

private theorem Node.IsStmt.isStmt_node? {s m : Node} (hs : s.IsStmt) {path : List Nat}
    (h : s.node? path = some m) : m.IsStmt := by
  refine Node.IsStmt.children_induction
    (M := fun s => ∀ {path}, s.node? path = some m → m.IsStmt) ?_ hs h
  intro s hs ih path h
  cases path with
  | nil =>
    cases h
    exact hs
  | cons i path =>
    obtain ⟨c, hc, h⟩ := Option.bind_eq_some_iff.mp h
    exact (ih c (List.mem_of_getElem? hc)).2 h

/-- Inside of a function that is visited there are statements, and the functions are known that are
known where its body begins. -/
theorem trail_funcDecl {fn : Option FunctionId} {line : Int} {name : String}
    {returnText : Option String} {params : List Param} {body : Node} {t : Table} {a : Arrival}
    (hs : body.IsStmt)
    (ha : a ∈ Visit.trail ⟨fn, .funcDecl line name returnText params body, t⟩) :
    a = ⟨[], ⟨fn, .funcDecl line name returnText params body, t⟩⟩ ∨
      a.visit.fn = some t.nextId ∧ a.visit.node.IsStmt ∧
        (t.openFunction (Check.head line name returnText)
          (params.map Param.variable)).SameFunctions a.visit.table := by
  rcases mem_trail_funcDecl.mp ha with rfl | ⟨-, i, s, b, hi, hb, rfl⟩
  · exact .inl rfl
  have hstmt : s.IsStmt := hs.statements s (List.mem_of_getElem? hi)
  have hbefore : ∀ m ∈ body.statements.take i, m.IsStmt :=
    fun m hm => hs.statements m (List.mem_of_mem_take hm)
  obtain ⟨hfn, hsame⟩ := trail_stmt hstmt _ b hb
  exact .inr ⟨hfn, hstmt.isStmt_node? (Visit.node?_of_mem_trail hb),
    (Table.SameFunctions.tableAfter hbefore _ _).trans hsame⟩

section

variable {E : Env} {fn : Option FunctionId} {t : Table}

private theorem Node.IsStmt.function?_eq_none {s : Node} (hs : s.IsStmt) : s.function? = none := by
  cases hs with
  | expr he => cases he <;> rfl
  | _ => rfl

private theorem Env.Reflected.after_stmt {frame : Frame} {s : Node}
    (h : Env.Reflected t (frame :: E)) (hs : s.IsStmt) :
    Env.Reflected ((visit fn s).run t).table ((frame ++ s.declaration?.toList) :: E) := by
  obtain ⟨fs, type, b, hr⟩ := visit_stmt hs fn t
  rw [hr]
  exact (h.declaring hs.function?_eq_none).collect _ _ _

private theorem Env.Reflected.after_part {s : Node} (h : E.Reflected t) (fn : Option FunctionId)
    (hs : s.IsStmt) (hd : s.declared? = none) : E.Reflected ((visit fn s).run t).table := by
  obtain ⟨fs, type, b, hr⟩ := visit_stmt hs fn t
  rw [hr]
  simp only [Table.declaring, hd]
  exact h.collect _ _ _

private theorem declarations_cons (n : Node) (ns : List Node) :
    (n :: ns).filterMap Node.declaration? =
      n.declaration?.toList ++ ns.filterMap Node.declaration? := by
  rw [List.filterMap_cons]
  cases n.declaration? <;> rfl

private theorem Env.Reflected.tableAfter_statements {frame : Frame} {ss : List Node}
    (h : Env.Reflected t (frame :: E)) (fn : Option FunctionId) (hs : ∀ s ∈ ss, s.IsStmt) :
    Env.Reflected (tableAfter fn ss t) ((frame ++ ss.filterMap Node.declaration?) :: E) := by
  induction ss generalizing t frame with
  | nil => simpa [tableAfter] using h
  | cons s ss ih =>
    rw [declarations_cons, ← List.append_assoc]
    exact ih (h.after_stmt (hs s (by simp))) fun r hr => hs r (by simp [hr])

private theorem Env.Reflected.tableAfter_parts {ns : List Node} (h : E.Reflected t)
    (hn : ∀ n ∈ ns, n.IsStmt ∧ n.declared? = none) : E.Reflected (tableAfter fn ns t) := by
  induction ns generalizing t with
  | nil => exact h
  | cons n ns ih =>
    obtain ⟨hs, hd⟩ := hn n (by simp)
    exact ih (h.after_part fn hs hd) fun m hm => hn m (by simp [hm])

/-- Only a block opens a scope. The parts of other statements declare nothing. -/
theorem Node.IsStmt.declared?_children {s : Node} (hs : s.IsStmt)
    (hblock : ∀ line ss, s ≠ .block line ss) : ∀ c ∈ s.children, c.declared? = none := by
  have hexpr : ∀ {e : Node}, e.IsExpr → e.declared? = none := fun he => by cases he <;> rfl
  cases hs with
  | expr he =>
    cases he with
    | paren hi => simpa [children] using hexpr hi
    | negation hi => simpa [children] using hexpr hi
    | binary hl hr => simpa [children] using ⟨hexpr hl, hexpr hr⟩
    | call ha => exact fun a hm => hexpr (ha a hm)
    | _ => simp [children]
  | varDecl he => simpa [children] using hexpr he
  | assign he => simpa [children] using hexpr he
  | ret he => simpa [children] using hexpr he
  | exprStmt he => simpa [children] using hexpr he
  | callStmt he => simpa [children] using hexpr he
  | ifElse hc _ ha _ hb =>
    simpa [children] using ⟨hexpr hc, declared?_of_isBody ha, declared?_of_isBody hb⟩
  | forLoop _ hi hc _ hu _ hb =>
    simpa [children] using
      ⟨declared?_of_isUpdate hi, hexpr hc, declared?_of_isUpdate hu, declared?_of_isBody hb⟩
  | whileLoop hc _ hb => simpa [children] using ⟨hexpr hc, declared?_of_isBody hb⟩
  | block => exact absurd rfl (hblock _ _)

private theorem Env.Reflected.opened {s : Node} (h : E.Reflected t) (hs : s.IsStmt)
    (hblock : ∀ line ss, s ≠ .block line ss) : E.Reflected (Visit.opened ⟨fn, s, t⟩) := by
  have hcontrol : ∀ kind line, E.Reflected (t.note fn (·.addControl ⟨kind, line⟩)) := by
    intro kind line
    rw [Table.note_addControl]
    exact h.collect _ _ _
  have hreturn : E.Reflected (t.note fn (·.markReturn)) := by
    rw [Table.note_markReturn]
    exact h.collect _ _ _
  cases hs with
  | expr he =>
    cases he with
    | @call line name args =>
      rw [Visit.opened]
      dsimp only
      split
      · rw [Table.calling_eq_collect]
        exact h.collect _ _ _
      · exact h
    | _ => exact h
  | ifElse | forLoop | whileLoop => exact hcontrol _ _
  | ret => exact hreturn
  | block => exact absurd rfl (hblock _ _)
  | _ => exact h

private theorem Env.inside_eq {s : Node} (hs : s.IsStmt) (hblock : ∀ line ss, s ≠ .block line ss)
    (E : Env) (i : Nat) : E.inside s i = E := by
  cases hs with
  | expr he => cases he <;> rfl
  | block => exact absurd rfl (hblock _ _)
  | _ => rfl

private theorem Env.Reflected.part {s : Node} (h : E.Reflected t) (hs : s.IsStmt)
    (hchildren : ∀ c ∈ s.children, c.IsStmt) (i : Nat) :
    (E.inside s i).Reflected
      (tableAfter fn ((Visit.parts ⟨fn, s, t⟩).take i) (Visit.opened ⟨fn, s, t⟩)) := by
  by_cases hblock : ∀ line ss, s ≠ .block line ss
  · rw [Env.inside_eq hs hblock]
    apply (h.opened hs hblock).tableAfter_parts
    intro n hn
    have hc : n ∈ s.children := Visit.mem_children_of_parts (List.mem_of_mem_take hn)
    exact ⟨hchildren n hc, hs.declared?_children hblock n hc⟩
  · push Not at hblock
    obtain ⟨line, ss, rfl⟩ := hblock
    exact h.enter.tableAfter_statements fn fun r hr => hchildren r (List.mem_of_mem_take hr)

/-- Along the trail of a statement the scopes are those around the position. -/
theorem trail_reflected {s : Node} (hs : s.IsStmt) (h : E.Reflected t) {a : Arrival}
    (ha : a ∈ Visit.trail ⟨fn, s, t⟩) :
    ∃ F, E.at? s a.path = some F ∧ F.Reflected a.visit.table := by
  refine Node.IsStmt.children_induction (M := fun s => ∀ {E : Env} {t : Table} {a : Arrival},
    E.Reflected t → a ∈ Visit.trail ⟨fn, s, t⟩ →
      ∃ F, E.at? s a.path = some F ∧ F.Reflected a.visit.table) ?_ hs h ha
  intro s hs ih E t a h ha
  rcases Visit.mem_trail_iff.mp ha with rfl | ⟨i, n, b, hn, hb, rfl⟩
  · exact ⟨E, rfl, h⟩
  · have hchild := Visit.children_of_parts hn
    rw [hs.inner_eq] at hb
    have hchildren : ∀ c ∈ s.children, c.IsStmt := fun c hc => (ih c hc).1
    obtain ⟨F, hF, hreflected⟩ :=
      (ih n (List.mem_of_getElem? hchild)).2 (h.part hs hchildren i) hb
    refine ⟨F, ?_, hreflected⟩
    change (s.children[i]?.bind fun c => (E.inside s i).at? c b.path) = some F
    rw [hchild]
    exact hF

end

section

variable {line : Int} {decls : List Node} {t : Table} {frame : Frame}

/-- What holds between the declarations of a program. -/
structure Frame.Top (t : Table) (frame : Frame) : Prop where
  reflected : Env.Reflected t [frame]
  registered : t.Registered

private theorem Frame.Top.after_decl {d : Node} (h : frame.Top t) (hd : d.IsDecl) :
    Frame.Top ((visit none d).run t).table (frame ++ d.declaration?.toList) := by
  cases hd with
  | @varDecl line name typeText isConst init initText hi =>
    refine ⟨h.reflected.after_stmt (.varDecl hi), ?_⟩
    obtain ⟨fs, type, b, hr⟩ := visit_stmt (.varDecl hi) none t
    rw [hr]
    exact h.registered.declaring (.varDecl line name typeText isConst init initText)
  | @funcDecl line name returnText params body hs hb =>
    cases hc : t.registry.contains name with
    | true =>
      have hr : (visit none (.funcDecl line name returnText params body)).Returns t _ _ _ :=
        Check.returns_functionDecl_taken hc
      rw [hr]
      exact ⟨h.reflected.taken (h.registered.contains hc), h.registered⟩
    | false =>
      obtain ⟨fs, b, hr⟩ := visit_funcDecl hs hb none line returnText params hc
      rw [hr]
      exact ⟨h.reflected.declare _, h.registered.declare _⟩

private theorem Frame.Top.empty : Frame.Top .empty [] :=
  ⟨.cons (fun _ => .none) .nil, by rintro _ _ ⟨⟩⟩

private theorem Frame.Top.tableAfter {ds : List Node} (h : frame.Top t) (hd : ∀ d ∈ ds, d.IsDecl) :
    Frame.Top (tableAfter none ds t) (frame ++ ds.filterMap Node.declaration?) := by
  induction ds generalizing t frame with
  | nil => simpa [MiniCheck.tableAfter] using h
  | cons d ds ih =>
    rw [declarations_cons, ← List.append_assoc]
    exact ih (h.after_decl (hd d (by simp))) fun e he => hd e (by simp [he])

/-- Inside of a declaration that is visited, a function is known and its parameters share a scope
with the statements of its body. -/
theorem trail_reflected_decl {d : Node} (hd : d.IsDecl) (h : frame.Top t) {a : Arrival}
    (ha : a ∈ Visit.trail ⟨none, d, t⟩) (hs : a.visit.node.IsStmt) :
    ∃ F, Env.at? [frame ++ d.function?.toList] d a.path = some F ∧ F.Reflected a.visit.table := by
  cases hd with
  | varDecl hi =>
    have hframe : Env.Reflected t [frame ++ []] := by
      rw [List.append_nil]
      exact h.reflected
    exact trail_reflected (.varDecl hi) hframe ha
  | @funcDecl line name returnText params body hbody =>
    rcases mem_trail_funcDecl.mp ha with rfl | ⟨-, i, n, b, hn, hb, rfl⟩
    · cases hs with
      | expr he => cases he
    · have hstatements : ∀ m ∈ body.statements.take i, m.IsStmt :=
        fun m hm => hbody.statements m (List.mem_of_mem_take hm)
      have hopened := (h.reflected.openFunction line name returnText params).tableAfter_statements
        (some t.nextId) hstatements
      obtain ⟨F, hF, hreflected⟩ :=
        trail_reflected (hbody.statements n (List.mem_of_getElem? hn)) hopened hb
      refine ⟨F, ?_, hreflected⟩
      change (body.statements[i]?.bind fun c => Env.at? (Env.inside _ _ i) c b.path) = some F
      rw [hn]
      exact hF

theorem trail_reflected_program (hd : ∀ d ∈ decls, d.IsDecl) {a : Arrival}
    (ha : a ∈ Visit.trail ⟨none, .program line decls, .empty⟩) (hs : a.visit.node.IsStmt) :
    ∃ F, Env.at? [] (.program line decls) a.path = some F ∧ F.Reflected a.visit.table := by
  rcases mem_trail_program.mp ha with rfl | ⟨i, d, b, hi, hb, rfl⟩
  · cases hs with
    | expr he => cases he
  · have hbefore : ∀ e ∈ decls.take i, e.IsDecl := fun e he => hd e (List.mem_of_mem_take he)
    have htop := Frame.Top.empty.tableAfter hbefore
    obtain ⟨F, hF, hreflected⟩ :=
      trail_reflected_decl (hd d (List.mem_of_getElem? hi)) htop hb hs
    refine ⟨F, ?_, hreflected⟩
    change (decls[i]?.bind fun c => Env.at? (Env.inside _ _ i) c b.path) = some F
    rw [hi]
    simpa [Env.inside, hi] using hF

end

namespace Node

/-- The function that a declaration declares, as far as its head goes. -/
def head? : Node → Option Function
  | funcDecl line name returnText params _ =>
      some (.declared name (Ty.ofReturnText returnText) line (params.map Param.variable))
  | _ => none

/-- The function whose body a position of a program lies in. -/
def functionAround? (P : Node) : List Nat → Option Function
  | i :: _ :: _ => P.children[i]?.bind head?
  | _ => none

/-- The position is that of a function whose name an earlier function has, or lies in it. -/
def inRejected (P : Node) : List Nat → Bool
  | i :: _ => (P.children[i]?.bind head?).any fun f => f.name ∈ functionNames (P.children.take i)
  | [] => false

end Node

section

variable {line : Int} {decls : List Node}

private theorem around_decl {d : Node} (hd : d.IsDecl) {t : Table} {a : Arrival}
    (ha : a ∈ Visit.trail ⟨none, d, t⟩) (hpath : a.path ≠ []) :
    (a.visit.table.around a.visit.fn).map Function.head = d.head? := by
  cases hd with
  | varDecl hi =>
    obtain ⟨hfn, -⟩ := trail_stmt (.varDecl hi) t a ha
    rw [hfn]
    rfl
  | @funcDecl line name returnText params body hs =>
    rcases trail_funcDecl hs ha with rfl | ⟨hfn, -, hinside⟩
    · exact absurd rfl hpath
    rw [hfn, hinside.around_head, Table.around_openFunction]
    rfl

/-- In a program the function around a visit is the one that the position lies in. -/
theorem around_program (hd : ∀ d ∈ decls, d.IsDecl) {a : Arrival}
    (ha : a ∈ Visit.trail ⟨none, .program line decls, .empty⟩) :
    (a.visit.table.around a.visit.fn).map Function.head =
      (Node.program line decls).functionAround? a.path := by
  rcases mem_trail_program.mp ha with rfl | ⟨i, d, b, hi, hb, rfl⟩
  · rfl
  obtain ⟨path, v⟩ := b
  cases path with
  | nil =>
    have hroot : (⟨[], v⟩ : Arrival) = ⟨[], _⟩ :=
      Visit.eq_of_path_eq hb (Visit.mem_trail_iff.mpr (.inl rfl)) rfl
    cases hroot
    rfl
  | cons j rest =>
    have hchild : (Node.program line decls).children[i]? = some d := hi
    simp only [Arrival.under, functionAround?, hchild, Option.bind_some]
    exact around_decl (hd d (List.mem_of_getElem? hi)) hb (List.cons_ne_nil j rest)

theorem contains_registry_tableAfter {ds : List Node} (hd : ∀ d ∈ ds, d.IsDecl) (name : String) :
    (tableAfter none ds .empty).registry.contains name = true ↔ name ∈ functionNames ds := by
  obtain ⟨u, fs, types, hr⟩ := visitAll_decls hd .empty
  rw [hr.tableAfter_eq, contains_registry_decls hd hr]
  exact or_iff_right Bool.false_ne_true

/-- A function is rejected if its name is in the registry where its visit begins. -/
theorem inRejected_funcDecl (hd : ∀ d ∈ decls, d.IsDecl) {i : Nat} {l : Int} {name : String}
    {returnText : Option String} {params : List Param} {body : Node}
    (hi : decls[i]? = some (.funcDecl l name returnText params body)) (path : List Nat) :
    (Node.program line decls).inRejected (i :: path) =
      (tableAfter none (decls.take i) .empty).registry.contains name := by
  have hbefore : ∀ e ∈ decls.take i, e.IsDecl := fun e he => hd e (List.mem_of_mem_take he)
  have hchild : (Node.program line decls).children[i]? = some _ := hi
  rw [Bool.eq_iff_iff, contains_registry_tableAfter hbefore, inRejected, hchild]
  exact decide_eq_true_iff

private theorem inRejected_varDecl {i : Nat} {l : Int} {name : String} {typeText : Option String}
    {isConst : Bool} {init : Node} {initText : Option String}
    (hi : decls[i]? = some (.varDecl l name typeText isConst init initText)) (path : List Nat) :
    (Node.program line decls).inRejected (i :: path) = false := by
  have hchild : (Node.program line decls).children[i]? = some _ := hi
  rw [inRejected, hchild]
  rfl

/-- Nothing is visited inside of a rejected function. -/
theorem inRejected_program (hd : ∀ d ∈ decls, d.IsDecl) {a : Arrival}
    (ha : a ∈ Visit.trail ⟨none, .program line decls, .empty⟩) (hhead : a.visit.node.head? = none) :
    (Node.program line decls).inRejected a.path = false := by
  rcases mem_trail_program.mp ha with rfl | ⟨i, d, b, hi, hb, rfl⟩
  · rfl
  cases hd d (List.mem_of_getElem? hi) with
  | varDecl => exact inRejected_varDecl hi _
  | funcDecl =>
    rcases mem_trail_funcDecl.mp hb with rfl | ⟨hc, -⟩
    · cases hhead
    · exact (inRejected_funcDecl hd hi _).trans hc

theorem Node.IsExpr.isExpr_node? {e m : Node} (he : e.IsExpr) {path : List Nat}
    (h : e.node? path = some m) : m.IsExpr := by
  induction path generalizing e with
  | nil =>
    cases h
    exact he
  | cons i path ih =>
    obtain ⟨c, hc, hm⟩ := Option.bind_eq_some_iff.mp h
    have hchild : c ∈ e.children := List.mem_of_getElem? hc
    refine ih ?_ hm
    cases he with
    | call ha => exact ha c hchild
    | binary hl hr =>
      rcases List.mem_cons.mp hchild with rfl | hchild
      · exact hl
      · rw [List.mem_singleton.mp hchild]
        exact hr
    | paren hi | negation hi =>
      rw [List.mem_singleton.mp hchild]
      exact hi
    | _ => cases hchild

/-- Where a statement does not visit its parts, they are expressions. -/
theorem Visit.parts_stmt {v : Visit} (hs : v.node.IsStmt) :
    v.parts = v.node.children ∨ ∀ c ∈ v.node.children, c.IsExpr := by
  obtain ⟨fn, node, t⟩ := v
  cases hs with
  | assign hv => exact .inr (by simpa [children] using hv)
  | ret hv => exact .inr (by simpa [children] using hv)
  | expr he => cases he <;> exact .inl rfl
  | _ => exact .inl rfl

theorem declaration_visited_stmt {s m : Node} (hs : s.IsStmt) {path : List Nat}
    (h : s.node? path = some m) (hm : m.declared?.isSome = true) (fn : Option FunctionId)
    (t : Table) : ∃ a ∈ Visit.trail ⟨fn, s, t⟩, a.path = path := by
  refine Node.IsStmt.children_induction (M := fun s => ∀ {path}, s.node? path = some m →
    ∀ t, ∃ a ∈ Visit.trail ⟨fn, s, t⟩, a.path = path) ?_ hs h t
  intro s hs ih path h t
  cases path with
  | nil => exact ⟨⟨[], ⟨fn, s, t⟩⟩, Visit.mem_trail_iff.mpr (.inl rfl), rfl⟩
  | cons i path =>
    obtain ⟨c, hc, h⟩ := Option.bind_eq_some_iff.mp h
    have hchild : c ∈ s.children := List.mem_of_getElem? hc
    rcases Visit.parts_stmt (v := ⟨fn, s, t⟩) hs with hparts | hexprs
    · obtain ⟨b, hb, rfl⟩ := (ih c hchild).2 h
        (tableAfter fn ((Visit.parts ⟨fn, s, t⟩).take i) (Visit.opened ⟨fn, s, t⟩))
      refine ⟨b.under i, Visit.mem_trail_iff.mpr (.inr ⟨i, c, b, hparts ▸ hc, ?_, rfl⟩), rfl⟩
      rw [hs.inner_eq]
      exact hb
    · have he := (hexprs c hchild).isExpr_node? h
      cases he <;> cases hm

theorem isStmt_below (hd : ∀ d ∈ decls, d.IsDecl) {i j : Nat} {path : List Nat} {m : Node}
    (h : (Node.program line decls).node? (i :: j :: path) = some m) : m.IsStmt := by
  obtain ⟨d, hi, h⟩ := Option.bind_eq_some_iff.mp h
  cases hd d (List.mem_of_getElem? hi) with
  | varDecl he => exact IsStmt.isStmt_node? (.varDecl he) h
  | funcDecl hs =>
    obtain ⟨s, hj, h⟩ := Option.bind_eq_some_iff.mp h
    exact (hs.statements s (List.mem_of_getElem? hj)).isStmt_node? h

/-- Every declaration of a variable is visited, unless it lies in a rejected function. -/
theorem declaration_visited (hd : ∀ d ∈ decls, d.IsDecl) {path : List Nat} {m : Node}
    (h : (Node.program line decls).node? path = some m) (hm : m.declared?.isSome = true)
    (hr : (Node.program line decls).inRejected path = false) :
    ∃ a ∈ Visit.trail ⟨none, .program line decls, .empty⟩, a.path = path := by
  cases path with
  | nil =>
    cases h
    cases hm
  | cons i path =>
    obtain ⟨d, hi, h⟩ := Option.bind_eq_some_iff.mp h
    have hinside : ∃ b ∈ Visit.trail ⟨none, d, tableAfter none (decls.take i) .empty⟩,
        b.path = path := by
      cases hd d (List.mem_of_getElem? hi) with
      | varDecl he => exact declaration_visited_stmt (.varDecl he) h hm none _
      | @funcDecl l name returnText params body hs =>
        cases path with
        | nil =>
          cases h
          cases hm
        | cons j path =>
          obtain ⟨s, hj, h⟩ := Option.bind_eq_some_iff.mp h
          rw [inRejected_funcDecl hd hi] at hr
          obtain ⟨b, hb, rfl⟩ :=
            declaration_visited_stmt (hs.statements s (List.mem_of_getElem? hj)) h hm _ _
          exact ⟨b.under j, mem_trail_funcDecl.mpr (.inr ⟨hr, j, s, b, hj, hb, rfl⟩), rfl⟩
    obtain ⟨b, hb, rfl⟩ := hinside
    exact ⟨b.under i, mem_trail_program.mpr (.inr ⟨i, d, b, hi, hb, rfl⟩), rfl⟩

/-- The declarations of a program are visited, each after those before it. -/
theorem declaration_at {i : Nat} {d : Node} (hi : decls[i]? = some d) :
    (⟨[i], ⟨none, d, tableAfter none (decls.take i) .empty⟩⟩ : Arrival) ∈
      Visit.trail ⟨none, .program line decls, .empty⟩ := by
  have hroot : (⟨[], ⟨none, d, tableAfter none (decls.take i) .empty⟩⟩ : Arrival) ∈
      Visit.trail ⟨none, d, tableAfter none (decls.take i) .empty⟩ :=
    Visit.mem_trail_iff.mpr (.inl rfl)
  exact mem_trail_program.mpr (.inr ⟨i, d, _, hi, hroot, rfl⟩)

theorem function_at (hd : ∀ d ∈ decls, d.IsDecl) {a : Arrival}
    (ha : a ∈ Visit.trail ⟨none, .program line decls, .empty⟩)
    (hhead : a.visit.node.head?.isSome = true) :
    ∃ i, decls[i]? = some a.visit.node ∧
      a = ⟨[i], ⟨none, a.visit.node, tableAfter none (decls.take i) .empty⟩⟩ := by
  have hnode := Visit.node?_of_mem_trail ha
  obtain ⟨path, fn, node, t⟩ := a
  match path with
  | [] =>
    cases hnode
    cases hhead
  | [i] =>
    obtain ⟨d, hi, hnode⟩ := Option.bind_eq_some_iff.mp hnode
    cases hnode
    exact ⟨i, hi, Visit.eq_of_path_eq ha (declaration_at hi) rfl⟩
  | i :: j :: rest =>
    have hs : node.IsStmt := isStmt_below hd hnode
    cases hs with
    | expr he => cases he <;> cases hhead
    | _ => cases hhead

theorem isStmt_of_declared (hd : ∀ d ∈ decls, d.IsDecl) {path : List Nat} {m : Node}
    (h : (Node.program line decls).node? path = some m) (hm : m.declared?.isSome = true) :
    m.IsStmt := by
  match path with
  | [] =>
    cases h
    cases hm
  | [i] =>
    obtain ⟨d, hi, hnode⟩ := Option.bind_eq_some_iff.mp h
    cases hnode
    cases hd _ (List.mem_of_getElem? hi) with
    | varDecl he => exact .varDecl he
    | funcDecl => cases hm
  | i :: j :: rest => exact isStmt_below hd h

end

end MiniCheck
