import MiniCheck.Proofs.FirstDeclarations
import MiniCheck.Proofs.Locality

/-!
# Exchange of declarations

Two neighbouring declarations of a program that do not mention each other may change places. Their
findings change places with them, all other findings stay, and so does what every name stands for.
-/

namespace MiniCheck

open Pass Node

namespace Frame

/-- The frames have the same first declaration and the same first function of every name in `N`. -/
def Agree (N : String → Prop) (frame frame' : Frame) : Prop :=
  ∀ name, N name → frame.find? (·.name == name) = frame'.find? (·.name == name) ∧
    frame.functions.find? (·.name == name) = frame'.functions.find? (·.name == name)

private theorem find?_firsts (frame : Frame) (name : String) :
    frame.firsts.find? (·.name == name) = frame.find? (·.name == name) := by
  have h : ∀ known, name ∉ known →
      (frame.firstsAfter known).find? (·.name == name) = frame.find? (·.name == name) := by
    induction frame with
    | nil => simp [firstsAfter]
    | cons d frame ih =>
      intro known hk
      rw [firstsAfter, List.find?_append, List.find?_cons]
      by_cases hd : d.name = name
      · simp [hd, hk]
      · have hk' : name ∉ known ++ [d.name] := by simp [hk, Ne.symm hd]
        have hb : (d.name == name) = false := beq_false_of_ne hd
        by_cases hm : d.name ∈ known <;> simp [hm, hb, ih _ hk']
  exact h [] List.not_mem_nil

private theorem find?_or_comm {p q : Frame} (h : ∀ x ∈ p, ∀ y ∈ q, x.name ≠ y.name)
    (name : String) :
    (p.find? (·.name == name)).or (q.find? (·.name == name)) =
      (q.find? (·.name == name)).or (p.find? (·.name == name)) := by
  cases hx : p.find? (·.name == name) with
  | none => rw [Option.none_or, Option.or_none]
  | some x =>
    have hq : q.find? (·.name == name) = none := by
      rw [List.find?_eq_none]
      intro y hy he
      have hxn : x.name = name := by simpa using List.find?_some hx
      have hyn : y.name = name := by simpa using he
      exact h x (List.mem_of_find?_eq_some hx) y hy (hxn.trans hyn.symm)
    rw [hq, Option.none_or, Option.or_none]

namespace Agree

variable {N : String → Prop} {frame frame' : Frame}

private theorem append (h : Agree N frame frame') (rest : Frame) :
    Agree N (frame ++ rest) (frame' ++ rest) := by
  intro name hn
  obtain ⟨hs, hf⟩ := h name hn
  rw [functions_append, functions_append, List.find?_append, List.find?_append,
    List.find?_append, List.find?_append, hs, hf]
  exact ⟨rfl, rfl⟩

private theorem concat (frame : Frame) (d : Declaration) :
    Agree (· ≠ d.name) frame (frame ++ [d]) := by
  intro name hn
  have hd : List.find? (·.name == name) [d] = none := by simp [Ne.symm hn]
  have hf : (functions [d]).find? (·.name == name) = none := by
    cases hk : d.isFunction <;> simp [functions, hk, Ne.symm hn]
  rw [functions_append, List.find?_append, List.find?_append, hd, hf, Option.or_none,
    Option.or_none]
  exact ⟨rfl, rfl⟩

/-- Declarations of different names may change places. -/
theorem exchange (frame : Frame) {d e : Declaration} (h : d.name ≠ e.name) :
    Agree (fun _ => True) (frame ++ [d] ++ [e]) (frame ++ [e] ++ [d]) := by
  intro name _
  have hfun : ∀ x ∈ functions [d], ∀ y ∈ functions [e], x.name ≠ y.name := by
    intro x hx y hy
    rw [List.mem_singleton.mp (List.mem_filter.mp hx).1,
      List.mem_singleton.mp (List.mem_filter.mp hy).1]
    exact h
  simp only [functions_append, List.append_assoc, List.find?_append]
  rw [find?_or_comm (p := [d]) (q := [e]) (by simpa using h), find?_or_comm hfun]
  exact ⟨rfl, rfl⟩

end Agree

private theorem firstsAfter_congr {known known' : List String} {frame : Frame}
    (h : ∀ name ∈ frame.names, name ∈ known ↔ name ∈ known') :
    frame.firstsAfter known = frame.firstsAfter known' := by
  induction frame generalizing known known' with
  | nil => rfl
  | cons d frame ih =>
    rw [names, List.map_cons, List.forall_mem_cons] at h
    have hd : ∀ name ∈ names frame, name ∈ known ++ [d.name] ↔ name ∈ known' ++ [d.name] := by
      intro name hn
      rw [List.mem_append, List.mem_append, h.2 name hn]
    simp only [firstsAfter, h.1, ih hd]

end Frame

/-- The lists differ at most in the order of two neighbouring entries, of the names `m` and `n`. -/
inductive Exchanged {α : Type} (m n : String) : List (String × α) → List (String × α) → Prop
  | same {l} : Exchanged m n l l
  | swap {before after a b} :
      Exchanged m n (before ++ (m, a) :: (n, b) :: after) (before ++ (n, b) :: (m, a) :: after)

namespace Frame

private theorem firstsAfter_sublist (known : List String) (frame : Frame) :
    (frame.firstsAfter known).Sublist frame := by
  induction frame generalizing known with
  | nil => exact .slnil
  | cons d frame ih =>
    rw [firstsAfter]
    split
    · exact (ih _).cons d
    · exact (ih _).cons_cons d

private theorem firsts_middle (frame rest : Frame) {p q : Frame}
    (h : ∀ x ∈ p, ∀ y ∈ q, x.name ≠ y.name) :
    firsts (frame ++ p ++ q ++ rest) =
      frame.firsts ++ (p.firstsAfter frame.names ++ q.firstsAfter frame.names) ++
        rest.firstsAfter (frame.names ++ p.names ++ q.names) := by
  have hq : q.firstsAfter (frame.names ++ p.names) = q.firstsAfter frame.names := by
    apply firstsAfter_congr
    intro name hn
    have hp : name ∉ p.names := by
      intro hm
      obtain ⟨y, hy, rfl⟩ := List.mem_map.mp hn
      obtain ⟨x, hx, hxy⟩ := List.mem_map.mp hm
      exact h x hx y hy hxy
    simp [hp]
  simp only [firsts, firstsAfter_append, List.nil_append, hq, List.append_assoc]

private theorem exchanged_firsts {d e : Declaration} (h : d.name ≠ e.name) {p q : Frame}
    (hp : p.Sublist [d]) (hq : q.Sublist [e]) (frame rest : Frame) :
    Exchanged d.name e.name ((firsts (frame ++ p ++ q ++ rest)).map fun d => (d.name, some d))
      ((firsts (frame ++ q ++ p ++ rest)).map fun d => (d.name, some d)) := by
  have hne : ∀ x ∈ p, ∀ y ∈ q, x.name ≠ y.name := by
    intro x hx y hy
    rwa [List.mem_singleton.mp (hp.subset hx), List.mem_singleton.mp (hq.subset hy)]
  have hrest : rest.firstsAfter (frame.names ++ p.names ++ q.names) =
      rest.firstsAfter (frame.names ++ q.names ++ p.names) :=
    firstsAfter_congr fun name _ => by simp only [List.mem_append]; tauto
  rw [firsts_middle frame rest hne, firsts_middle frame rest fun x hx y hy => (hne y hy x hx).symm,
    hrest]
  have hp' := List.sublist_singleton.mp ((firstsAfter_sublist frame.names p).trans hp)
  have hq' := List.sublist_singleton.mp ((firstsAfter_sublist frame.names q).trans hq)
  rcases hp' with hp' | hp' <;> rcases hq' with hq' | hq' <;> rw [hp', hq']
  · exact .same
  · exact .same
  · exact .same
  · simp only [List.map_append, List.map_cons, List.cons_append, List.nil_append,
      List.append_assoc]
    exact .swap

end Frame

namespace Table

variable {N : String → Prop} {t u t' u' : Table} {frame frame' : Frame} {fs : List Finding}

private theorem lookup_map_snd {α β : Type} (change : α → β) (entries : List (String × α))
    (name : String) :
    (entries.map fun e => (e.1, change e.2)).lookup name = (entries.lookup name).map change := by
  induction entries with
  | nil => rfl
  | cons e entries ih =>
    rw [List.map_cons, List.lookup_cons, List.lookup_cons, ih]
    cases name == e.1 <;> rfl

private theorem Lists.find?_cases {entries : List (String × Symbol)} (h : t.Lists entries frame)
    (name : String) :
    (entries.lookup name = none ∧ frame.find? (·.name == name) = none) ∨
    ∃ s d, entries.lookup name = some s ∧ frame.find? (·.name == name) = some d ∧
      t.meaning s = some d := by
  induction h with
  | nil => exact .inl ⟨rfl, rfl⟩
  | @cons e d entries frame he _ ih =>
    rw [List.lookup_cons, List.find?_cons, he.1]
    by_cases hd : d.name = name
    · exact .inr ⟨e.2, d, by simp [hd], by simp [hd], he.2⟩
    · have hb : (name == d.name) = false := beq_false_of_ne (Ne.symm hd)
      have hb' : (d.name == name) = false := beq_false_of_ne hd
      simpa only [hb, hb'] using ih

private theorem Lists.unique {entries : List (String × Symbol)} (h : t.Lists entries frame)
    (h' : t.Lists entries frame') : frame = frame' := by
  have hd := h.denoted_eq.symm.trans h'.denoted_eq
  have hm := congrArg (List.filterMap Prod.snd) hd
  simpa [List.filterMap_map, Function.comp_def] using hm

namespace Shows

private theorem find?_current (h : t.Shows frame) (name : String) :
    (t.current.find? name).map Symbol.asVariable? =
      (frame.find? (·.name == name)).map Declaration.asVariable? := by
  rw [← Frame.find?_firsts, NameMap.find?]
  obtain ⟨hs, hd⟩ | ⟨s, d, hs, hd, hm⟩ := h.scope.find?_cases name
  · rw [hs, hd]
    rfl
  · rw [hs, hd]
    cases s with
    | «variable» v =>
      obtain rfl : Declaration.variable v = d := by simpa [meaning] using hm
      rfl
    | function id =>
      obtain ⟨f, -, rfl⟩ := Option.map_eq_some_iff.mp hm
      rfl

theorem registered?_eq (h : t.Shows frame) (name : String) :
    (t.registered? name).map (fun found => Declaration.function found.2) =
      frame.functions.find? (·.name == name) := by
  have hl : t.registered.lookup name = (t.registry.find? name).map Symbol.function :=
    lookup_map_snd Symbol.function t.registry.entries name
  rw [← Frame.find?_firsts, Table.registered?_eq]
  obtain ⟨hs, hd⟩ | ⟨s, d, hs, hd, hm⟩ := h.registry.find?_cases name
  · rw [hl, Option.map_eq_none_iff] at hs
    rw [hs, hd]
    rfl
  · rw [hl] at hs
    obtain ⟨id, hid, rfl⟩ := Option.map_eq_some_iff.mp hs
    obtain ⟨f, hf, rfl⟩ := Option.map_eq_some_iff.mp hm
    rw [hid, hd, Option.bind_some, hf]
    rfl

private theorem agree (ht : t.Shows frame) (hu : u.Shows frame') (h : frame.Agree N frame') :
    MiniCheck.Agree N none t none u := by
  refine ⟨?_, ?_, rfl⟩
  · rw [scopes, scopes, ht.enclosing, hu.enclosing]
    refine .cons (fun name hn => ?_) .nil
    rw [ht.find?_current, hu.find?_current, (h name hn).1]
  · intro name hn
    have hr : (t.registered? name).map (fun found => Declaration.function found.2) =
        (u.registered? name).map (fun found => Declaration.function found.2) := by
      rw [ht.registered?_eq, hu.registered?_eq, (h name hn).2]
    obtain ⟨hx, hy⟩ | ⟨found, found', hx, hy, he⟩ := cases_of_map_eq hr
    · rw [hx, hy]
    · rw [hx, hy, Option.map_some, Option.map_some, Declaration.function.inj he]

/-- The bodies of a function that is declared in both tables are visited from tables that agree. -/
theorem agree_openFunction (ht : t.Shows frame) (hu : u.Shows frame') (h : frame.Agree N frame')
    (line : Int) {name : String} (returnText : Option String) (params : List Variable)
    (hct : t.registry.contains name = false) (hcu : u.registry.contains name = false) :
    MiniCheck.Agree N (some t.nextId) (t.openFunction (Check.head line name returnText) params)
      (some u.nextId) (u.openFunction (Check.head line name returnText) params) := by
  have hrec : ∀ (t : Table) (f : Function), (t.declare f).record? t.nextId = some f := by
    intro t f
    simp [record?, records_declare, nextId]
  rw [openFunction_eq_enter, openFunction_eq_enter]
  generalize hf : Function.declared name (Ty.ofReturnText returnText) line params = f
  have hname : f.name = name := by rw [← hf]; rfl
  have hd : MiniCheck.Agree N none (t.declare f) none (u.declare f) :=
    (ht.declare (hname ▸ hct)).agree (hu.declare (hname ▸ hcu)) (h.append [.function f])
  refine ⟨.cons (fun _ _ => rfl) hd.scopes, hd.registered, ?_⟩
  exact congrArg (Option.map Function.gist) ((hrec t f).trans (hrec u f).symm)

private theorem contains_registry_agree (ht : t.Shows frame) (hu : u.Shows frame')
    (h : frame.Agree N frame') {name : String} (hn : N name) :
    t.registry.contains name = u.registry.contains name := by
  rw [Bool.eq_iff_iff, ht.contains_registry, hu.contains_registry]
  have hf : ∀ frame : Frame, name ∈ frame.names ↔ (frame.find? (·.name == name)).isSome = true := by
    intro frame
    simp [Frame.names]
  rw [hf, hf, (h name hn).2]

private theorem eq_of_declare (h : t.Shows frame) {f g : Function}
    (hf : t.registry.contains f.name = false) (hg : g.name = f.name)
    (h' : (t.declare f).Shows (frame ++ [.function g])) : g = f := by
  have hnew : f.name ∉ frame.functions.names := by
    rw [← h.contains_registry, hf]
    exact Bool.false_ne_true
  have hu := h'.registry.unique (h.declare hf).registry
  have hfirsts : ∀ e : Function, e.name = f.name →
      (Frame.functions (frame ++ [.function e])).firsts =
        frame.functions.firsts ++ [.function e] := by
    intro e he
    rw [Frame.functions_concat_function, Frame.firsts_concat,
      if_neg (by rwa [Declaration.name, he])]
  rw [hfirsts g hg, hfirsts f rfl] at hu
  simpa using List.append_cancel_left hu

/-- A declaration does the same in both tables, and it declares the same. -/
theorem transfer {d : Node} {x : Declaration} {type : Ty} (ht : t.Shows frame) (hd : d.IsDecl)
    (hn : ∀ name ∈ d.names, N name) (hu : u.Shows frame')
    (h : frame.Agree N frame') (hx : d.Declares x) (ht' : t'.Shows (frame ++ [x]))
    (hr : (visit none d).Returns t t' fs type) :
    ∃ u', (visit none d).Returns u u' fs type ∧ u'.Shows (frame' ++ [x]) := by
  cases hd with
  | varDecl hi =>
    obtain ⟨u', gs, type', hr'⟩ := visit_decl (.varDecl hi) u
    obtain ⟨-, rfl, rfl⟩ := local_stmt (.varDecl hi) hn (ht.agree hu h) hr hr'
    cases hx with
    | «variable» hv => exact ⟨u', hr', hu.after_variable (.varDecl hi) hv hr'⟩
  | @funcDecl line name returnText params body hs hb =>
    rw [names, List.forall_mem_cons, List.forall_mem_append] at hn
    obtain ⟨hname, -, hbody⟩ := hn
    have hc := contains_registry_agree ht hu h hname
    cases hx with
    | «variable» hv => simp [declared?] at hv
    | function b =>
      cases hct : t.registry.contains name with
      | true =>
        have hcu := hc.symm.trans hct
        obtain ⟨-, rfl, rfl⟩ := hr.of_funcDecl_taken hct
        exact ⟨u, Check.returns_functionDecl_taken hcu, hu.taken hcu⟩
      | false =>
        have hcu := hc.symm.trans hct
        have hcurrent := (ht.agree hu h).contains hname
        obtain ⟨u', gs, type', hr'⟩ := visit_decl (.funcDecl hs hb) u
        obtain ⟨b', rfl, rfl, rfl, rfl⟩ := local_funcDecl hs hb hbody hct hcu hcurrent
          (ht.agree_openFunction hu h line returnText _ hct hcu) hr hr'
        rw [ht.eq_of_declare (by exact hct) (by rfl) ht']
        exact ⟨_, hr', hu.declare hcu⟩

private theorem transfer_all {decls : List Node} {types : List Ty} (ht : t.Shows frame)
    (hd : ∀ d ∈ decls, d.IsDecl) (hu : u.Shows frame') (h : frame.Agree (fun _ => True) frame')
    (hr : (visitAll none decls).Returns t t' fs types) :
    ∃ xs u', (visitAll none decls).Returns u u' fs types ∧ t'.Shows (frame ++ xs) ∧
      u'.Shows (frame' ++ xs) := by
  induction decls generalizing t u frame frame' fs types with
  | nil =>
    obtain ⟨rfl, rfl, rfl⟩ := hr.of_visitAll_nil
    exact ⟨[], u, .visitAll_nil none u, by rwa [List.append_nil], by rwa [List.append_nil]⟩
  | cons d decls ih =>
    obtain ⟨t₁, f₁, got, f₂, rest, h₁, h₂, rfl, rfl⟩ := hr.of_visitAll_cons
    have hd₁ := hd d (by simp)
    obtain ⟨x, hx, ht₁⟩ := ht.after_decl hd₁ h₁
    obtain ⟨u₁, hu₁, hus⟩ := ht.transfer hd₁ (fun _ _ => trivial) hu h hx ht₁ h₁
    obtain ⟨xs, u', hu', hts, hus'⟩ :=
      ih ht₁ (fun e he => hd e (by simp [he])) hus (h.append [x]) h₂
    rw [List.append_assoc] at hts hus'
    exact ⟨x :: xs, u', hu₁.visitAll_cons hu', hts, hus'⟩

end Shows

end Table

/-- What the global scope binds its names to. -/
def Table.bindings (t : Table) : List (String × Option Declaration) := t.denoted t.global.entries

/-- What the names in the registry stand for. -/
def Table.registrations (t : Table) : List (String × Option Declaration) := t.denoted t.registered

private theorem Table.Shows.bindings_eq {t : Table} {frame : Frame} (h : t.Shows frame) :
    t.bindings = frame.firsts.map fun d => (d.name, some d) := by
  rw [Table.bindings, Table.global, h.enclosing]
  exact h.scope.denoted_eq

theorem Pass.Returns.visitAll_append {fn : Option FunctionId} {ms ns : List Node} {t u v : Table}
    {fs gs : List Finding} {types types' : List Ty} (h : (visitAll fn ms).Returns t u fs types)
    (h' : (visitAll fn ns).Returns u v gs types') :
    (visitAll fn (ms ++ ns)).Returns t v (fs ++ gs) (types ++ types') := by
  induction ms generalizing t fs types with
  | nil =>
    obtain ⟨rfl, rfl, rfl⟩ := h.of_visitAll_nil
    exact h'
  | cons m ms ih =>
    obtain ⟨w, f₁, got, f₂, rest, h₁, h₂, rfl, rfl⟩ := h.of_visitAll_cons
    rw [List.append_assoc]
    exact h₁.visitAll_cons (ih h₂)

namespace Node.Declares

variable {d : Node} {x y : Declaration}

private theorem name_eq (h : d.Declares y) (hx : d.declaration? = some x) : x.name = y.name := by
  rw [h.declaration?] at hx
  rw [← Option.some.inj hx, Declaration.name_head]

private theorem name_mem (h : d.Declares x) : x.name ∈ d.names := by
  cases h with
  | «variable» hv =>
    cases d with
    | varDecl =>
      obtain rfl := Option.some.inj hv
      exact List.mem_cons_self
    | _ => simp [declared?] at hv
  | function => exact List.mem_cons_self

end Node.Declares

/-- Two neighbouring declarations, neither of which mentions the name of the other, may change
places. The findings about the first and the second one change places with them; both are what is
found about the declaration without the other one. All other findings stay. Names stand for the
same variables and for the same records of functions as before, in the global scope and in the
registry, where the entries of the two may have changed places. -/
theorem independent_declarations_commute {pre post : List Node} {d₁ d₂ : Node}
    (hpre : ∀ d ∈ pre, d.IsDecl) (hpost : ∀ d ∈ post, d.IsDecl) (hd₁ : d₁.IsDecl)
    (hd₂ : d₂.IsDecl) {x₁ x₂ : Declaration} (hx₁ : d₁.declaration? = some x₁)
    (hx₂ : d₂.declaration? = some x₂) (hn₁ : x₁.name ∉ d₂.names) (hn₂ : x₂.name ∉ d₁.names)
    (line : Int) :
    ∃ t₀ t₁ t₂ t u A D₁ D₂ B,
      (analyze (.program line pre)).Returns .empty t₀ A () ∧
      (analyze (.program line (pre ++ [d₁]))).Returns .empty t₁ (A ++ D₁) () ∧
      (analyze (.program line (pre ++ [d₂]))).Returns .empty t₂ (A ++ D₂) () ∧
      (analyze (.program line (pre ++ [d₁, d₂] ++ post))).Returns .empty t
        (A ++ D₁ ++ D₂ ++ B) () ∧
      (analyze (.program line (pre ++ [d₂, d₁] ++ post))).Returns .empty u
        (A ++ D₂ ++ D₁ ++ B) () ∧
      Exchanged x₁.name x₂.name t.bindings u.bindings ∧
      Exchanged x₁.name x₂.name t.registrations u.registrations := by
  obtain ⟨t₀, A, _, hr₀⟩ := visitAll_decls hpre .empty
  obtain ⟨xs, -, hs₀⟩ := Table.Shows.empty.after_decls hpre hr₀
  rw [List.nil_append] at hs₀
  obtain ⟨t₁, D₁, _, hr₁⟩ := visit_decl hd₁ t₀
  obtain ⟨t₂, D₂, _, hr₂⟩ := visit_decl hd₂ t₀
  obtain ⟨y₁, hy₁, hs₁⟩ := hs₀.after_decl hd₁ hr₁
  obtain ⟨y₂, hy₂, hs₂⟩ := hs₀.after_decl hd₂ hr₂
  have hname₁ : x₁.name = y₁.name := hy₁.name_eq hx₁
  have hname₂ : x₂.name = y₂.name := hy₂.name_eq hx₂
  rw [hname₁] at hn₁
  rw [hname₂] at hn₂
  have hne : y₁.name ≠ y₂.name := fun h => hn₂ (h ▸ hy₁.name_mem)
  have hother₁ : ∀ name ∈ d₁.names, name ≠ y₂.name := fun _ hm h => hn₂ (h ▸ hm)
  have hother₂ : ∀ name ∈ d₂.names, name ≠ y₁.name := fun _ hm h => hn₁ (h ▸ hm)
  obtain ⟨t₂₁, hr₂₁, hs₂₁⟩ := hs₀.transfer hd₁ hother₁ hs₂ (.concat xs y₂) hy₁ hs₁ hr₁
  obtain ⟨t₁₂, hr₁₂, hs₁₂⟩ := hs₀.transfer hd₂ hother₂ hs₁ (.concat xs y₁) hy₂ hs₂ hr₂
  obtain ⟨t, B, _, hr⟩ := visitAll_decls hpost t₁₂
  obtain ⟨zs, u, hru, hst, hsu⟩ := hs₁₂.transfer_all hpost hs₂₁ (Frame.Agree.exchange xs hne) hr
  have hboth := hr₀.visitAll_append
    (hr₁.visitAll_cons (hr₁₂.visitAll_cons (.visitAll_nil none t₁₂)))
  have hboth' := hr₀.visitAll_append
    (hr₂.visitAll_cons (hr₂₁.visitAll_cons (.visitAll_nil none t₂₁)))
  refine ⟨t₀, t₁, t₂, t, u, A, D₁, D₂, B, analyze_returns hr₀, ?_, ?_, ?_, ?_, ?_, ?_⟩
  · simpa using analyze_returns (hr₀.visitAll_append (hr₁.visitAll_cons (.visitAll_nil none t₁)))
  · simpa using analyze_returns (hr₀.visitAll_append (hr₂.visitAll_cons (.visitAll_nil none t₂)))
  · simpa using analyze_returns (hboth.visitAll_append hr)
  · simpa using analyze_returns (hboth'.visitAll_append hru)
  · rw [hst.bindings_eq, hsu.bindings_eq, hname₁, hname₂]
    exact Frame.exchanged_firsts hne (.refl [y₁]) (.refl [y₂]) xs zs
  · rw [Table.registrations, hst.registry.denoted_eq, Table.registrations,
      hsu.registry.denoted_eq, hname₁, hname₂]
    simp only [Frame.functions_append]
    exact Frame.exchanged_firsts hne List.filter_sublist List.filter_sublist _ _

theorem independent_declarations_commute_constant :
    let pre : List Node := [.varDecl 1 "x" (some "int") false .missing none]
    let f : Node := .funcDecl 2 "f" (some "int") [⟨2, "p", some "int"⟩]
      (.block 2 [.ret 3 (.call 3 "f" [.identifier 3 "y"])])
    let c : Node := .varDecl 4 "c" (some "int") true .missing none
    let post : List Node :=
      [.funcDecl 5 "main" none [] (.block 5 [.assign 6 "c" "=" (.call 6 "f" [.identifier 6 "x"])])]
    f.declaration?.map Declaration.name = some "f" ∧
    c.declaration?.map Declaration.name = some "c" ∧
    "f" ∉ c.names ∧ "c" ∉ f.names ∧ ∃ t u A D₁ D₂ B,
      (analyze (.program 1 (pre ++ [f, c] ++ post))).Returns .empty t (A ++ D₁ ++ D₂ ++ B) () ∧
      (analyze (.program 1 (pre ++ [c, f] ++ post))).Returns .empty u (A ++ D₂ ++ D₁ ++ B) () ∧
      Exchanged "f" "c" t.bindings u.bindings ∧
      Exchanged "f" "c" t.registrations u.registrations := by
  intro pre f c post
  have hpre : ∀ d ∈ pre, d.IsDecl := by simpa [pre] using IsDecl.varDecl .missing
  have hf : f.IsDecl := (isDecl_iff f).mp rfl
  have hc : c.IsDecl := (isDecl_iff c).mp rfl
  have hpost : ∀ d ∈ post, d.IsDecl := by
    intro d hd
    rw [List.mem_singleton.mp hd]
    exact (isDecl_iff _).mp rfl
  obtain ⟨t₀, t₁, t₂, t, u, A, D₁, D₂, B, -, -, -, ht, hu, hb, hr⟩ :=
    independent_declarations_commute hpre hpost hf hc rfl rfl (by decide) (by decide) 1
  exact ⟨rfl, rfl, by decide, by decide, t, u, A, D₁, D₂, B, ht, hu, hb, hr⟩

end MiniCheck
