import MiniCheck.Proofs.Exchange
import MiniCheck.Proofs.Trail

/-!
# The main function

A program needs a main function, nothing but the main function may call it, and it may not do so
either. Where a call of it stands in the program decides which of three answers it gets. The trail
of the pass lists the calls that are answered.
-/

namespace MiniCheck

open Pass Node

namespace Table.SameFunctions

private theorem symm {t u : Table} (h : t.SameFunctions u) : u.SameFunctions t :=
  ⟨h.registry.symm, h.heads.symm⟩

private theorem openFunction (t : Table) (line : Int) (name : String) (returnText : Option String)
    (params : List Param) (body : Node) (b : Bool) :
    (t.declare (functionRecord line name returnText params body b)).SameFunctions
      (t.openFunction (Check.head line name returnText) (params.map Param.variable)) := by
  rw [openFunction_eq_enter]
  refine ⟨?_, ?_⟩
  · rw [registry_declare]
    exact registry_declare ..
  · rw [records_declare, List.map_append]
    change (t.declare _).records.map Function.head = _
    rw [records_declare, List.map_append]
    rfl

end Table.SameFunctions

section

variable {t u : Table} {fs : List Finding} {type : Ty}

/-- Inside of a declaration that is visited, the functions are known that are known after it, and
the function around is the one that is declared. -/
theorem trail_decl {d : Node} (hd : d.IsDecl) (hr : (visit none d).Returns t u fs type)
    {a : Arrival} (ha : a ∈ Visit.trail ⟨none, d, t⟩) :
    a = ⟨[], ⟨none, d, t⟩⟩ ∨
      u.SameFunctions a.visit.table ∧
      (a.visit.table.around a.visit.fn).map Function.name = d.function?.map Declaration.name ∧
      ∀ name ∈ functionNames [d], t.registry.contains name = false := by
  rcases Visit.mem_trail_iff.mp ha with rfl | ⟨i, n, b, hn, hb, rfl⟩
  · exact .inl rfl
  right
  cases hd with
  | @varDecl line name typeText isConst init initText hi =>
    obtain ⟨c, rfl⟩ := hr.of_stmt (.varDecl hi)
    have hpart : n = init ∧ i = 0 := by
      cases i with
      | zero => exact ⟨(Option.some.inj hn).symm, rfl⟩
      | succ i => cases hn
    obtain ⟨rfl, rfl⟩ := hpart
    obtain ⟨hfn, hsame⟩ := trail_stmt (.expr hi) _ b hb
    have hdecl : t.SameFunctions (t.declaring (.varDecl line name typeText isConst n initText)) :=
      .declaring t _
    refine ⟨hdecl.symm.trans hsame, ?_, List.forall_mem_nil _⟩
    change (b.visit.table.around b.visit.fn).map Function.name = none
    rw [hfn]
    rfl
  | @funcDecl line name returnText params body hs hb' =>
    cases hc : t.registry.contains name with
    | true =>
      have hnone : Visit.parts ⟨none, .funcDecl line name returnText params body, t⟩ = [] := by
        simp [Visit.parts, hc]
      rw [hnone] at hn
      cases hn
    | false =>
      obtain ⟨gs, c, -, rfl, -⟩ := hr.of_funcDecl hs hb' hc
      rw [Visit.parts_funcDecl hc] at hn
      rw [Visit.parts_funcDecl hc, Visit.opened_funcDecl hc] at hb
      have hstmt : n.IsStmt := hs.statements n (List.mem_of_getElem? hn)
      have hbefore : ∀ m ∈ body.statements.take i, m.IsStmt :=
        fun m hm => hs.statements m (List.mem_of_mem_take hm)
      obtain ⟨hfn, hsame⟩ := trail_stmt hstmt _ b hb
      have hinside := (Table.SameFunctions.tableAfter hbefore (some t.nextId)
        (t.openFunction (Check.head line name returnText) (params.map Param.variable))).trans hsame
      refine ⟨(Table.SameFunctions.openFunction t line name returnText params body c).trans
        hinside, ?_, ?_⟩
      · have hfn' : b.visit.fn = some t.nextId := hfn
        change (b.visit.table.around b.visit.fn).map Function.name = some name
        rw [hfn', hinside.around_name, Table.around_openFunction]
        rfl
      · intro other hm
        rw [← mem_functionNames_funcDecl.mp hm]
        exact hc

private theorem mem_functionNames_one {d : Node} {name : String} :
    name ∈ functionNames [d] ↔ d.function?.map Declaration.name = some name := by
  rw [functionNames, List.filterMap_cons, List.filterMap_nil]
  cases d.function? <;> simp [eq_comm]

private theorem isSome_registered?_decls {ds : List Node} {types : List Ty}
    (hd : ∀ d ∈ ds, d.IsDecl) (hr : (visitAll none ds).Returns .empty u fs types) (name : String) :
    (u.registered? name).isSome = true ↔ name ∈ functionNames ds := by
  obtain ⟨xs, hx, hu⟩ := Table.Shows.empty.after_decls hd hr
  rw [List.nil_append] at hu
  have hfind := congrArg Option.isSome (hu.registered?_eq name)
  rw [Option.isSome_map] at hfind
  rw [hfind, functionNames_eq hx, List.find?_isSome, Frame.names, List.mem_map]
  simp only [beq_iff_eq]

end

/-- What a call of the main function leads to. -/
inductive MainAnswer where
  | undefined
  | explicit
  | recursive
  deriving DecidableEq

/-- Where the main function calls itself nothing is found at the call. -/
def MainAnswer.findings (line : Int) : MainAnswer → List Finding
  | undefined => [⟨some line, .functionUndefined mainName⟩]
  | explicit => [⟨some line, .mainCalled⟩]
  | recursive => []

/-- The answer where the functions of `before` are declared before the call, and those of `upTo`
before the call or around it. -/
def MainAnswer.between (before upTo : List Node) : MainAnswer :=
  if mainName ∈ functionNames before then .explicit
  else if mainName ∈ functionNames upTo then .recursive
  else .undefined

/-- The answer to a call at a position in a program. -/
def mainAnswer (decls : List Node) (path : List Nat) : MainAnswer :=
  .between (decls.take (path.headD 0)) (decls.take (path.headD 0 + 1))

/-- The line of a call of the main function. -/
def Node.mainCall? : Node → Option Int
  | .call line name _ => if name = mainName then some line else none
  | _ => none

private theorem Node.mainCall?_eq_some {n : Node} {l : Int} (h : n.mainCall? = some l) :
    ∃ args, n = .call l mainName args := by
  cases n with
  | call line name args =>
    by_cases hn : name = mainName
    · subst hn
      simp only [mainCall?, if_true, Option.some.injEq] at h
      subst h
      exact ⟨args, rfl⟩
    · simp [mainCall?, hn] at h
  | _ => cases h

/-- The answer depends on whether the main function is known and whether it is the one around. -/
theorem Visit.early_mainCall {v : Visit} {l : Int} (h : v.node.mainCall? = some l) :
    let known := (v.table.registered? mainName).isSome
    let own := (v.table.around v.fn).any (·.isMain)
    v.early = (if known then if own then MainAnswer.recursive else .explicit
      else .undefined).findings l ∧ v.marks = (known && own) := by
  obtain ⟨fn, node, t⟩ := v
  obtain ⟨args, rfl⟩ := Node.mainCall?_eq_some h
  cases hr : t.registered? mainName with
  | none => simp [early, marks, hr, MainAnswer.findings]
  | some found =>
    cases ho : (t.around fn).any (·.isMain) with
    | true =>
      have ho' : (t.around fn).any (·.name == mainName) = true := ho
      simp [early, marks, hr, ho, ho', Check.mainCalls, MainAnswer.findings]
    | false =>
      have ho' : (t.around fn).any (·.name == mainName) = false := ho
      simp [early, marks, hr, ho, ho', Check.mainCalls, MainAnswer.findings]

section

variable {before : List Node} {d : Node} {t : Table} {gs : List Finding} {types : List Ty}

private theorem forall_mem_concat {p : Node → Prop} (hbefore : ∀ e ∈ before, p e) (hd : p d) :
    ∀ e ∈ before ++ [d], p e :=
  List.forall_mem_append.mpr ⟨hbefore, List.forall_mem_singleton.mpr hd⟩

private theorem early_inside (hbefore : ∀ e ∈ before, e.IsDecl) (hd : d.IsDecl)
    (ht : (visitAll none before).Returns .empty t gs types) {a : Arrival} {l : Int}
    (ha : a ∈ Visit.trail ⟨none, d, t⟩) (hc : a.visit.node.mainCall? = some l) :
    a.visit.early = (MainAnswer.between before (before ++ [d])).findings l ∧
      (a.visit.marks = true ↔ MainAnswer.between before (before ++ [d]) = .recursive) := by
  obtain ⟨u, fs, type, hr⟩ := visit_decl hd t
  rcases trail_decl hd hr ha with rfl | ⟨hsame, haround, hfresh⟩
  · cases hd <;> cases hc
  obtain ⟨hearly, hmarks⟩ := Visit.early_mainCall hc
  have hknown : (a.visit.table.registered? mainName).isSome = true ↔
      mainName ∈ functionNames before ∨ mainName ∈ functionNames [d] := by
    rw [hsame.isSome_registered?, isSome_registered?_decls (forall_mem_concat hbefore hd)
      (ht.visitAll_append hr.visitAll_one), functionNames_append, List.mem_append]
  have hown : (a.visit.table.around a.visit.fn).any (·.isMain) = true ↔
      mainName ∈ functionNames [d] := by
    rw [mem_functionNames_one, ← haround]
    cases a.visit.table.around a.visit.fn <;> simp [Function.isMain]
  rw [hearly, hmarks, MainAnswer.between]
  simp only [functionNames_append, List.mem_append]
  by_cases hm : mainName ∈ functionNames [d]
  · have hnew : mainName ∉ functionNames before := by
      intro hb
      have hcon := (contains_registry_decls hbefore ht mainName).mpr (.inr hb)
      rw [hfresh mainName hm] at hcon
      cases hcon
    simp [hknown, hown, hm, hnew]
  · by_cases hb : mainName ∈ functionNames before
    · simp [hknown, hown, hm, hb]
    · simp [hknown, hown, hm, hb]

/-- Whether the main function is marked as recursive. -/
def Table.mainMarked (t : Table) : Bool := (t.registered? mainName).any (·.2.isRecursive)

/-- Whether the visit is of a call by which the main function marks itself. -/
def Visit.marksMain (v : Visit) : Bool := v.node.mainCall?.isSome && v.marks

def Finding.isMainRecursive (f : Finding) : Bool := f.violation = .mainRecursive

private theorem countP_eq_zero {fs : List Finding} (h : ∀ f ∈ fs, f.violation.stage ≠ .closing) :
    fs.countP Finding.isMainRecursive = 0 := by
  rw [List.countP_eq_zero]
  intro f hf hm
  have hv : f.violation = .mainRecursive := of_decide_eq_true hm
  apply h f hf
  rw [hv]
  rfl

private theorem countP_unfinished (f : Function) (line : Int) (name : String) (type : Ty) :
    (Check.unfinished (some f) line name type).countP Finding.isMainRecursive =
      (decide (name = mainName) && f.isRecursive).toNat := by
  have hreturn : ∀ c : Prop, [Decidable c] →
      (if c then [(⟨some line, .returnMissing name type⟩ : Finding)] else []).countP
        Finding.isMainRecursive = 0 := by
    intro c _
    split <;> rfl
  rw [Check.unfinished, List.countP_append, hreturn, Nat.zero_add]
  by_cases hn : name = mainName
  · cases hf : f.isRecursive <;> simp [hn, hf, Finding.isMainRecursive]
  · simp [hn]

/-- A function that is new marks its record along its trail, and asks at its end for what it needs.
-/
theorem funcDecl_closes {line : Int} {name : String} {returnText : Option String}
    {params : List Param} {body : Node} {u : Table} {fs : List Finding} {type : Ty}
    (hs : body.IsStmt) (hb : body.isBody) (hc : t.registry.contains name = false)
    (hr : (visit none (.funcDecl line name returnText params body)).Returns t u fs type) :
    ∃ f, u = t.declare f ∧ f.name = name ∧
      f.isRecursive =
        (Visit.visits ⟨none, .funcDecl line name returnText params body, t⟩).any Visit.marks ∧
      fs.countP Finding.isMainRecursive = (decide (name = mainName) && f.isRecursive).toNat := by
  obtain ⟨gs, b, hbody, rfl, rfl, -⟩ := hr.of_funcDecl hs hb hc
  obtain ⟨types, hall⟩ := hbody.of_visitBody hb
  have hrec : (functionRecord line name returnText params body b).isRecursive = b :=
    Bool.false_or b
  refine ⟨_, rfl, rfl, ?_, ?_⟩
  · have hmarks := recursive?_each (fun s hm => recursive?_stmt (hs.statements s hm)) hall
    have hend := t.record?_openFunction (Check.head line name returnText)
      (params.map Param.variable) body.statements body.notes b
    rw [Table.recursive?, Table.around, Option.bind_some, hend, Table.recursive?,
      Table.around_openFunction] at hmarks
    rw [hrec, Visit.visits_eq, List.any_cons, Visit.parts_funcDecl hc, Visit.opened_funcDecl hc]
    simpa [Function.collect, Check.head, Function.declared, Visit.marks, Visit.inner] using hmarks
  · have hearly := Visit.early_ne_closing ⟨none, .funcDecl line name returnText params body, t⟩
    have hgs : ∀ f ∈ gs, f.Within :=
      (visitAll_reports fun s hm => stmt_reports_within (hs.statements s hm)).of_returns hall
    rw [Visit.early_funcDecl hc] at hearly
    rw [← List.append_assoc, List.countP_append, countP_eq_zero hearly, List.countP_append,
      countP_eq_zero fun f hf => (hgs f hf).2.1, countP_unfinished, Nat.zero_add, Nat.zero_add]

/-- A visit inside of a declaration marks the function that is declared, or none. -/
theorem marks_inside {u : Table} {fs : List Finding} {type : Ty} (hd : d.IsDecl)
    (hr : (visit none d).Returns t u fs type) {a : Arrival} (ha : a ∈ Visit.trail ⟨none, d, t⟩)
    (hm : a.visit.marks = true) : a.visit.marksMain = true ↔ mainName ∈ functionNames [d] := by
  rcases trail_decl hd hr ha with rfl | ⟨-, haround, -⟩
  · cases hd <;> cases hm
  rw [mem_functionNames_one, ← haround]
  obtain ⟨path, fn, node, w⟩ := a
  cases node with
  | call line name args =>
    obtain ⟨-, hself⟩ := Bool.and_eq_true_iff.mp hm
    cases hf : w.around fn with
    | none =>
      rw [hf] at hself
      cases hself
    | some f =>
      rw [hf] at hself
      have hname : f.name = name := eq_of_beq hself
      by_cases hn : name = mainName
      · subst hn
        simpa [Visit.marksMain, mainCall?, hname] using hm
      · simp [Visit.marksMain, mainCall?, hname, hn]
  | _ => cases hm

private theorem any_marksMain {u : Table} {fs : List Finding} {type : Ty} (hd : d.IsDecl)
    (hr : (visit none d).Returns t u fs type) :
    (Visit.visits ⟨none, d, t⟩).any Visit.marksMain =
      (decide (mainName ∈ functionNames [d]) && (Visit.visits ⟨none, d, t⟩).any Visit.marks) := by
  rw [Bool.eq_iff_iff, Bool.and_eq_true_iff, decide_eq_true_iff, Visit.visits, List.any_map,
    List.any_map, List.any_eq_true, List.any_eq_true]
  constructor
  · rintro ⟨a, ha, hm⟩
    have hmarks : a.visit.marks = true := (Bool.and_eq_true_iff.mp hm).2
    exact ⟨(marks_inside hd hr ha hmarks).mp hm, a, ha, hmarks⟩
  · rintro ⟨hmain, a, ha, hmarks⟩
    exact ⟨a, ha, (marks_inside hd hr ha hmarks).mpr hmain⟩

private theorem Table.mainMarked_declare_main {f : Function} (hname : f.name = mainName) :
    (t.declare f).mainMarked = f.isRecursive := by
  have hreg := t.registered?_declare f
  rw [hname] at hreg
  rw [mainMarked, hreg]
  rfl

private theorem mainMarked_declare_other {f : Function} {fs : List Finding} {type : Ty}
    (hbefore : ∀ e ∈ before, e.IsDecl) (hd : d.IsDecl)
    (ht : (visitAll none before).Returns .empty t gs types)
    (hr : (visit none d).Returns t (t.declare f) fs type)
    (hc : t.registry.contains f.name = false) (hn : mainName ∉ functionNames [d]) :
    (t.declare f).mainMarked = t.mainMarked := by
  rw [Table.mainMarked, Table.mainMarked]
  cases hm : t.registered? mainName with
  | some found => rw [Table.registered?_declare_of_registered hc hm]
  | none =>
    have hunknown := isSome_registered?_decls hbefore ht mainName
    have hlater := isSome_registered?_decls (forall_mem_concat hbefore hd)
      (ht.visitAll_append hr.visitAll_one) mainName
    rw [hm] at hunknown
    rw [functionNames_append, List.mem_append, ← hunknown] at hlater
    cases hreg : (t.declare f).registered? mainName with
    | none => rfl
    | some found => simp [hreg, hn] at hlater

/-- The main function is marked along the trail, and what it may not do is found once. -/
theorem mainMarked_decl {u : Table} {fs : List Finding} {type : Ty}
    (hbefore : ∀ e ∈ before, e.IsDecl) (hd : d.IsDecl)
    (ht : (visitAll none before).Returns .empty t gs types)
    (hr : (visit none d).Returns t u fs type) :
    u.mainMarked = (t.mainMarked || (Visit.visits ⟨none, d, t⟩).any Visit.marksMain) ∧
      t.mainMarked.toNat + fs.countP Finding.isMainRecursive = u.mainMarked.toNat := by
  rw [any_marksMain hd hr]
  cases hd with
  | @varDecl line name typeText isConst init initText hi =>
    have hwithin := (stmt_reports_within (.varDecl hi)).of_returns hr
    have hcount := countP_eq_zero fun f hf => (hwithin f hf).2.1
    have hsame : u.mainMarked = t.mainMarked := by
      obtain ⟨b, rfl⟩ := hr.of_stmt (.varDecl hi)
      simp only [Table.declaring, declared?, Table.defineVariable_eq]
      rfl
    have hmain : mainName ∉ functionNames [.varDecl line name typeText isConst init initText] :=
      List.not_mem_nil
    rw [hsame, hcount, decide_eq_false hmain, Bool.false_and, Bool.or_false]
    exact ⟨rfl, rfl⟩
  | @funcDecl line name returnText params body hs hb =>
    cases hc : t.registry.contains name with
    | true =>
      obtain ⟨rfl, rfl, -⟩ := hr.of_funcDecl_taken hc
      have hvisits : Visit.visits ⟨none, .funcDecl line name returnText params body, u⟩ =
          [⟨none, .funcDecl line name returnText params body, u⟩] := by
        rw [Visit.visits_eq]
        simp [Visit.parts, hc, trailEach]
      rw [hvisits]
      simp [Visit.marks, Finding.isMainRecursive]
    | false =>
      obtain ⟨f, rfl, hname, hrec, hcount⟩ := funcDecl_closes hs hb hc hr
      rw [hcount, ← hrec]
      by_cases hn : name = mainName
      · have hold : t.mainMarked = false := by
          have hnone : t.registry.find? mainName = none := by
            rw [hn] at hc
            exact Option.not_isSome_iff_eq_none.mp (Bool.eq_false_iff.mp hc)
          rw [Table.mainMarked, Table.registered?_eq, hnone]
          rfl
        rw [hold, Table.mainMarked_declare_main (hname.trans hn)]
        simp [mem_functionNames_funcDecl, hn]
      · have hother : mainName ∉ functionNames [.funcDecl line name returnText params body] :=
          fun hm => hn (mem_functionNames_funcDecl.mp hm)
        rw [mainMarked_declare_other hbefore (.funcDecl hs hb) ht hr (hname ▸ hc) hother]
        simp [hother, hn]

private theorem mainMarked_decls {ds : List Node} {u : Table} {fs : List Finding} {types' : List Ty}
    (hbefore : ∀ e ∈ before, e.IsDecl) (hd : ∀ d ∈ ds, d.IsDecl)
    (ht : (visitAll none before).Returns .empty t gs types)
    (hr : (visitAll none ds).Returns t u fs types') :
    u.mainMarked = (t.mainMarked ||
        ((trailEach none ds t).flatMap (·.map Arrival.visit)).any Visit.marksMain) ∧
      t.mainMarked.toNat + fs.countP Finding.isMainRecursive = u.mainMarked.toNat := by
  induction ds generalizing before t gs types fs types' with
  | nil =>
    obtain ⟨rfl, rfl, -⟩ := hr.of_visitAll_nil
    simp [trailEach]
  | cons d ds ih =>
    obtain ⟨w, f₁, got, f₂, rest, h₁, h₂, rfl, -⟩ := hr.of_visitAll_cons
    have hd₁ : d.IsDecl := hd d (by simp)
    obtain ⟨hmark, hcount⟩ := mainMarked_decl hbefore hd₁ ht h₁
    obtain ⟨hmarks, hcounts⟩ := ih (forall_mem_concat hbefore hd₁) (fun e he => hd e (by simp [he]))
      (ht.visitAll_append h₁.visitAll_one) h₂
    refine ⟨?_, ?_⟩
    · rw [hmarks, hmark, trailEach_cons, h₁.run_table, List.flatMap_cons, List.any_append,
        Bool.or_assoc]
      rfl
    · rw [List.countP_append]
      omega

end

/-- Whether the finding is the answer to a call of the main function. -/
def Finding.answersMainCall (f : Finding) : Bool :=
  f.violation = .mainCalled ∨ f.violation = .functionUndefined mainName

private theorem filter_findings (answer : MainAnswer) (l : Int) :
    (answer.findings l).filter Finding.answersMainCall = answer.findings l := by
  cases answer <;> rfl

private theorem filter_early {v : Visit} (h : v.node.mainCall? = none) :
    v.early.filter Finding.answersMainCall = [] := by
  rw [List.filter_eq_nil_iff]
  intro f hf hp
  obtain ⟨site, hsite, -, hstage⟩ := v.early_at f hf
  have hcall : site = .call := by
    rcases of_decide_eq_true hp with hv | hv
    · rw [hv] at hstage
      exact (Stage.opening.inj hstage).symm
    · rw [hv] at hstage
      exact (Stage.opening.inj hstage).symm
  subst hcall
  obtain ⟨fn, node, t⟩ := v
  cases node with
  | call line name args =>
    have hn : name ≠ mainName := by
      intro hn
      simp [mainCall?, hn] at h
    cases hr : (t.registered? name).isSome with
    | true => simp [Visit.early, hr, Check.mainCalls, hn] at hf
    | false =>
      simp only [Visit.early, hr, Bool.false_eq_true, if_false, List.mem_singleton] at hf
      simp [hf, Finding.answersMainCall, hn] at hp
  | _ => cases hsite

private theorem filter_openings (fs : List Finding) :
    (openings fs).filter Finding.answersMainCall = fs.filter Finding.answersMainCall := by
  apply filter_filter_of_imp
  intro f hp
  rcases of_decide_eq_true hp with hv | hv
  · rw [hv]
    rfl
  · rw [hv]
    rfl

section

variable {line : Int} {decls : List Node}

private theorem early_program (hd : ∀ d ∈ decls, d.IsDecl) {a : Arrival} {l : Int}
    (ha : a ∈ Visit.trail ⟨none, .program line decls, .empty⟩)
    (hc : a.visit.node.mainCall? = some l) :
    a.visit.early = (mainAnswer decls a.path).findings l ∧
      (a.visit.marks = true ↔ mainAnswer decls a.path = .recursive) := by
  rcases Visit.mem_trail_iff.mp ha with rfl | ⟨i, d, b, hi, hb, rfl⟩
  · cases hc
  have hi' : decls[i]? = some d := hi
  have hbefore : ∀ e ∈ decls.take i, e.IsDecl := fun e he => hd e (List.mem_of_mem_take he)
  obtain ⟨t, gs, types, ht⟩ := visitAll_decls hbefore .empty
  have htable : tableAfter none (decls.take i) .empty = t := ht.tableAfter_eq
  have hupTo : decls.take (i + 1) = decls.take i ++ [d] := by
    rw [List.take_add_one, hi']
    rfl
  change b ∈ Visit.trail ⟨none, d, tableAfter none (decls.take i) .empty⟩ at hb
  rw [htable] at hb
  have hin := early_inside hbefore (hd d (List.mem_of_getElem? hi')) ht hb hc
  rw [← hupTo] at hin
  exact hin

private theorem decl_reports_line {d : Node} (hd : d.IsDecl) :
    (visit none d).Reports fun f => f.line.isSome = true := by
  intro t f hf
  obtain ⟨u, fs, type, hr⟩ := visit_decl hd t
  rw [hr] at hf
  cases hd with
  | varDecl hi => exact ((stmt_reports_within (.varDecl hi)).of_returns hr f hf).1
  | @funcDecl line name returnText params body hs hb =>
    cases hc : t.registry.contains name with
    | true =>
      obtain ⟨-, rfl, -⟩ := hr.of_funcDecl_taken hc
      rw [List.mem_singleton.mp hf]
      rfl
    | false =>
      obtain ⟨gs, b, hbody, -, rfl, -⟩ := hr.of_funcDecl hs hb hc
      obtain ⟨types, hall⟩ := hbody.of_visitBody hb
      have hgs : ∀ f ∈ gs, f.Within :=
        (visitAll_reports fun s hm => stmt_reports_within (hs.statements s hm)).of_returns hall
      have hearly := Visit.early_at ⟨none, .funcDecl line name returnText params body, t⟩ f
      rw [Visit.early_funcDecl hc] at hearly
      rw [← List.append_assoc] at hf
      rcases List.mem_append.mp hf with hf | hf
      · obtain ⟨site, -, hline, -⟩ := hearly hf
        exact hline
      rcases List.mem_append.mp hf with hf | hf
      · exact (hgs f hf).1
      · exact (Check.unfinished_at _ _ _ _ f hf).1

end

private theorem lineless_last {ds : List Diagnostic} (last : Diagnostic) (hlast : last.line = none)
    (h : ∀ d ∈ ds, d.line.isSome = true) (c : Prop) [Decidable c] :
    let all := ds ++ if c then [] else [last]
    (last ∈ all ↔ ¬ c) ∧ all.count last ≤ 1 ∧ (last ∈ all → all.getLast? = some last) ∧
      ∀ d ∈ all, d.line = none → d = last := by
  have hno : last ∉ ds := by
    intro hm
    have hline := h last hm
    rw [hlast] at hline
    cases hline
  have hlines : ∀ d ∈ ds, d.line ≠ none := by
    intro d hm hline
    have hd := h d hm
    rw [hline] at hd
    cases hd
  by_cases hc : c
  · simpa [hc, hno, List.count_eq_zero_of_not_mem] using
      fun d hm hline => absurd hline (hlines d hm)
  · simpa [hc, List.count_eq_zero_of_not_mem hno, or_imp, forall_and] using
      fun d hm hline => absurd hline (hlines d hm)

/-- The main function of a program. If no function has its name, which a variable may have, then
that is the last finding, the only one without a line and the only one of its kind. A call of the
main function that is visited gets the answer of its position: before the first declaration of the
main function it is not defined, after it a call is forbidden, and inside of it the call marks the
function and nothing else is found at the call. If the function is marked, then it is found once
that it may not be recursive, and otherwise never. Calls that are not visited are below a node whose
parts are not visited. -/
theorem main_protocol {line : Int} {decls : List Node}
    (hP : (Node.program line decls).IsProgram) :
    let trail := Visit.trail ⟨none, .program line decls, .empty⟩
    let missing : Diagnostic := ⟨none, "Function 'main' is missing."⟩
    ∃ u fs ds, (analyze (.program line decls)).Returns .empty u fs () ∧
      ds = (fs ++ (missingMain u).toList).map Finding.diagnostic ∧
      (missing ∈ ds ↔ mainName ∉ functionNames decls) ∧ ds.count missing ≤ 1 ∧
      (missing ∈ ds → ds.getLast? = some missing) ∧ (∀ d ∈ ds, d.line = none → d = missing) ∧
      (∀ a ∈ trail, ∀ l, a.visit.node.mainCall? = some l →
        a.visit.early = (mainAnswer decls a.path).findings l ∧
        (a.visit.marks = true ↔ mainAnswer decls a.path = .recursive)) ∧
      fs.filter Finding.answersMainCall = (trail.flatMap fun a =>
        a.visit.node.mainCall?.elim [] fun l => (mainAnswer decls a.path).findings l) ∧
      (∀ path l args, (Node.program line decls).node? path = some (.call l mainName args) →
        (∃ a ∈ trail, a.path = path ∧ a.visit.node = .call l mainName args ∧
          ∀ b ∈ trail, b.path = path → b = a) ∨
        ∃ a ∈ trail, ∃ i rest, path = a.path ++ i :: rest ∧ a.visit.parts = []) ∧
      (u.mainMarked = true ↔
        ∃ a ∈ trail, a.visit.node.mainCall?.isSome ∧ mainAnswer decls a.path = .recursive) ∧
      fs.countP (·.violation = .mainRecursive) = if u.mainMarked then 1 else 0 := by
  intro trail missing
  cases hP with
  | program hd =>
    obtain ⟨u, fs, types, hr⟩ := visitAll_decls hd .empty
    have hlines : ∀ f ∈ fs, f.line.isSome = true :=
      (visitAll_reports fun d hm => decl_reports_line (hd d hm)).of_returns hr
    obtain ⟨hmarked, hcount⟩ := mainMarked_decls (List.forall_mem_nil _) hd
      (.visitAll_nil none .empty) hr
    have hmissing : (missingMain u).toList.map Finding.diagnostic =
        if mainName ∈ functionNames decls then [] else [missing] := by
      have hreg := contains_registry_decls hd hr mainName
      by_cases hm : mainName ∈ functionNames decls
      · rw [missingMain, if_pos (hreg.mpr (.inr hm)), if_pos hm]
        rfl
      · have hnot : ¬ u.registry.contains mainName = true :=
          fun h => (hreg.mp h).elim Bool.false_ne_true hm
        rw [missingMain, if_neg hnot, if_neg hm]
        rfl
    have hsome : ∀ d ∈ fs.map Finding.diagnostic, d.line.isSome = true := by
      intro d hm
      obtain ⟨f, hf, rfl⟩ := List.mem_map.mp hm
      exact hlines f hf
    obtain ⟨hiff, honce, hlast, honly⟩ :=
      lineless_last missing rfl hsome (mainName ∈ functionNames decls)
    rw [← hmissing, ← List.map_append] at hiff honce hlast honly
    refine ⟨u, fs, _, analyze_returns hr, rfl, hiff, honce, hlast, honly, ?_, ?_, ?_, ?_, ?_⟩
    · exact fun a ha l hc => early_program hd ha hc
    · rw [← filter_openings, openings_program hd hr, Visit.visits, List.flatMap_map,
        List.filter_flatMap]
      apply List.flatMap_congr
      intro a ha
      cases hc : a.visit.node.mainCall? with
      | none => exact filter_early hc
      | some l =>
        rw [(early_program hd ha hc).1, filter_findings]
        rfl
    · intro path l args hnode
      obtain ⟨a, ha, rfl | hbelow⟩ := Visit.trail_covers (v := ⟨none, _, .empty⟩) hnode
      · have hat := Visit.node?_of_mem_trail ha
        rw [hnode, Option.some.injEq] at hat
        exact .inl ⟨a, ha, rfl, hat.symm, fun b hb hpath => Visit.eq_of_path_eq hb ha hpath⟩
      · exact .inr ⟨a, ha, hbelow⟩
    · have hvisits : u.mainMarked =
          (Visit.visits ⟨none, .program line decls, .empty⟩).any Visit.marksMain := by
        rw [hmarked, Visit.visits_eq, List.any_cons]
        rfl
      rw [hvisits, Visit.visits, List.any_map, List.any_eq_true]
      constructor
      · rintro ⟨a, ha, hm⟩
        obtain ⟨hcall, hmarks⟩ := Bool.and_eq_true_iff.mp hm
        obtain ⟨l, hc⟩ := Option.isSome_iff_exists.mp hcall
        exact ⟨a, ha, hcall, (early_program hd ha hc).2.mp hmarks⟩
      · rintro ⟨a, ha, hcall, hanswer⟩
        obtain ⟨l, hc⟩ := Option.isSome_iff_exists.mp hcall
        exact ⟨a, ha, Bool.and_eq_true_iff.mpr ⟨hcall, (early_program hd ha hc).2.mpr hanswer⟩⟩
    · have hzero : Table.empty.mainMarked.toNat = 0 := rfl
      rw [hzero, Nat.zero_add] at hcount
      cases hm : u.mainMarked with
      | true =>
        rw [hm] at hcount
        exact hcount
      | false =>
        rw [hm] at hcount
        exact hcount

/-- A variable has the name of the main function, which is called too early, declared, called from
inside of itself and once more afterwards. -/
theorem main_protocol_called_everywhere :
    let decls : List Node :=
      [.varDecl 1 "main" (some "int") false (.call 1 "main" []) none,
        .funcDecl 2 "main" none [] (.block 2 [.callStmt 3 (.call 3 "main" [.call 4 "main" []])]),
        .funcDecl 5 "main" none [] (.block 5 [.callStmt 6 (.call 6 "main" [])]),
        .funcDecl 7 "f" none [] (.block 7 [.callStmt 8 (.call 8 "main" [])])]
    (Node.program 1 decls).IsProgram ∧ ∃ u fs,
      (analyze (.program 1 decls)).Returns .empty u fs () ∧
      fs.filter Finding.answersMainCall =
        [⟨some 1, .functionUndefined mainName⟩, ⟨some 8, .mainCalled⟩] ∧
      u.mainMarked = true ∧ fs.countP (·.violation = .mainRecursive) = 1 ∧
      ⟨none, "Function 'main' is missing."⟩ ∉
        (fs ++ (missingMain u).toList).map Finding.diagnostic := by
  intro decls
  have hP : (Node.program 1 decls).IsProgram := by decide
  obtain ⟨u, fs, ds, hr, rfl, hmissing, -, -, -, -, hcalls, -, hmarked, hcount⟩ := main_protocol hP
  have hinside : (Visit.trail ⟨none, .program 1 decls, .empty⟩).any (fun a =>
      a.visit.node.mainCall?.isSome && decide (mainAnswer decls a.path = .recursive)) = true := by
    decide +kernel
  have hmark : u.mainMarked = true := by
    obtain ⟨a, ha, hm⟩ := List.any_eq_true.mp hinside
    obtain ⟨hcall, hanswer⟩ := Bool.and_eq_true_iff.mp hm
    exact hmarked.mpr ⟨a, ha, hcall, of_decide_eq_true hanswer⟩
  have hmain : mainName ∈ functionNames decls := by decide
  exact ⟨hP, u, fs, hr, hcalls.trans (by decide +kernel), hmark, hcount.trans (if_pos hmark),
    fun h => hmissing.mp h hmain⟩

end MiniCheck
