import MiniCheck.Proofs.Positions
import Mathlib.Data.List.Forall2

/-!
# First declarations

What a program leaves in the global scope and in the registry. In both the first declaration of a
name stays. The scope counts every declaration, the registry only those of functions.
-/

namespace MiniCheck

open Pass Node

namespace Declaration

def isFunction : Declaration → Bool
  | .variable _ => false
  | .function _ => true

def asVariable? : Declaration → Option Variable
  | .variable v => some v
  | .function _ => none

/-- The declaration without what is noted about the body of a function. -/
def head : Declaration → Declaration
  | .variable v => .variable v
  | .function f => .function f.head

@[simp] theorem name_head (d : Declaration) : d.head.name = d.name := by
  cases d <;> rfl

@[simp] theorem isFunction_head (d : Declaration) : d.head.isFunction = d.isFunction := by
  cases d <;> rfl

@[simp] theorem asVariable?_head (d : Declaration) : d.head.asVariable? = d.asVariable? := by
  cases d <;> rfl

end Declaration

namespace Frame

def names (frame : Frame) : List String := frame.map Declaration.name

def functions (frame : Frame) : Frame := frame.filter Declaration.isFunction

/-- The declarations of names that are not `known` and that no earlier declaration has. -/
def firstsAfter (known : List String) : Frame → Frame
  | [] => []
  | d :: rest => (if d.name ∈ known then [] else [d]) ++ firstsAfter (known ++ [d.name]) rest

/-- The first declaration of every name, in the order of the text. -/
def firsts (frame : Frame) : Frame := frame.firstsAfter []

variable {frame : Frame}

private theorem names_append (frame rest : Frame) :
    names (frame ++ rest) = frame.names ++ rest.names :=
  List.map_append

theorem functions_append (frame rest : Frame) :
    functions (frame ++ rest) = frame.functions ++ rest.functions :=
  List.filter_append ..

private theorem functions_concat_variable (frame : Frame) (v : Variable) :
    functions (frame ++ [.variable v]) = frame.functions := by
  simp [functions, Declaration.isFunction]

theorem functions_concat_function (frame : Frame) (f : Function) :
    functions (frame ++ [.function f]) = frame.functions ++ [.function f] := by
  simp [functions, Declaration.isFunction]

private theorem mem_names_of_functions {name : String} (h : name ∈ frame.functions.names) :
    name ∈ frame.names := by
  obtain ⟨d, hd, rfl⟩ := List.mem_map.mp h
  exact List.mem_map_of_mem (List.mem_filter.mp hd).1

theorem firstsAfter_append (known : List String) (frame rest : Frame) :
    firstsAfter known (frame ++ rest) =
      frame.firstsAfter known ++ rest.firstsAfter (known ++ frame.names) := by
  induction frame generalizing known with
  | nil => simp [firstsAfter, names]
  | cons d frame ih => simp [firstsAfter, ih, names]

theorem firsts_concat (frame : Frame) (d : Declaration) :
    firsts (frame ++ [d]) = frame.firsts ++ if d.name ∈ frame.names then [] else [d] := by
  simp [firsts, firstsAfter_append, firstsAfter]

private theorem mem_names_firstsAfter (known : List String) (name : String) :
    name ∈ (frame.firstsAfter known).names ↔ name ∉ known ∧ name ∈ frame.names := by
  induction frame generalizing known with
  | nil => simp [firstsAfter, names]
  | cons d frame ih =>
    rw [firstsAfter, names_append, List.mem_append, ih]
    by_cases hd : d.name ∈ known <;> by_cases hn : name = d.name <;> simp [names, hd, hn]

private theorem mem_names_firsts (name : String) :
    name ∈ frame.firsts.names ↔ name ∈ frame.names := by
  simp [firsts, mem_names_firstsAfter]

private theorem map_head_firsts (frame : Frame) :
    frame.firsts.map Declaration.head = firsts (frame.map Declaration.head) := by
  have h : ∀ known, (frame.firstsAfter known).map Declaration.head =
      firstsAfter known (frame.map Declaration.head) := by
    induction frame with
    | nil => simp [firstsAfter]
    | cons d frame ih =>
      intro known
      by_cases hd : d.name ∈ known <;> simp [firstsAfter, ih, hd]
  exact h []

private theorem map_head_functions (frame : Frame) :
    frame.functions.map Declaration.head = functions (frame.map Declaration.head) := by
  simp [functions, List.filter_map, Function.comp_def]

end Frame

namespace Table

/-- What a symbol stands for, with the whole record of a function. -/
def meaning (t : Table) : Symbol → Option Declaration
  | .variable v => some (.variable v)
  | .function id => (t.record? id).map .function

/-- The entries stand for the declarations, in the same order. -/
def Lists (t : Table) (entries : List (String × Symbol)) (frame : Frame) : Prop :=
  List.Forall₂ (fun e d => e.1 = d.name ∧ t.meaning e.2 = some d) entries frame

/-- The entries with what they stand for. -/
def denoted (t : Table) (entries : List (String × Symbol)) : List (String × Option Declaration) :=
  entries.map fun e => (e.1, t.meaning e.2)

/-- The registered functions as symbols. -/
def registered (t : Table) : List (String × Symbol) :=
  t.registry.entries.map fun e => (e.1, .function e.2)

/-- The table of a program whose declarations up to here are `frame`. -/
structure Shows (t : Table) (frame : Frame) : Prop where
  enclosing : t.enclosing = []
  scope : t.Lists t.current.entries frame.firsts
  registry : t.Lists t.registered frame.functions.firsts

namespace Lists

variable {t u : Table} {entries : List (String × Symbol)} {frame : Frame}

private theorem mono (h : t.Lists entries frame)
    (hm : ∀ s d, t.meaning s = some d → u.meaning s = some d) : u.Lists entries frame :=
  h.imp fun _ _ he => ⟨he.1, hm _ _ he.2⟩

private theorem concat (h : t.Lists entries frame) {s : Symbol} {d : Declaration}
    (hs : t.meaning s = some d) : t.Lists (entries ++ [(d.name, s)]) (frame ++ [d]) :=
  List.rel_append h (.cons ⟨rfl, hs⟩ .nil)

private theorem map_fst (h : t.Lists entries frame) : entries.map Prod.fst = frame.names := by
  induction h with
  | nil => rfl
  | cons he _ ih => rw [List.map_cons, he.1, ih, Frame.names, Frame.names, List.map_cons]

theorem denoted_eq (h : t.Lists entries frame) :
    t.denoted entries = frame.map fun d => (d.name, some d) := by
  induction h with
  | nil => rfl
  | cons he _ ih =>
    rw [denoted] at ih ⊢
    rw [List.map_cons, he.1, he.2, ih, List.map_cons]

private theorem filterMap_variable (h : t.Lists entries frame) :
    ((entries.map Prod.snd).filterMap fun
      | .variable v => some v
      | .function _ => none) = frame.filterMap Declaration.asVariable? := by
  induction h with
  | nil => rfl
  | @cons e d es ds he _ ih =>
    obtain ⟨name, s⟩ := e
    cases s with
    | «variable» v =>
      obtain rfl : Declaration.variable v = d := by simpa [meaning] using he.2
      simp [Declaration.asVariable?, ih]
    | function id =>
      obtain ⟨f, -, rfl⟩ : ∃ f, t.record? id = some f ∧ Declaration.function f = d := by
        simpa [meaning] using he.2
      simpa [List.filterMap_cons, Declaration.asVariable?] using ih

end Lists

namespace Shows

variable {t : Table} {frame : Frame}

theorem empty : Table.empty.Shows [] := ⟨rfl, .nil, .nil⟩

private theorem depth (h : t.Shows frame) : t.depth = 1 := by
  rw [Table.depth, scopes, h.enclosing]
  rfl

theorem contains_current (h : t.Shows frame) (name : String) :
    t.current.contains name = true ↔ name ∈ frame.names := by
  rw [NameMap.contains_eq_true_iff, NameMap.keys, h.scope.map_fst, Frame.mem_names_firsts]

theorem contains_registry (h : t.Shows frame) (name : String) :
    t.registry.contains name = true ↔ name ∈ frame.functions.names := by
  have hk : t.registry.keys = t.registered.map Prod.fst := by
    simp [registered, NameMap.keys, Function.comp_def]
  rw [NameMap.contains_eq_true_iff, hk, h.registry.map_fst, Frame.mem_names_firsts]

private theorem bind (h : t.Shows frame) (v : Variable) :
    { t with current := Scope.bind t.current v }.Shows (frame ++ [Declaration.variable v]) := by
  refine ⟨h.enclosing, ?_, ?_⟩
  · rw [Frame.firsts_concat, Scope.bind]
    by_cases hv : v.name ∈ frame.names
    · rw [if_pos ((h.contains_current _).mpr hv), if_pos (by exact hv), List.append_nil]
      exact h.scope
    · rw [if_neg (mt (h.contains_current _).mp hv), if_neg (by exact hv)]
      exact h.scope.concat (s := .variable v) rfl
  · rw [Frame.functions_concat_variable]
    exact h.registry

theorem taken (h : t.Shows frame) {f : Function} (hf : t.registry.contains f.name = true) :
    t.Shows (frame ++ [.function f]) := by
  have hr := (h.contains_registry _).mp hf
  have hs := Frame.mem_names_of_functions hr
  refine ⟨h.enclosing, ?_, ?_⟩
  · rw [Frame.firsts_concat, if_pos (by exact hs), List.append_nil]
    exact h.scope
  · rw [Frame.functions_concat_function, Frame.firsts_concat, if_pos (by exact hr), List.append_nil]
    exact h.registry

theorem declare (h : t.Shows frame) {f : Function} (hf : t.registry.contains f.name = false) :
    (t.declare f).Shows (frame ++ [.function f]) := by
  have hm : ∀ s d, t.meaning s = some d → (t.declare f).meaning s = some d := by
    intro s d hs
    cases s with
    | «variable» v => exact hs
    | function id =>
      obtain ⟨g, hg, rfl⟩ := Option.map_eq_some_iff.mp hs
      have hlt : id < t.records.length := (List.getElem?_eq_some_iff.mp hg).1
      rw [meaning, record?, records_declare, List.getElem?_append_left hlt]
      exact hs
  have hnew : (t.declare f).meaning (.function t.nextId) = some (.function f) := by
    simp [meaning, record?, records_declare, nextId]
  have hr : ¬ f.name ∈ frame.functions.names := by
    rw [← h.contains_registry, hf]
    exact Bool.false_ne_true
  refine ⟨(enclosing_declare t f).trans h.enclosing, ?_, ?_⟩
  · rw [Frame.firsts_concat]
    by_cases hn : f.name ∈ frame.names
    · have hc : (t.declare f).current = t.current := by
        rw [Table.declare, if_pos ((h.contains_current _).mpr hn), registerFunction]
      rw [hc, if_pos (by exact hn), List.append_nil]
      exact h.scope.mono hm
    · have hc : (t.declare f).current = t.current.push f.name (.function t.nextId) := by
        have hn' := mt (h.contains_current _).mp hn
        rw [Table.declare, if_neg hn', defineFunction, if_neg hn']
      rw [hc, if_neg (by exact hn)]
      exact (h.scope.mono hm).concat hnew
  · have hc : (t.declare f).registered = t.registered ++ [(f.name, .function t.nextId)] := by
      rw [registered, registry_declare, NameMap.insert, if_neg (by simp [hf]), NameMap.push,
        List.map_append]
      rfl
    rw [hc, Frame.functions_concat_function, Frame.firsts_concat, if_neg (by exact hr)]
    exact (h.registry.mono hm).concat hnew

private theorem globalVariables (h : t.Shows frame) :
    t.globalVariables = frame.firsts.filterMap Declaration.asVariable? := by
  rw [Table.globalVariables, global, h.enclosing]
  exact h.scope.filterMap_variable

private theorem functions (h : t.Shows frame) :
    t.functions.map (fun e => (e.1, Declaration.function e.2)) =
      frame.functions.firsts.map fun d => (d.name, d) := by
  have hd := congrArg (List.filterMap fun e : String × Option Declaration =>
    e.2.map fun d => (e.1, d)) h.registry.denoted_eq
  simp only [denoted, registered, List.filterMap_map, Function.comp_def, Option.map_some,
    List.filterMap_eq_map'] at hd
  rw [← hd, Table.functions, List.map_filterMap]
  congr 1
  funext e
  simp [meaning, Function.comp_def]

end Shows

end Table

/-- `d` declares `x`. The flag of a function that calls itself is left open. -/
inductive Node.Declares : Node → Declaration → Prop
  | variable {d v} : d.declared? = some v → Declares d (.variable v)
  | function {line name returnText params body} (b : Bool) :
      Declares (.funcDecl line name returnText params body)
        (.function (functionRecord line name returnText params body b))

theorem Node.Declares.declaration? {d : Node} {x : Declaration} (h : d.Declares x) :
    d.declaration? = some x.head := by
  cases h with
  | «variable» hv => simp [Node.declaration?, hv, Declaration.head]
  | function => rfl

theorem filterMap_declaration? {decls : List Node} {frame : Frame}
    (h : List.Forall₂ Declares decls frame) :
    decls.filterMap Node.declaration? = frame.map Declaration.head := by
  induction h with
  | nil => rfl
  | cons hd _ ih => rw [List.filterMap_cons, hd.declaration?, ih, List.map_cons]

theorem functionNames_eq {decls : List Node} {frame : Frame}
    (h : List.Forall₂ Declares decls frame) : functionNames decls = frame.functions.names := by
  induction h with
  | nil => rfl
  | @cons d x ds xs hd _ ih =>
    have hone : functionNames [d] = Frame.names (Frame.functions [x]) := by
      cases hd with
      | «variable» hv =>
        cases d with
        | varDecl => rfl
        | _ => cases hv
      | function b => rfl
    rw [functionNames_cons, hone, ih, ← Frame.names_append, ← Frame.functions_append]
    rfl

namespace Table.Shows

variable {t u : Table} {frame : Frame} {fs : List Finding}

theorem after_variable {d : Node} {v : Variable} {type : Ty} (h : t.Shows frame) (hd : d.IsStmt)
    (hv : d.declared? = some v) (hr : (visit none d).Returns t u fs type) :
    u.Shows (frame ++ [Declaration.variable v]) := by
  obtain ⟨b, rfl⟩ := hr.of_stmt hd
  simp only [Table.declaring, hv, defineVariable_eq]
  exact h.bind v

theorem after_decl {d : Node} {type : Ty} (h : t.Shows frame) (hd : d.IsDecl)
    (hr : (visit none d).Returns t u fs type) : ∃ x, d.Declares x ∧ u.Shows (frame ++ [x]) := by
  cases hd with
  | varDecl hi => exact ⟨_, .variable rfl, h.after_variable (.varDecl hi) rfl hr⟩
  | @funcDecl line name returnText params body hs hb =>
    cases hc : t.registry.contains name with
    | true =>
      obtain ⟨rfl, -⟩ := hr.of_funcDecl_taken hc
      exact ⟨_, .function false, h.taken (by exact hc)⟩
    | false =>
      obtain ⟨gs, b, -, rfl, -⟩ := hr.of_funcDecl hs hb hc
      exact ⟨_, .function b, h.declare hc⟩

theorem after_decls {decls : List Node} {types : List Ty} (h : t.Shows frame)
    (hd : ∀ d ∈ decls, d.IsDecl) (hr : (visitAll none decls).Returns t u fs types) :
    ∃ xs, List.Forall₂ Declares decls xs ∧ u.Shows (frame ++ xs) := by
  induction decls generalizing t frame fs types with
  | nil =>
    obtain ⟨rfl, -⟩ := hr.of_visitAll_nil
    exact ⟨[], .nil, by rwa [List.append_nil]⟩
  | cons d decls ih =>
    obtain ⟨v, f₁, got, f₂, rest, h₁, h₂, -⟩ := hr.of_visitAll_cons
    obtain ⟨x, hx, hv⟩ := h.after_decl (hd d (by simp)) h₁
    obtain ⟨xs, hxs, hu⟩ := ih hv (fun e he => hd e (by simp [he])) h₂
    exact ⟨x :: xs, .cons hx hxs, by rwa [List.append_assoc] at hu⟩

end Table.Shows

/-- After the analysis of a program only the global scope is left. The global variables are those
whose declarations are the first ones of their names. The registered functions, in the order of the
registry and under their own names, are the first functions of their names, also where a variable
has the name. -/
theorem published_eq_firsts {line : Int} {decls : List Node}
    (hP : (Node.program line decls).IsProgram) :
    let frame : Frame := decls.filterMap Node.declaration?
    ∃ u fs, (analyze (.program line decls)).Returns .empty u fs () ∧ u.depth = 1 ∧
      u.globalVariables = frame.firsts.filterMap Declaration.asVariable? ∧
      u.registry.keys = u.functions.map Prod.fst ∧
      u.functions.map (fun e => (e.1, Declaration.function e.2.head)) =
        frame.functions.firsts.map fun d => (d.name, d) := by
  intro frame
  cases hP with
  | program hd =>
    obtain ⟨u, fs, types, hr⟩ := visitAll_decls hd .empty
    obtain ⟨xs, hxs, hu⟩ := Table.Shows.empty.after_decls hd hr
    rw [List.nil_append] at hu
    have hframe : frame = xs.map Declaration.head := filterMap_declaration? hxs
    refine ⟨u, fs, analyze_returns hr, hu.depth, ?_, ?_, ?_⟩
    · rw [hu.globalVariables, hframe, ← Frame.map_head_firsts, List.filterMap_map]
      congr 1
      funext d
      exact (Declaration.asVariable?_head d).symm
    · have hk := congrArg (List.map Prod.fst) hu.functions
      have hreg := hu.registry.map_fst
      simp only [List.map_map, Function.comp_def] at hk
      simp only [Table.registered, List.map_map, Function.comp_def] at hreg
      exact hreg.trans hk.symm
    · have hf := congrArg (List.map fun e : String × Declaration => (e.1, e.2.head)) hu.functions
      rw [List.map_map, List.map_map] at hf
      rw [hframe, ← Frame.map_head_functions, ← Frame.map_head_firsts, List.map_map]
      refine Eq.trans hf ?_
      simp [Function.comp_def]

theorem published_eq_firsts_hidden_function :
    let decls : List Node :=
      [.varDecl 1 "x" (some "int") true (.literal 1 "int" "1") none,
        .funcDecl 2 "x" none [⟨2, "p", some "int"⟩, ⟨2, "p", some "bool"⟩]
          (.block 2 [.varDecl 3 "y" (some "int") false .missing none]),
        .funcDecl 4 "f" (some "int") [] (.block 4 [.ret 4 (.literal 4 "int" "0")]),
        .varDecl 5 "f" (some "bool") false .missing none,
        .funcDecl 6 "x" (some "bool") [] (.block 6 []),
        .varDecl 7 "y" (some "string") false .missing none]
    (Node.program 1 decls).IsProgram ∧ ∃ u fs, (analyze (.program 1 decls)).Returns .empty u fs () ∧
      u.depth = 1 ∧
      u.globalVariables = [⟨"x", .int, 1, true, some "1"⟩, ⟨"y", .string, 7, false, none⟩] ∧
      u.functions.map (fun e => (e.1, Declaration.function e.2.head)) =
        [("x", .function (.declared "x" .void 2 [⟨"p", .int, 2, false, none⟩,
            ⟨"p", .bool, 2, false, none⟩])),
          ("f", .function (.declared "f" .int 4 []))] := by
  intro decls
  have hP : (Node.program 1 decls).IsProgram := by decide
  obtain ⟨u, fs, hr, hdepth, hvars, -, hfuns⟩ := published_eq_firsts hP
  exact ⟨hP, u, fs, hr, hdepth, hvars.trans rfl, hfuns.trans rfl⟩

end MiniCheck
