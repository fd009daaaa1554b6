import Mathlib.Algebra.GroupWithZero.Nat
import MiniCheck.Listing
import MiniCheck.Proofs.FeedLines
import MiniCheck.Proofs.Origins

/-!
# Lines of listings

The listings of variables and functions are made of lines, and a reader splits them at line feeds.
Where the names of a program hold none, the lines that come back are those that went in, except that
the text of an initializer is written as it stands: each line feed in it breaks its line in two.
-/

namespace MiniCheck

open Node

open Text

namespace Listing

private theorem length_feedLines_ofLines {lines : List String} (hne : lines ≠ []) :
    (feedLines (ofLines lines)).length = lines.length + (lines.map feeds).sum := by
  rw [length_feedLines]
  induction lines with
  | nil => exact absurd rfl hne
  | cons line rest ih =>
    cases rest with
    | nil => simp [ofLines, Nat.add_comm]
    | cons next rest =>
      have hjoin : ofLines (line :: next :: rest) = line ++ ("\n" ++ ofLines (next :: rest)) := by
        simp [ofLines, String.append_assoc]
      have hrest := ih (List.cons_ne_nil _ _)
      have hone : feeds "\n" = 1 := rfl
      rw [hjoin, feeds_append, feeds_append, hone, List.length_cons, List.map_cons, List.sum_cons]
      omega

/-- The lines come back exactly if none of them holds a line feed. -/
theorem feedLines_ofLines_iff {lines : List String} (hne : lines ≠ []) :
    feedLines (ofLines lines) = lines ↔ (lines.map feeds).sum = 0 := by
  constructor
  -- The number of lines alone tells that there is no line feed in them.
  · intro h
    have hlength := length_feedLines_ofLines hne
    rw [h] at hlength
    omega
  · intro h
    refine feedLines_intercalate hne fun line hline => List.count_eq_zero.mp ?_
    exact List.sum_eq_zero_iff_forall_eq_nat.mp h _ (List.mem_map_of_mem hline)

private theorem length_itemLines (items : List String) :
    (itemLines items).length = max 1 items.length := by
  cases items with
  | nil => rfl
  | cons item items =>
    rw [itemLines, if_neg (by simp), List.length_map, List.length_cons]
    omega

private theorem sum_feeds_itemLines (items : List String) :
    ((itemLines items).map feeds).sum = (items.map feeds).sum := by
  have hindent : ∀ item, feeds ("    " ++ item) = feeds item := by
    intro item
    have hblank : feeds "    " = 0 := rfl
    rw [feeds_append, hblank, Nat.zero_add]
  cases items with
  | nil => rfl
  | cons item items =>
    rw [itemLines, if_neg (by simp), List.map_map]
    congr 2
    funext item
    exact hindent item

/-- The line feeds in the text of the initializer. -/
def initFeeds (v : Variable) : Nat := feeds (initLabel v.initText)

private theorem feeds_typeName (type : Ty) : feeds type.name = 0 := by
  cases type <;> rfl

private theorem feeds_yesNo (flag : Bool) : feeds (yesNo flag) = 0 := by
  cases flag <;> rfl

private theorem feeds_globalLine (v : Variable) :
    feeds (globalLine v) = feeds v.name + initFeeds v := by
  have hconst : feeds (constLabel v.isConst) = 0 := by
    cases v.isConst <;> rfl
  simp (disch := decide) only [globalLine, toString, feeds_append, feeds_typeName, hconst,
    feeds_eq_zero, initFeeds]
  omega

private theorem feeds_controlText (c : Control) : feeds c.text = 0 := by
  have hkeyword : feeds c.kind.keyword = 0 := by
    cases c.kind <;> rfl
  have hline : feeds ", line " = 0 := rfl
  rw [Control.text, feeds_append, feeds_append, hkeyword, hline, feeds_toString]

private theorem length_functionLines (f : Function) :
    (functionLines f).length =
      7 + max 1 f.parameters.length + max 1 f.locals.length + max 1 f.controls.length := by
  simp only [functionLines, List.length_append, List.length_cons, List.length_nil,
    length_itemLines, List.length_map]
  omega

/-- The lines of a function hold the line feeds of its names and of the initializers of its
locals. -/
theorem sum_feeds_functionLines (f : Function) :
    ((functionLines f).map feeds).sum =
      feeds f.name + (f.parameters.map fun p => feeds p.name).sum +
        (f.locals.map fun v => feeds v.name + initFeeds v).sum := by
  have hparameter : ∀ p : Variable, feeds s!"{p.type.name} {p.name}" = feeds p.name := by
    intro p
    simp (disch := decide) only [toString, feeds_append, feeds_typeName, feeds_eq_zero]
    omega
  have hlocal : ∀ v : Variable, feeds s!"{v.type.name} {v.name} (Init: {initLabel v.initText})" =
      feeds v.name + initFeeds v := by
    intro v
    simp (disch := decide) only [toString, feeds_append, feeds_typeName, feeds_eq_zero, initFeeds]
    omega
  have hcontrol : ∀ c : Control, feeds s!"<{c.text}>" = 0 := by
    intro c
    simp (disch := decide) only [toString, feeds_append, feeds_controlText, feeds_eq_zero]
  have hname : feeds s!"Name: {f.name}" = feeds f.name := by
    simp (disch := decide) only [toString, feeds_append, feeds_eq_zero]
    omega
  have htype : feeds s!"  Return Type: {f.type.name}" = 0 := by
    simp (disch := decide) only [toString, feeds_append, feeds_typeName, feeds_eq_zero]
  have hflags : feeds s!"  Main: {yesNo f.isMain}, Recursive: {yesNo f.isRecursive}" = 0 := by
    simp (disch := decide) only [toString, feeds_append, feeds_yesNo, feeds_eq_zero]
  have hcontrols : (f.controls.map fun c => feeds s!"<{c.text}>").sum = 0 := by
    simp only [hcontrol, List.map_const', List.sum_replicate_nat, Nat.mul_zero]
  simp (disch := decide) only [functionLines, List.map_append, List.sum_append, List.map_cons,
    List.map_nil, List.sum_cons, List.sum_nil, sum_feeds_itemLines, List.map_map, Function.comp_def,
    hparameter, hlocal, hcontrols, hname, htype, hflags, separator, feeds_eq_zero]
  omega

private theorem sum_feeds_functionLines_of_holds {f : Function}
    (h : f.Holds (fun v => '\n' ∉ v.name.toList) fun x => '\n' ∉ x.toList) :
    ((functionLines f).map feeds).sum = (f.locals.map initFeeds).sum := by
  have hparameters : (f.parameters.map fun p => feeds p.name).sum = 0 := by
    simpa [List.sum_eq_zero_iff_forall_eq_nat] using fun p hp => feeds_eq_zero (h.parameters p hp)
  have hlocals : f.locals.map (fun v => feeds v.name + initFeeds v) = f.locals.map initFeeds := by
    apply List.map_congr_left
    intro v hv
    rw [feeds_eq_zero (h.locals v hv), Nat.zero_add]
  rw [sum_feeds_functionLines, feeds_eq_zero h.name, hparameters, hlocals, Nat.zero_add]

private theorem length_functionsLines (t : Table) :
    (functionsLines t).length = 1 + (t.functions.map fun e => (functionLines e.2).length).sum := by
  rw [functionsLines, List.length_cons, List.length_flatMap, Nat.add_comm]

private theorem sum_initFeeds_eq_zero_iff {vs : List Variable} :
    (vs.map initFeeds).sum = 0 ↔ ∀ v ∈ vs, '\n' ∉ (initLabel v.initText).toList := by
  simp only [List.sum_eq_zero_iff_forall_eq_nat, List.forall_mem_map, initFeeds, feeds,
    List.count_eq_zero]

section

variable {t : Table} (h : t.Holds (fun v => '\n' ∉ v.name.toList) fun x => '\n' ∉ x.toList)

include h

private theorem sum_feeds_globalLines :
    ((globalLines t).map feeds).sum = (t.globalVariables.map initFeeds).sum := by
  have hheader : feeds "--- Global Variables ---" = 0 := rfl
  have hlines : t.globalVariables.map (feeds ∘ globalLine) = t.globalVariables.map initFeeds := by
    apply List.map_congr_left
    intro v hv
    rw [Function.comp_apply, feeds_globalLine, feeds_eq_zero (h.globalVariables v hv), Nat.zero_add]
  rw [globalLines, List.map_cons, List.sum_cons, hheader, Nat.zero_add, List.map_map, hlines]

private theorem sum_feeds_functionsLines :
    ((functionsLines t).map feeds).sum =
      (t.functions.map fun e => (e.2.locals.map initFeeds).sum).sum := by
  have hheader : feeds "--- Functions ---" = 0 := rfl
  have hone : ∀ e ∈ t.functions,
      ((functionLines e.2).map feeds).sum = (e.2.locals.map initFeeds).sum :=
    fun e he => sum_feeds_functionLines_of_holds (h.functions e he)
  rw [functionsLines, List.map_cons, List.sum_cons, hheader, Nat.zero_add, List.map_flatMap,
    List.flatMap_def, List.sum_flatten, List.map_map]
  exact congrArg List.sum (List.map_congr_left hone)

private theorem feedLines_globals_iff :
    feedLines (globals t) = globalLines t ↔
      ∀ v ∈ t.globalVariables, '\n' ∉ (initLabel v.initText).toList := by
  have hne : globalLines t ≠ [] := List.cons_ne_nil _ _
  rw [globals, feedLines_ofLines_iff hne, sum_feeds_globalLines h, sum_initFeeds_eq_zero_iff]

private theorem feedLines_functions_iff :
    feedLines (functions t) = functionsLines t ↔
      ∀ e ∈ t.functions, ∀ v ∈ e.2.locals, '\n' ∉ (initLabel v.initText).toList := by
  have hne : functionsLines t ≠ [] := List.cons_ne_nil _ _
  rw [functions, feedLines_ofLines_iff hne, sum_feeds_functionsLines h]
  simp only [List.sum_eq_zero_iff_forall_eq_nat, List.forall_mem_map, ← sum_initFeeds_eq_zero_iff]

private theorem length_feedLines_globals :
    (feedLines (globals t)).length =
      1 + t.globalVariables.length + (t.globalVariables.map initFeeds).sum := by
  have hne : globalLines t ≠ [] := List.cons_ne_nil _ _
  rw [globals, length_feedLines_ofLines hne, sum_feeds_globalLines h, globalLines,
    List.length_cons, List.length_map, Nat.add_comm 1]

private theorem length_feedLines_functions :
    (feedLines (functions t)).length =
      1 + (t.functions.map fun e => (functionLines e.2).length).sum +
        (t.functions.map fun e => (e.2.locals.map initFeeds).sum).sum := by
  have hne : functionsLines t ≠ [] := List.cons_ne_nil _ _
  rw [functions, length_feedLines_ofLines hne, length_functionsLines, sum_feeds_functionsLines h]

end

/-- In the listings of a program whose names hold no line feeds, the lines are those of the
variables and of the functions exactly if the texts of the initializers that are listed hold none.
Every line feed in such a text makes one line more. The lines are kept, whatever the program, if no
variable is declared in it with a line feed in the text of its initializer. -/
theorem lines_kept_iff {line : Int} {decls : List Node}
    (hn : ∀ x ∈ (Node.program line decls).names, '\n' ∉ x.toList) :
    let P := Node.program line decls
    let t := ((analyze P).run .empty).table
    (feedLines (globals t) = "--- Global Variables ---" :: t.globalVariables.map globalLine ↔
      ∀ v ∈ t.globalVariables, '\n' ∉ (initLabel v.initText).toList) ∧
    (feedLines (functions t) =
        "--- Functions ---" :: t.functions.flatMap (fun e => functionLines e.2) ↔
      ∀ e ∈ t.functions, ∀ v ∈ e.2.locals, '\n' ∉ (initLabel v.initText).toList) ∧
    (∀ e ∈ t.functions, (functionLines e.2).length =
      7 + max 1 e.2.parameters.length + max 1 e.2.locals.length + max 1 e.2.controls.length) ∧
    (feedLines (globals t)).length =
      1 + t.globalVariables.length + (t.globalVariables.map initFeeds).sum ∧
    (feedLines (functions t)).length =
      1 + (t.functions.map fun e => (functionLines e.2).length).sum +
        (t.functions.map fun e => (e.2.locals.map initFeeds).sum).sum ∧
    ((∀ path m v, P.node? path = some m → m.declared? = some v →
        '\n' ∉ (initLabel v.initText).toList) →
      feedLines (globals t) = globalLines t ∧ feedLines (functions t) = functionsLines t) := by
  intro P t
  have hnames : t.Holds (fun v => '\n' ∉ v.name.toList) fun x => '\n' ∉ x.toList :=
    .analyze (.of_names hn)
  have hglobals := feedLines_globals_iff hnames
  have hfunctions := feedLines_functions_iff hnames
  refine ⟨hglobals, hfunctions, fun e _ => length_functionLines e.2,
    length_feedLines_globals hnames, length_feedLines_functions hnames, ?_⟩
  intro hinit
  have hnull : '\n' ∉ (initLabel none).toList := by decide
  have honly : P.DeclaresOnly (fun v => '\n' ∉ (initLabel v.initText).toList) fun _ => True :=
    ⟨fun hm hv => hinit _ _ _ hm hv, fun _ => ⟨trivial, fun _ _ => hnull⟩⟩
  have hinits : t.Holds _ _ := .analyze honly
  exact ⟨hglobals.mpr hinits.globalVariables,
    hfunctions.mpr fun e he => (hinits.functions e he).locals⟩

/-- The text of the local `s` holds a line feed, which breaks its line. The global variable keeps
its line. -/
theorem lines_kept_iff_broken_local :
    let text := "\"a\\\nb\""
    let P : Node := .program 1
      [.varDecl 1 "x" (some "int") false (.literal 1 "int" "1") (some "1"),
        .funcDecl 2 "f" none [⟨2, "p", some "int"⟩]
          (.block 2 [.varDecl 3 "s" (some "string") false (.literal 3 "string" text) none])]
    let t := ((analyze P).run .empty).table
    (∀ x ∈ P.names, '\n' ∉ x.toList) ∧
      feedLines (globals t) =
        ["--- Global Variables ---", "Name: x, Type: Int, Initialized with: 1, Const: False"] ∧
      feedLines (functions t) ≠ functionsLines t ∧
      (functionsLines t).length = 11 ∧ (feedLines (functions t)).length = 12 := by
  intro text P t
  have hn : ∀ x ∈ P.names, '\n' ∉ x.toList := by decide
  obtain ⟨hglobals, hfunctions, -, -, hlength, -⟩ := lines_kept_iff hn
  refine ⟨hn, (hglobals.mpr (by decide +kernel)).trans (by decide +kernel), ?_, by decide +kernel,
    hlength.trans (by decide +kernel)⟩
  exact fun h => absurd (hfunctions.mp h) (by decide +kernel)

/-- A string literal with a line break, which a backslash lets in, makes two lines of one variable.
-/
theorem lines_of_string_broken :
    let text := "\"a\\\nb\""
    let P : Node := .program 1
      [.varDecl 1 "s" (some "string") false (.literal 1 "string" text) (some text)]
    let t := ((analyze P).run .empty).table
    P.IsProgram ∧ (∀ x ∈ P.names, '\n' ∉ x.toList) ∧
      t.globalVariables = [⟨"s", .string, 1, false, some text⟩] ∧
      feedLines (globals t) =
        ["--- Global Variables ---", "Name: s, Type: String, Initialized with: \"a\\",
          "b\", Const: False"] := by
  intro text P t
  exact ⟨by decide, by decide, by decide +kernel, by decide +kernel⟩

end Listing

end MiniCheck
