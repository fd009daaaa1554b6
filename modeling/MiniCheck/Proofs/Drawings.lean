import MiniCheck.Proofs.FeedLines
import MiniCheck.Proofs.Positions
import MiniCheck.Syntax.Outline

/-!
# Drawings can be read

A drawing has one line for each node, and the groups of three characters at the start of a line say
where its node stands. So the tree of labels can be read off the drawing of a tree, provided that no
label breaks its line: the number of groups is the depth of the node, and the depths of the nodes in
preorder determine the tree.
-/

namespace MiniCheck

namespace Outline

def label : Outline → String
  | node label _ => label

def children : Outline → List Outline
  | node _ children => children

/-- The subtree at a path of child numbers. -/
def sub? (t : Outline) : List Nat → Option Outline
  | [] => some t
  | i :: path => t.children[i]?.bind fun c => c.sub? path

def labelAt (t : Outline) (path : List Nat) : String := (t.sub? path).elim "" label

/-- Moves a path from a list of trees to the list with one more tree in front. -/
def shift : List Nat → List Nat
  | [] => []
  | i :: path => (i + 1) :: path

mutual

/-- The paths of all nodes, each before those below it. -/
def paths : Outline → List (List Nat)
  | node _ children => [] :: pathsOfAll children

def pathsOfAll : List Outline → List (List Nat)
  | [] => []
  | t :: ts => t.paths.map (0 :: ·) ++ (pathsOfAll ts).map shift

end

/-- The labels of all nodes in preorder. -/
def labels (t : Outline) : List String := t.paths.map t.labelAt

/-- Whether the node at the path has a later sibling. The root has none. -/
def hasLater (t : Outline) (path : List Nat) : Bool :=
  match path.getLast? with
  | none => false
  | some i => (t.sub? (path.dropLast ++ [i + 1])).isSome

/-- The line of the node at the path: three characters for each node above it, the connector, and
the label. -/
def lineAt (t : Outline) (path : List Nat) : String :=
  String.join ((List.range path.length).map fun k =>
    if t.hasLater (path.take k) then "│  " else "   ") ++
    (if t.hasLater path then "├─ " else "└─ ") ++ t.labelAt path

private theorem ne_nil_of_mem_pathsOfAll {ts : List Outline} {path : List Nat}
    (h : path ∈ pathsOfAll ts) : path ≠ [] := by
  induction ts generalizing path with
  | nil => simp [pathsOfAll] at h
  | cons t ts ih =>
    rw [pathsOfAll, List.mem_append, List.mem_map, List.mem_map] at h
    rcases h with ⟨q, -, rfl⟩ | ⟨q, hq, rfl⟩
    · exact List.cons_ne_nil _ _
    · cases q with
      | nil => exact absurd rfl (ih hq)
      | cons i q => exact List.cons_ne_nil _ _

private theorem shift_eq_cons_iff {q path : List Nat} {i : Nat} :
    shift q = i :: path ↔ ∃ j, q = j :: path ∧ i = j + 1 := by
  cases q with
  | nil => simp [shift]
  | cons j q =>
    simp only [shift, List.cons.injEq, eq_comm (a := i)]
    constructor
    · rintro ⟨hi, rfl⟩
      exact ⟨j, ⟨rfl, rfl⟩, hi⟩
    · rintro ⟨k, ⟨rfl, rfl⟩, hi⟩
      exact ⟨hi, rfl⟩

private theorem shift_lt_shift {p q : List Nat} (h : p < q) : shift p < shift q := by
  cases q with
  | nil => exact absurd h (List.not_lt_nil _)
  | cons j q =>
    cases p with
    | nil => exact List.nil_lt_cons _ _
    | cons i p =>
      rw [shift, shift, List.cons_lt_cons_iff]
      rcases List.cons_lt_cons_iff.mp h with hlt | ⟨rfl, hlt⟩
      · exact .inl (Nat.succ_lt_succ hlt)
      · exact .inr ⟨rfl, hlt⟩

mutual

private theorem mem_paths_iff (t : Outline) (path : List Nat) :
    path ∈ t.paths ↔ (t.sub? path).isSome = true := by
  cases t with
  | node label children =>
    cases path with
    | nil => simp [paths, sub?]
    | cons i path =>
      have hall := mem_pathsOfAll_iff children i path
      simpa [paths, sub?, Outline.children] using hall

theorem mem_pathsOfAll_iff (ts : List Outline) (i : Nat) (path : List Nat) :
    i :: path ∈ pathsOfAll ts ↔ (ts[i]?.bind fun c => c.sub? path).isSome = true := by
  cases ts with
  | nil => simp [pathsOfAll]
  | cons t ts =>
    rw [pathsOfAll, List.mem_append, List.mem_map, List.mem_map]
    cases i with
    | zero =>
      have hfirst := mem_paths_iff t path
      simpa [shift_eq_cons_iff] using hfirst
    | succ i =>
      have hrest := mem_pathsOfAll_iff ts i path
      simpa [shift_eq_cons_iff] using hrest

end

mutual

private theorem paths_sorted (t : Outline) : t.paths.Pairwise (· < ·) := by
  cases t with
  | node label children =>
    rw [paths, List.pairwise_cons]
    refine ⟨?_, pathsOfAll_sorted children⟩
    intro path hpath
    cases path with
    | nil => exact absurd rfl (ne_nil_of_mem_pathsOfAll hpath)
    | cons i path => exact List.nil_lt_cons _ _

theorem pathsOfAll_sorted (ts : List Outline) : (pathsOfAll ts).Pairwise (· < ·) := by
  cases ts with
  | nil => exact List.Pairwise.nil
  | cons t ts =>
    rw [pathsOfAll, List.pairwise_append, List.pairwise_map, List.pairwise_map]
    refine ⟨?_, (pathsOfAll_sorted ts).imp shift_lt_shift, ?_⟩
    · exact (paths_sorted t).imp fun h => List.cons_lt_cons_iff.mpr (.inr ⟨rfl, h⟩)
    · intro p hp q hq
      obtain ⟨p', -, rfl⟩ := List.mem_map.mp hp
      obtain ⟨q', hq', rfl⟩ := List.mem_map.mp hq
      cases q' with
      | nil => exact absurd rfl (ne_nil_of_mem_pathsOfAll hq')
      | cons i q' => exact List.cons_lt_cons_iff.mpr (.inl (Nat.zero_lt_succ i))

end

private theorem exists_child {t : Outline} {i : Nat} {path : List Nat}
    (h : (t.sub? (i :: path)).isSome = true) :
    ∃ c, t.children[i]? = some c ∧ (c.sub? path).isSome = true ∧
      t.labelAt (i :: path) = c.labelAt path := by
  cases hc : t.children[i]? with
  | none => simp [sub?, hc] at h
  | some c =>
    have hsub : t.sub? (i :: path) = c.sub? path := by simp [sub?, hc]
    exact ⟨c, rfl, hsub ▸ h, by rw [labelAt, hsub, labelAt]⟩

/-- The line of the node at the path, built from the root down. Whether the root has a later sibling
is known from outside. -/
def textAt (later : Bool) (t : Outline) : List Nat → String
  | [] => connector (!later) ++ t.label
  | i :: path => margin (!later) ++
      t.children[i]?.elim "" fun c => c.textAt (i + 1 < t.children.length) path

/-- The same for a list of trees, of which the path chooses one. -/
def textIn (ts : List Outline) : List Nat → String
  | [] => ""
  | i :: path => ts[i]?.elim "" fun c => c.textAt (i + 1 < ts.length) path

private theorem textIn_shift (t : Outline) (ts : List Outline) (path : List Nat) :
    textIn (t :: ts) (shift path) = textIn ts path := by
  cases path with
  | nil => rfl
  | cons i path => simp [shift, textIn]

private theorem textIn_zero (t : Outline) (ts : List Outline) (path : List Nat) :
    textIn (t :: ts) (0 :: path) = t.textAt (!ts.isEmpty) path := by
  cases ts <;> simp [textIn]

mutual

private theorem lines_eq (lead : String) (last : Bool) (t : Outline) :
    t.lines lead last = t.paths.map fun path => lead ++ t.textAt (!last) path := by
  cases t with
  | node label children =>
    rw [lines, linesOfAll_eq, paths, List.map_cons, textAt, Bool.not_not, String.append_assoc]
    congr 1
    apply List.map_congr_left
    intro path hpath
    cases path with
    | nil => exact absurd rfl (ne_nil_of_mem_pathsOfAll hpath)
    | cons i path =>
      rw [textAt, Bool.not_not, String.append_assoc]
      rfl

theorem linesOfAll_eq (lead : String) (ts : List Outline) :
    linesOfAll lead ts = (pathsOfAll ts).map fun path => lead ++ textIn ts path := by
  cases ts with
  | nil => rfl
  | cons t ts =>
    rw [linesOfAll, lines_eq, linesOfAll_eq, pathsOfAll, List.map_append, List.map_map,
      List.map_map]
    simp only [Function.comp_def, textIn_zero, textIn_shift]

end

/-- Whether the node at the path has a later sibling, where it is known for the root. -/
def laterAt (later : Bool) (t : Outline) (path : List Nat) : Bool :=
  if path.isEmpty then later else t.hasLater path

private theorem laterAt_cons {t c : Outline} {i : Nat} (hc : t.children[i]? = some c) (later : Bool)
    (path : List Nat) :
    t.laterAt later (i :: path) = c.laterAt (i + 1 < t.children.length) path := by
  cases path with
  | nil =>
    rw [Bool.eq_iff_iff]
    simp [laterAt, hasLater, sub?]
  | cons j path =>
    have hlast : (j :: path).getLast? ≠ none := by simp
    obtain ⟨k, hk⟩ := Option.ne_none_iff_exists'.mp hlast
    simp [laterAt, hasLater, List.getLast?_cons_cons, hk, sub?, hc]

private theorem textAt_eq {t : Outline} {path : List Nat} (h : (t.sub? path).isSome = true)
    (later : Bool) :
    t.textAt later path =
      String.join ((List.range path.length).map fun k =>
        if t.laterAt later (path.take k) then "│  " else "   ") ++
        (if t.laterAt later path then "├─ " else "└─ ") ++ t.labelAt path := by
  induction path generalizing t later with
  | nil => cases later <;> simp [textAt, laterAt, connector, labelAt, sub?]
  | cons i path ih =>
    obtain ⟨c, hc, hsub, hlabel⟩ := exists_child h
    rw [textAt, hc, Option.elim_some, ih hsub, hlabel, laterAt_cons hc, List.length_cons,
      List.range_succ_eq_map, List.map_cons, List.map_map, String.join_cons]
    simp only [Function.comp_def, List.take_succ_cons, laterAt_cons hc]
    cases later <;> simp [laterAt, margin, String.append_assoc]

private theorem textAt_false {t : Outline} {path : List Nat} (h : path ∈ t.paths) :
    t.textAt false path = t.lineAt path := by
  have hroot : t.laterAt false = t.hasLater := by
    funext p
    cases p <;> simp [laterAt, hasLater]
  rw [textAt_eq ((mem_paths_iff t path).mp h), hroot, lineAt]

/-- What a line says: how deep its node stands, and the label. -/
structure Row where
  depth : Nat
  label : String
  deriving DecidableEq

/-- Reads a line by groups of three characters, up to the connector. -/
def Row.ofLine : List Char → Option Row
  | '└' :: '─' :: ' ' :: label | '├' :: '─' :: ' ' :: label => some ⟨0, String.ofList label⟩
  | ' ' :: ' ' :: ' ' :: line | '│' :: ' ' :: ' ' :: line =>
      (ofLine line).map fun row => { row with depth := row.depth + 1 }
  | _ => none

/-- Puts a node in front of trees that are read already. Those that stand deeper are below it. -/
def graft (row : Row) (later : List (Nat × Outline)) : List (Nat × Outline) :=
  (row.depth, .node row.label ((later.takeWhile (row.depth < ·.1)).map Prod.snd)) ::
    later.dropWhile (row.depth < ·.1)

/-- Reads the tree of labels off a drawing. -/
def ofDrawing (drawing : String) : Option Outline := do
  let rows ← (Text.feedLines drawing).mapM fun line => Row.ofLine line.toList
  match rows.foldr graft [] with
  | [(_, t)] => some t
  | _ => none

private theorem Row.ofLine_textAt {t : Outline} {path : List Nat} (h : (t.sub? path).isSome = true)
    (later : Bool) :
    Row.ofLine (t.textAt later path).toList = some ⟨path.length, t.labelAt path⟩ := by
  induction path generalizing t later with
  | nil => cases later <;> simp [textAt, connector, labelAt, sub?, Row.ofLine]
  | cons i path ih =>
    obtain ⟨c, hc, hsub, hlabel⟩ := exists_child h
    rw [textAt, hc, Option.elim_some, hlabel]
    cases later <;> simp [margin, Row.ofLine, ih hsub]

private theorem graft_children {depth : Nat} {label : String} {ts : List Outline}
    {later : List (Nat × Outline)} (h : ∀ e ∈ later.head?, e.1 ≤ depth) :
    graft ⟨depth, label⟩ (ts.map (depth + 1, ·) ++ later) = (depth, .node label ts) :: later := by
  have hbelow : ∀ e ∈ ts.map fun t => (depth + 1, t), decide (depth < e.1) = true := by simp
  have hbeside : ∀ e ∈ later.head?, decide (depth < e.1) = false := by
    intro e he
    exact decide_eq_false (Nat.not_lt.mpr (h e he))
  have htake : later.takeWhile (fun e => decide (depth < e.1)) = [] := by
    cases later with
    | nil => rfl
    | cons e later => simp [hbeside e rfl]
  have hdrop : later.dropWhile (fun e => decide (depth < e.1)) = later := by
    cases later with
    | nil => rfl
    | cons e later => simp [hbeside e rfl]
  rw [graft, List.takeWhile_append_of_pos hbelow, List.dropWhile_append_of_pos hbelow, htake,
    hdrop, List.append_nil, List.map_map]
  simp [Function.comp_def]

private theorem labelAt_shift (label : String) (t : Outline) (ts : List Outline) (path : List Nat) :
    (node label (t :: ts)).labelAt (shift path) = (node label ts).labelAt path := by
  cases path with
  | nil => rfl
  | cons i path => simp [shift, labelAt, sub?, children]

private theorem length_shift (path : List Nat) : (shift path).length = path.length := by
  cases path <;> rfl

mutual

/-- The depths of the nodes in preorder determine the tree. What follows it must not stand deeper
than its root. -/
theorem foldr_graft_rows (depth : Nat) (t : Outline) (later : List (Nat × Outline))
    (h : ∀ e ∈ later.head?, e.1 ≤ depth) :
    (t.paths.map fun path => (⟨depth + path.length, t.labelAt path⟩ : Row)).foldr graft later =
      (depth, t) :: later := by
  cases t with
  | node label children =>
    have hnext : ∀ e ∈ later.head?, e.1 ≤ depth + 1 := fun e he => Nat.le_succ_of_le (h e he)
    rw [paths, List.map_cons, List.foldr_cons,
      foldr_graft_rowsOfAll depth label children later hnext]
    exact graft_children h

theorem foldr_graft_rowsOfAll (depth : Nat) (label : String) (ts : List Outline)
    (later : List (Nat × Outline)) (h : ∀ e ∈ later.head?, e.1 ≤ depth + 1) :
    ((pathsOfAll ts).map fun path =>
      (⟨depth + path.length, (node label ts).labelAt path⟩ : Row)).foldr graft later =
      ts.map (depth + 1, ·) ++ later := by
  cases ts with
  | nil => rfl
  | cons t ts =>
    -- The trees after the first one stand beside it and not below it.
    have hrest := foldr_graft_rowsOfAll depth label ts later h
    have hbeside : ∀ e ∈ (ts.map (depth + 1, ·) ++ later).head?, e.1 ≤ depth + 1 := by
      cases ts with
      | nil => exact h
      | cons s ts => simp
    have hfirst := foldr_graft_rows (depth + 1) t _ hbeside
    have hrow : ∀ path, (⟨depth + (0 :: path).length, (node label (t :: ts)).labelAt (0 :: path)⟩ :
        Row) = ⟨depth + 1 + path.length, t.labelAt path⟩ := by
      intro path
      rw [List.length_cons, Nat.add_right_comm, Nat.add_assoc depth path.length]
      rfl
    rw [pathsOfAll, List.map_append, List.map_map, List.map_map, List.foldr_append]
    simp only [Function.comp_def, length_shift, labelAt_shift, hrow]
    rw [hrest, hfirst, List.map_cons, List.cons_append]

end

private theorem lines_eq_lineAt (t : Outline) : t.lines "" true = t.paths.map t.lineAt := by
  rw [lines_eq]
  apply List.map_congr_left
  intro path hpath
  rw [String.empty_append, Bool.not_true, textAt_false hpath]

private theorem not_mem_lineAt {t : Outline} {path : List Nat}
    (h : '\n' ∉ (t.labelAt path).toList) :
    '\n' ∉ (t.lineAt path).toList := by
  have hgroup : ∀ c : Bool, '\n' ∉ (if c then "│  " else "   ").toList := by decide
  have hconnector : ∀ c : Bool, '\n' ∉ (if c then "├─ " else "└─ ").toList := by decide
  rw [lineAt, String.toList_append, String.toList_append, String.toList_join]
  simp only [List.mem_append, List.mem_flatMap, List.mem_map]
  rintro ((⟨group, ⟨k, -, rfl⟩, hmem⟩ | hmem) | hmem)
  · exact hgroup _ hmem
  · exact hconnector _ hmem
  · exact h hmem

/-- A tree can be read off the lines of its drawing. -/
theorem ofDrawing_eq_some {t : Outline} {drawing : String}
    (h : Text.feedLines drawing = t.paths.map t.lineAt) : ofDrawing drawing = some t := by
  have hrow : ∀ path ∈ t.paths,
      Row.ofLine (t.lineAt path).toList = some ⟨0 + path.length, t.labelAt path⟩ := by
    intro path hpath
    rw [← textAt_false hpath, Row.ofLine_textAt ((mem_paths_iff t path).mp hpath), Nat.zero_add]
  have hread : (t.paths.map t.lineAt).mapM (fun line => Row.ofLine line.toList) = some _ :=
    mapM_map_eq_some hrow
  have htree := foldr_graft_rows 0 t [] (by simp)
  simp only [ofDrawing, h, hread, Option.bind_eq_bind, Option.bind_some, htree]

end Outline

namespace Node

/-- The nodes that a node holds. A function holds its parameters and its body. -/
def held : Node → List Node
  | funcDecl _ _ _ params body => params.map param ++ [body]
  | n => n.children

/-- The node at a path of numbers, which do not count what is missing. -/
def drawnAt? (n : Node) : List Nat → Option Node
  | [] => some n
  | i :: path => (n.held.filter (!·.isMissing))[i]?.bind fun c => c.drawnAt? path

def label (n : Node) : String := n.outline.head?.elim "" Outline.label

/-- The labels of all nodes in preorder. -/
def labels (n : Node) : List String := n.outline.flatMap Outline.labels

private theorem outlines_eq (ns : List Node) : outlines ns = ns.flatMap outline := by
  induction ns with
  | nil => rfl
  | cons n ns ih => rw [outlines, ih, List.flatMap_cons]

private theorem outline_eq {n : Node} (h : n.isMissing = false) :
    n.outline = [.node n.label (n.held.flatMap outline)] := by
  cases n with
  | missing => cases h
  | funcDecl line name returnText params body =>
    have hparams : (params.map param).flatMap outline = params.map Param.outline := by
      rw [List.flatMap_map, List.map_eq_flatMap]
      rfl
    simp [outline, held, label, Outline.label, hparams]
  | _ => simp [outline, held, children, label, Outline.label, outlines_eq, Param.outline]

private theorem getElem?_flatMap_outline (ns : List Node) (i : Nat) :
    (ns.flatMap outline)[i]? = (ns.filter (!·.isMissing))[i]?.bind fun n => n.outline.head? := by
  induction ns generalizing i with
  | nil => simp
  | cons n ns ih =>
    cases hn : n.isMissing with
    | true =>
      obtain rfl := eq_missing_of_isMissing hn
      simpa [outline, isMissing] using ih i
    | false =>
      rw [List.flatMap_cons, outline_eq hn, List.filter_cons_of_pos (by simp [hn])]
      cases i with
      | zero => simp [outline_eq hn]
      | succ i => simpa using ih i

/-- The outline of a node has a subtree at a path exactly if a node is drawn there, and then it is
the outline of that node. -/
theorem drawnAt?_cases {n : Node} {t : Outline} (ht : n.outline = [t]) (path : List Nat) :
    (n.drawnAt? path = none ∧ t.sub? path = none) ∨
      ∃ m s, n.drawnAt? path = some m ∧ t.sub? path = some s ∧ m.outline = [s] := by
  induction path generalizing n t with
  | nil => exact .inr ⟨n, t, rfl, rfl, ht⟩
  | cons i path ih =>
    have hn : n.isMissing = false := by
      cases n <;> simp [outline] at ht ⊢ <;> rfl
    have hchildren : t.children = n.held.flatMap outline := by
      rw [outline_eq hn, List.singleton_inj] at ht
      rw [← ht]
      rfl
    rw [drawnAt?, Outline.sub?, hchildren, getElem?_flatMap_outline]
    cases hc : (n.held.filter (!·.isMissing))[i]? with
    | none => exact .inl ⟨rfl, rfl⟩
    | some c =>
      have hmem := List.mem_of_getElem? hc
      have hpresent : c.isMissing = false := by simpa using (List.mem_filter.mp hmem).2
      have houtline := outline_eq hpresent
      simpa [houtline] using ih houtline

private theorem feedLines_draw {n : Node} {t : Outline} (ht : n.outline = [t])
    (hl : ∀ label ∈ n.labels, '\n' ∉ label.toList) :
    Text.feedLines n.draw = t.paths.map t.lineAt := by
  rw [draw, ht, Outline.linesOfAll, Outline.linesOfAll, List.append_nil, List.isEmpty_nil,
    Outline.lines_eq_lineAt]
  apply Text.feedLines_intercalate
  · cases t
    simp [Outline.paths]
  · intro line hline
    obtain ⟨path, hpath, rfl⟩ := List.mem_map.mp hline
    apply Outline.not_mem_lineAt
    apply hl
    rw [labels, ht, List.flatMap_singleton]
    exact List.mem_map_of_mem hpath

/-- The drawing of a tree whose labels are single lines can be read. It has one line for each node
that is not missing, in the order in which the paths are sorted: a node comes before those below it,
and those before its later siblings. A line has three characters for each node above its own, a bar
exactly if that node has a later sibling, then the connector, which closes exactly at a last child,
and then the label. Reading it gives the tree of labels, so trees with the same drawing have the
same tree of labels. -/
theorem draw_legible {n : Node} (hn : n.isMissing = false)
    (hl : ∀ label ∈ n.labels, '\n' ∉ label.toList) :
    ∃ t, n.outline = [t] ∧ Outline.ofDrawing n.draw = some t ∧
      (∀ path, (t.sub? path).map Outline.label = (n.drawnAt? path).map label) ∧
      (∀ path, path ∈ t.paths ↔ (n.drawnAt? path).isSome = true) ∧
      t.paths.Pairwise (· < ·) ∧
      Text.feedLines n.draw = t.paths.map t.lineAt ∧
      ∀ m : Node, m.isMissing = false → (∀ label ∈ m.labels, '\n' ∉ label.toList) →
        m.draw = n.draw → m.outline = n.outline := by
  have hread : ∀ {m : Node} {t : Outline}, m.outline = [t] →
      (∀ label ∈ m.labels, '\n' ∉ label.toList) → Outline.ofDrawing m.draw = some t :=
    fun ht hl => Outline.ofDrawing_eq_some (feedLines_draw ht hl)
  have ht := outline_eq hn
  refine ⟨_, ht, hread ht hl, ?_, ?_, Outline.paths_sorted _, feedLines_draw ht hl, ?_⟩
  · intro path
    rcases drawnAt?_cases ht path with ⟨hm, hs⟩ | ⟨m, s, hm, hs, hms⟩
    · rw [hm, hs]
      rfl
    · rw [hm, hs, Option.map_some, Option.map_some, label, hms]
      rfl
  · intro path
    rw [Outline.mem_paths_iff]
    rcases drawnAt?_cases ht path with ⟨hm, hs⟩ | ⟨m, s, hm, hs, -⟩
    · rw [hm, hs]
      rfl
    · rw [hm, hs]
      rfl
  · intro m hm hml hdraw
    have hmt := outline_eq hm
    have hsame : some _ = some _ := (hread hmt hml).symm.trans (hdraw ▸ hread ht hl)
    rw [hmt, ht, Option.some.inj hsame]

/-- A tree with missing parts, and with labels that look like the start of a line. -/
theorem draw_legible_misleading_labels :
    let n : Node := .program 1
      [.missing,
        .funcDecl 1 "f" none [⟨1, "└─ p", none⟩, ⟨1, "", some "int"⟩] (.block 1
          [.ifElse 2 .missing (.identifier 2 "│  ") (.program 3 [.missing]), .missing]),
        .ret 4 (.paren 4 .missing)]
    let t : Outline := .node "Program"
      [.node "FuncDecl void f(None └─ p, int )"
        [.node "Param None └─ p" [], .node "Param int " [],
          .node "Block" [.node "IfStmt" [.node "Identifier │  " [], .node "Program" []]]],
        .node "ReturnStmt" [.node "Paren" []]]
    n.isMissing = false ∧ (∀ label ∈ n.labels, '\n' ∉ label.toList) ∧
      Outline.ofDrawing n.draw = some t ∧
      Text.feedLines n.draw =
        ["└─ Program",
          "   ├─ FuncDecl void f(None └─ p, int )",
          "   │  ├─ Param None └─ p",
          "   │  ├─ Param int ",
          "   │  └─ Block",
          "   │     └─ IfStmt",
          "   │        ├─ Identifier │  ",
          "   │        └─ Program",
          "   └─ ReturnStmt",
          "      └─ Paren"] := by
  intro n t
  have hl : ∀ label ∈ n.labels, '\n' ∉ label.toList := by decide +kernel
  obtain ⟨s, hs, hread, -, -, -, hlines, -⟩ := draw_legible (n := n) rfl hl
  have ht : n.outline = [t] := rfl
  obtain rfl : t = s := List.singleton_inj.mp (ht.symm.trans hs)
  refine ⟨rfl, hl, hread, hlines.trans ?_⟩
  decide +kernel

end Node

end MiniCheck
