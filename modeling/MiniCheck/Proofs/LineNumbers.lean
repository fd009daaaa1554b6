import Mathlib.Algebra.GroupWithZero.Nat
import MiniCheck.Proofs.Highlights

/-!
# Two ways to count lines

A parser numbers lines by line feeds alone. The lines of a document end at other boundaries too. A
numbered line without further boundaries is one line of the document, the carriage return at its end
left out; each further boundary makes one line more, and moves all lines after it by one.
-/

namespace MiniCheck

namespace Text

/-- The lines of a text, if line feeds alone end lines. What stands after the last line feed is a
line if it is not empty. -/
def numberedLines (cs : List Char) : List (List Char) :=
  let pieces := cs.splitOn '\n'
  if pieces.getLast? = some [] then pieces.dropLast else pieces

/-- A numbered line without the carriage return that belongs to its end. -/
def withoutReturn (line : List Char) : List Char :=
  if line.getLast? = some '\r' then line.dropLast else line

/-- The boundaries inside of a numbered line. -/
def innerBreaks (line : List Char) : Nat := (withoutReturn line).countP isLineBreak

/-- A text is a line without an end, or a line and more text after its line feed. -/
theorem feed_induction {M : List Char → Prop} (last : ∀ p, '\n' ∉ p → M p)
    (fed : ∀ p rest, '\n' ∉ p → M rest → M (p ++ '\n' :: rest)) (cs : List Char) : M cs := by
  by_cases h : '\n' ∈ cs
  · obtain ⟨p, rest, hcs, hp⟩ := List.eq_append_cons_of_mem h
    have hshorter : rest.length < cs.length := by
      rw [hcs, List.length_append, List.length_cons]
      omega
    rw [hcs]
    exact fed p rest hp (feed_induction last fed rest)
  · exact last cs h
termination_by cs.length

private theorem numberedLines_last {p : List Char} (hp : '\n' ∉ p) :
    numberedLines p = if p = [] then [] else [p] := by
  rw [numberedLines, List.splitOn_eq_singleton hp]
  simp

private theorem numberedLines_fed {p : List Char} (hp : '\n' ∉ p) (rest : List Char) :
    numberedLines (p ++ '\n' :: rest) = p :: numberedLines rest := by
  have hne : rest.splitOn '\n' ≠ [] := List.splitOn_ne_nil _ _
  rw [numberedLines, List.splitOn_append_cons_self_of_not_mem hp, numberedLines,
    List.dropLast_cons_of_ne_nil hne]
  obtain ⟨q, qs, hq⟩ := List.exists_cons_of_ne_nil hne
  rw [hq, List.getLast?_cons_cons]
  exact (apply_ite (p :: ·) _ _ _).symm

private theorem withoutReturn_cons {c : Char} {p : List Char} (h : ¬ (c = '\r' ∧ p = [])) :
    withoutReturn (c :: p) = c :: withoutReturn p := by
  cases p with
  | nil => simpa [withoutReturn] using fun hr => h ⟨hr, rfl⟩
  | cons d q =>
    rw [withoutReturn, List.getLast?_cons_cons, List.dropLast_cons_of_ne_nil (by simp),
      withoutReturn]
    exact (apply_ite (c :: ·) _ _ _).symm

private theorem splitLines_cons {c : Char} {cs : List Char} (h : c = '\r' → cs.head? ≠ some '\n') :
    splitLines (c :: cs) =
      if isLineBreak c then [] :: splitLines cs else consLine c (splitLines cs) := by
  by_cases hboth : c = '\r' ∧ cs.head? = some '\n'
  · exact absurd hboth.2 (h hboth.1)
  · rw [splitLines]
    rintro rest rfl rfl
    exact hboth ⟨rfl, rfl⟩

private theorem consLine_append {c : Char} {ls : List (List Char)} (hne : ls ≠ [])
    (ms : List (List Char)) :
    consLine c (ls ++ ms) = consLine c ls ++ ms := by
  cases ls with
  | nil => exact absurd rfl hne
  | cons l ls => rfl

private theorem consLine_eq_modifyHead (c : Char) {ls : List (List Char)} (hne : ls ≠ []) :
    consLine c ls = ls.modifyHead (c :: ·) := by
  cases ls with
  | nil => exact absurd rfl hne
  | cons l ls => rfl

/-- A numbered line makes as many lines as its inner boundaries make pieces. -/
theorem splitLines_fed {p : List Char} (hp : '\n' ∉ p) (rest : List Char) :
    splitLines (p ++ '\n' :: rest) =
      (withoutReturn p).splitOnP isLineBreak ++ splitLines rest := by
  have hfeed : splitLines ('\n' :: rest) = [] :: splitLines rest := splitLines_cons nofun
  induction p with
  | nil => exact hfeed
  | cons c p ih =>
    have hp' : '\n' ∉ p := fun h => hp (List.mem_cons_of_mem _ h)
    by_cases hlast : c = '\r' ∧ p = []
    · obtain ⟨rfl, rfl⟩ := hlast
      rfl
    have hnext : c = '\r' → (p ++ '\n' :: rest).head? ≠ some '\n' := by
      intro hr
      cases p with
      | nil => exact absurd ⟨hr, rfl⟩ hlast
      | cons d q =>
        intro hd
        rw [List.cons_append, List.head?_cons, Option.some.injEq] at hd
        exact hp' (hd ▸ List.mem_cons_self)
    have hne := List.splitOnP_ne_nil isLineBreak (withoutReturn p)
    rw [List.cons_append, splitLines_cons hnext, ih hp', withoutReturn_cons hlast,
      List.splitOnP_cons_eq_if_modifyHead, consLine_append hne, consLine_eq_modifyHead c hne]
    split <;> rfl

private theorem splitLines_fed_of_unbroken {p : List Char} (hp : '\n' ∉ p)
    (hb : ∀ c ∈ withoutReturn p, isLineBreak c = false) (rest : List Char) :
    splitLines (p ++ '\n' :: rest) = withoutReturn p :: splitLines rest := by
  rw [splitLines_fed hp, List.splitOnP_eq_singleton hb]
  rfl

private theorem head?_splitLines {cs : List Char} (hne : cs ≠ []) :
    (splitLines cs).head? = some (cs.takeWhile (!isLineBreak ·)) := by
  fun_induction splitLines cs with
  | case1 => exact absurd rfl hne
  | case2 cs => rfl
  | case3 c cs hnot hc => simp [hc]
  | case4 c cs hnot hc ih =>
    by_cases hnil : cs = []
    · subst hnil
      simp [splitLines, consLine, hc]
    · obtain ⟨ls, hl⟩ := List.head?_eq_some_iff.mp (ih hnil)
      simp [hl, consLine, hc]

private theorem takeWhile_fed (p rest : List Char) :
    (p ++ '\n' :: rest).takeWhile (!isLineBreak ·) = p.takeWhile (!isLineBreak ·) := by
  induction p with
  | nil => rfl
  | cons c p ih => rw [List.cons_append, List.takeWhile_cons, List.takeWhile_cons, ih]

private theorem splitLines_last_of_unbroken {p : List Char} (hne : p ≠ [])
    (hb : ∀ c ∈ withoutReturn p, isLineBreak c = false) : splitLines p = [withoutReturn p] := by
  induction p with
  | nil => exact absurd rfl hne
  | cons c p ih =>
    by_cases hlast : c = '\r' ∧ p = []
    · obtain ⟨rfl, rfl⟩ := hlast
      rfl
    rw [withoutReturn_cons hlast] at hb ⊢
    obtain ⟨hc, hb⟩ := List.forall_mem_cons.mp hb
    have hnext : c = '\r' → p.head? ≠ some '\n' := by
      rintro rfl
      cases hc
    rw [splitLines_cons hnext, if_neg (by simp [hc])]
    by_cases hnil : p = []
    · subst hnil
      rfl
    · rw [ih hnil hb]
      rfl

private theorem unbroken_of_mem_splitLines {cs line : List Char} (h : line ∈ splitLines cs) :
    ∀ c ∈ line, isLineBreak c = false := by
  simp only [isLineBreak_eq_false_iff]
  have hlined := lined_splitLines cs
  generalize splitLines cs = lines at h hlined
  induction hlined with
  | nil => cases h
  | last _ hfree =>
    rw [List.mem_singleton.mp h]
    exact hfree
  | cons _ hfree _ _ ih =>
    rcases List.mem_cons.mp h with rfl | h
    · exact hfree
    · exact ih h

/-- The first lines agree as long as no numbered line has inner boundaries. -/
theorem take_splitLines_iff {cs : List Char} {n : Nat} (hn : n ≤ (numberedLines cs).length) :
    (splitLines cs).take n = ((numberedLines cs).take n).map withoutReturn ↔
      ∀ p ∈ (numberedLines cs).take n, innerBreaks p = 0 := by
  simp only [innerBreaks, List.countP_eq_zero, Bool.not_eq_true]
  constructor
  · intro h p hp
    have hmem : withoutReturn p ∈ (splitLines cs).take n := h ▸ List.mem_map_of_mem hp
    exact unbroken_of_mem_splitLines (List.mem_of_mem_take hmem)
  · revert n
    refine feed_induction (M := fun cs => ∀ {n}, n ≤ (numberedLines cs).length →
      (∀ p ∈ (numberedLines cs).take n, ∀ c ∈ withoutReturn p, isLineBreak c = false) →
        (splitLines cs).take n = ((numberedLines cs).take n).map withoutReturn) ?_ ?_ cs
    · intro p hp n hn hb
      rw [numberedLines_last hp] at hn hb ⊢
      by_cases hnil : p = []
      · simp [hnil, splitLines]
      · rw [if_neg hnil] at hn hb ⊢
        cases n with
        | zero => rfl
        | succ n =>
          simp only [List.take_succ_cons, List.take_nil] at hb ⊢
          rw [splitLines_last_of_unbroken hnil (hb p (List.mem_singleton_self p)),
            List.take_succ_cons, List.take_nil]
          rfl
    · intro p rest hp ih n hn hb
      rw [numberedLines_fed hp] at hn hb ⊢
      cases n with
      | zero => rfl
      | succ n =>
        obtain ⟨hfirst, hb⟩ := List.forall_mem_cons.mp hb
        rw [splitLines_fed_of_unbroken hp hfirst, List.take_succ_cons, List.take_succ_cons,
          List.map_cons, ih (Nat.le_of_succ_le_succ hn) hb]

/-- Every inner boundary of an earlier line moves a line by one. -/
theorem getElem?_splitLines_moved {cs p : List Char} {i : Nat}
    (h : (numberedLines cs)[i]? = some p) :
    (splitLines cs)[i + (((numberedLines cs).take i).map innerBreaks).sum]? =
      some (p.takeWhile (!isLineBreak ·)) := by
  revert i
  refine feed_induction (M := fun cs => ∀ {i}, (numberedLines cs)[i]? = some p →
    (splitLines cs)[i + (((numberedLines cs).take i).map innerBreaks).sum]? =
      some (p.takeWhile (!isLineBreak ·))) ?_ ?_ cs
  · intro q hq i h
    rw [numberedLines_last hq] at h ⊢
    by_cases hnil : q = []
    · simp [hnil] at h
    · rw [if_neg hnil] at h ⊢
      cases i with
      | zero =>
        cases h
        rw [← head?_splitLines hnil, List.head?_eq_getElem?]
        rfl
      | succ i => simp at h
  · intro q rest hq ih i h
    rw [numberedLines_fed hq] at h ⊢
    cases i with
    | zero =>
      cases h
      rw [← takeWhile_fed p rest, ← head?_splitLines (by simp), List.head?_eq_getElem?]
      rfl
    | succ i =>
      have hlength := length_splitOnP isLineBreak (withoutReturn q)
      rw [List.take_succ_cons, List.map_cons, List.sum_cons, splitLines_fed hq,
        List.getElem?_append_right (by rw [hlength, innerBreaks]; omega), ← ih h]
      congr 1
      rw [hlength, innerBreaks]
      omega

end Text

open Text

private theorem lineIndex_succ (i : Nat) : lineIndex (some ((i : Int) + 1)) = i := by
  simp [lineIndex]

/-- The line that is measured for a diagnostic, if its number is that of a numbered line. The lines
up to it are the numbered ones, without the carriage returns that belong to their ends, exactly if
none of these has an inner boundary. In general the numbered line begins further down, by one line
for each inner boundary of those before it. -/
theorem Diagnostic.measured_line_numbered_iff {document : String} {i : Nat}
    (hi : i < (numberedLines document.toList).length) :
    let lines := splitLines document.toList
    let numbered := numberedLines document.toList
    ∃ line piece, lines[i]? = some line ∧ numbered[i]? = some piece ∧
      (∀ d : Diagnostic, d.line = some ((i : Int) + 1) →
        ∀ ds es marks, Mark.ofErrors document ds es = .ok marks → d ∈ ds →
          ⟨.onLine i (Span.inLine d.message line).1 (Span.inLine d.message line).2, d.message⟩ ∈
            marks) ∧
      (lines.take (i + 1) = (numbered.take (i + 1)).map withoutReturn ↔
        ∀ p ∈ numbered.take (i + 1), innerBreaks p = 0) ∧
      lines[i + ((numbered.take i).map innerBreaks).sum]? =
        some (piece.takeWhile (!isLineBreak ·)) := by
  intro lines numbered
  obtain ⟨piece, hpiece⟩ : ∃ piece, numbered[i]? = some piece := ⟨_, List.getElem?_eq_getElem hi⟩
  have hmoved := getElem?_splitLines_moved hpiece
  have hlt : i < lines.length := by
    have hbegin := (List.getElem?_eq_some_iff.mp hmoved).1
    exact Nat.lt_of_le_of_lt (Nat.le_add_right _ _) hbegin
  obtain ⟨line, hline⟩ : ∃ line, lines[i]? = some line := ⟨_, List.getElem?_eq_getElem hlt⟩
  refine ⟨line, piece, hline, hpiece, ?_, take_splitLines_iff hi, hmoved⟩
  intro d hd ds es marks hmarks hmem
  have hindex : lineIndex d.line = i := by rw [hd, lineIndex_succ]
  have hrange : d.range document =
      .onLine i (Span.inLine d.message line).1 (Span.inLine d.message line).2 := by
    rw [Diagnostic.range, Span.ofDiagnostic_within (by rw [hindex]; exact hline), hindex]
  rw [← hrange]
  exact Mark.mark_mem_of_ofErrors hmarks hmem

/-- A carriage return before a line feed is no inner boundary. -/
theorem Diagnostic.measured_line_numbered_iff_returns :
    let document := "int x;\r\nx = y;\r\nx = z;\r"
    let lines := splitLines document.toList
    2 < (numberedLines document.toList).length ∧
      (numberedLines document.toList).map withoutReturn =
        ["int x;".toList, "x = y;".toList, "x = z;".toList] ∧
      lines.take 3 = ["int x;".toList, "x = y;".toList, "x = z;".toList] := by
  intro document lines
  have hi : 2 < (numberedLines document.toList).length := by decide +kernel
  obtain ⟨_, _, -, -, -, hagree, -⟩ := measured_line_numbered_iff hi
  have hlines : lines.take 3 = _ := hagree.mpr (by decide +kernel)
  exact ⟨hi, by decide +kernel, hlines.trans (by decide +kernel)⟩

/-- The form feed in the comment ends a line, so the second line that is measured is the rest of the
comment, and the name that the diagnostic quotes is not found. -/
theorem Diagnostic.measured_line_moved :
    let document := "/* \x0c */\nint x = y;\n"
    let d := Finding.diagnostic ⟨some 2, .variableUndeclared "y"⟩
    (numberedLines document.toList)[1]?.map withoutReturn = some "int x = y;".toList ∧
      (splitLines document.toList)[lineIndex d.line]? = some " */".toList ∧
      Mark.ofErrors document [d] [] = .ok [⟨.onLine 1 0 3, d.message⟩] := by
  intro document d
  have hrange : d.range document = .onLine 1 0 3 := by decide +kernel
  have htaken : (Range.onLine 1 0 3).InRange := by decide
  refine ⟨by decide +kernel, by decide +kernel, ?_⟩
  rw [Mark.ofErrors_eq_ok_iff, ← hrange]
  exact ⟨List.forall_mem_nil _, List.forall_mem_singleton.mpr (hrange ▸ htaken), rfl⟩

end MiniCheck
