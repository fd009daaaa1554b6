import MiniCheck.Proofs.Answers

/-!
# What a mark highlights

The span of a diagnostic is found by splitting the document into lines, by taking the first quoted
piece out of the message and by searching for that piece in the line. Each of the three is described
here without the algorithm: what the lines of a text are, which piece is the first quoted one, and
where a piece occurs first.
-/

namespace MiniCheck

namespace Text

/-- The characters that end a line: line feed, vertical tab, form feed, carriage return, the
separators of files, groups and records, next line, and the separators of lines and paragraphs. -/
def lineBoundaries : List Char :=
  ['\n', '\x0b', '\x0c', '\r', '\x1c', '\x1d', '\x1e', '\u0085', '\u2028', '\u2029']

private theorem isLineBreak_iff {c : Char} : isLineBreak c = true ↔ c ∈ lineBoundaries := by
  simp only [isLineBreak, lineBoundaries, List.mem_cons, List.not_mem_nil, or_false,
    ← Char.toNat_inj, Char.reduceToNat, Bool.or_eq_true, Bool.and_eq_true, decide_eq_true_eq,
    beq_iff_eq]
  omega

theorem isLineBreak_eq_false_iff {c : Char} : isLineBreak c = false ↔ c ∉ lineBoundaries := by
  rw [← isLineBreak_iff, Bool.not_eq_true]

/-- What ends a line in front of `rest`. A carriage return takes a line feed along. -/
inductive Boundary : List Char → List Char → Prop
  | both {rest} : Boundary ['\r', '\n'] rest
  | single {c rest} : c ∈ lineBoundaries → (c = '\r' → rest.head? ≠ some '\n') → Boundary [c] rest

/-- The second list has the lines of the first. Only the last line may lack a boundary after it, and
then it is not empty. -/
inductive Lined : List Char → List (List Char) → Prop
  | nil : Lined [] []
  | last {line} : line ≠ [] → (∀ c ∈ line, c ∉ lineBoundaries) → Lined line [line]
  | cons (line) {boundary rest lines} : (∀ c ∈ line, c ∉ lineBoundaries) →
      Boundary boundary rest → Lined rest lines →
      Lined (line ++ boundary ++ rest) (line :: lines)

private theorem Lined.consLine {c : Char} {cs : List Char} {lines : List (List Char)}
    (h : Lined cs lines) (hc : c ∉ lineBoundaries) :
    Lined (c :: cs) (Text.consLine c lines) := by
  cases h with
  | nil => exact .last (List.cons_ne_nil _ _) (by simpa using hc)
  | last _ hfree =>
    exact .last (List.cons_ne_nil _ _) (List.forall_mem_cons.mpr ⟨hc, hfree⟩)
  | cons line hfree hb hrest =>
    exact .cons (c :: line) (List.forall_mem_cons.mpr ⟨hc, hfree⟩) hb hrest

theorem lined_splitLines (cs : List Char) : Lined cs (splitLines cs) := by
  fun_induction splitLines cs with
  | case1 => exact .nil
  | case2 cs ih => exact .cons [] (by simp) .both ih
  | case3 c cs hnot hc ih =>
    refine .cons [] (by simp) (.single (isLineBreak_iff.mp hc) ?_) ih
    -- A line feed after the carriage return would belong to the case before.
    rintro rfl hhead
    obtain ⟨rest, rfl⟩ := List.head?_eq_some_iff.mp hhead
    exact hnot rest rfl rfl
  | case4 c cs hnot hc ih => exact ih.consLine fun hm => hc (isLineBreak_iff.mpr hm)

/-- After `before` stands a quotation mark, then `piece`, which is not empty and has none, and then
the next quotation mark. -/
def QuotedAfter (cs before piece : List Char) : Prop :=
  ∃ after, cs = before ++ quoteMark :: (piece ++ quoteMark :: after) ∧ piece ≠ [] ∧
    quoteMark ∉ piece

/-- The piece is quoted, and no piece is quoted further left. -/
def FirstQuoted (cs piece : List Char) : Prop :=
  ∃ before, QuotedAfter cs before piece ∧
    ∀ before' piece', QuotedAfter cs before' piece' → before.length ≤ before'.length

private theorem quotedHead_eq_some_iff {cs piece : List Char} :
    quotedHead cs = some piece ↔
      ∃ after, cs = piece ++ quoteMark :: after ∧ piece ≠ [] ∧ quoteMark ∉ piece := by
  constructor
  · intro h
    simp only [quotedHead, Option.ite_none_right_eq_some, Bool.and_eq_true, Bool.not_eq_true',
      List.isEmpty_eq_false_iff, decide_eq_true_eq, Option.some.injEq] at h
    obtain ⟨⟨hne, hlt⟩, rfl⟩ := h
    have hparts : cs.takeWhile (· != quoteMark) ++ cs.dropWhile (· != quoteMark) = cs :=
      List.takeWhile_append_dropWhile
    have hnot : quoteMark ∉ cs.takeWhile (· != quoteMark) := by
      intro hm
      have hq := List.all_eq_true.mp List.all_takeWhile _ hm
      simp at hq
    cases hrest : cs.dropWhile (· != quoteMark) with
    | nil =>
      rw [hrest, List.append_nil] at hparts
      rw [hparts] at hlt
      exact absurd hlt (Nat.lt_irrefl _)
    | cons c after =>
      have hfirst := List.head?_dropWhile_not (· != quoteMark) cs
      rw [hrest] at hfirst
      obtain rfl : c = quoteMark := by simpa using hfirst
      exact ⟨after, by rw [← hrest, hparts], hne, hnot⟩
  · rintro ⟨after, rfl, hne, hnot⟩
    have hbefore : ∀ c ∈ piece, (c != quoteMark) = true := by
      intro c hc
      exact bne_iff_ne.mpr fun h => hnot (h ▸ hc)
    have htake : (piece ++ quoteMark :: after).takeWhile (· != quoteMark) = piece := by
      rw [List.takeWhile_append_of_pos hbefore]
      simp
    simp [quotedHead, htake, hne]

private theorem quotedAfter_cons_iff {c : Char} {cs before piece : List Char} :
    QuotedAfter (c :: cs) before piece ↔
      (before = [] ∧ c = quoteMark ∧ quotedHead cs = some piece) ∨
        ∃ before', before = c :: before' ∧ QuotedAfter cs before' piece := by
  cases before with
  | nil => simp [QuotedAfter, quotedHead_eq_some_iff, and_assoc]
  | cons b before =>
    constructor
    · rintro ⟨after, hcs, hpiece⟩
      obtain ⟨rfl, rfl⟩ := List.cons.inj hcs
      exact .inr ⟨before, rfl, after, rfl, hpiece⟩
    · rintro (⟨hnil, -⟩ | ⟨before', hbefore, after, rfl, hpiece⟩)
      · cases hnil
      · rw [hbefore]
        exact ⟨after, rfl, hpiece⟩

/-- A mark that opens no quotation makes no difference. -/
theorem firstQuoted_cons_iff {c : Char} {cs piece : List Char}
    (h : c = quoteMark → quotedHead cs = none) :
    FirstQuoted (c :: cs) piece ↔ FirstQuoted cs piece := by
  have hafter : ∀ before piece, QuotedAfter (c :: cs) before piece ↔
      ∃ before', before = c :: before' ∧ QuotedAfter cs before' piece := by
    intro before piece
    rw [quotedAfter_cons_iff, or_iff_right]
    rintro ⟨-, hc, hpiece⟩
    rw [h hc] at hpiece
    cases hpiece
  constructor
  · rintro ⟨before, hquoted, hleft⟩
    obtain ⟨tail, rfl, htail⟩ := (hafter _ _).mp hquoted
    refine ⟨tail, htail, ?_⟩
    intro tail' piece' htail'
    exact Nat.le_of_succ_le_succ (hleft _ piece' ((hafter _ _).mpr ⟨tail', rfl, htail'⟩))
  · rintro ⟨before, hquoted, hleft⟩
    refine ⟨c :: before, (hafter _ _).mpr ⟨before, rfl, hquoted⟩, ?_⟩
    intro before' piece' hquoted'
    obtain ⟨tail', rfl, htail'⟩ := (hafter _ _).mp hquoted'
    exact Nat.succ_le_succ (hleft tail' piece' htail')

theorem quotedPiece_eq_some_iff {cs piece : List Char} :
    quotedPiece cs = some piece ↔ FirstQuoted cs piece := by
  fun_induction quotedPiece cs with
  | case1 => simp [FirstQuoted, QuotedAfter]
  | case2 c cs hc first hfirst =>
    have hhere : QuotedAfter (c :: cs) [] first :=
      quotedAfter_cons_iff.mpr (.inl ⟨rfl, by simpa using hc, hfirst⟩)
    constructor
    · rintro ⟨⟩
      exact ⟨[], hhere, fun _ _ _ => Nat.zero_le _⟩
    · rintro ⟨before, hquoted, hleft⟩
      obtain rfl : before = [] :=
        List.eq_nil_of_length_eq_zero (Nat.le_zero.mp (hleft [] first hhere))
      rcases quotedAfter_cons_iff.mp hquoted with ⟨-, -, hpiece⟩ | ⟨before', hnil, -⟩
      · rw [← hfirst, hpiece]
      · cases hnil
  | case3 c cs hc hnone ih => rw [ih, firstQuoted_cons_iff fun _ => hnone]
  | case4 c cs hc ih => rw [ih, firstQuoted_cons_iff fun h => absurd h (by simpa using hc)]

theorem indexOf_eq_some {piece line : List Char} {i : Nat} (h : indexOf piece line = some i) :
    piece <+: line.drop i ∧ ∀ j, piece <+: line.drop j → i ≤ j := by
  induction line generalizing i with
  | nil =>
    obtain ⟨rfl, rfl⟩ : piece = [] ∧ 0 = i := by simpa [indexOf] using h
    exact ⟨List.nil_prefix, fun j _ => Nat.zero_le j⟩
  | cons c cs ih =>
    rw [indexOf] at h
    split at h
    · next hhere =>
      cases h
      exact ⟨List.isPrefixOf_iff_prefix.mp hhere, fun j _ => Nat.zero_le j⟩
    · next hhere =>
      obtain ⟨k, hk, rfl⟩ := Option.map_eq_some_iff.mp h
      obtain ⟨hthere, hleft⟩ := ih hk
      refine ⟨hthere, ?_⟩
      intro j hj
      cases j with
      | zero => exact absurd (List.isPrefixOf_iff_prefix.mpr hj) hhere
      | succ j => exact Nat.succ_le_succ (hleft j hj)

private theorem indexOf_eq_none_iff {piece line : List Char} :
    indexOf piece line = none ↔ ¬ piece <:+: line := by
  induction line with
  | nil => simp [indexOf, List.infix_nil]
  | cons c cs ih =>
    rw [indexOf, List.infix_cons_iff, ← List.isPrefixOf_iff_prefix]
    split
    · next hhere => simp [hhere]
    · next hhere => simp [hhere, ih]

end Text

theorem Span.inLine_of_found {message : String} {line piece : List Char}
    (hpiece : Text.FirstQuoted message.toList piece) (hfound : piece <:+: line) :
    ∃ start, Text.indexOf piece line = some start ∧
      inLine message line = (start, start + piece.length) := by
  have hquoted := Text.quotedPiece_eq_some_iff.mpr hpiece
  have hindex : Text.indexOf piece line ≠ none := fun h => Text.indexOf_eq_none_iff.mp h hfound
  obtain ⟨start, hstart⟩ := Option.ne_none_iff_exists'.mp hindex
  exact ⟨start, hstart, by simp only [inLine, hquoted, hstart]⟩

private theorem Span.inLine_of_not_found {message : String} {line : List Char}
    (h : ∀ piece, Text.FirstQuoted message.toList piece → ¬ piece <:+: line) :
    inLine message line = (0, line.length) := by
  cases hquoted : Text.quotedPiece message.toList with
  | none => simp only [inLine, hquoted]
  | some piece =>
    have hnone := Text.indexOf_eq_none_iff.mpr (h piece (Text.quotedPiece_eq_some_iff.mp hquoted))
    simp only [inLine, hquoted, hnone]

private theorem Span.inLine_ordered (message : String) (line : List Char) :
    (inLine message line).1 ≤ (inLine message line).2 := by
  unfold inLine
  split
  · exact Nat.zero_le _
  · split
    · exact Nat.zero_le _
    · exact Nat.le_add_right _ _

/-- The span of a diagnostic lies on the line of its number, where a missing number, zero and
negative ones lead to the first line, and it does not end before it starts. After the last line it
is empty. On a line of the document it ends within the line. If the first quoted piece of the
message occurs in the line, the span covers that piece where it occurs first; otherwise it covers
the line. -/
theorem Span.ofDiagnostic_highlights (document : String) (d : Diagnostic) :
    let lines := Text.splitLines document.toList
    let span := ofDiagnostic lines d
    Text.Lined document.toList lines ∧
    (∀ m, Mark.ofDiagnostic lines d = .ok m →
      m.range = ⟨⟨span.line, span.start⟩, ⟨span.line, span.stop⟩⟩) ∧
    (span.line : Int) = d.line.elim 0 (fun n => max (n - 1) 0) ∧
    span.start ≤ span.stop ∧
    (lines.length ≤ span.line → span.start = 0 ∧ span.stop = 0) ∧
    ∀ line, lines[span.line]? = some line →
      span.stop ≤ line.length ∧
      (∀ piece, Text.FirstQuoted d.message.toList piece → piece <:+: line →
        (line.take span.stop).drop span.start = piece ∧
          ∀ i, piece <+: line.drop i → span.start ≤ i) ∧
      ((∀ piece, Text.FirstQuoted d.message.toList piece → ¬ piece <:+: line) →
        span.start = 0 ∧ span.stop = line.length) := by
  intro lines span
  have hline : span.line = lineIndex d.line := line_ofDiagnostic lines d
  have hnumber : (lineIndex d.line : Int) = d.line.elim 0 (fun n => max (n - 1) 0) := by
    cases d.line with
    | none => rfl
    | some n =>
      rw [lineIndex, Option.getD_some, Option.elim_some]
      omega
  have hrange : ∀ m, Mark.ofDiagnostic lines d = .ok m →
      m.range = ⟨⟨span.line, span.start⟩, ⟨span.line, span.stop⟩⟩ := by
    intro m hm
    rw [Mark.ofDiagnostic_eq_verdict, verdict_eq_ok_iff] at hm
    rw [hm.2]
    rfl
  refine ⟨Text.lined_splitLines _, hrange, by rw [hline, hnumber], ?_, ?_, ?_⟩
  · cases hfound : lines[lineIndex d.line]? with
    | none =>
      have hspan : span = _ := ofDiagnostic_after hfound
      rewrite [hspan]
      exact Nat.le_refl 0
    | some line =>
      have hspan : span = _ := ofDiagnostic_within hfound
      rw [hspan]
      exact inLine_ordered _ _
  · intro hafter
    have hnone : lines[lineIndex d.line]? = none := List.getElem?_eq_none (hline ▸ hafter)
    have hspan : span = _ := ofDiagnostic_after hnone
    rw [hspan]
    exact ⟨rfl, rfl⟩
  · intro line hl
    rw [hline] at hl
    have hspan : span = _ := ofDiagnostic_within hl
    rw [hspan]
    refine ⟨(inLine_le d.message line).2, ?_, ?_⟩
    · intro piece hpiece hfound
      obtain ⟨start, hstart, hpart⟩ := inLine_of_found hpiece hfound
      obtain ⟨hthere, hleft⟩ := Text.indexOf_eq_some hstart
      have hslice : (line.take (start + piece.length)).drop start = piece := by
        rw [← List.take_drop]
        exact (List.prefix_iff_eq_take.mp hthere).symm
      rw [hpart]
      exact ⟨hslice, hleft⟩
    · intro hnone
      rw [inLine_of_not_found hnone]
      exact ⟨rfl, rfl⟩

end MiniCheck
