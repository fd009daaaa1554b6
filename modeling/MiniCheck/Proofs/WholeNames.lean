import MiniCheck.Proofs.Highlights

/-!
# Whole names

A name stands in a line as a whole where no character of a word is next to it, and everywhere else
it is a part of a longer word. A mark covers the first place where the name is found at all. So it
misses the name if a longer word with the name in it stands further left, and only then.
-/

namespace MiniCheck

namespace Text

/-- The characters of which the grammar makes names and keywords. -/
def isWordChar (c : Char) : Bool := c.isAlphanum || c == '_'

section

variable (word : Char → Bool) (line name : List Char)

/-- The name stands after `i` characters of the line, and what is next to it belongs to no word. -/
def WholeAt (i : Nat) : Prop :=
  ∃ before after, line = before ++ (name ++ after) ∧ before.length = i ∧
    before.getLast?.any word = false ∧ after.head?.any word = false

/-- The name stands after `i` characters of the line as a part of a longer word. -/
def InsideAt (i : Nat) : Prop :=
  ∃ before left right after, line = before ++ left ++ (name ++ (right ++ after)) ∧
    (before ++ left).length = i ∧ left ++ right ≠ [] ∧ ∀ c ∈ left ++ name ++ right, word c = true

end

variable {word : Char → Bool} {line name : List Char} {i : Nat}

private theorem WholeAt.occurs (h : WholeAt word line name i) : name <+: line.drop i := by
  obtain ⟨before, after, rfl, rfl, -⟩ := h
  rw [List.drop_left]
  exact List.prefix_append _ _

private theorem InsideAt.occurs (h : InsideAt word line name i) : name <+: line.drop i := by
  obtain ⟨before, left, right, after, rfl, rfl, -⟩ := h
  rw [List.drop_left]
  exact List.prefix_append _ _

private theorem exists_split_of_occurs (hne : name ≠ []) (h : name <+: line.drop i) :
    ∃ before after, line = before ++ (name ++ after) ∧ before.length = i := by
  obtain ⟨after, hafter⟩ := h
  have hi : i ≤ line.length := by
    apply Nat.le_of_not_lt
    intro hlt
    rw [List.drop_eq_nil_of_le (Nat.le_of_lt hlt)] at hafter
    exact hne (List.append_eq_nil_iff.mp hafter).1
  exact ⟨line.take i, after, by rw [hafter, List.take_append_drop], List.length_take_of_le hi⟩

/-- Where a name stands, it is whole or a part of a longer word. -/
theorem whole_or_inside (hne : name ≠ []) (hword : ∀ c ∈ name, word c = true)
    (h : name <+: line.drop i) : WholeAt word line name i ∨ InsideAt word line name i := by
  obtain ⟨before, after, rfl, rfl⟩ := exists_split_of_occurs hne h
  cases hleft : before.getLast?.any word with
  | true =>
    obtain ⟨c, hc, hcw⟩ := (Option.any_eq_true _ _).mp hleft
    obtain ⟨rest, rfl⟩ := List.getLast?_eq_some_iff.mp hc
    refine .inr ⟨rest, [c], [], after, by simp, by simp, by simp, ?_⟩
    simpa [hcw] using hword
  | false =>
    cases hright : after.head?.any word with
    | true =>
      obtain ⟨c, hc, hcw⟩ := (Option.any_eq_true _ _).mp hright
      obtain ⟨rest, rfl⟩ := List.head?_eq_some_iff.mp hc
      refine .inr ⟨before, [], [c], rest, by simp, by simp, by simp, ?_⟩
      simpa [or_imp, forall_and, hcw] using hword
    | false => exact .inl ⟨before, after, rfl, rfl, hleft, hright⟩

private theorem WholeAt.not_insideAt (h : WholeAt word line name i) :
    ¬ InsideAt word line name i := by
  rintro ⟨before', left, right, after', hline, hi', hne, hword⟩
  obtain ⟨before, after, rfl, rfl, hleft, hright⟩ := h
  obtain ⟨rfl, hrest⟩ := List.append_inj hline hi'.symm
  obtain rfl := List.append_cancel_left hrest
  cases right with
  | cons c cs =>
    have hc : word c = true := hword c (by simp)
    simp [hc] at hright
  | nil =>
    have hl : left ≠ [] := by simpa using hne
    have hc : word (left.getLast hl) = true := hword _ (by simp)
    simp [List.getLast?_append, List.getLast?_eq_some_getLast hl, hc] at hleft

end Text

open Text

/-- The range over a name that stands after `i` characters of a line. -/
def Range.covering (index : Nat) (name : List Char) (i : Nat) : Range :=
  .onLine index i (i + name.length : Nat)

private theorem Range.covering_inj {index : Nat} {name : List Char} {i j : Nat} :
    covering index name i = covering index name j ↔ i = j := by
  constructor
  · intro h
    exact Int.ofNat.inj (congrArg (fun r => r.start.character) h)
  · rintro rfl
    rfl

section

variable {word : Char → Bool} {document : String} {d : Diagnostic} {line name : List Char}

/-- The range of a diagnostic that quotes a name of its line is over the name where it stands
first. -/
theorem Diagnostic.range_of_found
    (hline : (splitLines document.toList)[lineIndex d.line]? = some line)
    (hname : FirstQuoted d.message.toList name) {i : Nat} (hi : name <+: line.drop i) :
    ∃ start, d.range document = .covering (lineIndex d.line) name start ∧
      name <+: line.drop start ∧ ∀ j, name <+: line.drop j → start ≤ j := by
  have hfound : name <:+: line := hi.isInfix.trans (List.drop_suffix i line).isInfix
  obtain ⟨start, hstart, hpart⟩ := Span.inLine_of_found hname hfound
  obtain ⟨hthere, hleft⟩ := indexOf_eq_some hstart
  refine ⟨start, ?_, hthere, hleft⟩
  rw [Diagnostic.range, Span.ofDiagnostic_within hline, hpart]
  rfl

/-- A diagnostic that quotes a name, on a line in which the name stands as a whole. Its mark is over
a whole name exactly if every longer word with the name in it has a whole name further left, and
over a part of a longer word exactly if there is one with no whole name further left. This is so
whatever characters words are made of, if the name is made of them. -/
theorem Diagnostic.range_over_whole_name_iff
    (hline : (splitLines document.toList)[lineIndex d.line]? = some line)
    (hname : FirstQuoted d.message.toList name) (hword : ∀ c ∈ name, word c = true)
    (hwhole : ∃ i, WholeAt word line name i) :
    (∀ ds es marks, Mark.ofErrors document ds es = .ok marks → d ∈ ds →
      ⟨d.range document, d.message⟩ ∈ marks) ∧
    ((∃ i, WholeAt word line name i ∧ d.range document = .covering (lineIndex d.line) name i) ↔
      ∀ j, InsideAt word line name j → ∃ i < j, WholeAt word line name i) ∧
    ((∃ j, InsideAt word line name j ∧ d.range document = .covering (lineIndex d.line) name j) ↔
      ∃ j, InsideAt word line name j ∧ ∀ i < j, ¬ WholeAt word line name i) := by
  have hne : name ≠ [] := by
    obtain ⟨_, ⟨_, _, hne, _⟩, _⟩ := hname
    exact hne
  obtain ⟨i₀, hi₀⟩ := hwhole
  obtain ⟨start, hrange, hthere, hleft⟩ := range_of_found hline hname hi₀.occurs
  -- Both kinds of places come after the first one, and no place is of both kinds.
  have hright : ∀ {j}, WholeAt word line name start → InsideAt word line name j → start < j := by
    intro j hw hj
    refine Nat.lt_of_le_of_ne (hleft j hj.occurs) ?_
    rintro rfl
    exact hw.not_insideAt hj
  rw [hrange]
  simp only [Range.covering_inj]
  refine ⟨?_, ?_, ?_⟩
  · intro ds es marks hmarks hd
    rw [← hrange]
    exact Mark.mark_mem_of_ofErrors hmarks hd
  · constructor
    · rintro ⟨i, hw, rfl⟩ j hj
      exact ⟨start, hright hw hj, hw⟩
    · intro hall
      rcases whole_or_inside hne hword hthere with hw | hin
      · exact ⟨start, hw, rfl⟩
      · obtain ⟨i, hlt, hw⟩ := hall start hin
        exact absurd (hleft i hw.occurs) (Nat.not_le_of_lt hlt)
  · constructor
    · rintro ⟨j, hj, rfl⟩
      exact ⟨start, hj, fun i hlt hw => Nat.not_le_of_lt hlt (hleft i hw.occurs)⟩
    · rintro ⟨j, hj, hnone⟩
      rcases whole_or_inside hne hword hthere with hw | hin
      · exact absurd hw (hnone start (hright hw hj))
      · exact ⟨start, hin, rfl⟩

end

/-- The name stands in the longer word further right. -/
theorem Diagnostic.range_over_whole_name_iff_first :
    let document := "max = 0;\nx = max + x;\n"
    let line := "x = max + x;".toList
    let d : Diagnostic := ⟨some 2, "Variable 'x' was not declared before use."⟩
    (splitLines document.toList)[lineIndex d.line]? = some line ∧
      FirstQuoted d.message.toList ['x'] ∧ WholeAt isWordChar line ['x'] 0 ∧
      InsideAt isWordChar line ['x'] 6 ∧
      ∃ i, WholeAt isWordChar line ['x'] i ∧ d.range document = .covering 1 ['x'] i := by
  intro document line d
  have hline : (splitLines document.toList)[lineIndex d.line]? = some line := by decide +kernel
  have hname : FirstQuoted d.message.toList ['x'] := quotedPiece_eq_some_iff.mp (by decide +kernel)
  have hwhole : WholeAt isWordChar line ['x'] 0 :=
    ⟨[], " = max + x;".toList, by decide +kernel, rfl, rfl, by decide +kernel⟩
  have hinside : InsideAt isWordChar line ['x'] 6 :=
    ⟨"x = ".toList, "ma".toList, [], " + x;".toList, by decide +kernel, by decide +kernel,
      by decide +kernel, List.all_eq_true.mp rfl⟩
  have hright :
      ∀ j, InsideAt isWordChar line ['x'] j → ∃ i < j, WholeAt isWordChar line ['x'] i := by
    intro j hj
    refine ⟨0, Nat.pos_of_ne_zero ?_, hwhole⟩
    rintro rfl
    exact hwhole.not_insideAt hj
  exact ⟨hline, hname, hwhole, hinside,
    (range_over_whole_name_iff hline hname (List.all_eq_true.mp rfl) ⟨0, hwhole⟩).2.1.mpr hright⟩

/-- The mark is over the end of the keyword, although the name stands further right as a whole. -/
theorem Diagnostic.range_over_keyword :
    let document := "int x = t;\n"
    let line := "int x = t;".toList
    let d := Finding.diagnostic ⟨some 1, .variableUndeclared "t"⟩
    (splitLines document.toList)[lineIndex d.line]? = some line ∧
      FirstQuoted d.message.toList ['t'] ∧ WholeAt isWordChar line ['t'] 8 ∧
      Mark.ofErrors document [d] [] = .ok [⟨.covering 0 ['t'] 2, d.message⟩] ∧
      InsideAt isWordChar line ['t'] 2 ∧ ¬ WholeAt isWordChar line ['t'] 2 := by
  intro document line d
  have hinside : InsideAt isWordChar line ['t'] 2 :=
    ⟨[], "in".toList, [], " x = t;".toList, by decide +kernel, by decide +kernel, by decide +kernel,
      List.all_eq_true.mp rfl⟩
  have hrange : d.range document = .covering 0 ['t'] 2 := by decide +kernel
  have hmarks : Mark.ofErrors document [d] [] = .ok [⟨.covering 0 ['t'] 2, d.message⟩] := by
    have htaken : (Range.covering 0 ['t'] 2).InRange := by decide
    rw [Mark.ofErrors_eq_ok_iff, ← hrange]
    exact ⟨List.forall_mem_nil _, List.forall_mem_singleton.mpr (hrange ▸ htaken), rfl⟩
  refine ⟨by decide +kernel, quotedPiece_eq_some_iff.mp (by decide +kernel), ?_, hmarks, hinside,
    fun h => h.not_insideAt hinside⟩
  exact ⟨"int x = ".toList, [';'], by decide +kernel, by decide +kernel, by decide +kernel, rfl⟩

end MiniCheck
