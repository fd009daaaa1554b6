import MiniCheck.Proofs.Marks

/-!
# Coordinates that an editor does not take

Marks cannot be made for a line number, a column or a line of text that is too large, or for a
negative column. The fault tells which coordinate was the first one out of range.
-/

namespace MiniCheck

private theorem Coordinate.outOfRange_iff (c : Coordinate) :
    c.outOfRange = true ↔ c.value < 0 ∨ 2147483647 < c.value := by
  rw [outOfRange, Bool.not_eq_true', ← Bool.not_eq_true, Position.inRange_iff]
  omega

/-- The line of the error is too large, or the error starts before its line or ends too far on. -/
def SyntaxError.Misplaced (e : SyntaxError) : Prop :=
  2147483647 < max (e.line - 1) 0 ∨ e.column < 0 ∨
    2147483647 < e.column + (max e.near.length 1 : Nat)

def Span.Misplaced (s : Span) : Prop :=
  2147483647 < s.line ∨ 2147483647 < s.start ∨ 2147483647 < s.stop

private theorem exists_outOfRange_onLine (line start stop : Int) :
    (∃ c ∈ (Range.onLine line start stop).coordinates, c.outOfRange = true) ↔
      (line < 0 ∨ 2147483647 < line) ∨ (start < 0 ∨ 2147483647 < start) ∨
        (stop < 0 ∨ 2147483647 < stop) := by
  simp only [Range.coordinates, Range.onLine, Position.coordinates, List.cons_append,
    List.nil_append, List.mem_cons, List.not_mem_nil, or_false, exists_eq_or_imp, exists_eq_left,
    Coordinate.outOfRange_iff]
  omega

private theorem SyntaxError.misplaced_iff (e : SyntaxError) :
    e.Misplaced ↔ ∃ c ∈ e.range.coordinates, c.outOfRange = true := by
  rw [SyntaxError.range, exists_outOfRange_onLine, Misplaced, lineIndex, Option.getD_some]
  omega

private theorem Diagnostic.misplaced_iff (document : String) (d : Diagnostic) :
    (Span.ofDiagnostic (Text.splitLines document.toList) d).Misplaced ↔
      ∃ c ∈ (d.range document).coordinates, c.outOfRange = true := by
  rw [Diagnostic.range, exists_outOfRange_onLine, Span.Misplaced]
  omega

private theorem Mark.exists_outOfRange_iff (document : String) (ds : List Diagnostic)
    (es : List SyntaxError) :
    (∃ c ∈ coordinates document ds es, c.outOfRange = true) ↔
      (∃ e ∈ es, e.Misplaced) ∨
        ∃ d ∈ ds, (Span.ofDiagnostic (Text.splitLines document.toList) d).Misplaced := by
  simp only [SyntaxError.misplaced_iff, Diagnostic.misplaced_iff, coordinates, List.mem_flatMap,
    List.mem_append, List.mem_map]
  constructor
  · rintro ⟨c, ⟨r, ⟨e, he, rfl⟩ | ⟨d, hd, rfl⟩, hc⟩, hout⟩
    · exact .inl ⟨e, he, c, hc, hout⟩
    · exact .inr ⟨d, hd, c, hc, hout⟩
  · rintro (⟨e, he, c, hc, hout⟩ | ⟨d, hd, c, hc, hout⟩)
    · exact ⟨c, ⟨_, .inl ⟨e, he, rfl⟩, hc⟩, hout⟩
    · exact ⟨c, ⟨_, .inr ⟨d, hd, rfl⟩, hc⟩, hout⟩

private theorem lineIndex_of_lt {line : Option Int} (h : 2147483647 < (lineIndex line : Int)) :
    ∃ n, line = some n ∧ (lineIndex line : Int) = n - 1 := by
  cases line with
  | none => simp [lineIndex] at h
  | some n =>
    refine ⟨n, rfl, ?_⟩
    rw [lineIndex, Option.getD_some] at h ⊢
    omega

private theorem Mark.line_outOfRange {document : String} {ds : List Diagnostic}
    {es : List SyntaxError} {c : Coordinate} (hc : c ∈ coordinates document ds es)
    (hout : c.outOfRange = true)
    (hfield : c.field = .line) :
    ∃ n, (n ∈ es.map SyntaxError.line ∨ some n ∈ ds.map Diagnostic.line) ∧ c.value = n - 1 ∧
      2147483647 < n - 1 := by
  have hline : ∀ {line : Nat} {start stop : Int},
      c ∈ (Range.onLine line start stop).coordinates → c.value = line := by
    intro line start stop hm
    simp only [Range.coordinates, Range.onLine, Position.coordinates, List.cons_append,
      List.nil_append, List.mem_cons, List.not_mem_nil, or_false] at hm
    rcases hm with rfl | rfl | rfl | rfl
    · rfl
    · cases hfield
    · rfl
    · cases hfield
  have hlarge : ∀ line, c.value = (lineIndex line : Int) →
      ∃ n, line = some n ∧ c.value = n - 1 ∧ 2147483647 < n - 1 := by
    intro line hvalue
    rw [Coordinate.outOfRange_iff, hvalue] at hout
    have hlt : 2147483647 < (lineIndex line : Int) := by omega
    obtain ⟨n, hn, hindex⟩ := lineIndex_of_lt hlt
    exact ⟨n, hn, hvalue.trans hindex, by omega⟩
  obtain ⟨r, hr, hm⟩ := List.mem_flatMap.mp hc
  rcases List.mem_append.mp hr with hr | hr
  · obtain ⟨e, he, rfl⟩ := List.mem_map.mp hr
    obtain ⟨n, hn, hvalue⟩ := hlarge _ (hline hm)
    obtain rfl := Option.some.inj hn
    exact ⟨_, .inl (List.mem_map_of_mem he), hvalue⟩
  · obtain ⟨d, hd, rfl⟩ := List.mem_map.mp hr
    obtain ⟨n, hn, hvalue⟩ := hlarge d.line (by rw [hline hm, Span.line_ofDiagnostic])
    exact ⟨n, .inr (hn ▸ List.mem_map_of_mem hd), hvalue⟩

/-- The marks of a document cannot be made exactly if a syntax error or the span of a diagnostic is
out of range. Then the fault is that of the first coordinate out of range, and its message has the
name of the field and the value; a line that is named comes from a line number that is too large,
and never from one that is missing, zero or negative. Otherwise there is one mark for each error,
first those of the syntax errors and then those of the diagnostics, in their order and with their
messages; and the range of a syntax error is not empty. -/
theorem Mark.ofErrors_fails_iff (document : String) (ds : List Diagnostic)
    (es : List SyntaxError) :
    let failing := (∃ e ∈ es, e.Misplaced) ∨
      ∃ d ∈ ds, (Span.ofDiagnostic (Text.splitLines document.toList) d).Misplaced
    ((∃ f, ofErrors document ds es = .error f) ↔ failing) ∧
    (failing → ∃ c, ofErrors document ds es = .error (.positionOutOfRange c.field c.value) ∧
      (coordinates document ds es).find? Coordinate.outOfRange = some c ∧
      (Fault.positionOutOfRange c.field c.value).message =
        "Position." ++ c.field.name ++ " should be in range [0:2147483647], but was " ++
          toString c.value ++ "." ∧
      (c.field = .line → ∃ n,
        (n ∈ es.map SyntaxError.line ∨ some n ∈ ds.map Diagnostic.line) ∧ c.value = n - 1 ∧
          2147483647 < n - 1)) ∧
    (¬ failing → ∃ marks, ofErrors document ds es = .ok marks ∧
      marks.map Mark.message = es.map SyntaxError.message ++ ds.map Diagnostic.message ∧
      marks.map Mark.range = es.map SyntaxError.range ++ ds.map (Diagnostic.range document) ∧
      ∀ e ∈ es, e.range.start.line = e.range.stop.line ∧
        e.range.start.character < e.range.stop.character) := by
  intro failing
  have hfailing : failing ↔
      ((coordinates document ds es).find? Coordinate.outOfRange).isSome = true := by
    rw [List.find?_isSome, exists_outOfRange_iff]
  cases hfind : (coordinates document ds es).find? Coordinate.outOfRange with
  | some c =>
    have hyes : failing := hfailing.mpr (by rw [hfind]; rfl)
    have herror : ofErrors document ds es = .error c.fault := by
      rw [ofErrors_eq_verdict, verdict_eq_error_iff]
      exact ⟨c, hfind, rfl⟩
    have hline := line_outOfRange (List.mem_of_find?_eq_some hfind) (List.find?_some hfind)
    exact ⟨iff_of_true ⟨_, herror⟩ hyes, fun _ => ⟨c, herror, rfl, rfl, hline⟩,
      fun hnot => absurd hyes hnot⟩
  | none =>
    have hno : ¬ failing := by simp [hfailing, hfind]
    have hok : ofErrors document ds es =
        .ok (es.map SyntaxError.mark ++ ds.map (Diagnostic.mark document)) := by
      rw [ofErrors_eq_verdict, verdict, hfind]
    refine ⟨iff_of_false ?_ hno, fun h => absurd h hno, fun _ => ⟨_, hok, ?_, ?_, ?_⟩⟩
    · rintro ⟨f, hf⟩
      cases hok.symm.trans hf
    · simp [SyntaxError.mark, Diagnostic.mark, Function.comp_def]
    · simp [SyntaxError.mark, Diagnostic.mark, Function.comp_def]
    · intro e _
      refine ⟨rfl, ?_⟩
      simp only [SyntaxError.range, Range.onLine]
      omega

end MiniCheck
