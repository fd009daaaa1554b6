import MiniCheck.Editor.Documents
import MiniCheck.Proofs.Lists

/-!
# Errors and their marks

Every error has a range in its document, whatever its numbers are. The marks of a document are made
coordinate by coordinate, and the first one that an editor does not take stops the work. So what
comes of it is known from the list of all coordinates in the order in which they are checked: those
of syntax errors before those of diagnostics, the start of a range before its end, and in a position
the line before the character. If an editor takes them all, there is one mark for each error, with
its range and its message.
-/

namespace MiniCheck

theorem Position.inRange_iff (n : Int) : inRange n = true ↔ 0 ≤ n ∧ n ≤ 2147483647 := by
  rw [inRange, Bool.and_eq_true, decide_eq_true_eq, decide_eq_true_eq, limit]

structure Coordinate where
  field : PositionField
  value : Int
  deriving DecidableEq, Repr

namespace Coordinate

def outOfRange (c : Coordinate) : Bool := !Position.inRange c.value

def fault (c : Coordinate) : Fault := .positionOutOfRange c.field c.value

end Coordinate

def Position.coordinates (p : Position) : List Coordinate :=
  [⟨.line, p.line⟩, ⟨.character, p.character⟩]

namespace Range

/-- The range between two characters of a line. -/
def onLine (line start stop : Int) : Range := ⟨⟨line, start⟩, ⟨line, stop⟩⟩

def coordinates (r : Range) : List Coordinate := r.start.coordinates ++ r.stop.coordinates

/-- An editor takes all coordinates of the range. -/
def InRange (r : Range) : Prop :=
  Position.inRange r.start.line = true ∧ Position.inRange r.start.character = true ∧
    Position.inRange r.stop.line = true ∧ Position.inRange r.stop.character = true

instance (r : Range) : Decidable r.InRange := inferInstanceAs (Decidable (_ ∧ _))

private theorem inRange_iff (r : Range) :
    r.InRange ↔ ∀ c ∈ r.coordinates, c.outOfRange = false := by
  simp [InRange, coordinates, Position.coordinates, Coordinate.outOfRange]

end Range

/-- The result `a`, or the fault of the first coordinate out of range. -/
def verdict {α : Type} (cs : List Coordinate) (a : α) : Except Fault α :=
  match cs.find? Coordinate.outOfRange with
  | some c => .error c.fault
  | none => .ok a

section Verdict

variable {α β : Type}

theorem verdict_eq_ok_iff {cs : List Coordinate} {a b : α} :
    verdict cs a = .ok b ↔ (∀ c ∈ cs, c.outOfRange = false) ∧ b = a := by
  have hnone : (∀ c ∈ cs, c.outOfRange = false) ↔ cs.find? Coordinate.outOfRange = none := by
    simp [List.find?_eq_none]
  rw [hnone, verdict]
  cases cs.find? Coordinate.outOfRange <;> simp [eq_comm]

theorem verdict_eq_error_iff {cs : List Coordinate} {a : α} {f : Fault} :
    verdict cs a = .error f ↔ ∃ c, cs.find? Coordinate.outOfRange = some c ∧ c.fault = f := by
  rw [verdict]
  cases cs.find? Coordinate.outOfRange <;> simp

private theorem verdict_append (cs ds : List Coordinate) (a : α) (b : β) (rest : α → Except Fault β)
    (h : rest a = verdict ds b) : verdict cs a >>= rest = verdict (cs ++ ds) b := by
  unfold verdict
  rw [List.find?_append]
  cases hc : cs.find? Coordinate.outOfRange with
  | some c => rfl
  | none => exact h

private theorem verdict_map (cs : List Coordinate) (a : α) (g : α → β) :
    (do return g (← verdict cs a)) = verdict cs (g a) := by
  have h := verdict_append cs [] a (g a) (fun a => return g a) rfl
  rwa [List.append_nil] at h

private theorem mapM_eq_verdict {f : α → Except Fault β} {cs : α → List Coordinate} {g : α → β}
    (hf : ∀ x, f x = verdict (cs x) (g x)) (l : List α) :
    l.mapM f = verdict (l.flatMap cs) (l.map g) := by
  induction l with
  | nil => rfl
  | cons x l ih =>
    rw [List.mapM_cons, hf x, List.flatMap_cons]
    apply verdict_append
    rw [ih]
    exact verdict_map _ _ _

end Verdict

private theorem Position.checked_eq_verdict (line character : Int) :
    Position.checked line character =
      verdict (Position.coordinates ⟨line, character⟩) ⟨line, character⟩ := by
  cases hl : inRange line with
  | false => simp [checked, verdict, coordinates, Coordinate.outOfRange, Coordinate.fault, hl]
  | true =>
    cases hc : inRange character <;>
      simp [checked, verdict, coordinates, Coordinate.outOfRange, Coordinate.fault, hl, hc]

private theorem Range.checked_eq_verdict (line start stop : Int) :
    Range.checked line start stop =
      verdict (onLine line start stop).coordinates (onLine line start stop) := by
  rw [Range.checked, Position.checked_eq_verdict]
  apply verdict_append
  rw [Position.checked_eq_verdict]
  exact verdict_map _ _ _

def SyntaxError.range (e : SyntaxError) : Range :=
  let width := max e.near.length 1
  .onLine (lineIndex (some e.line)) e.column (e.column + width)

def SyntaxError.mark (e : SyntaxError) : Mark := ⟨e.range, e.message⟩

def Diagnostic.range (document : String) (d : Diagnostic) : Range :=
  let span := Span.ofDiagnostic (Text.splitLines document.toList) d
  .onLine span.line span.start span.stop

theorem Span.ofDiagnostic_after {lines : List (List Char)} {d : Diagnostic}
    (h : lines[lineIndex d.line]? = none) : ofDiagnostic lines d = ⟨lineIndex d.line, 0, 0⟩ := by
  simp only [ofDiagnostic, h]

theorem Span.ofDiagnostic_within {lines : List (List Char)} {d : Diagnostic} {line : List Char}
    (h : lines[lineIndex d.line]? = some line) :
    ofDiagnostic lines d =
      ⟨lineIndex d.line, (inLine d.message line).1, (inLine d.message line).2⟩ := by
  simp only [ofDiagnostic, h]

theorem Span.line_ofDiagnostic (lines : List (List Char)) (d : Diagnostic) :
    (ofDiagnostic lines d).line = lineIndex d.line := by
  cases h : lines[lineIndex d.line]? with
  | none => rw [ofDiagnostic_after h]
  | some line => rw [ofDiagnostic_within h]

def Diagnostic.mark (document : String) (d : Diagnostic) : Mark := ⟨d.range document, d.message⟩

namespace Mark

/-- All coordinates of the marks of a document, in the order in which they are checked. -/
def coordinates (document : String) (ds : List Diagnostic) (es : List SyntaxError) :
    List Coordinate :=
  (es.map SyntaxError.range ++ ds.map (Diagnostic.range document)).flatMap Range.coordinates

private theorem ofSyntaxError_eq_verdict (e : SyntaxError) :
    ofSyntaxError e = verdict e.range.coordinates e.mark := by
  rw [ofSyntaxError, Range.checked_eq_verdict]
  exact verdict_map _ _ _

theorem ofDiagnostic_eq_verdict (document : String) (d : Diagnostic) :
    ofDiagnostic (Text.splitLines document.toList) d =
      verdict (d.range document).coordinates (d.mark document) := by
  rw [ofDiagnostic, Range.checked_eq_verdict]
  exact verdict_map _ _ _

/-- The marks of a document are all made, or the first coordinate out of range stops the work. -/
theorem ofErrors_eq_verdict (document : String) (ds : List Diagnostic) (es : List SyntaxError) :
    ofErrors document ds es = verdict (coordinates document ds es)
      (es.map SyntaxError.mark ++ ds.map (Diagnostic.mark document)) := by
  rw [coordinates, List.flatMap_append, List.flatMap_map, List.flatMap_map, ofErrors,
    mapM_eq_verdict ofSyntaxError_eq_verdict]
  apply verdict_append
  rw [mapM_eq_verdict (ofDiagnostic_eq_verdict document)]
  exact verdict_map _ _ _

theorem ofErrors_eq_ok_iff {document : String} {ds : List Diagnostic} {es : List SyntaxError}
    {marks : List Mark} :
    ofErrors document ds es = .ok marks ↔
      (∀ e ∈ es, e.range.InRange) ∧ (∀ d ∈ ds, (d.range document).InRange) ∧
        marks = es.map SyntaxError.mark ++ ds.map (Diagnostic.mark document) := by
  rw [ofErrors_eq_verdict, verdict_eq_ok_iff, ← and_assoc, coordinates, List.flatMap_append]
  simp only [Range.inRange_iff, List.forall_mem_append, List.flatMap_map, List.forall_mem_flatMap]

theorem mark_mem_of_ofErrors {document : String} {ds : List Diagnostic} {es : List SyntaxError}
    {marks : List Mark} (h : ofErrors document ds es = .ok marks) {d : Diagnostic} (hd : d ∈ ds) :
    d.mark document ∈ marks := by
  obtain ⟨-, -, rfl⟩ := ofErrors_eq_ok_iff.mp h
  exact List.mem_append_right _ (List.mem_map_of_mem hd)

end Mark

end MiniCheck
