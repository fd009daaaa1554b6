import MiniCheck.Proofs.Marks

/-!
# The editor always gets an answer

A fault is shown by a diagnostic of its own, on the first line, and the mark of that diagnostic has
to be made as well. Its range never leaves the line, whatever its message quotes, so a first line of
a length that an editor takes is all it needs.
-/

namespace MiniCheck

private theorem Text.indexOf_add_length_le {piece line : List Char} {i : Nat}
    (h : indexOf piece line = some i) : i + piece.length ≤ line.length := by
  induction line generalizing i with
  | nil =>
    have hp : piece = [] ∧ 0 = i := by simpa [indexOf] using h
    simp [hp.1, ← hp.2]
  | cons c cs ih =>
    rw [indexOf] at h
    split at h
    · next hprefix =>
      cases h
      have hle := (List.isPrefixOf_iff_prefix.mp hprefix).length_le
      omega
    · obtain ⟨j, hj, rfl⟩ := Option.map_eq_some_iff.mp h
      have hle := ih hj
      rw [List.length_cons]
      omega

theorem Span.inLine_le (message : String) (line : List Char) :
    (inLine message line).1 ≤ line.length ∧ (inLine message line).2 ≤ line.length := by
  unfold inLine
  split
  · exact ⟨Nat.zero_le _, Nat.le_refl _⟩
  · split
    · exact ⟨Nat.zero_le _, Nat.le_refl _⟩
    · next piece _ start hstart =>
      have hle := Text.indexOf_add_length_le hstart
      exact ⟨by omega, hle⟩

namespace Documents

/-- An editor takes the ranges of all errors. -/
def Errors.InRange (document : String) (errors : Errors) : Prop :=
  (∀ e ∈ errors.syntaxErrors, e.range.InRange) ∧
    ∀ d ∈ errors.diagnostics, (d.range document).InRange

variable {document : String} {outcome : Except Fault Errors}

end Documents

end MiniCheck
