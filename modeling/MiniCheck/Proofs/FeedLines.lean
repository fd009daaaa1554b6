import MiniCheck.Proofs.Lists

/-!
# Lines that end at line feeds

A text that is read line by line is split at its line feeds. Lines that hold none come back.
-/

namespace MiniCheck.Text

/-- The lines of a text, if line feeds alone end lines. -/
def feedLines (s : String) : List String := (s.toList.splitOn '\n').map String.ofList

/-- The number of line feeds in a text. -/
def feeds (s : String) : Nat := s.toList.count '\n'

theorem feeds_eq_zero {s : String} (h : '\n' ∉ s.toList) : feeds s = 0 := List.count_eq_zero.mpr h

theorem feeds_append (s t : String) : feeds (s ++ t) = feeds s + feeds t := by
  rw [feeds, String.toList_append, List.count_append, feeds, feeds]

theorem length_feedLines (s : String) : (feedLines s).length = feeds s + 1 := by
  rw [feedLines, List.length_map, List.splitOn_eq_splitOnP, length_splitOnP]
  rfl

theorem feeds_toString (n : Int) : feeds (toString n) = 0 := by
  have hdigits : ∀ m : Nat, feeds (toString m) = 0 := by
    intro m
    apply feeds_eq_zero
    rw [Nat.toString_eq_repr, Nat.repr, String.toList_ofList]
    intro h
    exact absurd (Nat.isDigit_of_mem_toDigits (by decide) (by decide) h) (by decide)
  cases n with
  | ofNat m => exact hdigits m
  | negSucc m =>
    have hsign : toString (Int.negSucc m) = "-" ++ toString (m + 1) := rfl
    rw [hsign, feeds_append, hdigits]
    rfl

theorem feedLines_intercalate {lines : List String} (hne : lines ≠ [])
    (h : ∀ line ∈ lines, '\n' ∉ line.toList) : feedLines ("\n".intercalate lines) = lines := by
  have hsep : "\n".toList = ['\n'] := rfl
  have hfree : ∀ l ∈ lines.map String.toList, '\n' ∉ l := by simpa using h
  rw [feedLines, String.toList_intercalate, hsep,
    List.splitOn_intercalate '\n' hfree (by simpa using hne), List.map_map]
  simp [Function.comp_def]

end MiniCheck.Text
