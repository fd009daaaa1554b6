import MiniCheck.Proofs.Listings

/-!
# Lines of the listing of tokens

The listing of tokens is split at line feeds. A lexeme may hold any characters, but its line feeds
are escaped, so that every lexeme keeps the line it is listed on, provided that the names of the
kinds hold no line feeds. A name is only looked up where there is one: kinds that are not positive
are not listed, and the others have a name or are listed by their number.
-/

namespace MiniCheck

namespace Text

/-- Every `c` of a text replaced by a word: what stands between them is joined by the word. -/
def replaced (c : Char) (word text : String) : String :=
  word.intercalate ((text.toList.splitOn c).map String.ofList)

private theorem intercalate_splitOn_eq_flatMap (c : Char) (word cs : List Char) :
    word.intercalate (cs.splitOn c) = cs.flatMap fun d => if d == c then word else [d] := by
  induction cs with
  | nil => simp
  | cons d cs ih =>
    obtain ⟨p, ps, hp⟩ := List.exists_cons_of_ne_nil (List.splitOn_ne_nil c cs)
    rw [List.flatMap_cons, ← ih, List.splitOn_eq_splitOnP, List.splitOnP_cons_eq_if_modifyHead,
      ← List.splitOn_eq_splitOnP, hp]
    split
    · rw [List.intercalate_cons_cons, List.nil_append]
    · cases ps with
      | nil => simp
      | cons q qs => simp [List.intercalate_cons_cons]

private theorem toList_replaced (c : Char) (word text : String) :
    (replaced c word text).toList =
      text.toList.flatMap fun d => if d == c then word.toList else [d] := by
  rw [replaced, String.toList_intercalate, List.map_map]
  simp [intercalate_splitOn_eq_flatMap, Function.comp_def]

end Text

open Text

namespace Listing

/-- One pass over a text does what two replacements do, one after the other: the word for a line
feed holds no carriage return. -/
theorem oneLine_eq_replaced (text : String) :
    oneLine text = replaced '\r' "" (replaced '\n' "\\n" text) := by
  apply String.toList_injective
  rw [oneLine, String.toList_ofList, toList_replaced, toList_replaced, List.flatMap_assoc]
  apply List.flatMap_congr
  intro c _
  split
  · rfl
  · simp

private theorem feeds_oneLine (text : String) : feeds (oneLine text) = 0 := by
  apply feeds_eq_zero
  rw [oneLine, String.toList_ofList, List.mem_flatMap]
  rintro ⟨c, -, hc⟩
  split at hc
  · exact absurd hc (by decide)
  · grind

/-- Reads a name by its index. An index below zero counts from the end, and one that is too large or
too small has no name. -/
def nameAt? (names : List String) (i : Int) : Option String :=
  if 0 ≤ i then names[i.toNat]?
  else if 0 ≤ names.length + i then names[(names.length + i).toNat]? else none

/-- The name of a kind, read by its index unless there are too few names. -/
def kindName? (names : List String) (kind : Int) : Option String :=
  if kind < names.length then nameAt? names kind else some (toString kind)

private theorem kindName?_of_pos {names : List String} {kind : Int} (h : 0 < kind) :
    kindName? names kind = some (kindName names kind) := by
  rw [kindName?, nameAt?, kindName, if_pos (Int.le_of_lt h)]
  split
  · rw [List.getElem?_eq_getElem (by omega), Option.getD_some]
  · rw [List.getElem?_eq_none (by omega), Option.getD_none]

private theorem feeds_kindName {names : List String} (hn : ∀ x ∈ names, '\n' ∉ x.toList)
    (kind : Int) :
    feeds (kindName names kind) = 0 := by
  rw [kindName]
  cases hname : names[kind.toNat]? with
  | none => exact feeds_toString kind
  | some name => exact feeds_eq_zero (hn name (List.mem_of_getElem? hname))

/-- The line of a token: the name of its kind, its text with the line feeds escaped and the carriage
returns left out, and at the end the number of its line. -/
def lineNamed (name : String) (t : Token) : String :=
  "<Token: " ++ name ++ ", Lexeme: '" ++
    replaced '\r' "" (replaced '\n' "\\n" (t.text.getD "")) ++
    "', Line: " ++ toString t.line ++ ">"

/-- The lines of the tokens, one after the other. They fail as soon as the name of a kind cannot be
read. -/
def tokenLines? (names : List String) : List Token → Option (List String)
  | [] => some []
  | t :: ts =>
    if t.kind ≤ 0 then tokenLines? names ts
    else do
      let name ← kindName? names t.kind
      let lines ← tokenLines? names ts
      return lineNamed name t :: lines

private theorem tokenLine_eq_lineNamed (names : List String) (t : Token) :
    tokenLine names t = lineNamed (kindName names t.kind) t := by
  rw [lineNamed, ← oneLine_eq_replaced]
  rfl

private theorem tokenLines?_eq_some (names : List String) (ts : List Token) :
    tokenLines? names ts = some (tokenLines names ts) := by
  induction ts with
  | nil => rfl
  | cons t ts ih =>
    rw [tokenLines?, tokenLines, ih]
    split
    case isTrue h => rw [List.filter_cons_of_neg (by simpa using h), tokenLines]
    case isFalse h =>
      have hpos : 0 < t.kind := Int.not_le.mp h
      rw [kindName?_of_pos hpos, List.filter_cons_of_pos (by simpa using hpos), List.map_cons,
        tokenLine_eq_lineNamed]
      rfl

private theorem feeds_tokenLine (names : List String) (t : Token) :
    feeds (tokenLine names t) = feeds (kindName names t.kind) := by
  rw [tokenLine_eq_lineNamed, lineNamed, ← oneLine_eq_replaced]
  simp (disch := decide) only [feeds_append, feeds_oneLine, feeds_toString, feeds_eq_zero]
  omega

private theorem tokenLines_ne_nil {names : List String} {ts : List Token}
    (h : ∃ t ∈ ts, 0 < t.kind) :
    tokenLines names ts ≠ [] := by
  obtain ⟨t, ht, hpos⟩ := h
  rw [tokenLines]
  exact List.ne_nil_of_mem (List.mem_map_of_mem (List.mem_filter.mpr ⟨ht, by simpa using hpos⟩))

/-- The lines of the listing are those of the lexemes exactly if the names that are written hold no
line feeds, whatever the lexemes hold. -/
theorem feedLines_tokens_iff {names : List String} {ts : List Token}
    (h : ∃ t ∈ ts, 0 < t.kind) :
    feedLines (tokens names ts) = tokenLines names ts ↔
      ∀ t ∈ ts, 0 < t.kind → feeds (kindName names t.kind) = 0 := by
  rw [tokens, feedLines_ofLines_iff (tokenLines_ne_nil h), tokenLines]
  simp only [List.sum_eq_zero_iff_forall_eq_nat, List.forall_mem_map, feeds_tokenLine,
    List.mem_filter, decide_eq_true_eq, and_imp]

/-- The listing of tokens is made whatever the kinds of the tokens are: no look-up of a name fails.
If there is a lexeme at all and the names hold no line feeds, the lines of the listing are those of
the lexemes, one for each and in their order. Without a lexeme the listing is empty. -/
theorem one_line_for_each_lexeme (names : List String) (ts : List Token) :
    (tokenLines? names ts).map ofLines = some (tokens names ts) ∧
    ((∀ x ∈ names, '\n' ∉ x.toList) → (∃ t ∈ ts, 0 < t.kind) →
      List.Forall₂
        (fun t line => ∃ name, kindName? names t.kind = some name ∧ line = lineNamed name t)
        (ts.filter (0 < ·.kind)) (feedLines (tokens names ts))) ∧
    ((∀ t ∈ ts, t.kind ≤ 0) → tokens names ts = "") := by
  refine ⟨?_, ?_, ?_⟩
  · rw [tokenLines?_eq_some, Option.map_some, tokens]
  · intro hn hlexeme
    rw [(feedLines_tokens_iff hlexeme).mpr fun t _ _ => feeds_kindName hn t.kind, tokenLines,
      List.forall₂_map_right_iff, List.forall₂_same]
    intro t ht
    have hpos : 0 < t.kind := by simpa using List.of_mem_filter ht
    exact ⟨_, kindName?_of_pos hpos, tokenLine_eq_lineNamed names t⟩
  · intro h
    have hnone : ts.filter (0 < ·.kind) = [] := by simpa using h
    rw [tokens, tokenLines, hnone]
    rfl

/-- Two of the tokens are lexemes. The text of one holds line breaks, and the kind of the other has
no name. The name of the first token, which is not listed, could not be read. -/
theorem one_line_for_each_lexeme_breaks :
    let names := ["<INVALID>", "STRING"]
    let ts : List Token :=
      [⟨-5, none, 1⟩, ⟨1, some "\"a\\\r\n\nb\"", 1⟩, ⟨0, some "\n", 3⟩, ⟨7, none, -2⟩]
    (∀ x ∈ names, '\n' ∉ x.toList) ∧ kindName? names (-5) = none ∧ (∃ t ∈ ts, 0 < t.kind) ∧
      (tokenLines? names ts).map ofLines = some (tokens names ts) ∧
      feedLines (tokens names ts) =
        ["<Token: STRING, Lexeme: '\"a\\\\n\\nb\"', Line: 1>",
          "<Token: 7, Lexeme: '', Line: -2>"] := by
  intro names ts
  have hn : ∀ x ∈ names, '\n' ∉ x.toList := by decide
  have hlexeme : ∃ t ∈ ts, 0 < t.kind := by decide
  obtain ⟨hmade, hlines, -⟩ := one_line_for_each_lexeme names ts
  refine ⟨hn, by decide, hlexeme, hmade, ?_⟩
  have hlisted : ts.filter (0 < ·.kind) = [⟨1, some "\"a\\\r\n\nb\"", 1⟩, ⟨7, none, -2⟩] := by
    decide
  have hpair := hlines hn hlexeme
  rw [hlisted] at hpair
  obtain ⟨first, _, ⟨name, hname, hfirst⟩, hrest, hall⟩ := List.forall₂_cons_left_iff.mp hpair
  obtain ⟨second, _, ⟨number, hnumber, hsecond⟩, hnil, rfl⟩ := List.forall₂_cons_left_iff.mp hrest
  obtain rfl := List.forall₂_nil_left_iff.mp hnil
  obtain rfl := Option.some.inj hname
  obtain rfl := Option.some.inj hnumber
  rw [hall, hfirst, hsecond]
  decide +kernel

end Listing

end MiniCheck
