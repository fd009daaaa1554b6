import MiniCheck.CommandLine.Command

/-!
# Files and listings

A file that has been written is read as it was written, and writing changes no place that a path
names. The command therefore ends with an exit code exactly when everything it needs besides the
compilation is there, and it then leaves the summary of the errors where it was asked to.
-/

namespace MiniCheck.CommandLine

def decidableExistsOk {ε α : Type} (x : Except ε α) (q : α → Prop) [DecidablePred q] :
    Decidable (∃ a, x = .ok a ∧ q a) :=
  match x with
  | .error _ => isFalse (by simp)
  | .ok a => decidable_of_iff (q a) (by simp)

namespace FileTree

variable {t u : FileTree} {p q place : Location} {path other : String} {content : List UInt8}

@[simp] theorem home_putFile : (t.putFile p content).home = t.home := by
  unfold putFile
  split <;> rfl

@[simp] theorem isDir_putFile : (t.putFile p content).isDir q = t.isDir q := by
  unfold putFile
  split <;> rfl

private theorem file?_putFile : (t.putFile p content).file? p = some content := by
  unfold putFile
  by_cases h : t.isFile p = true
  · obtain ⟨old, hold⟩ := Option.isSome_iff_exists.mp h
    rw [file?] at hold
    simp [if_pos h, file?, NameMap.lookup_replace, hold]
  · have hnone : t.files.lookup p = none := Option.not_isSome_iff_eq_none.mp h
    rw [if_neg h, file?, List.lookup_append, hnone]
    simp

private theorem walk_putFile (here : Location) (names : List String) :
    (t.putFile p content).walk here names = .ok place ↔ t.walk here names = .ok place := by
  induction names generalizing here with
  | nil => rfl
  | cons name names ih =>
    unfold walk
    rw [isDir_putFile]
    by_cases hd : t.isDir here = true
    · simp only [hd, Bool.not_true, Bool.false_eq_true, if_false]
      split
      · simp
      · exact ih _
    · simp [hd]

private theorem locate_putFile :
    (t.putFile p content).locate path = .ok place ↔ t.locate path = .ok place := by
  unfold locate
  split
  · simp
  · simp only [origin, home_putFile]
    exact walk_putFile _ _

/-- A file can be written at the path. -/
def Takes (t : FileTree) (path : String) : Prop :=
  ∃ place, t.locate path = .ok place ∧ t.isDir place = false

instance (t : FileTree) (path : String) : Decidable (t.Takes path) :=
  decidableExistsOk (t.locate path) fun place => t.isDir place = false

private theorem write_eq_ok_iff :
    t.write path content = .ok u ↔
      ∃ place, t.locate path = .ok place ∧ t.isDir place = false ∧ u = t.putFile place content := by
  unfold write
  split
  · next h => simp [h]
  · next p h =>
    by_cases hd : t.isDir p = true
    · simp [h, hd]
    · simp only [h, hd, Bool.false_eq_true, if_false, Except.ok.injEq, exists_eq_left', true_and]
      exact eq_comm

private theorem takes_iff (content : List UInt8) :
    t.Takes path ↔ ∃ u, t.write path content = .ok u := by
  constructor
  · rintro ⟨place, hp, hd⟩
    exact ⟨_, write_eq_ok_iff.mpr ⟨place, hp, hd, rfl⟩⟩
  · rintro ⟨u, h⟩
    obtain ⟨place, hp, hd, -⟩ := write_eq_ok_iff.mp h
    exact ⟨place, hp, hd⟩

private theorem takes_of_write (h : t.write path content = .ok u) :
    u.Takes other ↔ t.Takes other := by
  obtain ⟨p, -, -, rfl⟩ := write_eq_ok_iff.mp h
  simp only [Takes, locate_putFile, isDir_putFile]

private theorem read_of_write (h : t.write path content = .ok u) : u.read path = .ok content := by
  obtain ⟨p, hp, -, rfl⟩ := write_eq_ok_iff.mp h
  have hl : (t.putFile p content).locate path = .ok p := locate_putFile.mpr hp
  simp only [read, hl, file?_putFile]

end FileTree

private theorem toList_loop (bytes : ByteArray) (i : Nat) (done : List UInt8) :
    ByteArray.toList.loop bytes i done = done.reverse ++ bytes.data.toList.drop i := by
  fun_induction ByteArray.toList.loop bytes i done with
  | case1 i done h ih =>
    have hi : i < bytes.data.toList.length := by simpa using h
    have hget : bytes.get! i = bytes.data.toList[i] := by
      simp only [ByteArray.get!, Array.getElem_toList]
      exact getElem!_pos bytes.data i h
    rw [ih, List.drop_eq_getElem_cons hi, hget]
    simp
  | case2 i done h =>
    have hi : bytes.data.toList.length ≤ i := by simpa using h
    rw [List.drop_eq_nil_of_le hi, List.append_nil]

/-- The content of the file that holds a text. Every text ends with a line feed there. -/
def contentOf (text : String) : List UInt8 := (text ++ "\n").toUTF8.toList

theorem contentOf_injective : Function.Injective contentOf := by
  intro s s' h
  have hdata : (s ++ "\n").toUTF8.data.toList = (s' ++ "\n").toUTF8.data.toList := by
    simpa [contentOf, ByteArray.toList, toList_loop] using h
  have hbytes : (s ++ "\n").toUTF8 = (s' ++ "\n").toUTF8 :=
    ByteArray.ext (Array.toList_inj.mp hdata)
  exact (String.append_left_inj "\n").mp (String.toByteArray_inj.mp hbytes)

variable {dir : String} {t u : FileTree}

/-- Either the first listing gets written and the others follow, or its path takes no file and the
writing ends there. -/
theorem writeAll_cons_cases (dir : String) (t : FileTree) (name text : String)
    (rest : List (String × String)) :
    (∃ u, t.write (listingPath dir name) (contentOf text) = .ok u ∧
        writeAll dir t ((name, text) :: rest) = writeAll dir u rest) ∨
      ¬ t.Takes (listingPath dir name) ∧ (writeAll dir t ((name, text) :: rest)).2 ≠ none := by
  rw [writeAll, ← contentOf]
  cases hw : t.write (listingPath dir name) (contentOf text) with
  | ok u => exact .inl ⟨u, rfl, rfl⟩
  | error e =>
    refine .inr ⟨?_, by simp⟩
    intro h
    obtain ⟨u, hu⟩ := (FileTree.takes_iff (contentOf text)).mp h
    cases hw.symm.trans hu

/-- All listings get written exactly when the tree takes a file at each of their paths. -/
theorem writeAll_completes_iff (ls : List (String × String)) :
    (writeAll dir t ls).2 = none ↔ ∀ l ∈ ls, t.Takes (listingPath dir l.1) := by
  induction ls generalizing t with
  | nil => simp [writeAll]
  | cons l ls ih =>
    obtain ⟨name, text⟩ := l
    rw [List.forall_mem_cons]
    rcases writeAll_cons_cases dir t name text ls with ⟨u, hw, h⟩ | ⟨hn, h⟩
    · have ht : t.Takes (listingPath dir name) := (FileTree.takes_iff _).mpr ⟨u, hw⟩
      rw [h, ih]
      simp only [FileTree.takes_of_write hw, ht, true_and]
    · simp only [h, hn, false_and]

private theorem read_writeAll_concat (ls : List (String × String)) {name text : String}
    {written : FileTree} (h : writeAll dir t (ls ++ [(name, text)]) = (written, none)) :
    written.read (listingPath dir name) = .ok (contentOf text) := by
  induction ls generalizing t with
  | nil =>
    rw [List.nil_append] at h
    rcases writeAll_cons_cases dir t name text [] with ⟨u, hw, hr⟩ | ⟨-, hr⟩
    · have hu : u = written := congrArg Prod.fst (hr.symm.trans h)
      exact hu ▸ FileTree.read_of_write hw
    · exact absurd (congrArg Prod.snd h) hr
  | cons l ls ih =>
    rw [List.cons_append] at h
    rcases writeAll_cons_cases dir t l.1 l.2 (ls ++ [(name, text)]) with ⟨u, -, hr⟩ | ⟨-, hr⟩
    · exact ih (hr.symm.trans h)
    · exact absurd (congrArg Prod.snd h) hr

def listingNames : List String := ["tokens", "global_vars", "functions", "errors"]

/-- The listings can be written to a directory. -/
def FileTree.Receives (files : FileTree) (dir : String) : Prop :=
  ∃ made, files.ensureDirs dir = (made, none) ∧
    ∀ name ∈ listingNames, made.Takes (listingPath dir name)

instance (files : FileTree) (dir : String) : Decidable (files.Receives dir) :=
  match h : files.ensureDirs dir with
  | (_, some _) => isFalse (by simp [FileTree.Receives, h])
  | (made, none) =>
      decidable_of_iff (∀ name ∈ listingNames, made.Takes (listingPath dir name))
        (by simp [FileTree.Receives, h])

/-- What a run needs besides a compilation: a level for the log, an input that is a text, and a
directory for the listings. -/
structure Ready (files : FileTree) (o : Options) : Prop where
  level : (levelOf o).isOk = true
  input : ∃ bytes, files.read o.input = .ok bytes ∧ Text.Utf8.error? bytes = none
  output : ∃ dir, o.outDir = some dir ∧ files.Receives dir

instance (files : FileTree) (o : Options) : Decidable (Ready files o) :=
  letI := decidableExistsOk (files.read o.input) fun bytes => Text.Utf8.error? bytes = none
  letI := Option.decidableExistsMem (p := files.Receives) o.outDir
  decidable_of_iff ((levelOf o).isOk = true ∧
      (∃ bytes, files.read o.input = .ok bytes ∧ Text.Utf8.error? bytes = none) ∧
      ∃ dir ∈ o.outDir, files.Receives dir)
    ⟨fun h => ⟨h.1, h.2.1, h.2.2⟩, fun h => ⟨h.level, h.input, h.output⟩⟩

/-- The exit code for a compilation. -/
def exitCode (c : Compilation) : Nat := if c.ok then 0 else 2

/-- The summary of the errors of a compilation. -/
def report (c : Compilation) : String := Listing.summary c.diagnostics c.syntaxErrors.length

variable {files : FileTree} {o : Options} {c : Compilation} {p : ParserRun} {ready : Prop}

namespace Transcript

/-- The run ends with the exit code for `c` and leaves the summary of its errors in `dir`. -/
structure Concludes (r : Transcript) (c : Compilation) (dir : String) : Prop where
  ending : r.ending = .exit (exitCode c)
  errors : r.files.read (listingPath dir "errors") = .ok (contentOf (report c))

/-- The run concludes where `ready` holds, and fails where it does not. -/
def ConcludesWhen (r : Transcript) (c : Compilation) (o : Options) (ready : Prop) : Prop :=
  (ready → ∃ dir, o.outDir = some dir ∧ r.Concludes c dir) ∧ (¬ ready → ∃ f, r.ending = .failed f)

private theorem ConcludesWhen.after {r : Transcript} (h : r.ConcludesWhen c o ready)
    (stdout stderr : String) : (r.after stdout stderr).ConcludesWhen c o ready := by
  refine ⟨?_, h.2⟩
  intro hready
  obtain ⟨dir, hdir, hr⟩ := h.1 hready
  exact ⟨dir, hdir, hr.ending, hr.errors⟩

private theorem ConcludesWhen.of_iff {r : Transcript} (h : r.ConcludesWhen c o ready)
    {ready' : Prop} (hiff : ready ↔ ready') : r.ConcludesWhen c o ready' :=
  propext hiff ▸ h

private theorem concludesWhen_fail (f : Failure) (h : ¬ ready) :
    (fail files f).ConcludesWhen c o ready :=
  ⟨fun hready => absurd hready h, fun _ => ⟨f, rfl⟩⟩

end Transcript

open Transcript

private theorem receives_iff {made : FileTree} (hd : files.ensureDirs dir = (made, none)) :
    files.Receives dir ↔ (writeAll dir made (listings c)).2 = none := by
  have hnames : (listings c).map Prod.fst = listingNames := rfl
  rw [writeAll_completes_iff, FileTree.Receives, ← hnames]
  simp [hd]

private theorem writeListings_concludesWhen (hdir : o.outDir = some dir) (level : LogLevel) :
    (writeListings dir level files c).ConcludesWhen c o (files.Receives dir) := by
  unfold writeListings
  split
  · next made e hd =>
    apply concludesWhen_fail
    rintro ⟨made', h, -⟩
    simp [hd] at h
  · next made hd =>
    split
    · next written e hw =>
      apply concludesWhen_fail
      rw [receives_iff hd, hw]
      simp
    · next written hw =>
      have hlast : listings c = (listings c).dropLast ++ [("errors", report c)] := rfl
      have hreceives : files.Receives dir := (receives_iff hd).mpr (congrArg Prod.snd hw)
      have herrors := read_writeAll_concat _ (hlast ▸ hw)
      exact ⟨fun _ => ⟨dir, hdir, rfl, herrors⟩, fun hn => absurd hreceives hn⟩

private theorem finish_concludesWhen (level : LogLevel) :
    (finish o level files c).ConcludesWhen c o
      (∃ dir, o.outDir = some dir ∧ files.Receives dir) := by
  unfold finish
  split
  · next hdir =>
    apply concludesWhen_fail
    simp [hdir]
  · next dir hdir =>
    apply (writeListings_concludesWhen hdir level).of_iff
    simp [hdir]

private theorem compile_concludesWhen (hc : Compilation.ofParser p = .ok c) (level : LogLevel) :
    (compile o level files p).ConcludesWhen c o
      (∃ dir, o.outDir = some dir ∧ files.Receives dir) := by
  rw [Compilation.ofParser] at hc
  simp only [compile, hc]
  exact (finish_concludesWhen level).after _ _

private theorem compileFile_concludesWhen (hin : files.isTherePath o.input = true)
    (hc : Compilation.ofParser p = .ok c) (level : LogLevel) :
    (compileFile o level files p).ConcludesWhen c o
      ((∃ bytes, files.read o.input = .ok bytes ∧ Text.Utf8.error? bytes = none) ∧
        ∃ dir, o.outDir = some dir ∧ files.Receives dir) := by
  unfold compileFile
  rw [if_neg (by simp [hin])]
  split
  · next hr =>
    apply concludesWhen_fail
    simp [hr]
  · next bytes hr =>
    split
    · next hu =>
      apply concludesWhen_fail
      simp [hr, hu]
    · next hu =>
      apply (compile_concludesWhen hc level).of_iff
      simp [hr, hu]

/-- With its input there, the command ends with the exit code for the compilation and leaves the
summary of the errors when it is ready, and fails when it is not. -/
theorem run_concludesWhen {args : List String} (hargs : Options.parse args = .ok o)
    (hin : files.isTherePath o.input = true) (hc : Compilation.ofParser p = .ok c) :
    (run files p args).ConcludesWhen c o (Ready files o) := by
  unfold run
  rw [hargs]
  simp only
  split
  · next hl =>
    apply concludesWhen_fail
    intro h
    simpa [hl, Except.isOk, Except.toBool] using h.level
  · next level hl =>
    apply ((compileFile_concludesWhen hin hc level).after _ _).of_iff
    exact ⟨fun h => ⟨by rw [hl]; rfl, h.1, h.2⟩, fun h => ⟨h.input, h.output⟩⟩

end MiniCheck.CommandLine
