/-!
# Ordered maps keyed by names

A map that keeps its keys in the order in which they were first inserted. Inserting under a key
that is present replaces the value and leaves the key where it is.
-/

namespace MiniCheck

structure NameMap (α : Type) where
  entries : List (String × α)
  deriving Repr

namespace NameMap

variable {α : Type}

def empty : NameMap α := ⟨[]⟩

def keys (m : NameMap α) : List String := m.entries.map Prod.fst

def values (m : NameMap α) : List α := m.entries.map Prod.snd

def find? (m : NameMap α) (key : String) : Option α := m.entries.lookup key

def contains (m : NameMap α) (key : String) : Bool := (m.find? key).isSome

/-- Adds a new last entry. -/
def push (m : NameMap α) (key : String) (value : α) : NameMap α := ⟨m.entries ++ [(key, value)]⟩

def insert (m : NameMap α) (key : String) (value : α) : NameMap α :=
  if m.contains key then
    ⟨m.entries.map fun e => if e.1 = key then (key, value) else e⟩
  else m.push key value

@[simp] theorem keys_empty : (empty : NameMap α).keys = [] := rfl

@[simp] theorem find?_empty (key : String) : (empty : NameMap α).find? key = none := rfl

@[simp] theorem keys_push (m : NameMap α) (key : String) (value : α) :
    (m.push key value).keys = m.keys ++ [key] := by
  simp [keys, push]

@[simp] theorem values_push (m : NameMap α) (key : String) (value : α) :
    (m.push key value).values = m.values ++ [value] := by
  simp [values, push]

theorem contains_eq_true_iff (m : NameMap α) (key : String) :
    m.contains key = true ↔ key ∈ m.keys := by
  simp [contains, find?, keys]

/-- An earlier entry of the same key hides a pushed one. -/
theorem find?_push (m : NameMap α) (key : String) (value : α) (name : String) :
    (m.push key value).find? name =
      (m.find? name).or (if name = key then some value else none) := by
  by_cases h : name = key
  · simp [find?, push, List.lookup_append, h]
  · simp [find?, push, List.lookup_append, List.lookup_cons, beq_false_of_ne h, h]

/-- A key that is present keeps its position, and a new one comes last. -/
theorem keys_insert (m : NameMap α) (key : String) (value : α) :
    (m.insert key value).keys = if key ∈ m.keys then m.keys else m.keys ++ [key] := by
  by_cases h : key ∈ m.keys
  · have hc := (m.contains_eq_true_iff key).mpr h
    rw [if_pos h]
    simp only [insert, hc, if_true, keys, List.map_map]
    apply List.map_congr_left
    intro e _
    by_cases he : e.1 = key <;> simp [he]
  · have hc : ¬ m.contains key = true := fun hc => h ((m.contains_eq_true_iff key).mp hc)
    simp [insert, hc, h]

theorem lookup_replace {κ : Type} [DecidableEq κ] [BEq κ] [LawfulBEq κ] (entries : List (κ × α))
    (key : κ) (value : α) (name : κ) :
    (entries.map fun e => if e.1 = key then (key, value) else e).lookup name =
      if name = key then (entries.lookup key).map (fun _ => value) else entries.lookup name := by
  induction entries with
  | nil => simp
  | cons e rest ih =>
    obtain ⟨k, old⟩ := e
    by_cases he : k = key
    · by_cases hn : name = key
      · simp [he, hn]
      · simp [List.lookup_cons, he, beq_false_of_ne hn, hn, ih]
    · have hk : (key == k) = false := beq_false_of_ne (Ne.symm he)
      by_cases hn : name = k
      · simp [he, hn]
      · simp [List.lookup_cons, he, hk, beq_false_of_ne hn, ih]

theorem find?_insert (m : NameMap α) (key : String) (value : α) (name : String) :
    (m.insert key value).find? name = if name = key then some value else m.find? name := by
  by_cases hc : m.contains key = true
  · obtain ⟨old, hold⟩ := Option.isSome_iff_exists.mp hc
    simp only [find?] at hold
    simp [insert, hc, find?, lookup_replace, hold]
  · have hf : m.find? key = none := by simpa [contains] using hc
    simp only [insert, hc, Bool.false_eq_true, if_false, find?_push]
    by_cases hn : name = key
    · simp [hn, hf]
    · simp [hn]

end NameMap

end MiniCheck
