import Mathlib.Data.List.Forall2

/-!
# Lists, texts and results

What the library lacks about lists that are split, lists of partners and computations that fail.
-/

namespace MiniCheck

theorem bind_ok {ε α β : Type} {x : Except ε α} {a : α} (h : x = .ok a)
    (rest : α → Except ε β) : x >>= rest = rest a := by
  rw [h]
  rfl

theorem bind_eq_ok_iff {ε α β : Type} {x : Except ε α} {rest : α → Except ε β} {b : β} :
    x >>= rest = .ok b ↔ ∃ a, x = .ok a ∧ rest a = .ok b := by
  cases x <;> simp [bind, Except.bind]

theorem eq_ok_of_toOption {ε α : Type} {x : Except ε α} {a : α} (h : x.toOption = some a) :
    x = .ok a := by
  cases x with
  | error e => cases h
  | ok b => exact congrArg Except.ok (Option.some.inj h)

theorem mapM_map_eq_some {α β γ : Type} {f : β → Option γ} {g : α → β} {r : α → γ} {l : List α}
    (h : ∀ x ∈ l, f (g x) = some (r x)) : (l.map g).mapM f = some (l.map r) := by
  induction l with
  | nil => rfl
  | cons x l ih =>
    obtain ⟨hx, hl⟩ := List.forall_mem_cons.mp h
    simp [hx, ih hl]

theorem exists_forall₂ {α β : Type} {R : α → β → Prop} {l : List α} (h : ∀ a ∈ l, ∃ b, R a b) :
    ∃ bs, List.Forall₂ R l bs := by
  induction l with
  | nil => exact ⟨[], .nil⟩
  | cons a l ih =>
    obtain ⟨b, hb⟩ := h a (by simp)
    obtain ⟨bs, hbs⟩ := ih fun c hc => h c (by simp [hc])
    exact ⟨b :: bs, .cons hb hbs⟩

theorem forall_right {α β : Type} {r : α → β → Prop} {p : α → Prop} {q : β → Prop}
    {ns : List α} {ns' : List β}
    (h : List.Forall₂ r ns ns') (hp : ∀ n ∈ ns, p n) (hq : ∀ n ∈ ns, ∀ n', r n n' → p n → q n') :
    ∀ n' ∈ ns', q n' := by
  induction h with
  | nil => simp
  | cons hr _ ih =>
    rw [List.forall_mem_cons]
    exact ⟨hq _ (by simp) _ hr (hp _ (by simp)),
      ih (fun n hn => hp n (by simp [hn])) fun n hn => hq n (by simp [hn])⟩

theorem forall₂_of_mem {α β : Type} {r q : α → β → Prop} {ns : List α} {ns' : List β}
    (h : List.Forall₂ r ns ns') (hq : ∀ n ∈ ns, ∀ n', r n n' → q n n') : List.Forall₂ q ns ns' := by
  induction h with
  | nil => exact .nil
  | cons hr _ ih => exact .cons (hq _ (by simp) _ hr) (ih fun n hn => hq n (by simp [hn]))

theorem length_splitOnP {α : Type} (p : α → Bool) (l : List α) :
    (l.splitOnP p).length = l.countP p + 1 := by
  induction l with
  | nil => rfl
  | cons a l ih =>
    rw [List.splitOnP_cons_eq_if_modifyHead, List.countP_cons]
    split <;> simp [ih]

theorem intercalate_eq_join (sep : String) (texts : List String) :
    sep.intercalate texts = String.join (texts.intersperse sep) := by
  induction texts with
  | nil => simp
  | cons text texts ih =>
    cases texts with
    | nil => simp
    | cons next texts =>
      rw [String.intercalate_cons_cons, ih]
      simp [String.append_assoc]

end MiniCheck
