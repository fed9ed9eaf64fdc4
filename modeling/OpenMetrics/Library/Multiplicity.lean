import Mathlib.Algebra.Order.BigOperators.Group.List
import Mathlib.Algebra.Order.Ring.Nat

namespace OpenMetrics.Library

variable {α : Type}

def repeated (f : α → Nat) (l : List α) : List α :=
  l.flatMap fun a => List.replicate (f a) a

@[simp] theorem repeated_cons (f : α → Nat) (a : α) (l : List α) :
    repeated f (a :: l) = List.replicate (f a) a ++ repeated f l := rfl

theorem mem_repeated {f : α → Nat} {l : List α} {a : α} :
    a ∈ repeated f l ↔ a ∈ l ∧ f a ≠ 0 := by
  simp only [repeated, List.mem_flatMap, List.mem_replicate]
  constructor
  · intro repeats
    rcases repeats with ⟨b, member, positive, rfl⟩
    exact ⟨member, positive⟩
  · intro listed
    rcases listed with ⟨member, positive⟩
    exact ⟨a, member, positive, rfl⟩

theorem length_repeated (f : α → Nat) (l : List α) : (repeated f l).length = (l.map f).sum := by
  simp [repeated, List.length_flatMap]

theorem repeated_congr {f g : α → Nat} {l : List α} (same : ∀ a ∈ l, f a = g a) :
    repeated f l = repeated g l :=
  List.flatMap_congr fun a member => by rw [same a member]

theorem repeated_filter {f : α → Nat} {p : α → Bool} (kept : ∀ a, f a ≠ 0 → p a) (l : List α) :
    repeated f (l.filter p) = repeated f l := by
  induction l with
  | nil => rfl
  | cons a l ih =>
      by_cases h : p a
      · rw [List.filter_cons_of_pos h, repeated_cons, repeated_cons, ih]
      · have none : f a = 0 := by_contra fun some => h (kept a some)
        rw [List.filter_cons_of_neg h, repeated_cons, none, ih]
        rfl

theorem filter_eq_repeated (p : α → Bool) (l : List α) :
    l.filter p = repeated (fun a => if p a then 1 else 0) l := by
  induction l with
  | nil => rfl
  | cons a l ih => by_cases h : p a <;> simp [h, ih]

theorem repeated_eq_iff_of_le {f g : α → Nat} {l : List α} (le : ∀ a ∈ l, f a ≤ g a) :
    repeated g l = repeated f l ↔ ∀ a ∈ l, g a = f a := by
  refine ⟨fun same => ?_, repeated_congr⟩
  have sums : (l.map g).sum = (l.map f).sum := by
    rw [← length_repeated, ← length_repeated, same]
  clear same
  induction l with
  | nil => simp
  | cons a l ih =>
      have le' : ∀ b ∈ l, f b ≤ g b := fun b member => le b (by simp [member])
      have here := le a (by simp)
      have rest : (l.map f).sum ≤ (l.map g).sum := List.sum_le_sum le'
      simp only [List.map_cons, List.sum_cons] at sums
      intro b member
      cases List.mem_cons.mp member with
      | inl same =>
          subst same
          omega
      | inr member => exact ih le' (by omega) b member

theorem repeated_eq_filter {f : α → Nat} {p : α → Bool} {l : List α}
    (kept : ∀ a ∈ l, p a → f a ≠ 0) :
    repeated f l = l.filter p ↔ ∀ a ∈ l, f a = if p a then 1 else 0 := by
  rw [filter_eq_repeated]
  apply repeated_eq_iff_of_le
  intro a member
  by_cases h : p a
  · have := kept a member h
    simp only [h, if_true]
    omega
  · simp [h]

end OpenMetrics.Library
