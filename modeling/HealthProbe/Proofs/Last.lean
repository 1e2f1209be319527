import Mathlib.Data.List.Basic

/-! # The last of a list with a property

A list as a history: what counts is the last in it of a kind, and nothing after that is of the kind.
-/
namespace HealthProbe

variable {α : Type} {p : α → Bool} {x : α} {xs ys : List α}

def last? (p : α → Bool) (xs : List α) : Option α := xs.reverse.find? p

theorem last?_eq_some_iff : last? p xs = some x ↔
    ∃ before after, xs = before ++ x :: after ∧ p x = true ∧ ∀ y ∈ after, p y = false := by
  rw [last?, List.find?_eq_some_iff_append]
  constructor
  · rintro ⟨holds,after,before,turned,others⟩
    have straight : xs = before.reverse ++ x :: after.reverse := by
      rw [← List.reverse_reverse xs, turned]
      simp
    refine ⟨_,_,straight,holds,fun y hy => ?_⟩
    simpa using others y (List.mem_reverse.mp hy)
  · rintro ⟨before,after,rfl,holds,others⟩
    refine ⟨holds,after.reverse,before.reverse,by simp,fun y hy => ?_⟩
    simpa using others y (List.mem_reverse.mp hy)

theorem last?_eq_none_iff : last? p xs = none ↔ ∀ x ∈ xs, p x = false := by
  simp [last?]

theorem isSome_last?_iff : (last? p xs).isSome = true ↔ ∃ x ∈ xs, p x = true := by
  simp [last?]

theorem last?_append (p : α → Bool) (xs ys : List α) :
    last? p (xs ++ ys) = (last? p ys).or (last? p xs) := by
  rw [last?, List.reverse_append, List.find?_append]
  rfl

theorem last?_concat (p : α → Bool) (xs : List α) (x : α) :
    last? p (xs ++ [x]) = if p x then some x else last? p xs := by
  rw [last?_append]
  cases holds : p x <;> simp [last?, holds]

end HealthProbe
