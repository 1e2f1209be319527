import Mathlib.Data.List.Basic

/-! # Reading item by item

A list can be read if each of its items can, and what is read of it is what is read of the items.
-/
namespace HealthProbe

variable {α β : Type} {f : α → Option β} {x : α} {y : β} {xs : List α} {ys : List β}

theorem mapM_cons_eq_some_iff :
    (x :: xs).mapM f = some ys ↔ ∃ y rest, f x = some y ∧ xs.mapM f = some rest ∧ y :: rest = ys := by
  simp [List.mapM_cons, Option.bind_eq_some_iff]

theorem mapM_map {f : α → β} {g : β → Option α} (h : ∀ x ∈ xs, g (f x) = some x) :
    (xs.map f).mapM g = some xs := by
  induction xs with
  | nil => rfl
  | cons x xs ih =>
    obtain ⟨first,rest⟩ := List.forall_mem_cons.mp h
    exact mapM_cons_eq_some_iff.mpr ⟨x,xs,first,ih rest,rfl⟩

theorem exists_mapM_iff : (∃ ys, xs.mapM f = some ys) ↔ ∀ x ∈ xs, ∃ y, f x = some y := by
  induction xs with
  | nil => simp
  | cons x xs ih =>
    rw [List.forall_mem_cons, ← ih]
    constructor
    · rintro ⟨ys,h⟩
      obtain ⟨y,rest,first,others,-⟩ := mapM_cons_eq_some_iff.mp h
      exact ⟨⟨y,first⟩,⟨rest,others⟩⟩
    · rintro ⟨⟨y,first⟩,⟨rest,others⟩⟩
      exact ⟨y :: rest,mapM_cons_eq_some_iff.mpr ⟨y,rest,first,others,rfl⟩⟩

theorem mem_iff_of_mapM (h : xs.mapM f = some ys) : y ∈ ys ↔ ∃ x ∈ xs, f x = some y := by
  induction xs generalizing ys with
  | nil =>
    cases h
    simp
  | cons x xs ih =>
    obtain ⟨z,rest,first,others,rfl⟩ := mapM_cons_eq_some_iff.mp h
    rw [List.mem_cons, ih others, List.exists_mem_cons_iff, first, Option.some_inj, eq_comm]

end HealthProbe
