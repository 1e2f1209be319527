import Mathlib.Data.List.Basic
import Mathlib.Tactic.ByContra

/-! # The greatest of some numbers

What is reached when each of some things takes its time and all of them are waited for.
-/
namespace HealthProbe

variable {α : Type} {l : List α} {f : α → Nat} {b : Nat}

theorem foldl_max_le_iff : (l.map f).foldl max 0 ≤ b ↔ ∀ x ∈ l, f x ≤ b := by
  have along : ∀ (ns : List Nat) (a : Nat), ns.foldl max a ≤ b ↔ a ≤ b ∧ ∀ n ∈ ns, n ≤ b := by
    intro ns
    induction ns with
    | nil => simp
    | cons n ns ih =>
      intro a
      rw [List.foldl_cons, ih, Nat.max_le, List.forall_mem_cons, and_assoc]
  rw [along]
  simp

theorem le_foldl_max {x : α} (h : x ∈ l) : f x ≤ (l.map f).foldl max 0 :=
  foldl_max_le_iff.mp (Nat.le_refl _) x h

theorem foldl_max_reached (l : List α) (f : α → Nat) :
    (l.map f).foldl max 0 = 0 ∨ ∃ x ∈ l, f x = (l.map f).foldl max 0 := by
  by_contra none
  obtain ⟨pos,others⟩ := not_or.mp none
  have less : ∀ x ∈ l, f x ≤ (l.map f).foldl max 0 - 1 := by
    intro x hx
    have le : f x ≤ (l.map f).foldl max 0 := le_foldl_max hx
    have ne : f x ≠ (l.map f).foldl max 0 := fun same => others ⟨x,hx,same⟩
    omega
  have le := foldl_max_le_iff.mpr less
  omega

end HealthProbe
