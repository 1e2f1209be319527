import HealthProbe.Text.Blank
import Mathlib.Data.List.TakeWhile

/-! # Trimmed text

A text is made of a core between blanks, and trimming leaves the core, which has no blank at either end.
-/
namespace HealthProbe.Text

variable {cs front back : List Char}

def IsBlank (cs : List Char) : Prop := ∀ c ∈ cs, isBlank c = true

instance (cs : List Char) : Decidable (IsBlank cs) := decidable_of_iff (cs.all isBlank = true) List.all_eq_true

structure IsTight (cs : List Char) : Prop where
  first : ∀ c, cs.head? = some c → isBlank c = false
  last : ∀ c, cs.getLast? = some c → isBlank c = false

theorem isBlank_nil : IsBlank [] := fun _ h => nomatch h

theorem head?_trimStart {c : Char} (h : (trimStart cs).head? = some c) : isBlank c = false := by
  have stop := List.head?_dropWhile_not isBlank cs
  rw [trimStart] at h
  rwa [h] at stop

theorem exists_trimStart (cs : List Char) : ∃ front, IsBlank front ∧ cs = front ++ trimStart cs :=
  ⟨cs.takeWhile isBlank,fun _ => List.mem_takeWhile_imp,List.takeWhile_append_dropWhile.symm⟩

theorem exists_trimEnd (cs : List Char) : ∃ back, IsBlank back ∧ cs = trimEnd cs ++ back := by
  obtain ⟨front,blank,split⟩ := exists_trimStart cs.reverse
  refine ⟨front.reverse,fun c hc => blank c (List.mem_reverse.mp hc),?_⟩
  rw [trimEnd, ← List.reverse_append]
  exact List.reverse_eq_iff.mp split

theorem trimStart_append (blank : IsBlank front) (cs : List Char) :
    trimStart (front ++ cs) = trimStart cs :=
  List.dropWhile_append_of_pos blank

theorem trimEnd_append (blank : IsBlank back) (cs : List Char) : trimEnd (cs ++ back) = trimEnd cs := by
  rw [trimEnd, List.reverse_append, trimEnd]
  refine congrArg List.reverse (List.dropWhile_append_of_pos fun c hc => ?_)
  exact blank c (List.mem_reverse.mp hc)

/-- Blanks around a text do not count. -/
theorem trim_append (before : IsBlank front) (behind : IsBlank back) (cs : List Char) :
    trim (front ++ (cs ++ back)) = trim cs := by
  rw [trim, trimStart_append before, trim]
  have along : trimStart (cs ++ back) =
      if (trimStart cs).isEmpty then trimStart back else trimStart cs ++ back := List.dropWhile_append
  rw [along]
  split
  · rename_i none
    have all : trimStart back = [] := List.dropWhile_eq_nil_iff.mpr behind
    rw [all, List.isEmpty_iff.mp none]
  · exact trimEnd_append behind _

/-- A text is its trimmed core between blanks. -/
theorem exists_trim (cs : List Char) :
    ∃ front back, IsBlank front ∧ IsBlank back ∧ cs = front ++ (trim cs ++ back) := by
  obtain ⟨front,before,split⟩ := exists_trimStart cs
  obtain ⟨back,behind,rest⟩ := exists_trimEnd (trimStart cs)
  refine ⟨front,back,before,behind,?_⟩
  rw [trim, ← rest]
  exact split

theorem isTight_trim (cs : List Char) : IsTight (trim cs) := by
  constructor
  · intro c h
    obtain ⟨back,-,rest⟩ := exists_trimEnd (trimStart cs)
    have first : (trimStart cs).head? = some c := by rw [rest, List.head?_append, ← trim, h, Option.some_or]
    exact head?_trimStart first
  · intro c h
    rw [trim, trimEnd, List.getLast?_reverse] at h
    exact head?_trimStart h

theorem IsTight.trim_eq (tight : IsTight cs) : trim cs = cs := by
  have start : trimStart cs = cs := by
    cases cs with
    | nil => rfl
    | cons c cs => exact trimStart_of_head (tight.first c rfl)
  have rest : trimStart cs.reverse = cs.reverse := by
    cases h : cs.reverse with
    | nil => rfl
    | cons c ds =>
      have last : cs.getLast? = some c := by rw [List.getLast?_eq_head?_reverse, h, List.head?_cons]
      exact trimStart_of_head (tight.last c last)
  rw [trim, start, trimEnd, ← trimStart, rest, List.reverse_reverse]

theorem trim_eq_self_iff : trim cs = cs ↔ IsTight cs :=
  ⟨fun h => h ▸ isTight_trim cs,IsTight.trim_eq⟩

instance (cs : List Char) : Decidable (IsTight cs) := decidable_of_iff _ trim_eq_self_iff

theorem trim_eq_nil_iff : trim cs = [] ↔ IsBlank cs := by
  constructor
  · intro h
    obtain ⟨front,back,before,behind,split⟩ := exists_trim cs
    rw [split, h]
    intro c hc
    rcases List.mem_append.mp hc with hc | hc
    · exact before c hc
    · exact behind c hc
  · intro blank
    have none := trim_append blank isBlank_nil []
    rwa [List.append_nil, List.append_nil] at none

theorem mem_of_mem_trim {c : Char} (h : c ∈ trim cs) : c ∈ cs := by
  obtain ⟨front,back,-,-,split⟩ := exists_trim cs
  rw [split]
  exact List.mem_append_right _ (List.mem_append_left _ h)

end HealthProbe.Text
