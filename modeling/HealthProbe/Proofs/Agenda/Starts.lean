import HealthProbe.Proofs.Agenda.Slots

/-! # Starts and ends of runs

When the runs of a schedule start and end, told from what its checker does in each of them, from the limit,
the ticks and the cancellation, and from nothing else. The slots of the schedule are the starts told here.
-/
namespace HealthProbe.Schedule

/-- The run with a number, started at an instant, is over at another: with what becomes of it, or cut by the
cancellation. -/
inductive Ends (s : Schedule) (cancel : Option Nat) (ties : Ties) (n start : Nat) : Nat → Option Fate → Prop
  | done {d : Nat} {fate : Fate} (lasts : (s.behaviour n).within s.limit = (d, fate))
      (early : inTime cancel (ties.run n) (start + d) = true) : Ends s cancel ties n start (start + d) (some fate)
  | cut {c d : Nat} {fate : Fate} (lasts : (s.behaviour n).within s.limit = (d, fate))
      (cancels : cancel = some c) (late : inTime cancel (ties.run n) (start + d) = false) :
      Ends s cancel ties n start c none

/-- The run with a number starts at an instant, on a tick that was due at another. -/
inductive Starts (s : Schedule) (cancel : Option Nat) (ties : Ties) : Nat → Nat → Nat → Prop
  | first (goes : s.interval = 0 ∨ inTime cancel (ties.tick 0) 0 = true) : Starts s cancel ties 0 0 0
  | next {n due start stop tick : Nat} {fate : Option Fate} (prior : Starts s cancel ties n due start)
      (periodic : s.interval ≠ 0) (ended : s.Ends cancel ties n start stop fate)
      (whole : ∀ words, fate ≠ some (.error words))
      (following : tick = (if start ≤ due + 5 then due else start) + s.interval)
      (taken : inTime cancel (ties.tick (n + 1)) (max stop tick) = true) :
      Starts s cancel ties (n + 1) tick (max stop tick)

variable {s : Schedule} {cancel : Option Nat} {ties : Ties} {n due start stop : Nat} {fate : Option Fate}

theorem lasts_eq (s : Schedule) (n : Nat) : s.lasts n = ((s.behaviour n).within s.limit).1 :=
  (closeOf_within s.limit (s.behaviour n)).1

theorem outcome?_eq (s : Schedule) (n : Nat) :
    s.outcome? n = ((s.behaviour n).within s.limit).2.toOption :=
  (closeOf_within s.limit (s.behaviour n)).2.1

theorem isSingle_iff : s.isSingle = true ↔ s.interval = 0 := beq_iff_eq

/-- A run ends as it is told here, and it does not crash unless it is told that it does. -/
theorem ends_iff : s.Ends cancel ties n start stop fate ↔
    (s.run cancel ties n start).stop = stop ∧
      (inTime cancel (ties.run n) (start + s.lasts n) = true ∧
          fate = some ((s.behaviour n).within s.limit).2 ∨
        inTime cancel (ties.run n) (start + s.lasts n) = false ∧ fate = none) := by
  constructor
  · rintro (@⟨d,fate,lasts,early⟩ | @⟨c,d,fate,lasts,cancels,late⟩)
    · obtain rfl : s.lasts n = d := (s.lasts_eq n).trans (congrArg Prod.fst lasts)
      exact ⟨(run_of_inTime early).1,.inl ⟨early,by rw [lasts]⟩⟩
    · obtain rfl : s.lasts n = d := (s.lasts_eq n).trans (congrArg Prod.fst lasts)
      subst cancels
      exact ⟨(run_of_late late).1,.inr ⟨late,rfl⟩⟩
  · have lasts : (s.behaviour n).within s.limit = (s.lasts n, ((s.behaviour n).within s.limit).2) := by
      rw [lasts_eq]
    rintro ⟨rfl,⟨early,rfl⟩ | ⟨late,rfl⟩⟩
    · rw [(run_of_inTime early).1]
      exact .done lasts early
    · cases cancel with
      | none => cases late
      | some c =>
        rw [(run_of_late late).1]
        exact .cut lasts rfl late

theorem isCrash_run_of_ends (ended : s.Ends cancel ties n start stop fate) :
    (s.run cancel ties n start).close.isCrash = false ↔ ∀ words, fate ≠ some (.error words) := by
  obtain ⟨_,⟨early,rfl⟩ | ⟨late,rfl⟩⟩ := ends_iff.mp ended
  · rw [(run_of_inTime early).2, (closeOf_within s.limit (s.behaviour n)).2.2]
    cases ((s.behaviour n).within s.limit).2 with
    | error words => exact iff_of_false Bool.noConfusion fun never => never words rfl
    | ok o => exact iff_of_true rfl nofun
  · cases cancel with
    | none => cases late
    | some c =>
      rw [(run_of_late late).2]
      exact iff_of_true rfl nofun

theorem exists_ends (s : Schedule) (cancel : Option Nat) (ties : Ties) (n start : Nat) :
    ∃ fate, s.Ends cancel ties n start (s.run cancel ties n start).stop fate := by
  cases h : inTime cancel (ties.run n) (start + s.lasts n) with
  | true => exact ⟨_,ends_iff.mpr ⟨rfl,.inl ⟨h,rfl⟩⟩⟩
  | false => exact ⟨_,ends_iff.mpr ⟨rfl,.inr ⟨h,rfl⟩⟩⟩

/-- The starts that are told here are the slots of the schedule. -/
theorem starts_iff : s.Starts cancel ties n due start ↔ s.slot? cancel ties n = some ⟨due, start⟩ := by
  constructor
  · intro starts
    induction starts with
    | first goes =>
      have opens : (s.isSingle || inTime cancel (ties.tick 0) 0) = true := by
        rwa [Bool.or_eq_true, isSingle_iff]
      rw [slot?, if_pos opens]
    | next _ periodic ended whole following taken ih =>
      rw [slot?_succ ih, nextSlot?_eq_some_iff]
      refine ⟨Bool.eq_false_iff.mpr (mt isSingle_iff.mp periodic),(isCrash_run_of_ends ended).mpr whole,
        following,?_,taken⟩
      rw [(ends_iff.mp ended).1]
  · intro slot
    induction n generalizing due start with
    | zero =>
      simp only [slot?] at slot
      split at slot
      · rename_i opens
        cases slot
        rw [Bool.or_eq_true, isSingle_iff] at opens
        exact .first opens
      · cases slot
    | succ n ih =>
      obtain ⟨⟨due',start'⟩,prior,next⟩ := slot?_succ_eq_some slot
      obtain ⟨periodic,whole,following,begins,taken⟩ := nextSlot?_eq_some_iff.mp next
      obtain ⟨fate,ended⟩ := s.exists_ends cancel ties n start'
      simp only at following begins
      subst begins
      exact .next (ih prior) (mt isSingle_iff.mpr (Bool.eq_false_iff.mp periodic)) ended
        ((isCrash_run_of_ends ended).mp whole) following taken

end HealthProbe.Schedule
