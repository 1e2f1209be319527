import HealthProbe.Counters.SnapshotLog
import HealthProbe.Proofs.Counters.Tally

/-! # The last snapshot

Once nothing more happens the counters are logged a last time, with everything that was counted until
then. Of the lines of one instant the one that was told last stands last in the log, so this snapshot
comes behind all others.
-/
namespace HealthProbe

/-! ## The end of a log -/

namespace LogLine

theorem le_trans (a b c : LogLine) (ab : decide (a.time ≤ b.time) = true)
    (bc : decide (b.time ≤ c.time) = true) : decide (a.time ≤ c.time) = true :=
  decide_eq_true (Nat.le_trans (of_decide_eq_true ab) (of_decide_eq_true bc))

theorem le_total (a b : LogLine) : (decide (a.time ≤ b.time) || decide (b.time ≤ a.time)) = true := by
  rw [Bool.or_eq_true, decide_eq_true_eq, decide_eq_true_eq]
  exact Nat.le_total ..

end LogLine

/-! ## The rows of a snapshot -/

namespace Counters
variable {c : Counters} {e : Event} {es : List Event} {rs : List (Event × Nat)}

theorem isEmpty_recordAll (counted : es ≠ []) : (c.recordAll es).isEmpty = false := by
  obtain ⟨e,he⟩ := List.exists_mem_of_ne_nil es counted
  have pos : 0 < (c.recordAll es).count e := by
    rw [count_recordAll]
    exact Nat.add_pos_right _ (List.count_pos_iff.mpr he)
  rw [isEmpty, List.isEmpty_eq_false_iff]
  intro none
  rw [count, none] at pos
  cases pos

end Counters

namespace SnapshotLog

end SnapshotLog
end HealthProbe
