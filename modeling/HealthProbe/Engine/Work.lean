import HealthProbe.Failure
import HealthProbe.Log
import HealthProbe.Verdict

/-! # Work

One run of a checker, seen from outside: how long it takes, what it comes to, and what it has to tell on
the way; or it crashes, comes to nothing and leaves only its last words. All times are milliseconds. A
limit cuts a run that takes longer; one that ends at the very instant of its limit is done in time. Whoever
drives a checker sees its name and its behaviour and nothing else of it.
-/
namespace HealthProbe

abbrev Outcome := Except CheckFailure Verdict

structure Work where
  duration : Nat
  outcome : Outcome
  /-- Lines told on the way, their times counted from the start of the work. -/
  notes : List LogLine

namespace Work

/-- Whether a limit leaves work of a duration alone. Zero is no limit. -/
def fits (limit duration : Nat) : Bool := limit == 0 || duration ≤ limit

def timedOut (limit : Nat) : Outcome := .error (.timeout (Span.ofMillis limit))

def notesUntil (t : Nat) (w : Work) : List LogLine := w.notes.filter fun l => l.time ≤ t

def under (limit : Nat) (w : Work) : Work :=
  if fits limit w.duration then w else ⟨limit, timedOut limit, w.notesUntil limit⟩

@[simp] theorem under_zero (w : Work) : w.under 0 = w := by simp [under, fits]

theorem under_of_le {limit : Nat} {w : Work} (h : w.duration ≤ limit) : w.under limit = w := by
  simp [under, fits, h]

theorem under_of_lt {limit : Nat} {w : Work} (pos : 0 < limit) (h : limit < w.duration) :
    w.under limit = ⟨limit, timedOut limit, w.notesUntil limit⟩ := by
  have ne : limit ≠ 0 := Nat.ne_of_gt pos
  simp [under, fits, ne, Nat.not_le.mpr h]

end Work

inductive Behaviour
  | work (w : Work)
  | crash (after : Nat) (words : String)

instance : Coe Work Behaviour := ⟨.work⟩

namespace Behaviour

def duration : Behaviour → Nat
  | work w => w.duration
  | crash after _ => after

def under (limit : Nat) : Behaviour → Behaviour
  | work w => work (w.under limit)
  | crash after words =>
    if Work.fits limit after then crash after words else work ⟨limit, Work.timedOut limit, []⟩

/-- The behaviour for one who does not tell a crash from a failure. -/
def asWork : Behaviour → Work
  | work w => w
  | crash after words => ⟨after, .error (.probe words), []⟩

end Behaviour

/-- A checker with what it does in each of its runs, counted from its first. -/
structure Checker where
  name : String
  behaviour : Nat → Behaviour

namespace Checker

def work (c : Checker) (n : Nat) : Work := (c.behaviour n).asWork

def after (n : Nat) (c : Checker) : Checker := ⟨c.name, fun k => c.behaviour (n + k)⟩

def constant (name : String) (o : Outcome) : Checker := ⟨name, fun _ => .work ⟨0, o, []⟩⟩

end Checker
end HealthProbe
