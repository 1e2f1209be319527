/-! # Log lines

What a run has to tell, each line with the millisecond of its clock. The severities are ordered from
the gravest to the least.
-/
namespace HealthProbe

inductive Severity
  | error | warn | info | debug | trace
  deriving DecidableEq, Repr

namespace Severity

def label : Severity → String
  | error => "ERROR"
  | warn => "WARN"
  | info => "INFO"
  | debug => "DEBUG"
  | trace => "TRACE"

def rank : Severity → Nat
  | error => 1
  | warn => 2
  | info => 3
  | debug => 4
  | trace => 5

end Severity

structure LogLine where
  time : Nat
  severity : Severity
  text : String
  deriving DecidableEq, Repr

namespace LogLine

def delayed (t : Nat) (l : LogLine) : LogLine := { l with time := l.time + t }

/-- Lines in the order of their times; lines of one millisecond keep their order. -/
def chronological (ls : List LogLine) : List LogLine := ls.mergeSort fun a b => a.time ≤ b.time

end LogLine
end HealthProbe
