import HealthProbe.Counters.SnapshotLog

/-! # Tasks

A schedule runs its checker once, or again and again on ticks; each schedule is carried out by a task of
its own. A task goes from one instant to the next: it waits for a tick, is in a run, or is over. Runs of
a task never overlap. A cancellation ends a task that waits and cuts a run short.

A tick that was due at `d` and is taken at `t` makes the next one due at `d` plus the interval when it was
at most five milliseconds late, and at `t` plus the interval otherwise.
-/
namespace HealthProbe

structure Schedule where
  name : String
  kind : String
  /-- From one tick to the next; zero for a single run. -/
  interval : Nat
  /-- How long one run may take; zero for as long as it likes. -/
  limit : Nat
  /-- What each run does, by its number. -/
  behaviour : Nat → Behaviour

def Schedule.isSingle (s : Schedule) : Bool := s.interval == 0

/-- Whether what is due at the instant of the cancellation still takes place: the tick or the end of the
run with a number. -/
structure Ties where
  tick : Nat → Bool
  run : Nat → Bool

/-- Everything that is due at the instant of the cancellation still takes place. -/
def Ties.work : Ties := ⟨fun _ => true, fun _ => true⟩

def inTime (cancel : Option Nat) (tie : Bool) (t : Nat) : Bool :=
  match cancel with
  | none => true
  | some c => t < c || (t == c && tie)

inductive Close
  | finished (o : Outcome)
  | expired (limit : Nat)
  | crashed (words : String)
  | cancelled

namespace Close

def outcome? : Close → Option Outcome
  | finished o => some o
  | expired limit => some (Work.timedOut limit)
  | crashed _ => none
  | cancelled => some (.error .cancelled)

/-- The outcome that counts. A run that was cancelled, or says that it was, does not. -/
def counted? (c : Close) : Option Outcome :=
  match c.outcome? with
  | some (.error .cancelled) => none
  | o => o

end Close

/-- A run of a checker. One that is cancelled in its first instant may not even have started. -/
structure Run where
  start : Nat
  stop : Nat
  close : Close
  started : Bool
  notes : List LogLine

namespace Schedule

def closeOf (limit : Nat) : Behaviour → Nat × Close
  | .work w => if Work.fits limit w.duration then (w.duration, .finished w.outcome)
    else (limit, .expired limit)
  | .crash after words => if Work.fits limit after then (after, .crashed words)
    else (limit, .expired limit)

def notesOf : Behaviour → List LogLine
  | .work w => w.notes
  | .crash _ _ => []

def run (s : Schedule) (cancel : Option Nat) (ties : Ties) (n start : Nat) : Run :=
  let (duration, close) := closeOf s.limit (s.behaviour n)
  let stop := start + duration
  let told := ((notesOf (s.behaviour n)).map (LogLine.delayed start)).filter fun l =>
    l.time ≤ stop && inTime cancel (ties.run n) l.time
  if inTime cancel (ties.run n) stop then ⟨start, stop, close, true, told⟩
  else
    let cut := (cancel.getD stop)
    ⟨start, cut, .cancelled, start < cut || ties.run n, told⟩

/-- When the tick after one that was due at `due` and is taken at `now` is due. -/
def nextDue (interval due now : Nat) : Nat := (if now ≤ due + 5 then due else now) + interval

end Schedule

/-- How a task ended: stopped, with its one run, or by a crash of a run. -/
inductive Ending
  | stopped
  | ran (o : Outcome)
  | crashed (words : String)

inductive Stage
  /-- Waits since an instant for the tick that is due. -/
  | idle (since due : Nat)
  /-- In a run; after it the next tick is due. -/
  | busy (run : Run) (due : Nat)
  | ended (time : Nat) (ending : Ending)

structure Task where
  schedule : Schedule
  ties : Ties
  /-- The runs that have ended, the latest first. -/
  runs : List Run
  stage : Stage

structure Trace where
  events : List TimedEvent
  lines : List LogLine

namespace Trace

def empty : Trace := ⟨[], []⟩

end Trace

namespace Task

def startLine (s : Schedule) (t : Nat) : LogLine := ⟨t, .debug, "开始检测: " ++ s.name⟩

def firstLines (s : Schedule) : List LogLine :=
  if s.isSingle then [⟨0, .info, "运行一次性检测: " ++ s.name⟩, startLine s 0]
  else
    [⟨0, .info, "启动周期检测任务: " ++ s.name ++ " (间隔 " ++ (Span.ofMillis s.interval).text ++ ", 超时 " ++
      (Span.ofMillis s.limit).text ++ ")"⟩]

def begin (cancel : Option Nat) (s : Schedule) (ties : Ties) : Task :=
  ⟨s, ties, [], if s.isSingle then .busy (s.run cancel ties 0 0) 0 else .idle 0 0⟩

def verdictLine (s : Schedule) (t : Nat) : Outcome → LogLine
  | .error .cancelled => ⟨t, .debug, "检测被取消: " ++ s.name⟩
  | .error e => ⟨t, .error, "检测执行失败 " ++ s.name ++ ": " ++ e.message⟩
  | .ok v =>
    if v.health = .healthy then ⟨t, .debug, "检测正常: " ++ s.name⟩
    else
      ⟨t, .warn, "检测结论: " ++ s.name ++ " " ++ v.health.display ++ " [" ++
        (Classification.of (.ok v)).code ++ "] " ++ v.message?.getD "N/A"⟩

def runTrace (s : Schedule) (r : Run) : Trace :=
  ⟨(r.close.counted?.map fun o =>
      TimedEvent.mk r.stop (Event.of s.kind s.name (Classification.of o))).toList,
   r.notes ++ (r.close.outcome?.map (verdictLine s r.stop)).toList⟩

def next? (cancel : Option Nat) (t : Task) : Option Nat :=
  match t.stage with
  | .idle since due =>
    let tick := max since due
    some (if inTime cancel (t.ties.tick t.runs.length) tick then tick else max since (cancel.getD tick))
  | .busy r _ => some r.stop
  | .ended _ _ => none

def afterRun (s : Schedule) (r : Run) (due : Nat) : Stage :=
  match r.close with
  | .crashed words => .ended r.stop (.crashed words)
  | close =>
    if s.isSingle then .ended r.stop (.ran (close.outcome?.getD (.error .cancelled)))
    else .idle r.stop due

def advance (cancel : Option Nat) (t : Task) : Task × Trace :=
  match t.stage with
  | .idle since due =>
    let tick := max since due
    let n := t.runs.length
    if inTime cancel (t.ties.tick n) tick then
      ({ t with stage := .busy (t.schedule.run cancel t.ties n tick)
                  (Schedule.nextDue t.schedule.interval due tick) },
       ⟨[], [startLine t.schedule tick]⟩)
    else
      let stop := max since (cancel.getD tick)
      ({ t with stage := .ended stop .stopped },
       ⟨[], [⟨stop, .info, "停止周期检测任务: " ++ t.schedule.name⟩]⟩)
  | .busy r due =>
    ({ t with runs := r :: t.runs, stage := afterRun t.schedule r due }, runTrace t.schedule r)
  | .ended _ _ => (t, .empty)

end Task
end HealthProbe
