import HealthProbe.Engine.Task

/-! # The agenda

All schedules are carried out side by side on one clock, with one cancellation and one set of counters.
The task goes on whose next instant comes first, until every task is over. Of the failures of schedules
that run once the one is reported that stands first in the list of schedules; a failure of any other
schedule is logged and counted and nothing more.
-/
namespace HealthProbe

structure Agenda where
  cancel : Option Nat
  tasks : List Task
  /-- What was counted, in the order of counting. -/
  events : List TimedEvent
  lines : List LogLine

namespace Agenda

/-- The place of the least of the times that there are, and that time. Of equal ones the first counts. -/
def firstLeast : List (Option Nat) → Option (Nat × Nat)
  | [] => none
  | t :: ts =>
    match t, firstLeast ts with
    | none, none => none
    | none, some (i, u) => some (i + 1, u)
    | some t, none => some (0, t)
    | some t, some (i, u) => if u < t then some (i + 1, u) else some (0, t)

def next? (g : Agenda) : Option Nat :=
  (firstLeast (g.tasks.map (Task.next? g.cancel))).map Prod.fst

def advance (g : Agenda) (i : Nat) : Agenda :=
  match g.tasks[i]? with
  | none => g
  | some t =>
    let (t, trace) := t.advance g.cancel
    { g with
      tasks := g.tasks.set i t
      events := g.events ++ trace.events
      lines := g.lines ++ trace.lines }

/-- Goes on until every task is over, in at most so many steps. -/
def settle : Nat → Agenda → Option Agenda
  | 0, g => if g.next? = none then some g else none
  | n + 1, g =>
    match g.next? with
    | none => some g
    | some i => settle n (g.advance i)

def counters (g : Agenda) : Counters := Counters.empty.recordAll (g.events.map TimedEvent.event)

def begin (cancel : Option Nat) (tasks : List (Schedule × Ties)) : Agenda :=
  ⟨cancel, tasks.map fun (s, ties) => Task.begin cancel s ties, [],
    ⟨0, .info, "启动检测调度器，检测计划数量: " ++ toString tasks.length⟩ ::
      tasks.flatMap fun (s, _) => Task.firstLines s⟩

/-- Enough steps for a task that is cancelled at an instant, or that runs at most so many times. -/
def steps (cancel : Option Nat) (rounds : Nat) (s : Schedule) : Nat :=
  if s.isSingle then 1
  else 2 * (((cancel.map (· / s.interval)).getD rounds) + 1) + 1

/-- The failure of a task with a number, if it is one that is reported. -/
def failure? (number : Nat) (t : Task) : Option Failure :=
  match t.stage with
  | .ended _ (.ran (.error e)) => some (.check e)
  | .ended _ (.crashed words) => if t.schedule.isSingle then some (.crashed number words) else none
  | _ => none

def failureLine? (number : Nat) (t : Task) (time : Nat) : Option LogLine :=
  match failure? number t, t.stage with
  | some f, _ => some ⟨time, .error, "检测任务失败 " ++ t.schedule.name ++ ": " ++ f.message⟩
  | none, .ended _ (.crashed words) =>
    some ⟨time, .error, "周期检测任务异常退出 " ++ t.schedule.name ++ ": " ++ Failure.crashText number words⟩
  | none, _ => none

def numbered (tasks : List Task) : List (Nat × Task) := (List.range tasks.length).zip tasks

/-- The first failure in the order of the tasks. -/
def outcome (tasks : List Task) : Except Failure Unit :=
  match (numbered tasks).findSome? fun (i, t) => failure? i t with
  | some f => .error f
  | none => .ok ()

def stopOf (t : Task) : Nat :=
  match t.stage with
  | .ended time _ => time
  | _ => 0

def stop (tasks : List Task) : Nat := (tasks.map stopOf).foldl max 0

structure Report where
  outcome : Except Failure Unit
  stop : Nat
  /-- The runs of each schedule, in the order of their starts. -/
  runs : List (String × List Run)
  events : List TimedEvent
  lines : List LogLine

def Report.counters (r : Report) : Counters :=
  Counters.empty.recordAll (r.events.map TimedEvent.event)

def report (g : Agenda) : Report :=
  let stop := stop g.tasks
  { outcome := outcome g.tasks
    stop
    runs := g.tasks.map fun t => (t.schedule.name, t.runs.reverse)
    events := g.events
    lines := g.lines ++ ((numbered g.tasks).filterMap fun (i, t) => failureLine? i t stop) ++
      [⟨stop, .info, "检测调度器已停止"⟩] }

/-- Carries out schedules to their end. Without a cancellation there need not be one; then each task is
given up after `rounds` runs. -/
def run (rounds : Nat) (cancel : Option Nat) (tasks : List (Schedule × Ties)) : Option Report :=
  let enough := tasks.foldr (fun t n => steps cancel rounds t.1 + n) 0
  ((begin cancel tasks).settle enough).map report

end Agenda
end HealthProbe
