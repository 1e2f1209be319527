import HealthProbe.Counters.Basic
import HealthProbe.Engine.Work
import HealthProbe.NodeStatus.Basic

/-! # Check passes

A pass runs its checkers one after the other, trying each one until it comes to a verdict or has used up
its attempts, and then writes all verdicts into the stored status of the node at once: one look at the
store, one update. A checker that never comes to a verdict is unknown; it does not stop the pass. A crash of
a checker does: the pass crashes with it, and the store is not asked for anything.
-/
namespace HealthProbe

structure Retries where
  maxAttempts : Nat
  /-- The time between two attempts. -/
  pause : Nat
  deriving DecidableEq, Repr

structure Attempt where
  start : Nat
  stop : Nat
  cut : Bool
  deriving DecidableEq, Repr

structure Trial where
  /-- The verdict, or the last words of a crash. -/
  verdict : Except String Verdict
  stop : Nat
  attempts : List Attempt
  lines : List LogLine

namespace Retries

def standard : Retries := ⟨3, 3000⟩

/-- There is always a first attempt. -/
def attempts (r : Retries) : Nat := max 1 r.maxAttempts

def failedVerdict (attempts : Nat) (e : CheckFailure) : Verdict :=
  .unknown Classification.failureCode
    ("检测在 " ++ toString attempts ++ " 次尝试后仍然失败: " ++ e.message)

/-- Tries on with so many attempts left beyond the next one. -/
def tryOn (r : Retries) (limit : Nat) (c : Checker) : Nat → Nat → Nat → Trial
  | left, made, now =>
    let raw := c.behaviour made
    let shown := raw.under limit
    let stop := now + shown.duration
    let attempt : Attempt := ⟨now, stop, !Work.fits limit raw.duration⟩
    match shown with
    | .crash _ words => ⟨.error words, stop, [attempt], []⟩
    | .work work =>
      let notes := work.notes.map (LogLine.delayed now)
      match work.outcome with
      | .ok v =>
        ⟨.ok v, stop, [attempt], notes ++
          [⟨stop, .debug, "检测器 " ++ c.name ++ " 第 " ++ toString (made + 1) ++ " 次尝试成功: " ++
            v.health.display⟩]⟩
      | .error e =>
        let line : LogLine := ⟨stop, .warn, "检测器 " ++ c.name ++ " 第 " ++ toString (made + 1) ++ "/" ++
          toString r.attempts ++ " 次尝试失败: " ++ e.message⟩
        match left with
        | 0 => ⟨.ok (failedVerdict r.attempts e), stop, [attempt], notes ++ [line]⟩
        | left + 1 =>
          let rest := tryOn r limit c left (made + 1) (stop + r.pause)
          { rest with attempts := attempt :: rest.attempts, lines := notes ++ line :: rest.lines }

def trial (r : Retries) (limit : Nat) (c : Checker) (now : Nat) : Trial :=
  r.tryOn limit c (r.attempts - 1) 0 now

/-- Tries checkers one after the other, each under the limit that its name has, up to one that crashes. -/
def trials (r : Retries) (limits : Table Nat) : List Checker → Nat → List Trial
  | [], _ => []
  | c :: cs, now =>
    let t := r.trial ((limits.find? c.name).getD 0) c now
    match t.verdict with
    | .ok _ => t :: trials r limits cs t.stop
    | .error _ => [t]

end Retries

structure Pass where
  /-- What the log calls the pass. -/
  label : String
  node : String
  retries : Retries
  limits : Table Nat
  checkers : List Checker
  /-- The moment of each millisecond; the results are dated with the one of their writing. -/
  clock : Nat → Time.Stamp

namespace Pass

structure Report where
  outcome : Except Failure (Table Verdict)
  stop : Nat
  trials : List Trial
  /-- What was told before the status was written. -/
  opening : List LogLine
  /-- What was told after it. -/
  closing : List LogLine

def Report.lines (r : Report) (ofStore : List LogLine) : List LogLine :=
  r.opening ++ ofStore ++ r.closing

/-- The verdicts by the names of the checkers, or the last words of a crash; of two checkers with one name
the later counts. -/
def verdicts (cs : List Checker) (ts : List Trial) : Except String (Table Verdict) :=
  (ts.mapM Trial.verdict).map fun vs => Table.ofList ((cs.map Checker.name).zip vs)

/-- Looks up the status of a node, puts the verdicts in, and writes it back. -/
def writeDown {σ : Type} (store : Store σ) (node : String) (results : Table Verdict)
    (moment : Time.Stamp) (state : σ) : Except StoreFailure Unit × σ :=
  match store.get node state with
  | (.error e, state) => (.error e, state)
  | (.ok status, state) => store.update (status.merge results moment) state

/-- Carries out a pass that begins at an instant. The pass is the only task of its kind, so it has the number
zero when it crashes. -/
def perform {σ : Type} (store : Store σ) (p : Pass) (start : Nat) (state : σ) : Report × σ :=
  let trials := p.retries.trials p.limits p.checkers start
  let stop := (trials.getLast?.map Trial.stop).getD start
  let lines := (⟨start, .info, "开始检测轮次 " ++ p.label ++ ": 节点 " ++ p.node ++ "，检测器数量 " ++
    toString p.checkers.length⟩ : LogLine) :: trials.flatMap Trial.lines
  match verdicts p.checkers trials with
  | .error words => (⟨.error (.crashed 0 words), stop, trials, lines, []⟩, state)
  | .ok results =>
    match writeDown store p.node results (p.clock stop) state with
    | (.error e, state) => (⟨.error (.store e), stop, trials, lines, []⟩, state)
    | (.ok (), state) =>
      (⟨.ok results, stop, trials, lines,
        [⟨stop, .info, "检测轮次 " ++ p.label ++ " 完成，结果已写入节点 " ++ p.node⟩]⟩, state)

end Pass
end HealthProbe
