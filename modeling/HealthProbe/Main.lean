import HealthProbe.CommandLine.Program
import HealthProbe.Live.Disk
import HealthProbe.Live.Wire
import Std.Internal.UV.System
import Std.Time

/-! # Command line

Gives the program what it needs of the world: the environment, the part of the disk that its command
line names, the clock, and the answers of the network. Then it shows what the program shows and writes
what it has changed. Schedules that go on are carried out as their instants come.
-/
namespace HealthProbe.Live
open Std.Time

/-! ## The world -/

def stampAfter (start : Timestamp) (millis : Nat) : Time.Stamp :=
  let t := DateTime.ofTimestampWithZone (start.addMilliseconds (.ofNat millis)) TimeZone.UTC
  let date := Time.Date.of? t.year t.month.val.toNat t.day.val.toNat
  (date.bind fun d =>
    Time.Stamp.of? d (60 * t.hour.val.toNat + t.minute.val.toNat) t.second.val.toNat
      t.nanosecond.val.toNat).getD default

def randomLabel : IO String := do
  let bytes := (← IO.getRandomBytes 16).toList
  let digits := bytes.flatMap fun b => [Json.hexDigit (b.toNat / 16), Json.hexDigit b.toNat]
  let digits := (digits.set 12 '4').set 16 'a'
  let group (n len : Nat) := String.ofList ((digits.drop n).take len)
  pure ("-".intercalate [group 0 8, group 8 4, group 12 4, group 16 4, group 20 12])

def subject? (c : Config) : Command → Option String
  | .check node _ => some (node.getD c.general.nodeName)
  | _ => none

def bareSite (env : Environment) : IO Site := do
  let start ← Timestamp.now
  pure
    { env
      files := .empty
      net := fun _ _ _ _ => .probe ⟨0, none⟩
      clock := stampAfter start
      interrupt := none
      passLabel := ← randomLabel }

/-- The site of a command: everything but what the network answers. -/
def siteOf (a : CommandLine) (env : Environment) : IO Site := do
  let configs := ["config.toml", a.configFile env .empty]
  let site := { ← bareSite env with files := ← readTree configs }
  let statusFile := do
    let c ← (site.load a).toOption
    let node ← subject? c a.command
    (FileStore.path? c.general.statusDir node).toOption
  let named := statusFile.toList ++ (Program.logSetting site a).file.toList
  let drafts := statusFile.toList.map FileStore.draftPath
  let files ← readTree (configs ++ named ++ drafts)
  pure { site with files }

/-! ## The network -/

abbrev Answers := List ((Inquiry × UInt16 × Nat × Address) × Probing)

def Answers.net (known : Answers) : Net := fun p port n a =>
  (known.lookup (p, port, n, a)).getD (.probe ⟨0, none⟩)

def askFor (c : Config) (node : String) (n : Nat) (e : CheckerEntry) : IO Answers := do
  match e.network with
  | none => pure []
  | some spec =>
    match spec.inquiry with
    | .error _ => pure []
    | .ok p =>
      let check := NetworkCheck.forNode e.name spec node
      let addresses := (check.probed c.inventory.directory).map Prod.fst
      let answers ← askAll Program.agent p spec.port addresses
      pure (answers.map fun (a, x) => ((p, spec.port, n, a), x))

def behaviourOf (c : Config) (node : String) (known : Answers) (e : CheckerEntry) (n : Nat) : Behaviour :=
  match networkMaker known.net c.inventory.directory node e with
  | .ok checker => (checker.behaviour n).under e.limitMillis
  | .error reason => .work ⟨0, .error (.probe reason), []⟩

def rest (millis : Nat) : IO Unit := IO.sleep (UInt32.ofNat (min millis (UInt32.size - 1)))

/-- Asks for one attempt after the other until one comes to a verdict or crashes; tells with the answers
whether it crashed. -/
def askWithRetry (c : Config) (node : String) (known : Answers) (e : CheckerEntry) : IO (Answers × Bool) := do
  let retries := Site.retries c.general
  let mut known := known
  for n in [0:retries.attempts] do
    known := known ++ (← askFor c node n e)
    match behaviourOf c node known e n with
    | .crash _ _ => return (known, true)
    | .work w => if w.outcome.isOk then break
    if n + 1 < retries.attempts then rest retries.pause
  pure (known, false)

/-- The answers for the checkers of entries in their order, up to one that crashes. -/
def askInTurn (c : Config) (node : String) (known : Answers) : List CheckerEntry → IO Answers
  | [] => pure known
  | e :: es => do
    let (known, crashed) ← askWithRetry c node known e
    if crashed then pure known else askInTurn c node known es

/-- The site with all answers that its command wants. Nothing is asked for a pass that cannot begin. -/
def withAnswers (site : Site) (a : CommandLine) : IO Site := do
  match a.command, (site.load a).toOption with
  | .check node _, some c =>
    let node := node.getD c.general.nodeName
    if (nodeViolation? node).isNone && ((site.catalogue c node).buildAll c.checkers).isOk then
      let known ← askInTurn c node [] c.checkers
      pure { site with net := Answers.net known }
    else pure site
  | _, _ => pure site

/-! ## Output -/

def showText (text : String) : IO Unit := do
  IO.println text
  (← IO.getStdout).flush

def showLine (site : Site) (setting : LogSetting) (l : LogLine) : IO Unit := do
  if setting.threshold.shows l.severity then
    let text := setting.written site.clock l
    match setting.file with
    | none => showText text
    | some path => IO.FS.withFile path .append fun h => h.putStrLn text

def showOutput (site : Site) (setting : LogSetting) : Output → IO Unit
  | .print text => showText text
  | .log l => showLine site setting l

/-! ## Schedules as their instants come -/

structure Desk where
  start : Nat
  events : IO.Ref (List TimedEvent)
  tell : List LogLine → IO Unit

def Desk.now (d : Desk) : IO Nat := return (← IO.monoMsNow) - d.start

def Desk.waitUntil (d : Desk) (t : Nat) : IO Unit := do
  while (← d.now) < t do rest (t - (← d.now))

def Desk.take (d : Desk) (trace : Trace) : IO Unit := do
  d.events.modify (· ++ trace.events)
  d.tell trace.lines

/-- The schedule with its next run known. -/
def foreseen (c : Config) (e : CheckerEntry) (s : Schedule) : IO Schedule := do
  let node := c.general.nodeName
  let known ← askFor c node 0 e
  pure { s with behaviour := fun _ => behaviourOf c node known e 0 }

def carryOn (d : Desk) (c : Config) (e : CheckerEntry) (s : Schedule) : IO Task := do
  let first ← if s.isSingle then foreseen c e s else pure s
  let mut task := Task.begin none first .work
  repeat
    match task.next? none with
    | none => break
    | some t =>
      d.waitUntil t
      if let .idle .. := task.stage then
        task := { task with schedule := ← foreseen c e s }
      let (next, trace) := task.advance none
      d.take trace
      task := next
  pure task

def logSnapshots (d : Desk) (clock : Nat → Time.Stamp) (interval : Nat) : IO Unit := do
  let mut due := interval
  while !(← IO.checkCanceled) do
    let now ← d.now
    if now < due then rest (min 100 (due - now))
    else
      let counters := Counters.empty.recordAll ((← d.events.get).map TimedEvent.event)
      unless counters.isEmpty do d.tell [SnapshotLog.line clock due counters]
      due := due + interval

def carryAll (site : Site) (setting : LogSetting) (c : Config) (schedules : List Schedule) :
    IO (Except Failure Unit) := do
  let d : Desk := ⟨← IO.monoMsNow, ← IO.mkRef [], fun ls => ls.forM (showLine site setting)⟩
  let agenda := Agenda.begin none (schedules.map fun s => (s, Ties.work))
  d.tell agenda.lines
  let interval := 1000 * c.general.metricsInterval.toNat
  let snapshots ← IO.asTask
    (if interval = 0 then pure () else logSnapshots d site.clock interval) .dedicated
  let running ← (c.checkers.zip schedules).mapM fun (e, s) => IO.asTask (carryOn d c e s) .dedicated
  let tasks ← running.mapM fun t => IO.ofExcept t.get
  IO.cancel snapshots
  let report := Agenda.report { agenda with tasks, events := ← d.events.get, lines := [] }
  d.tell report.lines
  unless interval = 0 || report.counters.isEmpty do
    d.tell [SnapshotLog.line site.clock report.stop report.counters]
  d.tell [⟨report.stop, .info, "检测已停止"⟩]
  pure report.outcome

/-! ## Commands -/

def runSchedules (site : Site) (a : CommandLine) : IO UInt32 := do
  let setting := Program.logSetting site a
  match Program.openLog setting site.files with
  | .error f =>
    (Program.faultErrors f).forM fun text => IO.eprintln text
    pure 1
  | .ok files =>
    writeChanges site.files files
    let start := site.start a
    (Program.firstOutputs ++ start.outputs).forM (showOutput site setting)
    let outcome ← match start.plan with
      | .error f => pure (.error f)
      | .ok (c, schedules) => carryAll site setting c schedules
    (Program.failureOutputs a.command outcome).forM (showOutput site setting)
    pure (if outcome.isOk then 0 else 1)

def finish (site : Site) (setting : LogSetting) (e : Program.Ended) : IO UInt32 := do
  writeChanges site.files e.files
  e.outputs.forM (showOutput site setting)
  if let some (_, lines) := e.logged then lines.forM (showLine site setting)
  e.errors.forM fun text => IO.eprintln text
  pure (UInt32.ofNat e.exit)

def perform (env : Environment) (words : List String) : IO UInt32 := do
  match CommandLine.parse env words with
  | .error f =>
    let site ← bareSite env
    finish site (.onConsole "off" false) (Program.refused site f)
  | .ok a =>
    let site ← siteOf a env
    if a.command = .run then runSchedules site a
    else
      let site ← withAnswers site a
      match Program.carryOut site a with
      | some e => finish site (Program.logSetting site a) e
      | none => pure 1

end HealthProbe.Live

def main (words : List String) : IO UInt32 := do
  let env ← Std.Internal.UV.System.osEnviron
  HealthProbe.Live.perform env.toList words
