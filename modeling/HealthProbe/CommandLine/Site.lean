import HealthProbe.Catalogue
import HealthProbe.CommandLine.Basic
import HealthProbe.Engine.Agenda
import HealthProbe.Engine.Pass
import HealthProbe.LogSetting
import HealthProbe.NodeStatus.Store

/-! # Sites

A site is what a command finds around it, and what each command does depends on its site alone: it loads
the configuration, makes the checkers, and then only says so, or checks a node once, or carries out all
schedules until they end. Nothing is written before every checker has been made and every verdict is
there.
-/
namespace HealthProbe

structure Site where
  env : Environment
  files : FileTree
  net : Net
  /-- The moment of each millisecond of the command. -/
  clock : Nat → Time.Stamp
  /-- When the user interrupts it, if ever. -/
  interrupt : Option Nat
  /-- What the log calls a check pass. -/
  passLabel : String

/-- What a command shows: a text on the standard output, or a line for the log. -/
inductive Output
  | print (text : String)
  | log (l : LogLine)
  deriving DecidableEq, Repr

def Output.info (text : String) : Output := .log ⟨0, .info, text⟩

structure Done where
  outcome : Except Failure Unit
  outputs : List Output
  files : FileTree

def Done.after (outputs : List Output) (d : Done) : Done := { d with outputs := outputs ++ d.outputs }

/-! ## What is shown -/

def secondsText (seconds : UInt64) (label none : String) : String :=
  if seconds = 0 then none else label ++ toString seconds.toNat ++ "秒"

def CheckerEntry.texts (number : Nat) (e : CheckerEntry) : List String :=
  ["  " ++ toString number ++ ". " ++ e.name ++ " (" ++ e.kind ++ ")",
   secondsText e.interval "     间隔: " "     间隔: 只运行一次",
   secondsText e.timeout "     超时: " "     超时: 不限制"]

def entriesTexts (number : Nat) : List CheckerEntry → List String
  | [] => []
  | e :: es => e.texts number ++ entriesTexts (number + 1) es

def Config.longTexts (c : Config) : List String :=
  let g := c.general
  ["配置验证通过！", "全局配置:", "  节点名称: " ++ g.nodeName, "  日志级别: " ++ g.logLevel] ++
    (g.logFile.map fun f => "  日志文件: " ++ f).toList ++
    ["  状态目录: " ++ g.statusDir,
     "  重试: " ++ toString g.retryAttempts.toNat ++ " 次，间隔 " ++ toString g.retryDelay.toNat ++ "秒",
     "检测器配置:"] ++ entriesTexts 1 c.checkers ++
    ["发现清单: " ++ toString c.inventory.peers.length ++ " 个实例，" ++
      toString c.inventory.services.length ++ " 个服务"]

def Config.shortTexts (c : Config) : List String :=
  ["✓ 配置文件验证通过", "✓ 找到 " ++ toString c.checkers.length ++ " 个检测器配置"]

def Verdict.texts (name : String) (v : Verdict) : List String :=
  ((if v.health = .healthy then "✓ " else "✗ ") ++ name ++ " - " ++ v.health.display) ::
    (v.detail.map fun d => "  " ++ d.code ++ ": " ++ d.message).toList

/-- A result with its fields in the order of their names. -/
def Result.shownTree (r : Result) : Tree :=
  .record (("checked_at", .text r.checkedAt.text) ::
    (r.code.map fun c => ("code", Tree.text c)).toList ++
    (r.message.map fun m => ("message", Tree.text m)).toList ++
    [("status", .text r.health.label)])

def Format.texts (format : Format) (node : String) (moment : Time.Stamp)
    (results : Table Verdict) : List String :=
  match format with
  | .text => ("节点 " ++ node ++ " 检测结果:") :: results.entries.flatMap fun e => e.2.texts e.1
  | .json =>
    [Json.page (.record [
      ("node", .text node),
      ("results", .record (results.entries.map fun e => (e.1, (e.2.result moment).shownTree)))])]

namespace Site

def failed (site : Site) (f : Failure) : Done := ⟨.error f, [], site.files⟩

def configFile (site : Site) (a : CommandLine) : String := a.configFile site.env site.files

def load (site : Site) (a : CommandLine) : Except ConfigFailure Config :=
  Config.ofFile site.env true site.files (site.configFile a)

def loadedLine (site : Site) (a : CommandLine) : Output :=
  .info ("成功加载配置文件: " ++ site.configFile a)

def withConfig (site : Site) (a : CommandLine) (next : Config → Done) : Done :=
  match site.load a with
  | .error e => site.failed (.config e)
  | .ok c => (next c).after [site.loadedLine a]

def catalogue (site : Site) (c : Config) (node : String) : Catalogue :=
  Catalogue.empty.withBuiltin site.net c.inventory.directory node

def catalogueLines (site : Site) (c : Config) (node : String) : List Output :=
  (Catalogue.empty.noteLine networkKind :: (site.catalogue c node).buildLines c.checkers).map .log

/-! ## Validating -/

def validate (site : Site) (a : CommandLine) (verbose : Bool) : Done :=
  Done.after [.print ("验证配置文件: " ++ site.configFile a)] <|
    site.withConfig a fun c =>
      let node := c.general.nodeName
      Done.after (site.catalogueLines c node) <|
        match (site.catalogue c node).buildAll c.checkers with
        | .error e => site.failed (.build e)
        | .ok _ =>
          ⟨.ok (), (if verbose then c.longTexts else c.shortTexts).map .print, site.files⟩

/-! ## Checking once -/

/-- Times in a configuration are seconds. -/
def retries (g : General) : Retries := ⟨g.retryAttempts.toNat, 1000 * g.retryDelay.toNat⟩

def limits (es : List CheckerEntry) : Table Nat :=
  Table.ofList (es.map fun e => (e.name, e.limitMillis))

def pass (site : Site) (c : Config) (node : String) (cs : List Checker) : Pass :=
  ⟨site.passLabel, node, retries c.general, limits c.checkers, cs, site.clock⟩

def passOn (site : Site) (c : Config) (node : String) : Except Failure (Pass.Report × FileTree) :=
  match nodeViolation? node with
  | some v => .error (.config (.validation v.message))
  | none =>
    match (site.catalogue c node).buildAll c.checkers with
    | .error e => .error (.build e)
    | .ok cs =>
      .ok ((site.pass c node cs).perform (FileStore.store c.general.statusDir) 0 site.files)

/-- What the store tells in a pass that has ended. It is not asked in one that crashed. -/
def storeLines (site : Site) (c : Config) (node : String) (report : Pass.Report) : List LogLine :=
  let dir := c.general.statusDir
  let absent := (FileStore.absentText? dir node site.files).toList
  let texts := match report.outcome with
    | .ok _ => absent ++ (FileStore.writtenText? dir node).toList
    | .error (.crashed _ _) => []
    | .error _ => absent
  texts.map fun text => ⟨report.stop, .debug, text⟩

def check (site : Site) (a : CommandLine) (node : Option String) (format : Format) : Done :=
  site.withConfig a fun c =>
    let node := node.getD c.general.nodeName
    Done.after (if (nodeViolation? node).isSome then [] else site.catalogueLines c node) <|
      match site.passOn c node with
      | .error f => site.failed f
      | .ok (report, files) =>
        let lines := report.lines (site.storeLines c node report)
        match report.outcome with
        | .error f => ⟨.error f, lines.map .log, files⟩
        | .ok results =>
          ⟨.ok (), lines.map .log ++
            (format.texts node (site.clock report.stop) results).map .print, files⟩

/-! ## Running -/

def runLines (site : Site) (c : Config) (r : Agenda.Report) : List LogLine :=
  let snapshots := SnapshotLog.snapshots ⟨false, true⟩ Counters.empty r.events
    (1000 * c.general.metricsInterval.toNat) r.stop
  LogLine.chronological
    (r.lines ++ (snapshots.map fun s => SnapshotLog.line site.clock s.1 s.2)) ++
    [⟨r.stop, .info, "检测已停止"⟩]

structure Start where
  outputs : List Output
  plan : Except Failure (Config × List Schedule)

def start (site : Site) (a : CommandLine) : Start :=
  match site.load a with
  | .error e => ⟨[], .error (.config e)⟩
  | .ok c =>
    let node := c.general.nodeName
    let outputs := site.loadedLine a :: site.catalogueLines c node
    match Schedule.ofEntries (site.catalogue c node) c.checkers with
    | .error e => ⟨outputs, .error (.build e)⟩
    | .ok schedules =>
      ⟨outputs ++ [.info ("节点 " ++ node ++ " 启动 " ++ toString schedules.length ++ " 个检测器")],
       .ok (c, schedules)⟩

/-- Carries out all schedules. There is no end to it if one of them goes on and nobody interrupts. -/
def run (site : Site) (a : CommandLine) : Option Done :=
  let s := site.start a
  match s.plan with
  | .error f => some ((site.failed f).after s.outputs)
  | .ok (c, schedules) =>
    (Agenda.run 0 site.interrupt (schedules.map fun s => (s, Ties.work))).map fun r =>
      Done.after s.outputs ⟨r.outcome, (site.runLines c r).map .log, site.files⟩

def execute (site : Site) (a : CommandLine) : Option Done :=
  match a.command with
  | .run => site.run a
  | .check node format => some (site.check a node format)
  | .validate verbose => some (site.validate a verbose)

end Site
end HealthProbe
