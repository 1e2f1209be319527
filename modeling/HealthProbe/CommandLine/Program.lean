import HealthProbe.CommandLine.Site

/-! # The program

From the words of a command line to an exit code. The settings of the log come from the command line,
and where it has none from the configuration. Log lines go among the output or into a file of their own.
-/
namespace HealthProbe.Program

def version : String := "0.1.0"

def agent : String := "cluster-vitals/" ++ version

structure Ended where
  exit : Nat
  outputs : List Output
  /-- The log file and the lines that were added to it. -/
  logged : Option (String × List LogLine)
  errors : List String
  files : FileTree

def usage : List String :=
  ["集群健康检测引擎", "", "Usage: cluster-vitals [OPTIONS] <COMMAND>", "", "Commands:",
   "  run       按配置的间隔持续运行全部检测器，直到 Ctrl+C",
   "  check     对节点执行一轮带重试的检测并写入状态",
   "  validate  验证配置文件"]

def refused (site : Site) : CommandLine.Fault → Ended
  | .helpAsked => ⟨0, usage.map Output.print, none, [], site.files⟩
  | .versionAsked => ⟨0, [.print ("cluster-vitals " ++ version)], none, [], site.files⟩
  | _ => ⟨2, [], none, usage, site.files⟩

def logSetting (site : Site) (a : CommandLine) : LogSetting :=
  let general := (site.load a).toOption.map Config.general
  let level := (a.logLevel.orElse fun _ => general.map General.logLevel).getD "info"
  let file := a.logFile.orElse fun _ => general.bind General.logFile
  (LogSetting.onConsole level a.jsonLogs).into file

def context : Command → String
  | .run => "运行检测失败"
  | .check _ _ => "单轮检测失败"
  | .validate _ => "配置验证失败"

def firstOutputs : List Output :=
  [.log ⟨0, .debug, "日志系统已经初始化过了"⟩, Output.info ("Cluster Vitals v" ++ version ++ " 启动")]

/-- The last words of a command that crashed. A schedule that crashes does not take the program with it. -/
def lastWords? : Command → Except Failure Unit → Option String
  | .check _ _, .error (.crashed _ words) => some words
  | _, _ => none

def failureOutputs (c : Command) (outcome : Except Failure Unit) : List Output :=
  match lastWords? c outcome, outcome with
  | none, .error f => [.log ⟨0, .error, "命令执行失败: " ++ context c ++ ": " ++ f.chain⟩]
  | _, _ => []

def exitCode (c : Command) (outcome : Except Failure Unit) : Nat :=
  if (lastWords? c outcome).isSome then 101 else if outcome.isOk then 0 else 1

def isShown (t : Threshold) : Output → Bool
  | .print _ => true
  | .log l => t.shows l.severity

def line? : Output → Option LogLine
  | .print _ => none
  | .log l => some l

def Ended.of (setting : LogSetting) (exit : Nat) (outputs : List Output) (errors : List String)
    (files : FileTree) : Ended :=
  let shown := outputs.filter (isShown setting.threshold)
  match setting.file with
  | none => ⟨exit, shown, none, errors, files⟩
  | some path =>
    ⟨exit, shown.filter fun o => (line? o).isNone, some (path, shown.filterMap line?), errors, files⟩

def faultErrors (f : LogSetting.Fault) : List String :=
  ["Error: 初始化日志系统失败", "", "Caused by:", "    " ++ f.message]

def openLog (setting : LogSetting) (files : FileTree) : Except LogSetting.Fault FileTree :=
  match setting.file with
  | none => .ok files
  | some path => LogSetting.openFile path files

def carryOut (site : Site) (a : CommandLine) : Option Ended :=
  let setting := logSetting site a
  match openLog setting site.files with
  | .error f => some ⟨1, [], none, faultErrors f, site.files⟩
  | .ok files =>
    let site := { site with files }
    (site.execute a).map fun d =>
      Ended.of setting (exitCode a.command d.outcome)
        (firstOutputs ++ d.outputs ++ failureOutputs a.command d.outcome)
        (lastWords? a.command d.outcome).toList d.files

/-- The program, from its words to its end; there need not be one. -/
def run (site : Site) (words : List String) : Option Ended :=
  match CommandLine.parse site.env words with
  | .error f => some (refused site f)
  | .ok a => carryOut site a

end HealthProbe.Program
