import HealthProbe.Config.Basic
import HealthProbe.Name

/-! # Valid configurations

A configuration is refused for the first of its faults: those of the general part come first, then
those of the checkers in their order, all of one checker before any of the next.
-/
namespace HealthProbe

inductive Violation
  | blankNode
  | badNode (name : String)
  | noAttempts
  | badLogLevel (level : String)
  | noCheckers
  | badChecker (name : String)
  | repeatedChecker (name : String)
  | noKind (name : String)
  | noNetwork (name : String)
  | noPort (name : String)
  | noProbeTimeout (name : String)
  | noService (name : String)
  deriving DecidableEq, Repr

def logLevels : List String := ["trace", "debug", "info", "warn", "error"]

namespace Violation

def quotedList (xs : List String) : String := "[" ++ ", ".intercalate (xs.map Text.quoted) ++ "]"

def message : Violation → String
  | blankNode => "节点名称不能为空"
  | badNode n => "节点名称 " ++ Text.quoted n ++ " 不符合 DNS subdomain 规范"
  | noAttempts => "重试次数不能为0"
  | badLogLevel l => "无效的日志级别: " ++ l ++ "，支持的级别: " ++ quotedList logLevels
  | noCheckers => "至少需要配置一个检测器"
  | badChecker n =>
    "检测器名称 " ++ Text.quoted n ++ " 不符合 DNS label 规范（小写字母、数字和'-'，最长63个字符）"
  | repeatedChecker n => "检测器名称重复: " ++ n
  | noKind n => "检测器 " ++ n ++ " 未指定类型"
  | noNetwork n => "检测器 " ++ n ++ " 缺少 [network] 参数"
  | noPort n => "检测器 " ++ n ++ " 的探测端口不能为0"
  | noProbeTimeout n => "检测器 " ++ n ++ " 的探测超时不能为0"
  | noService n => "检测器 " ++ n ++ " 的服务名称不能为空"

end Violation

def nodeViolation? (name : String) : Option Violation :=
  if Name.isNode name then none else some (.badNode name)

def General.violation? (g : General) : Option Violation :=
  if Text.blank g.nodeName then some .blankNode
  else
    match nodeViolation? g.nodeName with
    | some v => some v
    | none =>
      if g.retryAttempts = 0 then some .noAttempts
      else if g.logLevel ∉ logLevels then some (.badLogLevel g.logLevel)
      else none

def NetworkSpec.violation? (checker : String) (s : NetworkSpec) : Option Violation :=
  if s.port = 0 then some (.noPort checker)
  else if s.probeTimeout = 0 then some (.noProbeTimeout checker)
  else if Text.blank s.serviceName then some (.noService checker)
  else none

/-- The first fault of a checker that comes after others with the given names. -/
def CheckerEntry.violation? (earlier : List String) (c : CheckerEntry) : Option Violation :=
  if !Name.isChecker c.name then some (.badChecker c.name)
  else if c.name ∈ earlier then some (.repeatedChecker c.name)
  else if Text.blank c.kind then some (.noKind c.name)
  else if c.kind = networkKind then
    match c.network with
    | none => some (.noNetwork c.name)
    | some s => s.violation? c.name
  else none

def checkersViolation? (earlier : List String) : List CheckerEntry → Option Violation
  | [] => none
  | c :: cs =>
    match c.violation? earlier with
    | some v => some v
    | none => checkersViolation? (c.name :: earlier) cs

def Config.violation? (c : Config) : Option Violation :=
  match c.general.violation? with
  | some v => some v
  | none => if c.checkers.isEmpty then some .noCheckers else checkersViolation? [] c.checkers

end HealthProbe
