import HealthProbe.Span
import HealthProbe.Text.Quoted

/-! # Failures

Everything that can go wrong, as causes, each kind with the one text that tells it. A failure of the
whole program wraps one of the kinds, and its chain lists the texts from the outermost inwards.
-/
namespace HealthProbe

inductive ConfigFailure
  | parse (text : String)
  | validation (text : String)
  | fileNotFound (path : String)
  | variableMissing (name : String)
  deriving DecidableEq, Repr

def ConfigFailure.message : ConfigFailure → String
  | parse t => "配置文件解析失败: " ++ t
  | validation t => "配置验证失败: " ++ t
  | fileNotFound p => "配置文件不存在: " ++ p
  | variableMissing n => "环境变量替换失败: " ++ n

inductive BuildFailure
  | unknownKind (kind : String)
  | rejected (name kind reason : String)
  deriving DecidableEq, Repr

def BuildFailure.message : BuildFailure → String
  | unknownKind k => "未知的检测器类型: " ++ k
  | rejected n k r => "构建检测器 " ++ n ++ " (类型 " ++ k ++ ") 失败: " ++ r

inductive LookupFailure
  | listing (space selector reason : String)
  | noService (space name : String)
  | badSelector (selector : String)
  deriving DecidableEq, Repr

def LookupFailure.message : LookupFailure → String
  | listing n s r => "列举实例失败 (namespace=" ++ n ++ ", selector=" ++ s ++ "): " ++ r
  | noService n s => "服务不存在: " ++ n ++ "/" ++ s
  | badSelector s => "无效的标签选择器: " ++ s

inductive CheckFailure
  | lookup (e : LookupFailure)
  | timeout (limit : Span)
  | cancelled
  | probe (text : String)
  deriving DecidableEq, Repr

def CheckFailure.message : CheckFailure → String
  | lookup e => "服务发现失败: " ++ e.message
  | timeout d => "检测超时: " ++ d.text
  | cancelled => "检测已取消"
  | probe t => "探测失败: " ++ t

inductive StoreFailure
  | read (key reason : String)
  | write (key reason : String)
  deriving DecidableEq, Repr

def StoreFailure.message : StoreFailure → String
  | read k r => "读取状态失败 " ++ k ++ ": " ++ r
  | write k r => "写入状态失败 " ++ k ++ ": " ++ r

/-- A failure of the program. A crashed task is known by its number and its last words. -/
inductive Failure
  | config (e : ConfigFailure)
  | build (e : BuildFailure)
  | check (e : CheckFailure)
  | store (e : StoreFailure)
  | crashed (task : Nat) (words : String)
  | io (text : String)
  | other (text : String)
  deriving DecidableEq, Repr

namespace Failure

def crashText (task : Nat) (words : String) : String :=
  "task " ++ toString task ++ " panicked with message " ++ Text.quoted words

def message : Failure → String
  | config e => "配置错误: " ++ e.message
  | build e => "检测器构建错误: " ++ e.message
  | check e => "检测执行错误: " ++ e.message
  | store e => "状态持久化错误: " ++ e.message
  | crashed n w => "调度任务异常退出: " ++ crashText n w
  | io t => "IO错误: " ++ t
  | other t => "其他错误: " ++ t

/-- The texts of the causes a failure wraps, the nearest first. -/
def causes : Failure → List String
  | config e => [e.message]
  | build (.rejected n k r) => [(BuildFailure.rejected n k r).message, r]
  | build e => [e.message]
  | check (.lookup e) => [(CheckFailure.lookup e).message, e.message]
  | check e => [e.message]
  | store e => [e.message]
  | crashed n w => [crashText n w]
  | io t => [t]
  | other t => [t]

def chain (f : Failure) : String := ": ".intercalate (f.message :: f.causes)

end Failure
end HealthProbe
