import HealthProbe.Files.Tree
import HealthProbe.Json.Writer
import HealthProbe.Log
import HealthProbe.Time.Stamp

/-! # Log settings

Which lines are shown, where they go and in which form. A line is shown if it is at least as grave as
the threshold; without a threshold no line is.
-/
namespace HealthProbe

/-- The gravest lines that are left out come right after these; `off` leaves out all. -/
inductive Threshold
  | off
  | upTo (s : Severity)
  deriving DecidableEq, Repr

namespace Threshold

def shows : Threshold → Severity → Bool
  | off, _ => false
  | upTo t, s => s.rank ≤ t.rank

def label : Threshold → String
  | off => "OFF"
  | upTo s => s.label

def all : List Threshold :=
  [off, upTo .error, upTo .warn, upTo .info, upTo .debug, upTo .trace]

/-- The threshold of a name in letters of any case. Any other name stands for information. -/
def ofName (name : String) : Threshold :=
  let upper := String.ofList (name.toList.map Char.toUpper)
  (all.find? fun t => t.label == upper).getD (upTo .info)

end Threshold

structure LogSetting where
  threshold : Threshold
  file : Option String
  json : Bool
  deriving DecidableEq, Repr

namespace LogSetting

def onConsole (level : String) (json : Bool) : LogSetting := ⟨Threshold.ofName level, none, json⟩

def into (s : LogSetting) (file : Option String) : LogSetting := { s with file }

def written (s : LogSetting) (clock : Nat → Time.Stamp) (l : LogLine) : String :=
  let moment := (clock l.time).textWithOffset
  if s.json then
    Json.line (.record [
      ("timestamp", .text moment), ("level", .text l.severity.label),
      ("fields", .record [("message", .text l.text)])])
  else moment ++ " " ++ l.severity.label ++ " " ++ l.text

inductive Fault
  | folder (e : OsError)
  | file (path : String) (e : OsError)
  deriving DecidableEq, Repr

def Fault.message : Fault → String
  | folder e => "创建日志目录失败: " ++ e.message
  | file path e => "打开日志文件失败 " ++ path ++ ": " ++ e.message

def openFile (path : String) (files : FileTree) : Except Fault FileTree :=
  match files.apply (.makeFolders (Path.parent path)) with
  | .error e => .error (.folder e)
  | .ok files =>
    match files.entry path with
    | .ok .folder => .error (.file path .isFolder)
    | .ok _ => .ok files
    | .error .notFound =>
      match files.apply (.write path "") with
      | .ok files => .ok files
      | .error e => .error (.file path e)
    | .error e => .error (.file path e)

end LogSetting
end HealthProbe
