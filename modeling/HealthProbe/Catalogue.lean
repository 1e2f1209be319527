import HealthProbe.Config.Basic
import HealthProbe.Engine.Task
import HealthProbe.Engine.Work
import HealthProbe.Network.Check
import HealthProbe.Network.Inquiry

/-! # Kinds of checkers

A catalogue knows how to make checkers of each of its kinds out of their entries in a configuration. A
kind that is added again is made in the new way from then on.
-/
namespace HealthProbe

abbrev Maker := CheckerEntry → Except String Checker

structure Catalogue where
  makers : Table Maker

namespace Catalogue

def empty : Catalogue := ⟨Table.empty⟩

def add (k : Catalogue) (kind : String) (make : Maker) : Catalogue := ⟨k.makers.insert kind make⟩

def contains (k : Catalogue) (kind : String) : Bool := k.makers.contains kind

/-- The kinds in the order of their names. A table keeps its entries in that order, so nothing has to be sorted
when they are told. -/
def kinds (k : Catalogue) : List String := k.makers.names

def build (k : Catalogue) (e : CheckerEntry) : Except BuildFailure Checker :=
  match k.makers.find? e.kind with
  | none => .error (.unknownKind e.kind)
  | some make =>
    match make e with
    | .ok c => .ok c
    | .error reason => .error (.rejected e.name e.kind reason)

/-- The checkers of entries, or the failure of the first that cannot be made. -/
def buildAll (k : Catalogue) : List CheckerEntry → Except BuildFailure (List Checker)
  | [] => .ok []
  | e :: es =>
    match k.build e with
    | .error f => .error f
    | .ok c =>
      match buildAll k es with
      | .error f => .error f
      | .ok cs => .ok (c :: cs)

def text (k : Catalogue) : String :=
  "CheckerRegistry \x7b types: [" ++ ", ".intercalate (k.kinds.map Text.quoted) ++ "] \x7d"

/-! ## What it has to tell -/

def noteLine (k : Catalogue) (kind : String) : LogLine :=
  if k.contains kind then ⟨0, .warn, "检测器类型 " ++ kind ++ " 已注册，覆盖原有构造函数"⟩
  else ⟨0, .debug, "注册检测器类型: " ++ kind⟩

def buildLine (e : CheckerEntry) : LogLine :=
  ⟨0, .debug, "构建检测器: " ++ e.name ++ " (类型 " ++ e.kind ++ ")"⟩

/-- The lines told while the checkers of entries are made, up to the first that cannot be. -/
def buildLines (k : Catalogue) (es : List CheckerEntry) : List LogLine :=
  (es.takeWhile fun e => (k.build e).toOption.isSome).map buildLine

end Catalogue

/-- What asking the addresses leads to, by inquiry, port and run of a checker. -/
abbrev Net := Inquiry → UInt16 → Nat → Address → Probing

/-- A net without crashes. -/
instance : Coe (Inquiry → UInt16 → Nat → Address → Probe) Net :=
  ⟨fun net p port n a => .probe (net p port n a)⟩

def Net.ofEchoes (echo : Inquiry → UInt16 → Nat → Address → Echo) : Net := fun p port n a =>
  p.probing (a.socket port.toNat) (echo p port n a)

def networkMaker (net : Net) (d : Directory) (node : String) : Maker := fun e =>
  match e.network with
  | none => .error ("检测器 " ++ e.name ++ " 缺少 [network] 参数")
  | some spec =>
    match spec.inquiry with
    | .error reason => .error reason
    | .ok inquiry =>
      let check := NetworkCheck.forNode e.name spec node
      .ok ⟨e.name, fun n => check.behaviourBy d fun _ a port => net inquiry port n a⟩

def Catalogue.withBuiltin (k : Catalogue) (net : Net) (d : Directory) (node : String) : Catalogue :=
  k.add networkKind (networkMaker net d node)

namespace CheckerEntry

/-- Times in a configuration are seconds. -/
def intervalMillis (e : CheckerEntry) : Nat := 1000 * e.interval.toNat

def limitMillis (e : CheckerEntry) : Nat := 1000 * e.timeout.toNat

end CheckerEntry

namespace Schedule

def ofChecker (e : CheckerEntry) (c : Checker) : Schedule :=
  ⟨c.name, e.kind, e.intervalMillis, e.limitMillis, c.behaviour⟩

def ofEntries (k : Catalogue) (es : List CheckerEntry) : Except BuildFailure (List Schedule) :=
  match k.buildAll es with
  | .error f => .error f
  | .ok cs => .ok ((es.zip cs).map fun (e, c) => ofChecker e c)

def text (s : Schedule) : String :=
  "CheckerSchedule \x7b name: " ++ Text.quoted s.name ++ ", checker_type: " ++ Text.quoted s.kind ++
    ", interval: " ++ (Span.ofMillis s.interval).text ++ ", timeout: " ++
    (Span.ofMillis s.limit).text ++ " \x7d"

end Schedule
end HealthProbe
