import HealthProbe.Files.Path
import HealthProbe.Peers.Inventory
import HealthProbe.Span

/-! # Configurations

A configuration has a general part, the list of checkers, and the inventory of peers and services.
Times are whole seconds, and zero switches the thing off that it times.
-/
namespace HealthProbe

inductive Protocol
  | dns | http
  deriving DecidableEq, Repr

def Protocol.label : Protocol → String
  | dns => "dns"
  | http => "http"

def Protocol.ofLabel? : String → Option Protocol
  | "dns" => some dns
  | "http" => some http
  | _ => none

@[simp] theorem Protocol.ofLabel?_label (p : Protocol) : ofLabel? p.label = some p := by
  cases p <;> rfl

structure General where
  nodeName : String
  logLevel : String
  logFile : Option String
  statusDir : String
  retryAttempts : UInt32
  retryDelay : UInt64
  metricsInterval : UInt64
  deriving DecidableEq, Repr

structure NetworkSpec where
  space : String
  peerSelector : String
  serviceName : String
  protocol : Protocol
  port : UInt16
  queryName : String
  httpPath : String
  probeTimeout : UInt64
  excludedNodes : List String
  deriving DecidableEq, Repr

structure CheckerEntry where
  name : String
  kind : String
  interval : UInt64
  timeout : UInt64
  network : Option NetworkSpec
  deriving DecidableEq, Repr

structure Config where
  general : General
  checkers : List CheckerEntry
  inventory : Inventory
  deriving DecidableEq

def networkKind : String := "network"

namespace General

def defaultNode : String := "localhost"
def defaultLogLevel : String := "info"
def defaultStatusDir (tempDir : String) : String := Path.join tempDir "cluster-vitals"
def defaultAttempts : UInt32 := 3
def defaultDelay : UInt64 := 3
def defaultMetricsInterval : UInt64 := 300

def standard (tempDir : String) : General :=
  ⟨defaultNode, defaultLogLevel, none, defaultStatusDir tempDir, defaultAttempts, defaultDelay,
    defaultMetricsInterval⟩

end General

def NetworkSpec.standard : NetworkSpec :=
  ⟨"kube-system", "k8s-app=kube-dns", "kube-dns", .dns, 53, "kubernetes.default.svc.cluster.local",
    "/", 5, []⟩

def defaultSpace : String := "default"

end HealthProbe
