import HealthProbe.Config.Basic
import HealthProbe.Decode

/-! # Configurations as trees

Decoding fills in the defaults; encoding writes every field, leaving out only the network part of a
checker that has none.
-/
namespace HealthProbe
open Decode

namespace Peer

def decode? (d : Dialect) (t : Tree) : Option Peer := do
  let [name, space, node, phase, ready, address, labels] ←
    fields? ["name", "namespace", "node_name", "phase", "ready", "address", "labels"] t | none
  let name ← required? text? name
  let space ← orElse? defaultSpace text? space
  let node ← required? text? node
  let phase ← orElse? .running (choice? d Phase.ofLabel?) phase
  let ready ← orElse? false flag? ready
  let address ← orElse? none (orNull? address?) address
  let labels ← orElse? Table.empty (tableOf? text?) labels
  pure { name, space, node, phase, ready, address, labels }

def encode (p : Peer) : Tree :=
  .record [
    ("name", .text p.name), ("namespace", .text p.space), ("node_name", .text p.node),
    ("phase", .text p.phase.label), ("ready", .bool p.ready),
    ("address", (p.address.map fun a => Tree.text a.text).getD .null),
    ("labels", .record (p.labels.entries.map fun e => (e.1, .text e.2)))]

end Peer

namespace Service

def decode? (t : Tree) : Option Service := do
  let [name, space, address] ← fields? ["name", "namespace", "address"] t | none
  let name ← required? text? name
  let space ← orElse? defaultSpace text? space
  let address ← required? address? address
  pure { name, space, address }

def encode (s : Service) : Tree :=
  .record [("name", .text s.name), ("namespace", .text s.space), ("address", .text s.address.text)]

end Service

namespace Inventory

def decode? (d : Dialect) (t : Tree) : Option Inventory := do
  let [peers, services] ← fields? ["peers", "services"] t | none
  let peers ← orElse? [] (listOf? (Peer.decode? d)) peers
  let services ← orElse? [] (listOf? Service.decode?) services
  pure { peers, services }

def encode (inv : Inventory) : Tree :=
  .record [
    ("peers", .list (inv.peers.map Peer.encode)),
    ("services", .list (inv.services.map Service.encode))]

end Inventory

namespace NetworkSpec

def fieldNames : List String :=
  ["namespace", "peer_selector", "service_name", "protocol", "port", "query_name", "http_path",
    "probe_timeout_seconds", "excluded_nodes"]

def decode? (d : Dialect) (t : Tree) : Option NetworkSpec := do
  let [space, selector, service, protocol, port, query, path, timeout, excluded] ←
    fields? fieldNames t | none
  let space ← orElse? standard.space text? space
  let peerSelector ← orElse? standard.peerSelector text? selector
  let serviceName ← orElse? standard.serviceName text? service
  let protocol ← orElse? standard.protocol (choice? d Protocol.ofLabel?) protocol
  let port ← orElse? standard.port word16? port
  let queryName ← orElse? standard.queryName text? query
  let httpPath ← orElse? standard.httpPath text? path
  let probeTimeout ← orElse? standard.probeTimeout word64? timeout
  let excludedNodes ← orElse? standard.excludedNodes (listOf? text?) excluded
  pure { space, peerSelector, serviceName, protocol, port, queryName, httpPath, probeTimeout,
         excludedNodes }

def encode (s : NetworkSpec) : Tree :=
  .record [
    ("namespace", .text s.space), ("peer_selector", .text s.peerSelector),
    ("service_name", .text s.serviceName), ("protocol", .text s.protocol.label),
    ("port", .nat s.port.toNat), ("query_name", .text s.queryName), ("http_path", .text s.httpPath),
    ("probe_timeout_seconds", .nat s.probeTimeout.toNat),
    ("excluded_nodes", .list (s.excludedNodes.map Tree.text))]

end NetworkSpec

namespace CheckerEntry

def decode? (d : Dialect) (t : Tree) : Option CheckerEntry := do
  let [name, kind, interval, timeout, network] ←
    fields? ["name", "type", "interval_seconds", "timeout_seconds", "network"] t | none
  let name ← required? text? name
  let kind ← required? text? kind
  let interval ← orElse? 0 word64? interval
  let timeout ← orElse? 0 word64? timeout
  let network ← orElse? none (orNull? (NetworkSpec.decode? d)) network
  pure { name, kind, interval, timeout, network }

def encode (c : CheckerEntry) : Tree :=
  .record ([
    ("name", .text c.name), ("type", .text c.kind), ("interval_seconds", .nat c.interval.toNat),
    ("timeout_seconds", .nat c.timeout.toNat)] ++
      (c.network.map fun s => ("network", s.encode)).toList)

end CheckerEntry

namespace General

def fieldNames : List String :=
  ["node_name", "log_level", "log_file", "status_dir", "retry_attempts", "retry_delay_seconds",
    "metrics_log_interval_seconds"]

def decode? (tempDir : String) (t : Tree) : Option General := do
  let [node, level, file, dir, attempts, delay, metrics] ← fields? fieldNames t | none
  let nodeName ← orElse? defaultNode text? node
  let logLevel ← orElse? defaultLogLevel text? level
  let logFile ← orElse? none (orNull? text?) file
  let statusDir ← orElse? (defaultStatusDir tempDir) text? dir
  let retryAttempts ← orElse? defaultAttempts word32? attempts
  let retryDelay ← orElse? defaultDelay word64? delay
  let metricsInterval ← orElse? defaultMetricsInterval word64? metrics
  pure { nodeName, logLevel, logFile, statusDir, retryAttempts, retryDelay, metricsInterval }

def encode (g : General) : Tree :=
  .record [
    ("node_name", .text g.nodeName), ("log_level", .text g.logLevel),
    ("log_file", (g.logFile.map Tree.text).getD .null), ("status_dir", .text g.statusDir),
    ("retry_attempts", .nat g.retryAttempts.toNat),
    ("retry_delay_seconds", .nat g.retryDelay.toNat),
    ("metrics_log_interval_seconds", .nat g.metricsInterval.toNat)]

end General

namespace Config

/-- The configuration of a tree. The folder for temporary files is where statuses go by default. -/
def decode? (d : Dialect) (tempDir : String) (t : Tree) : Option Config := do
  let [general, checkers, inventory] ← fields? ["global", "checkers", "discovery"] t | none
  let general ← orElse? (General.standard tempDir) (General.decode? tempDir) general
  let checkers ← orElse? [] (listOf? (CheckerEntry.decode? d)) checkers
  let inventory ← orElse? Inventory.empty (Inventory.decode? d) inventory
  pure { general, checkers, inventory }

def encode (c : Config) : Tree :=
  .record [
    ("global", c.general.encode), ("checkers", .list (c.checkers.map CheckerEntry.encode)),
    ("discovery", c.inventory.encode)]

end Config
end HealthProbe
