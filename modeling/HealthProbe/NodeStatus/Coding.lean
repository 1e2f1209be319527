import HealthProbe.Decode
import HealthProbe.NodeStatus.Basic

/-! # Statuses as trees

What a status looks like in a document. The code and the message of a result are left out when there
are none; a status that was never updated has an empty time.
-/
namespace HealthProbe
open Decode

def Decode.stamp? (t : Tree) : Option Time.Stamp := (text? t).bind Time.Stamp.read

namespace Detail

def decode? (t : Tree) : Option Detail := do
  let [code, message] ← fields? ["code", "message"] t | none
  let code ← required? text? code
  let message ← required? text? message
  pure { code, message }

def encode (d : Detail) : Tree := .record [("code", .text d.code), ("message", .text d.message)]

end Detail

namespace Verdict

def decode? (t : Tree) : Option Verdict := do
  let [health, detail] ← fields? ["status", "detail"] t | none
  let health ← required? (choice? json Health.ofLabel?) health
  let detail ← orElse? none (orNull? Detail.decode?) detail
  pure { health, detail }

def encode (v : Verdict) : Tree :=
  .record (("status", .text v.health.label) ::
    (v.detail.map fun d => ("detail", d.encode)).toList)

end Verdict

namespace Result

def decode? (t : Tree) : Option Result := do
  let [health, code, message, checkedAt] ← fields? ["status", "code", "message", "checked_at"] t | none
  let health ← required? (choice? json Health.ofLabel?) health
  let code ← orElse? none (orNull? text?) code
  let message ← orElse? none (orNull? text?) message
  let checkedAt ← required? stamp? checkedAt
  pure { health, code, message, checkedAt }

def encode (r : Result) : Tree :=
  .record (("status", .text r.health.label) ::
    (r.code.map fun c => ("code", Tree.text c)).toList ++
    (r.message.map fun m => ("message", Tree.text m)).toList ++
    [("checked_at", .text r.checkedAt.text)])

end Result

namespace NodeStatus

def decode? (t : Tree) : Option NodeStatus := do
  let [node, results, updatedAt] ← fields? ["node_ref", "results", "updated_at"] t | none
  let node ← required? text? node
  let results ← orElse? Table.empty (tableOf? Result.decode?) results
  let updatedAt ← orElse? none (orNull? stamp?) updatedAt
  pure { node, results, updatedAt }

def encode (s : NodeStatus) : Tree :=
  .record [
    ("node_ref", .text s.node),
    ("results", .record (s.results.entries.map fun e => (e.1, e.2.encode))),
    ("updated_at", (s.updatedAt.map fun t => Tree.text t.text).getD .null)]

end NodeStatus
end HealthProbe
