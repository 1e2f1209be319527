import HealthProbe.NodeStatus.Store
import HealthProbe.Proofs.Json.RoundTrip
import HealthProbe.Proofs.OneByOne
import HealthProbe.Proofs.Time.RoundTrip

/-! # Reading back a status

A status can be decoded from the tree that it is encoded as, and read from the text of its file, whatever
texts, results and times it has.
-/
namespace HealthProbe
open Decode

theorem Decode.tableOf?_record {α : Type} {item? : Tree → Option α} {encode : α → Tree}
    (h : ∀ v, item? (encode v) = some v) (t : Table α) :
    tableOf? item? (.record (t.entries.map fun e => (e.1, encode e.2))) = some t := by
  have fields (e : String × α) : ((item? (encode e.2)).map fun v => (e.1, v)) = some e := by simp [h]
  rw [tableOf?, mapM_map fun e _ => fields e, Option.map_some, Table.ofList_entries]

@[simp] theorem Decode.stamp?_text (t : Time.Stamp) : stamp? (.text t.text) = some t := by
  simp [stamp?, text?]

namespace Result

@[simp] theorem decode?_encode (r : Result) : decode? r.encode = some r := by
  obtain ⟨health,code,message,checkedAt⟩ := r
  cases code <;> cases message <;>
    simp [decode?, encode, fields?, field?, Tree.valuesOf, required?, orElse?, orNull?, choice?, text?]

theorem isPlain_encode (r : Result) : r.encode.IsPlain := by
  obtain ⟨health,code,message,checkedAt⟩ := r
  cases code <;> cases message <;> simp [encode, Tree.IsPlain, Tree.HasPlainFields]

end Result

namespace NodeStatus

@[simp] theorem decode?_encode (s : NodeStatus) : decode? s.encode = some s := by
  obtain ⟨node,results,updatedAt⟩ := s
  have table := tableOf?_record Result.decode?_encode results
  cases updatedAt <;>
    simp [decode?, encode, fields?, field?, Tree.valuesOf, required?, orElse?, orNull?, text?, table]

theorem isPlain_encode (s : NodeStatus) : s.encode.IsPlain := by
  have plain : Tree.HasPlainFields (s.results.entries.map fun e => (e.1, e.2.encode)) := by
    rw [Tree.hasPlainFields_iff]
    intro f hf
    obtain ⟨e,_,rfl⟩ := List.mem_map.mp hf
    exact e.2.isPlain_encode
  obtain ⟨node,results,updatedAt⟩ := s
  cases updatedAt <;> simpa [encode, Tree.IsPlain, Tree.HasPlainFields] using plain

end NodeStatus

@[simp] theorem FileStore.decode_content (node : String) (s : NodeStatus) :
    decode node (content s) = .ok s := by
  simp [decode, content, Json.read_page s.isPlain_encode]

end HealthProbe
