import HealthProbe.Config.Coding
import HealthProbe.Proofs.Address.RoundTrip
import HealthProbe.Proofs.Json.OneLine
import HealthProbe.Proofs.NodeStatus.RoundTrip

/-! # Reading back a configuration

A configuration can be decoded from the tree that it is encoded as, and read from the text of the tree, on
one line or on a page. Nothing that decoding fills in gets lost: what is encoded has every field, but for
the network part of a checker without one.
-/
namespace HealthProbe
open Decode

namespace Decode

@[simp] theorem word16?_toNat (n : UInt16) : word16? (.nat n.toNat) = some n := by
  simp [word16?, nat?, n.toNat_lt, UInt16.size]

@[simp] theorem word32?_toNat (n : UInt32) : word32? (.nat n.toNat) = some n := by
  simp [word32?, nat?, n.toNat_lt, UInt32.size]

@[simp] theorem word64?_toNat (n : UInt64) : word64? (.nat n.toNat) = some n := by
  simp [word64?, nat?, n.toNat_lt, UInt64.size]

@[simp] theorem address?_text (a : Address) : address? (.text a.text) = some a := by
  simp [address?, text?]

theorem listOf?_map {α : Type} {item? : Tree → Option α} {encode : α → Tree}
    (h : ∀ x, item? (encode x) = some x) (xs : List α) : listOf? item? (.list (xs.map encode)) = some xs := by
  rw [listOf?, mapM_map fun x _ => h x]

end Decode

namespace Tree

theorem isPlain_text (s : String) : (text s).IsPlain := by
  simp [IsPlain]

theorem arePlain_map {α : Type} {encode : α → Tree} (h : ∀ x, (encode x).IsPlain) (xs : List α) :
    ArePlain (xs.map encode) := by
  induction xs with
  | nil => trivial
  | cons x xs ih => exact ⟨h x,ih⟩

theorem hasPlainFields_map {α : Type} {encode : α → Tree} (h : ∀ v, (encode v).IsPlain)
    (es : List (String × α)) : HasPlainFields (es.map fun e => (e.1, encode e.2)) := by
  rw [hasPlainFields_iff]
  intro f hf
  obtain ⟨e,_,rfl⟩ := List.mem_map.mp hf
  exact h e.2

end Tree

variable {d : Dialect} {tempDir : String}

namespace Peer

@[simp] theorem decode?_encode (p : Peer) : decode? d p.encode = some p := by
  have labels := tableOf?_record (fun v => (rfl : text? (.text v) = some v)) p.labels
  obtain ⟨name,space,node,phase,ready,address,_⟩ := p
  cases address <;>
    simp [decode?, encode, fields?, field?, Tree.valuesOf, required?, orElse?, orNull?, choice?, text?,
      flag?, labels]

theorem isPlain_encode (p : Peer) : p.encode.IsPlain := by
  have labels : Tree.HasPlainFields (p.labels.entries.map fun e => (e.1, Tree.text e.2)) :=
    Tree.hasPlainFields_map Tree.isPlain_text _
  obtain ⟨name,space,node,phase,ready,address,_⟩ := p
  cases address <;> simpa [encode, Tree.IsPlain, Tree.HasPlainFields] using labels

end Peer

namespace Service

@[simp] theorem decode?_encode (s : Service) : decode? s.encode = some s := by
  simp [decode?, encode, fields?, field?, Tree.valuesOf, required?, orElse?, text?]

theorem isPlain_encode (s : Service) : s.encode.IsPlain := by
  simp [encode, Tree.IsPlain, Tree.HasPlainFields]

end Service

namespace Inventory

@[simp] theorem decode?_encode (inv : Inventory) : decode? d inv.encode = some inv := by
  have peers := listOf?_map (Peer.decode?_encode (d := d)) inv.peers
  have services := listOf?_map Service.decode?_encode inv.services
  simp [decode?, encode, fields?, field?, Tree.valuesOf, orElse?, peers, services]

theorem isPlain_encode (inv : Inventory) : inv.encode.IsPlain := by
  have peers := Tree.arePlain_map Peer.isPlain_encode inv.peers
  have services := Tree.arePlain_map Service.isPlain_encode inv.services
  simp [encode, Tree.IsPlain, Tree.HasPlainFields, peers, services]

end Inventory

namespace NetworkSpec

@[simp] theorem decode?_encode (s : NetworkSpec) : decode? d s.encode = some s := by
  have excluded := listOf?_map (fun v => (rfl : text? (.text v) = some v)) s.excludedNodes
  simp [decode?, encode, fieldNames, fields?, field?, Tree.valuesOf, orElse?, choice?, text?, excluded]

theorem isPlain_encode (s : NetworkSpec) : s.encode.IsPlain := by
  have excluded := Tree.arePlain_map Tree.isPlain_text s.excludedNodes
  simp [encode, Tree.IsPlain, Tree.HasPlainFields, excluded]

end NetworkSpec

namespace CheckerEntry

@[simp] theorem decode?_encode (e : CheckerEntry) : decode? d e.encode = some e := by
  obtain ⟨name,kind,interval,timeout,network⟩ := e
  cases network with
  | none => simp [decode?, encode, fields?, field?, Tree.valuesOf, required?, orElse?, text?]
  | some s =>
    have spec : orNull? (NetworkSpec.decode? d) s.encode = some (some s) :=
      congrArg (Option.map some) s.decode?_encode
    simp [decode?, encode, fields?, field?, Tree.valuesOf, required?, orElse?, text?, spec]

theorem isPlain_encode (e : CheckerEntry) : e.encode.IsPlain := by
  obtain ⟨name,kind,interval,timeout,network⟩ := e
  cases network with
  | none => simp [encode, Tree.IsPlain, Tree.HasPlainFields]
  | some s => simp [encode, Tree.IsPlain, Tree.HasPlainFields, s.isPlain_encode]

end CheckerEntry

namespace General

@[simp] theorem decode?_encode (g : General) : decode? tempDir g.encode = some g := by
  obtain ⟨nodeName,logLevel,logFile,statusDir,retryAttempts,retryDelay,metricsInterval⟩ := g
  cases logFile <;>
    simp [decode?, encode, fieldNames, fields?, field?, Tree.valuesOf, orElse?, orNull?, text?]

theorem isPlain_encode (g : General) : g.encode.IsPlain := by
  obtain ⟨nodeName,logLevel,logFile,statusDir,retryAttempts,retryDelay,metricsInterval⟩ := g
  cases logFile <;> simp [encode, Tree.IsPlain, Tree.HasPlainFields]

end General

namespace Config

theorem decode?_encode (c : Config) : decode? d tempDir c.encode = some c := by
  have checkers := listOf?_map (CheckerEntry.decode?_encode (d := d)) c.checkers
  simp [decode?, encode, fields?, field?, Tree.valuesOf, orElse?, checkers]

theorem isPlain_encode (c : Config) : c.encode.IsPlain := by
  have checkers := Tree.arePlain_map CheckerEntry.isPlain_encode c.checkers
  simp [encode, Tree.IsPlain, Tree.HasPlainFields, checkers, c.general.isPlain_encode,
    c.inventory.isPlain_encode]

/-- Every configuration is read back from what it is written as, as a tree, on a line or on a page, and
whatever the defaults are where it is read. -/
theorem read_written (c : Config) (tempDir : String) :
    decode? json tempDir c.encode = some c ∧
      (Json.read (Json.line c.encode)).bind (decode? json tempDir) = some c ∧
      (Json.read (Json.page c.encode)).bind (decode? json tempDir) = some c := by
  have plain := c.isPlain_encode
  rw [Json.read_line plain, Json.read_page plain]
  exact ⟨c.decode?_encode,c.decode?_encode,c.decode?_encode⟩

end Config
end HealthProbe
