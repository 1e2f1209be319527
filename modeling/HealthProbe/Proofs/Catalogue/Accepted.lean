import HealthProbe.Proofs.Catalogue.Building
import HealthProbe.Proofs.Config.Acceptance

/-! # What can be made of accepted entries

A configuration is accepted for the shape of its entries: an entry of the network kind has a network block,
with a port and a time limit. Nobody has asked by then whether there is a maker for the kind of the entry,
or whether the name that it queries is a domain name. These two are what is left to find out when the
checkers are made, and there is no third.
-/
namespace HealthProbe

structure CheckerEntry.Misnames (e : CheckerEntry) (s : NetworkSpec) (fault : DomainName.Fault) : Prop where
  kind : e.kind = "network"
  network : e.network = some s
  protocol : s.protocol = .dns
  query : DomainName.ofText s.queryName = .error fault

/-- An entry becomes a checker of its name, unless its kind is unknown or it queries what is no name. -/
structure Catalogue.Settles (k : Catalogue) (e : CheckerEntry) : Prop where
  unknown : ∀ kind, k.build e = .error (.unknownKind kind) ↔ kind = e.kind ∧ e.kind ≠ "network"
  rejected : ∀ name kind reason, k.build e = .error (.rejected name kind reason) ↔
    name = e.name ∧ kind = e.kind ∧ ∃ s fault, e.Misnames s fault ∧ reason = fault.message s.queryName
  made : e.kind = "network" → (∀ s fault, ¬ e.Misnames s fault) →
    ∃ c, k.build e = .ok c ∧ c.name = e.name
  block : ∀ name kind other,
    k.build e ≠ .error (.rejected name kind ("检测器 " ++ other ++ " 缺少 [network] 参数"))

namespace NetworkSpec
variable {s : NetworkSpec} {reason : String}

/-- Only a query for a name can turn out to be none. -/
theorem inquiry_eq_error_iff : s.inquiry = .error reason ↔
    ∃ fault, s.protocol = .dns ∧ DomainName.ofText s.queryName = .error fault ∧
      reason = fault.message s.queryName := by
  rw [inquiry]
  cases protocol : s.protocol with
  | http => simp
  | dns => cases name : DomainName.ofText s.queryName <;> simp [eq_comm]

end NetworkSpec

namespace CheckerEntry
variable {e : CheckerEntry} {f : BuildFailure}

theorem refused_iff_of_block (block : e.kind = "network" → ∃ s, e.network = some s) : e.Refused f ↔
    (e.kind ≠ "network" ∧ f = .unknownKind e.kind) ∨
      ∃ s fault, e.Misnames s fault ∧ f = .rejected e.name e.kind (fault.message s.queryName) := by
  constructor
  · intro refused
    cases refused with
    | unknownKind kind => exact .inl ⟨kind,rfl⟩
    | noNetwork kind absent =>
      obtain ⟨s,network⟩ := block kind
      cases absent.symm.trans network
    | @noInquiry s _ kind network failed =>
      obtain ⟨fault,protocol,query,rfl⟩ := NetworkSpec.inquiry_eq_error_iff.mp failed
      exact .inr ⟨s,fault,⟨kind,network,protocol,query⟩,rfl⟩
  · rintro (⟨kind,rfl⟩ | ⟨s,fault,misnames,rfl⟩)
    · exact .unknownKind kind
    · have failed : s.inquiry = .error (fault.message s.queryName) :=
        NetworkSpec.inquiry_eq_error_iff.mpr ⟨fault,misnames.protocol,misnames.query,rfl⟩
      exact .noInquiry misnames.kind misnames.network failed

end CheckerEntry

theorem head?_toList_append {c : Char} {text : String} (first : text.toList.head? = some c)
    (rest : String) : (text ++ rest).toList.head? = some c := by
  rw [String.toList_append, List.head?_append, first, Option.some_or]

/-- A fault of a name reads differently from a missing block, whatever the names in either. -/
theorem DomainName.Fault.message_ne (fault : DomainName.Fault) (query other : String) :
    fault.message query ≠ "检测器 " ++ other ++ " 缺少 [network] 参数" := by
  have fault_first : (fault.message query).toList.head? = some '无' := by
    cases fault with
    | empty => exact head?_toList_append (by decide +kernel) _
    | refused =>
      exact head?_toList_append (head?_toList_append (head?_toList_append (by decide +kernel) _) _) _
  have block_first : ("检测器 " ++ other ++ " 缺少 [network] 参数").toList.head? = some '检' :=
    head?_toList_append (head?_toList_append (by decide +kernel) _) _
  intro same
  rw [same, block_first] at fault_first
  exact absurd fault_first (by decide)

namespace Catalogue
variable {net : Net} {d : Directory} {node : String} {e : CheckerEntry}

theorem settles_of_block (block : e.kind = "network" → ∃ s, e.network = some s) :
    (builtin net d node).Settles e := by
  have refused (f : BuildFailure) : (builtin net d node).build e = .error f ↔
      (e.kind ≠ "network" ∧ f = .unknownKind e.kind) ∨
        ∃ s fault, e.Misnames s fault ∧ f = .rejected e.name e.kind (fault.message s.queryName) :=
    build_builtin_eq_error_iff.trans (CheckerEntry.refused_iff_of_block block)
  have rejected (name kind reason : String) :
      (builtin net d node).build e = .error (.rejected name kind reason) ↔
        name = e.name ∧ kind = e.kind ∧
          ∃ s fault, e.Misnames s fault ∧ reason = fault.message s.queryName := by
    rw [refused]
    constructor
    · rintro (⟨_,same⟩ | ⟨s,fault,misnames,same⟩)
      · cases same
      · cases same
        exact ⟨rfl,rfl,s,fault,misnames,rfl⟩
    · rintro ⟨rfl,rfl,s,fault,misnames,rfl⟩
      exact .inr ⟨s,fault,misnames,rfl⟩
  refine ⟨?unknown,rejected,?made,?block⟩
  case unknown =>
    intro kind
    rw [refused]
    constructor
    · rintro (⟨other,same⟩ | ⟨s,fault,_,same⟩)
      · exact ⟨BuildFailure.unknownKind.inj same,other⟩
      · cases same
    · rintro ⟨rfl,other⟩
      exact .inl ⟨other,rfl⟩
  case made =>
    intro kind named
    cases built : (builtin net d node).build e with
    | ok c => exact ⟨c,rfl,name_of_build built⟩
    | error f =>
      rcases (refused f).mp built with ⟨other,_⟩ | ⟨s,fault,misnames,_⟩
      · exact absurd kind other
      · exact absurd misnames (named s fault)
  case block =>
    intro name kind other missing
    obtain ⟨_,_,s,fault,_,same⟩ := (rejected ..).mp missing
    exact fault.message_ne s.queryName other same.symm

end Catalogue

/-- Of an accepted entry a checker is made, with two exceptions: its kind is not known, or it queries what is
no domain name. That it has no network block is never found out so late. -/
theorem Config.settled_if_accepted {c : Config} {e : CheckerEntry} (accepted : c.validated = .ok c)
    (entry : e ∈ c.checkers) (net : Net) (d : Directory) (node : String) :
    (Catalogue.builtin net d node).Settles e := by
  have acceptable : c.Acceptable := ((c.validated_iff.1 c).mp accepted).1
  refine Catalogue.settles_of_block fun kind => ?_
  obtain ⟨s,network,_⟩ := acceptable.network e entry kind
  exact ⟨s,network⟩

def assortedConfig : Config :=
  ⟨General.standard "/tmp",
    [⟨"disk", "Network", 0, 0, none⟩,
     ⟨"hollow", "network", 0, 0, some { NetworkSpec.standard with queryName := "kube..dns" }⟩,
     ⟨"web", "network", 0, 0, some { NetworkSpec.standard with protocol := .http, queryName := "" }⟩,
     ⟨"dns", "network", 0, 0, some NetworkSpec.standard⟩], ⟨[], []⟩⟩

def quietCatalogue : Catalogue :=
  .builtin (fun _ _ _ _ => .probe ⟨0, none⟩) assortedConfig.inventory.directory "node-1"

theorem Config.settled_if_accepted_assorted :
    assortedConfig.validated = .ok assortedConfig ∧
    (∀ e ∈ assortedConfig.checkers, quietCatalogue.Settles e) ∧
    (assortedConfig.checkers.map fun e => (quietCatalogue.build e).map Checker.name) =
      [.error (.unknownKind "Network"),
       .error (.rejected "hollow" "network" "无效的查询名称: kube..dns"),
       .ok "web", .ok "dns"] := by
  have accepted : assortedConfig.validated = .ok assortedConfig := by decide +kernel
  refine ⟨accepted,fun e entry => Config.settled_if_accepted accepted entry _ _ _,?_⟩
  decide +kernel

end HealthProbe
