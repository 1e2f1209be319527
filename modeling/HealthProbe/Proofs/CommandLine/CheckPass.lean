import HealthProbe.CommandLine.Site
import HealthProbe.Proofs.NodeStatus.History
import HealthProbe.Proofs.NodeStatus.StatusFile

/-! # Where a check leaves its results

A check looks a status up under the name of its node and writes it under the name that the status has
itself. The two are the same for every file that was written by the store, and the results are then in
the file of the node; a file that was put there in another way may name another node, and then they are
in that node's file.
-/
namespace HealthProbe

/-! ## Passes that succeed -/

namespace Pass
variable {σ : Type} {store : Store σ} {p : Pass} {start : Nat} {node : String}
  {results : Table Verdict} {moment : Time.Stamp} {s s' : σ}

theorem writeDown_eq_ok (h : writeDown store node results moment s = (.ok (),s')) :
    ∃ before between, store.get node s = (.ok before,between) ∧
      store.update (before.merge results moment) between = (.ok (),s') := by
  rw [writeDown] at h
  split at h
  · cases h
  · rename_i before between looked
    exact ⟨before,between,looked,h⟩

theorem writeDown_of_perform (h : (p.perform store start s).1.outcome = .ok results) :
    writeDown store p.node results (p.moment start) s = (.ok (),(p.perform store start s).2) := by
  cases came : p.results start with
  | error words =>
    obtain ⟨outcome,_⟩ := p.perform_of_crash store came s
    cases h.symm.trans outcome
  | ok whole =>
    obtain ⟨outcome,state⟩ := p.perform_of_results store came s
    rw [h] at outcome
    split at outcome
    · cases outcome
    · rename_i written
      cases outcome
      exact Prod.ext written state.symm

end Pass

namespace Site
variable {site : Site} {c : Config} {node : String} {report : Pass.Report} {files : FileTree}
  {results : Table Verdict}

theorem exists_checkers_of_passOn (passed : site.passOn c node = .ok (report,files)) :
    ∃ cs, (site.catalogue c node).buildAll c.checkers = .ok cs ∧
      (site.pass c node cs).perform (FileStore.store c.general.statusDir) 0 site.files =
        (report,files) := by
  rw [passOn] at passed
  split at passed
  · cases passed
  split at passed
  · cases passed
  rename_i cs built
  exact ⟨cs,built,Except.ok.inj passed⟩

/-- A check that comes to results has read one status and updated with it and the results. -/
theorem update_of_passOn (passed : site.passOn c node = .ok (report,files))
    (ok : report.outcome = .ok results) :
    ∃ before moment, FileStore.get c.general.statusDir node site.files = .ok before ∧
      FileStore.update c.general.statusDir (before.merge results moment) site.files = (.ok (),files) := by
  obtain ⟨cs,_,performed⟩ := exists_checkers_of_passOn passed
  have reported : ((site.pass c node cs).perform (FileStore.store c.general.statusDir) 0
      site.files).1 = report := congrArg Prod.fst performed
  have written := Pass.writeDown_of_perform (reported.symm ▸ ok)
  obtain ⟨before,between,looked,updated⟩ := Pass.writeDown_eq_ok written
  -- Looking a status up in files changes none of them.
  obtain ⟨got,same⟩ := Prod.mk.inj looked
  rw [performed, ← same] at updated
  exact ⟨before,_,got,updated⟩

theorem exists_of_results (h : ((site.passOn c node).toOption.bind fun r => r.1.outcome.toOption) =
    some results) :
    ∃ report files, site.passOn c node = .ok (report,files) ∧ report.outcome = .ok results := by
  cases passed : site.passOn c node with
  | error f =>
    rw [passed] at h
    cases h
  | ok r =>
    rw [passed] at h
    have came : r.1.outcome.toOption = some results := h
    refine ⟨r.1,r.2,rfl,?_⟩
    cases outcome : r.1.outcome with
    | error f =>
      rw [outcome] at came
      cases came
    | ok found =>
      rw [outcome] at came
      rw [← Option.some.inj came]

/-- The results of a check stand in the status that it read, under the node that this status names, and
in no other. -/
theorem passOn_leaves_results (passed : site.passOn c node = .ok (report,files))
    (ok : report.outcome = .ok results) :
    ∃ before after, FileStore.get c.general.statusDir node site.files = .ok before ∧
      FileStore.get c.general.statusDir before.node files = .ok after ∧
      NodeStatus.Takes results before after ∧
      ∀ other path, FileStore.path? c.general.statusDir other = .ok path → other ≠ before.node →
        FileTree.Spares path site.files files ∧
        (c.general.statusDir = "" ∨ site.files.entry c.general.statusDir = .ok .folder →
          FileStore.get c.general.statusDir other files =
            FileStore.get c.general.statusDir other site.files) := by
  obtain ⟨before,moment,got,updated⟩ := update_of_passOn passed ok
  have left : files =
      (FileStore.update c.general.statusDir (before.merge results moment) site.files).2 := by
    rw [updated]
  have stored : FileStore.get c.general.statusDir before.node files =
      .ok (before.merge results moment) := FileStore.get_of_update updated
  refine ⟨before,_,got,stored,before.takes_merge results moment,?_⟩
  intro other path found ne
  obtain ⟨valid,rfl⟩ := FileStore.path?_eq_ok_iff.mp found
  have apart : other ≠ (before.merge results moment).node := ne
  rw [left]
  refine ⟨FileStore.spares_update apart valid _ site.files,?_⟩
  intro there
  obtain ⟨reached,stands⟩ := FileTree.stands_of_entry there
  exact FileStore.get_update_of_ne stands apart

end Site

/-! ## A file under a name that is not its own -/

def lonelyConfig : Config :=
  ⟨⟨"node-1", "info", none, "status", 1, 0, 300⟩,
    [⟨"dns", "network", 0, 0, some { NetworkSpec.standard with protocol := .http }⟩], ⟨[], []⟩⟩

def lonelyVerdict : Verdict :=
  .unknown "InsufficientPeers" "insufficient peers for conclusive test: 仅发现 0 个可用实例"

def strangeFolder : FileTree :=
  ⟨statusFolder.entries.insert "status/node-1.json"
    (.text (FileStore.content (NodeStatus.new "node-2")))⟩

def lonelySite : Site := ⟨[], strangeFolder, fun _ _ _ _ => .probe ⟨0, none⟩, fun _ => .epoch, none, "first"⟩

theorem entry_strangeFolder : strangeFolder.entry "status" = .ok .folder := by decide +kernel

theorem get_strangeFolder :
    FileStore.get "status" "node-1" strangeFolder = .ok (NodeStatus.new "node-2") ∧
      FileStore.get "status" "node-2" strangeFolder = .ok (NodeStatus.new "node-2") := by
  constructor <;> decide +kernel

/-- A check of the node that the status names, with no file of its own. -/
theorem passOn_leaves_results_lonelySite :
    ∃ report files after, lonelySite.passOn lonelyConfig "node-2" = .ok (report,files) ∧
      report.outcome = .ok (Table.empty.insert "dns" lonelyVerdict) ∧
      FileStore.get "status" "node-2" files = .ok after ∧ after.node = "node-2" ∧
      (∃ r, after.results.find? "dns" = some r ∧ r.Tells lonelyVerdict) ∧
      FileStore.get "status" "node-1" files = .ok (NodeStatus.new "node-2") := by
  have came : ((lonelySite.passOn lonelyConfig "node-2").toOption.bind fun r =>
      r.1.outcome.toOption) = some (Table.empty.insert "dns" lonelyVerdict) := by decide +kernel
  obtain ⟨report,files,passed,ok⟩ := Site.exists_of_results came
  obtain ⟨before,after,got,stored,takes,others⟩ := Site.passOn_leaves_results passed ok
  obtain ⟨strange,fresh⟩ := get_strangeFolder
  obtain rfl : NodeStatus.new "node-2" = before := Except.ok.inj (fresh.symm.trans got)
  have path : FileStore.path? "status" "node-1" = .ok "status/node-1.json" := by decide +kernel
  have kept := (others "node-1" _ path (by decide)).2 (Or.inr entry_strangeFolder)
  exact ⟨report,files,after,passed,ok,stored,takes.node,takes.told "dns" _ rfl,kept.trans strange⟩

/-- A check of the node under whose name the file stands comes to a result. The file does not have it, but
the file of the other node does. -/
theorem results_in_file_of_other_node :
    lonelyConfig.validated = .ok lonelyConfig ∧
    ∃ report files after, lonelySite.passOn lonelyConfig "node-1" = .ok (report,files) ∧
      report.outcome = .ok (Table.empty.insert "dns" lonelyVerdict) ∧
      FileStore.get "status" "node-1" files = .ok (NodeStatus.new "node-2") ∧
      (NodeStatus.new "node-2").results.find? "dns" = none ∧
      FileStore.get "status" "node-2" strangeFolder = .ok (NodeStatus.new "node-2") ∧
      FileStore.get "status" "node-2" files = .ok after ∧
      ∃ r, after.results.find? "dns" = some r ∧ r.Tells lonelyVerdict := by
  have valid : lonelyConfig.validated = .ok lonelyConfig := by decide +kernel
  have came : ((lonelySite.passOn lonelyConfig "node-1").toOption.bind fun r =>
      r.1.outcome.toOption) = some (Table.empty.insert "dns" lonelyVerdict) := by decide +kernel
  obtain ⟨report,files,passed,ok⟩ := Site.exists_of_results came
  obtain ⟨before,moment,got,updated⟩ := Site.update_of_passOn passed ok
  obtain ⟨strange,fresh⟩ := get_strangeFolder
  obtain rfl : NodeStatus.new "node-2" = before := Except.ok.inj (strange.symm.trans got)
  obtain ⟨reached,stands⟩ := FileTree.stands_of_entry (Or.inr entry_strangeFolder)
  have merged := (NodeStatus.new "node-2").takes_merge (Table.empty.insert "dns" lonelyVerdict) moment
  have left : (FileStore.update "status" ((NodeStatus.new "node-2").merge
      (Table.empty.insert "dns" lonelyVerdict) moment) strangeFolder).2 = files :=
    congrArg Prod.snd updated
  have apart : "node-1" ≠ ((NodeStatus.new "node-2").merge
      (Table.empty.insert "dns" lonelyVerdict) moment).node := by
    rw [NodeStatus.node_merge]
    decide
  have kept := FileStore.get_update_of_ne stands apart
  rw [left, strange] at kept
  exact ⟨valid,report,files,_,passed,ok,kept,rfl,fresh,FileStore.get_of_update updated,
    merged.told "dns" _ rfl⟩

end HealthProbe
