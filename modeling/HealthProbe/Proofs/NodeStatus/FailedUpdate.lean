import HealthProbe.Proofs.Files.Attempt
import HealthProbe.Proofs.NodeStatus.StatusFile

/-! # Updates that fail

An update of a status is done as a whole or not at all, as far as any reader can tell, wherever the system
lets it down. What may be left behind of it, new folders and a draft, is nothing that a status is read from,
unless the path of the folder leads back out of a folder that has yet to be made: once this is made, the path
leads somewhere.
-/
namespace HealthProbe.FileStore

inductive Updates (dir : String) (s : NodeStatus) (files : FileTree) :
    Except StoreFailure Unit → FileTree → Prop
  | invalid {v : Violation} (none : path? dir s.node = .error v) :
      Updates dir s files (.error (.write s.node v.message)) files
  | done {path : String} {files' : FileTree} (found : path? dir s.node = .ok path)
      (tried : files.Tries (steps path (content s)) none files') : Updates dir s files (.ok ()) files'
  | failed {path reason : String} {files' : FileTree} (found : path? dir s.node = .ok path)
      (tried : files.Tries (steps path (content s)) (some reason) files') :
      Updates dir s files (.error (.write s.node reason)) files'

variable {dir node other : String} {s : NodeStatus} {files files' : FileTree}

theorem updates_update (dir : String) (s : NodeStatus) (files : FileTree) :
    Updates dir s files (update dir s files).1 (update dir s files).2 := by
  unfold update
  cases found : path? dir s.node with
  | error v => exact .invalid found
  | ok path =>
    have tried := files.tries_applyAll (steps path (content s))
    dsimp only
    split <;> rename_i applied <;> rw [applied] at tried
    · exact .done found tried
    · exact .failed found tried

theorem Updates.eq_of_ok (h : Updates dir s files (.ok ()) files') :
    update dir s files = (.ok (),files') := by
  cases h with
  | done found tried => simp only [update, found, FileTree.applyAll_of_tries tried]

theorem get_of_entry (same : nodeViolation? node = none →
      files'.entry (Path.join dir (fileName node)) = files.entry (Path.join dir (fileName node))) :
    get dir node files' = get dir node files :=
  get_congr fun valid => by simp only [FileTree.readText, same valid]

theorem get_of_failed (rooted : files.Rooted) (onward : files.StepsOnward dir) {e : StoreFailure}
    (h : Updates dir s files (.error e) files') : get dir node files' = get dir node files := by
  cases h with
  | invalid => rfl
  | failed found tried =>
    obtain ⟨valid,rfl⟩ := path?_eq_ok_iff.mp found
    rw [steps_eq_changes valid] at tried
    refine get_of_entry fun valid' => ?_
    exact FileTree.entry_of_failed rooted onward (isName_fileName valid) (isName_draftName valid)
      (isName_fileName valid') (draftName_ne_fileName _ _).symm tried

theorem get_of_done (rooted : files.Rooted) (onward : files.StepsOnward dir) (ne : other ≠ s.node)
    (h : Updates dir s files (.ok ()) files') : get dir other files' = get dir other files := by
  obtain ⟨valid,applied⟩ := applyAll_of_update h.eq_of_ok
  refine get_of_entry fun valid' => ?_
  exact FileTree.entry_of_replaced rooted onward (isName_fileName valid) (isName_draftName valid)
    (isName_fileName valid') (draftName_ne_fileName _ _).symm (fun same => ne (fileName_injective same))
    applied

/-- In a tree in which everything stands in a folder, whatever else stands there, and with a path that steps
back only out of folders that are there, an update of which any step may fail is seen whole or not at all: if
it fails, every status is read as before, and if it succeeds, the status of its node is the new one and every
other is read as before. -/
theorem update_all_or_nothing (dir : String) (s : NodeStatus) (files : FileTree) (rooted : files.Rooted)
    (onward : files.StepsOnward dir) :
    Updates dir s files (update dir s files).1 (update dir s files).2 ∧
    ∀ answer files', Updates dir s files answer files' →
      (∀ e, answer = .error e → ∀ node, get dir node files' = get dir node files) ∧
      (answer = .ok () → get dir s.node files' = .ok s ∧
        ∀ node, node ≠ s.node → get dir node files' = get dir node files) := by
  refine ⟨updates_update dir s files,?_⟩
  intro answer files' h
  constructor
  · rintro e rfl node
    exact get_of_failed rooted onward h
  · rintro rfl
    exact ⟨get_of_update h.eq_of_ok,fun node ne => get_of_done rooted onward ne h⟩

/-- A status that cannot be read, a folder where a status would be, and a draft that was left behind. -/
def crowdedFolder : FileTree :=
  (FileTree.empty.applyAll [.makeFolders "status", .write "status/a.json" "\x7b", .makeFolders "status/b.json",
    .write "status/node-1.json.tmp" "[]"]).1

def diskFull : String := "No space left on device (os error 28)"

theorem update_all_or_nothing_crowdedFolder :
    crowdedFolder.Rooted ∧ crowdedFolder.StepsOnward "status" ∧
      ∃ files', Updates "status" knownStatus crowdedFolder (.error (.write "node-1" diskFull)) files' ∧
        files' ≠ crowdedFolder ∧ ∀ node, get "status" node files' = get "status" node crowdedFolder := by
  have rooted : crowdedFolder.Rooted := FileTree.rooted_empty.applyAll _
  have onward : crowdedFolder.StepsOnward "status" :=
    crowdedFolder.stepsOnward_of_forward (by decide +kernel)
  have found : path? "status" "node-1" = .ok "status/node-1.json" := by decide +kernel
  have made : crowdedFolder.apply (.makeFolders "status") = .ok crowdedFolder := by decide +kernel
  have written : crowdedFolder.put "status/node-1.json.tmp" (.text "\x7b") =
      .ok ⟨crowdedFolder.entries.insert "status/node-1.json.tmp" (.text "\x7b")⟩ := by decide +kernel
  have failed : Updates "status" knownStatus crowdedFolder (.error (.write "node-1" diskFull)) _ :=
    .failed found (.goesOn (.done made) (.fails _ (.otherContent _ (.text "\x7b") nofun diskFull written)))
  have unseen := (update_all_or_nothing "status" knownStatus crowdedFolder rooted onward).2 _ _ failed
  exact ⟨rooted,onward,_,failed,by decide +kernel,unseen.1 _ rfl⟩

/-- A path that steps back out of a folder that has yet to be made finds nothing before an update and the
status of another node after it. -/
theorem update_uncovers_status :
    crowdedFolder.Rooted ∧ (update "gone/../status" knownStatus crowdedFolder).1 = .ok () ∧
    "a" ≠ knownStatus.node ∧ get "gone/../status" "a" crowdedFolder = .ok (.new "a") ∧
    get "gone/../status" "a" (update "gone/../status" knownStatus crowdedFolder).2 =
      .error (.read "a" unreadable) :=
  ⟨FileTree.rooted_empty.applyAll _,by decide +kernel,by decide,by decide +kernel,by decide +kernel⟩

end HealthProbe.FileStore
