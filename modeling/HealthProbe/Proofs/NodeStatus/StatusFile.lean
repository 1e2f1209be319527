import HealthProbe.Proofs.Config.Names
import HealthProbe.Proofs.Files.Change
import HealthProbe.Proofs.NodeStatus.Refinement
import Mathlib.Data.List.Nodup

/-! # Status files

The file of a node holds all that there is to its status, and no node has a part in the file of another.
Both hold in every file tree, whoever wrote the files in it and however far an update comes.
-/
namespace HealthProbe
open HealthProbe.Path (IsName)

def Path.IsChild (dir path : String) : Prop :=
  ∃ name, IsName name ∧ steps path = ((steps dir).1, (steps dir).2 ++ [name])

/-- Whatever file a path leads to before or after a change, it is the same file. -/
def FileTree.Spares (path : String) (t t' : FileTree) : Prop :=
  ∀ key, t.locate path = .ok key ∨ t'.locate path = .ok key → t'.fileAt? key = t.fileAt? key

theorem Path.isChild_join (dir : String) {name : String} (hn : IsName name) :
    IsChild dir (join dir name) :=
  ⟨name,hn,steps_join dir hn⟩

theorem FileTree.spares_of_target {path : String} {t t' : FileTree}
    (h : t'.fileAt? (target path) = t.fileAt? (target path)) : Spares path t t' := by
  rintro key (located | located)
  · exact eq_target_of_locate located ▸ h
  · exact eq_target_of_locate located ▸ h

namespace FileStore
open FileTree (place target route)

variable {dir node other path : String} {s : NodeStatus} {files files' : FileTree}
  {reached : List String}

theorem nodeViolation?_eq_none_iff_isDomain : nodeViolation? node = none ↔ Name.IsDomain node :=
  nodeViolation?_eq_none.trans Name.isNode_iff

theorem draftName_injective {a b : String} (h : draftName a = draftName b) : a = b := by
  have texts := congrArg String.toList h
  simpa [draftName, String.toList_inj] using texts

theorem path?_eq_ok_iff : path? dir node = .ok path ↔
    nodeViolation? node = none ∧ path = Path.join dir (fileName node) := by
  cases valid : nodeViolation? node with
  | some v => simp [path?, valid]
  | none => simp [path?_eq valid, eq_comm]

/-! ## Reading -/

theorem get_congr (same : nodeViolation? node = none →
      files'.readText (Path.join dir (fileName node)) = files.readText (Path.join dir (fileName node))) :
    get dir node files' = get dir node files := by
  cases valid : nodeViolation? node with
  | some v => simp only [get, path?, valid]
  | none => simp only [get, path?_eq valid, same valid]

theorem get_of_readText {text : String} (valid : nodeViolation? node = none)
    (h : files.readText (Path.join dir (fileName node)) = .ok text) :
    get dir node files = decode node text := by
  simp only [get, path?_eq valid, h]

/-! ## Updating -/

theorem update_of_violation {v : Violation} (h : nodeViolation? s.node = some v) (dir : String)
    (files : FileTree) : update dir s files = (.error (.write s.node v.message),files) := by
  simp only [update, path?, h]

def changes (dir : String) (s : NodeStatus) : List FileTree.Step :=
  [.makeFolders (Path.parent (Path.join dir (fileName s.node))),
   .write (Path.join dir (draftName s.node)) (content s),
   .rename (Path.join dir (draftName s.node)) (Path.join dir (fileName s.node))]

theorem steps_eq_changes (valid : nodeViolation? s.node = none) (dir : String) :
    steps (Path.join dir (fileName s.node)) (content s) = changes dir s := by
  rw [steps, draftPath_join valid, changes]

theorem files_update (valid : nodeViolation? s.node = none) (dir : String) (files : FileTree) :
    (update dir s files).2 = (files.applyAll (changes dir s)).1 := by
  simp only [update, path?_eq valid, steps_eq_changes valid]
  split <;> rename_i h <;> rw [h]

theorem applyAll_of_update (h : update dir s files = (.ok (),files')) :
    nodeViolation? s.node = none ∧ files.applyAll (changes dir s) = (files',none) := by
  cases valid : nodeViolation? s.node with
  | some v =>
    rw [update_of_violation valid] at h
    cases h
  | none =>
    simp only [update, path?_eq valid, steps_eq_changes valid] at h
    split at h
    · rename_i applied
      cases h
      exact ⟨rfl,applied⟩
    · cases h

/-- After an update the file of the node holds the text of the status. -/
theorem readText_of_update (h : update dir s files = (.ok (),files')) :
    files'.readText (Path.join dir (fileName s.node)) = .ok (content s) := by
  obtain ⟨valid,applied⟩ := applyAll_of_update h
  exact (FileTree.readText_of_replaced (isName_fileName valid) (isName_draftName valid) applied).2

theorem get_of_update (h : update dir s files = (.ok (),files')) : get dir s.node files' = .ok s := by
  rw [get_of_readText (applyAll_of_update h).1 (readText_of_update h), decode_content]

/-! ## Other nodes -/

theorem target_fileName_ne (valid : nodeViolation? node = none) (valid' : nodeViolation? other = none)
    (ne : other ≠ node) (dir : String) :
    target (Path.join dir (fileName other)) ∉
      [target (Path.join dir (draftName node)), target (Path.join dir (fileName node))] := by
  have isFile := isName_fileName valid'
  rw [List.mem_pair, not_or]
  constructor
  · exact FileTree.target_join_ne isFile (isName_draftName valid) (draftName_ne_fileName _ _).symm
  · exact FileTree.target_join_ne isFile (isName_fileName valid) fun same => ne (fileName_injective same)

/-- An update changes nothing but the two files of its node, after it has made the folder if that was not
there. -/
theorem changesOnly_update (valid : nodeViolation? s.node = none) (dir : String) (files : FileTree) :
    ∃ made, FileTree.Grows files made ∧ (∀ reached, files.Stands dir reached → made = files) ∧
      FileTree.ChangesOnly [target (Path.join dir (draftName s.node)),
        target (Path.join dir (fileName s.node))] made (update dir s files).2 := by
  rw [files_update valid]
  obtain ⟨made,grown,changed⟩ := FileTree.changesOnly_replace files
    (Path.parent (Path.join dir (fileName s.node))) (Path.join dir (draftName s.node))
    (Path.join dir (fileName s.node)) (content s)
  refine ⟨made,?_,?_,changed⟩
  · rcases grown with makes | rfl
    · exact FileTree.grows_makeFolders makes
    · exact .refl _
  · intro reached stands
    rcases grown with makes | same
    · rw [stands.makeFolders (isName_fileName valid)] at makes
      exact (Except.ok.inj makes).symm
    · exact same

/-- An update leaves every file of another node alone, be it successful or not. -/
theorem spares_update (ne : other ≠ s.node) (valid' : nodeViolation? other = none) (dir : String)
    (files : FileTree) :
    FileTree.Spares (Path.join dir (fileName other)) files (update dir s files).2 := by
  apply FileTree.spares_of_target
  cases valid : nodeViolation? s.node with
  | some v => rw [update_of_violation valid]
  | none =>
    obtain ⟨made,grows,_,changed⟩ := changesOnly_update valid dir files
    have same := changed.others _ (target_fileName_ne valid valid' ne dir)
    rw [← grows.fileAt?, FileTree.fileAt?, FileTree.fileAt?, same]

theorem get_update_of_ne (stands : files.Stands dir reached) (ne : other ≠ s.node) :
    get dir other (update dir s files).2 = get dir other files := by
  apply get_congr
  intro valid'
  cases valid : nodeViolation? s.node with
  | some v => rw [update_of_violation valid]
  | none =>
    obtain ⟨made,_,unmade,changed⟩ := changesOnly_update valid dir files
    obtain rfl := unmade reached stands
    have same := stands.entry_of_changesOnly changed (isName_fileName valid')
      (target_fileName_ne valid valid' ne dir)
    rw [FileTree.readText, FileTree.readText, same]

/-! ## What is kept -/

/-- Whatever a status says comes back from the text that is written for it, and the file has that text
after an update. What any text says it still says when it has been read and written anew. -/
theorem status_text_faithful :
    (∀ s node, decode node (content s) = .ok s) ∧
    (∀ dir s files files', update dir s files = (.ok (),files') →
      ∃ path, path? dir s.node = .ok path ∧ files'.readText path = .ok (content s) ∧
        get dir s.node files' = .ok s) ∧
    ∀ text node, (decode node text).bind (fun s => decode node (content s)) = decode node text := by
  refine ⟨fun s node => decode_content node s,?_,?_⟩
  · intro dir s files files' updated
    have valid := (applyAll_of_update updated).1
    have path := path?_eq valid dir
    have text := readText_of_update updated
    exact ⟨_,path,text,get_of_update updated⟩
  · intro text node
    cases decode node text with
    | error e => rfl
    | ok s => rw [Except.bind, decode_content]

/-- Control characters, a character of four bytes, a leap second at the end of a year of five digits, and an
entry with neither code nor message. -/
def oddStatus : NodeStatus :=
  ⟨"a.json", Table.ofList
    [("\x00\"\\\n𝄞", ⟨.unhealthy, some "", some "\x7f\u2028/",
        ⟨⟨12345, 12, 31, by decide, by decide, by decide, by decide⟩, 1439, 59, 1999999999, by decide,
          by decide, by decide, by decide⟩⟩),
     ("", ⟨.healthy, none, none, .epoch⟩)], none⟩

theorem status_text_faithful_oddStatus :
    ∃ files, update "status" oddStatus statusFolder = (.ok (),files) ∧
      get "status" "a.json" files = .ok oddStatus := by
  have valid : nodeViolation? oddStatus.node = none := by decide +kernel
  obtain ⟨reached,stands⟩ := isEmptyFolder_statusFolder.stands
  obtain ⟨files,updated,_⟩ := (Mirrors.of_emptyFolder isEmptyFolder_statusFolder stands).update valid
  obtain ⟨_,_,_,got⟩ := status_text_faithful.2.1 "status" oddStatus statusFolder files updated
  exact ⟨files,updated,got⟩

/-! ## What is apart -/

theorem steps_join_injective (dir : String) {a b : String} (ha : IsName a) (hb : IsName b)
    (same : Path.steps (Path.join dir a) = Path.steps (Path.join dir b)) : a = b := by
  rw [Path.steps_join dir ha, Path.steps_join dir hb] at same
  have last := (List.append_inj' (Prod.mk.inj same).2 rfl).2
  exact List.singleton_inj.mp last

theorem nodup_names (ne : other ≠ node) :
    [fileName node, draftName node, fileName other, draftName other].Nodup := by
  have files : fileName node ≠ fileName other := fun same => ne (fileName_injective same).symm
  have drafts : draftName node ≠ draftName other := fun same => ne (draftName_injective same).symm
  have apart (a b : String) : fileName a ≠ draftName b := (draftName_ne_fileName b a).symm
  simp [files, drafts, apart, draftName_ne_fileName]

/-- The names under which nodes are kept are the labels between dots. A node has its two files right in the
folder, no file of another node is one of them, and no update of a node, done or broken off, changes the
file that another node is read from. -/
theorem status_files_apart (dir node : String) :
    ((∃ path, path? dir node = .ok path) ↔ Name.IsDomain node) ∧
    ∀ path, path? dir node = .ok path →
      Path.IsChild dir path ∧ Path.IsChild dir (draftPath path) ∧
      ∀ other path', path? dir other = .ok path' → other ≠ node →
        ([path, draftPath path, path', draftPath path'].map Path.steps).Nodup ∧
        ∀ s files, s.node = node →
          FileTree.Spares path' files (update dir s files).2 ∧
          (dir = "" ∨ files.entry dir = .ok .folder →
            get dir other (update dir s files).2 = get dir other files) := by
  refine ⟨?_,?_⟩
  · constructor
    · rintro ⟨path,found⟩
      exact nodeViolation?_eq_none_iff_isDomain.mp (path?_eq_ok_iff.mp found).1
    · intro domain
      exact ⟨_,path?_eq (nodeViolation?_eq_none_iff_isDomain.mpr domain) dir⟩
  intro path found
  obtain ⟨valid,rfl⟩ := path?_eq_ok_iff.mp found
  have isFile := isName_fileName valid
  have isDraft := isName_draftName valid
  rw [draftPath_join valid]
  refine ⟨Path.isChild_join dir isFile,Path.isChild_join dir isDraft,?_⟩
  intro other path' found' ne
  obtain ⟨valid',rfl⟩ := path?_eq_ok_iff.mp found'
  have isFile' := isName_fileName valid'
  have isDraft' := isName_draftName valid'
  rw [draftPath_join valid']
  constructor
  · have names : ∀ name ∈ [fileName node, draftName node, fileName other, draftName other],
        IsName name := by
      simp [isFile, isDraft, isFile', isDraft']
    have apart := List.Nodup.map_on
      (fun a ha b hb same => steps_join_injective dir (names a ha) (names b hb) same) (nodup_names ne)
    simpa only [List.map_cons, List.map_nil] using apart
  · rintro s files rfl
    refine ⟨spares_update ne valid' dir files,?_⟩
    intro there
    obtain ⟨reached,stands⟩ := FileTree.stands_of_entry there
    exact get_update_of_ne stands ne

/-- The second name is the first with the ending of its file. -/
theorem status_files_apart_endings :
    path? "status" "a" = .ok "status/a.json" ∧ path? "status" "a.json" = .ok "status/a.json.json" ∧
      (["status/a.json", "status/a.json.tmp", "status/a.json.json",
        "status/a.json.json.tmp"].map Path.steps).Nodup ∧
      get "status" "a.json" (update "status" (NodeStatus.new "a") statusFolder).2 =
        get "status" "a.json" statusFolder := by
  have first : path? "status" "a" = .ok "status/a.json" := by decide +kernel
  have second : path? "status" "a.json" = .ok "status/a.json.json" := by decide +kernel
  obtain ⟨_,_,others⟩ := (status_files_apart "status" "a").2 _ first
  obtain ⟨apart,updates⟩ := others "a.json" _ second (by decide)
  have there : statusFolder.entry "status" = .ok .folder := by decide +kernel
  exact ⟨first,second,apart,(updates (NodeStatus.new "a") statusFolder rfl).2 (Or.inr there)⟩

end FileStore
end HealthProbe
