import HealthProbe.Proofs.NodeStatus.StatusFile
import HealthProbe.Proofs.NodeStatus.Turns
import Mathlib.Data.List.Induction

/-! # Updates of one node that cross

An update that is alone under way writes a draft and puts it in its place. Of several updates of one node
each may write over the draft of another before that is placed. The file is then still one of the statuses
and never half of one, but it is the status that was drafted last, whoever placed it, and those who come to
place a draft that is gone are told that their update has failed. A folder in the place of the draft makes all
of them fail.
-/
namespace HealthProbe.FileStore
open HealthProbe.Path (IsName)
open FileTree (place target route)

structure Clear (dir node path : String) (files : FileTree) : Prop where
  found : path? dir node = .ok path
  there : dir = "" ∨ files.entry dir = .ok .folder
  noFolder : ∀ p ∈ [draftPath path, path], files.entry p ≠ .ok .folder

structure Crossing (ι : Type) where
  files : FileTree
  failed : ι → Option OsError

namespace Crossing
variable {ι : Type} {dir node path : String} {s : ι → NodeStatus} {files files' start : FileTree}
  {c : Crossing ι} {done rest : List (Turn ι)} {i j : ι} {phase : Phase}

section Turns
variable [DecidableEq ι]

def take (path : String) (s : ι → NodeStatus) (c : Crossing ι) (turn : Turn ι) : Crossing ι :=
  match c.failed turn.1 with
  | some _ => c
  | none =>
    match c.files.apply (turn.2.change path (content (s turn.1))) with
    | .ok files => ⟨files, c.failed⟩
    | .error e => ⟨c.files, Function.update c.failed turn.1 (some e)⟩

def run (path : String) (s : ι → NodeStatus) (files : FileTree) (course : List (Turn ι)) : Crossing ι :=
  course.foldl (take path s) ⟨files, fun _ => none⟩

def answer (s : ι → NodeStatus) (c : Crossing ι) (i : ι) : Except StoreFailure Unit :=
  match c.failed i with
  | none => .ok ()
  | some e => .error (.write (s i).node e.message)

theorem run_concat (path : String) (s : ι → NodeStatus) (files : FileTree) (course : List (Turn ι))
    (turn : Turn ι) : run path s files (course ++ [turn]) = (run path s files course).take path s turn := by
  rw [run, List.foldl_concat, run]

theorem take_of_ok (going : c.failed i = none)
    (made : c.files.apply (phase.change path (content (s i))) = .ok files') :
    c.take path s (i, phase) = ⟨files', c.failed⟩ := by
  simp only [take, going, made]

theorem take_of_error {e : OsError} (going : c.failed i = none)
    (fails : c.files.apply (phase.change path (content (s i))) = .error e) :
    c.take path s (i, phase) = ⟨c.files, Function.update c.failed i (some e)⟩ := by
  simp only [take, going, fails]

/-- An update that crosses no other is an update. -/
theorem run_alone (found : path? dir (s i).node = .ok path) (files : FileTree) :
    ((run path s files [(i, .folders), (i, .draft), (i, .place)]).answer s i,
      (run path s files [(i, .folders), (i, .draft), (i, .place)]).files) = update dir (s i) files := by
  simp only [update, found, steps_eq_map, List.map_cons, List.map_nil, FileTree.applyAll, run,
    List.foldl_cons, List.foldl_nil]
  cases folders : files.apply (Phase.folders.change path (content (s i))) with
  | error e => simp [take, folders, answer]
  | ok made =>
    cases draft : made.apply (Phase.draft.change path (content (s i))) with
    | error e => simp [take, folders, draft, answer]
    | ok written =>
      cases place : written.apply (Phase.place.change path (content (s i))) <;>
        simp [take, folders, draft, place, answer]

end Turns

/-! ## The two names in the folder -/

theorem change_draft (valid : nodeViolation? node = none) (dir text : String) :
    Phase.draft.change (Path.join dir (fileName node)) text =
      .write (Path.join dir (draftName node)) text := by
  rw [Phase.change, draftPath_join valid]

theorem change_place (valid : nodeViolation? node = none) (dir text : String) :
    Phase.place.change (Path.join dir (fileName node)) text =
      .rename (Path.join dir (draftName node)) (Path.join dir (fileName node)) := by
  rw [Phase.change, draftPath_join valid]

structure Holds (dir node : String) (s : ι → NodeStatus) (start : FileTree) (done : List (Turn ι))
    (files : FileTree) : Prop where
  changed : FileTree.ChangesOnly
    [target (Path.join dir (draftName node)), target (Path.join dir (fileName node))] start files
  noFolder : ∀ name ∈ [draftName node, fileName node],
    files.at? (place dir (route dir) name) ≠ some .folder
  drafted : ∀ i, waiting? done = some i →
    files.at? (place dir (route dir) (draftName node)) = some (.text (content (s i)))
  placed : waiting? done = none → ∀ i, lastTo? .draft done = some i →
    files.at? (place dir (route dir) (draftName node)) = none ∧
      files.at? (place dir (route dir) (fileName node)) = some (.text (content (s i)))

theorem Holds.folders (h : Holds dir node s start done files) (i : ι) :
    Holds dir node s start (done ++ [(i, .folders)]) files := by
  refine ⟨h.changed,h.noFolder,?_,?_⟩
  · simpa using h.drafted
  · simpa [lastTo?_concat] using h.placed

theorem Holds.draft (h : Holds dir node s start done files) (stands : start.Stands dir (route dir))
    (valid : nodeViolation? node = none) (i : ι) :
    ∃ files', files.apply (.write (Path.join dir (draftName node)) (content (s i))) = .ok files' ∧
      Holds dir node s start (done ++ [(i, .draft)]) files' := by
  have isDraft := isName_draftName valid
  have apart : place dir (route dir) (fileName node) ≠ place dir (route dir) (draftName node) :=
    FileTree.place_injective (isName_fileName valid) isDraft (draftName_ne_fileName node node).symm
  have writes := (stands.of_changesOnly h.changed).write isDraft (h.noFolder _ (by simp)) (content (s i))
  refine ⟨_,writes,?changed,?noFolder,?drafted,?placed⟩
  case changed => exact h.changed.trans ((FileTree.changesOnly_put writes).mono (by simp))
  case noFolder =>
    have file := h.noFolder (fileName node) (by simp)
    simpa [FileTree.at?_insert files isDraft, apart] using file
  case drafted =>
    intro k waits
    rw [waiting?_draft] at waits
    rw [FileTree.at?_insert files isDraft, if_pos rfl, Option.some.inj waits]
  case placed =>
    intro none
    rw [waiting?_draft] at none
    cases none

theorem Holds.place (h : Holds dir node s start done files) (stands : start.Stands dir (route dir))
    (valid : nodeViolation? node = none) (waits : waiting? done = some j) (i : ι) :
    ∃ files', files.apply (.rename (Path.join dir (draftName node)) (Path.join dir (fileName node))) =
        .ok files' ∧
      Holds dir node s start (done ++ [(i, .place)]) files' := by
  have isDraft := isName_draftName valid
  have isFile := isName_fileName valid
  have apart : FileTree.place dir (route dir) (draftName node) ≠
      FileTree.place dir (route dir) (fileName node) :=
    FileTree.place_injective isDraft isFile (draftName_ne_fileName node node)
  have renames := (stands.of_changesOnly h.changed).rename isDraft isFile (h.drafted j waits)
    (h.noFolder _ (by simp))
  refine ⟨_,renames,?changed,?noFolder,?drafted,?placed⟩
  case changed => exact h.changed.trans (FileTree.changesOnly_rename renames)
  case noFolder => simp [FileTree.at?_renamed files isDraft isFile, apart]
  case drafted =>
    intro k waits'
    rw [waiting?_place] at waits'
    cases waits'
  case placed =>
    intro _ k last
    have own : lastTo? .draft done = some k := by simpa [lastTo?_concat] using last
    cases (lastTo?_draft_of_waiting? waits).symm.trans own
    simp [FileTree.at?_renamed files isDraft isFile, apart]

theorem Holds.unplaced (h : Holds dir node s start done files) (stands : start.Stands dir (route dir))
    (valid : nodeViolation? node = none) (none : waiting? done = none) (drafted : (i, .draft) ∈ done) :
    files.apply (.rename (Path.join dir (draftName node)) (Path.join dir (fileName node))) =
        .error .notFound ∧
      Holds dir node s start (done ++ [(i, .place)]) files := by
  obtain ⟨k,last⟩ := exists_lastTo? drafted
  have gone := (h.placed none k last).1
  refine ⟨?_,h.changed,h.noFolder,?_,?_⟩
  · exact (stands.of_changesOnly h.changed).rename_absent (isName_draftName valid) (isName_fileName valid) gone
  · intro k waits
    rw [waiting?_place] at waits
    cases waits
  · intro _ k last
    exact h.placed none k (by simpa [lastTo?_concat] using last)

/-! ## Those that have failed -/

variable [DecidableEq ι]

structure Fates (done : List (Turn ι)) (failed : ι → Option OsError) : Prop where
  unplaced : ∀ i, (i, .place) ∉ done → failed i = none
  placed : ∀ before i after, done = before ++ (i, .place) :: after →
    failed i = if (waiting? before).isSome then none else some .notFound

variable {failed : ι → Option OsError}

omit [DecidableEq ι] in
theorem Fates.other (h : Fates done failed) (i : ι) (ne : phase ≠ .place) :
    Fates (done ++ [(i, phase)]) failed := by
  refine ⟨fun k undone => h.unplaced k fun placed => undone (by simp [placed]),?_⟩
  intro before k after split
  rcases concat_eq_append_cons split with ⟨_,same⟩ | ⟨earlier,split⟩
  · exact absurd (Prod.mk.inj same).2 ne
  · exact h.placed before k earlier split

theorem Fates.place (h : Fates done failed) (fresh : (i, .place) ∉ done) :
    Fates (done ++ [(i, .place)])
      (Function.update failed i (if (waiting? done).isSome then none else some .notFound)) := by
  constructor
  · intro k undone
    have other : k ≠ i := by
      rintro rfl
      exact undone (by simp)
    rw [Function.update_of_ne other]
    exact h.unplaced k fun placed => undone (by simp [placed])
  · intro before k after split
    rcases concat_eq_append_cons split with ⟨rfl,same⟩ | ⟨earlier,rfl⟩
    · cases same
      rw [Function.update_self]
    · have other : k ≠ i := by
        rintro rfl
        exact fresh (by simp)
      rw [Function.update_of_ne other]
      exact h.placed before k earlier rfl

/-! ## Courses -/

/-- Whatever turns have been taken of a course, the files and the failures are as the turns tell. -/
theorem underway (valid : nodeViolation? node = none) (stands : start.Stands dir (route dir))
    (noFolder : ∀ name ∈ [draftName node, fileName node],
      start.at? (FileTree.place dir (route dir) name) ≠ some .folder)
    (interleaved : Interleaves (done ++ rest)) :
    Holds dir node s start done (run (Path.join dir (fileName node)) s start done).files ∧
      Fates done (run (Path.join dir (fileName node)) s start done).failed := by
  induction done using List.reverseRecOn generalizing rest with
  | nil =>
    refine ⟨⟨.refl _ _,noFolder,?_,?_⟩,fun _ _ => rfl,?_⟩
    · intro i waits
      cases waits
    · intro _ i last
      cases last
    · intro before i after split
      cases before <;> cases split
  | append_singleton done turn ih =>
    obtain ⟨i,phase⟩ := turn
    rw [List.append_assoc, List.singleton_append] at interleaved
    obtain ⟨holds,fates⟩ := ih interleaved
    have fresh := interleaved.place_not_mem_before
    have going := fates.unplaced i fresh
    rw [run_concat]
    generalize run (Path.join dir (fileName node)) s start done = c at holds fates going
    cases phase with
    | folders =>
      have makes : c.files.apply (Phase.folders.change (Path.join dir (fileName node)) (content (s i))) =
          .ok c.files :=
        (stands.of_changesOnly holds.changed).makeFolders (isName_fileName valid)
      rw [take_of_ok going makes]
      exact ⟨holds.folders i,fates.other i (by decide)⟩
    | draft =>
      obtain ⟨files',writes,held⟩ := holds.draft stands valid i
      rw [← change_draft valid] at writes
      rw [take_of_ok going writes]
      exact ⟨held,fates.other i (by decide)⟩
    | place =>
      have fates' := fates.place fresh
      cases waits : waiting? done with
      | some j =>
        obtain ⟨files',renames,held⟩ := holds.place stands valid waits i
        rw [← change_place valid _ (content (s i))] at renames
        rw [take_of_ok going renames]
        rw [waits, Option.isSome_some, if_pos rfl, ← going, Function.update_eq_self] at fates'
        exact ⟨held,fates'⟩
      | none =>
        obtain ⟨fails,held⟩ := holds.unplaced stands valid waits interleaved.draft_mem_before
        rw [← change_place valid _ (content (s i))] at fails
        rw [take_of_error going fails]
        rw [waits, Option.isSome_none, if_neg nofun] at fates'
        exact ⟨held,fates'⟩

theorem ended {course : List (Turn ι)} (s : ι → NodeStatus) (clear : Clear dir node path files)
    (interleaved : Interleaves course) :
    nodeViolation? node = none ∧ files.Stands dir (route dir) ∧
      Holds dir node s files course (run path s files course).files ∧
      Fates course (run path s files course).failed := by
  obtain ⟨valid,rfl⟩ := path?_eq_ok_iff.mp clear.found
  obtain ⟨reached,stands⟩ := FileTree.stands_of_entry clear.there
  obtain rfl := stands.eq_route
  have free : ∀ name ∈ [draftName node, fileName node],
      files.at? (FileTree.place dir (route dir) name) ≠ some .folder := by
    intro name hname folder
    have isName : IsName name := by
      rcases List.mem_pair.mp hname with rfl | rfl
      · exact isName_draftName valid
      · exact isName_fileName valid
    refine clear.noFolder (Path.join dir name) ?_ (by rw [stands.entry isName, folder]; rfl)
    rw [draftPath_join valid]
    rcases List.mem_pair.mp hname with rfl | rfl <;> simp
  have whole : Interleaves (course ++ []) := by rwa [List.append_nil]
  exact ⟨valid,stands,underway valid stands free whole⟩

/-- Both make the folder first, and then one after the other writes and places its draft. -/
def inTurn : List (Turn Bool) :=
  [(false, .folders), (true, .folders), (false, .draft), (false, .place), (true, .draft), (true, .place)]

end Crossing
end HealthProbe.FileStore
