import HealthProbe.Proofs.Files.Folder
import HealthProbe.Proofs.NodeStatus.RoundTrip

/-! # Statuses in files as in memory

Whoever asks a store cannot tell whether it keeps its statuses in files or in memory. The relation
between the two says, for each valid name, what its file holds and that no draft of it is left; every
request preserves it, and so does every sequence of requests.
-/
namespace HealthProbe
open HealthProbe.Path (IsName)

/-! ## Names of files -/

theorem Name.plain_of_accepts {dots : Bool} {p : Name.Place} {cs : List Char}
    (h : accepts dots p cs = true) : ∀ c ∈ cs, isSmallAlnum c = true ∨ c = '-' ∨ c = '.' := by
  induction cs generalizing p with
  | nil => simp
  | cons x xs ih =>
    rw [accepts] at h
    intro c hc
    rcases List.mem_cons.mp hc with rfl | hc
    · by_cases alnum : isSmallAlnum c = true
      · exact Or.inl alnum
      · by_cases hyphen : c = '-'
        · exact Or.inr (Or.inl hyphen)
        · by_cases dot : c = '.'
          · exact Or.inr (Or.inr dot)
          · simp [alnum, hyphen, dot] at h
    · split at h
      · exact ih h c hc
      split at h
      · exact ih (Bool.and_eq_true_iff.mp h).2 c hc
      split at h
      · exact ih (Bool.and_eq_true_iff.mp h).2 c hc
      · cases h

theorem nodeViolation?_eq_none {node : String} :
    nodeViolation? node = none ↔ Name.isNode node = true := by
  simp [nodeViolation?]

namespace FileStore

def fileName (node : String) : String := node ++ ".json"

def draftName (node : String) : String := node ++ ".json.tmp"

theorem isName_append {node suffix : String} (valid : nodeViolation? node = none)
    (long : 3 ≤ suffix.length) (no_slash : '/' ∉ suffix.toList) (no_zero : '\x00' ∉ suffix.toList) :
    IsName (node ++ suffix) := by
  have letters := Name.plain_of_accepts (Bool.and_eq_true_iff.mp (nodeViolation?_eq_none.mp valid)).2
  have len : 3 ≤ (node ++ suffix).length := by
    rw [String.length_append]
    omega
  have absent (c : Char) (hc : ¬ (Name.isSmallAlnum c = true ∨ c = '-' ∨ c = '.'))
      (hs : c ∉ suffix.toList) : c ∉ (node ++ suffix).toList := by
    rw [String.toList_append, List.mem_append]
    rintro (hm | hm)
    · exact hc (letters c hm)
    · exact hs hm
  refine ⟨?_,?_,?_,absent '/' (by decide) no_slash,absent '\x00' (by decide) no_zero⟩ <;>
    (intro h; rw [h] at len; revert len; decide)

theorem isName_fileName {node : String} (valid : nodeViolation? node = none) : IsName (fileName node) :=
  isName_append valid (by decide) (by decide) (by decide)

theorem isName_draftName {node : String} (valid : nodeViolation? node = none) :
    IsName (draftName node) :=
  isName_append valid (by decide) (by decide) (by decide)

/-- A draft never has the name of a file, not even of another node. -/
theorem draftName_ne_fileName (a b : String) : draftName a ≠ fileName b := by
  intro h
  have last := congrArg (fun s : String => s.toList.getLast?) h
  simp [draftName, fileName] at last

theorem fileName_injective {a b : String} (h : fileName a = fileName b) : a = b := by
  have texts := congrArg String.toList h
  simpa [fileName, String.toList_inj] using texts

theorem path?_eq {node : String} (valid : nodeViolation? node = none) (dir : String) :
    path? dir node = .ok (Path.join dir (fileName node)) := by
  simp [path?, valid, fileName]

theorem draftPath_join {node : String} (valid : nodeViolation? node = none) (dir : String) :
    draftPath (Path.join dir (fileName node)) = Path.join dir (draftName node) := by
  have filled : node ≠ "" := by
    rintro rfl
    exact absurd valid (by decide +kernel)
  have file : fileName node = node ++ "." ++ "json" := by
    rw [fileName, String.append_assoc]
    rfl
  have draft : draftName node = node ++ "." ++ "json.tmp" := by
    rw [draftName, String.append_assoc]
    rfl
  exact Path.withEnding_join dir filled (by decide) file (isName_fileName valid) draft
    (isName_draftName valid)

end FileStore

/-! ## Requests -/

inductive Request
  | get (node : String)
  | update (status : NodeStatus)

def Request.node : Request → String
  | get node => node
  | update status => status.node

def Request.written? (node : String) : Request → Option NodeStatus
  | get _ => none
  | update status => if status.node = node then some status else none

/-- The status that was written last for a node; of a node that none was written for, the new one. -/
def Request.latest (node : String) (requests : List Request) : NodeStatus :=
  (requests.reverse.findSome? (written? node)).getD (NodeStatus.new node)

inductive Answer
  | status (r : Except StoreFailure NodeStatus)
  | written (r : Except StoreFailure Unit)

namespace Store
variable {σ τ : Type}

def ask (store : Store σ) (s : σ) : Request → Answer × σ
  | .get node => (.status (store.get node s).1, (store.get node s).2)
  | .update status => (.written (store.update status s).1, (store.update status s).2)

def answers (store : Store σ) : σ → List Request → List Answer
  | _, [] => []
  | s, r :: rest => (store.ask s r).1 :: store.answers (store.ask s r).2 rest

def after (store : Store σ) : σ → List Request → σ
  | s, [] => s
  | s, r :: rest => store.after (store.ask s r).2 rest

/-- A relation of states that every request preserves with equal answers is preserved by all requests
together, with equal answers to each. -/
theorem answers_eq {a : Store σ} {b : Store τ} {Valid : Request → Prop} {Related : σ → τ → Prop}
    (step : ∀ r s t, Valid r → Related s t →
      (a.ask s r).1 = (b.ask t r).1 ∧ Related (a.ask s r).2 (b.ask t r).2)
    {requests : List Request} (valid : ∀ r ∈ requests, Valid r) {s : σ} {t : τ} (h : Related s t) :
    a.answers s requests = b.answers t requests ∧
      Related (a.after s requests) (b.after t requests) := by
  induction requests generalizing s t with
  | nil => exact ⟨rfl,h⟩
  | cons r rest ih =>
    obtain ⟨same,related⟩ := step r s t (valid r List.mem_cons_self) h
    obtain ⟨others,ended⟩ := ih (fun x hx => valid x (List.mem_cons_of_mem r hx)) related
    exact ⟨by rw [answers, answers, same, others],ended⟩

end Store

theorem MemoryStore.find?_after (node : String) (requests : List Request) (s : State) :
    Table.find? (store.after s requests) node =
      (requests.reverse.findSome? (Request.written? node)).or (s.find? node) := by
  induction requests generalizing s with
  | nil => rfl
  | cons r rest ih =>
    rw [Store.after, ih, List.reverse_cons, List.findSome?_append, Option.or_assoc]
    congr 1
    cases r with
    | get => rfl
    | update status =>
      by_cases own : status.node = node
      · subst own
        simp [Store.ask, store, put, Request.written?]
      · simp [Store.ask, store, put, Request.written?, own, Table.find?_insert_of_ne _ _ (Ne.symm own)]

/-! ## The relation -/

open FileStore

/-- The files in a folder say of each node what is kept in memory, and no draft is left. -/
structure Mirrors (dir : String) (reached : List String) (files : FileTree)
    (statuses : MemoryStore.State) : Prop where
  stands : files.Stands dir reached
  file : ∀ node, nodeViolation? node = none →
    files.at? (FileTree.place dir reached (fileName node)) =
      (statuses.find? node).map fun s => .text (content s)
  draft : ∀ node, nodeViolation? node = none →
    files.at? (FileTree.place dir reached (draftName node)) = none

variable {dir : String} {reached : List String} {files : FileTree} {statuses : MemoryStore.State}

theorem Mirrors.of_emptyFolder (fresh : files.IsEmptyFolder dir) (stands : files.Stands dir reached) :
    Mirrors dir reached files Table.empty :=
  ⟨stands,fun _ valid => fresh.at?_place stands (isName_fileName valid),
    fun _ valid => fresh.at?_place stands (isName_draftName valid)⟩

theorem Mirrors.get (h : Mirrors dir reached files statuses) {node : String}
    (valid : nodeViolation? node = none) :
    FileStore.get dir node files = .ok (MemoryStore.get node statuses) := by
  have entry := h.stands.entry (isName_fileName valid)
  rw [h.file node valid] at entry
  simp only [FileStore.get, path?_eq valid, FileTree.readText, entry, MemoryStore.get]
  cases statuses.find? node with
  | none => rfl
  | some s => exact decode_content node s

theorem Mirrors.update (h : Mirrors dir reached files statuses) {status : NodeStatus}
    (valid : nodeViolation? status.node = none) :
    ∃ files', FileStore.update dir status files = (.ok (), files') ∧
      Mirrors dir reached files' (MemoryStore.put status statuses) := by
  have isFile := isName_fileName valid
  have isDraft := isName_draftName valid
  have noFolder : files.at? (FileTree.place dir reached (fileName status.node)) ≠ some .folder := by
    rw [h.file _ valid]
    cases statuses.find? status.node <;> simp
  obtain ⟨files',applied,stands,entries⟩ := h.stands.replace isFile isDraft
    (draftName_ne_fileName _ _) noFolder (by simp [h.draft _ valid]) (content status)
  refine ⟨files',?_,stands,?_,?_⟩
  · simp only [FileStore.update, path?_eq valid, steps, draftPath_join valid, applied]
  · intro node other
    rw [entries]
    by_cases own : node = status.node
    · subst own
      rw [if_pos rfl, MemoryStore.put, Table.find?_insert_self]
      rfl
    · have ne : fileName node ≠ fileName status.node := fun same => own (fileName_injective same)
      rw [if_neg (FileTree.place_injective (isName_fileName other) isFile ne),
        if_neg (FileTree.place_injective (isName_fileName other) isDraft
          (draftName_ne_fileName _ _).symm),
        h.file node other, MemoryStore.put, Table.find?_insert_of_ne _ _ own]
  · intro node other
    rw [entries, if_neg (FileTree.place_injective (isName_draftName other) isFile
      (draftName_ne_fileName _ _))]
    split
    · rfl
    · exact h.draft node other

theorem Mirrors.ask (h : Mirrors dir reached files statuses) {r : Request}
    (valid : nodeViolation? r.node = none) :
    ((FileStore.store dir).ask files r).1 = (MemoryStore.store.ask statuses r).1 ∧
      Mirrors dir reached ((FileStore.store dir).ask files r).2 (MemoryStore.store.ask statuses r).2 := by
  cases r with
  | get node => exact ⟨congrArg Answer.status (h.get valid),h⟩
  | update status =>
    obtain ⟨files',updated,related⟩ := h.update valid
    simp only [Store.ask, FileStore.store, updated]
    exact ⟨rfl,related⟩

/-- Files in a folder that is empty at first answer every sequence of requests for valid names as the
memory does; a status that is looked up is the one that was written last for its node, or new, and
looking it up changes nothing. -/
theorem file_store_refines_memory_store (dir : String) (files : FileTree)
    (fresh : files.IsEmptyFolder dir) (requests : List Request)
    (valid : ∀ r ∈ requests, nodeViolation? r.node = none) :
    (FileStore.store dir).answers files requests =
        MemoryStore.store.answers Table.empty requests ∧
      ∀ node, nodeViolation? node = none →
        (FileStore.store dir).ask ((FileStore.store dir).after files requests) (.get node) =
            (.status (.ok (Request.latest node requests)),
              (FileStore.store dir).after files requests) ∧
          MemoryStore.store.ask (MemoryStore.store.after Table.empty requests) (.get node) =
            (.status (.ok (Request.latest node requests)),
              MemoryStore.store.after Table.empty requests) := by
  obtain ⟨reached,stands⟩ := fresh.stands
  have start := Mirrors.of_emptyFolder fresh stands
  obtain ⟨same,related⟩ := Store.answers_eq
    (fun r s t (v : nodeViolation? r.node = none) (h : Mirrors dir reached s t) => h.ask v) valid start
  refine ⟨same,fun node hn => ?_⟩
  have kept : MemoryStore.get node (MemoryStore.store.after Table.empty requests) =
      Request.latest node requests := by
    rw [MemoryStore.get, MemoryStore.find?_after]
    simp [Request.latest]
  have read := related.get hn
  rw [kept] at read
  exact ⟨congrArg (fun r => (Answer.status r, (store dir).after files requests)) read,
    congrArg (fun s => (Answer.status (.ok s), MemoryStore.store.after Table.empty requests)) kept⟩

def statusFolder : FileTree := ⟨Table.empty.insert "status" .folder⟩

theorem isEmptyFolder_statusFolder : statusFolder.IsEmptyFolder "status" := by
  have stands : statusFolder.Stands "status" ["status"] := ⟨by rfl,by rfl,by decide⟩
  refine ⟨Or.inr (by rfl),fun name hn => ?_⟩
  have below : FileTree.place "status" ["status"] name ≠ "status" := by
    intro h
    have long := congrArg String.length h
    have shorter : "status".length < "status/".length := by decide
    simp [FileTree.place, Path.key, Path.isAbsolute] at long
    omega
  rw [stands.entry hn, FileTree.at?_place _ hn, statusFolder, Table.find?_insert_of_ne _ _ below]
  rfl

def knownStatus : NodeStatus :=
  ⟨"node-1", Table.empty.insert "dns" ⟨.unknown, some "InsufficientPeers", none, .epoch⟩, some .epoch⟩

theorem file_store_refines_memory_store_knownStatus :
    statusFolder.IsEmptyFolder "status" ∧
      (FileStore.store "status").answers statusFolder
          [.get "node-1", .update knownStatus, .get "node-1", .get "node-1.json"] =
        [.status (.ok (NodeStatus.new "node-1")), .written (.ok ()), .status (.ok knownStatus),
          .status (.ok (NodeStatus.new "node-1.json"))] := by
  have same := (file_store_refines_memory_store "status" statusFolder isEmptyFolder_statusFolder
    [.get "node-1", .update knownStatus, .get "node-1", .get "node-1.json"] (by decide +kernel)).1
  exact ⟨isEmptyFolder_statusFolder,by rw [same]; rfl⟩

end HealthProbe
