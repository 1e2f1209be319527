import HealthProbe.Proofs.NodeStatus.Refinement
import HealthProbe.Proofs.Pass.Verdicts

/-! # The status of a node after its passes

Whatever passes went before, what stands under the name of a checker is the verdict of the last pass on
the node that ran it, and what no pass ran stands as it did. A pass that crashed has no verdicts and has left
everything as it was. This is shown once for all stores that keep a status under its own node, and the
stores in memory and in files are two of these.
-/
namespace HealthProbe

/-! ## One pass -/

namespace Pass

def moment (p : Pass) (start : Nat) : Time.Stamp :=
  p.clock (((p.trialsFrom start).getLast?.map Trial.stop).getD start)

def outcome (p : Pass) (refusal? : String → Option StoreFailure) (start : Nat) :
    Except Failure (Table Verdict) :=
  match p.results start with
  | .error words => .error (.crashed 0 words)
  | .ok results =>
    match refusal? p.node with
    | some e => .error (.store e)
    | none => .ok results

def Ran (p : Pass) (start : Nat) (node name : String) : Prop :=
  p.node = node ∧ name ∈ p.checkers.map Checker.name ∧ ∃ results, p.results start = .ok results

variable {σ : Type} {store : Store σ} {p : Pass} {start : Nat} {name node words : String}
  {results : Table Verdict}

theorem perform_of_crash (store : Store σ) (came : p.results start = .error words) (s : σ) :
    (p.perform store start s).1.outcome = .error (.crashed 0 words) ∧
      (p.perform store start s).2 = s := by
  have crashed : verdicts p.checkers (p.retries.trials p.limits p.checkers start) = .error words := came
  simp only [perform, crashed, and_self]

/-- A pass that has come to results writes them down, and fails as this fails. -/
theorem perform_of_results (store : Store σ) (came : p.results start = .ok results) (s : σ) :
    ((p.perform store start s).1.outcome =
        match (writeDown store p.node results (p.moment start) s).1 with
        | .error e => .error (.store e)
        | .ok () => .ok results) ∧
      (p.perform store start s).2 = (writeDown store p.node results (p.moment start) s).2 := by
  have whole : verdicts p.checkers (p.retries.trials p.limits p.checkers start) = .ok results := came
  simp only [perform, whole, moment, trialsFrom]
  split <;> rename_i written <;> rw [written] <;> exact ⟨rfl,rfl⟩

end Pass

/-! ## A history of passes -/

structure Result.Tells (r : Result) (v : Verdict) : Prop where
  health : r.health = v.health
  code : r.code = v.code?
  message : r.message = v.message?

theorem Verdict.tells_result (v : Verdict) (moment : Time.Stamp) : (v.result moment).Tells v :=
  ⟨rfl,rfl,rfl⟩

/-- A status that has taken in results: they stand under their names, and all other names have what they
had. -/
structure NodeStatus.Takes (results : Table Verdict) (before after : NodeStatus) : Prop where
  node : after.node = before.node
  told : ∀ name v, results.find? name = some v → ∃ r, after.results.find? name = some r ∧ r.Tells v
  kept : ∀ name, results.find? name = none → after.results.find? name = before.results.find? name

theorem NodeStatus.takes_merge (s : NodeStatus) (results : Table Verdict) (moment : Time.Stamp) :
    Takes results s (s.merge results moment) := by
  refine ⟨s.node_merge results moment,?_,?_⟩
  · intro name v found
    have entry := s.find?_merge results moment name
    rw [found] at entry
    exact ⟨_,entry,v.tells_result moment⟩
  · intro name absent
    rw [find?_merge, absent]
    rfl

abbrev History := List (Pass × Nat)

namespace History

/-- The entry that stands for a checker of a node after a history, and the one that stood before it. -/
structure Explains (history : History) (node name : String) (before after : Option Result) : Prop where
  latest : ∀ early p start late, history = early ++ (p, start) :: late → p.Ran start node name →
    (∀ q ∈ late, ¬ q.1.Ran q.2 node name) → ∃ results v r, p.results start = .ok results ∧
      results.find? name = some v ∧ after = some r ∧ r.Tells v
  kept : (∀ q ∈ history, ¬ q.1.Ran q.2 node name) → after = before

variable {history : History} {p : Pass} {start : Nat} {node name : String}
  {before between after : Option Result}

theorem Explains.nil : Explains [] node name before before :=
  ⟨fun early p start late h => by simp at h,fun _ => rfl⟩

theorem Explains.cons (ran : p.Ran start node name → ∃ results v r, p.results start = .ok results ∧
      results.find? name = some v ∧ between = some r ∧ r.Tells v)
    (not_ran : ¬ p.Ran start node name → between = before)
    (h : Explains history node name between after) :
    Explains ((p, start) :: history) node name before after := by
  refine ⟨?_,?_⟩
  · intro early q instant late split hq hlate
    cases early with
    | nil =>
      cases split
      rw [h.kept hlate]
      exact ran hq
    | cons e early =>
      cases split
      exact h.latest early q instant late rfl hq hlate
  · intro none
    obtain ⟨hp,hrest⟩ := List.forall_mem_cons.mp none
    exact (h.kept hrest).trans (not_ran hp)

end History

/-! ## Stores that keep statuses by node -/

/-- A store in which every node that it does not refuse has a status of its own: looking it up changes
nothing, and writing one replaces it and no other. -/
structure Store.Keeps {σ : Type} (store : Store σ) (refusal? : String → Option StoreFailure)
    (Sound : σ → Prop) (status : σ → String → NodeStatus) : Prop where
  own : ∀ s node, Sound s → refusal? node = none → (status s node).node = node
  get : ∀ s node, Sound s → refusal? node = none → store.get node s = (.ok (status s node), s)
  refuse : ∀ s node e, refusal? node = some e → store.get node s = (.error e, s)
  update : ∀ s new, Sound s → refusal? new.node = none →
    ∃ s', store.update new s = (.ok (), s') ∧ Sound s' ∧ status s' new.node = new ∧
      ∀ node, refusal? node = none → node ≠ new.node → status s' node = status s node

namespace Store
variable {σ : Type} {store : Store σ} {refusal? : String → Option StoreFailure} {Sound : σ → Prop}
  {status : σ → String → NodeStatus} {s : σ} {node : String}

def afterPasses (store : Store σ) : History → σ → σ
  | [], s => s
  | (p, start) :: rest, s => store.afterPasses rest (p.perform store start s).2

def outcomes (store : Store σ) : History → σ → List (Except Failure (Table Verdict))
  | [], _ => []
  | (p, start) :: rest, s =>
    (p.perform store start s).1.outcome :: store.outcomes rest (p.perform store start s).2

theorem Keeps.writeDown (h : store.Keeps refusal? Sound status) (sound : Sound s)
    (valid : refusal? node = none) (results : Table Verdict) (moment : Time.Stamp) :
    ∃ s', Pass.writeDown store node results moment s = (.ok (), s') ∧ Sound s' ∧
      status s' node = (status s node).merge results moment ∧
      ∀ other, refusal? other = none → other ≠ node → status s' other = status s other := by
  have hown : ((status s node).merge results moment).node = node := h.own s node sound valid
  obtain ⟨s',updated,sound',own,others⟩ :=
    h.update s ((status s node).merge results moment) sound (hown.symm ▸ valid)
  rw [hown] at own others
  refine ⟨s',?_,sound',own,others⟩
  simp only [Pass.writeDown, h.get s node sound valid]
  exact updated

theorem Keeps.writeDown_refused (h : store.Keeps refusal? Sound status) {e : StoreFailure}
    (refused : refusal? node = some e) (results : Table Verdict) (moment : Time.Stamp) :
    Pass.writeDown store node results moment s = (.error e, s) := by
  simp only [Pass.writeDown, h.refuse s node e refused]

theorem Keeps.perform_of_results (h : store.Keeps refusal? Sound status) (sound : Sound s) {p : Pass}
    {start : Nat} {results : Table Verdict} (came : p.results start = .ok results) :
    (p.perform store start s).1.outcome = p.outcome refusal? start ∧
    Sound (p.perform store start s).2 ∧ ∀ node, refusal? node = none →
      status (p.perform store start s).2 node =
        if p.node = node then (status s node).merge results (p.moment start) else status s node := by
  obtain ⟨outcome,state⟩ := p.perform_of_results store came s
  rw [outcome, state, Pass.outcome, came]
  cases hp : refusal? p.node with
  | none =>
    obtain ⟨s',written,sound',own,others⟩ := h.writeDown sound hp results (p.moment start)
    rw [written]
    refine ⟨rfl,sound',?_⟩
    intro node hnode
    split
    · rename_i same
      exact same ▸ own
    · rename_i ne
      exact others node hnode (Ne.symm ne)
  | some e =>
    rw [h.writeDown_refused hp]
    refine ⟨rfl,sound,?_⟩
    intro node hnode
    rw [if_neg]
    intro same
    rw [same, hnode] at hp
    cases hp

theorem Keeps.perform (h : store.Keeps refusal? Sound status) (sound : Sound s) (p : Pass)
    (start : Nat) :
    (p.perform store start s).1.outcome = p.outcome refusal? start ∧
    Sound (p.perform store start s).2 ∧ ∀ node, refusal? node = none → ∀ name,
      (p.Ran start node name → ∃ results v r, p.results start = .ok results ∧
        results.find? name = some v ∧
        (status (p.perform store start s).2 node).results.find? name = some r ∧ r.Tells v) ∧
      (¬ p.Ran start node name → (status (p.perform store start s).2 node).results.find? name =
        (status s node).results.find? name) := by
  cases came : p.results start with
  | error words =>
    obtain ⟨outcome,state⟩ := p.perform_of_crash store came s
    rw [outcome, state, Pass.outcome, came]
    refine ⟨rfl,sound,?_⟩
    intro node _ name
    refine ⟨?_,fun _ => rfl⟩
    rintro ⟨_,_,_,whole⟩
    rw [came] at whole
    cases whole
  | ok results =>
    obtain ⟨outcome,sound',change⟩ := h.perform_of_results sound came
    have sums := p.sums_results start
    rw [came] at sums
    refine ⟨outcome,sound',?_⟩
    intro node hnode name
    rw [change node hnode]
    constructor
    · rintro ⟨rfl,runs,_⟩
      obtain ⟨v,found⟩ := Option.isSome_iff_exists.mp (sums.isSome_iff.mpr runs)
      refine ⟨results,v,v.result (p.moment start),rfl,found,?_,v.tells_result _⟩
      rw [if_pos rfl, NodeStatus.find?_merge, found]
      rfl
    · intro not_ran
      split
      · rename_i same
        have absent : results.find? name = none := by
          rw [← Option.not_isSome_iff_eq_none, sums.isSome_iff]
          exact fun runs => not_ran ⟨same,runs,results,came⟩
        rw [NodeStatus.find?_merge, absent]
        rfl
      · rfl

theorem Keeps.outcomes_eq (h : store.Keeps refusal? Sound status) (history : History)
    (sound : Sound s) :
    store.outcomes history s = history.map fun e => e.1.outcome refusal? e.2 := by
  induction history generalizing s with
  | nil => rfl
  | cons entry history ih =>
    obtain ⟨p,start⟩ := entry
    obtain ⟨houtcome,sound',_⟩ := h.perform sound p start
    rw [outcomes, houtcome, ih sound', List.map_cons]

theorem Keeps.perform_refused (h : store.Keeps refusal? Sound status) {p : Pass} {e : StoreFailure}
    (refused : refusal? p.node = some e) (start : Nat) : (p.perform store start s).2 = s := by
  cases came : p.results start with
  | error words => exact (p.perform_of_crash store came s).2
  | ok results => rw [(p.perform_of_results store came s).2, h.writeDown_refused refused]

/-- A pass that is refused leaves everything as it was. -/
theorem Keeps.afterPasses_filter (h : store.Keeps refusal? Sound status) (history : History)
    (sound : Sound s) :
    store.afterPasses (history.filter fun e => (refusal? e.1.node).isNone) s =
      store.afterPasses history s := by
  induction history generalizing s with
  | nil => rfl
  | cons entry history ih =>
    obtain ⟨p,start⟩ := entry
    cases hp : refusal? p.node with
    | none =>
      obtain ⟨_,sound',_⟩ := h.perform sound p start
      rw [List.filter_cons_of_pos (by simp [hp])]
      exact ih sound'
    | some e => rw [List.filter_cons_of_neg (by simp [hp]), ih sound, afterPasses, h.perform_refused hp]

/-- What one pass does to an entry is explained by that pass, and so is what all of them do by all. -/
theorem Keeps.explains_afterPasses (h : store.Keeps refusal? Sound status) (history : History)
    (sound : Sound s) :
    Sound (store.afterPasses history s) ∧ ∀ node, refusal? node = none → ∀ name,
      history.Explains node name ((status s node).results.find? name)
        ((status (store.afterPasses history s) node).results.find? name) := by
  induction history generalizing s with
  | nil => exact ⟨sound,fun _ _ _ => .nil⟩
  | cons entry history ih =>
    obtain ⟨p,start⟩ := entry
    obtain ⟨_,sound',change⟩ := h.perform sound p start
    obtain ⟨sound'',rest⟩ := ih sound'
    refine ⟨sound'',?_⟩
    intro node hnode name
    obtain ⟨ran,not_ran⟩ := change node hnode name
    exact .cons ran not_ran (rest node hnode name)

end Store

/-! ## Statuses in memory -/

namespace MemoryStore

def Filed (s : State) : Prop := ∀ node status, s.find? node = some status → status.node = node

variable {s : State} {node : String}

theorem filed_empty : Filed Table.empty := by
  intro node status h
  cases h

theorem Filed.put (h : Filed s) (new : NodeStatus) : Filed (put new s) := by
  intro node status hs
  by_cases own : node = new.node
  · subst own
    rw [MemoryStore.put, Table.find?_insert_self] at hs
    cases hs
    rfl
  · rw [MemoryStore.put, Table.find?_insert_of_ne _ _ own] at hs
    exact h node status hs

theorem Filed.putAll (h : Filed s) (statuses : List NodeStatus) :
    Filed (statuses.foldl (fun s new => MemoryStore.put new s) s) := by
  induction statuses generalizing s with
  | nil => exact h
  | cons new statuses ih => exact ih (h.put new)

theorem Filed.node_get (h : Filed s) (node : String) : (get node s).node = node := by
  rw [get]
  cases hs : s.find? node with
  | none => rfl
  | some status => exact h node status hs

theorem keeps : store.Keeps (fun _ => none) Filed (fun s node => get node s) := by
  refine ⟨fun s node h _ => h.node_get node,fun _ _ _ _ => rfl,?_,?_⟩
  · intro s node e h
    cases h
  · intro s new h _
    refine ⟨put new s,rfl,h.put new,?_,?_⟩
    · simp [get, put]
    · intro node _ ne
      simp only [get, put, Table.find?_insert_of_ne _ _ ne]

def entry? (node name : String) (s : State) : Option Result :=
  (s.find? node).bind fun status => status.results.find? name

theorem find?_results_get (node name : String) (s : State) :
    (get node s).results.find? name = entry? node name s := by
  rw [get, entry?]
  cases s.find? node with
  | none => rfl
  | some status => rfl

end MemoryStore

/-! ## Statuses in files -/

namespace FileStore

/-- A name that is not valid has no file. -/
def refusal? (node : String) : Option StoreFailure :=
  (nodeViolation? node).map fun v => .read node v.message

theorem refusal?_eq_none_iff {node : String} : refusal? node = none ↔ nodeViolation? node = none :=
  Option.map_eq_none_iff

/-- The files say the same as statuses that are each kept under their own node. -/
def Filed (dir : String) (files : FileTree) : Prop :=
  ∃ reached statuses, Mirrors dir reached files statuses ∧ MemoryStore.Filed statuses

def status (dir : String) (files : FileTree) (node : String) : NodeStatus :=
  (get dir node files).toOption.getD (NodeStatus.new node)

def entry? (dir node name : String) (files : FileTree) : Option Result :=
  (get dir node files).toOption.bind fun status => status.results.find? name

theorem get_of_violation {node : String} {v : Violation} (h : nodeViolation? node = some v)
    (dir : String) (files : FileTree) : get dir node files = .error (.read node v.message) := by
  simp [get, path?, h]

theorem status_of_mirrors {dir node : String} {reached : List String} {files : FileTree}
    {statuses : MemoryStore.State} (h : Mirrors dir reached files statuses)
    (valid : nodeViolation? node = none) : status dir files node = MemoryStore.get node statuses := by
  rw [status, h.get valid]
  rfl

theorem keeps (dir : String) : (store dir).Keeps refusal? (Filed dir) (status dir) := by
  refine ⟨?_,?_,?_,?_⟩
  · rintro files node ⟨reached,statuses,mirrors,filed⟩ valid
    rw [status_of_mirrors mirrors (refusal?_eq_none_iff.mp valid)]
    exact filed.node_get node
  · rintro files node ⟨reached,statuses,mirrors,filed⟩ valid
    have hnode := refusal?_eq_none_iff.mp valid
    rw [status_of_mirrors mirrors hnode]
    exact congrArg (fun r => (r, files)) (mirrors.get hnode)
  · intro files node e refused
    obtain ⟨v,hv,rfl⟩ := Option.map_eq_some_iff.mp refused
    exact congrArg (fun r => (r, files)) (get_of_violation hv dir files)
  · rintro files new ⟨reached,statuses,mirrors,filed⟩ valid
    have hnew := refusal?_eq_none_iff.mp valid
    obtain ⟨files',updated,mirrors'⟩ := mirrors.update hnew
    refine ⟨files',updated,⟨reached,_,mirrors',filed.put new⟩,?_,?_⟩
    · rw [status_of_mirrors mirrors' hnew]
      simp [MemoryStore.get, MemoryStore.put]
    · intro node other ne
      have hnode := refusal?_eq_none_iff.mp other
      rw [status_of_mirrors mirrors' hnode, status_of_mirrors mirrors hnode]
      simp only [MemoryStore.get, MemoryStore.put, Table.find?_insert_of_ne _ _ ne]

theorem filed_of_emptyFolder {dir : String} {files : FileTree} (fresh : files.IsEmptyFolder dir) :
    Filed dir files ∧
      ∀ node, nodeViolation? node = none → status dir files node = NodeStatus.new node := by
  obtain ⟨reached,stands⟩ := fresh.stands
  have mirrors := Mirrors.of_emptyFolder fresh stands
  exact ⟨⟨reached,_,mirrors,MemoryStore.filed_empty⟩,fun node valid => status_of_mirrors mirrors valid⟩

theorem get_of_filed {dir node : String} {files : FileTree} (h : Filed dir files)
    (valid : nodeViolation? node = none) : get dir node files = .ok (status dir files node) := by
  obtain ⟨reached,statuses,mirrors,_⟩ := h
  rw [status_of_mirrors mirrors valid]
  exact mirrors.get valid

end FileStore

/-- After any history of passes, over statuses that were kept in memory before or over a folder that was
empty, the entry of a checker of a node tells the verdict of the last pass on the node that ran it; where
no pass did, it is the entry from before. Each status is kept under its own node, with one entry for each
name. In memory every pass that no checker crashes succeeds; with files a pass on a node whose name is not
valid is refused and leaves everything as it was, and there is no status of such a node. -/
theorem latest_results_stand :
    (∀ (earlier : List NodeStatus) (history : History),
      let before := earlier.foldl (fun s new => MemoryStore.put new s) Table.empty
      let after := MemoryStore.store.afterPasses history before
      MemoryStore.store.outcomes history before = history.map (fun e => e.1.outcome (fun _ => none) e.2) ∧
      (∀ node name, history.Explains node name (MemoryStore.entry? node name before)
        (MemoryStore.entry? node name after)) ∧
      ∀ node status, Table.find? after node = some status →
        status.node = node ∧ status.results.names.Nodup) ∧
    (∀ (dir : String) (files : FileTree), files.IsEmptyFolder dir → ∀ history : History,
      let after := (FileStore.store dir).afterPasses history files
      (FileStore.store dir).outcomes history files =
        history.map (fun e => e.1.outcome FileStore.refusal? e.2) ∧
      after = (FileStore.store dir).afterPasses
        (history.filter fun e => (FileStore.refusal? e.1.node).isNone) files ∧
      (∀ node, nodeViolation? node = none → ∃ status, FileStore.get dir node after = .ok status ∧
        status.node = node ∧ status.results.names.Nodup ∧
        ∀ name, history.Explains node name none (status.results.find? name)) ∧
      ∀ node v, nodeViolation? node = some v →
        FileStore.get dir node after = .error (.read node v.message)) := by
  refine ⟨?_,?_⟩
  · intro earlier history
    have filed := MemoryStore.filed_empty.putAll earlier
    obtain ⟨filed',explains⟩ := MemoryStore.keeps.explains_afterPasses history filed
    refine ⟨MemoryStore.keeps.outcomes_eq history filed,?_,?_⟩
    · intro node name
      have entry := explains node rfl name
      rwa [MemoryStore.find?_results_get, MemoryStore.find?_results_get] at entry
    · intro node status h
      exact ⟨filed' node status h,status.results.nodup_names⟩
  · intro dir files fresh history
    obtain ⟨filed,new⟩ := FileStore.filed_of_emptyFolder fresh
    obtain ⟨filed',explains⟩ := (FileStore.keeps dir).explains_afterPasses history filed
    refine ⟨(FileStore.keeps dir).outcomes_eq history filed,
      ((FileStore.keeps dir).afterPasses_filter history filed).symm,?_,
      fun node v violation => FileStore.get_of_violation violation dir _⟩
    intro node valid
    have hnode := FileStore.refusal?_eq_none_iff.mpr valid
    refine ⟨_,FileStore.get_of_filed filed' valid,(FileStore.keeps dir).own _ node filed' hnode,
      Table.nodup_names _,?_⟩
    intro name
    have entry := explains node hnode name
    rwa [new node valid] at entry

def twoCheckers : Pass :=
  ⟨"first", "node-1", ⟨1, 0⟩, Table.empty,
    [.constant "dns" (.error (.probe "no answer")), .constant "links" (.ok .healthy)], fun _ => .epoch⟩

def oneChecker (node : String) : Pass :=
  ⟨"later", node, ⟨1, 0⟩, Table.empty, [.constant "dns" (.ok .healthy)], fun _ => .epoch⟩

/-- Between the passes on one node stands one on a node that can have no file. -/
theorem latest_results_stand_twoCheckers :
    statusFolder.IsEmptyFolder "status" ∧ nodeViolation? "node-1" = none ∧
      ∃ status dns links, FileStore.get "status" "node-1" ((FileStore.store "status").afterPasses
          [(twoCheckers, 0), (oneChecker "Node_2", 5), (oneChecker "node-1", 9)] statusFolder) =
            .ok status ∧
        status.results.find? "dns" = some dns ∧ dns.Tells .healthy ∧
        status.results.find? "links" = some links ∧ links.Tells .healthy ∧
        status.results.find? "disk" = none := by
  have valid : nodeViolation? "node-1" = none := by decide +kernel
  obtain ⟨_,_,stored,_⟩ := latest_results_stand.2 "status" statusFolder isEmptyFolder_statusFolder
    [(twoCheckers, 0), (oneChecker "Node_2", 5), (oneChecker "node-1", 9)]
  obtain ⟨status,got,_,_,explains⟩ := stored "node-1" valid
  have recovered : (oneChecker "node-1").results 9 = .ok (Table.empty.insert "dns" .healthy) := by
    decide +kernel
  have both : twoCheckers.results 0 = .ok (Table.ofList
      [("dns", Retries.failedVerdict 1 (.probe "no answer")), ("links", .healthy)]) := by decide +kernel
  have found : (Table.ofList [("dns", Retries.failedVerdict 1 (.probe "no answer")),
      ("links", .healthy)]).find? "links" = some .healthy := by decide +kernel
  obtain ⟨_,v,dns,hlater,hv,hdns,tells⟩ := (explains "dns").latest [_, _] _ 9 [] rfl
    ⟨rfl,by decide +kernel,_,recovered⟩ (by simp)
  obtain ⟨_,w,links,hfirst,hw,hlinks,tells'⟩ := (explains "links").latest [] twoCheckers 0 _ rfl
    ⟨rfl,by decide +kernel,_,both⟩ (by simp [Pass.Ran, oneChecker, Checker.constant])
  cases recovered.symm.trans hlater
  cases both.symm.trans hfirst
  obtain rfl : Verdict.healthy = v := Option.some.inj hv
  obtain rfl : Verdict.healthy = w := Option.some.inj (found.symm.trans hw)
  refine ⟨isEmptyFolder_statusFolder,valid,status,dns,links,got,hdns,tells,hlinks,tells',?_⟩
  exact (explains "disk").kept (by simp [Pass.Ran, oneChecker, twoCheckers, Checker.constant])

/-- A pass on a node that can have no file runs its checker, and no entry tells what came of it. -/
theorem refused_pass_leaves_no_entry :
    statusFolder.IsEmptyFolder "status" ∧ (oneChecker "Node_2").Ran 5 "Node_2" "dns" ∧
      ¬ History.Explains [(oneChecker "Node_2", 5)] "Node_2" "dns" none
        (FileStore.entry? "status" "Node_2" "dns"
          ((FileStore.store "status").afterPasses [(oneChecker "Node_2", 5)] statusFolder)) := by
  have ran : (oneChecker "Node_2").Ran 5 "Node_2" "dns" := by
    have came : (oneChecker "Node_2").results 5 = .ok (Table.empty.insert "dns" .healthy) := by
      decide +kernel
    exact ⟨rfl,by decide +kernel,_,came⟩
  refine ⟨isEmptyFolder_statusFolder,ran,?_⟩
  intro explains
  obtain ⟨_,_,r,_,_,stored,_⟩ := explains.latest [] _ 5 [] rfl ran (by simp)
  have violation : nodeViolation? "Node_2" = some (.badNode "Node_2") := by decide +kernel
  rw [FileStore.entry?, FileStore.get_of_violation violation] at stored
  cases stored

end HealthProbe
