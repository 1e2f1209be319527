import HealthProbe.NodeStatus.Store
import HealthProbe.Proofs.Last

/-! # Updates that take turns

Each update makes three changes: the folder, the draft, and the draft in its place. When several updates are
under way, their changes come in some course, in which those of one update keep their order. All of them
write one draft, so what matters at a time is whose draft is there and has not been placed yet.
-/
namespace HealthProbe.FileStore

inductive Phase
  | folders | draft | place
  deriving DecidableEq, Repr

def Phase.change (path text : String) : Phase → FileTree.Step
  | folders => .makeFolders (Path.parent path)
  | draft => .write (draftPath path) text
  | place => .rename (draftPath path) path

theorem steps_eq_map (path text : String) :
    steps path text = [.folders, .draft, .place].map (Phase.change path text) := rfl

abbrev Turn (ι : Type) := ι × Phase

variable {ι : Type} {course before after : List (Turn ι)} {i j : ι} {phase : Phase}

def lastTo? (phase : Phase) (course : List (Turn ι)) : Option ι :=
  (last? (·.2 = phase) course).map Prod.fst

/-- The update whose draft has been written and not been placed since. -/
def waiting? (course : List (Turn ι)) : Option ι :=
  ((last? (·.2 ≠ .folders) course).filter (·.2 = .draft)).map Prod.fst

@[simp] theorem waiting?_folders (course : List (Turn ι)) (i : ι) :
    waiting? (course ++ [(i, .folders)]) = waiting? course := by
  simp [waiting?, last?_concat]

@[simp] theorem waiting?_draft (course : List (Turn ι)) (i : ι) :
    waiting? (course ++ [(i, .draft)]) = some i := by
  simp [waiting?, last?_concat]

@[simp] theorem waiting?_place (course : List (Turn ι)) (i : ι) :
    waiting? (course ++ [(i, .place)]) = none := by
  simp [waiting?, last?_concat]

theorem lastTo?_concat (phase : Phase) (course : List (Turn ι)) (turn : Turn ι) :
    lastTo? phase (course ++ [turn]) = if turn.2 = phase then some turn.1 else lastTo? phase course := by
  rw [lastTo?, last?_concat]
  by_cases same : turn.2 = phase <;> simp [same, lastTo?]

theorem lastTo?_eq_some_iff : lastTo? phase course = some i ↔
    ∃ before after, course = before ++ (i, phase) :: after ∧ ∀ turn ∈ after, turn.2 ≠ phase := by
  simp only [lastTo?, Option.map_eq_some_iff, last?_eq_some_iff, decide_eq_true_eq, decide_eq_false_iff_not]
  constructor
  · rintro ⟨⟨_,_⟩,⟨before,after,rfl,rfl,others⟩,rfl⟩
    exact ⟨before,after,rfl,others⟩
  · rintro ⟨before,after,rfl,others⟩
    exact ⟨(i, phase),⟨before,after,rfl,rfl,others⟩,rfl⟩

theorem exists_lastTo? (h : (i, phase) ∈ course) : ∃ j, lastTo? phase course = some j := by
  have found : (last? (·.2 = phase) course).isSome = true := isSome_last?_iff.mpr ⟨_,h,by simp⟩
  obtain ⟨turn,last⟩ := Option.isSome_iff_exists.mp found
  exact ⟨turn.1,by rw [lastTo?, last]; rfl⟩

/-- A draft waits as long as nobody writes another one or places it. -/
theorem waiting?_eq_some_iff : waiting? course = some i ↔
    ∃ before after, course = before ++ (i, .draft) :: after ∧ ∀ turn ∈ after, turn.2 = .folders := by
  simp only [waiting?, Option.map_eq_some_iff, Option.filter_eq_some_iff, last?_eq_some_iff,
    decide_eq_true_eq, decide_eq_false_iff_not, not_not]
  constructor
  · rintro ⟨⟨_,_⟩,⟨⟨before,after,rfl,_,others⟩,rfl⟩,rfl⟩
    exact ⟨before,after,rfl,others⟩
  · rintro ⟨before,after,rfl,others⟩
    exact ⟨(i, .draft),⟨⟨before,after,rfl,nofun,others⟩,rfl⟩,rfl⟩

theorem lastTo?_draft_of_waiting? (h : waiting? course = some i) : lastTo? .draft course = some i := by
  obtain ⟨before,after,rfl,others⟩ := waiting?_eq_some_iff.mp h
  refine lastTo?_eq_some_iff.mpr ⟨before,after,rfl,fun turn later => ?_⟩
  rw [others turn later]
  exact nofun

/-- What comes before a turn of a course, when the course goes on. -/
theorem concat_eq_append_cons {turn other : Turn ι} (h : course ++ [turn] = before ++ other :: after) :
    (course = before ∧ turn = other) ∨ ∃ rest, course = before ++ other :: rest := by
  rcases List.eq_nil_or_concat after with rfl | ⟨rest,last,rfl⟩
  · obtain ⟨same,ends⟩ := List.append_inj' h rfl
    exact .inl ⟨same,List.singleton_inj.mp ends⟩
  · rw [List.concat_eq_append, ← List.cons_append, ← List.append_assoc] at h
    exact .inr ⟨rest,(List.append_inj' h rfl).1⟩

/-! ## Interleavings -/

variable [DecidableEq ι]

def turnsOf (i : ι) (course : List (Turn ι)) : List Phase :=
  (course.filter (·.1 = i)).map Prod.snd

/-- Every update makes all its changes in their order, whatever the others do in between. -/
def Interleaves (course : List (Turn ι)) : Prop := ∀ i, turnsOf i course = [.folders, .draft, .place]

theorem mem_turnsOf_iff : phase ∈ turnsOf i course ↔ (i, phase) ∈ course := by
  simp [turnsOf]

/-- What an update has done before a turn and what it has still to do after it. -/
theorem Interleaves.around (h : Interleaves (before ++ (i, phase) :: after)) :
    (turnsOf i before = [] ∧ phase = .folders ∧ turnsOf i after = [.draft, .place]) ∨
    (turnsOf i before = [.folders] ∧ phase = .draft ∧ turnsOf i after = [.place]) ∨
    (turnsOf i before = [.folders, .draft] ∧ phase = .place ∧ turnsOf i after = []) := by
  have whole : turnsOf i before ++ phase :: turnsOf i after = [.folders, .draft, .place] := by
    rw [← h i]
    simp [turnsOf]
  revert whole
  rcases turnsOf i before with _ | ⟨first,_ | ⟨second,_ | ⟨third,rest⟩⟩⟩ <;> simp +contextual

theorem Interleaves.place_not_mem_before (h : Interleaves (before ++ (i, phase) :: after)) :
    (i, .place) ∉ before := by
  rw [← mem_turnsOf_iff]
  rcases h.around with ⟨done,_⟩ | ⟨done,_⟩ | ⟨done,_⟩ <;> simp [done]

theorem Interleaves.draft_mem_before (h : Interleaves (before ++ (i, .place) :: after)) :
    (i, .draft) ∈ before := by
  rw [← mem_turnsOf_iff]
  rcases h.around with ⟨_,wrong,_⟩ | ⟨_,wrong,_⟩ | ⟨done,_⟩
  · cases wrong
  · cases wrong
  · simp [done]

theorem Interleaves.mem (h : Interleaves course) (i : ι) (phase : Phase) : (i, phase) ∈ course := by
  rw [← mem_turnsOf_iff, h i]
  cases phase <;> decide

end HealthProbe.FileStore
