import HealthProbe.Proofs.Files.Change

/-! # Rooted trees

In a tree of files that has grown from the empty one everything stands in a folder. Every change keeps it so,
since it reaches the place that it changes through folders only, and takes no folder away.
-/
namespace HealthProbe.FileTree
open HealthProbe.Path (IsName)

variable {t t' : FileTree} {path name key : String} {absolute : Bool} {reached start xs : List String}

/-- Whatever stands below a place stands in a folder there. -/
def Rooted (t : FileTree) : Prop :=
  ∀ above name, IsName name → t.at? (above ++ "/" ++ name) ≠ none → t.at? above = some .folder

theorem at?_key_nil (t : FileTree) (absolute : Bool) :
    t.at? (Path.key absolute []) = some .folder := by
  rw [at?, Path.key_nil]
  rfl

theorem Rooted.folder_of_child (h : t.Rooted) (hn : IsName name)
    (there : t.at? (Path.key absolute (reached ++ [name])) ≠ none) :
    t.at? (Path.key absolute reached) = some .folder := by
  cases reached with
  | nil => exact t.at?_key_nil absolute
  | cons r rs =>
    rw [Path.key_concat (List.cons_ne_nil r rs)] at there
    exact h _ _ hn there

/-- Below a place where nothing stands nothing stands. -/
theorem Rooted.absent_below (h : t.Rooted) (names : ∀ x ∈ xs, IsName x)
    (absent : t.at? (Path.key absolute reached) = none) :
    t.at? (Path.key absolute (reached ++ xs)) = none := by
  induction xs generalizing reached with
  | nil => rwa [List.append_nil]
  | cons x xs ih =>
    obtain ⟨hx,rest⟩ := List.forall_mem_cons.mp names
    rw [List.append_cons]
    refine ih rest (Classical.byContradiction fun there => ?_)
    have folder := h.folder_of_child hx there
    rw [absent] at folder
    cases folder

/-! ## Places that are reached through folders -/

structure Descends (t : FileTree) (absolute : Bool) (reached : List String) : Prop where
  folders : ∀ p q, reached = p ++ q → q ≠ [] → t.at? (Path.key absolute p) = some .folder
  plain : ∀ x ∈ reached, '/' ∉ x.toList

theorem descends_nil (t : FileTree) (absolute : Bool) : t.Descends absolute [] := by
  refine ⟨?_,nofun⟩
  intro p q split filled
  exact absurd (List.append_eq_nil_iff.mp split.symm).2 filled

theorem Descends.of_folders (h : t.Descends absolute reached)
    (kept : ∀ key, t.at? key = some .folder → t'.at? key = some .folder) :
    t'.Descends absolute reached :=
  ⟨fun p q split filled => kept _ (h.folders p q split filled),h.plain⟩

theorem Descends.concat (h : t.Descends absolute reached)
    (folder : t.at? (Path.key absolute reached) = some .folder) {x : String} (plain : '/' ∉ x.toList) :
    t.Descends absolute (reached ++ [x]) := by
  constructor
  · intro p q split filled
    obtain ⟨q,last,rfl⟩ := (List.eq_nil_or_concat q).resolve_left filled
    rw [List.concat_eq_append, ← List.append_assoc] at split
    have front := (List.append_inj' split rfl).1
    rcases List.eq_nil_or_concat q with rfl | more
    · rw [List.append_nil] at front
      rwa [← front]
    · refine h.folders p q front ?_
      rintro rfl
      simp at more
  · intro y hy
    rcases List.mem_append.mp hy with hy | hy
    · exact h.plain y hy
    · rwa [List.mem_singleton.mp hy]

theorem Descends.dropLast (h : t.Descends absolute reached) : t.Descends absolute reached.dropLast := by
  rcases List.eq_nil_or_concat reached with rfl | ⟨front,x,rfl⟩
  · exact h
  rw [List.concat_eq_append] at h ⊢
  rw [List.dropLast_concat]
  refine ⟨?_,fun y hy => h.plain y (List.mem_append_left _ hy)⟩
  intro p q split filled
  refine h.folders p (q ++ [x]) ?_ (by simp)
  rw [split, List.append_assoc]

theorem Descends.further (h : t.Descends absolute reached)
    (folder : t.at? (Path.key absolute reached) = some .folder) {x : String} (plain : '/' ∉ x.toList) :
    t.Descends absolute (further absolute reached x) := by
  unfold FileTree.further
  split
  · split
    · split
      · exact h
      · exact h.concat folder (by decide)
    · exact h.dropLast
  · exact h.concat folder plain

theorem Descends.walk (h : t.Descends absolute start) (plain : ∀ x ∈ xs, '/' ∉ x.toList)
    (walked : t.walk absolute start xs = .ok reached) : t.Descends absolute reached := by
  induction xs generalizing start with
  | nil =>
    cases walked
    exact h
  | cons x xs ih =>
    obtain ⟨hx,rest⟩ := List.forall_mem_cons.mp plain
    have folder := folder_of_walk_cons walked
    simp only [FileTree.walk, folder] at walked
    exact ih (h.further folder hx) rest walked

theorem descends_of_locate (h : t.locate path = .ok key) :
    ∃ absolute reached, t.Descends absolute reached ∧ key = Path.key absolute reached := by
  obtain ⟨reached,walked,rfl,_⟩ := locate_eq_ok h
  exact ⟨_,reached,(descends_nil t _).walk (fun x hx => Path.slash_not_mem_of_mem_steps hx) walked,rfl⟩

/-- What is above a place that has been reached is a folder. -/
theorem Descends.folder_above (h : t.Descends absolute reached) {above : String} (hn : IsName name)
    (own : Path.key absolute reached = above ++ "/" ++ name) : t.at? above = some .folder := by
  rcases List.eq_nil_or_concat reached with rfl | ⟨p,x,rfl⟩
  · have shorter := congrArg String.length own
    have top : (Path.key absolute []).length ≤ 1 := by cases absolute <;> decide
    have filled : name.length ≠ 0 := fun empty => hn.ne_empty (by simpa using empty)
    simp only [String.length_append] at shorter
    have slash : "/".length = 1 := by decide
    omega
  rw [List.concat_eq_append] at h own
  have plain := h.plain x (by simp)
  cases p with
  | nil =>
    cases absolute with
    | false =>
      have whole : x = above ++ "/" ++ name := by simpa [Path.key] using own
      exact absurd (by simp [whole]) plain
    | true =>
      have whole : "" ++ "/" ++ x = above ++ "/" ++ name := by simpa [Path.key] using own
      rw [← Path.slash_injective plain hn.no_slash whole]
      exact t.at?_key_nil false
  | cons y ys =>
    rw [Path.key_concat (List.cons_ne_nil y ys)] at own
    rw [← Path.slash_injective plain hn.no_slash own]
    exact h.folders (y :: ys) [x] rfl (List.cons_ne_nil x [])

/-! ## Changes keep a tree rooted -/

theorem rooted_empty : Rooted empty := by
  intro above name hn there
  have last : (Path.steps (above ++ "/" ++ name)).2 = Path.stepsOf above.toList ++ [name] := by
    have text : (above ++ "/" ++ name).toList = above.toList ++ ['/'] ++ name.toList := by simp
    rw [Path.steps_eq, text, Path.stepsOf_front (Or.inr ⟨_,rfl⟩) hn, Path.stepsOf_append_slash]
  have below : (Path.steps (above ++ "/" ++ name)).2.all (· == "..") = false := by
    simp [last, hn.ne_back]
  rw [at?, below] at there
  exact absurd rfl there

theorem Rooted.insert (h : t.Rooted) {e : FileEntry}
    (parent : ∀ above name, IsName name → key = above ++ "/" ++ name → t.at? above = some .folder)
    (kept : t.at? key = some .folder → e = .folder) : Rooted ⟨t.entries.insert key e⟩ := by
  intro above name hn there
  have folder : t.at? above = some .folder := by
    by_cases own : above ++ "/" ++ name = key
    · exact parent above name hn own.symm
    · rw [at?_insert_of_ne own] at there
      exact h above name hn there
  by_cases same : above = key
  · subst same
    rw [kept folder]
    exact at?_insert_folder_self t above
  · rwa [at?_insert_of_ne same]

theorem at?_erase_self (free : t.at? key ≠ some .folder) :
    (FileTree.mk (t.entries.erase key)).at? key = none := by
  unfold at? at free ⊢
  split at free
  · exact absurd rfl free
  · rename_i below
    rw [if_neg below, Table.find?_erase, if_pos rfl]

theorem Rooted.erase (h : t.Rooted) (free : t.at? key ≠ some .folder) :
    Rooted ⟨t.entries.erase key⟩ := by
  intro above name hn there
  have other : above ++ "/" ++ name ≠ key := by
    rintro rfl
    exact there (at?_erase_self free)
  rw [at?_erase_of_ne other] at there
  have folder := h above name hn there
  have kept : above ≠ key := by
    rintro rfl
    exact free folder
  rwa [at?_erase_of_ne kept]

theorem Rooted.makeFoldersFrom (h : t.Rooted) (descends : t.Descends absolute start)
    (folder : t.at? (Path.key absolute start) = some .folder) (plain : ∀ x ∈ xs, '/' ∉ x.toList)
    (made : t.makeFoldersFrom absolute start xs = .ok t') : t'.Rooted := by
  induction xs generalizing t start with
  | nil =>
    cases made
    exact h
  | cons x xs ih =>
    obtain ⟨hx,rest⟩ := List.forall_mem_cons.mp plain
    have next := descends.further folder hx
    rw [FileTree.makeFoldersFrom] at made
    split at made
    · rename_i there
      exact ih h next there rest made
    · cases made
    · rename_i absent
      have grows := grows_newFolder absent
      refine ih (h.insert (fun above name hn own => next.folder_above hn own) fun _ => rfl)
        (next.of_folders fun key => grows.kept key _) (at?_insert_folder_self t _) rest made

theorem Rooted.put (h : t.Rooted) {e : FileEntry} (written : t.put path e = .ok t') : t'.Rooted := by
  obtain ⟨key,located,free,rfl⟩ := put_eq_ok written
  obtain ⟨absolute,reached,descends,rfl⟩ := descends_of_locate located
  exact h.insert (fun above name hn own => descends.folder_above hn own) fun folder => absurd folder free

theorem Rooted.rename (h : t.Rooted) {source : String}
    (renamed : t.apply (.rename source path) = .ok t') : t'.Rooted := by
  obtain ⟨old,new,e,_,located,found,file,free,rfl⟩ := apply_rename_eq_ok renamed
  obtain ⟨absolute,reached,descends,rfl⟩ := descends_of_locate located
  have oldFree : t.at? old ≠ some .folder := by
    rw [found]
    exact fun folder => file (Option.some.inj folder)
  refine (h.erase oldFree).insert (fun above name hn own => ?_) fun folder => ?_
  · have folder := descends.folder_above hn own
    have kept : above ≠ old := by
      rintro rfl
      exact oldFree folder
    rwa [at?_erase_of_ne kept]
  · exact absurd folder (not_folder_erase free)

theorem Rooted.apply (h : t.Rooted) {s : Step} (applied : t.apply s = .ok t') : t'.Rooted := by
  cases s with
  | makeFolders path =>
    rw [FileTree.apply] at applied
    split at applied
    · cases applied
      exact h
    · exact h.makeFoldersFrom (descends_nil t _) (t.at?_key_nil _)
        (fun x hx => Path.slash_not_mem_of_mem_steps hx) applied
  | write path text => exact h.put applied
  | rename source path => exact h.rename applied

/-- Changes leave everything standing in folders, and so do changes that are broken off. -/
theorem Rooted.applyAll (h : t.Rooted) (steps : List Step) : (t.applyAll steps).1.Rooted := by
  induction steps generalizing t with
  | nil => exact h
  | cons s rest ih =>
    rw [FileTree.applyAll]
    cases applied : t.apply s with
    | ok next => exact ih (h.apply applied)
    | error e => exact h

end HealthProbe.FileTree
