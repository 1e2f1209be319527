import HealthProbe.Proofs.Files.Folder

/-! # What a change leaves alone

A path leads to one place at most, whatever stands there. Making folders adds folders where nothing was;
writing and renaming change only what stands where their paths lead, and take no folder away.
-/
namespace HealthProbe.FileTree
open HealthProbe.Path (IsName)

def route (path : String) : List String :=
  (Path.steps path).2.foldl (further (Path.isAbsolute path)) []

def target (path : String) : String := Path.key (Path.isAbsolute path) (route path)

def fileAt? (t : FileTree) (key : String) : Option FileEntry := (t.at? key).filter (· != .folder)

variable {t t' : FileTree} {dir name path key : String} {reached : List String}

/-! ## Where a path leads -/

theorem eq_foldl_of_walk {absolute : Bool} {start xs : List String}
    (h : t.walk absolute start xs = .ok reached) : reached = xs.foldl (further absolute) start := by
  induction xs generalizing start with
  | nil =>
    cases h
    rfl
  | cons x xs ih =>
    rw [walk] at h
    split at h
    · exact ih h
    · cases h
    · cases h

theorem eq_target_of_locate (h : t.locate path = .ok key) : key = target path := by
  obtain ⟨reached,walked,rfl,_⟩ := locate_eq_ok h
  rw [target, route, ← eq_foldl_of_walk walked]

theorem Stands.eq_route (h : t.Stands dir reached) : reached = route dir := eq_foldl_of_walk h.walk

theorem target_join (dir : String) (hn : IsName name) :
    target (Path.join dir name) = place dir (route dir) name := by
  rw [target, route, place, Path.steps_join dir hn, Path.isAbsolute_join dir hn, List.foldl_append]
  simp [route, further, hn.ne_back]

theorem target_join_ne {a b : String} (ha : IsName a) (hb : IsName b) (ne : a ≠ b) :
    target (Path.join dir a) ≠ target (Path.join dir b) := by
  rw [target_join dir ha, target_join dir hb]
  exact place_injective ha hb ne

/-- A path to a name leads somewhere only through the folder. -/
theorem stands_of_locate (hn : IsName name) (h : t.locate (Path.join dir name) = .ok key) :
    t.Stands dir (route dir) := by
  obtain ⟨reached,walked,_,clean⟩ := locate_eq_ok h
  rw [Path.steps_join dir hn, Path.isAbsolute_join dir hn, walk_append] at walked
  cases above : t.walk (Path.isAbsolute dir) [] (Path.steps dir).2 with
  | error e =>
    rw [above] at walked
    cases walked
  | ok r =>
    rw [above] at walked
    have folder := folder_of_walk_cons walked
    have standing : t.Stands dir r := ⟨above,folder,mt (Path.zero_mem_join dir hn).mpr clean⟩
    exact standing.eq_route ▸ standing

/-! ## Growing -/

/-- There are new folders where nothing was, and that is all. -/
structure Grows (t t' : FileTree) : Prop where
  kept : ∀ key e, t.at? key = some e → t'.at? key = some e
  added : ∀ key, t.at? key = none → t'.at? key = none ∨ t'.at? key = some .folder

theorem Grows.refl (t : FileTree) : Grows t t := ⟨fun _ _ h => h,fun _ h => Or.inl h⟩

theorem Grows.trans {t'' : FileTree} (h : Grows t t') (h' : Grows t' t'') : Grows t t'' := by
  refine ⟨fun key e he => h'.kept key e (h.kept key e he),?_⟩
  intro key absent
  rcases h.added key absent with absent' | folder
  · exact h'.added key absent'
  · exact Or.inr (h'.kept key _ folder)

theorem Grows.fileAt? (h : Grows t t') (key : String) : t'.fileAt? key = t.fileAt? key := by
  unfold FileTree.fileAt?
  cases found : t.at? key with
  | some e => rw [h.kept key e found]
  | none =>
    rcases h.added key found with absent | folder
    · rw [absent]
    · rw [folder]
      rfl

theorem at?_insert_folder_self (t : FileTree) (key : String) :
    (FileTree.mk (t.entries.insert key .folder)).at? key = some .folder := by
  unfold at?
  split
  · rfl
  · exact Table.find?_insert_self _ _ _

theorem grows_newFolder (absent : t.at? key = none) : Grows t ⟨t.entries.insert key .folder⟩ := by
  constructor
  · intro k e found
    have ne : k ≠ key := by
      rintro rfl
      rw [absent] at found
      cases found
    rwa [at?_insert_of_ne ne]
  · intro k absent'
    by_cases own : k = key
    · exact Or.inr (own ▸ at?_insert_folder_self t k)
    · exact Or.inl (by rwa [at?_insert_of_ne own])

theorem grows_makeFoldersFrom {absolute : Bool} {start xs : List String}
    (h : t.makeFoldersFrom absolute start xs = .ok t') : Grows t t' := by
  induction xs generalizing t start with
  | nil =>
    cases h
    exact .refl _
  | cons x xs ih =>
    rw [makeFoldersFrom] at h
    split at h
    · exact ih h
    · cases h
    · rename_i absent
      exact (grows_newFolder absent).trans (ih h)

theorem grows_makeFolders (h : t.apply (.makeFolders path) = .ok t') : Grows t t' := by
  rw [apply] at h
  split at h
  · cases h
    exact .refl t
  · exact grows_makeFoldersFrom h

/-! ## Changing files -/

/-- Nothing has changed but in the given places, and no folder is gone. -/
structure ChangesOnly (places : List String) (t t' : FileTree) : Prop where
  others : ∀ key, key ∉ places → t'.at? key = t.at? key
  folders : ∀ key, t.at? key = some .folder → t'.at? key = some .folder

variable {places : List String}

theorem ChangesOnly.refl (places : List String) (t : FileTree) : ChangesOnly places t t :=
  ⟨fun _ _ => rfl,fun _ h => h⟩

theorem ChangesOnly.trans {t'' : FileTree} (h : ChangesOnly places t t')
    (h' : ChangesOnly places t' t'') : ChangesOnly places t t'' :=
  ⟨fun key hk => (h'.others key hk).trans (h.others key hk),
    fun key hk => h'.folders key (h.folders key hk)⟩

theorem ChangesOnly.mono {more : List String} (h : ChangesOnly places t t') (sub : places ⊆ more) :
    ChangesOnly more t t' :=
  ⟨fun key hk => h.others key (mt (@sub key) hk),h.folders⟩

/-- A change of one place in which there is no folder. -/
theorem changesOnly_singleton (free : t.at? key ≠ some .folder)
    (others : ∀ k, k ≠ key → t'.at? k = t.at? k) : ChangesOnly [key] t t' := by
  refine ⟨fun k hk => others k (mt List.mem_singleton.mpr hk),?_⟩
  intro k hk
  have ne : k ≠ key := by
    rintro rfl
    exact free hk
  rwa [others k ne]

theorem not_folder_erase {k : String} (free : t.at? key ≠ some .folder) :
    (FileTree.mk (t.entries.erase k)).at? key ≠ some .folder := by
  by_cases same : key = k
  · subst same
    unfold at? at free ⊢
    split at free
    · exact absurd rfl free
    · rename_i below
      rw [if_neg below, Table.find?_erase, if_pos rfl]
      exact nofun
  · rwa [at?_erase_of_ne same]

theorem put_eq_ok {e : FileEntry} (h : t.put path e = .ok t') :
    ∃ key, t.locate path = .ok key ∧ t.at? key ≠ some .folder ∧ t' = ⟨t.entries.insert key e⟩ := by
  rw [put] at h
  split at h
  · cases h
  rename_i key located
  split at h
  · cases h
  rename_i free
  cases h
  rw [Bool.not_eq_true, Bool.or_eq_false_iff, decide_eq_false_iff_not] at free
  exact ⟨key,located,free.1,rfl⟩

theorem apply_rename_eq_ok {source : String} (h : t.apply (.rename source path) = .ok t') :
    ∃ old new e, t.locate source = .ok old ∧ t.locate path = .ok new ∧ t.at? old = some e ∧
      e ≠ .folder ∧ t.at? new ≠ some .folder ∧ t' = ⟨(t.entries.erase old).insert new e⟩ := by
  rw [apply] at h
  split at h
  · cases h
  · cases h
  rename_i old new located located'
  split at h
  · cases h
  · cases h
  · cases h
  rename_i e noFolder found free
  cases h
  exact ⟨old,new,e,located,located',found,noFolder,free,rfl⟩

theorem changesOnly_put {e : FileEntry} (h : t.put path e = .ok t') :
    ChangesOnly [target path] t t' := by
  obtain ⟨key,located,free,rfl⟩ := put_eq_ok h
  rw [← eq_target_of_locate located]
  exact changesOnly_singleton free fun k ne => at?_insert_of_ne ne _

theorem changesOnly_rename {source : String} (h : t.apply (.rename source path) = .ok t') :
    ChangesOnly [target source, target path] t t' := by
  obtain ⟨old,new,e,located,located',found,file,free,rfl⟩ := apply_rename_eq_ok h
  have oldFree : t.at? old ≠ some .folder := by
    rw [found]
    exact fun hf => file (Option.some.inj hf)
  have newFree : (FileTree.mk (t.entries.erase old)).at? new ≠ some .folder := not_folder_erase free
  have erased := changesOnly_singleton oldFree fun k ne => at?_erase_of_ne ne
  have inserted := changesOnly_singleton newFree fun k ne => at?_insert_of_ne ne e
  rw [← eq_target_of_locate located, ← eq_target_of_locate located']
  exact (erased.mono (by simp)).trans (inserted.mono (by simp))

theorem Stands.of_changesOnly (h : t.Stands dir reached) (changed : ChangesOnly places t t') :
    t'.Stands dir reached :=
  h.of_folders changed.folders

/-- A name whose place has not changed leads to what it led to. -/
theorem Stands.entry_of_changesOnly (h : t.Stands dir reached) (changed : ChangesOnly places t t')
    (hn : IsName name) (off : target (Path.join dir name) ∉ places) :
    t'.entry (Path.join dir name) = t.entry (Path.join dir name) := by
  have same := changed.others _ off
  rw [target_join dir hn, ← h.eq_route] at same
  rw [h.entry hn, (h.of_changesOnly changed).entry hn, same]

/-! ## Replacing a file

A text is written under one name and then renamed, after the folder has been made. -/

/-- However far it comes, it changes files only under the two names. -/
theorem changesOnly_replace (t : FileTree) (above draft path text : String) :
    ∃ made, (t.apply (.makeFolders above) = .ok made ∨ made = t) ∧
      ChangesOnly [target draft, target path] made
        (t.applyAll [.makeFolders above, .write draft text, .rename draft path]).1 := by
  rw [applyAll]
  cases makes : t.apply (.makeFolders above) with
  | error e => exact ⟨t,Or.inr rfl,.refl _ t⟩
  | ok made =>
    refine ⟨made,Or.inl rfl,?_⟩
    dsimp only
    rw [applyAll]
    cases writes : made.apply (.write draft text) with
    | error e => exact .refl _ made
    | ok written =>
      have wrote := (changesOnly_put writes).mono (by simp : _ ⊆ [target draft, target path])
      dsimp only
      rw [applyAll]
      cases renames : written.apply (.rename draft path) with
      | error e => exact wrote
      | ok renamed => exact wrote.trans (changesOnly_rename renames)

theorem applyAll_cons_eq_none {s : Step} {rest : List Step} (h : t.applyAll (s :: rest) = (t',none)) :
    ∃ next, t.apply s = .ok next ∧ next.applyAll rest = (t',none) := by
  rw [applyAll] at h
  split at h
  · rename_i next applied
    exact ⟨next,applied,h⟩
  · cases h

/-- A text that has been written under one name and renamed can be read under the other. -/
theorem readText_of_replaced {file draft above text : String} (hfile : IsName file)
    (hdraft : IsName draft)
    (h : t.applyAll [.makeFolders above, .write (Path.join dir draft) text,
      .rename (Path.join dir draft) (Path.join dir file)] = (t',none)) :
    t'.Stands dir (route dir) ∧ t'.readText (Path.join dir file) = .ok text := by
  obtain ⟨made,_,h⟩ := applyAll_cons_eq_none h
  obtain ⟨written,writes,h⟩ := applyAll_cons_eq_none h
  obtain ⟨_,renames,h⟩ := applyAll_cons_eq_none h
  cases h
  have changed := changesOnly_rename renames
  obtain ⟨key,located,_,rfl⟩ := put_eq_ok writes
  obtain ⟨old,new,e,source,target,found,_,_,rfl⟩ := apply_rename_eq_ok renames
  have stands := stands_of_locate hfile target
  have text_found : e = .text text := by
    rw [eq_target_of_locate source, eq_target_of_locate located, target_join dir hdraft,
      at?_insert made hdraft, if_pos rfl] at found
    exact (Option.some.inj found).symm
  have ended := stands.of_changesOnly changed
  refine ⟨ended,?_⟩
  rw [readText, ended.entry hfile, eq_target_of_locate target, target_join dir hfile,
    at?_insert ⟨_⟩ hfile, if_pos rfl, text_found]
  rfl

end HealthProbe.FileTree
