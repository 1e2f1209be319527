import HealthProbe.Files.Tree
import HealthProbe.Proofs.Files.Path

/-! # Folders of a file tree

A folder that stands somewhere keeps one entry for each name. Looking up, writing and renaming names in
it are lookups and changes of these entries, and none of them moves the folder, so long as no folder is
in the way.
-/
namespace HealthProbe.FileTree
open HealthProbe.Path (IsName)

structure Stands (t : FileTree) (dir : String) (reached : List String) : Prop where
  walk : t.walk (Path.isAbsolute dir) [] (Path.steps dir).2 = .ok reached
  folder : t.at? (Path.key (Path.isAbsolute dir) reached) = some .folder
  no_zero : '\x00' ∉ dir.toList

def place (dir : String) (reached : List String) (name : String) : String :=
  Path.key (Path.isAbsolute dir) (reached ++ [name])

variable {t t' : FileTree} {dir name key : String} {reached : List String}

theorem place_injective {a b : String} (ha : IsName a) (hb : IsName b) (ne : a ≠ b) :
    place dir reached a ≠ place dir reached b :=
  fun h => ne (Path.key_injective ha hb h)

theorem not_above_place (h : IsName name) :
    (Path.steps (place dir reached name)).2.all (· == "..") = false := by
  obtain ⟨above,hs⟩ := Path.steps_key (Path.isAbsolute dir) reached h
  simp [place, hs, h.ne_back]

theorem at?_place (t : FileTree) (h : IsName name) :
    t.at? (place dir reached name) = t.entries.find? (place dir reached name) := by
  rw [at?, not_above_place h]
  rfl

/-! ## Walks -/

theorem walk_append (t : FileTree) (absolute : Bool) (start xs ys : List String) :
    t.walk absolute start (xs ++ ys) =
      (t.walk absolute start xs).bind fun r => t.walk absolute r ys := by
  induction xs generalizing start with
  | nil => rfl
  | cons x xs ih =>
    rw [List.cons_append, walk, walk]
    split
    · exact ih _
    · rfl
    · rfl

theorem walk_of_folders (kept : ∀ key, t.at? key = some .folder → t'.at? key = some .folder)
    {absolute : Bool} {start xs : List String} (h : t.walk absolute start xs = .ok reached) :
    t'.walk absolute start xs = .ok reached := by
  induction xs generalizing start with
  | nil => exact h
  | cons x xs ih =>
    rw [walk] at h ⊢
    cases hf : t.at? (Path.key absolute start) with
    | none => simp [hf] at h
    | some e =>
      cases e with
      | folder =>
        rw [hf] at h
        rw [kept _ hf]
        exact ih h
      | text _ => simp [hf] at h
      | binary _ => simp [hf] at h

theorem Stands.of_folders (h : t.Stands dir reached)
    (kept : ∀ key, t.at? key = some .folder → t'.at? key = some .folder) : t'.Stands dir reached :=
  ⟨walk_of_folders kept h.walk,kept _ h.folder,h.no_zero⟩

theorem folder_of_walk_cons {absolute : Bool} {start xs : List String} {x : String}
    (h : t.walk absolute start (x :: xs) = .ok reached) :
    t.at? (Path.key absolute start) = some .folder := by
  rw [walk] at h
  split at h
  · assumption
  · cases h
  · cases h

theorem folder_of_walk {absolute : Bool} {start xs : List String}
    (h : t.walk absolute start xs = .ok reached)
    (ends : t.at? (Path.key absolute reached) = some .folder) :
    t.at? (Path.key absolute start) = some .folder := by
  cases xs with
  | nil =>
    cases h
    exact ends
  | cons x xs => exact folder_of_walk_cons h

/-- Where folders stand there are none to make. -/
theorem makeFoldersFrom_append_of_walk {absolute : Bool} {start xs ys : List String}
    (h : t.walk absolute start xs = .ok reached)
    (ends : t.at? (Path.key absolute reached) = some .folder) :
    t.makeFoldersFrom absolute start (xs ++ ys) = t.makeFoldersFrom absolute reached ys := by
  induction xs generalizing start with
  | nil =>
    cases h
    rfl
  | cons x xs ih =>
    have first := folder_of_walk h ends
    simp only [walk, first] at h
    have next := folder_of_walk h ends
    simp only [List.cons_append, makeFoldersFrom, next]
    exact ih h

theorem makeFoldersFrom_of_walk {absolute : Bool} {start xs : List String}
    (h : t.walk absolute start xs = .ok reached)
    (ends : t.at? (Path.key absolute reached) = some .folder) :
    t.makeFoldersFrom absolute start xs = .ok t := by
  have made : t.makeFoldersFrom absolute start (xs ++ []) = t.makeFoldersFrom absolute reached [] :=
    makeFoldersFrom_append_of_walk h ends
  rwa [List.append_nil] at made

/-! ## Names in a folder -/

theorem Stands.locate (h : t.Stands dir reached) (hn : IsName name) :
    t.locate (Path.join dir name) = .ok (place dir reached name) := by
  have clean : (Path.join dir name).toList.contains '\x00' = false := by
    rw [← Bool.not_eq_true, List.contains_iff_mem, Path.zero_mem_join dir hn]
    exact h.no_zero
  have walked : t.walk (Path.isAbsolute dir) [] ((Path.steps dir).2 ++ [name]) =
      .ok (reached ++ [name]) := by
    rw [walk_append, h.walk]
    simp [Except.bind, FileTree.walk, h.folder, further, hn.ne_back]
  rw [FileTree.locate, Path.isEmpty_join dir hn, clean]
  simp only [Bool.false_eq_true, ↓reduceIte, Path.steps_join dir hn, walked,
    Path.endsAsFolder_join dir hn]
  split <;> rfl

theorem Stands.entry (h : t.Stands dir reached) (hn : IsName name) :
    t.entry (Path.join dir name) = (t.at? (place dir reached name)).elim (.error .notFound) .ok := by
  simp only [FileTree.entry, h.locate hn]
  cases t.at? (place dir reached name) <;> rfl

theorem Stands.makeFolders (h : t.Stands dir reached) (hn : IsName name) :
    t.apply (.makeFolders (Path.parent (Path.join dir name))) = .ok t := by
  rw [apply]
  split
  · rfl
  · rename_i filled
    rcases Path.parent_join dir hn with hp | hp
    · simp [hp] at filled
    · rw [hp]
      exact makeFoldersFrom_of_walk h.walk h.folder

theorem Stands.write (h : t.Stands dir reached) (hn : IsName name)
    (free : t.at? (place dir reached name) ≠ some .folder) (text : String) :
    t.apply (.write (Path.join dir name) text) =
      .ok ⟨t.entries.insert (place dir reached name) (.text text)⟩ := by
  simp [apply, put, h.locate hn, free, Path.endsAsFolder_join dir hn]

theorem Stands.rename {a b : String} (h : t.Stands dir reached) (ha : IsName a) (hb : IsName b)
    {text : String} (source : t.at? (place dir reached a) = some (.text text))
    (target : t.at? (place dir reached b) ≠ some .folder) :
    t.apply (.rename (Path.join dir a) (Path.join dir b)) =
      .ok ⟨(t.entries.erase (place dir reached a)).insert (place dir reached b) (.text text)⟩ := by
  simp only [apply, h.locate ha, h.locate hb, source]

theorem Stands.rename_absent {a b : String} (h : t.Stands dir reached) (ha : IsName a) (hb : IsName b)
    (absent : t.at? (place dir reached a) = none) :
    t.apply (.rename (Path.join dir a) (Path.join dir b)) = .error .notFound := by
  simp only [apply, h.locate ha, h.locate hb, absent]

/-! ## Changes of a folder -/

theorem at?_insert_of_ne {k : String} (ne : key ≠ k) (e : FileEntry) :
    (FileTree.mk (t.entries.insert k e)).at? key = t.at? key := by
  simp only [at?, Table.find?_insert_of_ne _ _ ne]

theorem at?_erase_of_ne {k : String} (ne : key ≠ k) :
    (FileTree.mk (t.entries.erase k)).at? key = t.at? key := by
  simp only [at?, Table.find?_erase, if_neg ne]

theorem at?_insert (t : FileTree) (hn : IsName name) (e : FileEntry) (key : String) :
    (FileTree.mk (t.entries.insert (place dir reached name) e)).at? key =
      if key = place dir reached name then some e else t.at? key := by
  split
  · rename_i eq
    rw [eq, at?_place _ hn, Table.find?_insert_self]
  · rename_i ne
    exact at?_insert_of_ne ne e

theorem at?_erase (t : FileTree) (hn : IsName name) (key : String) :
    (FileTree.mk (t.entries.erase (place dir reached name))).at? key =
      if key = place dir reached name then none else t.at? key := by
  split
  · rename_i eq
    rw [eq, at?_place _ hn, Table.find?_erase, if_pos rfl]
  · rename_i ne
    exact at?_erase_of_ne ne

theorem at?_renamed (t : FileTree) {a b : String} (ha : IsName a) (hb : IsName b) (e : FileEntry)
    (key : String) :
    (FileTree.mk ((t.entries.erase (place dir reached a)).insert (place dir reached b) e)).at? key =
      if key = place dir reached b then some e
      else if key = place dir reached a then none else t.at? key := by
  rw [at?_insert ⟨_⟩ hb, at?_erase t ha]

theorem Stands.insert (h : t.Stands dir reached) (hn : IsName name)
    (free : t.at? (place dir reached name) ≠ some .folder) (e : FileEntry) :
    Stands ⟨t.entries.insert (place dir reached name) e⟩ dir reached := by
  refine h.of_folders fun key folder => ?_
  rw [at?_insert t hn, if_neg, folder]
  rintro rfl
  exact free folder

/-- A text that is written under one name and then renamed stands under the new name, and nothing is
left under the first; all else is as before. -/
theorem Stands.replace (h : t.Stands dir reached) {file draft : String} (hfile : IsName file)
    (hdraft : IsName draft) (ne : draft ≠ file)
    (freeFile : t.at? (place dir reached file) ≠ some .folder)
    (freeDraft : t.at? (place dir reached draft) ≠ some .folder) (text : String) :
    ∃ t', t.applyAll [.makeFolders (Path.parent (Path.join dir file)),
        .write (Path.join dir draft) text,
        .rename (Path.join dir draft) (Path.join dir file)] = (t', none) ∧
      t'.Stands dir reached ∧
      ∀ key, t'.at? key =
        if key = place dir reached file then some (.text text)
        else if key = place dir reached draft then none else t.at? key := by
  have written := h.insert hdraft freeDraft (.text text)
  have source : FileTree.at? ⟨t.entries.insert (place dir reached draft) (.text text)⟩
      (place dir reached draft) = some (.text text) := by
    rw [at?_insert t hdraft, if_pos rfl]
  have target : FileTree.at? ⟨t.entries.insert (place dir reached draft) (.text text)⟩
      (place dir reached file) ≠ some .folder := by
    rw [at?_insert t hdraft, if_neg (place_injective hfile hdraft ne.symm)]
    exact freeFile
  have renamed := written.rename hdraft hfile source target
  have entries (key : String) :
      FileTree.at? ⟨((t.entries.insert (place dir reached draft) (.text text)).erase
        (place dir reached draft)).insert (place dir reached file) (.text text)⟩ key =
        if key = place dir reached file then some (.text text)
        else if key = place dir reached draft then none else t.at? key := by
    rw [at?_renamed ⟨_⟩ hdraft hfile, at?_insert t hdraft]
    split
    · rfl
    · split <;> rfl
  refine ⟨_,?_,h.of_folders fun key folder => ?_,entries⟩
  · simp only [applyAll, h.makeFolders hfile, h.write hdraft freeDraft, renamed]
  · rw [entries, if_neg, if_neg, folder]
    · rintro rfl
      exact freeDraft folder
    · rintro rfl
      exact freeFile folder

/-! ## Finding a folder -/

theorem locate_eq_ok {path key : String} (h : t.locate path = .ok key) :
    ∃ reached, t.walk (Path.isAbsolute path) [] (Path.steps path).2 = .ok reached ∧
      key = Path.key (Path.isAbsolute path) reached ∧ '\x00' ∉ path.toList := by
  unfold locate at h
  split at h
  · cases h
  split at h
  · cases h
  rename_i clean
  rw [List.contains_iff_mem] at clean
  simp only [Path.steps_eq] at h ⊢
  split at h
  · cases h
  rename_i reached walked
  refine ⟨reached,walked,?_,clean⟩
  split at h
  · split at h <;> cases h
    rfl
  · split at h <;> cases h
    rfl
  · cases h
    rfl

theorem stands_of_entry (there : dir = "" ∨ t.entry dir = .ok .folder) :
    ∃ reached, t.Stands dir reached := by
  rcases there with rfl | there
  · exact ⟨[],rfl,rfl,by decide⟩
  · unfold entry at there
    split at there
    · cases there
    rename_i key located
    obtain ⟨reached,walked,rfl,clean⟩ := locate_eq_ok located
    split at there
    · rename_i e found
      cases there
      exact ⟨reached,walked,found,clean⟩
    · cases there

/-! ## Empty folders -/

/-- A folder with nothing in it. The empty path leads to the working folder. -/
structure IsEmptyFolder (t : FileTree) (dir : String) : Prop where
  there : dir = "" ∨ t.entry dir = .ok .folder
  empty : ∀ name, IsName name → t.entry (Path.join dir name) = .error .notFound

theorem IsEmptyFolder.stands (h : t.IsEmptyFolder dir) : ∃ reached, t.Stands dir reached :=
  stands_of_entry h.there

theorem IsEmptyFolder.at?_place (h : t.IsEmptyFolder dir) (stands : t.Stands dir reached)
    (hn : IsName name) : t.at? (place dir reached name) = none := by
  have absent := h.empty name hn
  rw [stands.entry hn] at absent
  cases found : t.at? (place dir reached name) with
  | none => rfl
  | some e =>
    rw [found] at absent
    cases absent

end HealthProbe.FileTree
