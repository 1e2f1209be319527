import HealthProbe.Proofs.Files.Rooted

/-! # The way to a folder

Whether a name in a folder can be found hangs on the way there. In a tree in which all that there is stands
in folders, making folders on the way shows nobody anything new: what was not found is still not found, as
long as the way does not step back out of a folder that has yet to be made.
-/
namespace HealthProbe.FileTree
open HealthProbe.Path (IsName)

variable {t t' : FileTree} {dir name key : String} {absolute : Bool} {reached xs : List String}

/-! ## Looking from a place on -/

def lookFrom (t : FileTree) (absolute : Bool) (start xs : List String) : Except OsError FileEntry :=
  (t.walk absolute start xs).bind fun reached =>
    (t.at? (Path.key absolute reached)).elim (.error .notFound) .ok

theorem lookFrom_append {ys : List String} {start : List String}
    (h : t.walk absolute start xs = .ok reached) :
    t.lookFrom absolute start (xs ++ ys) = t.lookFrom absolute reached ys := by
  rw [lookFrom, walk_append, h]
  rfl

theorem lookFrom_of_folder {x : String} (h : t.at? (Path.key absolute reached) = some .folder) :
    t.lookFrom absolute reached (x :: xs) = t.lookFrom absolute (further absolute reached x) xs := by
  rw [lookFrom, walk, h]
  rfl

theorem lookFrom_of_absent (h : t.at? (Path.key absolute reached) = none) :
    t.lookFrom absolute reached xs = .error .notFound := by
  cases xs with
  | nil =>
    rw [lookFrom, walk, Except.bind, h]
    rfl
  | cons x xs =>
    rw [lookFrom, walk, h]
    rfl

theorem entry_join (clean : '\x00' ∉ dir.toList) (hn : IsName name) :
    t.entry (Path.join dir name) =
      t.lookFrom (Path.isAbsolute dir) [] ((Path.steps dir).2 ++ [name]) := by
  have clean' : (Path.join dir name).toList.contains '\x00' = false := by
    rw [← Bool.not_eq_true, List.contains_iff_mem, Path.zero_mem_join dir hn]
    exact clean
  rw [entry, locate, Path.isEmpty_join dir hn, clean']
  simp only [Bool.false_eq_true, ↓reduceIte, Path.steps_join dir hn, Path.endsAsFolder_join dir hn,
    lookFrom]
  cases t.walk (Path.isAbsolute dir) [] ((Path.steps dir).2 ++ [name]) with
  | error e => rfl
  | ok reached =>
    dsimp only [Except.bind]
    cases found : t.at? (Path.key (Path.isAbsolute dir) reached) with
    | none => simp [found]
    | some e => cases e <;> simp [found]

theorem entry_join_of_zero (zero : '\x00' ∈ dir.toList) (hn : IsName name) :
    t.entry (Path.join dir name) = .error .invalid := by
  have dirty : (Path.join dir name).toList.contains '\x00' = true := by
    rw [List.contains_iff_mem, Path.zero_mem_join dir hn]
    exact zero
  rw [entry, locate, Path.isEmpty_join dir hn, dirty]
  rfl

/-! ## Making folders one below the other -/

theorem further_of_name (absolute : Bool) (reached : List String) (hn : IsName name) :
    further absolute reached name = reached ++ [name] := if_neg hn.ne_back

theorem at?_makeFoldersFrom {start : List String} (names : ∀ x ∈ xs, IsName x)
    (made : t.makeFoldersFrom absolute start xs = .ok t')
    (beyond : (Path.key absolute (start ++ xs)).length < key.length) : t'.at? key = t.at? key := by
  induction xs generalizing t start with
  | nil =>
    cases made
    rfl
  | cons x xs ih =>
    obtain ⟨hx,rest⟩ := List.forall_mem_cons.mp names
    rw [makeFoldersFrom, further_of_name absolute start hx] at made
    rw [List.append_cons] at beyond
    split at made
    · exact ih rest made beyond
    · cases made
    · have ne : key ≠ Path.key absolute (start ++ [x]) := by
        rintro rfl
        exact absurd (Path.length_key_le_append absolute (start ++ [x]) rest) (Nat.not_le.mpr beyond)
      rw [ih rest made beyond, at?_insert_of_ne ne]

/-- Folders that are made where nothing was show nobody what was not there before. -/
theorem lookFrom_of_made {start : List String} (names : ∀ x ∈ xs, IsName x)
    (folders : ∀ k, t'.at? (Path.key absolute (start ++ xs.take k)) ≠ none →
      t'.at? (Path.key absolute (start ++ xs.take k)) = some .folder)
    (absent : t'.at? (Path.key absolute (start ++ xs)) = none) :
    t'.lookFrom absolute start xs = .error .notFound := by
  induction xs generalizing start with
  | nil =>
    rw [List.append_nil] at absent
    exact lookFrom_of_absent absent
  | cons x xs ih =>
    obtain ⟨hx,rest⟩ := List.forall_mem_cons.mp names
    by_cases there : t'.at? (Path.key absolute start) = none
    · exact lookFrom_of_absent there
    · have folder := folders 0
      rw [List.take_zero, List.append_nil] at folder
      rw [lookFrom_of_folder (folder there), further_of_name absolute start hx]
      refine ih rest (fun k => ?_) (by rwa [List.append_cons] at absent)
      have next := folders (k + 1)
      rwa [List.take_succ_cons, List.append_cons] at next

theorem lookFrom_makeFolders (rooted : t.Rooted) (names : ∀ x ∈ xs, IsName x) (hn : IsName name)
    (folder : t.at? (Path.key absolute reached) = some .folder) {n : Nat}
    (made : t.makeFoldersFrom absolute reached (xs.take n) = .ok t') :
    t'.lookFrom absolute reached (xs ++ [name]) = t.lookFrom absolute reached (xs ++ [name]) := by
  induction xs generalizing reached n with
  | nil =>
    rw [List.take_nil] at made
    cases made
    rfl
  | cons x xs ih =>
    obtain ⟨hx,rest⟩ := List.forall_mem_cons.mp names
    cases n with
    | zero =>
      cases made
      rfl
    | succ n =>
      have grows := grows_makeFoldersFrom made
      have beyond := Path.length_key_take_lt absolute reached names hn (n + 1)
      have last := at?_makeFoldersFrom (fun y hy => names y (List.mem_of_mem_take hy)) made beyond
      rw [List.cons_append, lookFrom_of_folder folder, lookFrom_of_folder (grows.kept _ _ folder),
        further_of_name absolute reached hx]
      rw [List.take_succ_cons, makeFoldersFrom, further_of_name absolute reached hx] at made
      split at made
      · rename_i inner
        exact ih rest inner made
      · cases made
      · rename_i absent
        have steps : ∀ y ∈ xs ++ [name], IsName y := by
          simpa [or_imp, forall_and] using ⟨rest,hn⟩
        rw [lookFrom_of_absent absent]
        refine lookFrom_of_made steps (fun k there => ?_) ?_
        · have below : ∀ y ∈ (xs ++ [name]).take k, IsName y :=
            fun y hy => steps y (List.mem_of_mem_take hy)
          exact (grows.added _ (rooted.absent_below below absent)).resolve_left there
        · rw [List.cons_append, List.append_cons] at last
          rw [last, rooted.absent_below steps absent]

/-! ## The way to a folder -/

/-- A path steps back, if at all, only on its way through folders that are there. -/
def StepsOnward (t : FileTree) (dir : String) : Prop :=
  ∃ there ahead reached, (Path.steps dir).2 = there ++ ahead ∧ ".." ∉ ahead ∧
    t.walk (Path.isAbsolute dir) [] there = .ok reached ∧
    t.at? (Path.key (Path.isAbsolute dir) reached) = some .folder

theorem stepsOnward_of_forward (t : FileTree) (h : ".." ∉ (Path.steps dir).2) : t.StepsOnward dir :=
  ⟨[],_,[],rfl,h,rfl,t.at?_key_nil _⟩

theorem makeFoldersFrom_take_of_walk {start : List String} (h : t.walk absolute start xs = .ok reached)
    (ends : t.at? (Path.key absolute reached) = some .folder) (n : Nat) :
    t.makeFoldersFrom absolute start (xs.take n) = .ok t := by
  rw [← List.take_append_drop n xs, walk_append] at h
  cases halfway : t.walk absolute start (xs.take n) with
  | error e =>
    rw [halfway] at h
    cases h
  | ok inner =>
    rw [halfway] at h
    exact makeFoldersFrom_of_walk halfway (folder_of_walk h ends)

/-- However many of the folders on the way have been made, a name in the last of them leads where it did
before. -/
theorem entry_of_makeFolders (rooted : t.Rooted) (onward : t.StepsOnward dir) (hn : IsName name) {n : Nat}
    (made : t.makeFoldersFrom (Path.isAbsolute dir) [] ((Path.steps dir).2.take n) = .ok t') :
    t'.entry (Path.join dir name) = t.entry (Path.join dir name) := by
  by_cases zero : '\x00' ∈ dir.toList
  · rw [entry_join_of_zero zero hn, entry_join_of_zero zero hn]
  obtain ⟨there,ahead,reached,split,forward,walked,folder⟩ := onward
  have names : ∀ x ∈ ahead, IsName x := by
    intro x hx
    refine Path.isName_of_mem_steps zero (split ▸ List.mem_append_right there hx) ?_
    rintro rfl
    exact forward hx
  have grows := grows_makeFoldersFrom made
  have walked' := walk_of_folders (fun key => grows.kept key _) walked
  rw [entry_join zero hn, entry_join zero hn, split, List.append_assoc, lookFrom_append walked,
    lookFrom_append walked']
  rcases Nat.le_total n there.length with early | late
  · have still := makeFoldersFrom_take_of_walk walked folder n
    rw [split, List.take_append_of_le_length early, still] at made
    cases made
    rfl
  · rw [split, List.take_append, List.take_of_length_le late,
      makeFoldersFrom_append_of_walk walked folder] at made
    exact lookFrom_makeFolders rooted names hn folder made

end HealthProbe.FileTree
