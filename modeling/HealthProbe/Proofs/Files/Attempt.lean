import HealthProbe.Proofs.Files.Approach

/-! # Steps that may fail

A system may refuse a step although nothing is in its way, and leave behind what it had come to by then. A
text that is written under one name and then renamed leaves all other names in the folder alone, however far
it comes, and the last name too unless all is done.
-/
namespace HealthProbe.FileTree
open HealthProbe.Path (IsName)

/-- What may come of a step. It may fail although nothing is in its way, for a reason of the system's own; by
then folders may have been made on the way, and anything may stand in the file that was to be written. -/
inductive Attempt (t : FileTree) : Step → Option String → FileTree → Prop
  | done {s : Step} {t' : FileTree} (applied : t.apply s = .ok t') : Attempt t s none t'
  | refused (s : Step) (reason : String) : Attempt t s (some reason) t
  | someFolders {path : String} (n : Nat) (reason : String) {t' : FileTree}
      (made : t.makeFoldersFrom (Path.isAbsolute path) [] ((Path.steps path).2.take n) = .ok t') :
      Attempt t (.makeFolders path) (some reason) t'
  | otherContent {path : String} (text : String) (e : FileEntry) (file : e ≠ .folder) (reason : String)
      {t' : FileTree} (written : t.put path e = .ok t') : Attempt t (.write path text) (some reason) t'

inductive Tries : FileTree → List Step → Option String → FileTree → Prop
  | nil (t : FileTree) : Tries t [] none t
  | fails {t t' : FileTree} {s : Step} {reason : String} (rest : List Step)
      (first : Attempt t s (some reason) t') : Tries t (s :: rest) (some reason) t'
  | goesOn {t t' t'' : FileTree} {s : Step} {rest : List Step} {failure : Option String}
      (first : Attempt t s none t') (others : Tries t' rest failure t'') :
      Tries t (s :: rest) failure t''

variable {t t' : FileTree} {s : Step} {failure : Option String} {dir above draft path text : String}

/-- Where the system refuses nothing, steps come to what they always come to. -/
theorem tries_applyAll (t : FileTree) (steps : List Step) :
    Tries t steps ((t.applyAll steps).2.map OsError.message) (t.applyAll steps).1 := by
  induction steps generalizing t with
  | nil => exact .nil t
  | cons s rest ih =>
    rw [applyAll]
    cases applied : t.apply s with
    | error e => exact .fails rest (.refused s e.message)
    | ok next => exact .goesOn (.done applied) (ih next)

theorem Attempt.eq_of_done (h : Attempt t s none t') : t.apply s = .ok t' := by
  cases h with
  | done applied => exact applied

theorem applyAll_of_tries {steps : List Step} (h : Tries t steps none t') :
    t.applyAll steps = (t',none) := by
  induction steps generalizing t with
  | nil =>
    cases h
    rfl
  | cons s rest ih =>
    cases h with
    | goesOn first others =>
      rw [applyAll, first.eq_of_done]
      exact ih others

/-! ## Replacing a file -/

theorem Attempt.made (h : Attempt t (.makeFolders above) failure t') :
    ∃ n, t.makeFoldersFrom (Path.isAbsolute above) [] ((Path.steps above).2.take n) = .ok t' := by
  cases h with
  | done applied =>
    rw [apply] at applied
    split at applied
    · exact ⟨0,applied⟩
    · exact ⟨_,by rwa [List.take_length]⟩
  | refused => exact ⟨0,rfl⟩
  | someFolders n _ made => exact ⟨n,made⟩

theorem Attempt.put (h : Attempt t (.write draft text) failure t') :
    t' = t ∨ ∃ e, t.put draft e = .ok t' := by
  cases h with
  | done applied => exact Or.inr ⟨_,applied⟩
  | refused => exact Or.inl rfl
  | otherContent _ e _ _ written => exact Or.inr ⟨e,written⟩

theorem Attempt.eq_of_unrenamed {reason : String} (h : Attempt t (.rename draft path) (some reason) t') :
    t' = t := by
  cases h with
  | refused => rfl

/-- As long as a file has not been replaced, at most folders have been made and something has been written
under the first name. -/
theorem Tries.of_failed {reason : String}
    (h : Tries t [.makeFolders above, .write draft text, .rename draft path] (some reason) t') :
    ∃ n made, t.makeFoldersFrom (Path.isAbsolute above) [] ((Path.steps above).2.take n) = .ok made ∧
      (t' = made ∨ ∃ e, made.put draft e = .ok t') := by
  cases h with
  | fails _ first =>
    obtain ⟨n,made⟩ := first.made
    exact ⟨n,_,made,Or.inl rfl⟩
  | goesOn first others =>
    obtain ⟨n,made⟩ := first.made
    refine ⟨n,_,made,?_⟩
    cases others with
    | fails _ second => exact second.put
    | goesOn second others =>
      cases others with
      | fails _ third => exact third.eq_of_unrenamed ▸ second.put
      | goesOn _ others => cases others

theorem entry_of_put {a b : String} {e : FileEntry} (ha : IsName a) (hb : IsName b) (ne : b ≠ a)
    (h : t.put (Path.join dir a) e = .ok t') :
    t'.entry (Path.join dir b) = t.entry (Path.join dir b) := by
  obtain ⟨key,located,_⟩ := put_eq_ok h
  refine (stands_of_locate ha located).entry_of_changesOnly (changesOnly_put h) hb ?_
  rw [List.mem_singleton]
  exact target_join_ne hb ha ne

theorem entry_of_rename {a b c : String} (ha : IsName a) (hb : IsName b) (hc : IsName c) (ne : c ≠ a)
    (ne' : c ≠ b) (h : t.apply (.rename (Path.join dir a) (Path.join dir b)) = .ok t') :
    t'.entry (Path.join dir c) = t.entry (Path.join dir c) := by
  obtain ⟨_,_,_,located,_⟩ := apply_rename_eq_ok h
  refine (stands_of_locate ha located).entry_of_changesOnly (changesOnly_rename h) hc ?_
  simp only [List.mem_cons, List.not_mem_nil, or_false, not_or]
  exact ⟨target_join_ne hc ha ne,target_join_ne hc hb ne'⟩

variable {file other : String}

/-- The way to a folder is the way to what is above its names. -/
theorem entry_of_made (rooted : t.Rooted) (onward : t.StepsOnward dir) (hfile : IsName file)
    (hother : IsName other) {n : Nat}
    (made : t.makeFoldersFrom (Path.isAbsolute (Path.parent (Path.join dir file))) []
      ((Path.steps (Path.parent (Path.join dir file))).2.take n) = .ok t') :
    t'.entry (Path.join dir other) = t.entry (Path.join dir other) := by
  rcases Path.parent_join dir hfile with top | same
  · have nowhere : (Path.steps "").2 = [] := rfl
    rw [top, nowhere, List.take_nil] at made
    cases made
    rfl
  · rw [← Path.fst_steps, same, Path.fst_steps] at made
    exact entry_of_makeFolders rooted onward hother made

/-- A file that could not be replaced is as it was, as are all others in the folder but the one under the
first name. -/
theorem entry_of_failed (rooted : t.Rooted) (onward : t.StepsOnward dir) (hfile : IsName file)
    (hdraft : IsName draft) (hother : IsName other) (ne : other ≠ draft) {reason : String}
    (h : Tries t [.makeFolders (Path.parent (Path.join dir file)), .write (Path.join dir draft) text,
      .rename (Path.join dir draft) (Path.join dir file)] (some reason) t') :
    t'.entry (Path.join dir other) = t.entry (Path.join dir other) := by
  obtain ⟨n,made,makes,rfl | ⟨e,written⟩⟩ := h.of_failed
  · exact entry_of_made rooted onward hfile hother makes
  · rw [entry_of_put hdraft hother ne written]
    exact entry_of_made rooted onward hfile hother makes

theorem entry_of_replaced (rooted : t.Rooted) (onward : t.StepsOnward dir) (hfile : IsName file)
    (hdraft : IsName draft) (hother : IsName other) (ne : other ≠ draft) (ne' : other ≠ file)
    (h : t.applyAll [.makeFolders (Path.parent (Path.join dir file)), .write (Path.join dir draft) text,
      .rename (Path.join dir draft) (Path.join dir file)] = (t',none)) :
    t'.entry (Path.join dir other) = t.entry (Path.join dir other) := by
  obtain ⟨made,makes,h⟩ := applyAll_cons_eq_none h
  obtain ⟨written,writes,h⟩ := applyAll_cons_eq_none h
  obtain ⟨_,renames,h⟩ := applyAll_cons_eq_none h
  cases h
  obtain ⟨n,makes⟩ := (Attempt.done makes).made
  rw [entry_of_rename hdraft hfile hother ne ne' renames, entry_of_put hdraft hother ne writes,
    entry_of_made rooted onward hfile hother makes]

end HealthProbe.FileTree
