import HealthProbe.Files.Path

/-! # Names in a folder

What stands right in a folder has the folder's steps and one more. Joining a name to the path of a
folder, and going back from a path to its parent, are about texts; here they are about steps.
-/
namespace HealthProbe.Path

/-- A text that is one step of a path, and one step forward. -/
structure IsName (name : String) : Prop where
  ne_empty : name ≠ ""
  ne_here : name ≠ "."
  ne_back : name ≠ ".."
  no_slash : '/' ∉ name.toList
  no_zero : '\x00' ∉ name.toList

def stepsOf (cs : List Char) : List String :=
  ((Text.pieces '/' cs).map String.ofList).filter fun p => p != "" && p != "."

theorem steps_eq (path : String) : steps path = (isAbsolute path, stepsOf path.toList) := rfl

theorem fst_steps (path : String) : (steps path).1 = isAbsolute path := rfl

theorem stepsOf_append_slash (cs : List Char) : stepsOf (cs ++ ['/']) = stepsOf cs := by
  simp [stepsOf, Text.pieces_append, Text.pieces]

theorem stepsOf_name {name : String} (h : IsName name) : stepsOf name.toList = [name] := by
  simp [stepsOf, Text.pieces_of_not_mem h.no_slash, h.ne_empty, h.ne_here]

def IsFront (cs : List Char) : Prop := cs = [] ∨ ∃ dir, cs = dir ++ ['/']

theorem stepsOf_front {front : List Char} (hf : IsFront front) {name : String} (h : IsName name) :
    stepsOf (front ++ name.toList) = stepsOf front ++ [name] := by
  rcases hf with rfl | ⟨dir,rfl⟩
  · exact stepsOf_name h
  · have last := stepsOf_name h
    simp only [stepsOf] at last ⊢
    simp [Text.pieces_append, last, Text.pieces]

def front (dir : String) : List Char :=
  if dir.isEmpty || dir.toList.getLast? == some '/' then dir.toList else dir.toList ++ ['/']

theorem isFront_front (dir : String) : IsFront (front dir) := by
  unfold front
  split
  · rename_i h
    rcases Bool.or_eq_true_iff.mp h with h | h
    · left
      simpa using h
    · exact Or.inr (List.getLast?_eq_some_iff.mp (beq_iff_eq.mp h))
  · exact Or.inr ⟨_,rfl⟩

theorem stepsOf_front_eq (dir : String) : stepsOf (front dir) = stepsOf dir.toList := by
  unfold front
  split
  · rfl
  · exact stepsOf_append_slash _

theorem mem_of_mem_front {dir : String} {c : Char} (ne : c ≠ '/') (h : c ∈ front dir) :
    c ∈ dir.toList := by
  unfold front at h
  split at h
  · exact h
  · simpa [ne] using h

theorem mem_front {dir : String} {c : Char} (h : c ∈ dir.toList) : c ∈ front dir := by
  unfold front
  split
  · exact h
  · exact List.mem_append_left _ h

theorem isAbsolute_eq (path : String) : isAbsolute path = (path.toList.head? == some '/') := rfl

theorem isAbsolute_name {name : String} (h : IsName name) : isAbsolute name = false := by
  rw [isAbsolute_eq, beq_eq_false_iff_ne]
  intro first
  exact h.no_slash (List.mem_of_head? first)

theorem toList_join (dir : String) {name : String} (h : IsName name) :
    (join dir name).toList = front dir ++ name.toList := by
  unfold join front
  rw [isAbsolute_name h, Bool.false_or]
  split
  · rename_i he
    simp_all
  · split <;> simp_all

theorem head?_front (dir : String) : front dir = [] ∨ (front dir).head? = dir.toList.head? := by
  unfold front
  cases hd : dir.toList with
  | nil => simp [String.toList_eq_nil_iff.mp hd]
  | cons c cs => split <;> simp

theorem isAbsolute_join (dir : String) {name : String} (h : IsName name) :
    isAbsolute (join dir name) = isAbsolute dir := by
  have first := isAbsolute_name h
  rw [isAbsolute_eq] at first
  rw [isAbsolute_eq, isAbsolute_eq, toList_join dir h]
  unfold front
  cases hd : dir.toList with
  | nil => simpa [String.toList_eq_nil_iff.mp hd] using first
  | cons c cs => split <;> simp

theorem steps_join (dir : String) {name : String} (h : IsName name) :
    steps (join dir name) = (isAbsolute dir, (steps dir).2 ++ [name]) := by
  rw [steps_eq, steps_eq, isAbsolute_join dir h, toList_join dir h,
    stepsOf_front (isFront_front dir) h, stepsOf_front_eq]

theorem IsName.eq_concat {name : String} (h : IsName name) :
    ∃ init c, name.toList = init ++ [c] ∧ c ≠ '/' := by
  rcases List.eq_nil_or_concat name.toList with hnil | ⟨init,c,hc⟩
  · exact absurd (String.toList_eq_nil_iff.mp hnil) h.ne_empty
  · refine ⟨init,c,by simpa using hc,?_⟩
    rintro rfl
    exact h.no_slash (by simp [hc])

theorem endsAsFolder_join (dir : String) {name : String} (h : IsName name) :
    endsAsFolder (join dir name) = false := by
  obtain ⟨init,c,hc,ne⟩ := h.eq_concat
  simp [endsAsFolder, toList_join dir h, hc, ne]

theorem isEmpty_join (dir : String) {name : String} (h : IsName name) :
    (join dir name).isEmpty = false := by
  obtain ⟨init,c,hc,_⟩ := h.eq_concat
  rw [← Bool.not_eq_true, String.isEmpty_iff, ← String.toList_inj, toList_join dir h, hc]
  simp

theorem zero_mem_join (dir : String) {name : String} (h : IsName name) :
    '\x00' ∈ (join dir name).toList ↔ '\x00' ∈ dir.toList := by
  rw [toList_join dir h, List.mem_append]
  constructor
  · rintro (front | own)
    · exact mem_of_mem_front (by decide) front
    · exact absurd own h.no_zero
  · exact fun zero => Or.inl (mem_front zero)

theorem piece_of_mem_steps {path name : String} (h : name ∈ (steps path).2) :
    name ≠ "" ∧ name ≠ "." ∧ '/' ∉ name.toList ∧ name.toList ⊆ path.toList := by
  rw [steps_eq, stepsOf, List.mem_filter, List.mem_map] at h
  obtain ⟨⟨piece,found,rfl⟩,kept⟩ := h
  rw [Bool.and_eq_true_iff, bne_iff_ne, bne_iff_ne] at kept
  rw [String.toList_ofList]
  exact ⟨kept.1,kept.2,Text.subset_of_mem_pieces found⟩

theorem slash_not_mem_of_mem_steps {path name : String} (h : name ∈ (steps path).2) :
    '/' ∉ name.toList := (piece_of_mem_steps h).2.2.1

theorem isName_of_mem_steps {path name : String} (clean : '\x00' ∉ path.toList)
    (h : name ∈ (steps path).2) (forward : name ≠ "..") : IsName name := by
  obtain ⟨filled,ne,plain,sub⟩ := piece_of_mem_steps h
  exact ⟨filled,ne,forward,plain,fun zero => clean (sub zero)⟩

/-! ## Parents -/

theorem stepsOf_dropSlashes (cs : List Char) :
    stepsOf (cs.dropWhile (· == '/')).reverse = stepsOf cs.reverse := by
  induction cs with
  | nil => rfl
  | cons c cs ih =>
    by_cases hc : c = '/'
    · subst hc
      simp [ih, stepsOf_append_slash]
    · simp [hc]

theorem IsName.forall_ne_slash {name : String} (h : IsName name) :
    ∀ x ∈ name.toList.reverse, (x != '/') = true := by
  intro x hx
  rw [bne_iff_ne]
  rintro rfl
  exact h.no_slash (List.mem_reverse.mp hx)

/-- From its end a path has the name first, and then what stands in front of it. -/
theorem reverse_join (dir : String) {name : String} (h : IsName name) :
    (join dir name).toList.reverse = name.toList.reverse ++ (front dir).reverse := by
  rw [toList_join dir h, List.reverse_append]

theorem takeWhile_join (dir : String) {name : String} (h : IsName name) :
    (join dir name).toList.reverse.takeWhile (· != '/') = name.toList.reverse := by
  have none : (front dir).reverse.takeWhile (· != '/') = [] := by
    rcases isFront_front dir with hf | ⟨d,hf⟩ <;> simp [hf]
  rw [reverse_join dir h, List.takeWhile_append_of_pos h.forall_ne_slash, none, List.append_nil]

theorem dropWhile_join (dir : String) {name : String} (h : IsName name) :
    (join dir name).toList.reverse.dropWhile (· != '/') = (front dir).reverse := by
  have all : (front dir).reverse.dropWhile (· != '/') = (front dir).reverse := by
    rcases isFront_front dir with hf | ⟨d,hf⟩ <;> simp [hf]
  rw [reverse_join dir h, List.dropWhile_append_of_pos h.forall_ne_slash, all]

theorem toList_parent_join (dir : String) {name : String} (h : IsName name) :
    (parent (join dir name)).toList = ((front dir).reverse.dropWhile (· == '/')).reverse := by
  obtain ⟨init,c,hc,ne⟩ := h.eq_concat
  have last : (join dir name).toList.reverse.dropWhile (· == '/') =
      (join dir name).toList.reverse := by
    simp [reverse_join dir h, hc, ne]
  rw [parent, last, dropWhile_join dir h, String.toList_ofList]

/-- Going back from a name in a folder leads to the folder, unless that is the working folder or the
root. -/
theorem parent_join (dir : String) {name : String} (h : IsName name) :
    parent (join dir name) = "" ∨ steps (parent (join dir name)) = steps dir := by
  have above := toList_parent_join dir h
  cases hp : (parent (join dir name)).toList with
  | nil => exact Or.inl (String.toList_eq_nil_iff.mp hp)
  | cons c cs =>
    right
    have same : stepsOf (parent (join dir name)).toList = stepsOf dir.toList := by
      rw [above, stepsOf_dropSlashes, List.reverse_reverse, stepsOf_front_eq]
    obtain ⟨rest,hrest⟩ : c :: cs <+: front dir := by
      rw [← hp, above, ← List.reverse_suffix, List.reverse_reverse]
      exact List.dropWhile_suffix _
    have first : dir.toList.head? = some c := by
      rcases head?_front dir with hf | hf
      · simp [hf] at hrest
      · rw [← hf, ← hrest]
        rfl
    rw [steps_eq, steps_eq, same, isAbsolute_eq, isAbsolute_eq, hp, first]
    rfl

/-! ## Endings -/

/-- A name may have any dots of its own; only its last ending is cut. -/
theorem stem_append {name ending : List Char} (filled : name ≠ []) (plain : '.' ∉ ending) :
    stem (name ++ '.' :: ending) = name := by
  have skipped : ∀ x ∈ ending.reverse, (x != '.') = true := by
    intro x hx
    rw [bne_iff_ne]
    rintro rfl
    exact plain (List.mem_reverse.mp hx)
  have cut : (name ++ '.' :: ending).reverse.dropWhile (· != '.') = '.' :: name.reverse := by
    simp [List.dropWhile_append_of_pos skipped]
  obtain ⟨c,cs,hc⟩ := List.exists_cons_of_ne_nil (mt List.reverse_eq_nil_iff.mp filled)
  rw [stem, cut, hc]
  simp [← hc]

theorem withEnding_join (dir : String) {name before after old ending : String} (filled : before ≠ "")
    (plain : '.' ∉ old.toList) (old_name : name = before ++ "." ++ old) (hn : IsName name)
    (new_name : after = before ++ "." ++ ending) (ha : IsName after) :
    withEnding (join dir name) ending = join dir after := by
  have filled' : before.toList ≠ [] := mt String.toList_eq_nil_iff.mp filled
  have cut : stem name.toList = before.toList := by
    rw [old_name]
    simpa using stem_append filled' plain
  apply String.toList_inj.mp
  rw [withEnding, takeWhile_join dir hn, dropWhile_join dir hn, List.reverse_reverse,
    List.reverse_reverse, cut, toList_join dir ha, new_name]
  simp

/-! ## Keys -/

/-- The last step of a key is the name that stands in the place. -/
theorem steps_key (absolute : Bool) (reached : List String) {name : String} (h : IsName name) :
    ∃ above, (steps (key absolute (reached ++ [name]))).2 = above ++ [name] := by
  have inPlace : ∃ f, IsFront f ∧ (key absolute (reached ++ [name])).toList = f ++ name.toList := by
    cases reached with
    | nil =>
      cases absolute
      · exact ⟨[],Or.inl rfl,by simp [key]⟩
      · exact ⟨['/'],Or.inr ⟨[],rfl⟩,by simp [key]⟩
    | cons r rs =>
      have split := String.intercalate_append_of_ne_nil (s := "/") (List.cons_ne_nil r rs)
        (List.cons_ne_nil name [])
      refine ⟨_,Or.inr ⟨((if absolute then "/" else "") ++ "/".intercalate (r :: rs)).toList,rfl⟩,?_⟩
      rw [key, split]
      simp [String.toList_append]
  obtain ⟨f,hf,hk⟩ := inPlace
  exact ⟨stepsOf f,by rw [steps_eq, hk, stepsOf_front hf h]⟩

theorem key_injective {absolute : Bool} {reached : List String} {a b : String} (ha : IsName a)
    (hb : IsName b) (h : key absolute (reached ++ [a]) = key absolute (reached ++ [b])) : a = b := by
  obtain ⟨x,hx⟩ := steps_key absolute reached ha
  obtain ⟨y,hy⟩ := steps_key absolute reached hb
  rw [h, hy] at hx
  have last := (List.append_inj' hx rfl).2
  simpa using last.symm

/-- The last slash of a text stands before the name at its end. -/
theorem slash_injective {above above' name name' : String} (hn : '/' ∉ name.toList)
    (hn' : '/' ∉ name'.toList) (h : above ++ "/" ++ name = above' ++ "/" ++ name') : above = above' := by
  have texts := congrArg (fun s : String => s.toList.reverse.dropWhile (· != '/')) h
  have skipped (n : String) (hn : '/' ∉ n.toList) : ∀ x ∈ n.toList.reverse, (x != '/') = true := by
    intro x hx
    rw [bne_iff_ne]
    rintro rfl
    exact hn (List.mem_reverse.mp hx)
  simp [List.dropWhile_append_of_pos (skipped _ hn), List.dropWhile_append_of_pos (skipped _ hn')] at texts
  exact String.toList_inj.mp texts

theorem key_nil (absolute : Bool) : (steps (key absolute [])).2 = [] := by
  cases absolute <;> rfl

theorem key_concat {absolute : Bool} {reached : List String} (inner : reached ≠ []) (name : String) :
    key absolute (reached ++ [name]) = key absolute reached ++ "/" ++ name := by
  rw [key, key, String.intercalate_append_of_ne_nil inner (List.cons_ne_nil name [])]
  simp [String.append_assoc]

/-- A key is longer than the keys of the places above. -/
theorem length_key_lt_concat (absolute : Bool) (reached : List String) {name : String}
    (hn : IsName name) : (key absolute reached).length < (key absolute (reached ++ [name])).length := by
  have filled : 0 < name.length := by
    rw [Nat.pos_iff_ne_zero]
    intro h
    exact hn.ne_empty (by simpa using h)
  cases reached with
  | nil => simp [key, filled]
  | cons r rs =>
    rw [key_concat (List.cons_ne_nil r rs)]
    simp only [String.length_append]
    omega

theorem length_key_le_append (absolute : Bool) (reached : List String) {names : List String}
    (hn : ∀ name ∈ names, IsName name) :
    (key absolute reached).length ≤ (key absolute (reached ++ names)).length := by
  induction names generalizing reached with
  | nil => simp
  | cons name names ih =>
    obtain ⟨first,rest⟩ := List.forall_mem_cons.mp hn
    rw [List.append_cons]
    exact Nat.le_trans (Nat.le_of_lt (length_key_lt_concat absolute reached first)) (ih _ rest)

theorem length_key_take_lt (absolute : Bool) (reached : List String) {names : List String}
    {name : String} (hs : ∀ name ∈ names, IsName name) (hn : IsName name) (n : Nat) :
    (key absolute (reached ++ names.take n)).length <
      (key absolute (reached ++ (names ++ [name]))).length := by
  have rest : ∀ x ∈ names.drop n, IsName x := fun x hx => hs x (List.mem_of_mem_drop hx)
  have more := length_key_le_append absolute (reached ++ names.take n) rest
  rw [List.append_assoc, List.take_append_drop] at more
  rw [← List.append_assoc]
  exact Nat.lt_of_le_of_lt more (length_key_lt_concat absolute _ hn)

end HealthProbe.Path
