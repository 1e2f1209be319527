/-! # Cutting text at a separator

The pieces of a text between the occurrences of one character; there is one more piece than there are
separators. Joining the pieces gives the text back.
-/
namespace HealthProbe.Text

def pieces (sep : Char) : List Char → List (List Char)
  | [] => [[]]
  | c :: cs =>
    if c = sep then [] :: pieces sep cs
    else
      match pieces sep cs with
      | [] => [[c]]
      | p :: ps => (c :: p) :: ps

def join (sep : Char) : List (List Char) → List Char
  | [] => []
  | [p] => p
  | p :: q :: ps => p ++ sep :: join sep (q :: ps)

def cut (sep : Char) : List Char → List Char × Option (List Char)
  | [] => ([], none)
  | c :: cs =>
    if c = sep then ([], some cs)
    else
      let (front, back) := cut sep cs
      (c :: front, back)

theorem pieces_ne_nil (sep : Char) (cs : List Char) : pieces sep cs ≠ [] := by
  cases cs with
  | nil => simp [pieces]
  | cons c cs =>
    unfold pieces
    split
    · simp
    · split <;> simp

theorem join_pieces (sep : Char) (cs : List Char) : join sep (pieces sep cs) = cs := by
  induction cs with
  | nil => rfl
  | cons c cs ih =>
    unfold pieces
    split
    · rename_i h
      subst h
      cases hp : pieces c cs with
      | nil => exact absurd hp (pieces_ne_nil c cs)
      | cons p ps => rw [hp] at ih; simp [join, ih]
    · cases hp : pieces sep cs with
      | nil => exact absurd hp (pieces_ne_nil sep cs)
      | cons p ps =>
        rw [hp] at ih
        cases ps with
        | nil => simpa [join] using ih
        | cons q qs => simpa [join] using ih

/-- No piece has the separator in it, and all that it has stands in the text. -/
theorem subset_of_mem_pieces {sep : Char} {cs p : List Char} (h : p ∈ pieces sep cs) :
    sep ∉ p ∧ p ⊆ cs := by
  induction cs generalizing p with
  | nil =>
    rw [pieces, List.mem_singleton] at h
    subst h
    simp
  | cons c cs ih =>
    rw [pieces] at h
    split at h
    · rcases List.mem_cons.mp h with rfl | h
      · simp
      · exact ⟨(ih h).1,List.subset_cons_of_subset c (ih h).2⟩
    · rename_i ne
      cases hp : pieces sep cs with
      | nil => exact absurd hp (pieces_ne_nil sep cs)
      | cons q qs =>
        rw [hp] at h ih
        rcases List.mem_cons.mp h with rfl | h
        · obtain ⟨plain,sub⟩ := ih List.mem_cons_self
          exact ⟨by simp [plain, Ne.symm ne],List.cons_subset_cons c sub⟩
        · obtain ⟨plain,sub⟩ := ih (List.mem_cons_of_mem q h)
          exact ⟨plain,List.subset_cons_of_subset c sub⟩

theorem pieces_of_not_mem {sep : Char} {cs : List Char} (h : sep ∉ cs) : pieces sep cs = [cs] := by
  induction cs with
  | nil => rfl
  | cons c cs ih =>
    have ne : c ≠ sep := fun eq => h (eq ▸ List.mem_cons_self)
    rw [pieces, if_neg ne, ih fun hm => h (List.mem_cons_of_mem c hm)]

theorem pieces_append (sep : Char) (xs ys : List Char) :
    pieces sep (xs ++ sep :: ys) = pieces sep xs ++ pieces sep ys := by
  induction xs with
  | nil => simp [pieces]
  | cons x xs ih =>
    rw [List.cons_append, pieces, pieces, ih]
    split
    · rw [List.cons_append]
    · cases hp : pieces sep xs with
      | nil => exact absurd hp (pieces_ne_nil sep xs)
      | cons p ps => rfl

/-- The first piece begins with all that stands before the first separator. -/
theorem exists_pieces_append {sep : Char} {front : List Char} (h : sep ∉ front) (cs : List Char) :
    ∃ rest more, pieces sep (front ++ cs) = (front ++ rest) :: more := by
  induction front with
  | nil =>
    obtain ⟨piece,more,hp⟩ := List.exists_cons_of_ne_nil (pieces_ne_nil sep cs)
    exact ⟨piece,more,hp⟩
  | cons x front ih =>
    obtain ⟨rest,more,hp⟩ := ih fun hm => h (List.mem_cons_of_mem x hm)
    have ne : x ≠ sep := fun eq => h (eq ▸ List.mem_cons_self)
    refine ⟨rest,more,?_⟩
    rw [List.cons_append, pieces, if_neg ne, hp]
    rfl

theorem pieces_join {sep : Char} {parts : List (List Char)} (filled : parts ≠ [])
    (plain : ∀ part ∈ parts, sep ∉ part) : pieces sep (join sep parts) = parts := by
  induction parts with
  | nil => exact absurd rfl filled
  | cons part parts ih =>
    obtain ⟨hpart,hrest⟩ := List.forall_mem_cons.mp plain
    cases parts with
    | nil => exact pieces_of_not_mem hpart
    | cons next parts =>
      rw [join, pieces_append, pieces_of_not_mem hpart, ih (List.cons_ne_nil _ _) hrest]
      rfl

theorem pieces_eq_splitOn (sep : Char) (cs : List Char) : pieces sep cs = cs.splitOn sep := by
  induction cs with
  | nil => simp [pieces]
  | cons c cs ih =>
    rw [pieces, List.splitOn_cons_eq_if_modifyHead, ← ih]
    by_cases h : c = sep
    · rw [if_pos h, if_pos (beq_iff_eq.mpr h)]
    · rw [if_neg h, if_neg (mt beq_iff_eq.mp h)]
      cases hp : pieces sep cs with
      | nil => exact absurd hp (pieces_ne_nil sep cs)
      | cons p ps => rfl

theorem join_eq_intercalate (sep : Char) (parts : List (List Char)) :
    join sep parts = [sep].intercalate parts := by
  induction parts with
  | nil => rfl
  | cons part parts ih =>
    cases parts with
    | nil => simp [join]
    | cons next parts =>
      rw [join, ih, List.intercalate_cons_cons, List.append_assoc, List.singleton_append]

theorem cut_of_not_mem {sep : Char} {cs : List Char} (h : sep ∉ cs) : cut sep cs = (cs, none) := by
  induction cs with
  | nil => rfl
  | cons c cs ih =>
    have ne : c ≠ sep := fun eq => h (eq ▸ List.mem_cons_self)
    rw [cut, if_neg ne, ih fun hm => h (List.mem_cons_of_mem c hm)]

theorem cut_append {sep : Char} {front : List Char} (h : sep ∉ front) (back : List Char) :
    cut sep (front ++ sep :: back) = (front, some back) := by
  induction front with
  | nil => simp [cut]
  | cons c front ih =>
    have ne : c ≠ sep := fun eq => h (eq ▸ List.mem_cons_self)
    rw [List.cons_append, cut, if_neg ne, ih fun hm => h (List.mem_cons_of_mem c hm)]

end HealthProbe.Text
