import HealthProbe.Config.Substitution
import Mathlib.Data.List.Infix
import Mathlib.Tactic.Tauto

/-! # References in a text

A reference is known by its front alone, and no other begins before it ends, because only its first
character is a dollar sign. So a text is cut into its references and the characters between them in one
way, and what is found in it one after the other is what stands in it.
-/
namespace HealthProbe.Substitution

/-! ## Names and references -/

/-- A letter or an underscore, and after it letters, digits and underscores. -/
def IsName : List Char → Prop
  | [] => False
  | c :: cs => isNameStart c = true ∧ ∀ x ∈ cs, isNameChar x = true

def RefersAt (name : List Char) (i : Nat) (text : List Char) : Prop :=
  IsName name ∧ referenceText name <+: text.drop i

def Clean (text : List Char) : Prop := ∀ name i, ¬ RefersAt name i text

def body (name : List Char) : List Char := '\x7b' :: name ++ ['\x7d']

theorem referenceText_eq (name : List Char) : referenceText name = '$' :: body name := rfl

variable {name other cs rest : List Char} {c : Char}

theorem isNameChar_of_isNameStart (h : isNameStart c = true) : isNameChar c = true := by
  simp only [isNameStart, isNameChar, Bool.or_eq_true, Char.isAlphanum] at h ⊢
  tauto

theorem IsName.isNameChar (h : IsName name) : ∀ x ∈ name, isNameChar x = true := by
  cases name with
  | nil => exact h.elim
  | cons c cs => exact List.forall_mem_cons.mpr ⟨isNameChar_of_isNameStart h.1,h.2⟩

theorem dollar_not_mem_body (h : IsName name) : '$' ∉ body name := by
  have hname : '$' ∉ name := fun mem => absurd (h.isNameChar _ mem) (by decide)
  simp [body, hname]

theorem takeWhile_isNameChar (h : IsName name) (rest : List Char) :
    (name ++ '\x7d' :: rest).takeWhile isNameChar = name := by
  rw [List.takeWhile_append_of_pos h.isNameChar]
  simp [show isNameChar '\x7d' = false by decide]

theorem name?_eq_some_iff : name? cs = some name ↔ IsName name ∧ name ++ ['\x7d'] <+: cs := by
  constructor
  · intro h
    simp only [name?] at h
    split at h
    · rename_i start rest after hname hafter
      split at h
      · rename_i hstart
        cases h
        have chars : ∀ x ∈ cs.takeWhile isNameChar, isNameChar x = true :=
          List.all_eq_true.mp List.all_takeWhile
        have split : cs = cs.takeWhile isNameChar ++ '\x7d' :: after := by
          rw [← hafter]
          exact (List.prefix_iff_eq_append.mp (List.takeWhile_prefix _)).symm
        rw [hname] at chars split ⊢
        exact ⟨⟨hstart,(List.forall_mem_cons.mp chars).2⟩,after,by simp [split]⟩
      · cases h
    · cases h
  · rintro ⟨hname,rest,rfl⟩
    have taken := takeWhile_isNameChar hname rest
    rw [List.append_assoc, List.singleton_append]
    simp only [name?, taken, List.drop_left]
    cases name with
    | nil => exact hname.elim
    | cons c cs => simp [hname.1]

theorem reference?_eq_some_iff : reference? cs = some name ↔ RefersAt name 0 cs := by
  unfold reference?
  split
  · rename_i rest
    rw [name?_eq_some_iff, RefersAt, List.drop_zero, referenceText_eq, body]
    simp
  · rename_i other
    constructor
    · intro h
      cases h
    · rintro ⟨_,rest,hrest⟩
      exact absurd hrest.symm (other _)

theorem reference?_eq_none_iff : reference? cs = none ↔ ∀ name, ¬ RefersAt name 0 cs := by
  rw [Option.eq_none_iff_forall_ne_some]
  exact forall_congr' fun name => not_congr reference?_eq_some_iff

/-- Of two references at one place the names are the same. -/
theorem RefersAt.unique (h : RefersAt name 0 cs) (h' : RefersAt other 0 cs) : name = other :=
  Option.some.inj ((reference?_eq_some_iff.mpr h).symm.trans (reference?_eq_some_iff.mpr h'))

theorem refersAt_append (h : IsName name) (rest : List Char) :
    RefersAt name 0 (referenceText name ++ rest) := ⟨h,List.prefix_append _ _⟩

theorem not_refersAt_nil (name : List Char) (i : Nat) : ¬ RefersAt name i [] := by
  rintro ⟨_,rest,h⟩
  simp [referenceText_eq] at h

/-! ## Pieces of a text -/

theorem piecesFrom_skip (xs rest : List Char) :
    piecesFrom xs.length (xs ++ rest) = piecesFrom 0 rest := by
  induction xs with
  | nil => rfl
  | cons x xs ih => exact ih

theorem pieces_reference (h : IsName name) (rest : List Char) :
    pieces (referenceText name ++ rest) = .reference name :: pieces rest := by
  have front := reference?_eq_some_iff.mpr (refersAt_append h rest)
  have length : (body name).length = name.length + 2 := by simp [body]
  rw [referenceText_eq, List.cons_append] at front ⊢
  simp only [pieces, piecesFrom, front]
  rw [← length, piecesFrom_skip]

theorem pieces_plain (h : ∀ name, ¬ RefersAt name 0 (c :: rest)) :
    pieces (c :: rest) = .plain c :: pieces rest := by
  have front := reference?_eq_none_iff.mpr h
  simp only [pieces, piecesFrom, front]

/-- A text begins with a reference or with a character at which none stands. -/
theorem text_induction {motive : List Char → Prop} (nil : motive [])
    (reference : ∀ name rest, IsName name → motive rest → motive (referenceText name ++ rest))
    (plain : ∀ c rest, (∀ name, ¬ RefersAt name 0 (c :: rest)) → motive rest → motive (c :: rest)) :
    ∀ text, motive text := by
  intro text
  induction hlen : text.length using Nat.strong_induction_on generalizing text with
  | _ n ih =>
    cases text with
    | nil => exact nil
    | cons c rest =>
      cases front : reference? (c :: rest) with
      | none =>
        refine plain c rest (reference?_eq_none_iff.mp front) (ih rest.length ?_ rest rfl)
        rw [← hlen, List.length_cons]
        omega
      | some name =>
        obtain ⟨hname,after,hafter⟩ := reference?_eq_some_iff.mp front
        rw [List.drop_zero] at hafter
        rw [← hafter] at hlen ⊢
        refine reference name after hname (ih after.length ?_ after rfl)
        rw [← hlen, List.length_append, referenceText_eq, List.length_cons]
        omega

/-! ## Where references stand -/

theorem RefersAt.getElem? {i : Nat} (h : RefersAt name i cs) : cs[i]? = some '$' := by
  obtain ⟨_,rest,hrest⟩ := h
  rw [← List.head?_drop, ← hrest]
  rfl

/-- After the dollar sign of a reference no other begins before it ends. -/
theorem refersAt_append_iff {i : Nat} (h : IsName name) :
    RefersAt other i (referenceText name ++ rest) ↔
      (i = 0 ∧ other = name) ∨
        ∃ j, i = (referenceText name).length + j ∧ RefersAt other j rest := by
  constructor
  · intro hi
    cases i with
    | zero => exact .inl ⟨rfl,hi.unique (refersAt_append h rest)⟩
    | succ i =>
      right
      by_cases inside : i < (body name).length
      · have hdollar := hi.getElem?
        rw [referenceText_eq, List.cons_append, List.getElem?_cons_succ,
          List.getElem?_append_left inside] at hdollar
        exact absurd (List.mem_of_getElem? hdollar) (dollar_not_mem_body h)
      · have hlen : (referenceText name).length = (body name).length + 1 := by
          rw [referenceText_eq, List.length_cons]
        have hsplit : i + 1 = (referenceText name).length + (i - (body name).length) := by omega
        refine ⟨_,hsplit,hi.1,?_⟩
        have hafter := hi.2
        rwa [hsplit, List.drop_length_add_append] at hafter
  · rintro (⟨rfl,rfl⟩ | ⟨j,rfl,hj⟩)
    · exact refersAt_append h rest
    · refine ⟨hj.1,?_⟩
      rw [List.drop_length_add_append]
      exact hj.2

theorem refersAt_cons_iff {i : Nat} (h : ∀ name, ¬ RefersAt name 0 (c :: rest)) :
    RefersAt other i (c :: rest) ↔ ∃ j, i = j + 1 ∧ RefersAt other j rest := by
  constructor
  · intro hi
    cases i with
    | zero => exact absurd hi (h other)
    | succ i => exact ⟨i,rfl,hi⟩
  · rintro ⟨j,rfl,hj⟩
    exact hj

/-! ## The references found are those that stand there -/

theorem references_reference (h : IsName name) (rest : List Char) :
    references (referenceText name ++ rest) = name :: references rest := by
  rw [references, pieces_reference h]
  rfl

theorem references_plain (h : ∀ name, ¬ RefersAt name 0 (c :: rest)) :
    references (c :: rest) = references rest := by
  rw [references, pieces_plain h]
  rfl

theorem mem_references_iff {text : List Char} :
    name ∈ references text ↔ ∃ i, RefersAt name i text := by
  induction text using text_induction with
  | nil =>
    refine iff_of_false (by simp [references, pieces, piecesFrom]) ?_
    rintro ⟨i,hi⟩
    exact not_refersAt_nil _ _ hi
  | reference m rest hm ih =>
    rw [references_reference hm, List.mem_cons, ih]
    simp only [refersAt_append_iff hm]
    constructor
    · rintro (same | ⟨i,hi⟩)
      · exact ⟨0,.inl ⟨rfl,same⟩⟩
      · exact ⟨_,.inr ⟨i,rfl,hi⟩⟩
    · rintro ⟨i,⟨_,same⟩ | ⟨j,_,hj⟩⟩
      · exact .inl same
      · exact .inr ⟨j,hj⟩
  | plain c rest here ih =>
    rw [references_plain here, ih]
    simp only [refersAt_cons_iff here]
    constructor
    · rintro ⟨i,hi⟩
      exact ⟨_,i,rfl,hi⟩
    · rintro ⟨_,i,_,hi⟩
      exact ⟨i,hi⟩

theorem clean_iff_references_eq_nil {text : List Char} : Clean text ↔ references text = [] := by
  simp only [List.eq_nil_iff_forall_not_mem, mem_references_iff, not_exists, Clean]

instance (text : List Char) : Decidable (Clean text) :=
  decidable_of_iff _ clean_iff_references_eq_nil.symm

/-! ## Texts without references -/

theorem Clean.left {before after : List Char} (h : Clean (before ++ after)) : Clean before := by
  rintro name i ⟨named,inside⟩
  exact h name i ⟨named,inside.trans ((List.prefix_append before after).drop i)⟩

theorem Clean.right {before after : List Char} (h : Clean (before ++ after)) : Clean after := by
  rintro name i ⟨named,inside⟩
  refine h name (before.length + i) ⟨named,?_⟩
  rwa [List.drop_length_add_append]

/-- Where a clean text is followed by nothing or by a dollar sign, no reference begins in it. -/
theorem Clean.not_refersAt_append {before : List Char} {i : Nat} (h : Clean before)
    (front : ∀ c ∈ rest.head?, c = '$') (hi : i < before.length) :
    ¬ RefersAt name i (before ++ rest) := by
  rintro ⟨named,after,hafter⟩
  rw [List.drop_append_of_le_length hi.le] at hafter
  rcases List.append_eq_append_iff.mp hafter with ⟨more,inside,_⟩ | ⟨more,across,hmore⟩
  · exact h name i ⟨named,more,inside.symm⟩
  · cases more with
    | nil => exact h name i ⟨named,[],by rw [across]; simp⟩
    | cons x more =>
      have hx : x = '$' := front x (by rw [hmore]; rfl)
      rw [List.drop_eq_getElem_cons hi, referenceText_eq, List.cons_append] at across
      have tail := (List.cons.inj across).2
      refine dollar_not_mem_body named ?_
      rw [tail, hx]
      simp

end HealthProbe.Substitution
