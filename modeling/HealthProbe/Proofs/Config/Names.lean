import HealthProbe.Name
import HealthProbe.Text.Blank
import HealthProbe.Text.Pieces
import Mathlib.Data.List.Basic

/-! # What a name is

A name is made of labels between dots. The reader of names goes through a text once and keeps only the
place where it stands; that place says how much of a label it has read, and this is what the proof
carries along the text.
-/
namespace HealthProbe.Name

def IsLabelChar (c : Char) : Prop := ('a' ≤ c ∧ c ≤ 'z') ∨ ('0' ≤ c ∧ c ≤ '9') ∨ c = '-'

/-- A label has a character at least and no hyphen at either end. -/
structure IsLabel (cs : List Char) : Prop where
  filled : cs ≠ []
  chars : ∀ c ∈ cs, IsLabelChar c
  first : cs.head? ≠ some '-'
  last : cs.getLast? ≠ some '-'

/-- The name of a node: labels between dots, of no more than 253 bytes together. -/
def IsDomain (s : String) : Prop :=
  s.utf8ByteSize ≤ 253 ∧
    ∃ labels : List String, labels ≠ [] ∧ s = ".".intercalate labels ∧ ∀ l ∈ labels, IsLabel l.toList

/-! ## Characters -/

theorem isSmallAlnum_iff {c : Char} :
    isSmallAlnum c = true ↔ ('a' ≤ c ∧ c ≤ 'z') ∨ ('0' ≤ c ∧ c ≤ '9') := by
  simp [isSmallAlnum, Char.isDigit, Char.le_def, UInt32.le_iff_toNat_le]

theorem IsLabelChar.of_isSmallAlnum {c : Char} (h : isSmallAlnum c = true) : IsLabelChar c := by
  rcases isSmallAlnum_iff.mp h with letter | digit
  · exact Or.inl letter
  · exact Or.inr (Or.inl digit)

theorem isLabelChar_iff {c : Char} : IsLabelChar c ↔ isSmallAlnum c = true ∨ c = '-' := by
  rw [isSmallAlnum_iff, IsLabelChar, or_assoc]

theorem not_isLabelChar_dot : ¬ IsLabelChar '.' := by
  rw [isLabelChar_iff]
  decide

theorem IsLabelChar.not_isBlank {c : Char} (h : IsLabelChar c) : Text.isBlank c = false := by
  have bounds : 45 ≤ c.toNat ∧ c.toNat ≤ 122 ∧ c.toNat ≠ 133 := by
    rcases h with letter | digit | rfl
    · simp only [Char.le_def, UInt32.le_iff_toNat_le] at letter
      have low : 97 ≤ c.toNat := letter.1
      have high : c.toNat ≤ 122 := letter.2
      omega
    · simp only [Char.le_def, UInt32.le_iff_toNat_le] at digit
      have low : 48 ≤ c.toNat := digit.1
      have high : c.toNat ≤ 57 := digit.2
      omega
    · decide
  simp [Text.isBlank]
  omega

/-! ## The part of a label that has been read -/

structure Opens (cs : List Char) : Prop where
  filled : cs ≠ []
  chars : ∀ c ∈ cs, IsLabelChar c
  first : cs.head? ≠ some '-'

theorem isLabel_iff_opens {cs : List Char} : IsLabel cs ↔ Opens cs ∧ cs.getLast? ≠ some '-' := by
  constructor
  · intro h
    exact ⟨⟨h.filled,h.chars,h.first⟩,h.last⟩
  · rintro ⟨h,last⟩
    exact ⟨h.filled,h.chars,h.first,last⟩

theorem Opens.append {cs : List Char} (h : Opens cs) {c : Char} (hc : IsLabelChar c) :
    Opens (cs ++ [c]) := by
  refine ⟨by simp,?_,?_⟩
  · intro x hx
    rcases List.mem_append.mp hx with hx | hx
    · exact h.chars x hx
    · exact List.mem_singleton.mp hx ▸ hc
  · rw [List.head?_append_of_ne_nil _ h.filled]
    exact h.first

theorem opens_singleton {c : Char} (hc : isSmallAlnum c = true) : Opens [c] := by
  refine ⟨by simp,?_,?_⟩
  · intro x hx
    exact List.mem_singleton.mp hx ▸ .of_isSmallAlnum hc
  · rintro ⟨⟩
    exact absurd hc (by decide)

def Seen : Place → List Char → Prop
  | .start, read => read = []
  | .inside, read => IsLabel read
  | .hyphen, read => Opens read ∧ read.getLast? = some '-'

variable {p : Place} {read : List Char}

theorem Seen.chars (h : Seen p read) : ∀ c ∈ read, IsLabelChar c := by
  cases p with
  | start =>
    cases h
    simp
  | inside => exact (show IsLabel read from h).chars
  | hyphen => exact h.1.chars

theorem Seen.dot_not_mem (h : Seen p read) : '.' ∉ read :=
  fun hm => not_isLabelChar_dot (h.chars '.' hm)

theorem Seen.opens (h : Seen p read) (ne : p ≠ .start) : Opens read := by
  cases p with
  | start => exact absurd rfl ne
  | inside => exact (isLabel_iff_opens.mp h).1
  | hyphen => exact h.1

/-- A label may end only after a letter or a digit. -/
theorem Seen.isLabel_iff (h : Seen p read) : IsLabel read ↔ p = .inside := by
  cases p with
  | start =>
    cases h
    exact ⟨fun label => absurd rfl label.filled,fun h => by cases h⟩
  | inside => exact ⟨fun _ => rfl,fun _ => h⟩
  | hyphen => exact ⟨fun label => absurd h.2 label.last,fun h => by cases h⟩

theorem Seen.alnum (h : Seen p read) {c : Char} (hc : isSmallAlnum c = true) :
    Seen .inside (read ++ [c]) := by
  have opens : Opens (read ++ [c]) := by
    by_cases atStart : p = .start
    · subst atStart
      cases h
      exact opens_singleton hc
    · exact (h.opens atStart).append (.of_isSmallAlnum hc)
  refine isLabel_iff_opens.mpr ⟨opens,?_⟩
  rw [List.getLast?_concat]
  rintro ⟨⟩
  exact absurd hc (by decide)

theorem Seen.dash (h : Seen p read) (ne : p ≠ .start) : Seen .hyphen (read ++ ['-']) :=
  ⟨(h.opens ne).append (isLabelChar_iff.mpr (Or.inr rfl)),by simp⟩

/-! ## Reading on -/

/-- A text whose first label cannot go on as it begins has a piece that is no label. -/
theorem not_forall_isLabel_of_front {front cs : List Char} (h : '.' ∉ front) (bad : ¬ Opens front)
    (filled : front ≠ []) : ¬ ∀ piece ∈ Text.pieces '.' (front ++ cs), IsLabel piece := by
  intro labels
  obtain ⟨rest,more,hp⟩ := Text.exists_pieces_append h cs
  have label := labels (front ++ rest) (hp ▸ List.mem_cons_self)
  have first := label.first
  rw [List.head?_append_of_ne_nil front filled] at first
  exact bad ⟨filled,fun c hc => label.chars c (List.mem_append_left rest hc),first⟩

/-- From a place on, a text is accepted just when it brings the label that has been begun to a good end
and has nothing but labels after it. -/
theorem accepts_iff {dots : Bool} {cs : List Char} (h : Seen p read) :
    accepts dots p cs = true ↔
      (∀ piece ∈ Text.pieces '.' (read ++ cs), IsLabel piece) ∧ (dots = false → '.' ∉ cs) := by
  -- A letter or a hyphen moves from what is left to what has been read; a dot begins with nothing read.
  induction cs generalizing p read with
  | nil =>
    rw [List.append_nil, Text.pieces_of_not_mem h.dot_not_mem, accepts, beq_iff_eq, ← h.isLabel_iff]
    simp
  | cons c cs ih =>
    have shift : read ++ c :: cs = read ++ [c] ++ cs := by simp
    rw [accepts]
    by_cases alnum : isSmallAlnum c = true
    · have ne : '.' ≠ c := by
        rintro rfl
        exact absurd alnum (by decide)
      rw [if_pos alnum, ih (h.alnum alnum), shift, List.mem_cons, or_iff_right ne]
    rw [if_neg alnum]
    by_cases hyphen : c = '-'
    · subst hyphen
      rw [if_pos rfl, Bool.and_eq_true, bne_iff_ne, List.mem_cons, or_iff_right (by decide), shift]
      by_cases atStart : p = .start
      · subst atStart
        cases h
        have bad : ¬ ∀ piece ∈ Text.pieces '.' (['-'] ++ cs), IsLabel piece :=
          not_forall_isLabel_of_front (by decide) (fun opens => opens.first rfl) (by simp)
        exact ⟨fun hp => absurd rfl hp.1,fun hp => absurd hp.1 bad⟩
      · rw [ih (h.dash atStart), and_iff_right atStart]
    rw [if_neg hyphen]
    by_cases dot : c = '.'
    · subst dot
      have rest := ih (show Seen .start [] from rfl)
      rw [List.nil_append] at rest
      rw [if_pos rfl, Text.pieces_append, Text.pieces_of_not_mem h.dot_not_mem, Bool.and_eq_true,
        Bool.and_eq_true, beq_iff_eq, ← h.isLabel_iff, rest]
      cases dots <;> simp
    · have noDot : '.' ∉ read ++ [c] := by
        rw [List.mem_append, List.mem_singleton]
        rintro (hm | rfl)
        · exact h.dot_not_mem hm
        · exact dot rfl
      have bad : ¬ Opens (read ++ [c]) := by
        intro opens
        rcases isLabelChar_iff.mp (opens.chars c (by simp)) with good | good
        · exact alnum good
        · exact hyphen good
      rw [if_neg dot, shift]
      constructor
      · intro hf
        cases hf
      · intro hp
        exact absurd hp.1 (not_forall_isLabel_of_front noDot bad (by simp))

/-! ## Names -/

theorem toList_intercalate_dot (labels : List String) :
    (".".intercalate labels).toList = Text.join '.' (labels.map String.toList) := by
  rw [String.toList_intercalate, Text.join_eq_intercalate]
  rfl

theorem IsLabel.dot_not_mem {cs : List Char} (h : IsLabel cs) : '.' ∉ cs :=
  fun hm => not_isLabelChar_dot (h.chars '.' hm)

theorem isNode_iff {s : String} : isNode s = true ↔ IsDomain s := by
  have reads : accepts true .start s.toList = true ↔
      ∀ piece ∈ Text.pieces '.' s.toList, IsLabel piece := by
    rw [accepts_iff (show Seen .start [] from rfl)]
    simp
  rw [isNode, Bool.and_eq_true, decide_eq_true_iff, reads, IsDomain]
  refine and_congr_right fun _ => ?_
  constructor
  · intro h
    refine ⟨(Text.pieces '.' s.toList).map String.ofList,?_,?_,?_⟩
    · exact mt List.map_eq_nil_iff.mp (Text.pieces_ne_nil '.' s.toList)
    · apply String.toList_inj.mp
      rw [toList_intercalate_dot, List.map_map]
      simp [Function.comp_def, Text.join_pieces]
    · intro l hl
      obtain ⟨piece,hpiece,rfl⟩ := List.mem_map.mp hl
      rw [String.toList_ofList]
      exact h piece hpiece
  · rintro ⟨labels,filled,rfl,h⟩ piece hpiece
    have whole : Text.pieces '.' (".".intercalate labels).toList = labels.map String.toList := by
      rw [toList_intercalate_dot]
      refine Text.pieces_join (mt List.map_eq_nil_iff.mp filled) ?_
      intro piece hp
      obtain ⟨l,hl,rfl⟩ := List.mem_map.mp hp
      exact (h l hl).dot_not_mem
    rw [whole] at hpiece
    obtain ⟨l,hl,rfl⟩ := List.mem_map.mp hpiece
    exact h l hl

theorem isChecker_iff {s : String} : isChecker s = true ↔ s.length ≤ 63 ∧ IsLabel s.toList := by
  rw [isChecker, Bool.and_eq_true, decide_eq_true_iff, accepts_iff (show Seen .start [] from rfl), List.nil_append]
  refine and_congr_right fun _ => ?_
  constructor
  · rintro ⟨labels,plain⟩
    rw [Text.pieces_of_not_mem (plain rfl)] at labels
    exact labels s.toList List.mem_cons_self
  · intro label
    refine ⟨?_,fun _ => label.dot_not_mem⟩
    rw [Text.pieces_of_not_mem label.dot_not_mem]
    intro piece hpiece
    exact List.mem_singleton.mp hpiece ▸ label

theorem IsDomain.not_blank {s : String} (h : IsDomain s) : Text.blank s = false := by
  obtain ⟨_,labels,filled,rfl,hlabels⟩ := h
  obtain ⟨l,rest,rfl⟩ := List.exists_cons_of_ne_nil filled
  obtain ⟨c,cs,hc⟩ := List.exists_cons_of_ne_nil (hlabels l List.mem_cons_self).filled
  have label := (hlabels l List.mem_cons_self).chars c (hc ▸ List.mem_cons_self)
  rw [Text.blank, toList_intercalate_dot]
  cases rest <;> simp [Text.join, hc, label.not_isBlank]

end HealthProbe.Name
