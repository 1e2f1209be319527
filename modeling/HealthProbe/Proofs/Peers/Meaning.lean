import HealthProbe.Peers.Selector
import HealthProbe.Proofs.OneByOne
import HealthProbe.Proofs.Text.Trimming

/-! # What a selector demands

The parts of a selector stand between its commas. A blank part demands nothing, and any other must be a key and
a value with the first equals sign of the part between them. Of two selectors with a comma between them each
keeps its meaning, and blank parts and blanks around parts, keys and values do not count.
-/
namespace HealthProbe.Selector
open Text (IsBlank trim)

variable {part other key value key' value' : List Char} {parts others : List (List Char)} {d : String × String}
  {s t : String} {sel : Selector}

/-! ## One part -/

/-- A part demands a value of a key, which is not blank and stands before the first equals sign. -/
structure IsDemand (part key value : List Char) : Prop where
  split : part = key ++ '=' :: value
  first : '=' ∉ key
  filled : ¬IsBlank key

def demandOf (key value : List Char) : String × String :=
  (String.ofList (trim key), String.ofList (trim value))

theorem not_mem_of_isBlank {c : Char} (blank : IsBlank part) (h : Text.isBlank c = false) : c ∉ part :=
  fun mem => Bool.false_ne_true (h.symm.trans (blank c mem))

theorem IsDemand.not_isBlank (h : IsDemand part key value) : ¬IsBlank part := by
  intro blank
  refine h.filled fun c hc => blank c ?_
  rw [h.split]
  exact List.mem_append_left _ hc

theorem demand?_append (first : '=' ∉ key) (value : List Char) :
    demand? (key ++ '=' :: value) = if IsBlank key then none else some (demandOf key value) := by
  simp only [demand?, Text.cut_append first, List.isEmpty_iff, Text.trim_eq_nil_iff]
  rfl

theorem demand?_of_not_mem (h : '=' ∉ part) : demand? part = none := by
  rw [demand?, Text.cut_of_not_mem h]

theorem demand?_eq_some_iff :
    demand? part = some d ↔ ∃ key value, IsDemand part key value ∧ demandOf key value = d := by
  constructor
  · intro h
    by_cases mem : '=' ∈ part
    · obtain ⟨key,value,rfl,first⟩ := List.eq_append_cons_of_mem mem
      rw [demand?_append first] at h
      split at h
      · cases h
      · rename_i filled
        exact ⟨key,value,⟨rfl,first,filled⟩,Option.some_inj.mp h⟩
    · rw [demand?_of_not_mem mem] at h
      cases h
  · rintro ⟨key,value,⟨rfl,first,filled⟩,rfl⟩
    rw [demand?_append first, if_neg filled]

theorem demand?_congr (first : '=' ∉ key) (first' : '=' ∉ key') (keys : trim key = trim key')
    (values : trim value = trim value') :
    demand? (key ++ '=' :: value) = demand? (key' ++ '=' :: value') := by
  rw [demand?_append first, demand?_append first', demandOf, demandOf, keys, values]
  refine if_congr ?_ rfl rfl
  rw [← Text.trim_eq_nil_iff, ← Text.trim_eq_nil_iff, keys]

/-- Blanks around a part come to stand around its key and around its value. -/
theorem demand?_trim (part : List Char) : demand? (trim part) = demand? part := by
  obtain ⟨front,back,before,behind,split⟩ := Text.exists_trim part
  have inFront := not_mem_of_isBlank (c := '=') before (by decide)
  have inBack := not_mem_of_isBlank (c := '=') behind (by decide)
  by_cases mem : '=' ∈ trim part
  · obtain ⟨key,value,core,first⟩ := List.eq_append_cons_of_mem mem
    have whole : part = (front ++ key) ++ '=' :: (value ++ back) := by
      rw [split, core]
      simp
    have keys : trim key = trim (front ++ key) := by
      have padded := Text.trim_append before Text.isBlank_nil key
      rw [List.append_nil] at padded
      exact padded.symm
    have values : trim value = trim (value ++ back) := (Text.trim_append Text.isBlank_nil behind value).symm
    rw [core, whole]
    exact demand?_congr first (by simp [inFront, first]) keys values
  · rw [demand?_of_not_mem mem, demand?_of_not_mem]
    rw [split]
    simp [inFront, inBack, mem]

/-! ## All parts -/

def filled (parts : List (List Char)) : List (List Char) := parts.filter fun p => !decide (IsBlank p)

theorem mem_filled : part ∈ filled parts ↔ part ∈ parts ∧ ¬IsBlank part := by
  simp [filled]

theorem filled_cons_of_blank (blank : IsBlank part) (parts : List (List Char)) :
    filled (part :: parts) = filled parts := by
  simp [filled, blank]

theorem filled_cons_of_not_blank (h : ¬IsBlank part) (parts : List (List Char)) :
    filled (part :: parts) = part :: filled parts := by
  simp [filled, h]

theorem parse?_eq (s : String) : parse? s = ((filled (s.toList.splitOn ',')).mapM demand?).map Selector.mk := by
  have trimmed : Selector.parts s.toList = (filled (s.toList.splitOn ',')).map trim := by
    rw [Selector.parts, Text.pieces_eq_splitOn, List.filter_map, filled]
    refine congrArg _ (List.filter_congr fun p _ => congrArg not ?_)
    rw [Bool.eq_iff_iff, List.isEmpty_iff, Text.trim_eq_nil_iff, decide_eq_true_iff]
  have read : demand? ∘ trim = demand? := funext demand?_trim
  rw [parse?, trimmed, List.mapM_map, read]

theorem parse_eq_ok_iff :
    parse s = .ok sel ↔ (filled (s.toList.splitOn ',')).mapM demand? = some sel.demands := by
  rw [parse, parse?_eq]
  cases h : (filled (s.toList.splitOn ',')).mapM demand? with
  | none => simp
  | some demands =>
    obtain ⟨wanted⟩ := sel
    simp

theorem parse_eq_error (h : ¬∃ sel, parse s = .ok sel) : parse s = .error (.badSelector s) := by
  rw [parse] at h ⊢
  cases hs : parse? s with
  | none => rfl
  | some sel => exact absurd ⟨sel,by rw [hs]⟩ h

theorem exists_parse_iff :
    (∃ sel, parse s = .ok sel) ↔ ∀ part ∈ filled (s.toList.splitOn ','), ∃ d, demand? part = some d := by
  rw [← exists_mapM_iff]
  constructor
  · rintro ⟨sel,h⟩
    exact ⟨sel.demands,parse_eq_ok_iff.mp h⟩
  · rintro ⟨demands,h⟩
    exact ⟨⟨demands⟩,parse_eq_ok_iff.mpr h⟩

theorem admits_iff_forall (h : parse s = .ok sel) (labels : Table String) :
    sel.admits labels = true ↔
      ∀ part ∈ filled (s.toList.splitOn ','), ∀ d, demand? part = some d → labels.find? d.1 = some d.2 := by
  simp only [admits, List.all_eq_true, beq_iff_eq, mem_iff_of_mapM (parse_eq_ok_iff.mp h)]
  exact ⟨fun all part hp d hd => all d ⟨part,hp,hd⟩,fun all d ⟨part,hp,hd⟩ => all part hp d hd⟩

/-! ## Two texts with a comma between them -/

theorem filled_append (a b : String) : filled ((a ++ "," ++ b).toList.splitOn ',') =
    filled (a.toList.splitOn ',') ++ filled (b.toList.splitOn ',') := by
  have chars : (a ++ "," ++ b).toList = a.toList ++ ',' :: b.toList := by simp
  rw [chars, List.splitOn_append_cons_self]
  exact List.filter_append ..

theorem exists_parse_append_iff (a b : String) :
    (∃ z, parse (a ++ "," ++ b) = .ok z) ↔ (∃ x, parse a = .ok x) ∧ ∃ y, parse b = .ok y := by
  rw [exists_parse_iff, exists_parse_iff, exists_parse_iff, filled_append, List.forall_mem_append]

theorem admits_append {a b : String} {x y z : Selector} (hx : parse a = .ok x) (hy : parse b = .ok y)
    (hz : parse (a ++ "," ++ b) = .ok z) (labels : Table String) :
    z.admits labels = (x.admits labels && y.admits labels) := by
  rw [Bool.eq_iff_iff, Bool.and_eq_true, admits_iff_forall hx, admits_iff_forall hy, admits_iff_forall hz,
    filled_append, List.forall_mem_append]

/-! ## Blanks -/

/-- Parts that differ in blanks only: in those around a part, a key or a value, and in blank parts. -/
inductive Respaced : List (List Char) → List (List Char) → Prop
  | nil : Respaced [] []
  | left {p : List Char} {ps qs : List (List Char)} (blank : IsBlank p) (rest : Respaced ps qs) :
      Respaced (p :: ps) qs
  | right {q : List Char} {ps qs : List (List Char)} (blank : IsBlank q) (rest : Respaced ps qs) :
      Respaced ps (q :: qs)
  | part {p q : List Char} {ps qs : List (List Char)} (same : trim p = trim q) (rest : Respaced ps qs) :
      Respaced (p :: ps) (q :: qs)
  | demand {k k' v v' : List Char} {ps qs : List (List Char)} (first : '=' ∉ k) (first' : '=' ∉ k')
      (keys : trim k = trim k') (values : trim v = trim v') (rest : Respaced ps qs) :
      Respaced ((k ++ '=' :: v) :: ps) ((k' ++ '=' :: v') :: qs)

theorem mapM_demand?_cons_congr (first : IsBlank part ↔ IsBlank other) (same : demand? part = demand? other)
    (rest : (filled parts).mapM demand? = (filled others).mapM demand?) :
    (filled (part :: parts)).mapM demand? = (filled (other :: others)).mapM demand? := by
  by_cases blank : IsBlank part
  · rwa [filled_cons_of_blank blank, filled_cons_of_blank (first.mp blank)]
  · rw [filled_cons_of_not_blank blank, filled_cons_of_not_blank (mt first.mpr blank), List.mapM_cons,
      List.mapM_cons, same, rest]

theorem Respaced.mapM_demand?_eq (h : Respaced parts others) :
    (filled parts).mapM demand? = (filled others).mapM demand? := by
  induction h with
  | nil => rfl
  | left blank _ ih => rwa [filled_cons_of_blank blank]
  | right blank _ ih => rwa [filled_cons_of_blank blank]
  | part same _ ih =>
    refine mapM_demand?_cons_congr ?_ ?_ ih
    · rw [← Text.trim_eq_nil_iff, same, Text.trim_eq_nil_iff]
    · rw [← demand?_trim, same, demand?_trim]
  | demand first first' keys values _ ih =>
    refine mapM_demand?_cons_congr ?_ (demand?_congr first first' keys values) ih
    -- An equals sign is no blank.
    have sign {front back : List Char} : ¬IsBlank (front ++ '=' :: back) :=
      fun blank => not_mem_of_isBlank blank (c := '=') (by decide) (by simp)
    exact iff_of_false sign sign

/-! ## The language -/

structure Reads (s : String) : Prop where
  accepted : (∃ sel, parse s = .ok sel) ↔
    ∀ part ∈ s.toList.splitOn ',', ¬IsBlank part → ∃ key value, IsDemand part key value
  refused : (¬∃ sel, parse s = .ok sel) → parse s = .error (.badSelector s)
  admits : ∀ sel, parse s = .ok sel → ∀ labels : Table String, sel.admits labels = true ↔
    ∀ part ∈ s.toList.splitOn ',', ∀ key value, IsDemand part key value →
      labels.find? (String.ofList (trim key)) = some (String.ofList (trim value))

theorem reads (s : String) : Reads s := by
  refine ⟨?_,parse_eq_error,?_⟩
  · rw [exists_parse_iff]
    simp only [mem_filled, and_imp, demand?_eq_some_iff]
    refine forall₃_congr fun part _ _ => ?_
    exact ⟨fun ⟨_,key,value,h,_⟩ => ⟨key,value,h⟩,fun ⟨key,value,h⟩ => ⟨_,key,value,h,rfl⟩⟩
  · intro sel hs labels
    rw [admits_iff_forall hs]
    simp only [mem_filled, demand?_eq_some_iff]
    constructor
    · intro all part hp key value h
      exact all part ⟨hp,h.not_isBlank⟩ _ ⟨key,value,h,rfl⟩
    · rintro all part ⟨hp,-⟩ d ⟨key,value,h,rfl⟩
      exact all part hp key value h

structure Joins (a b : String) : Prop where
  accepted : (∃ z, parse (a ++ "," ++ b) = .ok z) ↔ (∃ x, parse a = .ok x) ∧ ∃ y, parse b = .ok y
  admits : ∀ x y, parse a = .ok x → parse b = .ok y → ∃ z, parse (a ++ "," ++ b) = .ok z ∧
    ∀ labels, z.admits labels = (x.admits labels && y.admits labels)
  turned : ∀ z, parse (a ++ "," ++ b) = .ok z → ∃ z', parse (b ++ "," ++ a) = .ok z' ∧
    ∀ labels, z'.admits labels = z.admits labels

theorem joins (a b : String) : Joins a b := by
  have both {a b : String} {x y : Selector} (hx : parse a = .ok x) (hy : parse b = .ok y) :
      ∃ z, parse (a ++ "," ++ b) = .ok z ∧
        ∀ labels, z.admits labels = (x.admits labels && y.admits labels) := by
    obtain ⟨z,hz⟩ := (exists_parse_append_iff a b).mpr ⟨⟨x,hx⟩,⟨y,hy⟩⟩
    exact ⟨z,hz,admits_append hx hy hz⟩
  refine ⟨exists_parse_append_iff a b,fun x y => both,?_⟩
  intro z hz
  obtain ⟨⟨x,hx⟩,⟨y,hy⟩⟩ := (exists_parse_append_iff a b).mp ⟨z,hz⟩
  obtain ⟨z',hz',admits⟩ := both hy hx
  refine ⟨z',hz',fun labels => ?_⟩
  rw [admits, admits_append hx hy hz, Bool.and_comm]

/-- What texts mean as selectors, alone, joined, and with blanks put in or left out. -/
theorem language :
    (∀ s, Reads s) ∧ (∀ a b, Joins a b) ∧
      ∀ s t : String, Respaced (s.toList.splitOn ',') (t.toList.splitOn ',') →
        ∀ sel, parse s = .ok sel ↔ parse t = .ok sel := by
  refine ⟨reads,joins,fun s t respaced sel => ?_⟩
  have same : (filled (s.toList.splitOn ',')).mapM demand? = (filled (t.toList.splitOn ',')).mapM demand? :=
    respaced.mapM_demand?_eq
  rw [parse_eq_ok_iff, parse_eq_ok_iff, same]

/-- A value with an equals sign of its own, and blanks wherever they may stand. -/
theorem language_spacedOut :
    Respaced (" a = b ,\t, c=d=e".toList.splitOn ',') ("a=b,c=d=e".toList.splitOn ',') ∧
      parse " a = b ,\t, c=d=e" = .ok ⟨[("a", "b"), ("c", "d=e")]⟩ := by
  have spaced : " a = b ,\t, c=d=e".toList.splitOn ',' =
      [[' ', 'a', ' ', '=', ' ', 'b', ' '], ['\t'], [' ', 'c', '=', 'd', '=', 'e']] := by decide
  have close : "a=b,c=d=e".toList.splitOn ',' = [['a', '=', 'b'], ['c', '=', 'd', '=', 'e']] := by decide
  have respaced : Respaced (" a = b ,\t, c=d=e".toList.splitOn ',') ("a=b,c=d=e".toList.splitOn ',') := by
    rw [spaced, close]
    refine .demand (by decide : '=' ∉ [' ', 'a', ' ']) (by decide : '=' ∉ ['a']) (by decide)
      (by decide : trim [' ', 'b', ' '] = trim ['b']) ?_
    exact .left (by decide) (.part (by decide) .nil)
  exact ⟨respaced,(language.2.2 _ _ respaced _).mpr (by decide)⟩

end HealthProbe.Selector
