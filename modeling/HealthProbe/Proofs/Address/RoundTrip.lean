import HealthProbe.Address
import Mathlib.Algebra.Group.Nat.Defs

/-! # Reading back an address

Every address can be read from its own text: octets, groups of which a run of zeros has been left out, all
eight groups, and an address of the other family behind its prefix. What follows a group is the end or a
colon, so no group is taken for octets, and the groups before and behind a gap are read each to its end.
-/
namespace HealthProbe.Address

/-! ## Digits -/

def Ends (digit? : Char → Option Nat) (cs : List Char) : Prop := ∀ c ∈ cs.head?, digit? c = none

theorem ends_nil {digit? : Char → Option Nat} : Ends digit? [] := nofun

theorem spanDigits_of_ends {digit? : Char → Option Nat} {cs : List Char} (ends : Ends digit? cs) :
    spanDigits digit? cs = ([],cs) := by
  cases cs with
  | nil => rfl
  | cons c cs => simp [spanDigits, ends c rfl]

theorem spanDigits_append {digit? : Char → Option Nat} {ns : List Nat} {ds cs : List Char}
    (digits : ds.map digit? = ns.map some) (ends : Ends digit? cs) :
    spanDigits digit? (ds ++ cs) = (ns,cs) := by
  induction ds generalizing ns with
  | nil =>
    obtain rfl := List.map_eq_nil_iff.mp digits.symm
    exact spanDigits_of_ends ends
  | cons d ds ih =>
    cases ns with
    | nil => cases digits
    | cons n ns =>
      obtain ⟨first,later⟩ := List.cons.inj digits
      simp [spanDigits, first, ih later]

theorem valueIn_concat (base : Nat) (ns : List Nat) (n : Nat) :
    valueIn base (ns ++ [n]) = base * valueIn base ns + n := by
  simp [valueIn]

/-- The digits of a number, with no zero in front of others. -/
theorem exists_digits {digit? : Char → Option Nat} {base : Nat} (two : 1 < base)
    (reads : ∀ d, d < base → digit? d.digitChar = some d) (n : Nat) :
    ∃ ns, (Nat.toDigits base n).map digit? = ns.map some ∧ ns ≠ [] ∧ valueIn base ns = n ∧
      (ns.head? = some 0 → n = 0) := by
  induction n using Nat.strongRecOn with
  | ind n ih =>
  by_cases single : n < base
  · refine ⟨[n],?_,List.cons_ne_nil n [],?_,?_⟩
    · simp [Nat.toDigits_of_lt_base single, reads n single]
    · simp [valueIn]
    · simp
  · have le : base ≤ n := Nat.le_of_not_lt single
    have front : n / base ≠ 0 := Nat.ne_of_gt (Nat.div_pos le (by omega))
    obtain ⟨ns,digits,nonempty,value,zero⟩ := ih (n / base) (Nat.div_lt_self (by omega) two)
    have last := reads (n % base) (Nat.mod_lt n (by omega))
    refine ⟨ns ++ [n % base],?_,by simp,?_,?_⟩
    · rw [Nat.toDigits_of_base_le two le, List.map_append, digits, List.map_append]
      simp [last]
    · rw [valueIn_concat, value, Nat.div_add_mod]
    · intro h
      rw [List.head?_append, Option.or_of_isSome (List.isSome_head?.mpr nonempty)] at h
      exact absurd (zero h) front

theorem decimal?_digitChar : ∀ d, d < 10 → decimal? d.digitChar = some d := by decide

theorem hexValue?_digitChar : ∀ d, d < 16 → hexValue? d.digitChar = some d := by decide

theorem octet?_octetChars (n : UInt8) {cs : List Char} (ends : Ends decimal? cs) :
    octet? (octetChars n ++ cs) = some (n,cs) := by
  obtain ⟨ns,digits,nonempty,value,zero⟩ := exists_digits (by decide) decimal?_digitChar n.toNat
  have length : (Nat.toDigits 10 n.toNat).length = ns.length := by
    simpa using congrArg List.length digits
  have three : ns.length ≤ 3 := by
    rw [← length]
    have small : n.toNat < 10 ^ 3 := by
      have := n.toNat_lt
      omega
    exact (Nat.length_toDigits_le_iff (by decide) (by decide)).mpr small
  have alone : ns.head? = some 0 → ns.length = 1 := by
    intro h
    rw [← length, zero h, Nat.toDigits_zero]
    rfl
  have small : n.toNat < 256 := n.toNat_lt
  rw [octet?, octetChars, spanDigits_append digits ends]
  simp only [value]
  rw [if_neg, UInt8.ofNat_toNat]
  rintro (empty | long | ⟨h,more⟩ | large)
  · exact nonempty empty
  · omega
  · exact more (alone h)
  · omega

theorem group?_groupChars (g : UInt16) {cs : List Char} (ends : Ends hexValue? cs) :
    group? (groupChars g ++ cs) = some (g,cs) := by
  obtain ⟨ns,digits,nonempty,value,_⟩ := exists_digits (by decide) hexValue?_digitChar g.toNat
  have length : (Nat.toDigits 16 g.toNat).length = ns.length := by
    simpa using congrArg List.length digits
  have four : ns.length ≤ 4 := by
    rw [← length]
    exact (Nat.length_toDigits_le_iff (by decide) (by decide)).mpr g.toNat_lt
  rw [group?, groupChars, spanDigits_append digits ends]
  simp only [value]
  rw [if_neg, UInt16.ofNat_toNat]
  rintro (empty | long)
  · exact nonempty empty
  · omega

/-! ## Octets -/

theorem octets?_dotted (a b c d : UInt8) {cs : List Char} (ends : Ends decimal? cs) :
    octets? (dotted a b c d ++ cs) = some ((a,b,c,d),cs) := by
  have dot (cs : List Char) : Ends decimal? ('.' :: cs) := by
    rintro c ⟨⟩
    decide
  simp [octets?, dotted, octet?_octetChars _ (dot _), octet?_octetChars d ends, expect]

def Closes (cs : List Char) : Prop := ∀ c ∈ cs.head?, c = ':'

theorem Closes.nil : Closes [] := nofun

theorem Closes.colon (cs : List Char) : Closes (':' :: cs) := by
  rintro c ⟨⟩
  rfl

theorem Closes.ends {digit? : Char → Option Nat} {cs : List Char} (closes : Closes cs)
    (colon : digit? ':' = none) : Ends digit? cs := by
  intro c hc
  rw [closes c hc, colon]

theorem expect_dot_spanDigits {ds cs : List Char} (undotted : ∀ c ∈ ds, c ≠ '.') (closes : Closes cs) :
    expect '.' (spanDigits decimal? (ds ++ cs)).2 = none := by
  induction ds with
  | nil =>
    rw [List.nil_append, spanDigits_of_ends (closes.ends (by decide))]
    cases cs with
    | nil => rfl
    | cons c cs =>
      obtain rfl := closes c rfl
      rfl
  | cons d ds ih =>
    obtain ⟨first,later⟩ := List.forall_mem_cons.mp undotted
    rw [List.cons_append, spanDigits]
    split
    · exact ih later
    · simp [expect, first]

theorem snd_of_octet? {n : UInt8} {cs rest : List Char} (h : octet? cs = some (n,rest)) :
    rest = (spanDigits decimal? cs).2 := by
  simp only [octet?, Option.ite_none_left_eq_some, Option.some.injEq, Prod.mk.injEq] at h
  exact h.2.2.symm

/-- No octets are read where no dot comes before the next colon. -/
theorem octets?_eq_none {ds cs : List Char} (undotted : ∀ c ∈ ds, c ≠ '.') (closes : Closes cs) :
    octets? (ds ++ cs) = none := by
  have dot := expect_dot_spanDigits undotted closes
  cases first : octet? (ds ++ cs) with
  | none => simp [octets?, first]
  | some r =>
    rw [← snd_of_octet? first] at dot
    simp [octets?, first, dot]

theorem Closes.octets?_eq_none {cs : List Char} (closes : Closes cs) : octets? cs = none :=
  @Address.octets?_eq_none [] cs nofun closes

theorem ne_dot_of_mem_groupChars {g : UInt16} : ∀ c ∈ groupChars g, c ≠ '.' := by
  rintro c hc rfl
  obtain ⟨ns,digits,_⟩ := exists_digits (by decide) hexValue?_digitChar g.toNat
  have read : hexValue? '.' ∈ (Nat.toDigits 16 g.toNat).map hexValue? := List.mem_map_of_mem hc
  rw [digits] at read
  obtain ⟨n,_,hn⟩ := List.mem_map.mp read
  cases hn

/-! ## Groups -/

def colonsBefore (gs : List UInt16) : List Char := gs.flatMap fun g => ':' :: groupChars g

theorem colons_cons (g : UInt16) (gs : List UInt16) :
    colons (g :: gs) = groupChars g ++ colonsBefore gs := by
  induction gs generalizing g with
  | nil => simp [colons, colonsBefore]
  | cons h gs ih => simp [colons, ih, colonsBefore]

def Halts (cs : List Char) : Prop := cs = [] ∨ ∃ rest, cs = ':' :: ':' :: rest

theorem Halts.closes {cs : List Char} (halts : Halts cs) : Closes cs := by
  obtain rfl | ⟨rest,rfl⟩ := halts
  · exact .nil
  · exact .colon _

theorem closes_colonsBefore {gs : List UInt16} {cs : List Char} (halts : Halts cs) :
    Closes (colonsBefore gs ++ cs) := by
  cases gs with
  | nil => exact halts.closes
  | cons g gs => exact .colon _

theorem group?_eq_none {cs : List Char} (closes : Closes cs) : group? cs = none := by
  rw [group?, spanDigits_of_ends (closes.ends (by decide))]
  rfl

/-- One group more. -/
theorem groups?_group {first : Bool} {cs rest : List Char} {g : UInt16} {limit : Nat}
    (start : (if first then some cs else expect ':' cs) = some (groupChars g ++ rest))
    (closes : Closes rest) :
    groups? first cs (limit + 1) =
      (g :: (groups? false rest limit).1,(groups? false rest limit).2) := by
  have octets : octets? (groupChars g ++ rest) = none := octets?_eq_none ne_dot_of_mem_groupChars closes
  rw [groups?, start]
  simp only [octets, ite_self, group?_groupChars g (closes.ends (by decide))]

theorem groups?_halts {first : Bool} {cs : List Char} (halts : Halts cs) (limit : Nat) :
    groups? first cs limit = ([],false,cs) := by
  cases limit with
  | zero => rfl
  | succ limit =>
    rw [groups?]
    cases start : (if first then some cs else expect ':' cs) with
    | none => rfl
    | some front =>
      have closes : Closes front := by
        cases first with
        | true => exact Option.some.inj start ▸ halts.closes
        | false =>
          obtain rfl | ⟨rest,rfl⟩ := halts
          · cases start
          · exact Option.some.inj start ▸ .colon rest
      have octets : octets? front = none := closes.octets?_eq_none
      simp only [octets, ite_self, group?_eq_none closes]

theorem groups?_colonsBefore {gs : List UInt16} {cs : List Char} {limit : Nat} (halts : Halts cs)
    (room : gs.length ≤ limit) : groups? false (colonsBefore gs ++ cs) limit = (gs,false,cs) := by
  induction gs generalizing limit with
  | nil => exact groups?_halts halts limit
  | cons g gs ih =>
    obtain ⟨limit,rfl⟩ := Nat.exists_eq_add_of_lt (Nat.lt_of_lt_of_le (Nat.succ_pos _) room)
    rw [Nat.zero_add] at room ⊢
    have start : (if false = true then some (colonsBefore (g :: gs) ++ cs)
        else expect ':' (colonsBefore (g :: gs) ++ cs)) =
          some (groupChars g ++ (colonsBefore gs ++ cs)) := by
      simp [colonsBefore, expect]
    rw [groups?_group start (closes_colonsBefore halts), ih (Nat.le_of_succ_le_succ room)]

theorem groups?_colons {gs : List UInt16} {cs : List Char} {limit : Nat} (halts : Halts cs)
    (room : gs.length ≤ limit) : groups? true (colons gs ++ cs) limit = (gs,false,cs) := by
  cases gs with
  | nil => exact groups?_halts halts limit
  | cons g gs =>
    obtain ⟨limit,rfl⟩ := Nat.exists_eq_add_of_lt (Nat.lt_of_lt_of_le (Nat.succ_pos _) room)
    rw [Nat.zero_add] at room ⊢
    rw [colons_cons, List.append_assoc, groups?_group rfl (closes_colonsBefore halts),
      groups?_colonsBefore halts (Nat.le_of_succ_le_succ room)]

/-! ## Zeros that are left out -/

theorem take_zerosAtFront (gs : List UInt16) :
    gs.take (zerosAtFront gs) = List.replicate (zerosAtFront gs) 0 := by
  have front : gs.take (zerosAtFront gs) = gs.takeWhile (· == 0) :=
    (List.prefix_iff_eq_take.mp (List.takeWhile_prefix _)).symm
  rw [front, zerosAtFront, List.eq_replicate_iff]
  refine ⟨rfl,?_⟩
  intro g hg
  simpa using List.all_eq_true.mp List.all_takeWhile g hg

/-- The longest run of zeros lies among the groups, and is one of zeros. -/
theorem longestZeros_spec (gs : List UInt16) :
    (longestZeros gs).1 + (longestZeros gs).2 ≤ gs.length ∧
      (gs.drop (longestZeros gs).1).take (longestZeros gs).2 =
        List.replicate (longestZeros gs).2 0 := by
  induction gs with
  | nil => exact ⟨Nat.le_refl 0,rfl⟩
  | cons g gs ih =>
    obtain ⟨within,zeros⟩ := ih
    simp only [longestZeros]
    split
    · refine ⟨?_,take_zerosAtFront (g :: gs)⟩
      rw [Nat.zero_add]
      exact (List.takeWhile_prefix _).length_le
    · refine ⟨?_,zeros⟩
      rw [List.length_cons]
      omega

/-- Groups are those before a run of zeros, the zeros, and those behind it. -/
theorem append_longestZeros (gs : List UInt16) :
    gs.take (longestZeros gs).1 ++ List.replicate (longestZeros gs).2 0 ++
      gs.drop ((longestZeros gs).1 + (longestZeros gs).2) = gs := by
  rw [← (longestZeros_spec gs).2, List.append_assoc, ← List.drop_drop, List.take_append_drop,
    List.take_append_drop]

/-! ## Both families -/

theorem ofGroups?_eq {gs hs : List UInt16} (eight : gs.length = 8) (same : hs = gs) :
    ofGroups? hs = some (v6 gs eight) := by
  subst same
  rw [ofGroups?, dif_pos eight]

theorem readV6?_colons {gs : List UInt16} (eight : gs.length = 8) :
    readV6? (colons gs) = some (v6 gs eight,[]) := by
  have front := groups?_colons (.inl rfl) (Nat.le_of_eq eight)
  rw [List.append_nil] at front
  rw [readV6?, front]
  simp only [eight, if_true, ofGroups?_eq eight rfl, Option.map_some]

/-- Groups with a gap between them, which stands for as many zeros as are missing. -/
theorem readV6?_gap {gs front back : List UInt16} {zeros : Nat} (eight : gs.length = 8)
    (some : 0 < zeros) (parts : front ++ List.replicate zeros 0 ++ back = gs) :
    readV6? (colons front ++ ':' :: ':' :: colons back) = .some (v6 gs eight,[]) := by
  have length : front.length + zeros + back.length = 8 := by
    rw [← eight, ← parts]
    simp only [List.length_append, List.length_replicate]
  have before : groups? true (colons front ++ ':' :: ':' :: colons back) 8 =
      (front,false,':' :: ':' :: colons back) := groups?_colons (.inr ⟨_,rfl⟩) (by omega)
  have behind : groups? true (colons back) (7 - front.length) = (back,false,[]) := by
    have room : back.length ≤ 7 - front.length := by omega
    have read := groups?_colons (.inl rfl) room
    rwa [List.append_nil] at read
  have missing : 8 - front.length - back.length = zeros := by omega
  have fewer : front.length ≠ 8 := by omega
  rw [readV6?, before]
  simp [fewer, expect, behind, missing, ofGroups?_eq eight ((List.append_assoc ..).symm.trans parts)]

theorem pair_octets (g : UInt16) : pair (UInt8.ofNat (g.toNat / 256)) (UInt8.ofNat (g.toNat % 256)) = g := by
  have small : g.toNat < 65536 := g.toNat_lt
  rw [pair, UInt8.toNat_ofNat', UInt8.toNat_ofNat']
  have whole : 256 * (g.toNat / 256 % 2 ^ 8) + g.toNat % 256 % 2 ^ 8 = g.toNat := by omega
  rw [whole, UInt16.ofNat_toNat]

theorem readV6?_mapped (a b c d : UInt8) (eight : [0, 0, 0, 0, 0, 0xffff, pair a b, pair c d].length = 8) :
    readV6? (':' :: ':' :: 'f' :: 'f' :: 'f' :: 'f' :: ':' :: dotted a b c d) =
      some (v6 [0, 0, 0, 0, 0, 0xffff, pair a b, pair c d] eight,[]) := by
  have front : groups? true (':' :: ':' :: 'f' :: 'f' :: 'f' :: 'f' :: ':' :: dotted a b c d) 8 =
      ([],false,':' :: ':' :: 'f' :: 'f' :: 'f' :: 'f' :: ':' :: dotted a b c d) :=
    groups?_halts (.inr ⟨_,rfl⟩) 8
  have octets : octets? (dotted a b c d) = some ((a,b,c,d),[]) := by
    have read := octets?_dotted a b c d ends_nil
    rwa [List.append_nil] at read
  have last : groups? false (':' :: dotted a b c d) 6 = ([pair a b, pair c d],true,[]) := by
    simp [groups?, expect, octets]
  have start : (if true = true then some ('f' :: 'f' :: 'f' :: 'f' :: ':' :: dotted a b c d)
      else expect ':' ('f' :: 'f' :: 'f' :: 'f' :: ':' :: dotted a b c d)) =
        some (groupChars 0xffff ++ ':' :: dotted a b c d) := rfl
  have back : groups? true ('f' :: 'f' :: 'f' :: 'f' :: ':' :: dotted a b c d) 7 =
      ([0xffff, pair a b, pair c d],true,[]) := by
    rw [groups?_group start (.colon _), last]
  rw [readV6?, front]
  simp [expect, back, ofGroups?]

theorem eq_of_mapped? {gs : List UInt16} {a b c d : UInt8} (h : mapped? gs = some (a,b,c,d)) :
    gs = [0, 0, 0, 0, 0, 0xffff, pair a b, pair c d] := by
  unfold mapped? at h
  split at h
  · cases h
    rw [pair_octets, pair_octets]
  · cases h

/-- Groups are not taken for octets. -/
theorem octets?_colons (gs : List UInt16) {cs : List Char} (halts : Halts cs) :
    octets? (colons gs ++ cs) = none := by
  cases gs with
  | nil => exact halts.closes.octets?_eq_none
  | cons g gs =>
    rw [colons_cons, List.append_assoc]
    exact octets?_eq_none ne_dot_of_mem_groupChars (closes_colonsBefore halts)

theorem readV6?_chars (gs : List UInt16) (eight : gs.length = 8) :
    octets? (v6 gs eight).chars = none ∧ readV6? (v6 gs eight).chars = some (v6 gs eight,[]) := by
  rw [chars]
  cases family : mapped? gs with
  | some octets =>
    obtain ⟨a,b,c,d⟩ := octets
    obtain rfl := eq_of_mapped? family
    exact ⟨(Closes.colon _).octets?_eq_none,readV6?_mapped a b c d eight⟩
  | none =>
    have parts := append_longestZeros gs
    simp only [groupsChars]
    split
    · rename_i long
      exact ⟨octets?_colons _ (.inr ⟨_,rfl⟩),readV6?_gap eight (by omega) parts⟩
    · have whole := octets?_colons gs (.inl rfl)
      rw [List.append_nil] at whole
      exact ⟨whole,readV6?_colons eight⟩

/-- The text of an address reads as the address. -/
@[simp] theorem read_text (a : Address) : read a.text = some a := by
  rw [read, text, String.toList_ofList, readChars]
  cases a with
  | v4 a b c d =>
    have octets := octets?_dotted a b c d ends_nil
    rw [List.append_nil] at octets
    simp [chars, octets]
  | v6 gs eight =>
    obtain ⟨octets,groups⟩ := readV6?_chars gs eight
    simp [octets, groups]

end HealthProbe.Address
