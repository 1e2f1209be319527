import HealthProbe.Time.Stamp
import Mathlib.Algebra.Group.Nat.Defs

/-! # Reading back a stamp

Every stamp can be read from its own text: years of any size and sign, leap seconds, and fractions of
each length. Each of the parts of the text is read by itself, whatever follows it, so long as a part of
no fixed length does not run into more digits.
-/
namespace HealthProbe

/-! ## Decimals -/

namespace Span

theorem isDigit_of_mem_padded {w n : Nat} {c : Char} (h : c ∈ padded w n) : c.isDigit = true := by
  rcases List.mem_append.mp h with h | h
  · rw [(List.mem_replicate.mp h).2]
    decide
  · exact Nat.isDigit_of_mem_toDigits (by decide) (by decide) h

theorem length_padded {w n : Nat} (pos : 0 < w) (h : n < 10 ^ w) : (padded w n).length = w := by
  have le := (Nat.length_toDigits_le_iff (b := 10) (by decide) pos).mpr h
  simp only [padded, List.length_append, List.length_replicate]
  omega

theorem padded_ne_nil (w n : Nat) : padded w n ≠ [] := by
  simp [padded]

theorem ofDigitChars_padded (w n : Nat) : Nat.ofDigitChars 10 (padded w n) 0 = n := by
  simp [padded, Nat.ofDigitChars_append]

end Span

namespace Time

theorem monthLength_le (year : Int) (month : Nat) : monthLength year month ≤ 31 := by
  unfold monthLength
  split
  any_goals decide
  split <;> decide

/-- A month with a day in it is one of the twelve. -/
theorem Date.month_le (d : Date) : d.month ≤ 12 := by
  have filled := Nat.le_trans d.day_pos d.day_le
  unfold monthLength at filled
  split at filled <;> omega

namespace Stamp
open HealthProbe.Span

theorem natOf_padded (w n : Nat) : natOf (padded w n) = n := ofDigitChars_padded w n

theorem isBlank_of_isDigit {c : Char} (h : c.isDigit = true) : Text.isBlank c = false := by
  have bounds : 48 ≤ c.toNat ∧ c.toNat ≤ 57 := by
    simpa [Char.isDigit, UInt32.le_iff_toNat_le] using h
  simp [Text.isBlank]
  omega

theorem trimStart_padded (w n : Nat) (cs : List Char) :
    Text.trimStart (padded w n ++ cs) = padded w n ++ cs := by
  obtain ⟨c,rest,hc⟩ := List.exists_cons_of_ne_nil (padded_ne_nil w n)
  rw [hc, List.cons_append]
  exact Text.trimStart_of_head (isBlank_of_isDigit (isDigit_of_mem_padded (hc ▸ List.mem_cons_self)))

/-! ## Runs of digits -/

def NoDigit (cs : List Char) : Prop := ∀ c ∈ cs.head?, c.isDigit = false

theorem takeWhile_isDigit {ds cs : List Char} (digits : ∀ c ∈ ds, c.isDigit = true) (stop : NoDigit cs) :
    (ds ++ cs).takeWhile Char.isDigit = ds := by
  have none : cs.takeWhile Char.isDigit = [] := by
    cases cs with
    | nil => rfl
    | cons c rest => simp [stop c rfl]
  rw [List.takeWhile_append_of_pos digits, none, List.append_nil]

/-- As many digits as there may be; whatever follows does not matter. -/
theorem digits?_full {w n : Nat} (pos : 0 < w) (h : n < 10 ^ w) (cs : List Char) :
    digits? (some w) (padded w n ++ cs) = some (padded w n, cs) := by
  have taken : ((padded w n ++ cs).takeWhile Char.isDigit).take w = padded w n := by
    rw [List.takeWhile_append_of_pos fun c => isDigit_of_mem_padded,
      List.take_left' (length_padded pos h)]
  simp [digits?, taken, padded_ne_nil]

/-- Fewer digits than there may be, and then no more of them. -/
theorem digits?_run {limit : Option Nat} {w n : Nat} (room : ∀ m ∈ limit, (padded w n).length ≤ m)
    {cs : List Char} (stop : NoDigit cs) :
    digits? limit (padded w n ++ cs) = some (padded w n, cs) := by
  have run := takeWhile_isDigit (fun c => isDigit_of_mem_padded (w := w) (n := n)) stop
  cases limit with
  | none => simp [digits?, run, padded_ne_nil]
  | some m => simp [digits?, run, padded_ne_nil, List.take_of_length_le (room m rfl)]

/-! ## The parts of a stamp -/

theorem bind_of_eq_some {α β : Type} {x : Option α} {a : α} (h : x = some a) {f : α → Option β} :
    x >>= f = f a := by
  rw [h]
  rfl

theorem field?_padded {n : Nat} (h : n < 100) (cs : List Char) :
    field? (padded 2 n ++ cs) = some (n, cs) := by
  rw [field?, trimStart_padded, digits?_full (by decide) h]
  simp [natOf_padded]

theorem mark?_cons {c : Char} (h : Text.isBlank c = false) (cs : List Char) :
    mark? c (c :: cs) = some cs := by
  simp [mark?, Text.trimStart_of_head h]

theorem year?_yearChars (y : Int) {cs : List Char} (stop : NoDigit cs) :
    year? (yearChars y ++ cs) = some (y, cs) := by
  have signed (n : Nat) : digits? none (padded 4 n ++ cs) = some (padded 4 n, cs) :=
    digits?_run (by simp) stop
  unfold yearChars
  split
  · rename_i four
    have full := digits?_full (w := 4) (n := y.toNat) (by decide) (by omega) cs
    obtain ⟨c,rest,hc⟩ := List.exists_cons_of_ne_nil (padded_ne_nil 4 y.toNat)
    have digit : c.isDigit = true := isDigit_of_mem_padded (hc ▸ List.mem_cons_self)
    rw [year?, trimStart_padded]
    rw [hc, List.cons_append] at full ⊢
    split
    · rename_i h
      cases h
      simp at digit
    · rename_i h
      cases h
      simp at digit
    · rw [full, Option.map_some, ← hc]
      simp only [natOf_padded, Option.some.injEq, Prod.mk.injEq, and_true]
      omega
  · rw [List.cons_append]
    split
    · rw [year?, Text.trimStart_of_head (by decide)]
      simp only [signed, Option.map_some, natOf_padded, Option.some.injEq, Prod.mk.injEq, and_true]
      omega
    · rw [year?, Text.trimStart_of_head (by decide)]
      simp only [signed, Option.map_some, natOf_padded, Option.some.injEq, Prod.mk.injEq, and_true]
      omega

theorem nanos?_fractionChars {n : Nat} (h : n < 1000000000) {cs : List Char} (stop : NoDigit cs)
    (point : cs.head? ≠ some '.') : nanos? (fractionChars n ++ cs) = some (n, cs) := by
  have places {w k : Nat} (pos : 0 < w) (le : w ≤ 9) (hk : k < 10 ^ w) :
      nanos? ('.' :: padded w k ++ cs) = some (k * 10 ^ (9 - w), cs) := by
    have len := length_padded pos hk
    have rest : cs.dropWhile Char.isDigit = cs := by
      cases cs with
      | nil => rfl
      | cons c rest => simp [stop c rfl]
    rw [List.cons_append, nanos?, digits?_run (by simpa [len] using le) stop]
    simp [natOf_padded, len, rest]
  unfold fractionChars
  split
  · subst n
    cases cs with
    | nil => rfl
    | cons c rest =>
      rw [List.nil_append, nanos?]
      intro rest h
      cases h
      simp at point
  split
  · rw [places (by decide) (by decide) (by omega)]
    simp
    omega
  split
  · rw [places (by decide) (by decide) (by omega)]
    simp
    omega
  · rw [places (by decide) (by decide) h]
    simp

/-- The second as it is written: a leap second is the one after the last. -/
def shownSecond (t : Stamp) : Nat := if 1000000000 ≤ t.nanos then t.second + 1 else t.second

def shownNanos (t : Stamp) : Nat := if 1000000000 ≤ t.nanos then t.nanos - 1000000000 else t.nanos

def charsOf (year : Int) (month day hour minute second nanos : Nat) : List Char :=
  yearChars year ++ '-' :: (padded 2 month ++ '-' :: (padded 2 day ++ 'T' :: (padded 2 hour ++
    ':' :: (padded 2 minute ++ ':' :: (padded 2 second ++ (fractionChars nanos ++ ['Z']))))))

theorem chars_eq (t : Stamp) :
    t.chars = charsOf t.date.year t.date.month t.date.day (t.minute / 60) (t.minute % 60)
      t.shownSecond t.shownNanos := by
  by_cases leap : 1000000000 ≤ t.nanos <;> simp [chars, charsOf, shownSecond, shownNanos, leap]

theorem readChars_charsOf (year : Int) {month day hour minute second nanos : Nat} (hmonth : month < 100)
    (hday : day < 100) (hhour : hour < 24) (hminute : minute < 60) (hsecond : second ≤ 60)
    (hnanos : nanos < 1000000000) :
    readChars (charsOf year month day hour minute second nanos) =
      (Date.of? year month day).bind fun date =>
        if second = 60 then shifted? date (60 * hour + minute) 59 (nanos + 1000000000) 0
        else shifted? date (60 * hour + minute) second nanos 0 := by
  have stop : NoDigit ['Z'] := by simp [NoDigit]
  have dash : NoDigit ('-' :: (padded 2 month ++ '-' :: (padded 2 day ++ 'T' :: (padded 2 hour ++
    ':' :: (padded 2 minute ++ ':' :: (padded 2 second ++ (fractionChars nanos ++ ['Z']))))))) := by
    simp [NoDigit]
  have universal : offset? (Text.trimStart ['Z']) = some (0, []) := by
    rw [Text.trimStart_of_head (by decide)]
    rfl
  have inTime : ¬ (Text.trimStart [] ≠ [] ∨ 24 ≤ hour ∨ 60 ≤ minute ∨ 60 < second) := by
    rintro (more | late)
    · exact more Text.trimStart_nil
    · omega
  rw [readChars, charsOf]
  refine (bind_of_eq_some (year?_yearChars year dash)).trans ?_
  refine (bind_of_eq_some (mark?_cons (by decide) _)).trans ?_
  refine (bind_of_eq_some (field?_padded hmonth _)).trans ?_
  refine (bind_of_eq_some (mark?_cons (by decide) _)).trans ?_
  refine (bind_of_eq_some (field?_padded hday _)).trans ?_
  refine (if_pos (Or.inl rfl)).trans ?_
  refine (bind_of_eq_some (field?_padded (by omega) _)).trans ?_
  refine (bind_of_eq_some (mark?_cons (by decide) _)).trans ?_
  refine (bind_of_eq_some (field?_padded (by omega) _)).trans ?_
  refine (bind_of_eq_some (mark?_cons (by decide) _)).trans ?_
  refine (bind_of_eq_some (field?_padded (by omega) _)).trans ?_
  refine (bind_of_eq_some (nanos?_fractionChars hnanos stop (by decide))).trans ?_
  refine (bind_of_eq_some universal).trans ?_
  exact congrArg (Option.bind _) (funext fun date => if_neg inTime)

theorem shifted?_zero (date : Date) {minute : Nat} (h : minute < 1440) (second nanos : Nat) :
    shifted? date minute second nanos 0 = of? date minute second nanos := by
  have low : ¬ (minute : Int) < 0 := by omega
  have high : ¬ (1440 : Int) ≤ minute := by omega
  simp [shifted?, low, high]

@[simp] theorem read_text (t : Stamp) : read t.text = some t := by
  have hminute := t.minute_lt
  have hsecond := t.second_lt
  have hnanos := t.nanos_lt
  have days := Nat.le_trans t.date.day_le (monthLength_le t.date.year t.date.month)
  have months := t.date.month_le
  have parts : 60 * (t.minute / 60) + t.minute % 60 = t.minute := Nat.div_add_mod t.minute 60
  simp only [read, text, String.toList_ofList, chars_eq, shownSecond, shownNanos]
  by_cases leap : 1000000000 ≤ t.nanos
  · have last := t.leap leap
    rw [if_pos leap, if_pos leap, readChars_charsOf _ (by omega) (by omega) (by omega) (by omega)
      (by omega) (by omega), Date.of?_fields, Option.bind_some, if_pos (by omega), parts,
      shifted?_zero _ hminute, Nat.sub_add_cancel leap, ← last, of?_fields]
  · rw [if_neg leap, if_neg leap, readChars_charsOf _ (by omega) (by omega) (by omega) (by omega)
      (by omega) (by omega), Date.of?_fields, Option.bind_some, if_neg (by omega), parts,
      shifted?_zero _ hminute, of?_fields]

end Stamp
end Time
end HealthProbe
