import HealthProbe.Json.Reader
import HealthProbe.Json.Writer

/-! # Reading back what was written

The text of a tree on a page reads as the tree again, if the tree says nothing but texts, flags, natural
numbers and nothings. The reader is a machine, so the statement for an inner value is about the state
after its text, with any containers still open: there the value is complete, and whatever may stand
behind a value ends it.
-/
namespace HealthProbe

namespace Tree

mutual
def IsPlain : Tree → Prop
  | number _ => False
  | brokenText => False
  | list xs => ArePlain xs
  | record fs => HasPlainFields fs
  | _ => True

def ArePlain : List Tree → Prop
  | [] => True
  | x :: xs => x.IsPlain ∧ ArePlain xs

def HasPlainFields : List (String × Tree) → Prop
  | [] => True
  | (_, x) :: fs => x.IsPlain ∧ HasPlainFields fs
end

theorem hasPlainFields_iff {fs : List (String × Tree)} :
    HasPlainFields fs ↔ ∀ f ∈ fs, f.2.IsPlain := by
  induction fs with
  | nil => simp [HasPlainFields]
  | cons f fs ih => simp [HasPlainFields, ih]

end Tree

namespace Json

/-! ## Blanks -/

theorem run_of_still {s : State} {blanks : List Char} (still : ∀ c ∈ blanks, step s c = some s)
    (cs : List Char) : run s (blanks ++ cs) = run s cs := by
  induction blanks with
  | nil => rfl
  | cons c blanks ih =>
    have h := still c List.mem_cons_self
    simp only [List.cons_append, run, h, Option.bind_some]
    exact ih fun x hx => still x (List.mem_cons_of_mem _ hx)

theorem isSpace_of_mem_newLine {l : Nat} {c : Char} (h : c ∈ newLine l) : isSpace c = true := by
  rcases List.mem_cons.mp h with rfl | h
  · decide
  · rw [(List.mem_replicate.mp h).2]
    decide

theorem run_newLine {s : State} (still : ∀ c, isSpace c = true → step s c = some s)
    (l : Nat) (cs : List Char) : run s (newLine l ++ cs) = run s cs :=
  run_of_still (fun c hc => still c (isSpace_of_mem_newLine hc)) cs

/-! ## Texts -/

theorem hexValue?_hexDigit (n : Nat) : hexValue? (hexDigit n) = some (n % 16) := by
  have all : ∀ m, m < 16 → hexValue? (Nat.digitChar m) = some m := by decide
  exact all _ (Nat.mod_lt _ (by decide))

def Draft.plain (cs : List Char) : Draft := { done := cs }

def Draft.coding (cs : List Char) (left value : Nat) : Draft := { done := cs, quote := .code left value }

theorem text?_plain (cs : List Char) : (Draft.plain cs).text? = some (String.ofList cs.reverse) := by
  simp [Draft.text?, Draft.settle, Draft.plain]

theorem step_char {isKey : Bool} {done : List Char} {c : Char} (quote : c ≠ '"') (slash : c ≠ '\\')
    (high : ¬ c.toNat < 0x20) (stack : List Frame) :
    step ⟨.string isKey (.plain done), stack⟩ c = some ⟨.string isKey (.plain (c :: done)), stack⟩ := by
  simp [step, Draft.step, Draft.plain, quote, slash, high, Draft.push, Draft.settle]

theorem step_digit {isKey : Bool} {done : List Char} {left value h : Nat} {c : Char}
    {stack : List Frame} (hc : hexValue? c = some h) :
    step ⟨.string isKey (.coding done (left + 2) value), stack⟩ c =
      some ⟨.string isKey (.coding done (left + 1) (16 * value + h)), stack⟩ := by
  simp [step, Draft.step, Draft.coding, hc]

theorem step_lastDigit {isKey : Bool} {done : List Char} {value h : Nat} {c x : Char}
    {stack : List Frame} (hx : hexValue? x = some h) (hc : 16 * value + h = c.toNat)
    (low : c.toNat < 0x20) :
    step ⟨.string isKey (.coding done 1 value), stack⟩ x =
      some ⟨.string isKey (.plain (c :: done)), stack⟩ := by
  have below : ¬ 0xdc00 ≤ c.toNat ∧ ¬ 0xd800 ≤ c.toNat := by omega
  simp [step, Draft.step, hx, hc, Draft.pushCode, below, Draft.push, Draft.settle, Draft.plain,
    Draft.coding]

theorem step_endOfText (cs : List Char) (stack : List Frame) :
    step ⟨.string false (.plain cs), stack⟩ '"' =
      some ⟨.done (.text (String.ofList cs.reverse)), stack⟩ := by
  have ended : (Draft.plain cs).quote = .plain := rfl
  simp [step, ended, text?_plain]

theorem step_endOfName (cs : List Char) (stack : List Frame) :
    step ⟨.string true (.plain cs), stack⟩ '"' =
      some ⟨.colon, .entry (String.ofList cs.reverse) :: stack⟩ := by
  have ended : (Draft.plain cs).quote = .plain := rfl
  simp [step, ended, text?_plain]

/-- A control without a letter of its own is spelled by four digits, of which the first two are 0. -/
theorem run_control (isKey : Bool) (done : List Char) {c : Char} (low : c.toNat < 0x20)
    (stack : List Frame) :
    run ⟨.string isKey (.plain done), stack⟩
        ['\\', 'u', '0', '0', hexDigit (c.toNat / 16), hexDigit c.toNat] =
      some ⟨.string isKey (.plain (c :: done)), stack⟩ := by
  have zero : hexValue? '0' = some 0 := by decide
  have high := hexValue?_hexDigit (c.toNat / 16)
  rw [Nat.mod_eq_of_lt (by omega)] at high
  have value : 16 * (16 * (16 * (16 * 0 + 0) + 0) + c.toNat / 16) + c.toNat % 16 = c.toNat := by omega
  have last (s : List Frame) : step ⟨.string isKey (.coding done 1 _), s⟩ (hexDigit c.toNat) = some _ :=
    step_lastDigit (hexValue?_hexDigit c.toNat) value low
  have begun (cs : List Char) : run ⟨.string isKey (.plain done), stack⟩ ('\\' :: 'u' :: cs) =
      run ⟨.string isKey (.coding done 4 0), stack⟩ cs := rfl
  rw [begun]
  simp only [run, Option.bind_some, step_digit zero, step_digit high, last]

theorem run_escaped (isKey : Bool) (done : List Char) (c : Char) (stack : List Frame) :
    run ⟨.string isKey (.plain done), stack⟩ (escaped c) =
      some ⟨.string isKey (.plain (c :: done)), stack⟩ := by
  unfold escaped
  split
  any_goals rfl
  rename_i quote slash _ _ _ _ _
  split
  · rename_i low
    exact run_control isKey done low stack
  · rename_i high
    simp only [run, Option.bind_some, step_char quote slash high]

theorem run_flatMap_escaped (isKey : Bool) (cs done : List Char) (stack : List Frame) :
    run ⟨.string isKey (.plain done), stack⟩ (cs.flatMap escaped) =
      some ⟨.string isKey (.plain (cs.reverse ++ done)), stack⟩ := by
  induction cs generalizing done with
  | nil => rfl
  | cons c cs ih =>
    rw [List.flatMap_cons, run_append, run_escaped, Option.bind_some, ih]
    simp

theorem run_string (s : String) (stack : List Frame) :
    run ⟨.value, stack⟩ (string s) = some ⟨.done (.text s), stack⟩ := by
  have opened : run ⟨.value, stack⟩ (string s) =
      run ⟨.string false (.plain []), stack⟩ (s.toList.flatMap escaped ++ ['"']) := rfl
  rw [opened, run_append, run_flatMap_escaped]
  simp [run, step_endOfText]

theorem run_name {m : Mode} (key : m = .firstKey ∨ m = .key) (s : String) (stack : List Frame) :
    run ⟨m, stack⟩ (string s) = some ⟨.colon, .entry s :: stack⟩ := by
  have opened : run ⟨m, stack⟩ (string s) =
      run ⟨.string true (.plain []), stack⟩ (s.toList.flatMap escaped ++ ['"']) := by
    rcases key with rfl | rfl <;> rfl
  rw [opened, run_append, run_flatMap_escaped]
  simp [run, step_endOfName]

/-! ## Numbers -/

theorem run_toDigits (n : Nat) (stack : List Frame) :
    run ⟨.value, stack⟩ (Nat.toDigits 10 n) =
      some ⟨.number (Nat.toDigits 10 n).reverse (if n = 0 then .zero else .whole), stack⟩ := by
  induction n using Nat.base_induction 10 (by decide) with
  | single m hm =>
    rw [Nat.toDigits_of_lt_base hm]
    match m with
    | 0 | 1 | 2 | 3 | 4 | 5 | 6 | 7 | 8 | 9 => rfl
  | digit m k hk hm ih =>
    have digit : k.digitChar.isDigit = true := by simpa using hk
    rw [← Nat.toDigits_append_toDigits (by decide) hm hk, run_append, ih, Option.bind_some,
      Nat.toDigits_of_lt_base hk, if_neg (by omega), if_neg (by omega)]
    simp [run, step, Numeral.step, digit]

theorem numberTree_toDigits (n : Nat) :
    numberTree (Nat.toDigits 10 n).reverse (if n = 0 then .zero else .whole) = .nat n := by
  have unsigned : (Nat.toDigits 10 n).head? ≠ some '-' := by
    intro h
    have := Nat.isDigit_of_mem_toDigits (by decide) (by decide) (List.mem_of_head? h)
    simp at this
  have value : natOfDigits (Nat.toDigits 10 n) = n := Nat.ofDigitChars_ten_toDigits
  have whole : ((if n = 0 then Numeral.zero else .whole) == .zero ||
      (if n = 0 then Numeral.zero else .whole) == .whole) = true := by
    split <;> rfl
  simp [numberTree, whole, unsigned, value]

/-! ## Values -/

/-- A mode in which a value has been read whole. After a number this shows by what comes next only. -/
def Mode.HasRead (m : Mode) (t : Tree) : Prop :=
  m = .done t ∨ ∃ text n, m = .number text n ∧ n.complete = true ∧ numberTree text n = t

def endsValue (c : Char) : Bool := isSpace c || c == ',' || c == ']' || c == '\x7d'

theorem Mode.HasRead.step {m : Mode} {t : Tree} (h : m.HasRead t) {c : Char}
    (ends : endsValue c = true) (stack : List Frame) :
    step ⟨m, stack⟩ c = afterValue t stack c := by
  rcases h with rfl | ⟨text,n,rfl,complete,rfl⟩
  · rfl
  · have stops : n.step c = none ∧ c.isDigit = false := by
      simp only [endsValue, isSpace, Bool.or_eq_true, beq_iff_eq] at ends
      rcases ends with (((((rfl | rfl) | rfl) | rfl) | rfl) | rfl) | rfl <;>
        cases n <;> exact ⟨by decide,by decide⟩
    simp [Json.step, stops, complete]

theorem Mode.HasRead.run_newLine {m : Mode} {t : Tree} (h : m.HasRead t) (l : Nat) (stack : List Frame)
    (cs : List Char) : run ⟨m, stack⟩ (newLine l ++ cs) = run ⟨.done t, stack⟩ cs := by
  have blank : Json.step ⟨m, stack⟩ '\n' = some ⟨.done t, stack⟩ := by
    rw [h.step (by decide)]
    rfl
  rw [newLine, List.cons_append, run, blank, Option.bind_some]
  refine run_of_still (fun c hc => ?_) cs
  rw [(List.mem_replicate.mp hc).2]
  rfl

theorem Mode.HasRead.result? {m : Mode} {t : Tree} (h : m.HasRead t) :
    State.result? ⟨m, []⟩ = some t := by
  rcases h with rfl | ⟨text,n,rfl,complete,rfl⟩
  · rfl
  · simp [State.result?, complete]

theorem pretty_head (l : Nat) {t : Tree} (h : t.IsPlain) :
    ∃ c cs, pretty l t = c :: cs ∧ isSpace c = false ∧ c ≠ ']' := by
  match t, h with
  | .null, _ => exact ⟨_,_,rfl,by decide,by decide⟩
  | .bool true, _ => exact ⟨_,_,rfl,by decide,by decide⟩
  | .bool false, _ => exact ⟨_,_,rfl,by decide,by decide⟩
  | .text _, _ => exact ⟨_,_,rfl,by decide,by decide⟩
  | .list [], _ => exact ⟨_,_,rfl,by decide,by decide⟩
  | .list (_ :: _), _ => exact ⟨_,_,rfl,by decide,by decide⟩
  | .record [], _ => exact ⟨_,_,rfl,by decide,by decide⟩
  | .record (_ :: _), _ => exact ⟨_,_,rfl,by decide,by decide⟩
  | .nat n, _ =>
    obtain ⟨c,cs,hcs⟩ := List.exists_cons_of_ne_nil (Nat.toDigits_ne_nil (n := n) (b := 10))
    have digit : c.isDigit = true :=
      Nat.isDigit_of_mem_toDigits (by decide) (by decide) (hcs ▸ List.mem_cons_self)
    refine ⟨c,cs,hcs,?_,?_⟩
    · simp only [isSpace, Bool.or_eq_false_iff, beq_eq_false_iff_ne]
      refine ⟨⟨⟨?_,?_⟩,?_⟩,?_⟩ <;> (rintro rfl; revert digit; decide)
    · rintro rfl
      revert digit
      decide

/-- The first item of a list is read as any value, since it does not start with the closing bracket. -/
theorem run_firstItem (l : Nat) {t : Tree} (h : t.IsPlain) (stack : List Frame) (cs : List Char) :
    run ⟨.firstItem, stack⟩ (pretty l t ++ cs) = run ⟨.value, stack⟩ (pretty l t ++ cs) := by
  obtain ⟨c,rest,hc,blank,bracket⟩ := pretty_head l h
  simp [hc, run, step, blank, bracket]

theorem still_firstItem (stack : List Frame) {c : Char} (blank : isSpace c = true) :
    step ⟨.firstItem, stack⟩ c = some ⟨.firstItem, stack⟩ := by simp [step, blank]

theorem still_value (stack : List Frame) {c : Char} (blank : isSpace c = true) :
    step ⟨.value, stack⟩ c = some ⟨.value, stack⟩ := by simp [step, blank]

theorem still_key {m : Mode} (key : m = .firstKey ∨ m = .key) (stack : List Frame) {c : Char}
    (blank : isSpace c = true) : step ⟨m, stack⟩ c = some ⟨m, stack⟩ := by
  rcases key with rfl | rfl <;> simp [step, blank]

/-- What a value's text does at a state, whatever else follows. -/
def Reads (s : State) (cs : List Char) (t : Tree) (stack : List Frame) : Prop :=
  ∃ m : Mode, m.HasRead t ∧ run s cs = some ⟨m, stack⟩

theorem Reads.item {l : Nat} {x : Tree} {stack : List Frame} (plain : x.IsPlain)
    (h : Reads ⟨.value, stack⟩ (pretty (l + 1) x) x stack) {m : Mode}
    (place : m = .firstItem ∨ m = .value) :
    Reads ⟨m, stack⟩ (newLine (l + 1) ++ pretty (l + 1) x) x stack := by
  obtain ⟨m',read,ran⟩ := h
  refine ⟨m',read,?_⟩
  rcases place with rfl | rfl
  · rw [run_newLine fun c => still_firstItem stack]
    simpa [ran] using run_firstItem (l + 1) plain stack []
  · rw [run_newLine fun c => still_value stack, ran]

theorem Reads.field {l : Nat} {k : String} {x : Tree} {stack : List Frame}
    (h : Reads ⟨.value, .entry k :: stack⟩ (pretty (l + 1) x) x (.entry k :: stack)) {m : Mode}
    (place : m = .firstKey ∨ m = .key) :
    Reads ⟨m, stack⟩ (newLine (l + 1) ++ string k ++ ':' :: ' ' :: pretty (l + 1) x) x
      (.entry k :: stack) := by
  obtain ⟨m',read,ran⟩ := h
  refine ⟨m',read,?_⟩
  rw [List.append_assoc, run_newLine fun c => still_key place stack, run_append, run_name place,
    Option.bind_some]
  exact ran

mutual
theorem reads_pretty (l : Nat) (stack : List Frame) :
    ∀ t : Tree, t.IsPlain → Reads ⟨.value, stack⟩ (pretty l t) t stack
  | .null, _ => ⟨_,.inl rfl,rfl⟩
  | .bool true, _ => ⟨_,.inl rfl,rfl⟩
  | .bool false, _ => ⟨_,.inl rfl,rfl⟩
  | .nat n, _ =>
    ⟨_,.inr ⟨_,_,rfl,by split <;> rfl,numberTree_toDigits n⟩,run_toDigits n stack⟩
  | .text s, _ => ⟨_,.inl rfl,run_string s stack⟩
  | .list [], _ => ⟨_,.inl rfl,rfl⟩
  | .list (x :: xs), h =>
    ⟨_,.inl rfl,run_prettyItems l [] stack (.inl rfl) (x :: xs) (List.cons_ne_nil x xs) h⟩
  | .record [], _ => ⟨_,.inl rfl,rfl⟩
  | .record (f :: fs), h =>
    ⟨_,.inl rfl,run_prettyFields l [] stack (.inl rfl) (f :: fs) (List.cons_ne_nil f fs) h⟩

theorem run_prettyItems (l : Nat) (done : List Tree) (stack : List Frame) {m : Mode}
    (place : m = .firstItem ∨ m = .value) :
    ∀ xs : List Tree, xs ≠ [] → Tree.ArePlain xs →
      run ⟨m, .list done :: stack⟩ (prettyItems l xs) =
        some ⟨.done (.list (done.reverse ++ xs)), stack⟩
  | [x], _, h => by
    obtain ⟨m',read,ran⟩ := (reads_pretty (l + 1) (.list done :: stack) x h.1).item h.1 place
    rw [prettyItems, List.append_assoc, run_append, ran, Option.bind_some, read.run_newLine]
    simp [run, step, afterValue, isSpace]
  | x :: y :: ys, _, h => by
    obtain ⟨m',read,ran⟩ := (reads_pretty (l + 1) (.list done :: stack) x h.1).item h.1 place
    have rest := run_prettyItems l (x :: done) stack (.inr rfl) (y :: ys) (List.cons_ne_nil y ys) h.2
    rw [prettyItems, run_append, ran, Option.bind_some, run, read.step (by decide)]
    simp only [List.reverse_cons, List.append_assoc, List.cons_append, List.nil_append] at rest
    exact rest

theorem run_prettyFields (l : Nat) (done : List (String × Tree)) (stack : List Frame) {m : Mode}
    (place : m = .firstKey ∨ m = .key) :
    ∀ fs : List (String × Tree), fs ≠ [] → Tree.HasPlainFields fs →
      run ⟨m, .record done :: stack⟩ (prettyFields l fs) =
        some ⟨.done (.record (done.reverse ++ fs)), stack⟩
  | [(k, x)], _, h => by
    obtain ⟨m',read,ran⟩ :=
      (reads_pretty (l + 1) (.entry k :: .record done :: stack) x h.1).field place
    rw [prettyFields, List.append_assoc, run_append, ran, Option.bind_some, read.run_newLine]
    simp [run, step, afterValue, isSpace]
  | (k, x) :: f :: fs, _, h => by
    obtain ⟨m',read,ran⟩ :=
      (reads_pretty (l + 1) (.entry k :: .record done :: stack) x h.1).field place
    have rest :=
      run_prettyFields l ((k, x) :: done) stack (.inr rfl) (f :: fs) (List.cons_ne_nil f fs) h.2
    rw [prettyFields, run_append, ran, Option.bind_some, run, read.step (by decide)]
    simp only [List.reverse_cons, List.append_assoc, List.cons_append, List.nil_append] at rest
    exact rest
end

/-- A plain tree can be read from the page that it was written on. -/
theorem read_page {t : Tree} (h : t.IsPlain) : read (page t) = some t := by
  obtain ⟨m,done,ran⟩ := reads_pretty 0 [] t h
  simp only [read, page, String.toList_ofList, readChars, ran, Option.bind_some]
  exact done.result?

end Json
end HealthProbe
