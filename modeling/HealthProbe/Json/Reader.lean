import HealthProbe.Tree

/-! # JSON text as a tree

Reading goes through the text one character at a time. The state is what has to come next, and the
containers that are still open, the innermost first; so reading a text in two pieces is reading the
second from where the first left off (`run_append`).
-/
namespace HealthProbe.Json

/-- How far a string has come: plain text, after a backslash, or some digits into a code. -/
inductive Quote
  | plain
  | escape
  | code (left value : Nat)
  deriving DecidableEq, Repr

/-- A string so far, its characters in reverse. `high` is the first half of a pair of codes. -/
structure Draft where
  done : List Char := []
  quote : Quote := .plain
  high : Option Nat := none
  broken : Bool := false
  deriving DecidableEq, Repr

inductive Numeral
  | sign | zero | whole | point | decimals | power | powerSign | powerDigits
  deriving DecidableEq, Repr

/-- An open container. An `entry` is a field whose value is being read; it lies on its record. -/
inductive Frame
  | list (done : List Tree)
  | record (done : List (String × Tree))
  | entry (key : String)

inductive Mode
  | value
  | firstItem
  | firstKey
  | key
  | colon
  | string (isKey : Bool) (d : Draft)
  | number (text : List Char) (state : Numeral)
  | word (left : List Char) (result : Tree)
  | done (t : Tree)

structure State where
  mode : Mode
  stack : List Frame

def isSpace (c : Char) : Bool := c == ' ' || c == '\n' || c == '\t' || c == '\r'

def hexValue? (c : Char) : Option Nat :=
  if '0' ≤ c ∧ c ≤ '9' then some (c.toNat - 48)
  else if 'a' ≤ c ∧ c ≤ 'f' then some (c.toNat - 87)
  else if 'A' ≤ c ∧ c ≤ 'F' then some (c.toNat - 55)
  else none

namespace Draft

/-- A first half that no second half follows spells nothing. -/
def settle (d : Draft) : Draft :=
  match d.high with
  | none => d
  | some _ => { d with high := none, broken := true }

def push (d : Draft) (c : Char) : Draft := { d.settle with done := c :: d.settle.done, quote := .plain }

/-- Takes the code of an escape. Two codes in the ranges of halves make one character. -/
def pushCode (d : Draft) (n : Nat) : Draft :=
  let d := { d with quote := .plain }
  if 0xdc00 ≤ n ∧ n ≤ 0xdfff then
    match d.high with
    | some h =>
      { d with
        done := Char.ofNat (0x10000 + (h - 0xd800) * 0x400 + (n - 0xdc00)) :: d.done
        high := none }
    | none => { d with broken := true }
  else if 0xd800 ≤ n ∧ n ≤ 0xdbff then { d.settle with high := some n }
  else d.push (Char.ofNat n)

def text? (d : Draft) : Option String :=
  let d := d.settle
  if d.broken then none else some (String.ofList d.done.reverse)

def step (d : Draft) (c : Char) : Option Draft :=
  match d.quote with
  | .plain =>
    if c == '\\' then some { d with quote := .escape }
    else if c.toNat < 0x20 then none
    else some (d.push c)
  | .escape =>
    match c with
    | '"' => some (d.push '"')
    | '\\' => some (d.push '\\')
    | '/' => some (d.push '/')
    | 'b' => some (d.push '\x08')
    | 'f' => some (d.push '\x0c')
    | 'n' => some (d.push '\n')
    | 'r' => some (d.push '\r')
    | 't' => some (d.push '\t')
    | 'u' => some { d with quote := .code 4 0 }
    | _ => none
  | .code left value =>
    (hexValue? c).map fun h =>
      if left ≤ 1 then d.pushCode (16 * value + h)
      else { d with quote := .code (left - 1) (16 * value + h) }

end Draft

def Numeral.step (s : Numeral) (c : Char) : Option Numeral :=
  match s with
  | sign => if c == '0' then some zero else if c.isDigit then some whole else none
  | zero =>
    if c == '.' then some point else if c == 'e' || c == 'E' then some power else none
  | whole =>
    if c.isDigit then some whole
    else if c == '.' then some point else if c == 'e' || c == 'E' then some power else none
  | point => if c.isDigit then some decimals else none
  | decimals =>
    if c.isDigit then some decimals else if c == 'e' || c == 'E' then some power else none
  | power =>
    if c.isDigit then some powerDigits
    else if c == '+' || c == '-' then some powerSign else none
  | powerSign => if c.isDigit then some powerDigits else none
  | powerDigits => if c.isDigit then some powerDigits else none

def Numeral.complete : Numeral → Bool
  | zero | whole | decimals | powerDigits => true
  | _ => false

def natOfDigits (cs : List Char) : Nat := cs.foldl (fun n c => 10 * n + (c.toNat - 48)) 0

def numberTree (text : List Char) (s : Numeral) : Tree :=
  let cs := text.reverse
  if (s == .zero || s == .whole) && cs.head? != some '-' then .nat (natOfDigits cs)
  else .number (String.ofList cs)

def beginValue (c : Char) (stack : List Frame) : Option State :=
  match c with
  | '"' => some ⟨.string false {}, stack⟩
  | '[' => some ⟨.firstItem, .list [] :: stack⟩
  | '\x7b' => some ⟨.firstKey, .record [] :: stack⟩
  | 'n' => some ⟨.word ['u', 'l', 'l'] .null, stack⟩
  | 't' => some ⟨.word ['r', 'u', 'e'] (.bool true), stack⟩
  | 'f' => some ⟨.word ['a', 'l', 's', 'e'] (.bool false), stack⟩
  | '-' => some ⟨.number ['-'] .sign, stack⟩
  | c =>
    (Numeral.step .sign c).map fun s => ⟨.number [c] s, stack⟩

/-- What a character does after a complete value: it separates, closes, or is blank. -/
def afterValue (t : Tree) (stack : List Frame) (c : Char) : Option State :=
  if isSpace c then some ⟨.done t, stack⟩
  else
    match stack with
    | .list items :: rest =>
      if c == ',' then some ⟨.value, .list (t :: items) :: rest⟩
      else if c == ']' then some ⟨.done (.list (t :: items).reverse), rest⟩
      else none
    | .entry key :: .record fields :: rest =>
      if c == ',' then some ⟨.key, .record ((key, t) :: fields) :: rest⟩
      else if c == '\x7d' then some ⟨.done (.record ((key, t) :: fields).reverse), rest⟩
      else none
    | _ => none

def step (s : State) (c : Char) : Option State :=
  match s.mode with
  | .value => if isSpace c then some s else beginValue c s.stack
  | .firstItem =>
    if isSpace c then some s
    else if c == ']' then
      match s.stack with
      | .list _ :: rest => some ⟨.done (.list []), rest⟩
      | _ => none
    else beginValue c s.stack
  | .firstKey =>
    if isSpace c then some s
    else if c == '\x7d' then
      match s.stack with
      | .record _ :: rest => some ⟨.done (.record []), rest⟩
      | _ => none
    else if c == '"' then some ⟨.string true {}, s.stack⟩
    else none
  | .key =>
    if isSpace c then some s else if c == '"' then some ⟨.string true {}, s.stack⟩ else none
  | .colon => if isSpace c then some s else if c == ':' then some ⟨.value, s.stack⟩ else none
  | .string isKey d =>
    if d.quote == .plain && c == '"' then
      match isKey, d.text? with
      | true, some key => some ⟨.colon, .entry key :: s.stack⟩
      | true, none => none
      | false, some t => some ⟨.done (.text t), s.stack⟩
      | false, none => some ⟨.done .brokenText, s.stack⟩
    else (d.step c).map fun d => ⟨.string isKey d, s.stack⟩
  | .number text n =>
    match n.step c with
    | some n => some ⟨.number (c :: text) n, s.stack⟩
    | none =>
      if n.complete && !c.isDigit then afterValue (numberTree text n) s.stack c else none
  | .word left result =>
    match left with
    | [] => none
    | w :: ws =>
      if c == w then
        some ⟨if ws.isEmpty then .done result else .word ws result, s.stack⟩
      else none
  | .done t => afterValue t s.stack c

def run (s : State) : List Char → Option State
  | [] => some s
  | c :: cs => (step s c).bind fun s => run s cs

theorem run_append (s : State) (xs ys : List Char) :
    run s (xs ++ ys) = (run s xs).bind fun s => run s ys := by
  induction xs generalizing s with
  | nil => rfl
  | cons c cs ih =>
    simp only [List.cons_append, run]
    cases step s c with
    | none => rfl
    | some s => exact ih s

def State.result? (s : State) : Option Tree :=
  match s.mode, s.stack with
  | .done t, [] => some t
  | .number text n, [] => if n.complete then some (numberTree text n) else none
  | _, _ => none

def readChars (cs : List Char) : Option Tree := (run ⟨.value, []⟩ cs).bind State.result?

def read (s : String) : Option Tree := readChars s.toList

end HealthProbe.Json
