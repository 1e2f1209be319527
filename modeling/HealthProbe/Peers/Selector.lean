import HealthProbe.Failure
import HealthProbe.Table
import HealthProbe.Text.Blank
import HealthProbe.Text.Pieces

/-! # Label selectors

A selector demands values of labels: parts `key=value` between commas. Blank parts demand nothing, and
blanks around a part, a key or a value do not count. A value may hold further equals signs.
-/
namespace HealthProbe

structure Selector where
  demands : List (String × String)
  deriving DecidableEq, Repr

namespace Selector

def demand? (part : List Char) : Option (String × String) :=
  match Text.cut '=' part with
  | (_, none) => none
  | (key, some value) =>
    let key := Text.trim key
    if key.isEmpty then none else some (String.ofList key, String.ofList (Text.trim value))

def parts (cs : List Char) : List (List Char) :=
  ((Text.pieces ',' cs).map Text.trim).filter fun p => !p.isEmpty

def parse? (s : String) : Option Selector :=
  ((parts s.toList).mapM demand?).map Selector.mk

def parse (s : String) : Except LookupFailure Selector :=
  match parse? s with
  | some sel => .ok sel
  | none => .error (.badSelector s)

def admits (sel : Selector) (labels : Table String) : Bool :=
  sel.demands.all fun d => labels.find? d.1 == some d.2

def demandChars (d : String × String) : List Char := d.1.toList ++ '=' :: d.2.toList

def text (sel : Selector) : String := String.ofList (Text.join ',' (sel.demands.map demandChars))

end Selector
end HealthProbe
