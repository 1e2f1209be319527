/-! # Domain names

A domain name is a list of labels, each of bytes. How a text is read as a name is up to the codec; the dots
at the end of the text do not count, and no other two may stand side by side.
-/
namespace HealthProbe

structure DomainName where
  labels : List (List UInt8)
  deriving DecidableEq, Repr

namespace DomainName

/-- The bytes of all labels and one more for each. -/
def size (n : DomainName) : Nat := n.labels.foldr (fun l size => l.length + 1 + size) 0

def maxSize : Nat := 255

/-- Why a text is no domain name: a label has no characters, or the codec refuses the text. -/
inductive Fault
  | empty
  | refused (reason : String)
  deriving DecidableEq, Repr

def Fault.message (text : String) : Fault → String
  | empty => "无效的查询名称: " ++ text
  | refused reason => "无效的查询名称 " ++ text ++ ": " ++ reason

def withoutLastDots (cs : List Char) : List Char := (cs.reverse.dropWhile (· == '.')).reverse

end DomainName
end HealthProbe
