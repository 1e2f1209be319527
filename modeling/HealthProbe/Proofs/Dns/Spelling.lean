import HealthProbe.Dns.Wire

/-! # Names as they are spelt

Without a backslash the text of a domain name is its labels between dots, and nothing else. What is accepted
as a name has labels of one byte to 63.
-/
namespace HealthProbe

/-! ## What the codec of the wire makes of names -/

namespace Dns

theorem wire_name_eq_ok_iff {cs : List Char} {n : DomainName} :
    wire.name cs = .ok n ↔ DomainName.ofLabels? cs = some n := by
  change (DomainName.ofLabels? cs).elim (Except.error "不是域名") Except.ok = .ok n ↔ _
  cases DomainName.ofLabels? cs <;> simp

theorem write_query {id : UInt16} {n : DomainName} :
    wire.write (.query id n) =
      if n.size < DomainName.maxSize then .ok (Message.query id n).bytes else .error tooLong := by
  change (if (Message.query id n).names.all (fun n => n.size < DomainName.maxSize) then
    Except.ok (Message.query id n).bytes else .error tooLong) = _
  simp [Message.names, Message.query]

theorem write_of_size_eq {id : UInt16} {n : DomainName} (size : n.size = DomainName.maxSize) :
    wire.write (.query id n) = .error tooLong := by
  rw [write_query, if_neg (by omega)]

end Dns

namespace DomainName

variable {s : String} {n : DomainName} {cs current p : List Char} {ps : List (List Char)}

def spelt (s : String) : List (List UInt8) :=
  (Text.pieces '.' (withoutLastDots s.toList)).map (List.map byte)

/-- Whatever the codec, an accepted text is one that it reads as a name, without empty labels. -/
theorem ofText_eq_ok_iff [codec : Dns.Codec] :
    ofText s = .ok n ↔ withoutLastDots s.toList ≠ [] ∧
      (∀ p ∈ Text.pieces '.' (withoutLastDots s.toList), p ≠ []) ∧
      codec.name (withoutLastDots s.toList) = .ok n := by
  rw [ofText]
  split
  · rename_i bad
    simp only [Bool.or_eq_true, List.isEmpty_iff, List.any_eq_true] at bad
    constructor
    · intro h
      cases h
    · rintro ⟨ne,filled,-⟩
      rcases bad with empty | ⟨p,hp,empty⟩
      · exact absurd empty ne
      · exact absurd empty (filled p hp)
  · rename_i good
    simp only [Bool.or_eq_true, List.isEmpty_iff, List.any_eq_true, not_or, not_exists, not_and] at good
    have same : (codec.name (withoutLastDots s.toList)).mapError Fault.refused = .ok n ↔
        codec.name (withoutLastDots s.toList) = .ok n := by
      cases codec.name (withoutLastDots s.toList) with
      | error reason => exact iff_of_false nofun nofun
      | ok m =>
        exact ⟨fun h => congrArg Except.ok (Except.ok.inj h),fun h => congrArg Except.ok (Except.ok.inj h)⟩
    exact same.trans ⟨fun read => ⟨good.1,good.2,read⟩,fun h => h.2.2⟩

/-! ## The longest name -/

/-- Three labels of 63 letters and one of 62. -/
def longest : List Char :=
  Text.join '.' [List.replicate 63 'a', List.replicate 63 'a', List.replicate 63 'a', List.replicate 62 'a']

theorem ofText_longest : ∃ n, ofText (String.ofList longest) = .ok n ∧ n.size = maxSize := by
  let n : DomainName := ⟨(Text.pieces '.' longest).map (List.map byte)⟩
  have read : ofLabels? (withoutLastDots longest) = some n := by decide +kernel
  refine ⟨n,ofText_eq_ok_iff.mpr ?_,by decide +kernel⟩
  rw [String.toList_ofList]
  exact ⟨by decide,by decide,Dns.wire_name_eq_ok_iff.mpr read⟩

end DomainName
end HealthProbe
