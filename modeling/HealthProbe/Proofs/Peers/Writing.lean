import HealthProbe.Proofs.Peers.Meaning

/-! # Selectors written out

A selector is written as its demands, `key=value` with commas between them. What is read of that is the same
demands in the same order, as long as no key or value has anything in it that reading takes for something else
or leaves out; and what has been read of a text never has.
-/
namespace HealthProbe.Selector
open Text (IsTight)

variable {s : String} {sel : Selector} {d : String × String}

/-- A demand whose text can be read back. The value may be empty and may have equals signs in it. -/
structure IsTidy (d : String × String) : Prop where
  filled : d.1 ≠ ""
  comma : ',' ∉ d.1.toList
  equals : '=' ∉ d.1.toList
  ends : IsTight d.1.toList
  valueComma : ',' ∉ d.2.toList
  valueEnds : IsTight d.2.toList

theorem isTidy_iff : (d.1 ≠ "" ∧ ',' ∉ d.1.toList ∧ '=' ∉ d.1.toList ∧ IsTight d.1.toList ∧
    ',' ∉ d.2.toList ∧ IsTight d.2.toList) ↔ IsTidy d :=
  ⟨fun ⟨a,b,c,e,f,g⟩ => ⟨a,b,c,e,f,g⟩,fun ⟨a,b,c,e,f,g⟩ => ⟨a,b,c,e,f,g⟩⟩

instance (d : String × String) : Decidable (IsTidy d) := decidable_of_iff _ isTidy_iff

theorem toList_text (sel : Selector) : sel.text.toList = Text.join ',' (sel.demands.map demandChars) :=
  String.toList_ofList ..

theorem text_eq (sel : Selector) :
    sel.text = ",".intercalate (sel.demands.map fun d => d.1 ++ "=" ++ d.2) := by
  have each : (String.toList ∘ fun d : String × String => d.1 ++ "=" ++ d.2) = demandChars := by
    funext d
    simp [demandChars]
  apply String.toList_inj.mp
  rw [toList_text, Text.join_eq_intercalate, String.toList_intercalate, List.map_map, each]
  rfl

/-! ## Reading what was written -/

theorem demand?_demandChars (tidy : IsTidy d) : demand? (demandChars d) = some d := by
  have filled : ¬Text.IsBlank d.1.toList := by
    rw [← Text.trim_eq_nil_iff, tidy.ends.trim_eq]
    exact mt String.toList_eq_nil_iff.mp tidy.filled
  rw [demandChars, demand?_append tidy.equals, if_neg filled, demandOf, tidy.ends.trim_eq,
    tidy.valueEnds.trim_eq, String.ofList_toList, String.ofList_toList]

theorem filled_text (tidy : ∀ d ∈ sel.demands, IsTidy d) :
    filled (sel.text.toList.splitOn ',') = sel.demands.map demandChars := by
  have shown : ∀ part ∈ sel.demands.map demandChars, (!decide (Text.IsBlank part)) = true := by
    intro part hpart
    obtain ⟨d,hd,rfl⟩ := List.mem_map.mp hpart
    obtain ⟨key,value,isDemand,-⟩ := demand?_eq_some_iff.mp (demand?_demandChars (tidy d hd))
    simp [isDemand.not_isBlank]
  have plain : ∀ part ∈ sel.demands.map demandChars, ',' ∉ part := by
    intro part hpart
    obtain ⟨d,hd,rfl⟩ := List.mem_map.mp hpart
    simp [demandChars, (tidy d hd).comma, (tidy d hd).valueComma]
  rw [toList_text, filled, ← Text.pieces_eq_splitOn]
  by_cases none : sel.demands.map demandChars = []
  · rw [none]
    decide
  · rw [Text.pieces_join none plain, List.filter_eq_self.mpr shown]

theorem parse_text (tidy : ∀ d ∈ sel.demands, IsTidy d) : parse sel.text = .ok sel := by
  rw [parse_eq_ok_iff, filled_text tidy]
  exact mapM_map fun d hd => demand?_demandChars (tidy d hd)

/-! ## What has been read -/

theorem IsDemand.isTidy {part key value : List Char} (h : IsDemand part key value) (plain : ',' ∉ part) :
    IsTidy (demandOf key value) := by
  have inKey : ',' ∉ key := fun mem => plain (h.split ▸ List.mem_append_left _ mem)
  have inValue : ',' ∉ value := fun mem =>
    plain (h.split ▸ List.mem_append_right _ (List.mem_cons_of_mem _ mem))
  simp only [demandOf]
  constructor
  · rw [Ne, ← String.toList_eq_nil_iff, String.toList_ofList, Text.trim_eq_nil_iff]
    exact h.filled
  · rw [String.toList_ofList]
    exact mt Text.mem_of_mem_trim inKey
  · rw [String.toList_ofList]
    exact mt Text.mem_of_mem_trim h.first
  · rw [String.toList_ofList]
    exact Text.isTight_trim key
  · rw [String.toList_ofList]
    exact mt Text.mem_of_mem_trim inValue
  · rw [String.toList_ofList]
    exact Text.isTight_trim value

theorem isTidy_of_parse (h : parse s = .ok sel) : ∀ d ∈ sel.demands, IsTidy d := by
  intro d hd
  obtain ⟨part,hpart,read⟩ := (mem_iff_of_mapM (parse_eq_ok_iff.mp h)).mp hd
  obtain ⟨key,value,isDemand,rfl⟩ := demand?_eq_some_iff.mp read
  have mem := (mem_filled.mp hpart).1
  rw [← Text.pieces_eq_splitOn] at mem
  exact isDemand.isTidy (Text.subset_of_mem_pieces mem).1

/-- Demands that are tidy can be written and read back, and those of a text that was read are. -/
theorem written_and_read (sel : Selector) :
    ((∀ d ∈ sel.demands, IsTidy d) →
      parse (",".intercalate (sel.demands.map fun d => d.1 ++ "=" ++ d.2)) = .ok sel) ∧
    ∀ s, parse s = .ok sel → (∀ d ∈ sel.demands, IsTidy d) ∧
      parse (",".intercalate (sel.demands.map fun d => d.1 ++ "=" ++ d.2)) = .ok sel := by
  rw [← text_eq]
  exact ⟨parse_text,fun s h => ⟨isTidy_of_parse h,parse_text (isTidy_of_parse h)⟩⟩

/-- Values that are empty, at the end and before it, and one with equals signs of its own. -/
def emptyValues : Selector := ⟨[("app name", ""), ("tier", "=a = b"), ("app name", "")]⟩

theorem written_and_read_emptyValues :
    (∀ d ∈ emptyValues.demands, IsTidy d) ∧ parse "app name=,tier==a = b,app name=" = .ok emptyValues :=
  ⟨by decide,(written_and_read emptyValues).1 (by decide)⟩

end HealthProbe.Selector
