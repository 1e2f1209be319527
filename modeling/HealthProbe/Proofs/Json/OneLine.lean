import HealthProbe.Proofs.Json.RoundTrip

/-! # Reading back a line

The text of a plain tree on one line reads as the tree again too. There are no blanks, so each value
follows its comma, its colon or its opening bracket at once.
-/
namespace HealthProbe.Json

/-- Both layouts of a tree begin with the same character. -/
theorem head?_compact : ∀ t : Tree, (compact t).head? = (pretty 0 t).head?
  | .null | .bool true | .bool false | .nat _ | .number _ | .text _ | .brokenText => rfl
  | .list [] | .list (_ :: _) | .record [] | .record (_ :: _) => rfl

theorem run_compact_of_place {m : Mode} (place : m = .firstItem ∨ m = .value) {t : Tree}
    (h : t.IsPlain) (stack : List Frame) :
    run ⟨m, stack⟩ (compact t) = run ⟨.value, stack⟩ (compact t) := by
  rcases place with rfl | rfl
  · obtain ⟨c,rest,hc,blank,bracket⟩ := pretty_head 0 h
    have head : (compact t).head? = some c := by rw [head?_compact, hc, List.head?_cons]
    obtain ⟨cs,hcs⟩ := List.head?_eq_some_iff.mp head
    simp [hcs, run, step, blank, bracket]
  · rfl

theorem Reads.compactField {k : String} {x : Tree} {stack : List Frame}
    (h : Reads ⟨.value, .entry k :: stack⟩ (compact x) x (.entry k :: stack)) {m : Mode}
    (place : m = .firstKey ∨ m = .key) :
    Reads ⟨m, stack⟩ (string k ++ ':' :: compact x) x (.entry k :: stack) := by
  obtain ⟨m',read,ran⟩ := h
  refine ⟨m',read,?_⟩
  rw [run_append, run_name place, Option.bind_some]
  exact ran

mutual
theorem reads_compact (stack : List Frame) :
    ∀ t : Tree, t.IsPlain → Reads ⟨.value, stack⟩ (compact t) t stack
  | .null, _ => ⟨_,.inl rfl,rfl⟩
  | .bool true, _ => ⟨_,.inl rfl,rfl⟩
  | .bool false, _ => ⟨_,.inl rfl,rfl⟩
  | .nat n, _ =>
    ⟨_,.inr ⟨_,_,rfl,by split <;> rfl,numberTree_toDigits n⟩,run_toDigits n stack⟩
  | .text s, _ => ⟨_,.inl rfl,run_string s stack⟩
  | .list [], _ => ⟨_,.inl rfl,rfl⟩
  | .list (x :: xs), h =>
    ⟨_,.inl rfl,run_compactItems [] stack (.inl rfl) (x :: xs) (List.cons_ne_nil x xs) h⟩
  | .record [], _ => ⟨_,.inl rfl,rfl⟩
  | .record (f :: fs), h =>
    ⟨_,.inl rfl,run_compactFields [] stack (.inl rfl) (f :: fs) (List.cons_ne_nil f fs) h⟩

theorem run_compactItems (done : List Tree) (stack : List Frame) {m : Mode}
    (place : m = .firstItem ∨ m = .value) :
    ∀ xs : List Tree, xs ≠ [] → Tree.ArePlain xs →
      run ⟨m, .list done :: stack⟩ (compactItems xs) =
        some ⟨.done (.list (done.reverse ++ xs)), stack⟩
  | [x], _, h => by
    obtain ⟨m',read,ran⟩ := reads_compact (.list done :: stack) x h.1
    rw [compactItems, run_append, run_compact_of_place place h.1, ran, Option.bind_some, run,
      read.step (by decide)]
    simp [run, afterValue, isSpace]
  | x :: y :: ys, _, h => by
    obtain ⟨m',read,ran⟩ := reads_compact (.list done :: stack) x h.1
    have rest := run_compactItems (x :: done) stack (.inr rfl) (y :: ys) (List.cons_ne_nil y ys) h.2
    rw [compactItems, run_append, run_compact_of_place place h.1, ran, Option.bind_some, run,
      read.step (by decide)]
    simp only [List.reverse_cons, List.append_assoc, List.cons_append, List.nil_append] at rest
    exact rest

theorem run_compactFields (done : List (String × Tree)) (stack : List Frame) {m : Mode}
    (place : m = .firstKey ∨ m = .key) :
    ∀ fs : List (String × Tree), fs ≠ [] → Tree.HasPlainFields fs →
      run ⟨m, .record done :: stack⟩ (compactFields fs) =
        some ⟨.done (.record (done.reverse ++ fs)), stack⟩
  | [(k, x)], _, h => by
    obtain ⟨m',read,ran⟩ :=
      (reads_compact (.entry k :: .record done :: stack) x h.1).compactField place
    rw [compactFields, run_append, ran, Option.bind_some, run, read.step (by decide)]
    simp [run, afterValue, isSpace]
  | (k, x) :: f :: fs, _, h => by
    obtain ⟨m',read,ran⟩ :=
      (reads_compact (.entry k :: .record done :: stack) x h.1).compactField place
    have rest :=
      run_compactFields ((k, x) :: done) stack (.inr rfl) (f :: fs) (List.cons_ne_nil f fs) h.2
    rw [compactFields, run_append, ran, Option.bind_some, run, read.step (by decide)]
    simp only [List.reverse_cons, List.append_assoc, List.cons_append, List.nil_append] at rest
    exact rest
end

/-- A plain tree can be read from the line that it was written on. -/
theorem read_line {t : Tree} (h : t.IsPlain) : read (line t) = some t := by
  obtain ⟨m,done,ran⟩ := reads_compact [] t h
  simp only [read, line, String.toList_ofList, readChars, ran, Option.bind_some]
  exact done.result?

end HealthProbe.Json
