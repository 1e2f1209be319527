import HealthProbe.Engine.Pass

/-! # The verdicts of a pass

A pass has one trial for each of its checkers, unless one of them crashes: then the trial of this one is the
last, and there are no results.
-/
namespace HealthProbe

namespace Retries
variable {r : Retries} {limits : Table Nat} {c : Checker} {cs : List Checker} {now : Nat}

theorem trials_of_ok {v : Verdict}
    (h : (r.trial ((limits.find? c.name).getD 0) c now).verdict = .ok v) :
    r.trials limits (c :: cs) now = r.trial ((limits.find? c.name).getD 0) c now ::
      r.trials limits cs (r.trial ((limits.find? c.name).getD 0) c now).stop := by
  rw [trials]
  simp only [h]

theorem trials_of_crash {words : String}
    (h : (r.trial ((limits.find? c.name).getD 0) c now).verdict = .error words) :
    r.trials limits (c :: cs) now = [r.trial ((limits.find? c.name).getD 0) c now] := by
  rw [trials]
  simp only [h]

end Retries

namespace Pass
variable {ts before : List Trial} {t : Trial} {vs : List Verdict} {words : String}

theorem mapM_verdict_of_ok (told : ts.map Trial.verdict = vs.map .ok) :
    ts.mapM Trial.verdict = .ok vs := by
  induction vs generalizing ts with
  | nil =>
    obtain rfl := List.map_eq_nil_iff.mp told
    rfl
  | cons v vs ih =>
    obtain ⟨t,rest,rfl,first,others⟩ := List.map_eq_cons_iff.mp told
    rw [List.mapM_cons, first, ih others]
    rfl

theorem mapM_verdict_of_crash (earlier : ∀ t ∈ before, ∃ v, t.verdict = .ok v)
    (last : t.verdict = .error words) : (before ++ [t]).mapM Trial.verdict = .error words := by
  induction before with
  | nil =>
    rw [List.nil_append, List.mapM_cons, last]
    rfl
  | cons t' before ih =>
    obtain ⟨⟨v,first⟩,others⟩ := List.forall_mem_cons.mp earlier
    rw [List.cons_append, List.mapM_cons, first, ih others]
    rfl

inductive Sums (cs : List Checker) (ts : List Trial) : Except String (Table Verdict) → Prop
  | whole {vs : List Verdict} (length : ts.length = cs.length) (told : ts.map Trial.verdict = vs.map .ok) :
      Sums cs ts (.ok (Table.ofList ((cs.map Checker.name).zip vs)))
  | crashed {before : List Trial} {t : Trial} {words : String} (split : ts = before ++ [t])
      (room : before.length < cs.length) (earlier : ∀ t ∈ before, ∃ v, t.verdict = .ok v)
      (last : t.verdict = .error words) : Sums cs ts (.error words)

/-- Trials have verdicts, one for each checker, or the last of them has crashed. -/
theorem trials_verdicts (r : Retries) (limits : Table Nat) (cs : List Checker) (now : Nat) :
    ((r.trials limits cs now).length = cs.length ∧
        ∃ vs : List Verdict, (r.trials limits cs now).map Trial.verdict = vs.map .ok) ∨
      ∃ before t words, r.trials limits cs now = before ++ [t] ∧ before.length < cs.length ∧
        (∀ t ∈ before, ∃ v, t.verdict = .ok v) ∧ t.verdict = .error words := by
  induction cs generalizing now with
  | nil => exact .inl ⟨rfl,[],rfl⟩
  | cons c cs ih =>
    cases came : (r.trial ((limits.find? c.name).getD 0) c now).verdict with
    | error words =>
      rw [Retries.trials_of_crash came]
      exact .inr ⟨[],_,words,rfl,Nat.succ_pos _,nofun,came⟩
    | ok v =>
      rw [Retries.trials_of_ok came]
      rcases ih (r.trial ((limits.find? c.name).getD 0) c now).stop with
        ⟨length,vs,told⟩ | ⟨before,t,words,split,room,earlier,last⟩
      · exact .inl ⟨congrArg (· + 1) length,v :: vs,by rw [List.map_cons, List.map_cons, came, told]⟩
      · exact .inr ⟨_ :: before,t,words,congrArg (_ :: ·) split,Nat.succ_lt_succ room,
          List.forall_mem_cons.mpr ⟨⟨v,came⟩,earlier⟩,last⟩

def trialsFrom (p : Pass) (start : Nat) : List Trial := p.retries.trials p.limits p.checkers start

def results (p : Pass) (start : Nat) : Except String (Table Verdict) :=
  verdicts p.checkers (p.trialsFrom start)

theorem sums_results (p : Pass) (start : Nat) : Sums p.checkers (p.trialsFrom start) (p.results start) := by
  rw [results, verdicts]
  rcases trials_verdicts p.retries p.limits p.checkers start with
    ⟨length,vs,told⟩ | ⟨before,t,words,split,room,earlier,last⟩
  · rw [trialsFrom, mapM_verdict_of_ok told]
    exact .whole length told
  · have came : (p.trialsFrom start).mapM Trial.verdict = .error words := by
      rw [trialsFrom, split, mapM_verdict_of_crash earlier last]
    rw [came]
    exact .crashed split room earlier last

/-! ## Results by name -/

section Zip
variable {names : List String} {name : String} {v : Verdict} {k : Nat}

theorem find?_insertAll_zip_of_not_mem (h : name ∉ names) (vs : List Verdict) (before : Table Verdict) :
    (before.insertAll (names.zip vs)).find? name = before.find? name := by
  have absent : (names.zip vs).reverse.lookup name = none := by
    rw [List.lookup_eq_none_iff]
    intro e he
    have ne : name ≠ e.1 := fun same => h (same ▸ (List.of_mem_zip (List.mem_reverse.mp he)).1)
    simpa using ne
  rw [Table.find?_insertAll, absent, Option.none_or]

theorem find?_insertAll_zip_of_last (hname : names[k]? = some name) (hv : vs[k]? = some v)
    (last : ∀ j, k < j → names[j]? ≠ some name) (before : Table Verdict) :
    (before.insertAll (names.zip vs)).find? name = some v := by
  induction k generalizing names vs before with
  | zero =>
    cases names with
    | nil => cases hname
    | cons n names =>
    cases vs with
    | nil => cases hv
    | cons w vs =>
      cases hname
      cases hv
      have others : name ∉ names := by
        intro h
        obtain ⟨j,hj⟩ := List.mem_iff_getElem?.mp h
        exact last (j + 1) (Nat.succ_pos j) hj
      exact (find?_insertAll_zip_of_not_mem others vs _).trans (Table.find?_insert_self ..)
  | succ k ih =>
    cases names with
    | nil => cases hname
    | cons n names =>
    cases vs with
    | nil => cases hv
    | cons w vs => exact ih hname hv (fun j hj => last (j + 1) (Nat.succ_lt_succ hj)) _

end Zip

variable {cs : List Checker} {results : Table Verdict}

/-- Results that give each name what the last of the checkers with the name came to, and no other name
anything. -/
structure Latest (cs : List Checker) (ts : List Trial) (results : Table Verdict) : Prop where
  last : ∀ (k : Nat) (c : Checker) (t : Trial), cs[k]? = some c → ts[k]? = some t →
    (∀ (j : Nat) (c' : Checker), k < j → cs[j]? = some c' → c'.name ≠ c.name) →
    ∃ v, t.verdict = .ok v ∧ results.find? c.name = some v
  only : ∀ name, name ∉ cs.map Checker.name → results.find? name = none

theorem Sums.latest (h : Sums cs ts (.ok results)) : Latest cs ts results := by
  cases h with
  | @whole vs length told =>
    refine ⟨?_,fun _ absent => find?_insertAll_zip_of_not_mem absent vs _⟩
    intro k c t hc ht last
    have place : (vs.map Except.ok)[k]? = some t.verdict := by
      rw [← told, List.getElem?_map, ht]
      rfl
    rw [List.getElem?_map] at place
    obtain ⟨v,hv,came⟩ := Option.map_eq_some_iff.mp place
    have named : (cs.map Checker.name)[k]? = some c.name := by
      rw [List.getElem?_map, hc]
      rfl
    refine ⟨v,came.symm,find?_insertAll_zip_of_last named hv ?_ _⟩
    intro j later same
    rw [List.getElem?_map] at same
    obtain ⟨c',hc',same⟩ := Option.map_eq_some_iff.mp same
    exact last j c' later hc' same

/-- There is a result for every checker, and for no other name. -/
theorem Sums.isSome_iff (h : Sums cs ts (.ok results)) {name : String} :
    (results.find? name).isSome = true ↔ name ∈ cs.map Checker.name := by
  cases h with
  | @whole vs length told =>
    have lengths : vs.length = cs.length := by
      rw [← length, ← List.length_map (f := Trial.verdict), told, List.length_map]
    have fronts : ((cs.map Checker.name).zip vs).map Prod.fst = cs.map Checker.name :=
      List.map_fst_zip (Nat.le_of_eq (by rw [List.length_map, lengths]))
    have found : (((cs.map Checker.name).zip vs).reverse.lookup name).isSome = true ↔
        name ∈ ((cs.map Checker.name).zip vs).map Prod.fst := by
      simp only [List.lookup_isSome_iff, List.mem_reverse, List.mem_map, beq_iff_eq]
      exact ⟨fun ⟨e,he,same⟩ => ⟨e,he,same.symm⟩,fun ⟨e,he,same⟩ => ⟨e,he,same.symm⟩⟩
    rw [Table.find?_ofList, found, fronts]

end Pass
end HealthProbe
