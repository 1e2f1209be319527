import HealthProbe.Proofs.Config.References
import Mathlib.Logic.ExistsUnique

/-! # Filling in variables all at once

References never overlap, so filling them in one after the other comes to the same as filling in all at
once, whenever no new reference has come about by it. What carries the proof is the text on the way: the
references to names that are done have become values, all others still stand where they stood, and no
reference can begin in what lies between two of these.
-/
namespace HealthProbe.Substitution

def value? (env : Environment) (name : List Char) : Option (List Char) :=
  (env.lookup (String.ofList name)).map String.toList

variable {env : Environment} {name other cs rest : List Char} {c : Char}

/-! ## The first variable that is not set -/

/-- A variable that is not set and is referred to, with no other such reference before it. -/
def FirstUnset (env : Environment) (name text : List Char) : Prop :=
  ∃ i, RefersAt name i text ∧ value? env name = none ∧
    ∀ j < i, ∀ other, RefersAt other j text → (value? env other).isSome

theorem firstUnset_reference (h : IsName name) :
    FirstUnset env other (referenceText name ++ rest) ↔
      if value? env name = none then other = name else FirstUnset env other rest := by
  split
  · rename_i unset
    constructor
    · rintro ⟨i,hi,_,before⟩
      rcases (refersAt_append_iff h).mp hi with ⟨_,same⟩ | ⟨j,rfl,_⟩
      · exact same
      · have first : 0 < (referenceText name).length + j := by
          rw [referenceText_eq, List.length_cons]
          omega
        have known := before 0 first name (refersAt_append h rest)
        rw [unset] at known
        cases known
    · rintro rfl
      exact ⟨0,refersAt_append h rest,unset,fun j hj => absurd hj (Nat.not_lt_zero j)⟩
  · rename_i known
    constructor
    · rintro ⟨i,hi,unset,before⟩
      rcases (refersAt_append_iff h).mp hi with ⟨_,same⟩ | ⟨j,rfl,hj⟩
      · exact absurd (same ▸ unset) known
      · refine ⟨j,hj,unset,?_⟩
        intro k hk name' hname'
        exact before _ (Nat.add_lt_add_left hk _) name'
          ((refersAt_append_iff h).mpr (.inr ⟨k,rfl,hname'⟩))
    · rintro ⟨j,hj,unset,before⟩
      refine ⟨_,(refersAt_append_iff h).mpr (.inr ⟨j,rfl,hj⟩),unset,?_⟩
      intro k hk name' hname'
      rcases (refersAt_append_iff h).mp hname' with ⟨_,rfl⟩ | ⟨k',rfl,hk'⟩
      · exact Option.isSome_iff_ne_none.mpr known
      · exact before k' (Nat.lt_of_add_lt_add_left hk) name' hk'

theorem firstUnset_plain (h : ∀ name, ¬ RefersAt name 0 (c :: rest)) :
    FirstUnset env other (c :: rest) ↔ FirstUnset env other rest := by
  constructor
  · rintro ⟨i,hi,unset,before⟩
    obtain ⟨j,rfl,hj⟩ := (refersAt_cons_iff h).mp hi
    exact ⟨j,hj,unset,fun k hk name' hname' => before (k + 1) (by omega) name' hname'⟩
  · rintro ⟨j,hj,unset,before⟩
    refine ⟨j + 1,hj,unset,?_⟩
    intro k hk name' hname'
    obtain ⟨k',rfl,hk'⟩ := (refersAt_cons_iff h).mp hname'
    exact before k' (by omega) name' hk'

theorem find?_references_eq_some_iff (text : List Char) :
    (references text).find? (fun n => (value? env n).isNone) = some name ↔
      FirstUnset env name text := by
  induction text using text_induction with
  | nil =>
    refine iff_of_false (by simp [references, pieces, piecesFrom]) ?_
    rintro ⟨i,hi,_⟩
    exact not_refersAt_nil _ _ hi
  | reference m rest hm ih =>
    rw [references_reference hm, firstUnset_reference hm, ← ih]
    cases known : value? env m with
    | none => simp [known, eq_comm]
    | some value => simp [known]
  | plain c rest here ih => rw [references_plain here, firstUnset_plain here, ih]

theorem replaceEach_eq_error_iff {names : List (List Char)} {e : ConfigFailure} :
    replaceEach env names cs = .error e ↔
      ∃ name, names.find? (fun n => (value? env n).isNone) = some name ∧
        e = .variableMissing (String.ofList name) := by
  induction names generalizing cs with
  | nil => simp [replaceEach]
  | cons n names ih =>
    simp only [replaceEach]
    cases known : env.lookup (String.ofList n) with
    | none => simp [value?, known, eq_comm]
    | some value =>
      rw [ih]
      simp [value?, known]

theorem exists_firstUnset_iff {text : List Char} :
    (∃ name, FirstUnset env name text) ↔ ∃ name i, RefersAt name i text ∧ value? env name = none := by
  have found : (∃ name, FirstUnset env name text) ↔
      ∃ name ∈ references text, value? env name = none := by
    simp only [← find?_references_eq_some_iff]
    rw [← Option.isSome_iff_exists, List.find?_isSome]
    simp only [Option.isNone_iff_eq_none]
  rw [found]
  simp only [mem_references_iff, exists_and_right]

/-! ## The simultaneous replacement -/

/-- A text, and the text in which every reference is replaced by its value and all else is kept. -/
inductive Expands (env : Environment) : List Char → List Char → Prop
  | done : Expands env [] []
  | reference {name value rest out : List Char} (named : IsName name)
      (known : value? env name = some value) (next : Expands env rest out) :
      Expands env (referenceText name ++ rest) (value ++ out)
  | plain {c : Char} {rest out : List Char} (here : ∀ name, ¬ RefersAt name 0 (c :: rest))
      (next : Expands env rest out) : Expands env (c :: rest) (c :: out)

theorem expands_expand {text : List Char}
    (known : ∀ name i, RefersAt name i text → (value? env name).isSome) :
    Expands env text (expand env (pieces text)) := by
  induction text using text_induction with
  | nil => exact .done
  | reference m rest hm ih =>
    obtain ⟨value,hvalue⟩ := Option.isSome_iff_exists.mp (known m 0 (refersAt_append hm rest))
    have next := ih fun name i hi => known name _ ((refersAt_append_iff hm).mpr (.inr ⟨i,rfl,hi⟩))
    obtain ⟨stored,hstored,rfl⟩ := Option.map_eq_some_iff.mp hvalue
    have whole := Expands.reference hm hvalue next
    simpa [pieces_reference hm, expand, hstored] using whole
  | plain c rest here ih =>
    have next := ih fun name i hi => known name _ ((refersAt_cons_iff here).mpr ⟨i,rfl,hi⟩)
    rw [pieces_plain here]
    exact .plain here next

theorem Expands.eq_expand {text out : List Char} (h : Expands env text out) :
    out = expand env (pieces text) := by
  induction h with
  | done => rfl
  | reference named known _ ih =>
    obtain ⟨stored,hstored,rfl⟩ := Option.map_eq_some_iff.mp known
    rw [ih, pieces_reference named]
    simp [expand, hstored]
  | plain here _ ih =>
    rw [ih, pieces_plain here]
    rfl

theorem Expands.references {text out : List Char} (h : Expands env text out) :
    ∀ name ∈ references text, IsName name ∧ ∃ value, env.lookup (String.ofList name) = some value := by
  induction h with
  | done => simp [Substitution.references, pieces, piecesFrom]
  | reference named known _ ih =>
    obtain ⟨stored,hstored,_⟩ := Option.map_eq_some_iff.mp known
    rw [references_reference named]
    exact List.forall_mem_cons.mpr ⟨⟨named,stored,hstored⟩,ih⟩
  | plain here _ ih =>
    rw [references_plain here]
    exact ih

/-! ## Filling in one name -/

theorem replaceFrom_skip (pattern value xs rest : List Char) :
    replaceFrom pattern value xs.length (xs ++ rest) = replaceFrom pattern value 0 rest := by
  induction xs with
  | nil => rfl
  | cons x xs ih => exact ih

theorem replaceAll_reference (name value rest : List Char) :
    replaceAll (referenceText name) value (referenceText name ++ rest) =
      value ++ replaceAll (referenceText name) value rest := by
  have front : (referenceText name).isPrefixOf (referenceText name ++ rest) = true :=
    List.isPrefixOf_iff_prefix.mpr (List.prefix_append _ _)
  have length : (referenceText name).length - 1 = (body name).length := by
    rw [referenceText_eq, List.length_cons, Nat.add_sub_cancel]
  have skipped := replaceFrom_skip (referenceText name) value (body name) rest
  rw [← length, referenceText_eq] at skipped
  rw [referenceText_eq, List.cons_append] at front ⊢
  simp only [replaceAll, replaceFrom, if_pos front, skipped]

theorem replaceAll_append {before value : List Char} (named : IsName name)
    (h : ∀ i < before.length, ¬ RefersAt name i (before ++ rest)) :
    replaceAll (referenceText name) value (before ++ rest) =
      before ++ replaceAll (referenceText name) value rest := by
  induction before with
  | nil => rfl
  | cons c before ih =>
    have here : ¬ (referenceText name).isPrefixOf (c :: (before ++ rest)) = true := by
      rw [List.isPrefixOf_iff_prefix]
      exact fun front => h 0 (Nat.zero_lt_succ _) ⟨named,front⟩
    have next := ih fun i hi => h (i + 1) (Nat.succ_lt_succ hi)
    rw [List.cons_append, List.cons_append, ← next, replaceAll, replaceAll, replaceFrom, if_neg here]

def partly (env : Environment) (done : List (List Char)) (text : List Char) : List Char :=
  (pieces text).flatMap fun
    | .plain c => [c]
    | .reference name => if name ∈ done then (value? env name).getD [] else referenceText name

theorem partly_reference {done : List (List Char)} (named : IsName name) (rest : List Char) :
    partly env done (referenceText name ++ rest) =
      (if name ∈ done then (value? env name).getD [] else referenceText name) ++
        partly env done rest := by
  rw [partly, pieces_reference named]
  rfl

theorem partly_plain {done : List (List Char)} (h : ∀ name, ¬ RefersAt name 0 (c :: rest)) :
    partly env done (c :: rest) = c :: partly env done rest := by
  rw [partly, pieces_plain h]
  rfl

theorem partly_nil (env : Environment) (text : List Char) : partly env [] text = text := by
  induction text using text_induction with
  | nil => rfl
  | reference m rest hm ih => simp [partly_reference hm, ih]
  | plain c rest here ih => rw [partly_plain here, ih]

theorem Expands.partly_eq {text out : List Char} {done : List (List Char)} (h : Expands env text out)
    (all : ∀ name ∈ Substitution.references text, name ∈ done) : partly env done text = out := by
  induction h with
  | done => rfl
  | reference named known _ ih =>
    rw [references_reference named] at all
    obtain ⟨first,others⟩ := List.forall_mem_cons.mp all
    rw [partly_reference named, if_pos first, known, ih others, Option.getD_some]
  | plain here _ ih =>
    rw [references_plain here] at all
    rw [partly_plain here, ih all]

/-- One round fills in the references to its name and touches nothing else. The induction carries along
what lies between the last reference that is still to come and this place. -/
theorem Expands.replaceAll_partly {text out before value : List Char} {done : List (List Char)}
    (h : Expands env text out) (clean : Clean (before ++ out)) (named : IsName name)
    (known : value? env name = some value) :
    replaceAll (referenceText name) value (before ++ partly env done text) =
      before ++ partly env (name :: done) text := by
  induction h generalizing before with
  | done =>
    have none : ∀ i < before.length, ¬ RefersAt name i (before ++ []) :=
      fun i hi => clean.left.not_refersAt_append (by simp) hi
    exact replaceAll_append named none
  | @reference other stored rest out hother hstored _ ih =>
    rw [partly_reference hother, partly_reference hother]
    by_cases earlier : other ∈ done
    · rw [← List.append_assoc] at clean
      rw [if_pos earlier, if_pos (List.mem_cons_of_mem _ earlier), hstored, Option.getD_some,
        ← List.append_assoc, ih clean, List.append_assoc]
    · have front : ∀ c ∈ (referenceText other ++ partly env done rest).head?, c = '$' := by
        simp [referenceText_eq]
      have next : replaceAll (referenceText name) value (partly env done rest) =
          partly env (name :: done) rest :=
        ih (show Clean ([] ++ out) from clean.right.right)
      rw [if_neg earlier, replaceAll_append named fun i hi => clean.left.not_refersAt_append front hi]
      by_cases same : other = name
      · subst same
        rw [replaceAll_reference, next, if_pos List.mem_cons_self, known, Option.getD_some]
      · have none : ∀ i < (referenceText other).length,
            ¬ RefersAt name i (referenceText other ++ partly env done rest) := by
          intro i hi refers
          rcases (refersAt_append_iff hother).mp refers with ⟨_,h⟩ | ⟨j,rfl,_⟩
          · exact same h.symm
          · omega
        rw [replaceAll_append named none, next, if_neg (by simp [same, earlier])]
  | @plain c rest out here _ ih =>
    have clean' : Clean ((before ++ [c]) ++ out) := by simpa using clean
    have next := ih clean'
    rw [partly_plain here, partly_plain here]
    simpa using next

/-! ## All rounds -/

theorem Expands.replaceEach_partly {text out : List Char} {names done : List (List Char)}
    (h : Expands env text out) (clean : Clean out)
    (known : ∀ name ∈ names, IsName name ∧ ∃ value, env.lookup (String.ofList name) = some value) :
    replaceEach env names (partly env done text) = .ok (partly env (names.reverse ++ done) text) := by
  induction names generalizing done with
  | nil => rfl
  | cons name names ih =>
    obtain ⟨⟨named,stored,hstored⟩,others⟩ := List.forall_mem_cons.mp known
    have hvalue : value? env name = some stored.toList := by simp [value?, hstored]
    have round : replaceAll (referenceText name) stored.toList (partly env done text) =
        partly env (name :: done) text :=
      h.replaceAll_partly (show Clean ([] ++ out) from clean) named hvalue
    simp only [replaceEach, hstored]
    rw [round, ih others, List.reverse_cons, List.append_assoc, List.singleton_append]

theorem Expands.replaceEach_references {text out : List Char} (h : Expands env text out)
    (clean : Clean out) : replaceEach env (Substitution.references text) text = .ok out := by
  have rounds : replaceEach env (Substitution.references text) (partly env [] text) =
      .ok (partly env ((Substitution.references text).reverse ++ []) text) :=
    h.replaceEach_partly clean h.references
  have finished : partly env ((Substitution.references text).reverse ++ []) text = out :=
    h.partly_eq (by simp)
  rwa [partly_nil, finished] at rounds

/-- Filling in fails exactly if a variable that is referred to is not set, and names the first such one;
if all are set, there is one text with every reference replaced by its value, and it is what comes out,
provided that no reference stands in it. -/
theorem substitute_exact (env : Environment) (text : String) :
    ((∃ e, substitute env text = .error e) ↔
      ∃ name i, RefersAt name i text.toList ∧ value? env name = none) ∧
    (∀ e, substitute env text = .error e ↔
      ∃ name, FirstUnset env name text.toList ∧ e = .variableMissing (String.ofList name)) ∧
    ((∀ name i, RefersAt name i text.toList → (value? env name).isSome) →
      ∃! out, Expands env text.toList out) ∧
    (∀ out, Expands env text.toList out → Clean out →
      substitute env text = .ok (String.ofList out)) := by
  have fails : ∀ e, substitute env text = .error e ↔
      ∃ name, FirstUnset env name text.toList ∧ e = .variableMissing (String.ofList name) := by
    intro e
    have rounds : substitute env text = .error e ↔
        replaceEach env (references text.toList) text.toList = .error e := by
      simp only [substitute]
      cases replaceEach env (references text.toList) text.toList <;> simp [Except.map]
    simp only [rounds, replaceEach_eq_error_iff, find?_references_eq_some_iff]
  refine ⟨?_,fails,?_,?_⟩
  · rw [← exists_firstUnset_iff]
    constructor
    · rintro ⟨e,he⟩
      obtain ⟨name,first,_⟩ := (fails e).mp he
      exact ⟨name,first⟩
    · rintro ⟨name,first⟩
      exact ⟨_,(fails _).mpr ⟨name,first,rfl⟩⟩
  · intro known
    exact ⟨_,expands_expand known,fun out hout => hout.eq_expand⟩
  · intro out hout clean
    simp only [substitute, hout.replaceEach_references clean]
    rfl

theorem substitute_exact_dollarBeforeBrace :
    let env : Environment := [("A", "$"), ("B", "\x7bA\x7dx")]
    let text := "$\x7bB\x7d$\x7bA\x7d"
    let out := "\x7bA\x7dx$"
    (∀ name i, RefersAt name i text.toList → (value? env name).isSome) ∧
      Expands env text.toList out.toList ∧ Clean out.toList ∧
      substitute env text = .ok (String.ofList out.toList) := by
  intro env text out
  have known : ∀ name i, RefersAt name i text.toList → (value? env name).isSome := by
    intro name i hi
    have all : ∀ name ∈ references text.toList, (value? env name).isSome := by decide
    exact all name (mem_references_iff.mpr ⟨i,hi⟩)
  have clean : Clean out.toList := by decide
  have expands : Expands env text.toList out.toList := by
    obtain ⟨_,_,hunique,_⟩ := substitute_exact env text
    obtain ⟨filled,hfilled,_⟩ := hunique known
    have same : filled = out.toList := hfilled.eq_expand.trans (by decide)
    exact same ▸ hfilled
  obtain ⟨_,_,_,result⟩ := substitute_exact env text
  exact ⟨known,expands,clean,result _ expands clean⟩

-- A value that brings in a reference of its own is filled in again by a later round.
example : substitute [("A", "$\x7bB\x7d"), ("B", "x")] "$\x7bA\x7d$\x7bB\x7d" = .ok "xx" := by rfl

end HealthProbe.Substitution
