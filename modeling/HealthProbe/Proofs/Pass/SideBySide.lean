import HealthProbe.Proofs.Agenda.Execution
import HealthProbe.Proofs.NodeStatus.History
import HealthProbe.Proofs.Pass.Steps

/-! # Passes side by side

Passes on different nodes may take their steps over one store in memory in any order. Each of them finds
the status of its node as it stood before all of them, and what it writes stays; one that crashes writes
nothing. So in the end the store tells, but for times, what it tells after the same passes one after the
other.
-/
namespace HealthProbe

/-! ## Statuses but for times -/

structure Result.AgreesButForTime (a b : Result) : Prop where
  health : a.health = b.health
  code : a.code = b.code
  message : a.message = b.message

structure NodeStatus.AgreesButForTimes (a b : NodeStatus) : Prop where
  node : a.node = b.node
  results : ∀ name,
    Option.Rel Result.AgreesButForTime (a.results.find? name) (b.results.find? name)
  dated : a.updatedAt.isSome = b.updatedAt.isSome

theorem Result.agreesButForTime_find? (r : Option Result) : Option.Rel AgreesButForTime r r := by
  cases r with
  | none => exact .none
  | some r => exact .some ⟨rfl,rfl,rfl⟩

namespace NodeStatus

theorem AgreesButForTimes.refl (s : NodeStatus) : s.AgreesButForTimes s :=
  ⟨rfl,fun _ => Result.agreesButForTime_find? _,rfl⟩

theorem agreesButForTimes_merge (s : NodeStatus) (results : Table Verdict) (a b : Time.Stamp) :
    (s.merge results a).AgreesButForTimes (s.merge results b) := by
  refine ⟨rfl,?_,rfl⟩
  intro name
  rw [find?_merge, find?_merge]
  cases results.find? name with
  | none => exact Result.agreesButForTime_find? _
  | some v => exact .some ⟨rfl,rfl,rfl⟩

end NodeStatus

namespace MemoryStore
variable {before s : State} {node other : String}

/-- The status that was looked up for a node names this node, so nothing is written under another. -/
theorem find?_put_merge_self (filed : Filed before) (results : Table Verdict) (moment : Time.Stamp) :
    (put ((get node before).merge results moment) s).find? node =
      some ((get node before).merge results moment) := by
  have own : ((get node before).merge results moment).node = node := filed.node_get node
  rw [put, own, Table.find?_insert_self]

theorem find?_put_merge_of_ne (filed : Filed before) (ne : other ≠ node) (results : Table Verdict)
    (moment : Time.Stamp) :
    (put ((get node before).merge results moment) s).find? other = s.find? other := by
  have own : ((get node before).merge results moment).node = node := filed.node_get node
  rw [put, own, Table.find?_insert_of_ne _ _ ne]

theorem get_congr {s' : State} (h : s.find? node = s'.find? node) : get node s = get node s' := by
  rw [get, h, get]

end MemoryStore

/-! ## Results whenever a pass begins -/

namespace Retries

theorem verdict_trials (r : Retries) (limits : Table Nat) (cs : List Checker) (a b : Nat) :
    (r.trials limits cs a).map Trial.verdict = (r.trials limits cs b).map Trial.verdict := by
  induction cs generalizing a b with
  | nil => rfl
  | cons c cs ih =>
    have same := r.verdict_trial_congr ((limits.find? c.name).getD 0) c a b
    cases came : (r.trial ((limits.find? c.name).getD 0) c a).verdict with
    | error words =>
      rw [trials_of_crash came, trials_of_crash (same.symm.trans came)]
      exact congrArg (· :: []) same
    | ok v =>
      rw [trials_of_ok came, trials_of_ok (same.symm.trans came), List.map_cons, List.map_cons, same]
      exact congrArg (_ :: ·) (ih ..)

end Retries

namespace Pass

theorem results_eq (p : Pass) (a b : Nat) : p.results a = p.results b := by
  have told (ts : List Trial) : ts.mapM Trial.verdict = (ts.map Trial.verdict).mapM id := by
    rw [List.mapM_map]
    rfl
  have same : (p.trialsFrom a).map Trial.verdict = (p.trialsFrom b).map Trial.verdict :=
    p.retries.verdict_trials ..
  rw [results, results, verdicts, verdicts, told, told, same]

theorem outcome_eq (p : Pass) (refusal? : String → Option StoreFailure) (a b : Nat) :
    p.outcome refusal? a = p.outcome refusal? b := by
  rw [outcome, outcome, p.results_eq a b]

/-! ## One pass among others -/

def Progress.outcome? (q : Progress) : Option (Except Failure (Table Verdict)) :=
  match q.standing with
  | .settled outcome => some outcome
  | _ => none

/-- How a pass that comes to these results stands over a state in which only it has touched the status
of its node. -/
inductive Undisturbed (before s : MemoryStore.State) (results : Except String (Table Verdict))
    (q : Progress) : Prop
  /-- It still makes its attempts, or has crashed in one of them. -/
  | unwritten {o : Outlook} (outlook : q.outlook? = some o) (comes : o.results = results)
      (kept : s.find? q.plan.node = before.find? q.plan.node)
  | writing {table : Table Verdict} (comes : results = .ok table)
      (stands : q.standing = .writing table (MemoryStore.get q.plan.node before))
      (kept : s.find? q.plan.node = before.find? q.plan.node)
  | settled {table : Table Verdict} (moment : Time.Stamp) (comes : results = .ok table)
      (stands : q.standing = .settled (.ok table))
      (written : s.find? q.plan.node = some ((MemoryStore.get q.plan.node before).merge table moment))

def Leaves (before s : MemoryStore.State) (node : String) : Except String (Table Verdict) → Prop
  | .error _ => s.find? node = before.find? node
  | .ok table => ∃ moment, s.find? node = some ((MemoryStore.get node before).merge table moment)

def settledAs : Except String (Table Verdict) → Except Failure (Table Verdict)
  | .error words => .error (.crashed 0 words)
  | .ok table => .ok table

theorem outcome_eq_settledAs (p : Pass) (start : Nat) :
    p.outcome (fun _ => none) start = settledAs (p.results start) := by
  rw [outcome]
  cases p.results start <;> rfl

namespace Undisturbed
variable {before s s' : MemoryStore.State} {results : Except String (Table Verdict)} {q : Progress}

theorem begin (before : MemoryStore.State) (p : Pass) (start : Nat) :
    Undisturbed before before (p.results start) (Progress.begin p start) :=
  .unwritten (Progress.outlook?_begin p start) rfl rfl

theorem frame (h : Undisturbed before s results q) (same : s'.find? q.plan.node = s.find? q.plan.node) :
    Undisturbed before s' results q := by
  cases h with
  | unwritten outlook comes kept => exact .unwritten outlook comes (same.trans kept)
  | writing comes stands kept => exact .writing comes stands (same.trans kept)
  | settled moment comes stands written => exact .settled moment comes stands (same.trans written)

theorem step (filed : MemoryStore.Filed before) (h : Undisturbed before s results q) :
    Undisturbed before (q.step MemoryStore.store s).2 results (q.step MemoryStore.store s).1 ∧
      ∀ node, node ≠ q.plan.node → (q.step MemoryStore.store s).2.find? node = s.find? node := by
  cases h with
  | unwritten outlook comes kept =>
    cases hs : q.standing with
    | trying left made rs =>
      cases left with
      | nil =>
        have step : q.step MemoryStore.store s = q.lookUp MemoryStore.store rs s := by
          rw [Progress.step, hs]
        have found := MemoryStore.get_congr kept
        simp only [Progress.outlook?, hs, Progress.trialsLeft, Progress.foresee_nil,
          Option.some.injEq] at outlook
        subst outlook comes
        rw [step]
        exact ⟨.writing rfl (congrArg (Standing.writing rs) found) kept,fun _ _ => rfl⟩
      | cons c left =>
        have step : q.step MemoryStore.store s = (q.attempt c left made rs, s) := by
          rw [Progress.step, hs]
        have plan := q.plan_attempt c left made rs
        rw [step]
        exact ⟨.unwritten ((Progress.outlook?_attempt hs).trans outlook) comes (plan ▸ kept),
          fun _ _ => rfl⟩
    | writing rs status => simp [Progress.outlook?, hs] at outlook
    | settled outcome =>
      have step : q.step MemoryStore.store s = (q, s) := by
        rw [Progress.step, hs]
      rw [step]
      exact ⟨.unwritten outlook comes kept,fun _ _ => rfl⟩
  | @writing table comes stands kept =>
    have step : (q.step MemoryStore.store s).2 = MemoryStore.put
        ((MemoryStore.get q.plan.node before).merge table (q.plan.clock q.now)) s := by
      rw [Progress.step, stands]
      rfl
    refine ⟨.settled (q.plan.clock q.now) comes ?_ ?_,?_⟩
    · rw [Progress.step, stands]
      rfl
    · rw [Progress.plan_step, step]
      exact MemoryStore.find?_put_merge_self filed ..
    · intro node ne
      rw [step]
      exact MemoryStore.find?_put_merge_of_ne filed ne ..
  | settled moment comes stands written =>
    have step : q.step MemoryStore.store s = (q, s) := by
      rw [Progress.step, stands]
    rw [step]
    exact ⟨.settled moment comes stands written,fun _ _ => rfl⟩

theorem finished (h : Undisturbed before s results q) (isOver : q.outcome?.isSome = true) :
    q.outcome? = some (settledAs results) ∧ Leaves before s q.plan.node results := by
  cases h with
  | unwritten outlook comes kept =>
    subst comes
    unfold Progress.outlook? at outlook
    split at outlook
    · rename_i hs
      simp [Progress.outcome?, hs] at isOver
    · rename_i words hs
      cases outlook
      exact ⟨by rw [Progress.outcome?, hs]; rfl,kept⟩
    · cases outlook
  | writing comes stands kept => simp [Progress.outcome?, stands] at isOver
  | settled moment comes stands written =>
    subst comes
    exact ⟨by rw [Progress.outcome?, stands]; rfl,moment,written⟩

end Undisturbed

/-! ## All passes -/

structure Ensemble (σ : Type) where
  passes : List Progress
  state : σ

namespace Ensemble
variable {σ : Type}

def begin (passes : History) (s : σ) : Ensemble σ := ⟨passes.map fun e => Progress.begin e.1 e.2, s⟩

def advance (store : Store σ) (g : Ensemble σ) (i : Nat) : Ensemble σ :=
  match g.passes[i]? with
  | none => g
  | some q => ⟨g.passes.set i (q.step store g.state).1, (q.step store g.state).2⟩

def follow (store : Store σ) (g : Ensemble σ) (order : List Nat) : Ensemble σ :=
  order.foldl (advance store) g

def outcomes (g : Ensemble σ) : List (Option (Except Failure (Table Verdict))) :=
  g.passes.map Progress.outcome?

def IsOver (g : Ensemble σ) : Prop := ∀ q ∈ g.passes, q.outcome?.isSome = true

instance (g : Ensemble σ) : Decidable g.IsOver :=
  inferInstanceAs (Decidable (∀ q ∈ g.passes, q.outcome?.isSome = true))

theorem exists_isOver (store : Store σ) (g : Ensemble σ) : ∃ more, (g.follow store more).IsOver := by
  induction hn : (g.passes.map Progress.stepsLeft).sum using Nat.strongRecOn generalizing g with
  | _ n ih =>
  subst hn
  by_cases settled : g.IsOver
  · exact ⟨[],settled⟩
  · simp only [IsOver, not_forall] at settled
    obtain ⟨q,hq,going⟩ := settled
    obtain ⟨i,hi⟩ := List.mem_iff_getElem?.mp hq
    have goes : ∀ outcome, q.standing ≠ .settled outcome := by
      intro outcome stands
      simp [Progress.outcome?, stands] at going
    have less : ((g.advance store i).passes.map Progress.stepsLeft).sum <
        (g.passes.map Progress.stepsLeft).sum := by
      simp only [advance, hi]
      exact Agenda.sum_map_set_lt hi (Progress.stepsLeft_step goes)
    obtain ⟨more,done⟩ := ih _ less _ rfl
    exact ⟨i :: more,done⟩

end Ensemble

/-- What passes have written: each one's results, if it came to any, into the status that its node had
before all of them, and nothing else. -/
structure Written (before : MemoryStore.State) (passes : History) (after : MemoryStore.State) : Prop where
  own : ∀ e ∈ passes, Leaves before after e.1.node (e.1.results e.2)
  others : ∀ node, node ∉ passes.map (fun e => e.1.node) → after.find? node = before.find? node

structure Ensemble.Sound (before : MemoryStore.State) (passes : History)
    (g : Ensemble MemoryStore.State) : Prop where
  length : g.passes.length = passes.length
  each : ∀ (i : Nat) (e : Pass × Nat) (q : Progress), passes[i]? = some e → g.passes[i]? = some q →
    q.plan = e.1 ∧ Undisturbed before g.state (e.1.results e.2) q
  others : ∀ node, node ∉ passes.map (fun e => e.1.node) → g.state.find? node = before.find? node

namespace Ensemble.Sound
variable {before : MemoryStore.State} {passes : History} {g : Ensemble MemoryStore.State}

theorem begin (before : MemoryStore.State) (passes : History) :
    Sound before passes (Ensemble.begin passes before) := by
  refine ⟨List.length_map ..,?_,fun _ _ => rfl⟩
  intro i e q he hq
  have came : (Ensemble.begin passes before).passes[i]? = some (Progress.begin e.1 e.2) := by
    rw [Ensemble.begin, List.getElem?_map, he]
    rfl
  rw [came] at hq
  cases hq
  exact ⟨rfl,.begin before e.1 e.2⟩

theorem nodes_ne (apart : (passes.map fun e => e.1.node).Nodup) {i j : Nat} {a b : Pass × Nat}
    (ha : passes[i]? = some a) (hb : passes[j]? = some b) (ne : i ≠ j) : a.1.node ≠ b.1.node := by
  have hi : (passes.map fun e => e.1.node)[i]? = some a.1.node := by rw [List.getElem?_map, ha]; rfl
  have hj : (passes.map fun e => e.1.node)[j]? = some b.1.node := by rw [List.getElem?_map, hb]; rfl
  intro same
  exact ne ((List.getElem?_inj (List.getElem?_eq_some_iff.mp hi).1 apart).mp (by rw [hi, hj, same]))

theorem advance (filed : MemoryStore.Filed before) (apart : (passes.map fun e => e.1.node).Nodup)
    (h : Sound before passes g) (i : Nat) : Sound before passes (g.advance MemoryStore.store i) := by
  unfold Ensemble.advance
  split
  · exact h
  · rename_i q hq
    have hlt : i < passes.length := h.length ▸ (List.getElem?_eq_some_iff.mp hq).1
    have he : passes[i]? = some passes[i] := List.getElem?_eq_getElem hlt
    obtain ⟨plan,undisturbed⟩ := h.each i _ q he hq
    obtain ⟨own,others⟩ := undisturbed.step filed
    refine ⟨(List.length_set ..).trans h.length,?_,?_⟩
    · intro j e r hj hr
      by_cases same : j = i
      · subst same
        rw [List.getElem?_set_self (List.getElem?_eq_some_iff.mp hq).1] at hr
        rw [he] at hj
        cases hr
        cases hj
        exact ⟨(q.plan_step ..).trans plan,own⟩
      · rw [List.getElem?_set_ne (Ne.symm same)] at hr
        obtain ⟨plan',undisturbed'⟩ := h.each j e r hj hr
        refine ⟨plan',undisturbed'.frame (others _ ?_)⟩
        rw [plan', plan]
        exact nodes_ne apart hj he same
    · intro node hnode
      refine (others node ?_).trans (h.others node hnode)
      rintro rfl
      exact hnode (List.mem_map.mpr ⟨_,List.getElem_mem hlt,congrArg Pass.node plan.symm⟩)

theorem follow (filed : MemoryStore.Filed before) (apart : (passes.map fun e => e.1.node).Nodup)
    (h : Sound before passes g) (order : List Nat) :
    Sound before passes (g.follow MemoryStore.store order) := by
  induction order generalizing g with
  | nil => exact h
  | cons i order ih => exact ih (h.advance filed apart i)

theorem finished (h : Sound before passes g) (isOver : g.IsOver) :
    Written before passes g.state ∧
      g.outcomes = passes.map fun e => some (e.1.outcome (fun _ => none) e.2) := by
  have come : ∀ (i : Nat) (e : Pass × Nat), passes[i]? = some e → ∃ q, g.passes[i]? = some q ∧
      q.outcome? = some (e.1.outcome (fun _ => none) e.2) ∧
      Leaves before g.state e.1.node (e.1.results e.2) := by
    intro i e he
    have hlt : i < g.passes.length := h.length ▸ (List.getElem?_eq_some_iff.mp he).1
    have hq : g.passes[i]? = some g.passes[i] := List.getElem?_eq_getElem hlt
    obtain ⟨plan,undisturbed⟩ := h.each i e _ he hq
    have done := undisturbed.finished (isOver _ (List.getElem_mem hlt))
    rw [plan, ← outcome_eq_settledAs] at done
    exact ⟨_,hq,done⟩
  refine ⟨⟨?_,h.others⟩,?_⟩
  · intro e he
    obtain ⟨i,hi⟩ := List.mem_iff_getElem?.mp he
    obtain ⟨_,_,_,left⟩ := come i e hi
    exact left
  · apply List.ext_getElem?
    intro i
    rw [outcomes, List.getElem?_map, List.getElem?_map]
    cases he : passes[i]? with
    | none =>
      have past : g.passes.length ≤ i := h.length ▸ List.getElem?_eq_none_iff.mp he
      rw [List.getElem?_eq_none past]
      rfl
    | some e =>
      obtain ⟨q,hq,outcome,_⟩ := come i e he
      rw [hq, Option.map_some, outcome]
      rfl

end Ensemble.Sound

/-! ## One after the other -/

namespace Leaves
variable {before before' s s' : MemoryStore.State} {node : String}
  {results : Except String (Table Verdict)}

theorem frame (h : Leaves before s node results) (same : s'.find? node = s.find? node) :
    Leaves before s' node results := by
  cases results with
  | error words => exact Eq.trans same h
  | ok table => exact h.imp fun _ written => same.trans written

theorem since (h : Leaves before s node results) (same : before.find? node = before'.find? node) :
    Leaves before' s node results := by
  cases results with
  | error words => exact Eq.trans h same
  | ok table =>
    rw [Leaves, ← MemoryStore.get_congr same]
    exact h

end Leaves

theorem leaves_perform {before : MemoryStore.State} (filed : MemoryStore.Filed before) (p : Pass)
    (start : Nat) :
    let after := (p.perform MemoryStore.store start before).2
    MemoryStore.Filed after ∧ Leaves before after p.node (p.results start) ∧
      ∀ node, node ≠ p.node → after.find? node = before.find? node := by
  intro after
  cases came : p.results start with
  | error words =>
    have left : after = before := (p.perform_of_crash _ came before).2
    rw [left]
    exact ⟨filed,rfl,fun _ _ => rfl⟩
  | ok table =>
    have left : after = MemoryStore.put ((MemoryStore.get p.node before).merge table (p.moment start))
      before := (p.perform_of_results _ came before).2
    rw [left]
    exact ⟨filed.put _,⟨_,MemoryStore.find?_put_merge_self filed ..⟩,
      fun _ ne => MemoryStore.find?_put_merge_of_ne filed ne ..⟩

namespace Written
variable {before s s' : MemoryStore.State} {passes later : History}

theorem afterPasses (filed : MemoryStore.Filed before) (apart : (passes.map fun e => e.1.node).Nodup) :
    Written before passes (MemoryStore.store.afterPasses passes before) := by
  induction passes generalizing before with
  | nil => exact ⟨by simp,fun _ _ => rfl⟩
  | cons entry rest ih =>
    obtain ⟨p,start⟩ := entry
    obtain ⟨absent,apart'⟩ := List.nodup_cons.mp apart
    obtain ⟨filed',own,kept⟩ := leaves_perform filed p start
    have next := ih filed' apart'
    refine ⟨?_,?_⟩
    · intro e he
      rcases List.mem_cons.mp he with rfl | he
      · exact own.frame (next.others p.node absent)
      · have ne : e.1.node ≠ p.node := fun same => absent (List.mem_map.mpr ⟨e,he,same⟩)
        exact (next.own e he).since (kept e.1.node ne)
    · intro node hnode
      have ne : node ≠ p.node := List.ne_of_not_mem_cons hnode
      exact (next.others node (List.not_mem_of_not_mem_cons hnode)).trans (kept node ne)

theorem agreesButForTimes_find? (s : MemoryStore.State) (node : String) :
    Option.Rel NodeStatus.AgreesButForTimes (s.find? node) (s.find? node) := by
  cases s.find? node with
  | none => exact .none
  | some status => exact .some (.refl status)

theorem agrees (h : Written before passes s) (h' : Written before later s')
    (same : (later.map Prod.fst).Perm (passes.map Prod.fst)) (node : String) :
    Option.Rel NodeStatus.AgreesButForTimes (s.find? node) (s'.find? node) := by
  by_cases hnode : node ∈ passes.map fun e => e.1.node
  · obtain ⟨e,he,rfl⟩ := List.mem_map.mp hnode
    obtain ⟨e',he',plan⟩ := List.mem_map.mp (same.mem_iff.mpr (List.mem_map_of_mem he))
    have own := h.own e he
    have own' := h'.own e' he'
    rw [plan, e.1.results_eq e'.2 e.2] at own'
    cases came : e.1.results e.2 with
    | error words =>
      rw [came] at own own'
      have both : s.find? e.1.node = s'.find? e.1.node := Eq.trans own (Eq.symm own')
      rw [both]
      exact agreesButForTimes_find? ..
    | ok table =>
      rw [came] at own own'
      obtain ⟨a,ha⟩ := own
      obtain ⟨b,hb⟩ := own'
      rw [ha, hb]
      exact .some (NodeStatus.agreesButForTimes_merge ..)
  · have absent : node ∉ later.map fun e => e.1.node := by
      intro hlater
      obtain ⟨e',he',hnode'⟩ := List.mem_map.mp hlater
      obtain ⟨e,he,plan⟩ := List.mem_map.mp (same.mem_iff.mp (List.mem_map_of_mem he'))
      exact hnode (List.mem_map.mpr ⟨e,he,plan ▸ hnode'⟩)
    rw [h.others node hnode, h'.others node absent]
    exact agreesButForTimes_find? ..

end Written

theorem zip_outcomes (passes : History) :
    (passes.map Prod.fst).zip (passes.map fun e => some (e.1.outcome (fun _ => none) e.2)) =
      (passes.map Prod.fst).map fun p => (p, some (p.outcome (fun _ => none) 0)) := by
  rw [List.zip_map', List.map_map]
  refine List.map_congr_left fun e _ => ?_
  rw [e.1.outcome_eq _ e.2 0]
  rfl

/-- Passes on different nodes, over whatever statuses were kept in memory before, and an order in which
they take their steps. The order can be followed to the end of all passes. Once they are over, the
statuses that are kept are, but for times, those that the same passes leave one after the other, whatever
the order of these and whenever each of them begins; every pass has succeeded, unless a checker crashed it,
and with the same results. -/
theorem Ensemble.any_order_agrees (earlier : List NodeStatus) (passes later : History)
    (apart : (passes.map fun e => e.1.node).Nodup)
    (same : (later.map Prod.fst).Perm (passes.map Prod.fst)) (order : List Nat) :
    let before := earlier.foldl (fun s new => MemoryStore.put new s) Table.empty
    let g := (Ensemble.begin passes before).follow MemoryStore.store order
    (∃ more, (g.follow MemoryStore.store more).IsOver) ∧
    (g.IsOver →
      (∀ node, Option.Rel NodeStatus.AgreesButForTimes (Table.find? g.state node)
        (Table.find? (MemoryStore.store.afterPasses later before) node)) ∧
      g.outcomes = passes.map (fun e => some (e.1.outcome (fun _ => none) e.2)) ∧
      ((passes.map Prod.fst).zip g.outcomes).Perm
        ((later.map Prod.fst).zip ((MemoryStore.store.outcomes later before).map some))) := by
  intro before g
  have filed : MemoryStore.Filed before := MemoryStore.filed_empty.putAll earlier
  have sound : Ensemble.Sound before passes g :=
    (Ensemble.Sound.begin before passes).follow filed apart order
  refine ⟨g.exists_isOver MemoryStore.store,?_⟩
  intro isOver
  obtain ⟨written,outcomes⟩ := sound.finished isOver
  have apart' : (later.map fun e => e.1.node).Nodup := by
    have nodes := same.map Pass.node
    rw [List.map_map, List.map_map] at nodes
    exact nodes.nodup_iff.mpr apart
  refine ⟨written.agrees (Written.afterPasses filed apart') same,outcomes,?_⟩
  have sequential : (MemoryStore.store.outcomes later before).map some =
      later.map fun e => some (e.1.outcome (fun _ => none) e.2) := by
    rw [MemoryStore.keeps.outcomes_eq later filed, List.map_map]
    rfl
  rw [outcomes, sequential, zip_outcomes, zip_outcomes]
  exact (same.map _).symm

/-- Both passes look the status of their node up before either writes. -/
theorem Ensemble.any_order_agrees_lookedUpFirst :
    ([(twoCheckers, 0), (oneChecker "node-2", 0)].map fun e => e.1.node).Nodup ∧
    ∃ g : Ensemble MemoryStore.State,
      g = (Ensemble.begin [(twoCheckers, 0), (oneChecker "node-2", 0)]
        (MemoryStore.put knownStatus Table.empty)).follow MemoryStore.store [0, 1, 0, 0, 1, 1, 0] ∧
      g.IsOver ∧ ∀ node, Option.Rel NodeStatus.AgreesButForTimes (Table.find? g.state node)
        (Table.find? (MemoryStore.store.afterPasses [(oneChecker "node-2", 7), (twoCheckers, 9)]
          (MemoryStore.put knownStatus Table.empty)) node) := by
  have apart : ([(twoCheckers, 0), (oneChecker "node-2", 0)].map fun e => e.1.node).Nodup := by
    decide +kernel
  have isOver : ((Ensemble.begin [(twoCheckers, 0), (oneChecker "node-2", 0)]
      (MemoryStore.put knownStatus Table.empty)).follow MemoryStore.store
      [0, 1, 0, 0, 1, 1, 0]).IsOver := by
    decide +kernel
  obtain ⟨_,agree⟩ := any_order_agrees [knownStatus] [(twoCheckers, 0), (oneChecker "node-2", 0)]
    [(oneChecker "node-2", 7), (twoCheckers, 9)] apart (.swap ..) [0, 1, 0, 0, 1, 1, 0]
  exact ⟨apart,_,rfl,isOver,(agree isOver).1⟩

end Pass
end HealthProbe
