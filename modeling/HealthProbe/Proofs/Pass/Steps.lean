import HealthProbe.Proofs.Pass.Trials
import HealthProbe.Proofs.Pass.Verdicts

/-! # A pass step by step

A pass makes its attempts one after the other, then looks up the status of its node and then writes it; an
attempt that crashes is the last thing that it does. Here each of these is a step of its own, so that the
order of all that a pass does can be told, and passes can take their steps in turns. Carried out without a
pause the steps come to what the pass comes to.
-/
namespace HealthProbe

inductive Store.Call
  | get (node : String) (answer : Except StoreFailure NodeStatus)
  | update (status : NodeStatus) (answer : Except StoreFailure Unit)

namespace Pass

inductive Act
  | attempt (checker : String) (a : Attempt)
  | call (time : Nat) (c : Store.Call)

inductive Standing
  /-- The first of the checkers that are left has been tried so many times. -/
  | trying (left : List Checker) (made : Nat) (results : Table Verdict)
  | writing (results : Table Verdict) (status : NodeStatus)
  | settled (outcome : Except Failure (Table Verdict))

structure Progress where
  plan : Pass
  now : Nat
  standing : Standing
  acts : List Act

/-- What a pass on its way will have come to when its last attempt is made. -/
structure Outlook where
  results : Except String (Table Verdict)
  stop : Nat
  acts : List Act

def limit (p : Pass) (c : Checker) : Nat := (p.limits.find? c.name).getD 0

def attempts (cs : List Checker) (ts : List Trial) : List Act :=
  (cs.zip ts).flatMap fun (c, t) => t.attempts.map (.attempt c.name)

namespace Progress
variable {σ : Type}

def begin (p : Pass) (start : Nat) : Progress := ⟨p, start, .trying p.checkers 0 Table.empty, []⟩

def attempt (q : Progress) (c : Checker) (left : List Checker) (made : Nat) (results : Table Verdict) :
    Progress :=
  let a := Retries.attemptAt (q.plan.limit c) c made q.now
  let acts := q.acts ++ [.attempt c.name a]
  match c.fate (q.plan.limit c) made with
  | .error words => ⟨q.plan, a.stop, .settled (.error (.crashed 0 words)), acts⟩
  | .ok (.ok v) => ⟨q.plan, a.stop, .trying left 0 (results.insert c.name v), acts⟩
  | .ok (.error e) =>
    if made + 1 < q.plan.retries.attempts then
      ⟨q.plan, a.stop + q.plan.retries.pause, .trying (c :: left) (made + 1) results, acts⟩
    else
      ⟨q.plan, a.stop,
        .trying left 0 (results.insert c.name (Retries.failedVerdict q.plan.retries.attempts e)), acts⟩

def lookUp (store : Store σ) (q : Progress) (results : Table Verdict) (s : σ) : Progress × σ :=
  let answer := store.get q.plan.node s
  let standing : Standing :=
    match answer.1 with
    | .ok status => .writing results status
    | .error e => .settled (.error (.store e))
  (⟨q.plan, q.now, standing, q.acts ++ [.call q.now (.get q.plan.node answer.1)]⟩, answer.2)

def write (store : Store σ) (q : Progress) (results : Table Verdict) (status : NodeStatus) (s : σ) :
    Progress × σ :=
  let new := status.merge results (q.plan.clock q.now)
  let answer := store.update new s
  let outcome : Except Failure (Table Verdict) :=
    match answer.1 with
    | .ok () => .ok results
    | .error e => .error (.store e)
  (⟨q.plan, q.now, .settled outcome, q.acts ++ [.call q.now (.update new answer.1)]⟩, answer.2)

def step (store : Store σ) (q : Progress) (s : σ) : Progress × σ :=
  match q.standing with
  | .trying (c :: left) made results => (q.attempt c left made results, s)
  | .trying [] _ results => q.lookUp store results s
  | .writing results status => q.write store results status s
  | .settled _ => (q, s)

theorem plan_attempt (q : Progress) (c : Checker) (left : List Checker) (made : Nat)
    (results : Table Verdict) : (q.attempt c left made results).plan = q.plan := by
  simp only [attempt]
  split
  · rfl
  · rfl
  · split <;> rfl

@[simp] theorem plan_step (store : Store σ) (q : Progress) (s : σ) : (q.step store s).1.plan = q.plan := by
  unfold step
  split
  · exact plan_attempt ..
  all_goals rfl

def carryOut (store : Store σ) : Nat → Progress × σ → Progress × σ
  | 0, x => x
  | n + 1, x => carryOut store n (x.1.step store x.2)

theorem carryOut_add (store : Store σ) (m n : Nat) (x : Progress × σ) :
    carryOut store (m + n) x = carryOut store n (carryOut store m x) := by
  induction m generalizing x with
  | zero => rw [Nat.zero_add, carryOut]
  | succ m ih => rw [Nat.succ_add, carryOut, ih, carryOut]

def stepsLeft (q : Progress) : Nat :=
  match q.standing with
  | .trying (_ :: left) made _ =>
    (q.plan.retries.attempts - made) + left.length * (q.plan.retries.attempts + 1) + 3
  | .trying [] _ _ => 2
  | .writing _ _ => 1
  | .settled _ => 0

theorem stepsLeft_trying (p : Pass) (now : Nat) (left : List Checker) (results : Table Verdict)
    (acts : List Act) :
    stepsLeft ⟨p, now, .trying left 0 results, acts⟩ = left.length * (p.retries.attempts + 1) + 2 := by
  cases left with
  | nil => simp [stepsLeft]
  | cons c left =>
    simp only [stepsLeft, List.length_cons, Nat.succ_mul]
    omega

theorem stepsLeft_attempt {q : Progress} {c : Checker} {left : List Checker} {made : Nat}
    {results : Table Verdict} (h : q.standing = .trying (c :: left) made results) :
    (q.attempt c left made results).stepsLeft < q.stepsLeft := by
  have before : q.stepsLeft =
      (q.plan.retries.attempts - made) + left.length * (q.plan.retries.attempts + 1) + 3 := by
    rw [stepsLeft, h]
  rw [before]
  simp only [attempt]
  split
  · exact Nat.succ_pos _
  · rw [stepsLeft_trying]
    omega
  · split
    · simp only [stepsLeft]
      omega
    · rw [stepsLeft_trying]
      omega

theorem stepsLeft_step {store : Store σ} {q : Progress} {s : σ}
    (going : ∀ outcome, q.standing ≠ .settled outcome) : (q.step store s).1.stepsLeft < q.stepsLeft := by
  cases h : q.standing with
  | trying left made results =>
    cases left with
    | nil =>
      simp only [step, h, lookUp, stepsLeft]
      split
      · rename_i stood
        split at stood <;> cases stood
      · rename_i stood
        split at stood <;> cases stood
      · omega
      · omega
    | cons c left => simpa only [step, h] using stepsLeft_attempt h
  | writing results status => simp [step, h, write, stepsLeft]
  | settled outcome => exact absurd h (going outcome)

/-! ## What the attempts come to -/

def trialsLeft (q : Progress) : List Checker → Nat → List Trial
  | [], _ => []
  | c :: left, made =>
    let t := q.plan.retries.tryOn (q.plan.limit c) c (q.plan.retries.attempts - 1 - made) made q.now
    match t.verdict with
    | .ok _ => t :: q.plan.retries.trials q.plan.limits left t.stop
    | .error _ => [t]

/-- What trials of checkers come to when they follow what a pass has done so far. -/
def foresee (left : List Checker) (ts : List Trial) (now : Nat) (results : Table Verdict)
    (acts : List Act) : Outlook :=
  ⟨(ts.mapM Trial.verdict).map fun vs => results.insertAll ((left.map Checker.name).zip vs),
    (ts.getLast?.map Trial.stop).getD now, acts ++ attempts left ts⟩

def outlook? (q : Progress) : Option Outlook :=
  match q.standing with
  | .trying left made results => some (foresee left (q.trialsLeft left made) q.now results q.acts)
  | .settled (.error (.crashed 0 words)) => some ⟨.error words, q.now, q.acts⟩
  | _ => none

theorem trialsLeft_zero (q : Progress) (left : List Checker) :
    q.trialsLeft left 0 = q.plan.retries.trials q.plan.limits left q.now := by
  cases left <;> rfl

theorem getLast?_stop_cons (t : Trial) (ts : List Trial) (now : Nat) :
    ((t :: ts).getLast?.map Trial.stop).getD now = (ts.getLast?.map Trial.stop).getD t.stop := by
  rw [List.getLast?_cons]
  cases ts.getLast? <;> rfl

theorem foresee_nil (now : Nat) (results : Table Verdict) (acts : List Act) :
    foresee [] [] now results acts = ⟨.ok results, now, acts⟩ := by
  simp only [foresee, attempts, List.zip_nil_left, List.flatMap_nil, List.append_nil]
  rfl

theorem foresee_cons {c : Checker} {left : List Checker} {t : Trial} {ts : List Trial} {v : Verdict}
    (now : Nat) (results : Table Verdict) (acts : List Act) (came : t.verdict = .ok v) :
    foresee (c :: left) (t :: ts) now results acts =
      foresee left ts t.stop (results.insert c.name v) (acts ++ t.attempts.map (.attempt c.name)) := by
  simp only [foresee, getLast?_stop_cons, List.append_assoc, List.mapM_cons, came]
  cases ts.mapM Trial.verdict <;> rfl

theorem foresee_crash {c : Checker} {left : List Checker} {t : Trial} {words : String} (now : Nat)
    (results : Table Verdict) (acts : List Act) (came : t.verdict = .error words) :
    foresee (c :: left) [t] now results acts =
      ⟨.error words, t.stop, acts ++ t.attempts.map (.attempt c.name)⟩ := by
  simp only [foresee, List.mapM_cons, came, attempts, List.zip_cons_cons, List.zip_nil_right,
    List.flatMap_cons, List.flatMap_nil, List.append_nil]
  rfl

section Cons
variable {q : Progress} {c : Checker} {left : List Checker} {made : Nat} {results : Table Verdict}
  {t : Trial}

/-- What is left to a pass that tries a checker is the trial of this one, and then the others. -/
theorem outlook?_of_ok {v : Verdict} (h : q.standing = .trying (c :: left) made results)
    (ht : t = q.plan.retries.tryOn (q.plan.limit c) c (q.plan.retries.attempts - 1 - made) made q.now)
    (came : t.verdict = .ok v) :
    q.outlook? = outlook? ⟨q.plan, t.stop, .trying left 0 (results.insert c.name v),
      q.acts ++ t.attempts.map (.attempt c.name)⟩ := by
  have rest : q.trialsLeft (c :: left) made =
      t :: q.plan.retries.trials q.plan.limits left t.stop := by
    simp only [trialsLeft, ← ht, came]
  simp only [outlook?, h, rest, foresee_cons _ _ _ came]
  exact congrArg (fun ts => some (foresee left ts _ _ _)) (trialsLeft_zero ⟨q.plan,t.stop,_,_⟩ left).symm

theorem outlook?_of_crash {words : String} (h : q.standing = .trying (c :: left) made results)
    (ht : t = q.plan.retries.tryOn (q.plan.limit c) c (q.plan.retries.attempts - 1 - made) made q.now)
    (came : t.verdict = .error words) :
    q.outlook? = some ⟨.error words, t.stop, q.acts ++ t.attempts.map (.attempt c.name)⟩ := by
  have rest : q.trialsLeft (c :: left) made = [t] := by
    simp only [trialsLeft, ← ht, came]
  simp only [outlook?, h, rest, foresee_crash _ _ _ came]

end Cons

section Attempt
variable {q : Progress} {c : Checker} {left : List Checker} {made : Nat} {results : Table Verdict}

theorem outlook?_attempt_of_final (h : q.standing = .trying (c :: left) made results)
    (final : q.plan.retries.attempts - 1 - made = 0 ∨
      ∀ e, c.fate (q.plan.limit c) made ≠ .ok (.error e)) :
    (q.attempt c left made results).outlook? = q.outlook? := by
  have ends := q.plan.retries.tryOn_of_final q.now final
  cases came : c.fate (q.plan.limit c) made with
  | error words =>
    rw [came] at ends
    rw [outlook?_of_crash h rfl ends.verdict]
    simp only [attempt, came, ends.stop, ends.attempts, outlook?, List.map_singleton]
  | ok o =>
    rw [came] at ends
    rw [outlook?_of_ok h rfl ends.verdict]
    cases o with
    | ok v => simp only [attempt, came, ends.stop, ends.attempts, List.map_singleton, Retries.judged]
    | error e =>
      have last : ¬ made + 1 < q.plan.retries.attempts := by
        rcases final with none | never
        · omega
        · exact absurd came (never e)
      simp only [attempt, came, if_neg last, ends.stop, ends.attempts, List.map_singleton, Retries.judged]

theorem outlook?_attempt_of_error {e : CheckFailure} (h : q.standing = .trying (c :: left) made results)
    (came : c.fate (q.plan.limit c) made = .ok (.error e)) (more : made + 1 < q.plan.retries.attempts) :
    (q.attempt c left made results).outlook? = q.outlook? := by
  obtain ⟨left',hleft⟩ : ∃ n, q.plan.retries.attempts - 1 - made = n + 1 :=
    ⟨q.plan.retries.attempts - 1 - (made + 1),by omega⟩
  have hleft' : left' = q.plan.retries.attempts - 1 - (made + 1) := by omega
  obtain ⟨rest,hrest,verdict,stop,attempts⟩ := q.plan.retries.tryOn_succ_of_error left' q.now came
  rw [← hleft] at verdict stop attempts
  rw [hleft'] at hrest
  -- The trial of the checker goes on, and both sides come to what the rest of it comes to.
  have goes : q.attempt c left made results =
      ⟨q.plan, (Retries.attemptAt (q.plan.limit c) c made q.now).stop + q.plan.retries.pause,
        .trying (c :: left) (made + 1) results,
        q.acts ++ [.attempt c.name (Retries.attemptAt (q.plan.limit c) c made q.now)]⟩ := by
    simp only [attempt, came, if_pos more]
  rw [goes]
  cases judged : rest.verdict with
  | error words =>
    rw [outlook?_of_crash rfl hrest judged, outlook?_of_crash h rfl (verdict.trans judged), stop, attempts]
    simp only [List.map_cons, List.append_assoc, List.singleton_append]
  | ok v =>
    rw [outlook?_of_ok rfl hrest judged, outlook?_of_ok h rfl (verdict.trans judged), stop, attempts]
    simp only [List.map_cons, List.append_assoc, List.singleton_append]

/-- An attempt changes nothing of what all attempts will come to. -/
theorem outlook?_attempt (h : q.standing = .trying (c :: left) made results) :
    (q.attempt c left made results).outlook? = q.outlook? := by
  by_cases failing : ∃ e, c.fate (q.plan.limit c) made = .ok (.error e)
  · obtain ⟨e,came⟩ := failing
    by_cases more : made + 1 < q.plan.retries.attempts
    · exact outlook?_attempt_of_error h came more
    · exact outlook?_attempt_of_final h (.inl (by omega))
  · exact outlook?_attempt_of_final h (.inr fun e came => failing ⟨e,came⟩)

end Attempt

theorem outlook?_begin (p : Pass) (start : Nat) :
    (begin p start).outlook? = some ⟨p.results start, ((p.trialsFrom start).getLast?.map Trial.stop).getD start,
      attempts p.checkers (p.trialsFrom start)⟩ := by
  exact congrArg (fun ts => some (foresee p.checkers ts start Table.empty []))
    (trialsLeft_zero (begin p start) p.checkers)

def tried (made : Nat) : Except String (Table Verdict) → Standing
  | .ok results => .trying [] made results
  | .error words => .settled (.error (.crashed 0 words))

theorem exists_tried (store : Store σ) {q : Progress} {o : Outlook} (h : q.outlook? = some o) (s : σ) :
    ∃ n made, carryOut store n (q, s) = (⟨q.plan, o.stop, tried made o.results, o.acts⟩, s) := by
  -- Along the attempts that are left: each of them leaves the outlook as it is.
  induction hn : q.stepsLeft using Nat.strongRecOn generalizing q with
  | _ n ih =>
  subst hn
  obtain ⟨plan,now,standing,acts⟩ := q
  cases standing with
  | trying left made results =>
    cases left with
    | nil =>
      simp only [outlook?, trialsLeft, foresee_nil, Option.some.injEq] at h
      subst h
      exact ⟨0,made,rfl⟩
    | cons c left =>
      obtain ⟨n,made',goes⟩ := ih _ (stepsLeft_attempt rfl) ((outlook?_attempt rfl).trans h) rfl
      refine ⟨n + 1,made',?_⟩
      simp only [carryOut, step]
      rw [goes, plan_attempt]
  | writing results status => cases h
  | settled outcome =>
    unfold outlook? at h
    split at h
    · contradiction
    · rename_i words stands
      cases h
      cases stands
      exact ⟨0,0,rfl⟩
    · cases h

end Progress
end Pass
end HealthProbe
