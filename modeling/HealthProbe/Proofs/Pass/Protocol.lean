import HealthProbe.Proofs.NodeStatus.History
import HealthProbe.Proofs.Pass.Duration
import HealthProbe.Proofs.Pass.Steps

/-! # What a pass asks of its store

A pass tries all of its checkers in turn, whatever they come to, and only then turns to its store: it looks
the status of its node up once, and if it got one, writes once what it got with the results put in. It
fails if and as the store fails. If a checker crashes, the pass crashes with it there and then, and the store
is not asked for anything.
-/
namespace HealthProbe

/-- The same store, which also records what it is asked. -/
def Store.recording {σ : Type} (store : Store σ) : Store (σ × List Store.Call) where
  get node s :=
    let answer := store.get node s.1
    (answer.1, answer.2, s.2 ++ [.get node answer.1])
  update status s :=
    let answer := store.update status s.1
    (answer.1, answer.2, s.2 ++ [.update status answer.1])

/-! ## Attempts in turn -/

structure InTurn (start stop : Nat) (as : List Attempt) : Prop where
  le : start ≤ stop
  begins : ∀ a ∈ as, start ≤ a.start
  forward : ∀ a ∈ as, a.start ≤ a.stop
  ends : ∀ a ∈ as, a.stop ≤ stop
  apart : as.Pairwise fun a b => a.stop ≤ b.start

namespace InTurn
variable {start between stop : Nat} {as bs : List Attempt}

theorem nil (start : Nat) : InTurn start start [] := by
  constructor <;> simp

theorem append (ha : InTurn start between as) (hb : InTurn between stop bs) :
    InTurn start stop (as ++ bs) := by
  refine ⟨Nat.le_trans ha.le hb.le,?_,?_,?_,?_⟩
  · intro a h
    rcases List.mem_append.mp h with h | h
    · exact ha.begins a h
    · exact Nat.le_trans ha.le (hb.begins a h)
  · intro a h
    rcases List.mem_append.mp h with h | h
    · exact ha.forward a h
    · exact hb.forward a h
  · intro a h
    rcases List.mem_append.mp h with h | h
    · exact Nat.le_trans (ha.ends a h) hb.le
    · exact hb.ends a h
  · exact List.pairwise_append.mpr
      ⟨ha.apart,hb.apart,fun a h b h' => Nat.le_trans (ha.ends a h) (hb.begins b h')⟩

end InTurn

namespace Retries
variable {r : Retries} {limits : Table Nat} {limit left made now start k : Nat} {c : Checker}
  {cs : List Checker} {t : Trial}

/-- The trial at a place is one of the checker at that place. -/
theorem exists_trial (ht : (r.trials limits cs now)[k]? = some t) :
    ∃ c began, cs[k]? = some c ∧ t = r.trial ((limits.find? c.name).getD 0) c began := by
  induction cs generalizing k now with
  | nil => cases ht
  | cons d cs ih =>
    cases came : (r.trial ((limits.find? d.name).getD 0) d now).verdict with
    | error words =>
      rw [trials_of_crash came] at ht
      cases k with
      | zero => exact ⟨d,now,rfl,(Option.some.inj ht).symm⟩
      | succ k => cases ht
    | ok v =>
      rw [trials_of_ok came] at ht
      cases k with
      | zero =>
        cases ht
        exact ⟨d,now,rfl,rfl⟩
      | succ k => exact ih ht

end Retries

namespace Pass

/-! ## Requests -/

/-- What is asked of a store to put results into the status of a node, what this comes to, and the state
that it leaves: nothing is asked after a crash, a status that could not be looked up is not written, and no
failure is asked about again. -/
inductive Asks {σ : Type} (store : Store σ) (node : String) (moment : Time.Stamp) (s : σ) :
    Except String (Table Verdict) → List Store.Call → Except Failure (Table Verdict) → σ → Prop
  | crashed {words : String} : Asks store node moment s (.error words) [] (.error (.crashed 0 words)) s
  | unread {results : Table Verdict} {e : StoreFailure} {s' : σ}
      (got : store.get node s = (.error e, s')) :
      Asks store node moment s (.ok results) [.get node (.error e)] (.error (.store e)) s'
  | unwritten {results : Table Verdict} {old new : NodeStatus} {e : StoreFailure} {s' s'' : σ}
      (got : store.get node s = (.ok old, s')) (takes : NodeStatus.Takes results old new)
      (dated : new.updatedAt = some moment) (written : store.update new s' = (.error e, s'')) :
      Asks store node moment s (.ok results) [.get node (.ok old), .update new (.error e)]
        (.error (.store e)) s''
  | written {results : Table Verdict} {old new : NodeStatus} {s' s'' : σ}
      (got : store.get node s = (.ok old, s')) (takes : NodeStatus.Takes results old new)
      (dated : new.updatedAt = some moment) (written : store.update new s' = (.ok (), s'')) :
      Asks store node moment s (.ok results) [.get node (.ok old), .update new (.ok ())] (.ok results) s''

variable {σ : Type} {store : Store σ} {p : Pass} {s : σ}

/-- With all attempts made a pass takes two more steps at most. They come to what writing the results
down comes to, and ask what it asks. -/
theorem exists_asks (store : Store σ) (p : Pass) (now made : Nat) (results : Table Verdict)
    (acts : List Act) (s : σ) :
    ∃ calls outcome,
      Progress.carryOut store 2 (⟨p, now, .trying [] made results, acts⟩, s) =
        (⟨p, now, .settled outcome, acts ++ calls.map (.call now)⟩,
          (writeDown store p.node results (p.clock now) s).2) ∧
      (writeDown store.recording p.node results (p.clock now) (s, [])).2 =
        ((writeDown store p.node results (p.clock now) s).2, calls) ∧
      (outcome = match (writeDown store p.node results (p.clock now) s).1 with
        | .error e => .error (.store e)
        | .ok () => .ok results) ∧
      Asks store p.node (p.clock now) s (.ok results) calls outcome
        (writeDown store p.node results (p.clock now) s).2 := by
  rcases got : store.get p.node s with ⟨answer,s'⟩
  cases answer with
  | error e =>
    have whole : writeDown store p.node results (p.clock now) s = (.error e,s') := by
      simp only [writeDown, got]
    rw [whole]
    refine ⟨_,_,?_,?_,?_,.unread got⟩
    · simp [Progress.carryOut, Progress.step, Progress.lookUp, got]
    · simp [writeDown, Store.recording, got]
    · rfl
  | ok old =>
    have takes := old.takes_merge results (p.clock now)
    rcases written : store.update (old.merge results (p.clock now)) s' with ⟨answer,s''⟩
    have whole : writeDown store p.node results (p.clock now) s = (answer,s'') := by
      simp only [writeDown, got, written]
    rw [whole]
    cases answer with
    | error e =>
      refine ⟨_,_,?_,?_,?_,.unwritten got takes rfl written⟩
      · simp [Progress.carryOut, Progress.step, Progress.lookUp, Progress.write, got, written]
      · simp [writeDown, Store.recording, got, written]
      · rfl
    | ok done =>
      refine ⟨_,_,?_,?_,?_,.written got takes rfl written⟩
      · simp [Progress.carryOut, Progress.step, Progress.lookUp, Progress.write, got, written]
      · simp [writeDown, Store.recording, got, written]
      · rfl

theorem perform_stop (p : Pass) (start : Nat) (s : σ) : (p.perform store start s).1.stop =
    ((p.trialsFrom start).getLast?.map Trial.stop).getD start := by
  simp only [perform, trialsFrom]
  split
  · rfl
  · split <;> rfl

theorem perform_trials (p : Pass) (start : Nat) (s : σ) :
    (p.perform store start s).1.trials = p.trialsFrom start := by
  simp only [perform, trialsFrom]
  split
  · rfl
  · split <;> rfl

def calls (store : Store σ) (p : Pass) (start : Nat) (s : σ) : List Store.Call :=
  (p.perform store.recording start (s, [])).2.2

/-- The steps of a pass come to what the pass comes to, and a store that records what it is asked in the
pass as a whole records the calls among them. -/
theorem carryOut_begin (store : Store σ) (p : Pass) (start : Nat) (s : σ) :
    ∃ enough, Progress.carryOut store enough (Progress.begin p start, s) =
        (⟨p, (p.perform store start s).1.stop, .settled (p.perform store start s).1.outcome,
          attempts p.checkers (p.trialsFrom start) ++
            (p.calls store start s).map (.call (p.perform store start s).1.stop)⟩,
          (p.perform store start s).2) ∧
      (p.perform store.recording start (s, [])).2 = ((p.perform store start s).2, p.calls store start s) ∧
      Asks store p.node (p.moment start) s (p.results start) (p.calls store start s)
        (p.perform store start s).1.outcome (p.perform store start s).2 := by
  obtain ⟨n,made,tried⟩ := Progress.exists_tried store (Progress.outlook?_begin p start) s
  rw [perform_stop]
  cases came : p.results start with
  | error words =>
    obtain ⟨outcome,state⟩ := p.perform_of_crash store came s
    obtain ⟨_,record⟩ := p.perform_of_crash store.recording came (s, [])
    rw [came] at tried
    rw [calls, record, outcome, state]
    refine ⟨n,?_,rfl,.crashed⟩
    rw [tried, List.map_nil, List.append_nil]
    rfl
  | ok results =>
    obtain ⟨outcome,state⟩ := p.perform_of_results store came s
    obtain ⟨_,record⟩ := p.perform_of_results store.recording came (s, [])
    obtain ⟨calls,outcome',written,recorded,same,asks⟩ := exists_asks store p
      (((p.trialsFrom start).getLast?.map Trial.stop).getD start) made results
      (attempts p.checkers (p.trialsFrom start)) s
    rw [moment] at outcome state record
    have whole : (p.perform store start s).1.outcome = outcome' := outcome.trans same.symm
    rw [came] at tried
    rw [Pass.calls, record, whole, state, recorded]
    refine ⟨n + 2,?_,rfl,asks⟩
    rw [Progress.carryOut_add, tried]
    exact written

theorem asks_calls (store : Store σ) (p : Pass) (start : Nat) (s : σ) :
    Asks store p.node (p.moment start) s (p.results start) (p.calls store start s)
      (p.perform store start s).1.outcome (p.perform store start s).2 := by
  obtain ⟨_,_,_,asks⟩ := p.carryOut_begin store start s
  exact asks

structure Tries (p : Pass) (start stop : Nat) (ts : List Trial) : Prop where
  inTurn : InTurn start stop (ts.flatMap Trial.attempts)
  each : ∀ (k : Nat) (t : Trial), ts[k]? = some t → ∃ c began last, p.checkers[k]? = some c ∧
    p.retries.Takes (p.limit c) c began last t

section Found
variable {results : Table Verdict} {j k start : Nat} {c : Checker}

/-- In a pass without a crash the last of the checkers with a name has a trial of its own, and the verdict of
this is under the name. -/
theorem exists_trial_of_results (came : p.results start = .ok results) (place : p.checkers[j]? = some c)
    (latest : ∀ (i : Nat) (c' : Checker), j < i → p.checkers[i]? = some c' → c'.name ≠ c.name) :
    ∃ t ∈ p.trialsFrom start, ∃ began v, t = p.retries.trial (p.limit c) c began ∧ t.verdict = .ok v ∧
      results.find? c.name = some v := by
  have sums := p.sums_results start
  rw [came] at sums
  have long : j < (p.trialsFrom start).length := by
    cases sums with
    | whole length _ => exact length ▸ (List.getElem?_eq_some_iff.mp place).1
  have ht : (p.trialsFrom start)[j]? = some (p.trialsFrom start)[j] := List.getElem?_eq_getElem long
  obtain ⟨c',began,hc',trial⟩ := Retries.exists_trial ht
  obtain rfl : c' = c := Option.some.inj (hc'.symm.trans place)
  obtain ⟨v,verdict,found⟩ := sums.latest.last j c' _ place ht latest
  exact ⟨_,List.getElem_mem long,began,v,trial,verdict,found⟩

/-- The last of the checkers with a name has the verdict that goes with its last attempt. -/
theorem find?_results (came : p.results start = .ok results) (place : p.checkers[j]? = some c)
    (latest : ∀ (i : Nat) (c' : Checker), j < i → p.checkers[i]? = some c' → c'.name ≠ c.name)
    (last : p.retries.Last (c.fate (p.limit c)) k) :
    ∃ o, c.fate (p.limit c) k = .ok o ∧ results.find? c.name = some (p.retries.judged o) := by
  obtain ⟨t,_,began,v,rfl,verdict,found⟩ := exists_trial_of_results came place latest
  rw [Retries.verdict_trial last] at verdict
  cases fate : c.fate (p.limit c) k with
  | error words =>
    rw [fate] at verdict
    cases verdict
  | ok o =>
    rw [fate] at verdict
    exact ⟨o,rfl,Except.ok.inj verdict ▸ found⟩

end Found

end Pass
end HealthProbe
