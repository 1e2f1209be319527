import HealthProbe.Proofs.Agenda.Accounting
import HealthProbe.Proofs.Pass.Protocol

/-! # What a pass keeps and what an agenda counts

A pass keeps an entry for each of its checkers, and an agenda counts the runs of its schedules. Both judge
by outcomes, in ways of their own: the pass makes a verdict of its last attempt, whatever came of it, and
the agenda classifies the run, unless it says that it was cancelled. An agenda cannot tell whether it was
itself that cancelled such a run; a pass takes it for a failure like any other.
-/
namespace HealthProbe

/-- How an entry classifies its checker. One without a code is read as that of a healthy target. -/
def Result.classification (r : Result) : Classification :=
  ⟨r.health, r.code.getD Classification.healthyCode⟩

theorem Result.Tells.classification {r : Result} {v : Verdict} (h : r.Tells v) :
    r.classification = Classification.of (.ok v) := by
  rw [Result.classification, h.health, h.code]
  rfl

/-! ## The entry of a checker -/

/-- The verdict on a checker is classified as the outcome of its last attempt. -/
theorem Retries.classification_judged (r : Retries) (o : Outcome) :
    Classification.of (.ok (r.judged o)) = Classification.of o := by
  cases o with
  | ok v => rfl
  | error e => rfl

namespace Pass
variable {σ : Type} {store : Store σ} {p : Pass} {node : String} {results : Except String (Table Verdict)}
  {moment : Time.Stamp} {s s' : σ} {asked : List Store.Call} {outcome : Except Failure (Table Verdict)}
  {new : NodeStatus} {answer : Except StoreFailure Unit}

theorem eq_of_update_mem {got : Except StoreFailure NodeStatus} {new' : NodeStatus}
    {answer' : Except StoreFailure Unit}
    (mem : Store.Call.update new answer ∈ [.get node got, .update new' answer']) : new' = new := by
  simp only [List.mem_cons, List.not_mem_nil, or_false, reduceCtorEq, false_or,
    Store.Call.update.injEq] at mem
  exact mem.1.symm

theorem Asks.takes (h : Asks store node moment s results asked outcome s')
    (mem : .update new answer ∈ asked) :
    ∃ table old, results = .ok table ∧ NodeStatus.Takes table old new := by
  cases h with
  | crashed => simp at mem
  | unread => simp at mem
  | unwritten _ takes => exact ⟨_,_,rfl,eq_of_update_mem mem ▸ takes⟩
  | written _ takes => exact ⟨_,_,rfl,eq_of_update_mem mem ▸ takes⟩

theorem Asks.exists_update {table : Table Verdict}
    (h : Asks store node moment s results asked outcome s') (ok : outcome = .ok table) :
    ∃ new, .update new (.ok ()) ∈ asked := by
  cases h with
  | crashed => cases ok
  | unread => cases ok
  | unwritten => cases ok
  | written => exact ⟨_,List.mem_cons_of_mem _ List.mem_cons_self⟩

/-- Every status that a pass asks its store to write classifies a checker in the same way, and a pass
that succeeds does ask. -/
structure Classifies (store : Store σ) (p : Pass) (start : Nat) (s : σ) (name : String)
    (k : Classification) : Prop where
  asks : ∀ table, (p.perform store start s).1.outcome = .ok table →
    ∃ new, .update new (.ok ()) ∈ p.calls store start s
  entry : ∀ new answer, .update new answer ∈ p.calls store start s →
    ∃ entry, new.results.find? name = some entry ∧ entry.classification = k

theorem classifies_of_last {j k start : Nat} {c : Checker} {o : Outcome}
    (place : p.checkers[j]? = some c)
    (latest : ∀ (i : Nat) (c' : Checker), j < i → p.checkers[i]? = some c' → c'.name ≠ c.name)
    (last : p.retries.Last (c.fate (p.limit c)) k) (came : c.fate (p.limit c) k = .ok o) :
    p.Classifies store start s c.name (Classification.of o) := by
  have asks := asks_calls store p start s
  refine ⟨fun _ => asks.exists_update,?_⟩
  intro new answer mem
  obtain ⟨table,old,results,takes⟩ := asks.takes mem
  obtain ⟨o',came',found⟩ := find?_results results place latest last
  obtain rfl : o' = o := Except.ok.inj (came'.symm.trans came)
  obtain ⟨entry,stands,tells⟩ := takes.told c.name _ found
  exact ⟨entry,stands,tells.classification.trans (p.retries.classification_judged _)⟩

end Pass

/-! ## The event of a run -/

namespace Schedule
variable {s : Schedule} {cancel : Option Nat} {ties : Ties} {n : Nat} {o : Outcome}

/-- The run with a number takes place and comes to an outcome while nothing has been cancelled. -/
def Finishes (s : Schedule) (cancel : Option Nat) (ties : Ties) (n : Nat) (o : Outcome) : Prop :=
  ∃ due start d, s.Starts cancel ties n due start ∧ (s.behaviour n).within s.limit = (d, .ok o) ∧
    inTime cancel (ties.run n) (start + d) = true

theorem Finishes.counts_iff (h : s.Finishes cancel ties n o) (e : Event) :
    s.Counts cancel ties e n ↔
      o ≠ .error .cancelled ∧ e = Event.of s.kind s.name (Classification.of o) := by
  obtain ⟨due,start,d,starts,lasts,early⟩ := h
  constructor
  · rintro ⟨_,_,_,_,⟨o',lasts',told,event⟩,_⟩
    obtain ⟨_,rfl⟩ : d = _ ∧ o = o' := by simpa [lasts'] using lasts.symm
    exact ⟨told,event⟩
  · rintro ⟨told,event⟩
    exact ⟨due,start,d,starts,⟨o,lasts,told,event⟩,early⟩

end Schedule

/-- What a pass keeps for a checker goes with the last of its attempts, and an agenda counts a run with the
outcome of that attempt once, under the same classification. Only a run that says itself that it was
cancelled counts for nothing, though nobody has cancelled it. -/
theorem Pass.judged_as_counted {σ : Type} (store : Store σ) (p : Pass) (start : Nat) (st : σ)
    {j : Nat} {c : Checker} (place : p.checkers[j]? = some c)
    (latest : ∀ (i : Nat) (c' : Checker), j < i → p.checkers[i]? = some c' → c'.name ≠ c.name) :
    ∃ k, p.retries.Last (c.fate (p.limit c)) k ∧ ∀ o, c.fate (p.limit c) k = .ok o →
      p.Classifies store start st c.name (Classification.of o) ∧
      (∀ (s : Schedule) (n : Nat), s.limit = p.limit c → s.behaviour n = c.behaviour k →
        ((s.behaviour n).within s.limit).2 = .ok o) ∧
      ∀ (cancel : Option Nat) (tasks : List (Schedule × Ties)) (x : Agenda.Execution cancel tasks),
        Agenda.Accounts cancel tasks x.final.counters ∧
        ∀ (s : Schedule) (ties : Ties) (n : Nat), (s, ties) ∈ tasks → s.name = c.name →
          s.Finishes cancel ties n o → ∀ e, s.Counts cancel ties e n ↔
            o ≠ .error .cancelled ∧ e = Event.of s.kind c.name (Classification.of o) := by
  obtain ⟨k,tried⟩ := p.retries.exists_tried (p.limit c) c start
  refine ⟨k,tried.last,?_⟩
  intro o came
  refine ⟨classifies_of_last place latest tried.last came,?_,?_⟩
  · intro s n limit works
    rw [works, limit]
    exact came
  · intro cancel tasks x
    refine ⟨x.accounts,?_⟩
    intro s ties n _ named finishes e
    rw [finishes.counts_iff, named]

def slowOnce : Checker :=
  ⟨"dns", fun n =>
    .work (if n = 0 then ⟨9, .ok .healthy, []⟩ else ⟨1, .ok (.unhealthy "LinkDown" "no route"), []⟩)⟩

def slowOncePass : Pass :=
  ⟨"first", "node-1", ⟨2, 1⟩, Table.ofList [("dns", 5)], [slowOnce], fun _ => .epoch⟩

def slowOnceSchedule : Schedule := ⟨"dns", "network", 10, 5, slowOnce.behaviour⟩

theorem Pass.judged_as_counted_slowOnce :
    ∃ new entry, .update new (.ok ()) ∈ slowOncePass.calls MemoryStore.store 0 Table.empty ∧
      new.results.find? "dns" = some entry ∧ entry.classification = ⟨.unhealthy, "LinkDown"⟩ ∧
      slowOnceSchedule.Counts (some 30) .work ⟨"network", "dns", .unhealthy, "LinkDown"⟩ 1 := by
  have alone : ∀ (i : Nat) (c' : Checker), 0 < i → slowOncePass.checkers[i]? = some c' →
      c'.name ≠ slowOnce.name := by
    intro i c' later found
    have none : slowOncePass.checkers[i]? = none := List.getElem?_eq_none later
    rw [none] at found
    cases found
  have first : slowOncePass.checkers[0]? = some slowOnce := rfl
  obtain ⟨k,last,judged⟩ :=
    Pass.judged_as_counted MemoryStore.store slowOncePass 0 Table.empty first alone
  have second : slowOncePass.retries.Last (slowOnce.fate (slowOncePass.limit slowOnce)) 1 := by
    refine ⟨by decide,?_,.inl rfl⟩
    intro i hi
    obtain rfl : i = 0 := by omega
    exact ⟨_,rfl⟩
  obtain rfl := last.unique second
  obtain ⟨classifies,_,counted⟩ := judged (.ok (.unhealthy "LinkDown" "no route")) rfl
  have kept : (slowOncePass.perform MemoryStore.store 0 Table.empty).1.outcome =
      .ok (Table.ofList [("dns", .unhealthy "LinkDown" "no route")]) := by decide +kernel
  obtain ⟨new,asked⟩ := classifies.asks _ kept
  obtain ⟨entry,stands,told⟩ := classifies.entry new (.ok ()) asked
  obtain ⟨r,ran⟩ := Option.isSome_iff_exists.mp
    (Agenda.run_isSome 0 30 [(slowOnceSchedule, .work)])
  obtain ⟨x,_⟩ := Agenda.run_eq_some ran
  have starts : slowOnceSchedule.Starts (some 30) .work 1 10 10 := Schedule.starts_iff.mpr rfl
  have finishes : slowOnceSchedule.Finishes (some 30) .work 1 (.ok (.unhealthy "LinkDown" "no route")) :=
    ⟨10,10,1,starts,rfl,rfl⟩
  have counts := (counted _ _ x).2 slowOnceSchedule .work 1 (List.mem_singleton_self _) rfl finishes
  exact ⟨new,entry,asked,stands,told,(counts _).mpr ⟨nofun,rfl⟩⟩

def quitter : Checker := .constant "dns" (.error .cancelled)

def quitterPass : Pass := ⟨"first", "node-1", ⟨1, 0⟩, Table.empty, [quitter], fun _ => .epoch⟩

def quitterSchedule : Schedule := ⟨"dns", "network", 0, 0, quitter.behaviour⟩

/-- The one run of the schedule is over by itself and comes to what the one attempt comes to. The pass
keeps an entry, and the counters stay empty. -/
theorem quitter_kept_and_not_counted :
    quitterPass.retries.Last (quitter.fate (quitterPass.limit quitter)) 0 ∧
      quitter.fate (quitterPass.limit quitter) 0 = .ok (.error .cancelled) ∧
      quitterSchedule.Finishes none .work 0 (.error .cancelled) ∧
      (((MemoryStore.get "node-1" (quitterPass.perform MemoryStore.store 0 Table.empty).2).results.find?
        "dns").map Result.classification = some ⟨.unknown, Classification.failureCode⟩) ∧
      ∃ r, Agenda.run 0 none [(quitterSchedule, .work)] = some r ∧ r.counters = Counters.empty := by
  refine ⟨⟨by decide,nofun,.inl rfl⟩,rfl,⟨0,0,0,.first (.inl rfl),rfl,rfl⟩,by decide +kernel,_,rfl,rfl⟩

end HealthProbe
