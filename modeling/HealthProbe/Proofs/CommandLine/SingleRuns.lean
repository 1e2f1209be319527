import HealthProbe.Proofs.Agenda.Report
import HealthProbe.Proofs.CommandLine.Agreement
import HealthProbe.Proofs.CommandLine.CheckFailures
import HealthProbe.Proofs.Counters.Snapshots
import HealthProbe.Proofs.Pass.Judgement

/-! # Running checkers that run once

If every entry of a configuration is to run once, carrying it out comes to an end by itself. It fails as
the first of the entries fails whose run does, and what is logged last of the counters has one event of
each entry: no run is without one, since a network check does not say that it was cancelled, and no two
share one, since the names of entries are distinct.
-/
namespace HealthProbe

theorem NetworkCheck.outcome_workBy_ne_cancelled (c : NetworkCheck) (d : Directory)
    (answer : Nat → Address → UInt16 → Probe) : (c.workBy d answer).outcome ≠ .error .cancelled := by
  unfold workBy
  split <;> exact nofun

theorem NetworkCheck.fate_behaviourBy_ne_cancelled (c : NetworkCheck) (d : Directory)
    (answer : Nat → Address → UInt16 → Probing) :
    (c.behaviourBy d answer).fate ≠ .ok (.error .cancelled) := by
  unfold behaviourBy
  split
  · exact nofun
  · exact fun same => outcome_workBy_ne_cancelled _ _ _ (Except.ok.inj same)

/-- A checker of the program never says that it was cancelled, limited or not. -/
theorem Catalogue.fate_ne_cancelled {net : Net} {d : Directory} {node : String} {e : CheckerEntry}
    {c : Checker} (h : (builtin net d node).build e = .ok c) (limit n : Nat) :
    c.fate limit n ≠ .ok (.error .cancelled) := by
  obtain ⟨s,i,_,rfl⟩ := build_builtin_eq_ok_iff.mp h
  intro cancelled
  rcases ((e.checker s i net d node).behaviour n).within_own_or_timeout limit with own | timeout
  · exact NetworkCheck.fate_behaviourBy_ne_cancelled _ _ _ (own.symm.trans cancelled)
  · cases timeout.symm.trans cancelled

namespace Schedule
variable {s : Schedule} {ties : Ties} {place : Nat} {f : Failure} {o : Outcome}

theorem failure?_of_fate (came : ((s.behaviour 0).within s.limit).2 = .ok o) :
    (s.run none ties 0 0).close.failure? place = (Close.finished o).failure? place := by
  rw [close_firstRun, inTime_none, if_pos rfl]
  cases fits : Work.fits s.limit (s.behaviour 0).duration with
  | true =>
    rw [Behaviour.within_of_fits fits] at came
    rw [closeOf_of_fits fits]
    cases works : s.behaviour 0 with
    | crash after words =>
      rw [works] at came
      cases came
    | work w =>
      rw [works] at came
      obtain rfl : w.outcome = o := Except.ok.inj came
      rfl
  | false =>
    rw [Behaviour.within_of_over fits] at came
    rw [closeOf_of_over fits]
    cases came
    rfl

theorem succeeds_iff_of_fate (came : ((s.behaviour 0).within s.limit).2 = .ok o) :
    s.Succeeds none ties ↔ ∃ v, o = .ok v := by
  have first : (s.run none ties 0 0).close.failure? 0 = none ↔ s.Succeeds none ties :=
    failure?_firstRun_eq_none_iff
  rw [← first, failure?_of_fate came]
  cases o <;> simp [Close.failure?]

theorem fails_iff_of_fate (came : ((s.behaviour 0).within s.limit).2 = .ok o) :
    s.Fails none ties place f ↔ ∃ e, o = .error e ∧ f = .check e := by
  rw [← failure?_firstRun_eq_some_iff, failure?_of_fate came]
  cases o <;> simp [Close.failure?, eq_comm]

end Schedule

namespace Site
variable {site : Site} {a : CommandLine} {c : Config} {e : CheckerEntry} {cs : List Checker}
  {tasks : List (Schedule × Ties)}

/-! ## Entries and their schedules -/

def ComesTo (site : Site) (c : Config) (e : CheckerEntry) (o : Outcome) : Prop :=
  ∃ k, (site.catalogue c c.general.nodeName).build e = .ok k ∧ k.fate (1000 * e.timeout.toNat) 0 = .ok o

theorem ComesTo.unique {o o' : Outcome} (h : site.ComesTo c e o) (h' : site.ComesTo c e o') : o = o' := by
  obtain ⟨k,built,came⟩ := h
  obtain ⟨k',built',came'⟩ := h'
  cases built.symm.trans built'
  exact Except.ok.inj (came.symm.trans came')

structure Serves (site : Site) (c : Config) (e : CheckerEntry) (p : Schedule × Ties) : Prop where
  single : p.1.isSingle = true
  follows : p.1.Follows e
  comes : ∃ k o, (site.catalogue c c.general.nodeName).build e = .ok k ∧
    ((p.1.behaviour 0).within p.1.limit).2 = .ok o ∧ k.fate (1000 * e.timeout.toNat) 0 = .ok o

variable {p : Schedule × Ties}

theorem Serves.succeeds_iff (h : site.Serves c e p) :
    p.1.Succeeds none p.2 ↔ ∃ v, site.ComesTo c e (.ok v) := by
  obtain ⟨_,_,k,o,built,lasts,came⟩ := h
  have own : site.ComesTo c e o := ⟨k,built,came⟩
  rw [Schedule.succeeds_iff_of_fate lasts]
  constructor
  · rintro ⟨v,rfl⟩
    exact ⟨v,own⟩
  · rintro ⟨v,told⟩
    exact ⟨v,own.unique told⟩

theorem Serves.fails_iff (h : site.Serves c e p) {place : Nat} {f : Failure} :
    p.1.Fails none p.2 place f ↔ ∃ x, site.ComesTo c e (.error x) ∧ f = .check x := by
  obtain ⟨_,_,k,o,built,lasts,came⟩ := h
  have own : site.ComesTo c e o := ⟨k,built,came⟩
  rw [Schedule.fails_iff_of_fate lasts]
  constructor
  · rintro ⟨x,rfl,same⟩
    exact ⟨x,own,same⟩
  · rintro ⟨x,told,same⟩
    exact ⟨x,own.unique told,same⟩

/-- The run of an entry is one event. -/
theorem Serves.event (h : site.Serves c e p) : ∃ o, site.ComesTo c e o ∧
    p.1.eventOf? (p.1.run none p.2 0 0) = some (Event.of e.kind e.name (Classification.of o)) := by
  obtain ⟨_,follows,k,o,built,lasts,came⟩ := h
  have told : o ≠ .error .cancelled := by
    rintro rfl
    exact Catalogue.fate_ne_cancelled built (1000 * e.timeout.toNat) 0 came
  have whole : (p.1.behaviour 0).within p.1.limit = (((p.1.behaviour 0).within p.1.limit).1, .ok o) :=
    Prod.ext rfl lasts
  refine ⟨o,⟨k,built,came⟩,Schedule.eventOf?_run.mpr ⟨_,⟨o,whole,told,?_⟩,Schedule.inTime_none ..⟩⟩
  rw [follows.name, follows.kind]

theorem singles {es : List CheckerEntry} (served : List.Forall₂ (site.Serves c) es tasks) :
    ∀ p ∈ tasks, p.1.isSingle = true := by
  induction served with
  | nil => exact nofun
  | cons serves _ ih => exact List.forall_mem_cons.mpr ⟨serves.single,ih⟩

/-! ## What they come to -/

/-- What carrying out the entries of a configuration comes to: the failure of the first entry in the list
that fails. -/
structure Judged (site : Site) (c : Config) (outcome : Except Failure Unit) : Prop where
  ok : outcome = .ok () ↔ ∀ e ∈ c.checkers, ∃ v, site.ComesTo c e (.ok v)
  error : ∀ f, outcome = .error f ↔ ∃ (i : Nat) (e : CheckerEntry) (x : CheckFailure),
    c.checkers[i]? = some e ∧ site.ComesTo c e (.error x) ∧ f = .check x ∧
      ∀ (j : Nat) (e' : CheckerEntry), j < i → c.checkers[j]? = some e' →
        ∃ v, site.ComesTo c e' (.ok v)

theorem judged (served : List.Forall₂ (site.Serves c) c.checkers tasks)
    (x : Agenda.Execution none tasks) : site.Judged c x.report.outcome := by
  have task {i : Nat} {e : CheckerEntry} (he : c.checkers[i]? = some e) :
      ∃ p, tasks[i]? = some p ∧ site.Serves c e p := exists_getElem?_of_forall₂ served he
  have entry {i : Nat} {p : Schedule × Ties} (hp : tasks[i]? = some p) :
      ∃ e, c.checkers[i]? = some e ∧ site.Serves c e p := exists_getElem?_of_forall₂ served.flip hp
  constructor
  · rw [x.outcome_eq_ok_iff]
    constructor
    · intro all e he
      obtain ⟨i,hi⟩ := List.mem_iff_getElem?.mp he
      obtain ⟨p,hp,serves⟩ := task hi
      exact serves.succeeds_iff.mp (all i p.1 p.2 hp serves.single)
    · intro all i s ties hp _
      obtain ⟨e,he,serves⟩ := entry hp
      exact serves.succeeds_iff.mpr (all e (List.mem_of_getElem? he))
  · intro f
    rw [x.outcome_eq_error_iff]
    constructor
    · rintro ⟨i,s,ties,hp,_,fails,before⟩
      obtain ⟨e,he,serves⟩ := entry hp
      obtain ⟨cause,came,same⟩ := serves.fails_iff.mp fails
      refine ⟨i,e,cause,he,came,same,?_⟩
      intro j e' hj he'
      obtain ⟨p',hp',serves'⟩ := task he'
      exact serves'.succeeds_iff.mp (before j hj p'.1 p'.2 hp' serves'.single)
    · rintro ⟨i,e,cause,he,came,same,before⟩
      obtain ⟨p,hp,serves⟩ := task he
      refine ⟨i,p.1,p.2,hp,serves.single,serves.fails_iff.mpr ⟨cause,came,same⟩,?_⟩
      intro j hj s' ties' hp' _
      obtain ⟨e',he',serves'⟩ := entry hp'
      exact serves'.succeeds_iff.mpr (before j e' hj he')

/-! ## What they count -/

def Tells (site : Site) (c : Config) (e : CheckerEntry) (v : Event) : Prop :=
  ∃ o, site.ComesTo c e o ∧ v = Event.of e.kind e.name (Classification.of o)

end Site

end HealthProbe
