import HealthProbe.Proofs.Network.Deadlines
import HealthProbe.Proofs.Pass.Crashes

/-! # Checks that crash

A network check crashes only with one of its probes, and a probe only if it asks a name server with a deadline
that the clock does not show. So checks keep going as long as the clock gets to all their deadlines.
-/
namespace HealthProbe

theorem Probing.mem_of_firstCrash? {ps : List Probing} {after : Nat} {words : String}
    (h : firstCrash? ps = some (after, words)) : .crash after words ∈ ps := by
  induction ps with
  | nil => cases h
  | cons p ps ih =>
    cases p with
    | probe p => exact List.mem_cons_of_mem _ (ih h)
    | crash after' words' =>
      rw [firstCrash?] at h
      split at h
      · cases h
        exact List.mem_cons_self
      · rename_i earlier last found
        split at h
        · cases h
          exact List.mem_cons_of_mem _ (ih found)
        · cases h
          exact List.mem_cons_self

theorem NetworkCheck.crash_of_behaviourBy {c : NetworkCheck} {d : Directory}
    {answer : Nat → Address → UInt16 → Probing} {after : Nat} {words : String}
    (h : c.behaviourBy d answer = .crash after words) :
    ∃ i a, answer i a c.spec.port = .crash after words := by
  unfold behaviourBy at h
  split at h
  · rename_i after' words' found
    cases h
    have mem := Probing.mem_of_firstCrash? found
    unfold asked at mem
    split at mem
    · obtain ⟨i,bound,same⟩ := List.mem_mapIdx.mp mem
      exact ⟨i,_,same⟩
    · cases mem
  · cases h

theorem Inquiry.crash_of_probing {i : Inquiry} {target : String} {echo : Echo} {after : Nat}
    {words : String} (h : i.probing target echo = .crash after words) :
    words = Dns.noDeadline ∧ ∃ name seconds, i = .dns name seconds ∧
      1000 * Dns.clockEnd ≤ echo.now + 1000 * seconds.toNat := by
  cases i with
  | dns name seconds =>
    rw [probing] at h
    by_cases inside : echo.now + 1000 * seconds.toNat < 1000 * Dns.clockEnd
    · rw [Dns.exchangeFrom_of_onClock inside] at h
      cases h
    · split at h
      · rename_i words' crashed
        cases h
        rw [Dns.exchangeFrom] at crashed
        split at crashed
        · cases crashed
          exact ⟨rfl,name,seconds,rfl,Nat.not_lt.mp inside⟩
        · cases crashed
      · cases h
  | http path seconds =>
    rw [probing] at h
    split at h <;> cases h

def Config.OnTime (c : Config) (echo : Inquiry → UInt16 → Nat → Address → Echo) : Prop :=
  ∀ e ∈ c.checkers, ∀ s name seconds, e.Inquires s (.dns name seconds) → ∀ run a,
    (echo (.dns name seconds) s.port run a).now + 1000 * seconds.toNat < 1000 * Dns.clockEnd

theorem Catalogue.crash_of_fate {net : Net} {d : Directory} {node words : String} {e : CheckerEntry}
    {c : Checker} {limit run : Nat} (built : (builtin net d node).build e = .ok c)
    (crash : c.fate limit run = .error words) :
    ∃ s i a after, e.Inquires s i ∧ net i s.port run a = .crash after words := by
  obtain ⟨s,i,inquires,rfl⟩ := build_builtin_eq_ok_iff.mp built
  obtain ⟨after,works⟩ := Checker.fate_eq_error crash
  obtain ⟨_,a,probing⟩ := NetworkCheck.crash_of_behaviourBy works
  exact ⟨s,i,a,after,inquires,probing⟩

/-- The checker of an entry crashes only where the clock does not get to a deadline. -/
theorem Catalogue.late_of_crash {echo : Inquiry → UInt16 → Nat → Address → Echo} {d : Directory}
    {node words : String} {e : CheckerEntry} {c : Checker} {limit run : Nat}
    (built : (builtin (.ofEchoes echo) d node).build e = .ok c) (crash : c.fate limit run = .error words) :
    words = Dns.noDeadline ∧ ∃ s name seconds a, e.Inquires s (.dns name seconds) ∧
      1000 * Dns.clockEnd ≤ (echo (.dns name seconds) s.port run a).now + 1000 * seconds.toNat := by
  obtain ⟨s,i,a,after,inquires,probing⟩ := crash_of_fate built crash
  obtain ⟨last,name,seconds,rfl,late⟩ := Inquiry.crash_of_probing probing
  exact ⟨last,s,name,seconds,a,inquires,late⟩

theorem Config.OnTime.not_crash {c : Config} {echo : Inquiry → UInt16 → Nat → Address → Echo} {d : Directory}
    {node words : String} {e : CheckerEntry} {k : Checker} {limit run : Nat} (h : c.OnTime echo)
    (he : e ∈ c.checkers) (built : (Catalogue.builtin (.ofEchoes echo) d node).build e = .ok k) :
    k.fate limit run ≠ .error words := by
  intro crash
  obtain ⟨_,s,name,seconds,a,inquires,late⟩ := Catalogue.late_of_crash built crash
  exact absurd (h e he s name seconds inquires run a) (Nat.not_lt.mpr late)

end HealthProbe
