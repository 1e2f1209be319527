import HealthProbe.Proofs.Counters.Calls
import HealthProbe.Proofs.Counters.Snapshots

/-! # Looks at the counters

The counters are looked at on every multiple of an interval before a cancellation and once more at the
cancellation. A look sees all that was counted before its instant, nothing that is counted later, and of what
is counted at its instant whatever came first. A log keeps the looks that saw anything.
-/
namespace HealthProbe

namespace Counters

theorem isEmpty_recordAll_empty (es : List Event) : (empty.recordAll es).isEmpty = es.isEmpty := by
  cases es with
  | nil => rfl
  | cons e es => exact isEmpty_recordAll (List.cons_ne_nil e es)

theorem count_recordAll_empty (es : List Event) (e : Event) : (empty.recordAll es).count e = es.count e := by
  rw [count_recordAll, count_empty, Nat.zero_add]

end Counters

namespace SnapshotLog
variable {before es es' : List Event} {events : List TimedEvent} {interval cancel k t : Nat}
  {ts ts' : List Nat} {looks : List (Nat × List Event)} {ties : Ties}

/-! ## Instants -/

def multiples (interval count : Nat) : List Nat := (List.range count).map fun i => (i + 1) * interval

theorem multiples_succ (interval k : Nat) :
    multiples interval (k + 1) = multiples interval k ++ [(k + 1) * interval] := by
  rw [multiples, List.range_succ, List.map_append]
  rfl

theorem pairwise_multiples (pos : 0 < interval) (k : Nat) : (multiples interval k).Pairwise (· < ·) := by
  rw [multiples, List.pairwise_map]
  exact List.pairwise_lt_range.imp fun lt => Nat.mul_lt_mul_of_pos_right (Nat.succ_lt_succ lt) pos

theorem mem_multiples_iff (pos : 0 < interval) :
    t ∈ multiples interval k ↔ 0 < t ∧ interval ∣ t ∧ t ≤ k * interval := by
  rw [multiples, List.mem_map]
  constructor
  · rintro ⟨i,hi,rfl⟩
    have within : i + 1 ≤ k := List.mem_range.mp hi
    exact ⟨Nat.mul_pos (Nat.succ_pos i) pos,Nat.dvd_mul_left ..,Nat.mul_le_mul_right _ within⟩
  · rintro ⟨some,⟨m,rfl⟩,le⟩
    rw [Nat.mul_comm] at some le ⊢
    have first : 0 < m := Nat.pos_of_mul_pos_right some
    have last : m ≤ k := Nat.le_of_mul_le_mul_right le pos
    exact ⟨m - 1,List.mem_range.mpr (by omega),by rw [Nat.sub_add_cancel first]⟩

/-- Instants of looks: in their order all multiples of an interval that come before a cancellation, that of the
cancellation itself or not, and then the cancellation. -/
def AreInstants (interval cancel : Nat) (ts : List Nat) : Prop :=
  ∃ ticks, ts = ticks ++ [cancel] ∧ ticks.Pairwise (· < ·) ∧
    (∀ t ∈ ticks, 0 < t ∧ interval ∣ t ∧ t ≤ cancel) ∧
    ∀ t, 0 < t → interval ∣ t → t < cancel → t ∈ ticks

theorem areInstants_multiples (pos : 0 < interval) (reached : k * interval ≤ cancel)
    (next : cancel ≤ (k + 1) * interval) : AreInstants interval cancel (multiples interval k ++ [cancel]) := by
  refine ⟨_,rfl,pairwise_multiples pos k,?_,?_⟩
  · intro t ht
    obtain ⟨some,multiple,le⟩ := (mem_multiples_iff pos).mp ht
    exact ⟨some,multiple,Nat.le_trans le reached⟩
  · rintro t some ⟨m,rfl⟩ early
    refine (mem_multiples_iff pos).mpr ⟨some,Nat.dvd_mul_right ..,?_⟩
    rw [Nat.mul_comm] at early ⊢
    have less : m < k + 1 := Nat.lt_of_mul_lt_mul_right (Nat.lt_of_lt_of_le early next)
    exact Nat.mul_le_mul_right _ (Nat.le_of_lt_succ less)

theorem AreInstants.pairwise_le (h : AreInstants interval cancel ts) : ts.Pairwise (· ≤ ·) := by
  obtain ⟨ticks,rfl,sorted,within,-⟩ := h
  refine List.pairwise_append.mpr ⟨sorted.imp Nat.le_of_lt,List.pairwise_singleton ..,?_⟩
  intro t ht c hc
  rw [List.mem_singleton.mp hc]
  exact (within t ht).2.2

/-- Only a look on the cancellation is left open. -/
theorem AreInstants.unique (h : AreInstants interval cancel ts) (h' : AreInstants interval cancel ts')
    (apart : 0 < cancel → ¬interval ∣ cancel) : ts = ts' := by
  obtain ⟨ticks,rfl,sorted,within,all⟩ := h
  obtain ⟨ticks',rfl,sorted',within',all'⟩ := h'
  have early : ∀ t, 0 < t ∧ interval ∣ t ∧ t ≤ cancel → t < cancel := by
    rintro t ⟨some,multiple,le⟩
    refine Nat.lt_of_le_of_ne le ?_
    rintro rfl
    exact apart some multiple
  have same : ∀ t, t ∈ ticks ↔ t ∈ ticks' := fun t =>
    ⟨fun ht => all' t (within t ht).1 (within t ht).2.1 (early t (within t ht)),
      fun ht => all t (within' t ht).1 (within' t ht).2.1 (early t (within' t ht))⟩
  have perm : ticks.Perm ticks' :=
    (List.perm_ext_iff_of_nodup (sorted.imp Nat.ne_of_lt) (sorted'.imp Nat.ne_of_lt)).mpr same
  rw [perm.eq_of_pairwise (fun _ _ _ _ lt gt => absurd gt (Nat.lt_asymm lt)) sorted sorted']

/-! ## What a look sees -/

/-- What may have been counted at an instant: what was counted at first, all that is due before the instant, of
what is due at it any part, and no more. -/
def Recorded (before : List Event) (events : List TimedEvent) (t : Nat) (es : List Event) : Prop :=
  ∃ seen rest, es = before ++ seen.map TimedEvent.event ∧ events.Perm (seen ++ rest) ∧
    (∀ e ∈ seen, e.time ≤ t) ∧ ∀ e ∈ rest, t ≤ e.time

def countBefore (before : List Event) (events : List TimedEvent) (t : Nat) (e : Event) : Nat :=
  before.count e + events.countP fun x => x.event == e && x.time < t

def countUntil (before : List Event) (events : List TimedEvent) (t : Nat) (e : Event) : Nat :=
  before.count e + events.countP fun x => x.event == e && x.time ≤ t

theorem Recorded.bounds (h : Recorded before events t es) (e : Event) :
    countBefore before events t e ≤ es.count e ∧ es.count e ≤ countUntil before events t e := by
  obtain ⟨seen,rest,rfl,perm,past,later⟩ := h
  have counted : (seen.map TimedEvent.event).count e = seen.countP fun x => x.event == e := by
    rw [List.count_eq_countP, List.countP_map]
    rfl
  rw [List.count_append, counted, countBefore, countUntil, perm.countP_eq, perm.countP_eq, List.countP_append,
    List.countP_append]
  have none : (rest.countP fun x => x.event == e && x.time < t) = 0 := by
    rw [List.countP_eq_zero]
    intro x hx
    simp [Nat.not_lt.mpr (later x hx)]
  have fewer : (seen.countP fun x => x.event == e && x.time < t) ≤ seen.countP fun x => x.event == e :=
    List.countP_mono_left fun x _ both => (Bool.and_eq_true_iff.mp both).1
  have all : (seen.countP fun x => x.event == e) = seen.countP fun x => x.event == e && x.time ≤ t :=
    List.countP_congr fun x hx => by simp [past x hx]
  omega

/-- If nothing is due at the instant of a look, it is settled what the look sees. -/
theorem Recorded.count_eq (h : Recorded before events t es) (h' : Recorded before events t es')
    (apart : ∀ x ∈ events, x.time ≠ t) (e : Event) : es.count e = es'.count e := by
  have same : countBefore before events t e = countUntil before events t e := by
    refine congrArg (before.count e + ·) (List.countP_congr fun x hx => ?_)
    have ne := apart x hx
    simp only [Bool.and_eq_true, decide_eq_true_eq]
    exact and_congr_right fun _ => ⟨Nat.le_of_lt,fun le => Nat.lt_of_le_of_ne le ne⟩
  have bounds := h.bounds e
  have bounds' := h'.bounds e
  omega

theorem Recorded.ne_nil (h : Recorded before events t es)
    (counted : before ≠ [] ∨ ∃ e ∈ events, e.time < t) : es ≠ [] := by
  obtain ⟨seen,rest,rfl,perm,-,later⟩ := h
  rintro none
  obtain ⟨rfl,unseen⟩ := List.append_eq_nil_iff.mp none
  rcases counted with absent | ⟨e,he,early⟩
  · exact absent rfl
  · rw [List.map_eq_nil_iff.mp unseen] at perm
    exact absurd (later e (perm.mem_iff.mp he)) (Nat.not_le.mpr early)

structure Sees (before : List Event) (events : List TimedEvent) (interval cancel : Nat)
    (looks : List (Nat × List Event)) : Prop where
  instants : AreInstants interval cancel (looks.map Prod.fst)
  recorded : ∀ l ∈ looks, Recorded before events l.1 l.2
  /-- Nothing that was seen is missing later. -/
  grows : looks.Pairwise fun a b => a.2.Sublist b.2

/-! ## The log of looks -/

def logged (looks : List (Nat × List Event)) : List (Nat × Counters) :=
  (looks.filter fun l => !l.2.isEmpty).map fun l => (l.1, Counters.empty.recordAll l.2)

theorem logged_append (looks looks' : List (Nat × List Event)) :
    logged (looks ++ looks') = logged looks ++ logged looks' := by
  rw [logged, List.filter_append, List.map_append]
  rfl

theorem logged_singleton (t : Nat) (es : List Event) :
    logged [(t, es)] = if es.isEmpty then [] else [(t, Counters.empty.recordAll es)] := by
  cases es <;> rfl

structure Faithful (before : List Event) (events : List TimedEvent) (interval cancel : Nat)
    (log : List (Nat × Counters)) : Prop where
  /-- It has every look but those before anything was counted. -/
  looks : ∃ looks, Sees before events interval cancel looks ∧ log = logged looks
  /-- A snapshot has what is due before it, and nothing that is due later. -/
  bounds : ∀ s ∈ log, ∀ e,
    countBefore before events s.1 e ≤ s.2.count e ∧ s.2.count e ≤ countUntil before events s.1 e
  ascending : log.Pairwise fun a b => a.1 ≤ b.1 ∧ ∀ e, a.2.count e ≤ b.2.count e
  /-- The last snapshot is that of the cancellation. -/
  last : (before ≠ [] ∨ ∃ e ∈ events, e.time < cancel) →
    ∃ front c, log = front ++ [(cancel, c)] ∧ ∀ e, countBefore before events cancel e ≤ c.count e

theorem Sees.faithful (h : Sees before events interval cancel looks) :
    Faithful before events interval cancel (logged looks) := by
  refine ⟨⟨looks,h,rfl⟩,?_,?_,?_⟩
  · intro s hs e
    obtain ⟨l,hl,rfl⟩ := List.mem_map.mp hs
    rw [Counters.count_recordAll_empty]
    exact (h.recorded l (List.mem_filter.mp hl).1).bounds e
  · have times : looks.Pairwise fun a b => a.1 ≤ b.1 := List.pairwise_map.mp h.instants.pairwise_le
    rw [logged, List.pairwise_map]
    refine ((times.and h.grows).filter _).imp ?_
    rintro a b ⟨le,sub⟩
    refine ⟨le,fun e => ?_⟩
    rw [Counters.count_recordAll_empty, Counters.count_recordAll_empty]
    exact sub.count_le e
  · intro counted
    obtain ⟨ticks,ends,-⟩ := h.instants
    obtain ⟨front,back,rfl,-,hback⟩ := List.map_eq_append_iff.mp ends
    obtain ⟨⟨t,es⟩,rfl,rfl⟩ := List.map_eq_singleton_iff.mp hback
    have seen : Recorded before events t es := h.recorded (t, es) (by simp)
    have some : es.isEmpty = false := List.isEmpty_eq_false_iff.mpr (seen.ne_nil counted)
    refine ⟨logged front,Counters.empty.recordAll es,?_,fun e => ?_⟩
    · simp only [logged_append, logged_singleton, some, Bool.false_eq_true, ↓reduceIte]
    · rw [Counters.count_recordAll_empty]
      exact (seen.bounds e).1

/-- Looks at the same instants that have counted the same log the same lines. -/
theorem lines_logged_eq (clock : Nat → Time.Stamp) (seen : Nat → List Event)
    (same : ∀ l ∈ looks, ∀ e, l.2.count e = (seen l.1).count e) :
    (logged looks).map (fun s => line clock s.1 s.2) =
      (logged ((looks.map Prod.fst).map fun t => (t, seen t))).map fun s => line clock s.1 s.2 := by
  induction looks with
  | nil => rfl
  | cons l looks ih =>
    obtain ⟨t,es⟩ := l
    obtain ⟨here,later⟩ := List.forall_mem_cons.mp same
    have perm : es.Perm (seen t) := List.perm_iff_count.mpr here
    have listing : (Counters.empty.recordAll es).listing = (Counters.empty.recordAll (seen t)).listing :=
      (Counters.sound_empty.recordAll (seen t)).listing_eq (Counters.sound_empty.recordAll es) fun e => by
        rw [Counters.count_recordAll_empty, Counters.count_recordAll_empty, here]
    have first : (logged [(t, es)]).map (fun s => line clock s.1 s.2) =
        (logged [(t, seen t)]).map fun s => line clock s.1 s.2 := by
      rw [logged_singleton, logged_singleton, perm.isEmpty_eq]
      split
      · rfl
      · simp only [List.map_cons, List.map_nil, line, listing]
    calc (logged ((t, es) :: looks)).map (fun s => line clock s.1 s.2)
      _ = (logged [(t, es)] ++ logged looks).map fun s => line clock s.1 s.2 :=
        congrArg _ (logged_append [(t, es)] looks)
      _ = (logged [(t, seen t)] ++ logged ((looks.map Prod.fst).map fun t => (t, seen t))).map
          fun s => line clock s.1 s.2 := by rw [List.map_append, List.map_append, first, ih later]
      _ = _ := congrArg _ (logged_append [(t, seen t)] _).symm

/-! ## Snapshots -/

theorem isIn_iff {e : TimedEvent} :
    isIn ties t e = true ↔ e.time < t ∨ e.time = t ∧ ties.eventsFirst = true := by
  simp [isIn]

def seenAt (ties : Ties) (before : List Event) (events : List TimedEvent) (t : Nat) : List Event :=
  before ++ (events.filter (isIn ties t)).map TimedEvent.event

theorem recorded_seenAt (ties : Ties) (before : List Event) (events : List TimedEvent) (t : Nat) :
    Recorded before events t (seenAt ties before events t) := by
  refine ⟨_,_,rfl,(List.filter_append_perm (isIn ties t) events).symm,?_,?_⟩
  · intro e he
    have inside := isIn_iff.mp (List.mem_filter.mp he).2
    omega
  · intro e he
    have outside := mt isIn_iff.mpr (by simpa using (List.mem_filter.mp he).2)
    omega

theorem seenAt_sublist (ties : Ties) (before : List Event) (events : List TimedEvent) {t t' : Nat}
    (le : t ≤ t') : (seenAt ties before events t).Sublist (seenAt ties before events t') := by
  refine ((List.monotone_filter_right events fun e he => ?_).map _).append_left before
  rw [isIn_iff] at he ⊢
  rcases he with early | ⟨rfl,first⟩
  · exact .inl (Nat.lt_of_lt_of_le early le)
  · exact (Nat.lt_or_eq_of_le le).imp id fun same => ⟨same,first⟩

theorem ticksFrom_eq (ties : Ties) (interval cancel left k : Nat) :
    ∃ n, ticksFrom ties interval cancel left (k + 1) =
        (List.range n).map (fun i => (k + i + 1) * interval) ∧
      n ≤ left ∧ (n = left ∨ cancel ≤ (k + n + 1) * interval) := by
  induction left generalizing k with
  | zero => exact ⟨0,rfl,Nat.le_refl _,.inl rfl⟩
  | succ left ih =>
    rw [ticksFrom]
    split
    · obtain ⟨n,rest,le,stops⟩ := ih (k + 1)
      refine ⟨n + 1,?_,by omega,?_⟩
      · rw [rest, List.range_succ_eq_map, List.map_cons, List.map_map]
        refine congrArg _ (List.map_congr_left fun i _ => ?_)
        rw [Function.comp_apply, Nat.add_assoc k 1 i, Nat.add_comm 1 i]
      · refine stops.imp (by omega) fun late => ?_
        rwa [show k + (n + 1) + 1 = k + 1 + n + 1 by omega]
    · rename_i late
      simp only [Bool.or_eq_true, decide_eq_true_eq, not_or, Nat.not_lt] at late
      exact ⟨0,rfl,Nat.zero_le _,.inr late.1⟩

theorem areInstants_instants (pos : 0 < interval) (ties : Ties) (cancel : Nat) :
    AreInstants interval cancel (instants ties interval cancel) := by
  obtain ⟨n,ticks,le,stops⟩ := ticksFrom_eq ties interval cancel (cancel / interval) 0
  have reached : n * interval ≤ cancel := (Nat.le_div_iff_mul_le pos).mp le
  have next : cancel ≤ (n + 1) * interval := by
    rcases stops with rfl | late
    · exact Nat.le_of_lt (Nat.lt_mul_of_div_lt (Nat.lt_succ_self _) pos)
    · rwa [Nat.zero_add] at late
  simp only [Nat.zero_add] at ticks
  rw [instants, if_neg (Nat.ne_of_gt pos), ticks]
  exact areInstants_multiples pos reached next

theorem sees_instants (pos : 0 < interval) (ties : Ties) (before : List Event) (events : List TimedEvent)
    (cancel : Nat) : Sees before events interval cancel
      ((instants ties interval cancel).map fun t => (t, seenAt ties before events t)) := by
  have times : ((instants ties interval cancel).map fun t => (t, seenAt ties before events t)).map Prod.fst =
      instants ties interval cancel := by simp [Function.comp_def]
  have sorted := areInstants_instants pos ties cancel
  refine ⟨by rwa [times],?_,?_⟩
  · intro l hl
    obtain ⟨t,-,rfl⟩ := List.mem_map.mp hl
    exact recorded_seenAt ties before events t
  · exact List.pairwise_map.mpr (sorted.pairwise_le.imp fun le => seenAt_sublist ties before events le)

theorem snapshots_eq_logged (ties : Ties) (before : List Event) (events : List TimedEvent)
    (interval cancel : Nat) : snapshots ties (Counters.empty.recordAll before) events interval cancel =
      logged ((instants ties interval cancel).map fun t => (t, seenAt ties before events t)) := by
  have each (t : Nat) : countersAt ties (Counters.empty.recordAll before) events t =
      Counters.empty.recordAll (seenAt ties before events t) := List.foldl_append.symm
  simp only [snapshots, logged, each, List.filter_map, List.map_map, Function.comp_def,
    Counters.isEmpty_recordAll_empty]

end SnapshotLog
end HealthProbe
