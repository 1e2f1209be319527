import HealthProbe.Proofs.Counters.Tally
import Mathlib.Algebra.BigOperators.Group.List.Basic
import Mathlib.Algebra.Ring.Nat
import Mathlib.Data.Prod.Lex
import Mathlib.Data.String.Basic

/-! # What counters tell of calls

A call counts one event, which four texts tell from all others. What is asked of the counters afterwards is
answered by the number of calls of some sort: those of one event, those of one name, and in a listing one row
for each event that was called. The order of the calls does not matter.
-/
namespace HealthProbe

inductive Call
  | record (kind name : String) (health : Health) (code : String)
  | recordRun (kind name : String) (run : Classification)
  deriving DecidableEq, Repr

namespace Call

def texts : Call → String × String × String × String
  | record kind name health code => (kind, name, health.label, code)
  | recordRun kind name run => (kind, name, run.health.label, run.code)

def event : Call → Event
  | record kind name health code => ⟨kind, name, health, code⟩
  | recordRun kind name run => .of kind name run

end Call

/-! ## The order of a listing -/

namespace Event
variable {a b : Event}

def texts (e : Event) : String × String × String × String := (e.kind, e.name, e.health.label, e.code)

/-- What a listing goes by: the name, then the label of the health, then the code. -/
def rank (e : Event) : String ×ₗ String ×ₗ String := toLex (e.name, toLex (e.health.label, e.code))

theorem texts_injective : Function.Injective texts := by
  intro a b h
  obtain ⟨kind,name,health,code⟩ := a
  obtain ⟨kind',name',health',code'⟩ := b
  simp only [texts, Prod.mk.injEq] at h
  obtain ⟨rfl,rfl,label,rfl⟩ := h
  rw [Health.label_injective label]

theorem texts_event (k : Call) : k.event.texts = k.texts := by
  cases k <;> rfl

theorem sortTexts_injective : Function.Injective sortTexts := by
  intro a b h
  simp only [sortTexts, List.cons.injEq, and_true] at h
  exact texts_injective (by simp [texts, h])

theorem inOrder_iff_le {as bs : List String} : inOrder as bs = true ↔ as ≤ bs := by
  rw [← not_lt]
  induction as generalizing bs with
  | nil => simp [inOrder]
  | cons a as ih =>
    cases bs with
    | nil => simp [inOrder]
    | cons b bs =>
      rw [inOrder, List.cons_lt_cons_iff]
      by_cases same : a = b
      · simp only [same, ↓reduceIte, ih, lt_irrefl, true_and, false_or]
      · simp only [same, Ne.symm same, ↓reduceIte, decide_eq_true_eq, false_and, or_false]
        exact ⟨fun lt => lt_asymm lt,fun nlt => lt_of_le_of_ne (not_lt.mp nlt) same⟩

theorem rank_le_of_inOrder (h : inOrder a.sortTexts b.sortTexts = true) : a.rank ≤ b.rank := by
  simp only [sortTexts, inOrder] at h
  rw [rank, rank, Prod.Lex.toLex_le_toLex, Prod.Lex.toLex_le_toLex]
  split at h
  · rename_i name
    refine Or.inr ⟨name,?_⟩
    split at h
    · rename_i label
      refine Or.inr ⟨label,?_⟩
      split at h
      · rename_i code
        exact le_of_eq code
      · exact le_of_lt (of_decide_eq_true h)
    · exact Or.inl (of_decide_eq_true h)
  · exact Or.inl (of_decide_eq_true h)

end Event

namespace Counters
variable {c : Counters} {e : Event} {rs rows rows' : List (Event × Nat)} {name : String}
  {calls calls' : List Call}

def call (c : Counters) : Call → Counters
  | .record kind name health code => c.record ⟨kind, name, health, code⟩
  | .recordRun kind name run => c.record (.of kind name run)

def afterCalls (calls : List Call) : Counters := calls.foldl call empty

theorem afterCalls_eq (calls : List Call) : afterCalls calls = empty.recordAll (calls.map Call.event) := by
  have each : call = fun c k => c.record k.event := by
    funext c k
    cases k <;> rfl
  rw [afterCalls, recordAll, List.foldl_map, each]

/-! ## Sums of counts -/

def sumWhere (p : Event → Bool) (rs : List (Event × Nat)) : Nat :=
  (rs.filter fun r => p r.1).foldr (fun r n => r.2 + n) 0

theorem sumWhere_cons (p : Event → Bool) (r : Event × Nat) (rs : List (Event × Nat)) :
    sumWhere p (r :: rs) = (if p r.1 then r.2 else 0) + sumWhere p rs := by
  by_cases h : p r.1 = true <;> simp [sumWhere, h]

theorem sumWhere_bump (p : Event → Bool) (e : Event) (rs : List (Event × Nat)) :
    sumWhere p (bump e rs) = sumWhere p rs + if p e then 1 else 0 := by
  induction rs with
  | nil => exact (sumWhere_cons p (e, 1) []).trans (Nat.add_comm ..)
  | cons r rs ih =>
    obtain ⟨f,n⟩ := r
    rw [bump]
    by_cases same : f = e
    · subst same
      rw [if_pos rfl, sumWhere_cons, sumWhere_cons]
      split <;> omega
    · rw [if_neg same, sumWhere_cons, sumWhere_cons, ih, Nat.add_assoc]

theorem sumWhere_recordAll (p : Event → Bool) (c : Counters) (es : List Event) :
    sumWhere p (c.recordAll es).counts = sumWhere p c.counts + es.countP p := by
  induction es generalizing c with
  | nil => simp [recordAll]
  | cons e es ih =>
    have first : sumWhere p (c.record e).counts = sumWhere p c.counts + if p e then 1 else 0 :=
      sumWhere_bump p e c.counts
    have rest := ih (c.record e)
    rw [first, Nat.add_assoc] at rest
    rw [List.countP_cons, Nat.add_comm (es.countP p)]
    exact rest

theorem sumWhere_all (rs : List (Event × Nat)) : sumWhere (fun _ => true) rs = (rs.map Prod.snd).sum := by
  induction rs with
  | nil => rfl
  | cons r rs ih => rw [sumWhere_cons, ih, List.map_cons, List.sum_cons, if_pos rfl]

/-! ## Listings -/

/-- A listing of counters has all of their rows, by name, health and code. In what order rows stand that differ
in no more than the kind is left open. -/
structure ListedAs (c : Counters) (rows : List (Event × Nat)) : Prop where
  perm : rows.Perm c.counts
  ordered : rows.Pairwise fun r s => r.1.rank ≤ s.1.rank

theorem pairwise_listing (c : Counters) :
    c.listing.Pairwise fun r s => Event.inOrder r.1.sortTexts s.1.sortTexts = true := by
  refine List.pairwise_mergeSort ?_ ?_ _
  · intro r s t rs st
    exact Event.inOrder_iff_le.mpr (le_trans (Event.inOrder_iff_le.mp rs) (Event.inOrder_iff_le.mp st))
  · intro r s
    rw [Bool.or_eq_true, Event.inOrder_iff_le, Event.inOrder_iff_le]
    exact le_total _ _

theorem listedAs_listing (c : Counters) : c.ListedAs c.listing :=
  ⟨List.mergeSort_perm ..,(pairwise_listing c).imp Event.rank_le_of_inOrder⟩

/-- Two listings of the same rows differ in the order of rows of one rank only. -/
theorem ListedAs.map_rank_eq {c' : Counters} (h : c.ListedAs rows) (h' : c'.ListedAs rows')
    (perm : rows'.Perm rows) : (rows'.map fun r => r.1.rank) = rows.map fun r => r.1.rank :=
  (perm.map _).eq_of_pairwise (fun _ _ _ _ => le_antisymm) (List.pairwise_map.mpr h'.ordered)
    (List.pairwise_map.mpr h.ordered)

theorem Sound.counts_perm {c' : Counters} (sound : c.Sound) (sound' : c'.Sound)
    (same : ∀ e, c'.count e = c.count e) : c'.counts.Perm c.counts := by
  refine (List.perm_ext_iff_of_nodup sound'.once.of_map sound.once.of_map).mpr fun r => ?_
  rw [sound'.mem_counts_iff, sound.mem_counts_iff, same]

/-- Counters with the same counts have the same listing. -/
theorem Sound.listing_eq {c' : Counters} (sound : c.Sound) (sound' : c'.Sound)
    (same : ∀ e, c'.count e = c.count e) : c'.listing = c.listing := by
  have perm : c'.listing.Perm c.listing :=
    (listedAs_listing c').perm.trans ((sound.counts_perm sound' same).trans (listedAs_listing c).perm.symm)
  refine perm.eq_of_pairwise ?_ (pairwise_listing c') (pairwise_listing c)
  rintro ⟨e,n⟩ ⟨f,m⟩ he hf ef fe
  have key : e = f := Event.sortTexts_injective
    (le_antisymm (Event.inOrder_iff_le.mp ef) (Event.inOrder_iff_le.mp fe))
  have counted := (sound'.mem_counts_iff.mp ((listedAs_listing c').perm.mem_iff.mp he)).2
  have counted' := (sound.mem_counts_iff.mp ((listedAs_listing c).perm.mem_iff.mp hf)).2
  rw [counted, counted', key, same]

/-! ## What is told -/

structure Tells (c : Counters) (calls : List Call) : Prop where
  count : ∀ kind name health code, c.count ⟨kind, name, health, code⟩ =
    calls.countP fun k => k.texts == (kind, name, health.label, code)
  total : ∀ name, c.total name = calls.countP fun k => k.texts.2.1 == name
  listing : c.ListedAs c.listing
  /-- No two rows of a listing are of the same texts. -/
  once : ∀ rows, c.ListedAs rows → (rows.map fun r => r.1.texts).Nodup
  /-- The rows are the events that were called, with the number of their calls. -/
  rows : ∀ rows, c.ListedAs rows → ∀ e n, (e, n) ∈ rows ↔
    (∃ k ∈ calls, k.texts = e.texts) ∧ n = calls.countP fun k => k.texts == e.texts
  sum : ∀ rows, c.ListedAs rows → (rows.map Prod.snd).sum = calls.length
  /-- No answer is greater than the number of calls. -/
  bounded : (∀ e, c.count e ≤ calls.length) ∧ ∀ name, c.total name ≤ calls.length

structure Agree (c c' : Counters) : Prop where
  count : ∀ e, c'.count e = c.count e
  total : ∀ name, c'.total name = c.total name
  listing : c'.listing = c.listing
  rows : ∀ rows rows', c.ListedAs rows → c'.ListedAs rows' →
    rows'.Perm rows ∧ (rows'.map fun r => r.1.rank) = rows.map fun r => r.1.rank

theorem count_afterCalls (calls : List Call) (e : Event) :
    (afterCalls calls).count e = calls.countP fun k => k.texts == e.texts := by
  rw [afterCalls_eq, count_recordAll, count_empty, Nat.zero_add, List.count_eq_countP, List.countP_map]
  refine List.countP_congr fun k _ => ?_
  rw [← Event.texts_event k]
  simp [Event.texts_injective.eq_iff]

theorem sound_afterCalls (calls : List Call) : (afterCalls calls).Sound := by
  rw [afterCalls_eq]
  exact sound_empty.recordAll _

theorem sumWhere_afterCalls (p : Event → Bool) (calls : List Call) :
    sumWhere p (afterCalls calls).counts = calls.countP fun k => p k.event := by
  rw [afterCalls_eq, sumWhere_recordAll, List.countP_map]
  exact Nat.zero_add _

theorem total_afterCalls (calls : List Call) (name : String) :
    (afterCalls calls).total name = calls.countP fun k => k.texts.2.1 == name := by
  refine (sumWhere_afterCalls (fun e => e.name == name) calls).trans (List.countP_congr fun k _ => ?_)
  rw [← Event.texts_event k]
  rfl

theorem tells_afterCalls (calls : List Call) : (afterCalls calls).Tells calls := by
  have sound := sound_afterCalls calls
  refine ⟨?_,total_afterCalls calls,listedAs_listing _,?_,?_,?_,?_,?_⟩
  · intro kind name health code
    exact count_afterCalls calls ⟨kind, name, health, code⟩
  · intro rows listed
    have keys : (rows.map Prod.fst).Nodup := (listed.perm.map Prod.fst).nodup_iff.mpr sound.once
    have texts := keys.map Event.texts_injective
    rwa [List.map_map] at texts
  · intro rows listed e n
    rw [listed.perm.mem_iff, sound.mem_counts_iff, count_afterCalls]
    refine and_congr_left fun same => ?_
    rw [same, List.countP_pos_iff]
    simp
  · intro rows listed
    rw [(listed.perm.map Prod.snd).sum_eq, ← sumWhere_all, sumWhere_afterCalls, List.countP_true]
  · intro e
    rw [count_afterCalls]
    exact List.countP_le_length
  · intro name
    rw [total_afterCalls]
    exact List.countP_le_length

theorem agree_of_perm (perm : calls'.Perm calls) : (afterCalls calls).Agree (afterCalls calls') := by
  have same : ∀ e, (afterCalls calls').count e = (afterCalls calls).count e := fun e => by
    rw [count_afterCalls, count_afterCalls, perm.countP_eq]
  have sound := sound_afterCalls calls
  have sound' := sound_afterCalls calls'
  refine ⟨same,?_,sound.listing_eq sound' same,?_⟩
  · intro name
    rw [total_afterCalls, total_afterCalls, perm.countP_eq]
  · intro rows rows' listed listed'
    have rowsPerm : rows'.Perm rows :=
      listed'.perm.trans ((sound.counts_perm sound' same).trans listed.perm.symm)
    exact ⟨rowsPerm,listed.map_rank_eq listed' rowsPerm⟩

/-- Counters tell how often each event was called, in whatever order the calls were made. -/
theorem calls_told (calls : List Call) :
    (afterCalls calls).Tells calls ∧
      ∀ calls', calls'.Perm calls → (afterCalls calls).Agree (afterCalls calls') :=
  ⟨tells_afterCalls calls,fun _ => agree_of_perm⟩

def twoKinds : List Call :=
  [.record "network" "dns" .unknown "RunError", .record "disk" "dns" .unknown "RunError",
    .recordRun "network" "dns" (.of (.error .cancelled))]

theorem calls_told_twoKinds :
    twoKinds.reverse.Perm twoKinds ∧ (afterCalls twoKinds).total "dns" = 3 ∧
      (afterCalls twoKinds).Agree (afterCalls twoKinds.reverse) :=
  ⟨List.reverse_perm _,by decide,(calls_told twoKinds).2 _ (List.reverse_perm _)⟩

end Counters
end HealthProbe
