import HealthProbe.Counters.Basic
import HealthProbe.Table
import Mathlib.Data.List.Nodup
import Mathlib.Data.Set.Card

/-! # Counting events

Counters made by recording a list of events are the table of its multiplicities: one row for each event
of the list, with the number of its occurrences.
-/
namespace HealthProbe.Counters

/-- Every event has one row, and none stands at zero. -/
structure Sound (c : Counters) : Prop where
  once : (c.counts.map Prod.fst).Nodup
  pos : ∀ r ∈ c.counts, 0 < r.2

variable {c : Counters} {e f : Event} {m : Nat}

theorem count_record (c : Counters) (e f : Event) :
    (c.record e).count f = c.count f + if e = f then 1 else 0 := by
  by_cases h : f = e
  · subst h
    simp
  · simp [count_record_of_ne c h, Ne.symm h]

theorem count_recordAll (c : Counters) (es : List Event) (f : Event) :
    (c.recordAll es).count f = c.count f + es.count f := by
  induction es generalizing c with
  | nil => simp [recordAll]
  | cons e es ih =>
    have hstep := ih (c.record e)
    rw [count_record] at hstep
    rw [List.count_cons]
    simp only [beq_iff_eq]
    simp only [recordAll, List.foldl_cons] at hstep ⊢
    omega

theorem mem_keys_bump {rs : List (Event × Nat)} :
    f ∈ (bump e rs).map Prod.fst ↔ f = e ∨ f ∈ rs.map Prod.fst := by
  induction rs with
  | nil => simp [bump]
  | cons r rs ih =>
    obtain ⟨g,n⟩ := r
    by_cases h : g = e
    · subst h
      simp [bump]
    · simp only [bump, h, ↓reduceIte, List.map_cons, List.mem_cons, ih]
      tauto

theorem nodup_keys_bump {rs : List (Event × Nat)} (h : (rs.map Prod.fst).Nodup) :
    ((bump e rs).map Prod.fst).Nodup := by
  induction rs with
  | nil => simp [bump]
  | cons r rs ih =>
    obtain ⟨g,n⟩ := r
    obtain ⟨hg,hrs⟩ := List.nodup_cons.mp h
    by_cases hge : g = e
    · simpa [bump, hge] using h
    · simp only [bump, hge, ↓reduceIte, List.map_cons, List.nodup_cons]
      exact ⟨fun hmem => (mem_keys_bump.mp hmem).elim hge hg,ih hrs⟩

theorem pos_bump {rs : List (Event × Nat)} (h : ∀ r ∈ rs, 0 < r.2) : ∀ r ∈ bump e rs, 0 < r.2 := by
  induction rs with
  | nil => simp [bump]
  | cons r rs ih =>
    obtain ⟨hr,hrs⟩ := List.forall_mem_cons.mp h
    simp only [bump]
    split
    · exact List.forall_mem_cons.mpr ⟨Nat.succ_pos _,hrs⟩
    · exact List.forall_mem_cons.mpr ⟨hr,ih hrs⟩

theorem sound_empty : empty.Sound := ⟨by simp [empty],by simp [empty]⟩

theorem Sound.record (h : c.Sound) (e : Event) : (c.record e).Sound :=
  ⟨nodup_keys_bump h.once,pos_bump h.pos⟩

theorem Sound.recordAll (h : c.Sound) (es : List Event) : (c.recordAll es).Sound := by
  induction es generalizing c with
  | nil => exact h
  | cons e es ih => exact ih (h.record e)

/-- The rows are the events that were counted, each with its count. -/
theorem Sound.mem_counts_iff (h : c.Sound) : (e, m) ∈ c.counts ↔ 0 < m ∧ m = c.count e := by
  constructor
  · intro mem
    exact ⟨h.pos _ mem,by simp [count, Table.lookup_eq_some_of_mem h.once mem]⟩
  · rintro ⟨pos,rfl⟩
    cases hl : c.counts.lookup e with
    | none => simp [count, hl] at pos
    | some n =>
      obtain ⟨l,r,hc,_⟩ := List.lookup_eq_some_iff.mp hl
      rw [count, hl, hc]
      simp

/-! ## Counting by places -/

def places {α : Type} (p : α → Bool) (l : List α) : Set Nat := {n | ∃ a, l[n]? = some a ∧ p a = true}

theorem places_cons {α : Type} (p : α → Bool) (a : α) (l : List α) :
    places p (a :: l) = {n | n = 0 ∧ p a = true} ∪ Nat.succ '' places p l := by
  ext n
  cases n <;> simp [places]

theorem countP_eq_ncard {α : Type} (p : α → Bool) (l : List α) :
    (places p l).Finite ∧ l.countP p = (places p l).ncard := by
  induction l with
  | nil => simp [places]
  | cons a l ih =>
    obtain ⟨hfin,hcard⟩ := ih
    have himage := hfin.image Nat.succ
    have hsucc := Set.ncard_image_of_injective (places p l) Nat.succ_injective
    rw [places_cons, List.countP_cons]
    cases h : p a with
    | false =>
      have hzero : {n | n = 0 ∧ false = true} = (∅ : Set Nat) := by simp
      rw [hzero, Set.empty_union, hsucc, hcard]
      exact ⟨himage,rfl⟩
    | true =>
      have hzero : {n | n = 0 ∧ true = true} = ({0} : Set Nat) := by simp
      have hdisj : (0 : Nat) ∉ Nat.succ '' places p l := by simp
      rw [hzero, Set.singleton_union, Set.ncard_insert_of_notMem hdisj himage, hsucc, hcard]
      exact ⟨himage.insert 0,rfl⟩

end HealthProbe.Counters
