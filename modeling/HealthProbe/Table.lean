/-! # Tables

A table gives each of its names one value and lists them in the order of their characters. Two tables
with the same entries are equal, whatever order the entries came in.
-/
namespace HealthProbe

structure Table (α : Type) where
  entries : List (String × α)
  sorted : entries.Pairwise fun a b => a.1 < b.1
  deriving DecidableEq

namespace Table
variable {α β : Type}

def put (name : String) (value : α) : List (String × α) → List (String × α)
  | [] => [(name, value)]
  | (n, v) :: rest =>
    if name < n then (name, value) :: (n, v) :: rest
    else if name = n then (name, value) :: rest
    else (n, v) :: put name value rest

theorem mem_put {name : String} {value : α} {e : String × α} :
    ∀ {es : List (String × α)}, e ∈ put name value es → e = (name, value) ∨ e ∈ es
  | [], h => by simpa [put] using h
  | (n, v) :: rest, h => by
    unfold put at h
    split at h
    · simpa using h
    · split at h
      · rcases List.mem_cons.mp h with h | h
        · exact Or.inl h
        · exact Or.inr (List.mem_cons_of_mem _ h)
      · rcases List.mem_cons.mp h with h | h
        · exact Or.inr (h ▸ List.mem_cons_self)
        · exact (mem_put h).imp_right (List.mem_cons_of_mem _)

theorem pairwise_put (name : String) (value : α) :
    ∀ {es : List (String × α)}, es.Pairwise (fun a b => a.1 < b.1) →
      (put name value es).Pairwise fun a b => a.1 < b.1
  | [], _ => by simp [put]
  | (n, v) :: rest, h => by
    have ⟨hd, tl⟩ := List.pairwise_cons.mp h
    unfold put
    split
    · rename_i lt
      refine List.pairwise_cons.mpr ⟨?_, h⟩
      intro e he
      rcases List.mem_cons.mp he with rfl | he
      · exact lt
      · exact String.lt_trans lt (hd e he)
    · split
      · rename_i eq
        subst eq
        exact List.pairwise_cons.mpr ⟨fun e he => hd e he, tl⟩
      · rename_i nlt ne
        refine List.pairwise_cons.mpr ⟨?_, pairwise_put name value tl⟩
        intro e he
        rcases mem_put he with rfl | he
        · have le : n ≤ name := String.not_lt.mp nlt
          rcases Decidable.em (n < name) with lt | nlt'
          · exact lt
          · exact absurd (String.le_antisymm (String.not_lt.mp nlt') le) ne
        · exact hd e he

def empty : Table α := ⟨[], List.Pairwise.nil⟩

instance : Inhabited (Table α) := ⟨empty⟩

def insert (t : Table α) (name : String) (value : α) : Table α :=
  ⟨put name value t.entries, pairwise_put name value t.sorted⟩

def find? (t : Table α) (name : String) : Option α := t.entries.lookup name

def contains (t : Table α) (name : String) : Bool := (t.find? name).isSome

def names (t : Table α) : List String := t.entries.map Prod.fst

def erase (t : Table α) (name : String) : Table α :=
  ⟨t.entries.filter (·.1 != name), t.sorted.filter _⟩

def mapValues (f : α → β) (t : Table α) : Table β :=
  ⟨t.entries.map fun e => (e.1, f e.2), List.pairwise_map.mpr t.sorted⟩

/-- Puts the entries of a list one after the other: of two with one name the later stays. -/
def insertAll (t : Table α) (es : List (String × α)) : Table α :=
  es.foldl (fun t e => t.insert e.1 e.2) t

def ofList (es : List (String × α)) : Table α := empty.insertAll es

@[simp] theorem entries_empty : (empty : Table α).entries = [] := rfl

@[simp] theorem find?_empty (name : String) : (empty : Table α).find? name = none := rfl

theorem lookup_put_self (name : String) (value : α) :
    ∀ es : List (String × α), (put name value es).lookup name = some value
  | [] => by simp [put]
  | (n, v) :: rest => by
    unfold put
    split
    · simp
    · split
      · simp
      · rename_i ne
        simp [List.lookup_cons, beq_eq_false_iff_ne.mpr ne, lookup_put_self name value rest]

theorem lookup_put_of_ne {name other : String} (value : α) (h : other ≠ name) :
    ∀ es : List (String × α), (put name value es).lookup other = es.lookup other
  | [] => by simp [put, List.lookup_cons, beq_eq_false_iff_ne.mpr h]
  | (n, v) :: rest => by
    unfold put
    split
    · simp [List.lookup_cons, beq_eq_false_iff_ne.mpr h]
    · split
      · rename_i eq
        subst eq
        simp [List.lookup_cons, beq_eq_false_iff_ne.mpr h]
      · simp [List.lookup_cons, lookup_put_of_ne value h rest]

@[simp] theorem find?_insert_self (t : Table α) (name : String) (value : α) :
    (t.insert name value).find? name = some value :=
  lookup_put_self name value t.entries

theorem find?_insert_of_ne (t : Table α) {name other : String} (value : α) (h : other ≠ name) :
    (t.insert name value).find? other = t.find? other :=
  lookup_put_of_ne value h t.entries

theorem lookup_filter_ne (name other : String) :
    ∀ es : List (String × α), (es.filter (·.1 != name)).lookup other =
      if other = name then none else es.lookup other
  | [] => by simp
  | (n, v) :: rest => by
    have ih := lookup_filter_ne name other rest
    rcases Decidable.em (n = name) with rfl | ne
    · rcases Decidable.em (other = n) with rfl | ne
      · simpa using ih
      · simpa [List.lookup_cons, beq_eq_false_iff_ne.mpr ne, ne] using ih
    · rcases Decidable.em (other = n) with rfl | ne'
      · simp [ne]
      · simpa [List.filter_cons, List.lookup_cons, ne, beq_eq_false_iff_ne.mpr ne'] using ih

theorem find?_erase (t : Table α) (name other : String) :
    (t.erase name).find? other = if other = name then none else t.find? other :=
  lookup_filter_ne name other t.entries

theorem put_of_forall_lt {name : String} (value : α) :
    ∀ {es : List (String × α)}, (∀ e ∈ es, e.1 < name) → put name value es = es ++ [(name, value)]
  | [], _ => rfl
  | (n, v) :: rest, h => by
    have lt : n < name := h (n, v) List.mem_cons_self
    have ih := put_of_forall_lt value fun e he => h e (List.mem_cons_of_mem _ he)
    have ne : name ≠ n := fun eq => String.lt_irrefl n (eq ▸ lt)
    rw [put, if_neg (String.lt_asymm lt), if_neg ne, ih, List.cons_append]

theorem entries_insertAll {es : List (String × α)} :
    ∀ {t : Table α}, (t.entries ++ es).Pairwise (fun a b => a.1 < b.1) →
      (t.insertAll es).entries = t.entries ++ es := by
  induction es with
  | nil => intro t _; simp [insertAll]
  | cons e es ih =>
    intro t h
    have lt : ∀ x ∈ t.entries, x.1 < e.1 := fun x hx =>
      (List.pairwise_append.mp h).2.2 x hx e List.mem_cons_self
    have step : (t.insert e.1 e.2).entries = t.entries ++ [e] := put_of_forall_lt e.2 lt
    have rest := ih (t := t.insert e.1 e.2) (by simpa [step] using h)
    rw [step, List.append_assoc] at rest
    exact rest

/-- A table is made of its own entries. -/
@[simp] theorem ofList_entries (t : Table α) : ofList t.entries = t := by
  have h : (empty.insertAll t.entries).entries = t.entries := entries_insertAll t.sorted
  cases ht : ofList t.entries
  cases t
  simp_all [ofList]

/-! ## Values under names -/

/-- Of the entries with one name the last counts, and before all of them the table's own. -/
theorem find?_insertAll (t : Table α) (es : List (String × α)) (name : String) :
    (t.insertAll es).find? name = (es.reverse.lookup name).or (t.find? name) := by
  induction es generalizing t with
  | nil => rfl
  | cons e es ih =>
    obtain ⟨n, v⟩ := e
    have first : (t.insert n v).find? name = ([(n, v)].lookup name).or (t.find? name) := by
      rcases Decidable.em (name = n) with rfl | ne
      · simp
      · simp [List.lookup_cons, beq_eq_false_iff_ne.mpr ne, find?_insert_of_ne t v ne]
    have rest := ih (t.insert n v)
    rw [first, ← Option.or_assoc, ← List.lookup_append, ← List.reverse_cons] at rest
    exact rest

theorem find?_ofList (es : List (String × α)) (name : String) :
    (ofList es).find? name = es.reverse.lookup name := by
  rw [ofList, find?_insertAll, find?_empty, Option.or_none]

theorem lookup_reverse_entries (t : Table α) (name : String) :
    t.entries.reverse.lookup name = t.find? name := by
  rw [← find?_ofList, ofList_entries]

theorem find?_mapValues (f : α → β) (t : Table α) (name : String) :
    (t.mapValues f).find? name = (t.find? name).map f := by
  have along : ∀ es : List (String × α),
      (es.map fun e => (e.1, f e.2)).lookup name = (es.lookup name).map f := by
    intro es
    induction es with
    | nil => rfl
    | cons e es ih =>
      rw [List.map_cons, List.lookup_cons, List.lookup_cons]
      split
      · rfl
      · exact ih
  exact along t.entries

/-- Where no key comes twice, every entry is found under its key. -/
theorem lookup_eq_some_of_mem {κ ν : Type} [BEq κ] [LawfulBEq κ] {es : List (κ × ν)} {k : κ} {v : ν}
    (h : (es.map Prod.fst).Nodup) (mem : (k, v) ∈ es) : es.lookup k = some v := by
  induction es with
  | nil => cases mem
  | cons e es ih =>
    obtain ⟨key,_⟩ := e
    obtain ⟨fresh,rest⟩ := List.nodup_cons.mp h
    rcases List.mem_cons.mp mem with same | later
    · cases same
      simp
    · have ne : k ≠ key := fun same => fresh (List.mem_map.mpr ⟨(k, v),later,same⟩)
      simp [List.lookup_cons, beq_eq_false_iff_ne.mpr ne, ih rest later]

theorem find?_ofList_of_mem {es : List (String × α)} {name : String} {v : α}
    (h : (es.map Prod.fst).Nodup) (mem : (name, v) ∈ es) : (ofList es).find? name = some v := by
  have turned : (es.reverse.map Prod.fst).Nodup := by
    rw [List.map_reverse]
    exact List.pairwise_reverse.mpr (h.imp Ne.symm)
  rw [find?_ofList]
  exact lookup_eq_some_of_mem turned (List.mem_reverse.mpr mem)

theorem mem_names_iff {t : Table α} {name : String} :
    name ∈ t.names ↔ (t.find? name).isSome = true := by
  simp only [names, find?, List.lookup_isSome_iff, List.mem_map, beq_iff_eq]
  exact ⟨fun ⟨e,he,same⟩ => ⟨e,he,same.symm⟩,fun ⟨e,he,same⟩ => ⟨e,he,same.symm⟩⟩

theorem nodup_names (t : Table α) : t.names.Nodup := by
  refine List.pairwise_map.mpr (t.sorted.imp ?_)
  intro a b lt eq
  exact String.lt_irrefl a.1 (eq ▸ lt)

end Table
end HealthProbe
